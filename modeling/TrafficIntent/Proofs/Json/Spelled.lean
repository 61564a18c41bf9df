import TrafficIntent.Json.Text
import TrafficIntent.Proofs.Json.Decoded
import TrafficIntent.Proofs.Json.Spelling

namespace TrafficIntent

/-- A record of some other reader with the fields that a record of trees has. `reads` says when the
other reader makes a value of a tree, and it does wherever the reader of trees does. -/
structure Record.Follows {m : Type → Type} {σ : Type} (r : Record Json.Decoder σ) (r' : Record m σ)
    (reads : m (σ → σ) → Json → (σ → σ) → Prop) : Prop where
  blank : r'.blank = r.blank
  unknown : ∀ k, r.field? k = none → r'.field? k = none
  known : ∀ k f, r.field? k = some f → ∃ g, r'.field? k = some g ∧ g.name = f.name ∧
    ∀ j set, f.read j = .ok set → reads g.read j set
  complete : ∀ seen, r.missing? seen = none → r'.missing? seen = none

namespace Json

namespace Scan

variable {α σ : Type} {u v w cs rest : List Char}

private theorem exists_shortEscape {c e : Char} (escape : shortEscape? e = some c) (r : List Char)
    (p : Position) :
    (∃ q, stringBody ('\\' :: e :: r) p = do
        let (cs, k) ← stringBody r q
        return (c :: cs, k)) ∧
      ∃ q, stringEnd ('\\' :: e :: r) p = stringEnd r q := by
  unfold shortEscape? at escape
  split at escape <;>
    first
    | contradiction
    | obtain rfl := Option.some.inj escape
      exact ⟨⟨_, rfl⟩, ⟨_, rfl⟩⟩

private theorem toNat_valid (c : Char) : c.toNat < 0xD800 ∨ 0xDFFF < c.toNat := by
  have valid := c.valid
  have same : c.toNat = c.val.toNat := rfl
  rw [UInt32.isValidChar, Nat.isValidChar] at valid
  omega

private theorem isPlain_notControl {c : Char} (shown : isPlain c = true) : ¬c < ' ' := by
  simp only [isPlain, Bool.and_eq_true, Bool.or_eq_true, decide_eq_true_eq] at shown
  intro control
  have below : c.toNat < 0x20 := control
  omega

/-- A character is read as what its spelling stands for, and passed over alike. -/
theorem stringBody_spelled {c : Char} (spelled : SpellsChar c w) (r : List Char) (p : Position) :
    (∃ q, stringBody (w ++ r) p = do
        let (cs, k) ← stringBody r q
        return (c :: cs, k)) ∧
      ∃ q, stringEnd (w ++ r) p = stringEnd r q := by
  cases spelled with
  | plain shown =>
    have quote := isPlain_ne shown (d := '\x22') (by decide)
    have backslash := isPlain_ne shown (d := '\\') (by decide)
    refine ⟨⟨p.past c, ?_⟩, ⟨p.past c, ?_⟩⟩
    · rw [List.cons_append, List.nil_append, stringBody, if_neg (isPlain_notControl shown)]
      · exact quote
      all_goals
        intros
        exact backslash ‹_›
    · rw [List.cons_append, List.nil_append, stringEnd, if_neg (isPlain_notControl shown)]
      · exact quote
      all_goals
        intros
        exact backslash ‹_›
  | short escape => exact exists_shortEscape escape r p
  | @quad a b d e digits =>
    refine ⟨⟨⟨p.line, p.column + 6⟩, ?_⟩, ⟨⟨p.line, p.column + 6⟩, ?_⟩⟩
    · show stringBody ('\\' :: 'u' :: a :: b :: d :: e :: r) p = _
      rw [stringBody, digits]
      simp only
      rw [if_pos (toNat_valid c), Char.ofNat_toNat]
      rfl
    · show stringEnd ('\\' :: 'u' :: a :: b :: d :: e :: r) p = _
      rw [stringEnd, digits]
      rfl

theorem takes_spelledRest {s : String} (spelled : SpellsText s v) :
    Takes stringRest (v ++ '\x22' :: rest) s rest ∧
      Takes skipStringRest (v ++ '\x22' :: rest) () rest := by
  obtain ⟨ps, chars, text, rfl⟩ := spelled
  have body (ps : List (Char × List Char)) (chars : ∀ p ∈ ps, SpellsChar p.1 p.2) (p : Position) :
      (∃ q, stringBody (ps.flatMap Prod.snd ++ '\x22' :: rest) p =
          .ok (ps.map Prod.fst, ⟨rest, q⟩)) ∧
        ∃ q, stringEnd (ps.flatMap Prod.snd ++ '\x22' :: rest) p = .ok ⟨rest, q⟩ := by
    induction ps generalizing p with
    | nil => exact ⟨⟨_, rfl⟩, ⟨_, rfl⟩⟩
    | cons c ps ih =>
      rw [List.flatMap_cons, List.append_assoc]
      obtain ⟨⟨q, step⟩, ⟨q', passes⟩⟩ :=
        stringBody_spelled (chars c List.mem_cons_self) (ps.flatMap Prod.snd ++ '\x22' :: rest) p
      have later := ih fun d hd => chars d (List.mem_cons_of_mem _ hd)
      obtain ⟨⟨r, read⟩, -⟩ := later q
      obtain ⟨-, ⟨r', passed⟩⟩ := later q'
      rw [step, read, passes, passed]
      exact ⟨⟨r, rfl⟩, ⟨r', rfl⟩⟩
  constructor
  · intro p
    obtain ⟨⟨q, read⟩, -⟩ := body ps chars p
    refine ⟨q, ?_⟩
    simp only [stringRest, StateT.run_bind, StateT.run_get, pure_bind]
    show ((stringBody (ps.flatMap Prod.snd ++ '\x22' :: rest) p >>= fun r =>
      pure (r, (_ : Cursor))) >>= fun r => _) = _
    rw [read, ← text]
    exact congrArg (fun t => Except.ok (t, (⟨rest, q⟩ : Cursor))) String.ofList_toList
  · intro p
    obtain ⟨-, ⟨q, passed⟩⟩ := body ps chars p
    refine ⟨q, ?_⟩
    simp only [skipStringRest, StateT.run_bind, StateT.run_get, pure_bind]
    show ((stringEnd (ps.flatMap Prod.snd ++ '\x22' :: rest) p >>= fun r =>
      pure (r, (_ : Cursor))) >>= fun r => _) = _
    rw [passed]
    rfl

theorem takes_passGap {c : Char} {t : List Char} (gap : Gap u) (shown : isSpace c = false) :
    Takes passSpace (u ++ c :: t) (some c) (c :: t) :=
  takes_passSpace gap (by simpa using shown)

theorem takes_spelledColon {t : List Char} (gap : Gap u) : Takes colon (u ++ ':' :: t) () t :=
  (takes_passGap gap rfl).bind (takes_pass 1)

/-- No number goes on beyond white space, a comma or a bracket. -/
theorem ends_gap {c : Char} (gap : Gap u) (hc : c = ',' ∨ c = ']' ∨ c = '}') :
    Ends (u ++ c :: cs) := by
  intro d hd
  cases u with
  | nil =>
    obtain rfl := Option.some.inj hd
    obtain rfl | rfl | rfl := hc <;> decide
  | cons e u =>
    obtain rfl := Option.some.inj hd
    have space := gap e List.mem_cons_self
    simp only [isSpace, Bool.or_eq_true, beq_iff_eq] at space
    rcases space with ((rfl | rfl) | rfl) | rfl <;> decide

theorem ends_of_gap (gap : Gap u) : Ends u := by
  intro d hd
  have space := gap d (List.mem_of_mem_head? hd)
  simp only [isSpace, Bool.or_eq_true, beq_iff_eq] at space
  rcases space with ((rfl | rfl) | rfl) | rfl <;> decide

theorem ends_spelledItems {js : List Json} (spelled : SpellsItems false js v) :
    Ends (v ++ ']' :: rest) := by
  cases js with
  | nil => exact ends_gap spelled (.inr (.inl rfl))
  | cons j js =>
    obtain ⟨lead, w, r, ⟨u, x, gap, -, rfl⟩, -, -, rfl⟩ := spelled
    rw [List.append_assoc, List.append_assoc]
    exact ends_gap gap (.inl rfl)

theorem ends_spelledMembers {ms : List (String × Json)} (spelled : SpellsMembers false ms v) :
    Ends (v ++ '}' :: rest) := by
  cases ms with
  | nil => exact ends_gap spelled (.inr (.inr rfl))
  | cons m ms =>
    obtain ⟨lead, key, gap, w, r, ⟨u, x, space, -, rfl⟩, -, -, -, -, rfl⟩ := spelled
    rw [List.append_assoc, List.append_assoc]
    exact ends_gap space (.inl rfl)

private theorem ends_apart (ends : Ends cs) : (cs.head?.map Char.isDigit).getD false = false ∧
    (cs.head? == some '.') = false ∧ (cs.head? == some 'e' || cs.head? == some 'E') = false := by
  cases cs with
  | nil => exact ⟨rfl, rfl, rfl⟩
  | cons c cs =>
    obtain ⟨digit, point, small, large⟩ := ends c rfl
    simp [digit, point, small, large]

theorem takes_skipNumber (n : Nat) (ends : Ends cs) :
    Takes skipNumber (Nat.toDigits 10 n ++ cs) () cs := by
  obtain ⟨digit, point, exponent⟩ := ends_apart ends
  unfold skipNumber
  cases Nat.eq_zero_or_pos n with
  | inl zero =>
    subst zero
    refine takes_ahead.bind ((takes_pass 1).bind (takes_ahead.bind ?_))
    show Takes (if (cs.head?.map Char.isDigit).getD false = true then _ else _) cs () cs
    rw [digit, if_neg (by simp)]
    refine takes_ahead.bind ?_
    rw [point, if_neg (by simp)]
    refine takes_ahead.bind ?_
    simp only [exponent, if_false, Bool.false_eq_true]
    exact takes_pure ()
  | inr pos =>
    obtain ⟨c, ds, digits, nonzero⟩ := exists_toDigits pos
    have start : (Nat.toDigits 10 n ++ cs).head? = some c := by rw [digits]; rfl
    refine takes_ahead.bind ?_
    rw [start]
    split
    next zero =>
      obtain rfl := Option.some.inj zero
      contradiction
    next d _ same =>
      obtain rfl := Option.some.inj same
      rw [if_pos nonzero]
      refine (takes_digits n ends).bind (takes_ahead.bind ?_)
      rw [point, if_neg (by simp)]
      refine takes_ahead.bind ?_
      simp only [exponent, if_false, Bool.false_eq_true]
      exact takes_pure ()
    next none => contradiction

theorem takes_skipValue_digits (n : Nat) (gap : Gap u) (ends : Ends cs) (fuel : Nat) :
    Takes (skipValue (fuel + 1)) (u ++ (Nat.toDigits 10 n ++ cs)) () cs := by
  have number := takes_skipNumber n ends
  obtain ⟨c, ds, digits, digit⟩ := exists_digits n
  have shown : isSpace c = false := (starts.shown (j := .number (.integer 0)) (.inr digit)).1
  rw [digits, List.cons_append] at number ⊢
  refine (takes_passGap gap shown).bind ?_
  split
  case h_9 d _ _ _ _ _ _ _ same =>
    obtain rfl := Option.some.inj same
    rw [if_pos digit]
    exact number
  case h_1 none => contradiction
  all_goals
    next same =>
      obtain rfl := Option.some.inj same
      contradiction

mutual

theorem takes_skipValue (j : Json) {u w rest : List Char} (spelled : Spells j w) (gap : Gap u)
    (ends : Ends rest) {fuel : Nat} (enough : 2 * w.length ≤ fuel) :
    Takes (skipValue fuel) (u ++ (w ++ rest)) () rest := by
  obtain ⟨c, cs, start, -⟩ := exists_start spelled
  obtain ⟨fuel, rfl⟩ : ∃ k, fuel = k + 1 := ⟨fuel - 1, by simp [start] at enough; omega⟩
  match j with
  | .null | .bool true | .bool false =>
    obtain rfl : w = _ := spelled
    exact (takes_passGap gap rfl).bind ((takes_pass 1).bind (takes_word _))
  | .number (.real _) => exact spelled.elim
  | .number (.integer (.ofNat n)) =>
    have digits : w = Nat.toDigits 10 n := spelled.2.trans (numberText_ofNat n)
    rw [digits]
    exact takes_skipValue_digits n gap ends fuel
  | .number (.integer (.negSucc n)) =>
    obtain ⟨-, rfl⟩ := spelled
    rw [numberText_negSucc]
    exact (takes_passGap gap rfl).bind ((takes_pass 1).bind (takes_skipNumber (n + 1) ends))
  | .string s =>
    obtain ⟨v, text, rfl⟩ := spelled
    rw [List.cons_append, List.append_assoc]
    exact (takes_passGap gap rfl).bind ((takes_pass 1).bind (takes_spelledRest text).2)
  | .array [] =>
    obtain ⟨v, space, rfl⟩ := spelled
    rw [List.cons_append, List.append_assoc]
    refine (takes_passGap gap rfl).bind ((takes_pass 1).bind ?_)
    exact (takes_passGap (c := ']') space rfl).bind (takes_pass 1)
  | .array (i :: is) =>
    obtain ⟨v, items, rfl⟩ := spelled
    obtain ⟨lead, c, core, space, shown, other, rfl, elements⟩ :=
      takes_skipElements (i :: is) (by simp) items
    simp only [List.length_cons, List.length_append, List.length_nil] at enough
    rw [List.cons_append, List.append_assoc, List.append_assoc]
    refine (takes_passGap gap rfl).bind ((takes_pass 1).bind ?_)
    refine (takes_passGap (t := core ++ ([']'] ++ rest)) space shown).bind ?_
    split
    next bracket => exact absurd (Option.some.inj bracket) other
    next => exact elements gap_nil (by simp only [List.length_cons]; omega)
    next none => contradiction
  | .object [] =>
    obtain ⟨v, space, rfl⟩ := spelled
    rw [List.cons_append, List.append_assoc]
    refine (takes_passGap gap rfl).bind ((takes_pass 1).bind ?_)
    exact (takes_passGap (c := '}') space rfl).bind (takes_pass 1)
  | .object (m :: ms) =>
    obtain ⟨v, members, rfl⟩ := spelled
    obtain ⟨lead, core, space, rfl, rest'⟩ := takes_skipMembers (m :: ms) (by simp) members
    simp only [List.length_cons, List.length_append, List.length_nil] at enough
    rw [List.cons_append, List.append_assoc, List.append_assoc]
    refine (takes_passGap gap rfl).bind ((takes_pass 1).bind ?_)
    refine (takes_passGap (c := '\x22') (t := core ++ (['}'] ++ rest)) space rfl).bind ?_
    exact rest' gap_nil (by simp only [List.length_cons]; omega)

/-- The elements after a bracket or comma and the white space behind it. -/
theorem takes_skipElements (is : List Json) (hne : is ≠ []) {first : Bool} {w : List Char}
    (spelled : SpellsItems first is w) :
    ∃ lead c core, Leads first lead ∧ isSpace c = false ∧ c ≠ ']' ∧ w = lead ++ c :: core ∧
      ∀ {u rest : List Char} {fuel : Nat}, Gap u → 2 * (c :: core).length + 1 ≤ fuel →
        Takes (skipElements fuel) (u ++ (c :: core ++ ']' :: rest)) () rest := by
  match is with
  | j :: js =>
    obtain ⟨lead, v, r, leads, value, others, rfl⟩ := spelled
    obtain ⟨c, cs, rfl, start⟩ := exists_start value
    refine ⟨lead, c, cs ++ r, leads, start.shown.1, start.shown.2.1, rfl, ?_⟩
    intro u rest fuel gap enough
    rw [← List.cons_append, List.length_append] at enough
    obtain ⟨fuel, rfl⟩ : ∃ k, fuel = k + 1 := ⟨fuel - 1, by omega⟩
    rw [← List.cons_append, List.append_assoc]
    have first : Takes (skipValue fuel) (u ++ (c :: cs ++ (r ++ ']' :: rest))) ()
        (r ++ ']' :: rest) :=
      takes_skipValue j value gap (ends_spelledItems others) (by omega)
    refine first.bind ?_
    match js with
    | [] => exact (takes_passGap others rfl).bind (takes_pass 1)
    | i :: is =>
      obtain ⟨lead, c, core, ⟨x, y, before, after, rfl⟩, -, -, rfl, elements⟩ :=
        takes_skipElements (i :: is) (by simp) others
      rw [List.append_assoc, List.append_assoc]
      refine (takes_passGap before rfl).bind ((takes_pass 1).bind ?_)
      simp only [List.length_append, List.length_cons] at enough
      exact elements after (by simp only [List.length_cons]; omega)

theorem takes_skipMembers (ms : List (String × Json)) (hne : ms ≠ []) {first : Bool}
    {w : List Char} (spelled : SpellsMembers first ms w) :
    ∃ lead core, Leads first lead ∧ w = lead ++ '\x22' :: core ∧
      ∀ {u rest : List Char} {fuel : Nat}, Gap u → 2 * ('\x22' :: core).length + 1 ≤ fuel →
        Takes (skipMembers fuel) (u ++ ('\x22' :: core ++ '}' :: rest)) () rest := by
  match ms with
  | (k, j) :: ms =>
    obtain ⟨lead, key, gap, v, r, leads, ⟨name, blanks, text, blank, rfl, -⟩, space, value, others,
      rfl⟩ := spelled
    refine ⟨lead, name ++ '\x22' :: (blanks ++ ':' :: (gap ++ (v ++ r))), leads, by simp, ?_⟩
    intro u rest fuel gap' enough
    simp only [List.length_append, List.length_cons] at enough
    obtain ⟨fuel, rfl⟩ : ∃ k, fuel = k + 1 := ⟨fuel - 1, by omega⟩
    simp only [List.cons_append, List.append_assoc]
    refine (takes_passGap gap' rfl).bind ((takes_pass 1).bind ?_)
    refine (takes_spelledRest text).2.bind ?_
    refine (takes_spelledColon (gap_of_blanks blank)).bind ?_
    have first : Takes (skipValue fuel) (gap ++ (v ++ (r ++ '}' :: rest))) () (r ++ '}' :: rest) :=
      takes_skipValue j value space (ends_spelledMembers others) (by omega)
    refine first.bind ?_
    match ms with
    | [] => exact (takes_passGap others rfl).bind (takes_pass 1)
    | m :: ms =>
      obtain ⟨lead, core, ⟨x, y, before, after, rfl⟩, rfl, members⟩ :=
        takes_skipMembers (m :: ms) (by simp) others
      rw [List.append_assoc, List.append_assoc]
      refine (takes_passGap before rfl).bind ((takes_pass 1).bind ?_)
      simp only [List.length_append, List.length_cons] at enough
      exact members after (by simp only [List.length_cons]; omega)

end

/-- A reader makes a value of all the spellings of a tree. -/
def Reads (read : Scan α) (j : Json) (a : α) : Prop :=
  ∀ {u w rest : List Char}, Gap u → Spells j w → Ends rest → Takes read (u ++ (w ++ rest)) a rest

theorem reads_map {β : Type} {read : Scan α} {j : Json} {a : α} (f : α → β)
    (reads : Reads read j a) : Reads (f <$> read) j (f a) := by
  intro u w rest gap spelled ends
  rw [map_eq_pure_bind]
  exact (reads gap spelled ends).bind (takes_pure _)

theorem reads_text (s : String) : Reads text (.string s) s := by
  intro u w rest gap spelled _
  obtain ⟨v, chars, rfl⟩ := spelled
  rw [List.cons_append, List.append_assoc]
  exact (takes_passGap gap rfl).bind ((takes_pass 1).bind (takes_spelledRest chars).1)

theorem reads_port {n : Nat} (small : n < 65536) :
    Reads port (.number (.integer n)) (UInt16.ofNat n) := by
  intro u w rest gap spelled ends
  have digits : w = Nat.toDigits 10 n := spelled.2.trans (numberText_ofNat n)
  have wide : n < twoTo 64 := Nat.lt_trans small (by decide)
  have number : Takes (number false) (w ++ rest) (.integer n) rest := by
    rw [digits]
    exact takes_number_digits wide ends
  obtain ⟨c, cs, rfl, start⟩ := exists_start spelled
  have digit : c.isDigit = true := by
    have member : c ∈ Nat.toDigits 10 n := by rw [← digits]; exact List.mem_cons_self
    exact isDigit_of_mem_toDigits member
  have narrow : Takes (port.narrow (.integer n)) rest (UInt16.ofNat n) rest := by
    rw [port.narrow, if_pos ⟨Int.natCast_nonneg n, by omega⟩, Int.toNat_natCast]
    exact takes_pure _
  refine (takes_passGap (t := cs ++ rest) gap start.shown.1).bind ?_
  split
  next none => contradiction
  next minus =>
    obtain rfl := Option.some.inj minus
    contradiction
  next d _ same =>
    obtain rfl := Option.some.inj same
    rw [if_pos digit]
    exact number.bind narrow

theorem starts_null {j : Json} (start : starts j 'n') : j = .null := by
  match j with
  | .null => rfl
  | .bool true | .bool false | .string _ | .array _ | .object _ => simp [starts] at start
  | .number _ => simp [starts] at start

variable {item : Scan α}

theorem reads_optional_null : Reads (optional item) .null none := by
  intro u w rest gap spelled _
  obtain rfl : w = _ := spelled
  exact (takes_passGap gap rfl).bind ((takes_pass 1).bind ((takes_word _).bind (takes_pure _)))

theorem reads_optional {j : Json} {a : α} (there : j ≠ .null) (read : Reads item j a) :
    Reads (optional item) j (some a) := by
  intro u w rest gap spelled ends
  have value : Takes item (w ++ rest) a rest := read gap_nil spelled ends
  obtain ⟨c, cs, rfl, start⟩ := exists_start spelled
  refine (takes_passGap (t := cs ++ rest) gap start.shown.1).bind ?_
  split
  next null =>
    obtain rfl := Option.some.inj null
    exact absurd (starts_null start) there
  next => exact value.bind (takes_pure _)

theorem takes_elementAhead {first : Bool} {lead t : List Char} {c : Char}
    (leads : Leads first lead) (shown : isSpace c = false) (other : c ≠ ']') :
    Takes (elementAhead first) (lead ++ c :: t) true (c :: t) := by
  cases first with
  | true => exact takes_elementAhead_first leads shown other
  | false =>
    obtain ⟨x, y, before, after, rfl⟩ := leads
    rw [List.append_assoc]
    refine (takes_passGap before rfl).bind ((takes_pass 1).bind ?_)
    refine (takes_passGap after shown).bind ?_
    split
    next bracket => exact absurd (Option.some.inj bracket) other
    next => exact takes_pure true
    next none => contradiction

theorem takes_spelledElements {js : List Json} {as : List α}
    (reads : List.Forall₂ (Reads item) js as) {first : Bool} (spelled : SpellsItems first js v)
    {fuel : Nat} (enough : v.length < fuel) :
    Takes (elements item fuel first) (v ++ ']' :: rest) as (']' :: rest) := by
  induction reads generalizing first v fuel with
  | nil =>
    obtain ⟨fuel, rfl⟩ : ∃ k, fuel = k + 1 := ⟨fuel - 1, by omega⟩
    exact (takes_elementAhead_end spelled first).bind (takes_pure [])
  | @cons j a js as read _ ih =>
    obtain ⟨fuel, rfl⟩ : ∃ k, fuel = k + 1 := ⟨fuel - 1, by omega⟩
    obtain ⟨lead, w, r, leads, value, others, rfl⟩ := spelled
    have first : Takes item (w ++ (r ++ ']' :: rest)) a (r ++ ']' :: rest) :=
      read gap_nil value (ends_spelledItems others)
    obtain ⟨c, cs, rfl, start⟩ := exists_start value
    simp only [List.length_append, List.length_cons] at enough
    rw [List.append_assoc, List.append_assoc]
    refine (takes_elementAhead (t := cs ++ (r ++ ']' :: rest)) leads start.shown.1
      start.shown.2.1).bind ?_
    exact first.bind ((ih others (by omega)).bind (takes_pure _))

theorem reads_list {js : List Json} {as : List α} (reads : List.Forall₂ (Reads item) js as) :
    Reads (list item) (.array js) as := by
  intro u w rest gap spelled _
  obtain ⟨v, items, rfl⟩ := spelled
  rw [List.cons_append, List.append_assoc]
  refine (takes_passGap gap rfl).bind ((takes_pass 1).bind (takes_budget.bind ?_))
  have enough : v.length < (v ++ ([']'] ++ rest)).length + 1 := by
    rw [List.length_append]
    omega
  refine (takes_spelledElements reads items enough).bind ?_
  exact ((takes_passGap gap_nil rfl).bind (takes_pass 1)).bind (takes_pure _)

theorem takes_nameAhead {first : Bool} {lead : List Char} (leads : Leads first lead) :
    Takes (nameAhead first) (lead ++ '\x22' :: cs) true ('\x22' :: cs) := by
  cases first with
  | true => exact takes_nameAhead_first leads
  | false =>
    obtain ⟨x, y, before, after, rfl⟩ := leads
    rw [List.append_assoc]
    refine (takes_passGap before rfl).bind ((takes_pass 1).bind ?_)
    exact (takes_passGap after rfl).bind (takes_pure true)

variable {r : Record Decoder σ} {r' : Record Scan σ}

theorem takes_spelledMembers (follows : r.Follows r' Reads) {ms : List (String × Json)}
    {seen : List String} {s x : σ} (decoded : Decoder.members r ms seen s = .ok x) {first : Bool}
    (spelled : SpellsMembers first ms v) {fuel : Nat} (enough : v.length < fuel) :
    Takes (members r' fuel first seen s) (v ++ '}' :: rest) x rest := by
  obtain ⟨fuel, rfl⟩ : ∃ k, fuel = k + 1 := ⟨fuel - 1, by omega⟩
  induction ms generalizing seen s first v fuel with
  | nil =>
    refine (takes_nameAhead_end spelled first).bind ?_
    refine (takes_pass 1).bind ?_
    obtain ⟨complete, rfl⟩ := Decoder.complete_of_members decoded
    rw [follows.complete seen complete]
    exact takes_pure _
  | cons m ms ih =>
    obtain ⟨k, j⟩ := m
    obtain ⟨lead, key, gap, w, more, leads, ⟨name, blanks, text, blank, rfl, -⟩, space, value,
      others, rfl⟩ := spelled
    simp only [List.length_append, List.length_cons] at enough
    simp only [List.cons_append, List.append_assoc]
    refine (takes_nameAhead leads).bind ((takes_pass 1).bind ?_)
    refine (takes_spelledRest text).1.bind ?_
    have colon' := takes_spelledColon (t := gap ++ (w ++ (more ++ '}' :: rest)))
      (gap_of_blanks blank)
    have ends : Ends (more ++ '}' :: rest) := ends_spelledMembers others
    obtain ⟨unknown, further⟩ | ⟨f, set, field, new, decodes, further⟩ :=
      Decoder.member_of_members decoded
    · rw [follows.unknown k unknown]
      refine colon'.bind (takes_budget.bind ?_)
      refine (takes_skipValue j value space ends ?_).bind ?_
      · simp only [List.length_append]
        omega
      · obtain ⟨fuel, rfl⟩ : ∃ n, fuel = n + 1 := ⟨fuel - 1, by omega⟩
        exact ih further others fuel (by omega)
    · obtain ⟨g, field', same, read⟩ := follows.known k f field
      rw [← same] at new further
      rw [field']
      simp only [new]
      refine colon'.bind ((read j set decodes space value ends).bind ?_)
      obtain ⟨fuel, rfl⟩ : ∃ n, fuel = n + 1 := ⟨fuel - 1, by omega⟩
      exact ih further others fuel (by omega)

theorem reads_record (follows : r.Follows r' Reads) {ms : List (String × Json)} {x : σ}
    (decoded : Decoder.members r ms [] r.blank = .ok x) : Reads (record r') (.object ms) x := by
  intro u w rest gap spelled _
  obtain ⟨v, members, rfl⟩ := spelled
  rw [List.cons_append, List.append_assoc]
  refine (takes_passGap gap rfl).bind ((takes_pass 1).bind (takes_budget.bind ?_))
  rw [follows.blank]
  refine takes_spelledMembers follows decoded members ?_
  rw [List.drop_one, List.tail_cons, List.length_append]
  omega

end Scan

end Json

end TrafficIntent
