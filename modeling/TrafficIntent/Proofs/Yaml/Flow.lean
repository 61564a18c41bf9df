import TrafficIntent.Proofs.Json.Spelling
import TrafficIntent.Proofs.Yaml.Brackets

/-!
The scanner of the older edition between brackets. Nothing is a block there, so indentation does not
count, and a token that could start a key may always turn out not to.
-/

namespace TrafficIntent.Yaml

open Json (Gap)

/-- Where the scanner stands between the tokens of lists and maps in brackets, as many levels
deep. -/
structure State.Between (s : State) (text : List Char) (shown : List Token) (depth : Nat) :
    Prop where
  rest : s.rest = text
  shown : s.shown = shown
  flowDepth : s.flowDepth = depth
  indent : s.indent = -1
  levels : s.levels = []
  free : ∀ k ∈ s.candidates, k.required = false
  count : s.candidates.length = depth + 1

/-- Whether a character can stand where a token starts. -/
def isOpening (c : Char) : Bool :=
  !(isBlank c || isBreak .v11 c || c == '#' || c == byteOrderMark)

/-- White space that may stand before a token. Outside of all brackets there may be no tabs. -/
def GapAt (depth : Nat) (w : List Char) : Prop := Gap w ∧ (depth = 0 → '\t' ∉ w)

namespace Scan

variable {s t : State} {text tail gap : List Char} {shown : List Token} {d : Nat}

theorem between_moved (h : s.Between text shown d) (cs : List Char) (m : Mark) (b a : Bool) :
    ({ s with rest := cs, mark := m, atLineStart := b, keyAllowed := a } : State).Between cs shown
      d :=
  ⟨rfl, h.shown, h.flowDepth, h.indent, h.levels, h.free, h.count⟩

theorem between_allow (h : s.Between text shown d) (b : Bool) : (s.allow b).Between text shown d :=
  ⟨h.rest, h.shown, h.flowDepth, h.indent, h.levels, h.free, h.count⟩

theorem between_remembering (h : s.Between text shown d) {ks : List KeyCandidate}
    (free : ∀ k ∈ ks, k.required = false) (count : ks.length = d + 1) :
    (s.remembering ks).Between text shown d :=
  ⟨h.rest, h.shown, h.flowDepth, h.indent, h.levels, free, count⟩

theorem between_push (h : s.Between text shown d) (token : Token) (start : Mark) :
    (s.push token start).Between text (shown ++ [token]) d :=
  ⟨h.rest, by rw [State.shown_push, h.shown], h.flowDepth, h.indent, h.levels, h.free, h.count⟩

theorem exists_candidate (h : s.Between text shown d) :
    ∃ k ks, s.candidates = k :: ks ∧ k.required = false ∧ ks.length = d ∧
      ∀ l ∈ ks, l.required = false := by
  obtain ⟨k, ks, same⟩ := List.exists_cons_of_length_eq_add_one h.count
  have free := h.free
  have count := h.count
  rw [same] at free count
  exact ⟨k, ks, same, free k List.mem_cons_self, by simpa using count,
    fun l hl => free l (List.mem_cons_of_mem _ hl)⟩

theorem run_dropCandidate_between (h : s.Between text shown d) :
    ∃ ks, dropCandidate.run s = some ((), s.remembering ks) ∧
      (s.remembering ks).Between text shown d := by
  obtain ⟨k, ks, same, free, count, others⟩ := exists_candidate h
  refine ⟨{ k with possible := false } :: ks, ?_, between_remembering h ?_ (by simp [count])⟩
  · unfold dropCandidate
    rw [run_bind (run_candidate s), same]
    simp only [List.headD_cons, free, Bool.and_false, Bool.false_eq_true, if_false]
    show (setCandidate _).run s = _
    rw [run_setCandidate, same]
    rfl
  · intro l hl
    cases List.mem_cons.1 hl with
    | inl own => rw [own]; exact free
    | inr other => exact others l other

/-- Where keys are allowed, the token ahead is remembered as a candidate. -/
theorem run_saveCandidate_between (h : s.Between text shown d) :
    ∃ ks, (saveCandidate .v11).run s = some ((), s.remembering ks) ∧
      (s.remembering ks).Between text shown d ∧
      (s.keyAllowed = true → ∃ ls, ks = ⟨true, false, shown.length, s.mark⟩ :: ls) := by
  unfold saveCandidate
  rw [run_get_bind]
  cases allowed : s.keyAllowed with
  | false =>
    refine ⟨s.candidates, rfl, h, ?_⟩
    intro other
    contradiction
  | true =>
    obtain ⟨ks, dropped, left⟩ := run_dropCandidate_between h
    have outside : (s.indent == (s.mark.column : Int)) = false := by
      rw [h.indent, beq_eq_false_iff_ne]
      omega
    have size : s.tokens.size = shown.length := by
      rw [← h.shown]
      simp [State.shown]
    refine ⟨⟨true, false, shown.length, s.mark⟩ :: ks.tail, ?_, ?_, fun _ => ⟨_, rfl⟩⟩
    · simp only [outside, size, Bool.and_false, Bool.false_and, if_true]
      show (dropCandidate >>= _).run s = _
      rw [run_bind dropped]
      rfl
    · obtain ⟨k, ks', same, -, count, others⟩ := exists_candidate left
      have same : ks = k :: ks' := same
      refine between_remembering h ?_ (by simp [same, count])
      intro l hl
      cases List.mem_cons.1 hl with
      | inl own => rw [own]
      | inr other =>
        rw [same] at other
        exact others l other

theorem run_closeBlocks_between (h : s.Between text shown d) (m : Int) :
    (closeBlocks m).run s = some ((), s) := by
  unfold closeBlocks
  rw [run_get_bind, h.levels]
  cases s.flowDepth == 0 <;> rfl

/-- What is too far back to become a key is given up. -/
theorem run_dropStale_between (h : s.Between text shown d) :
    ∃ ks, (dropStale .v11).run s = some ((), s.remembering ks) ∧
      (s.remembering ks).Between text shown d ∧
      ∀ k ls, s.candidates = k :: ls → k.mark.line = s.mark.line →
        s.mark.offset ≤ k.mark.offset + 1024 → ∃ ls', ks = k :: ls' := by
  let isStale (k : KeyCandidate) : Bool :=
    k.possible && (k.mark.line < s.mark.line || k.mark.offset + 1024 < s.mark.offset)
  let give (k : KeyCandidate) : KeyCandidate :=
    if isStale k then { k with possible := false } else k
  have none : (s.candidates.any fun k => isStale k && k.required) = false := by
    rw [List.any_eq_false]
    intro k hk
    simp [h.free k hk]
  refine ⟨s.candidates.map give, ?_, between_remembering h ?_ (by simp [h.count]), ?_⟩
  · unfold dropStale
    rw [run_get_bind]
    show (if (s.candidates.any fun k => isStale k && k.required) = true then
      failure >>= fun _ => set (s.remembering (s.candidates.map give))
      else set (s.remembering (s.candidates.map give)) : Scan Unit).run s = _
    rw [none]
    rfl
  · intro l hl
    obtain ⟨k, hk, rfl⟩ := List.mem_map.1 hl
    have free := h.free k hk
    by_cases stale : isStale k = true
    · simp [give, stale, free]
    · simp [give, stale, free]
  · intro k ls same line near
    have fresh : isStale k = false := by
      simp only [isStale, line, Nat.lt_irrefl, decide_false, Bool.false_or, Bool.and_eq_false_imp]
      intro _
      simpa using near
    have kept : give k = k := by simp [give, fresh]
    rw [same, List.map_cons, kept]
    exact ⟨_, rfl⟩

theorem isOpening_ne {c : Char} (h : isOpening c = true) :
    c ≠ ' ' ∧ c ≠ '\t' ∧ isBreak .v11 c = false ∧ c ≠ '#' ∧ c ≠ byteOrderMark := by
  simpa [isOpening, isBlank, and_assoc] using h

theorem run_toNextToken_opening (h : isOpening (s.rest.headD endChar) = true) (fuel : Nat) :
    (toNextToken .v11 fuel).run s = some ((), s) := by
  cases fuel with
  | zero => rfl
  | succ fuel =>
    rw [← State.ahead_zero] at h
    obtain ⟨space, tab, line, comment, mark⟩ := isOpening_ne h
    unfold toNextToken
    rw [run_get_bind, run_bind (run_inFlow s)]
    simp [space, tab, line, comment, mark]

private theorem run_toNextToken_blank {c : Char} {cs : List Char} (h : s.rest = c :: cs)
    (blank : c = ' ' ∨ c = '\t' ∧ s.flowDepth ≠ 0) (fuel : Nat) :
    (toNextToken .v11 (fuel + 1)).run s = (toNextToken .v11 fuel).run (s.after [c] cs) := by
  have passed : (skip >>= fun _ => toNextToken .v11 fuel).run s = _ := run_bind (run_skip h)
  rw [← passed]
  conv => lhs; unfold toNextToken
  rw [run_get_bind, run_bind (run_inFlow s)]
  obtain rfl | ⟨rfl, flow⟩ := blank <;> simp [State.ahead_of_rest h, byteOrderMark, *]

private theorem run_toNextToken_break {c : Char} {cs : List Char} (h : s.rest = c :: cs)
    (line : c = '\n' ∨ c = '\r') (fuel : Nat) :
    (toNextToken .v11 (fuel + 1)).run s =
      (toNextToken .v11 fuel).run
        (if s.flowDepth = 0 then s.skipBreak.allow true else s.skipBreak) := by
  have other : c ≠ ' ' ∧ c ≠ '\t' ∧ c ≠ byteOrderMark ∧ isBreak .v11 c = true := by
    obtain rfl | rfl := line <;> decide
  obtain ⟨space, tab, mark, line⟩ := other
  conv => lhs; unfold toNextToken
  rw [run_get_bind, run_bind (run_inFlow s)]
  simp only [State.ahead_of_rest h, beq_false_of_ne space, beq_false_of_ne tab,
    beq_false_of_ne mark, line]
  by_cases outside : s.flowDepth = 0
  · rw [if_pos outside]
    simp [outside]
    rfl
  · rw [if_neg outside]
    simp [outside]
    rfl

/-- A line break leaves white space, whether it is of one character or of two. -/
theorem exists_skipBreak {c : Char} (h : s.rest = c :: (gap ++ tail)) (line : c = '\n' ∨ c = '\r')
    (opening : isOpening (tail.headD endChar) = true) :
    ∃ gap' m, s.skipBreak = { s with rest := gap' ++ tail, mark := m, atLineStart := true } ∧
      gap'.length ≤ gap.length ∧ ∀ x ∈ gap', x ∈ gap := by
  unfold State.skipBreak
  rw [h]
  obtain rfl | rfl := line
  · exact ⟨gap, _, rfl, Nat.le_refl _, fun _ hx => hx⟩
  · split
    next ds same =>
      obtain ⟨-, two⟩ := List.cons.inj same
      cases gap with
      | nil =>
        rw [List.nil_append] at two
        rw [two] at opening
        contradiction
      | cons x gap =>
        obtain ⟨-, rfl⟩ := List.cons.inj two
        exact ⟨gap, _, rfl, Nat.le_succ _, fun _ hx => List.mem_cons_of_mem _ hx⟩
    next ds _ same =>
      obtain ⟨-, rfl⟩ := List.cons.inj same
      exact ⟨gap, _, rfl, Nat.le_refl _, fun _ hx => hx⟩
    next => contradiction

/-- Between brackets there may be tabs. -/
theorem gapAt_succ (space : Gap gap) : GapAt (d + 1) gap :=
  ⟨space, fun outside => absurd outside (Nat.succ_ne_zero d)⟩

theorem gapAt_later {c : Char} (space : GapAt d (c :: gap)) {v : List Char}
    (inside : ∀ x ∈ v, x ∈ gap) : GapAt d v :=
  ⟨fun x hx => space.1 x (List.mem_cons_of_mem _ (inside x hx)),
    fun outside hx => space.2 outside (List.mem_cons_of_mem _ (inside _ hx))⟩

/-- White space is a blank that may stand where it does, or a line break. -/
theorem gapAt_kind {c : Char} (space : GapAt d (c :: gap)) :
    (c = ' ' ∨ c = '\t' ∧ d ≠ 0) ∨ c = '\n' ∨ c = '\r' := by
  have white := space.1 c List.mem_cons_self
  have noTab := space.2
  simp only [Json.Scan.isSpace, Bool.or_eq_true, beq_iff_eq] at white
  rcases white with ((rfl | rfl) | rfl) | rfl
  · exact .inl (.inl rfl)
  · exact .inr (.inl rfl)
  · exact .inl (.inr ⟨rfl, fun outside => noTab outside List.mem_cons_self⟩)
  · exact .inr (.inr rfl)

/-- White space before a token is passed. Blanks leave the scanner on its line, and between brackets
nothing allows keys or forbids them. -/
theorem run_toNextToken_gap (h : s.Between (gap ++ tail) shown d) (space : GapAt d gap)
    (opening : isOpening (tail.headD endChar) = true) {fuel : Nat} (enough : gap.length < fuel) :
    ∃ t, (toNextToken .v11 fuel).run s = some ((), t) ∧ t.Between tail shown d ∧
      t.candidates = s.candidates ∧ (d ≠ 0 → t.keyAllowed = s.keyAllowed) ∧
      ((∀ c ∈ gap, isBlank c = true) → t.mark = s.mark.passing gap) := by
  induction hn : gap.length using Nat.strongRecOn generalizing s gap fuel with
  | ind n ih =>
    match gap with
    | [] =>
      have left : s.rest = tail := h.rest
      exact ⟨s, run_toNextToken_opening (by rwa [left]) fuel, h, rfl, fun _ => rfl, fun _ => rfl⟩
    | c :: gap =>
      obtain ⟨fuel, rfl⟩ : ∃ k, fuel = k + 1 := ⟨fuel - 1, by omega⟩
      have head : s.rest = c :: (gap ++ tail) := h.rest
      have enough : gap.length < fuel := Nat.lt_of_succ_lt_succ enough
      rw [List.length_cons] at hn
      cases gapAt_kind space with
      | inl blank =>
        have moved : (s.after [c] (gap ++ tail)).Between (gap ++ tail) shown d :=
          between_moved h _ _ _ s.keyAllowed
        obtain ⟨t, run, between, candidates, allowed, mark⟩ :=
          ih gap.length (by omega) moved (gapAt_later space fun _ hx => hx) enough rfl
        rw [← h.flowDepth] at blank
        refine ⟨t, (run_toNextToken_blank head blank fuel).trans run, between, candidates, allowed,
          ?_⟩
        intro blanks
        exact mark fun e he => blanks e (List.mem_cons_of_mem _ he)
      | inr line =>
        obtain ⟨gap', m, skipped, short, inside⟩ := exists_skipBreak head line opening
        let u := if s.flowDepth = 0 then s.skipBreak.allow true else s.skipBreak
        have moved : u.Between (gap' ++ tail) shown d ∧ u.candidates = s.candidates ∧
            (d ≠ 0 → u.keyAllowed = s.keyAllowed) := by
          simp only [u, skipped]
          split
          next outside =>
            exact ⟨between_moved h _ _ _ true, rfl, fun deep => absurd outside (h.flowDepth ▸ deep)⟩
          next => exact ⟨between_moved h _ _ _ s.keyAllowed, rfl, fun _ => rfl⟩
        obtain ⟨t, run, between, candidates, allowed, -⟩ :=
          ih gap'.length (by omega) moved.1 (gapAt_later space inside)
            (Nat.lt_of_le_of_lt short enough) rfl
        refine ⟨t, (run_toNextToken_break head line fuel).trans run, between,
          candidates.trans moved.2.1, fun deep => (allowed deep).trans (moved.2.2 deep), ?_⟩
        intro blanks
        have := blanks c List.mem_cons_self
        obtain rfl | rfl := line <;> contradiction

/-- The token that has just been fetched may still become a key after some blanks. -/
def KeepsKey (s : State) (gap : List Char) (u : State) : Prop :=
  ∀ k ks, (∀ c ∈ gap, isBlank c = true) → s.candidates = k :: ks → k.mark.line = s.mark.line →
    (s.mark.passing gap).offset ≤ k.mark.offset + 1024 → ∃ ls, u.candidates = k :: ls

/-- What is done before a token is fetched: white space is passed, and candidates are given up. -/
theorem exists_settled (h : s.Between (gap ++ tail) shown d) (space : GapAt d gap)
    (opening : isOpening (tail.headD endChar) = true) :
    ∃ u, u.Between tail shown d ∧ (d ≠ 0 → u.keyAllowed = s.keyAllowed) ∧
      KeepsKey s gap u ∧
      ∀ fuel, (fetchAll .v11 (fuel + 1)).run s = (do
        if u.ahead 0 == endChar then fetchEnd
        else
          if u.mark.column == 0 && u.ahead 0 == '%' then fetchDirective .v11
          else if u.atDocumentStart .v11 then fetchDocumentMark .documentStart
          else if u.atDocumentEnd .v11 then fetchDocumentEnd .v11
          else fetchToken .v11
          fetchAll .v11 fuel : Scan Unit).run u := by
  have enough : gap.length < s.rest.length + 1 := by
    rw [h.rest, List.length_append]
    omega
  obtain ⟨t, passed, between, candidates, allowed, mark⟩ :=
    run_toNextToken_gap h space opening enough
  obtain ⟨ks, dropped, between', kept⟩ := run_dropStale_between between
  refine ⟨t.remembering ks, between', allowed, ?_, ?_⟩
  · intro k ls blank same line near
    rw [← mark blank] at near
    refine kept k ls (candidates.trans same) ?_ near
    rw [mark blank, Mark.passing_line, line]
  · intro fuel
    conv => lhs; unfold fetchAll
    rw [run_get_bind, run_bind passed, run_bind dropped, run_bind (run_mark _),
      run_bind (run_closeBlocks_between between' _), run_get_bind]
    rfl

/-- What can be ahead for a token to be fetched that is not about the whole document. -/
structure Starts (c : Char) (text : List Char) : Prop where
  opening : isOpening c = true
  there : c ≠ endChar
  directive : c ≠ '%'
  mark : c = '-' ∨ c = '.' → text.head? ≠ some c

/-- No mark of a document is ahead. -/
theorem Starts.unmarked {c : Char} (start : Starts c text) (h : s.rest = c :: text) :
    s.atDocumentStart .v11 = false ∧ s.atDocumentEnd .v11 = false := by
  have noTriple {x : Char} (mark : c = x → text.head? ≠ some x) (there : x ≠ endChar) :
      s.atTriple .v11 x = false := by
    have first : s.ahead 0 = c := State.ahead_of_rest h
    have second : s.ahead 1 = text.headD endChar := State.ahead_one_of_rest h
    unfold State.atTriple
    by_cases same : c = x
    · have other : (text.headD endChar == x) = false := by
        have next := mark same
        rw [beq_eq_false_iff_ne]
        cases text with
        | nil => exact there.symm
        | cons y text => simpa using next
      simp only [second, other, Bool.and_false, Bool.false_and]
    · simp only [first, beq_false_of_ne same, Bool.and_false, Bool.false_and]
  exact ⟨noTriple (x := '-') (fun same => same ▸ start.mark (.inl same)) (by decide),
    noTriple (x := '.') (fun same => same ▸ start.mark (.inr same)) (by decide)⟩

/-- The token ahead is fetched. -/
theorem fetches_flowToken {c : Char} (h : s.Between (gap ++ c :: text) shown d)
    (space : GapAt d gap)    (start : Starts c text) {P : State → Prop}
    (fetch : ∀ u, u.Between (c :: text) shown d → (d ≠ 0 → u.keyAllowed = s.keyAllowed) →
      KeepsKey s gap u →
      ∃ t, (fetchToken .v11).run u = some ((), t) ∧ t.rest.length ≤ text.length ∧ P t) :
    ∃ t, Fetches .v11 s t ∧ P t := by
  obtain ⟨u, between, allowed, kept, settled⟩ := exists_settled h space start.opening
  obtain ⟨t, fetched, short, holds⟩ := fetch u between allowed kept
  refine ⟨t, ?_, holds⟩
  intro fuel enough
  obtain ⟨fuel, rfl⟩ : ∃ k, fuel = k + 1 := ⟨fuel - 1, by omega⟩
  have length : s.rest.length = gap.length + (text.length + 1) := by
    rw [h.rest, List.length_append, List.length_cons]
  obtain ⟨noStart, noEnd⟩ := start.unmarked between.rest
  refine ⟨fuel, by omega, ?_⟩
  rw [settled fuel, State.ahead_of_rest between.rest, noStart, noEnd]
  simp only [beq_false_of_ne start.there, beq_false_of_ne start.directive, Bool.and_false,
    Bool.false_eq_true, if_false]
  rw [run_bind fetched]

end Scan

end TrafficIntent.Yaml
