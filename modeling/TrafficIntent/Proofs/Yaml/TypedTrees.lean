import TrafficIntent.Proofs.Json.Spelled
import TrafficIntent.Proofs.Yaml.FlowNodes
import TrafficIntent.Yaml.Typed

namespace TrafficIntent.Yaml

open Json (Decoder Spells SpellsItems SpellsMembers)

theorem isZeroFilled_toDigits (n : Nat) :
    isZeroFilled (String.ofList (Nat.toDigits 10 n)) = false := by
  cases Nat.eq_zero_or_pos n with
  | inl zero => rw [zero]; rfl
  | inr pos =>
    obtain ⟨c, ds, digits, nonzero⟩ := Json.Scan.exists_toDigits pos
    have other : c ≠ '0' := by
      rintro rfl
      contradiction
    have digit : c.isDigit = true := by
      apply Json.Scan.isDigit_of_mem_toDigits (n := n)
      rw [digits]
      exact List.mem_cons_self
    have minus : c ≠ '-' := ne_of_kind Char.isDigit digit rfl
    have plus : c ≠ '+' := ne_of_kind Char.isDigit digit rfl
    unfold isZeroFilled
    rw [digits, String.toList_ofList]
    split
    next same => exact absurd (List.cons.inj same).1 minus
    next same => exact absurd (List.cons.inj same).1 plus
    next =>
      simp only
      split
      next zero => exact absurd (List.cons.inj zero).1 other
      next => rfl

theorem unsigned?_toDigits (n : Nat) :
    unsigned? (String.ofList (Nat.toDigits 10 n)) = some n := by
  have digits : ∀ c ∈ Nat.toDigits 10 n, c.isDigit = true := fun _ =>
    Json.Scan.isDigit_of_mem_toDigits
  have value := Nat.ofDigitChars_ten_toDigits (n := n)
  rw [unsigned?_of_digits, String.toList_ofList]
  · exact congrArg some value
  · rw [String.toList_ofList]
    exact Nat.toDigits_ne_nil
  · rwa [String.toList_ofList]
  · exact isZeroFilled_toDigits n

namespace TypedReader

variable {α σ : Type} {j : Json} {n : Node Nat} {w : List Char}

/-- A reader makes a value of all the nodes that have what is in a tree. -/
def Reads (read : TypedReader α) (j : Json) (a : α) : Prop :=
  ∀ {w : List Char} {n : Node Nat}, Spells j w → IsNodeOf j n → ∀ d path count,
    (read d path n).run count = .ok (a, count)

theorem run_bind {β : Type} {m : Follow α} {f : α → Follow β} {a : α} {count count' : Nat}
    (h : m.run count = .ok (a, count')) : (m >>= f).run count = (f a).run count' := by
  rw [StateT.run_bind, h]
  rfl

theorem run_resolve (isNode : IsNodeOf j n) (d : Document) (count : Nat) :
    (resolve d n).run count = .ok (n, count) := by
  match j with
  | .null | .bool _ | .number _ | .string _ =>
    obtain ⟨m, style, text, rfl, -⟩ := isNode
    rfl
  | .array _ =>
    obtain ⟨m, ns, rfl, -⟩ := isNode
    rfl
  | .object _ =>
    obtain ⟨m, es, rfl, -⟩ := isNode
    rfl

theorem run_reading {read : Document → Path → Node Nat → Follow α} {a : α} {d : Document}
    {path : Path} {count : Nat} (isNode : IsNodeOf j n)
    (run : (read d path n).run count = .ok (a, count)) :
    (reading read d path n).run count = .ok (a, count) := by
  unfold reading placed
  rw [run_bind (run_resolve isNode d count)]
  show tryCatchThe Misfit ((read d path n).run count) _ = _
  rw [run]
  rfl

theorem reads_map {β : Type} {read : TypedReader α} {a : α} (f : α → β) (reads : Reads read j a) :
    Reads (f <$> read) j (f a) := by
  intro w n spelled isNode d path count
  show (f <$> read d path n).run count = _
  rw [StateT.run_map, reads spelled isNode d path count]
  rfl

theorem reads_text (expected : String) (s : String) : Reads (textNamed expected) (.string s) s := by
  intro w n _ isNode d path count
  refine run_reading isNode ?_
  obtain ⟨m, style, text, rfl, tokens⟩ := isNode
  obtain ⟨-, rfl⟩ : Style.doubleQuoted = style ∧ s = text := by simpa [flowTokens] using tokens
  rfl

theorem reads_port {k : Nat} (small : k < 65536) :
    Reads port (.number (.integer k)) (UInt16.ofNat k) := by
  intro w n _ isNode d path count
  refine run_reading isNode ?_
  obtain ⟨m, style, text, rfl, tokens⟩ := isNode
  obtain ⟨rfl, digits⟩ : Style.plain = style ∧
      String.ofList (Json.numberText (.integer k)) = text := by
    simpa [flowTokens] using tokens
  have value : unsigned? text = some k := by
    rw [← digits, Json.Scan.numberText_ofNat, unsigned?_toDigits]
  have wide : k < twoTo 64 := Nat.lt_trans small (by decide)
  simp [value, Option.filter, wide, small]
  rfl

variable {item : TypedReader α}

theorem reads_optional_null : Reads (optional item) .null none := by
  intro w n _ isNode d path count
  have resolved := run_resolve isNode d count
  obtain ⟨m, style, text, rfl, tokens⟩ := isNode
  obtain ⟨rfl, rfl⟩ : Style.plain = style ∧ "null" = text := by simpa [flowTokens] using tokens
  unfold optional
  rw [run_bind resolved]
  rfl

theorem start_of_isNull {c : Char} {cs : List Char}
    (null : isNull (String.ofList (c :: cs)) = true) :
    c = '~' ∨ c = 'n' ∨ c = 'N' := by
  have chars {k : String} (same : String.ofList (c :: cs) = k) : c :: cs = k.toList := by
    rw [← same, String.toList_ofList]
  simp only [isNull, List.contains_eq_mem, List.mem_cons, List.not_mem_nil, or_false,
    decide_eq_true_eq] at null
  rcases null with same | same | same | same
  · exact .inl (List.cons.inj (chars same)).1
  · exact .inr (.inl (List.cons.inj (chars same)).1)
  · exact .inr (.inr (List.cons.inj (chars same)).1)
  · exact .inr (.inr (List.cons.inj (chars same)).1)

/-- Only `null` is written plainly as nothing. -/
theorem isNull_of_spells (spelled : Spells j w) (bare : Scan.isBareTree j = true)
    (there : j ≠ .null) :
    (String.ofList w).isEmpty = false ∧ isNull (String.ofList w) = false := by
  obtain ⟨c, cs, rfl, start⟩ := Json.exists_start spelled
  constructor
  · rw [← Bool.not_eq_true, String.isEmpty_iff]
    intro empty
    have chars := congrArg String.toList empty
    rw [String.toList_ofList] at chars
    contradiction
  · rw [← Bool.not_eq_true]
    intro null
    have first := start_of_isNull null
    match j with
    | .null => exact there rfl
    | .bool true | .bool false =>
      obtain rfl : c = _ := start
      revert first
      decide
    | .number _ =>
      cases start with
      | inl minus =>
        rw [minus] at first
        revert first
        decide
      | inr digit =>
        rcases first with rfl | rfl | rfl <;> contradiction

theorem reads_optional {a : α} (there : j ≠ .null) (read : Reads item j a) :
    Reads (optional item) j (some a) := by
  intro w n spelled isNode d path count
  have resolved := run_resolve isNode d count
  have value := read spelled isNode d path count
  have item' : ((do return some (← item d path n) : Follow (Option α))).run count =
      .ok (some a, count) := by
    rw [run_bind value]
    rfl
  unfold optional
  rw [run_bind resolved]
  match j with
  | .null => exact absurd rfl there
  | .bool _ | .number _ =>
    obtain ⟨m, style, text, rfl, tokens⟩ := isNode
    have tokens' := (Scan.isBare_of_spells spelled rfl).2
    obtain ⟨rfl, rfl⟩ : Style.plain = style ∧ String.ofList w = text := by
      simpa [tokens'] using tokens
    obtain ⟨some, other⟩ := isNull_of_spells spelled rfl there
    show (if ((String.ofList w).isEmpty || isNull (String.ofList w)) = true then _ else _ :
      Follow (Option α)).run count = _
    rw [some, other]
    exact item'
  | .string _ =>
    obtain ⟨m, style, text, rfl, tokens⟩ := isNode
    obtain ⟨rfl, rfl⟩ : Style.doubleQuoted = style ∧ _ = text := by simpa [flowTokens] using tokens
    exact item'
  | .array _ =>
    obtain ⟨m, ns, rfl, -⟩ := isNode
    exact item'
  | .object _ =>
    obtain ⟨m, es, rfl, -⟩ := isNode
    exact item'

theorem reads_items {js : List Json} {as : List α} (reads : List.Forall₂ (Reads item) js as)
    {first : Bool} (spelled : SpellsItems first js w) {ns : List (Node Nat)}
    (nodes : AreNodesOf js ns) (d : Document) (path : Path) (i count : Nat) :
    (items item d path i ns).run count = .ok (as, count) := by
  induction reads generalizing first w ns i with
  | nil =>
    obtain rfl : ns = [] := nodes
    rfl
  | @cons j a js as read _ ih =>
    obtain ⟨n, ns, rfl, node, others⟩ := nodes
    obtain ⟨lead, v, r, -, value, later, -⟩ := spelled
    unfold items
    rw [run_bind (read value node d (.item path i) count), run_bind (ih later others (i + 1))]
    rfl

theorem reads_list {js : List Json} {as : List α} (reads : List.Forall₂ (Reads item) js as) :
    Reads (list item) (.array js) as := by
  intro w n spelled isNode d path count
  refine run_reading isNode ?_
  obtain ⟨v, items, -⟩ := spelled
  obtain ⟨m, ns, rfl, nodes⟩ := isNode
  exact reads_items reads items nodes d path 0 count

variable {r : Record Decoder σ} {r' : Record TypedReader σ}

theorem reads_members (follows : r.Follows r' Reads) {ms : List (String × Json)}
    {seen : List String} {s x : σ} (decoded : Decoder.members r ms seen s = .ok x) {first : Bool}
    (spelled : SpellsMembers first ms w) {es : List (Node Nat × Node Nat)}
    (entries : AreEntriesOf ms es) (d : Document) (path : Path) (count : Nat) :
    (members r' d path es seen s).run count = .ok (x, count) := by
  induction ms generalizing seen s first w es with
  | nil =>
    obtain rfl : es = [] := entries
    obtain ⟨complete, rfl⟩ := Decoder.complete_of_members decoded
    unfold members
    rw [follows.complete seen complete]
    rfl
  | cons e ms ih =>
    obtain ⟨k, j⟩ := e
    obtain ⟨m, n, es, rfl, node, others⟩ := entries
    obtain ⟨lead, key, gap, v, more, -, -, -, value, later, -⟩ := spelled
    have name : (textNamed "field identifier" d path (.scalar .none m .doubleQuoted k)).run count =
        .ok (k, count) := rfl
    unfold members
    rw [run_bind name]
    obtain ⟨unknown, further⟩ | ⟨f, set, field, new, decodes, further⟩ :=
      Decoder.member_of_members decoded
    · rw [follows.unknown k unknown]
      exact ih further later others
    · obtain ⟨g, field', same, read⟩ := follows.known k f field
      rw [← same] at new further
      rw [field']
      simp only [new, Bool.false_eq_true, if_false]
      rw [run_bind (read j set decodes value node _ _ _)]
      exact ih further later others

theorem reads_record (follows : r.Follows r' Reads) {ms : List (String × Json)} {x : σ}
    (decoded : Decoder.members r ms [] r.blank = .ok x) : Reads (record r') (.object ms) x := by
  intro w n spelled isNode d path count
  refine run_reading isNode ?_
  obtain ⟨v, members, -⟩ := spelled
  obtain ⟨m, es, rfl, entries⟩ := isNode
  show (TypedReader.members r' d path es [] r'.blank).run count = _
  rw [follows.blank]
  exact reads_members follows decoded members entries d path count

end TypedReader

end TrafficIntent.Yaml
