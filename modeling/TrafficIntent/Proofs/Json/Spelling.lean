import TrafficIntent.Proofs.Json.ReadBack

/-!
Spellings of trees: the texts that write a tree down, with any white space between their tokens and
characters as they are or by escapes. They keep to what is common ground with notations that take
JSON in: no character is escaped by two surrogates, characters beyond ASCII stand for themselves
only if they are no controls or line breaks, and a key is on one line with its colon, at most 1024
bytes before it. Numbers are whole and of 64 bits.
-/

namespace TrafficIntent.Json

/-- White space between tokens. -/
def Gap (w : List Char) : Prop := ∀ c ∈ w, Scan.isSpace c = true

/-- Characters that may stand for themselves. -/
def isPlain (c : Char) : Bool :=
  ((0x20 ≤ c.toNat && c.toNat ≤ 0x7E) || 0xA0 ≤ c.toNat) &&
    !(['\x22', '\\', '\u2028', '\u2029', '\ufffe', '\uffff'].contains c)

/-- A character, as it is or escaped. -/
inductive SpellsChar : Char → List Char → Prop
  | plain {c : Char} (shown : isPlain c = true) : SpellsChar c [c]
  | short {c e : Char} (escape : shortEscape? e = some c) : SpellsChar c ['\\', e]
  | quad {c a b d e : Char} (digits : hexQuad? a b d e = some c.toNat) :
      SpellsChar c ['\\', 'u', a, b, d, e]

/-- What stands between the quotes of a text, character by character. -/
def SpellsText (s : String) (w : List Char) : Prop :=
  ∃ ps : List (Char × List Char), (∀ p ∈ ps, SpellsChar p.1 p.2) ∧ s.toList = ps.map Prod.fst ∧
    w = ps.flatMap Prod.snd

/-- A key with the blanks before its colon. -/
def SpellsKey (k : String) (w : List Char) : Prop :=
  ∃ v blanks, SpellsText k v ∧ (∀ c ∈ blanks, c = ' ' ∨ c = '\t') ∧
    w = '\x22' :: (v ++ '\x22' :: blanks) ∧ (String.ofList w).utf8ByteSize ≤ 1024

/-- What comes before an element or member: a comma, unless it is the first one. -/
def Leads (first : Bool) (w : List Char) : Prop :=
  if first then Gap w else ∃ u v, Gap u ∧ Gap v ∧ w = u ++ ',' :: v

mutual

def Spells : Json → List Char → Prop
  | .null, w => w = ['n', 'u', 'l', 'l']
  | .bool true, w => w = ['t', 'r', 'u', 'e']
  | .bool false, w => w = ['f', 'a', 'l', 's', 'e']
  | .number (.integer n), w => (-2 ^ 63 ≤ n ∧ n < 2 ^ 64) ∧ w = numberText (.integer n)
  | .number (.real _), _ => False
  | .string s, w => ∃ v, SpellsText s v ∧ w = '\x22' :: (v ++ ['\x22'])
  | .array js, w => ∃ v, SpellsItems true js v ∧ w = '[' :: (v ++ [']'])
  | .object ms, w => ∃ v, SpellsMembers true ms v ∧ w = '{' :: (v ++ ['}'])

/-- The elements of a list up to its bracket, the first one of them or all further ones. -/
def SpellsItems : Bool → List Json → List Char → Prop
  | _, [], w => Gap w
  | first, j :: js, w => ∃ lead v r, Leads first lead ∧ Spells j v ∧ SpellsItems false js r ∧
      w = lead ++ (v ++ r)

def SpellsMembers : Bool → List (String × Json) → List Char → Prop
  | _, [], w => Gap w
  | first, (k, j) :: ms, w => ∃ lead key gap v r, Leads first lead ∧ SpellsKey k key ∧ Gap gap ∧
      Spells j v ∧ SpellsMembers false ms r ∧ w = lead ++ (key ++ ':' :: (gap ++ (v ++ r)))

end

theorem gap_nil : Gap [] := by
  intro c hc
  contradiction

theorem gap_append {u v : List Char} (hu : Gap u) (hv : Gap v) : Gap (u ++ v) := by
  intro c hc
  cases List.mem_append.1 hc with
  | inl left => exact hu c left
  | inr right => exact hv c right

theorem gap_of_blanks {w : List Char} (h : ∀ c ∈ w, c = ' ' ∨ c = '\t') : Gap w := by
  intro c hc
  cases h c hc with
  | inl space => rw [space]; rfl
  | inr tab => rw [tab]; rfl

theorem isPlain_ne {c d : Char} (shown : isPlain c = true) (other : isPlain d = false) :
    c ≠ d := by
  intro same
  rw [same, other] at shown
  contradiction

/-- Characters that stand for themselves. -/
theorem spellsText_self {s : String} (plain : ∀ c ∈ s.toList, isPlain c = true) :
    SpellsText s s.toList := by
  refine ⟨s.toList.map fun c => (c, [c]), ?_, ?_, ?_⟩
  · intro p hp
    obtain ⟨c, hc, rfl⟩ := List.mem_map.1 hp
    exact .plain (plain c hc)
  · rw [List.map_map]
    exact (List.map_id s.toList).symm
  · rw [List.flatMap_map]
    exact (List.flatMap_singleton' s.toList).symm

theorem spellsKey_self {k : String} (plain : ∀ c ∈ k.toList, isPlain c = true)
    (short : (String.ofList ('\x22' :: (k.toList ++ ['\x22']))).utf8ByteSize ≤ 1024) :
    SpellsKey k ('\x22' :: (k.toList ++ ['\x22'])) :=
  ⟨k.toList, [], spellsText_self plain, nofun, rfl, short⟩

/-- The characters that a spelling starts with. -/
def starts (j : Json) (c : Char) : Prop :=
  match j with
  | .null => c = 'n'
  | .bool true => c = 't'
  | .bool false => c = 'f'
  | .number _ => c = '-' ∨ c.isDigit = true
  | .string _ => c = '\x22'
  | .array _ => c = '['
  | .object _ => c = '{'

theorem exists_start {j : Json} {w : List Char} (h : Spells j w) :
    ∃ c cs, w = c :: cs ∧ starts j c := by
  match j with
  | .null => exact ⟨_, _, h, rfl⟩
  | .bool true => exact ⟨_, _, h, rfl⟩
  | .bool false => exact ⟨_, _, h, rfl⟩
  | .number (.integer (.ofNat n)) =>
    obtain ⟨c, ds, digits, digit⟩ := Scan.exists_digits n
    exact ⟨c, ds, h.2.trans ((Scan.numberText_ofNat n).trans digits), .inr digit⟩
  | .number (.integer (.negSucc n)) => exact ⟨_, _, h.2.trans (Scan.numberText_negSucc n), .inl rfl⟩
  | .number (.real _) => exact h.elim
  | .string _ =>
    obtain ⟨v, -, text⟩ := h
    exact ⟨_, _, text, rfl⟩
  | .array _ =>
    obtain ⟨v, -, text⟩ := h
    exact ⟨_, _, text, rfl⟩
  | .object _ =>
    obtain ⟨v, -, text⟩ := h
    exact ⟨_, _, text, rfl⟩

/-- A spelling starts with no white space, and with nothing that ends a list or object or goes on
with one. -/
theorem starts.shown {j : Json} {c : Char} (h : starts j c) :
    Scan.isSpace c = false ∧ c ≠ ']' ∧ c ≠ '}' ∧ c ≠ ',' := by
  have digit : c.isDigit = true → Scan.isSpace c = false ∧ c ≠ ']' ∧ c ≠ '}' ∧ c ≠ ',' := by
    intro digit
    refine ⟨?_, ?_, ?_, ?_⟩
    · rw [Bool.eq_false_iff]
      intro space
      simp only [Scan.isSpace, Bool.or_eq_true, beq_iff_eq] at space
      rcases space with ((rfl | rfl) | rfl) | rfl <;> contradiction
    all_goals
      rintro rfl
      contradiction
  match j with
  | .null | .bool true | .bool false | .string _ | .array _ | .object _ =>
    obtain rfl : c = _ := h
    decide
  | .number _ =>
    cases h with
    | inl minus => rw [minus]; decide
    | inr other => exact digit other

end TrafficIntent.Json
