import Mathlib.Data.String.Basic
import TrafficIntent.Proofs.Yaml.Brackets
import TrafficIntent.Proofs.Yaml.Digits
import TrafficIntent.Proofs.Yaml.Lines

namespace TrafficIntent.Yaml

open Scan

/-- A key that stands on one line, plainly or between single quotes, and is read as the text that
it is. -/
structure IsKey (k : String) : Prop where
  style : styleOf k = .plain ∨ styleOf k = .singleQuoted
  simple : isSimpleKey k = true
  text : Value.ofScalar none (styleOf k) k = .string k

mutual

/-- Trees of ports, lists and objects, and of texts of some kind. No list stands right in a list. -/
def IsRegular (p : String → Prop) : Json → Prop
  | .string s => p s
  | .number (.integer n) => 0 ≤ n ∧ n < 65536
  | .array js => RegularItems p js
  | .object ms => (ms.map Prod.fst).Nodup ∧ RegularMembers p ms
  | _ => False

def RegularItems (p : String → Prop) : List Json → Prop
  | [] => True
  | j :: js => (∀ i is, j ≠ .array (i :: is)) ∧ IsRegular p j ∧ RegularItems p js

def RegularMembers (p : String → Prop) : List (String × Json) → Prop
  | [] => True
  | (k, j) :: ms => IsKey k ∧ IsRegular p j ∧ RegularMembers p ms

end

/-- A text with line feeds keeps its lines where it is written in a block. -/
def Keeps (s : String) : Prop := styleOf s = .literal → KeepsLines true s.toList

/-- The column of a value whose key stands at a column. -/
def valueColumn (column : Nat) : Json → Nat
  | .array (_ :: _) => column
  | _ => column + 2

mutual

/-- The tokens of a tree whose text starts at a column. -/
def tokensOf (column : Nat) : Json → List Token
  | .string s => [.scalar (styleOf s) (String.ofList (readChars column s))]
  | .number n => [.scalar .plain (String.ofList (Json.numberText n))]
  | .array [] => [.flowSequenceStart, .flowSequenceEnd]
  | .array (j :: js) => .blockEntry :: tokensOf (column + 2) j ++ itemTokens column js
  | .object [] => [.flowMappingStart, .flowMappingEnd]
  | .object ((k, j) :: ms) =>
    .blockMappingStart :: .key :: .scalar (styleOf k) k :: .value ::
      (tokensOf (valueColumn column j) j ++ (entryTokens column ms ++ [.blockEnd]))
  | _ => []

def itemTokens (column : Nat) : List Json → List Token
  | [] => []
  | j :: js => .blockEntry :: tokensOf (column + 2) j ++ itemTokens column js

def entryTokens (column : Nat) : List (String × Json) → List Token
  | [] => []
  | (k, j) :: ms =>
    .key :: .scalar (styleOf k) k :: .value ::
      (tokensOf (valueColumn column j) j ++ entryTokens column ms)

end

theorem tokensOf_array {column : Nat} {js : List Json} (h : js ≠ []) :
    tokensOf column (.array js) = itemTokens column js := by
  obtain ⟨j, js, rfl⟩ := List.exists_cons_of_ne_nil h
  rw [tokensOf, itemTokens]

theorem tokensOf_object {column : Nat} {ms : List (String × Json)} (h : ms ≠ []) :
    tokensOf column (.object ms) = .blockMappingStart :: (entryTokens column ms ++ [.blockEnd]) := by
  obtain ⟨⟨k, j⟩, ms, rfl⟩ := List.exists_cons_of_ne_nil h
  rw [tokensOf, entryTokens]
  simp

mutual

theorem isProperty_tokensOf (column : Nat) (j : Json) :
    ∀ x ∈ tokensOf column j, isProperty x = false := by
  match j with
  | .null => simp [tokensOf]
  | .bool _ => simp [tokensOf]
  | .number _ => simp [tokensOf, isProperty]
  | .string _ => simp [tokensOf, isProperty]
  | .array [] => simp [tokensOf, isProperty]
  | .array (j :: js) =>
    rw [tokensOf]
    simpa [isProperty, or_imp, forall_and] using
      And.intro (isProperty_tokensOf (column + 2) j) (isProperty_itemTokens column js)
  | .object [] => simp [tokensOf, isProperty]
  | .object ((k, j) :: ms) =>
    rw [tokensOf]
    simpa [isProperty, or_imp, forall_and] using
      And.intro (isProperty_tokensOf (valueColumn column j) j) (isProperty_entryTokens column ms)

theorem isProperty_itemTokens (column : Nat) (js : List Json) :
    ∀ x ∈ itemTokens column js, isProperty x = false := by
  match js with
  | [] => simp [itemTokens]
  | j :: js =>
    rw [itemTokens]
    simpa [isProperty, or_imp, forall_and] using
      And.intro (isProperty_tokensOf (column + 2) j) (isProperty_itemTokens column js)

theorem isProperty_entryTokens (column : Nat) (ms : List (String × Json)) :
    ∀ x ∈ entryTokens column ms, isProperty x = false := by
  match ms with
  | [] => simp [entryTokens]
  | (k, j) :: ms =>
    rw [entryTokens]
    simpa [isProperty, or_imp, forall_and] using
      And.intro (isProperty_tokensOf (valueColumn column j) j) (isProperty_entryTokens column ms)

end

namespace Scan

variable {s : State} {text : List Char} {shown : List Token} {c column : Nat} {cs : List Nat}

private theorem deep (h : s.Ready text column shown (c :: cs)) (hc : c + 2 ≤ column) :
    s.keyAllowed = true → s.indent < s.mark.column := by
  have further := h.inside.le_succ
  have place := h.column
  simp only [innermost] at further
  omega

/-- A text is read as its characters, in the style in which it is written. -/
theorem fetches_text {v : String} (hv : styleOf v = .literal → KeepsLines true v.toList)
    (h : s.Ready (endLine (scalarText (c + 2) v) ++ text) column shown (c :: cs))
    (hg : GoesOn c text) (hc : c + 2 ≤ column) :
    ∃ t, Fetches .v12 s t ∧
      t.Ended text (shown ++ [.scalar (styleOf v) (String.ofList (readChars (c + 2) v))])
        (c :: cs) := by
  obtain ⟨m, body, rfl, ho, hm⟩ := hg
  have hk := deep h hc
  cases style_cases v with
  | inl plain =>
    have style := plain.1
    rw [written_plain _ style, List.append_assoc] at h
    obtain ⟨t, fetched, at', allowed⟩ := fetches_plain h (isPlain_of_style style) ho hm hk
    rw [style, readChars_of_style (by simp [style])]
    exact ⟨t, fetched, at'.ended ho allowed⟩
  | inr others =>
    cases others with
    | inl quoted =>
      have style := quoted.1
      rw [written_quoted (scalarText_singleQuoted _ style) rfl, List.cons_append,
        List.append_assoc] at h
      have stands : ∀ d ∈ readChars (c + 2) v, d ≠ ' ' → StandsFor true (doubled d) d :=
        fun d hd space => standsFor_doubled (isBlankOrEnd_of_readChars style hd space)
      obtain ⟨t, fetched, at', allowed⟩ := fetches_quoted h stands rfl ho hk
      rw [style]
      exact ⟨t, fetched, at'.ended ho allowed⟩
    | inr others =>
      cases others with
      | inl style =>
        rw [written_quoted (scalarText_doubleQuoted _ style) rfl, List.cons_append,
          List.append_assoc] at h
        have stands : ∀ d ∈ readChars (c + 2) v, d ≠ ' ' → StandsFor false (escapedChar d) d :=
          fun d _ space => standsFor_escapedChar space
        obtain ⟨t, fetched, at', allowed⟩ := fetches_quoted h stands rfl ho hk
        rw [style]
        exact ⟨t, fetched, at'.ended ho allowed⟩
      | inr literal =>
        have style := literal.1
        obtain ⟨writable, hne⟩ := isWritable_of_literal style
        rw [written_literal _ style] at h
        have fine : ∀ d ∈ v.toList, d ≠ '\n' → isBreakOrEnd .v12 d = false := by
          intro d hd line
          by_cases space : d = ' '
          · rw [space]
            rfl
          · have free := isBlankOrEnd_of_isWritable (writable d hd) space line
            simp only [isBlankOrEnd, Bool.or_eq_false_iff] at free
            exact free.2
        obtain ⟨t, fetched, at', allowed⟩ := fetches_literal h (hv style) hne fine
          (show ((c + 2 : Nat) : Int) = innermost (c :: cs) + 2 by simp)
          (by simp) ho hm hk
        rw [style, readChars_of_style (by simp [style])]
        exact ⟨t, fetched, at'.ended ho allowed⟩

/-- A number is read as its digits. -/
theorem fetches_number {n : Int} (hn : 0 ≤ n)
    (h : s.Ready (Json.numberText (.integer n) ++ '\n' :: text) column shown (c :: cs))
    (hg : GoesOn c text) (hc : c + 2 ≤ column) :
    ∃ t, Fetches .v12 s t ∧
      t.Ended text (shown ++ [.scalar .plain (String.ofList (Json.numberText (.integer n)))])
        (c :: cs) := by
  obtain ⟨m, body, rfl, ho, hm⟩ := hg
  obtain ⟨k, rfl⟩ := Int.eq_ofNat_of_zero_le hn
  rw [Json.Scan.numberText_ofNat] at h ⊢
  obtain ⟨t, fetched, at', allowed⟩ := fetches_plain h isPlain_toDigits ho hm (deep h hc)
  exact ⟨t, fetched, at'.ended ho allowed⟩

theorem fetches_brackets (map : Bool)
    (h : s.Ready ((opening map).1 :: (closing map).1 :: '\n' :: text) column shown (c :: cs))
    (hg : GoesOn c text) (hc : c + 2 ≤ column) :
    ∃ t, Fetches .v12 s t ∧
      t.Ended text (shown ++ [(opening map).2, (closing map).2]) (c :: cs) := by
  obtain ⟨m, body, rfl, ho, hm⟩ := hg
  obtain ⟨t, fetched, at', allowed⟩ := fetches_empty map h ho (deep h hc)
  exact ⟨t, fetched, at'.ended ho allowed⟩

end Scan

theorem IsKey.of_plain {k : String} (plain : styleOf k = .plain) (simple : isSimpleKey k = true)
    (text : Value.ofPlain k = .string k) : IsKey k := by
  refine ⟨.inl plain, simple, ?_⟩
  rw [plain]
  exact text

theorem IsKey.of_singleQuoted {k : String} (quoted : styleOf k = .singleQuoted)
    (simple : isSimpleKey k = true) : IsKey k := by
  refine ⟨.inr quoted, simple, ?_⟩
  rw [quoted]
  rfl

theorem IsKey.noBreak {k : String} (hk : IsKey k) : ∀ c ∈ k.toList, isLineBreak c = false := by
  have simple := hk.simple
  simp only [isSimpleKey, Layout.ofText, Bool.and_eq_true, Bool.not_eq_true'] at simple
  intro c hc
  have other := List.any_eq_false.1 simple.1 c hc
  simpa using other

private theorem length_le_utf8ByteSize (s : String) : s.toList.length ≤ s.utf8ByteSize := by
  rw [← String.utf8Len_toList]
  induction s.toList with
  | nil => exact Nat.le_refl _
  | cons c cs ih =>
    have positive := c.utf8Size_pos
    rw [String.utf8Len_cons, List.length_cons]
    omega

private theorem length_doubled_le (cs : List Char) :
    (cs.flatMap Scan.doubled).length ≤ 2 * cs.length := by
  induction cs with
  | nil => exact Nat.le_refl _
  | cons c cs ih =>
    have own : (Scan.doubled c).length ≤ 2 := by
      unfold Scan.doubled
      split <;> simp
    rw [List.flatMap_cons, List.length_append, List.length_cons]
    omega

/-- The two forms of a key, which are the same at all columns. -/
theorem IsKey.written {k : String} (hk : IsKey k) {n : Nat} (hn : n ≠ 0) :
    (styleOf k = .plain ∧ scalarText n k = k.toList) ∨
      (styleOf k = .singleQuoted ∧ scalarText n k =
        Scan.quote true :: (k.toList.flatMap Scan.doubled ++ [Scan.quote true])) := by
  cases hk.style with
  | inl plain =>
    refine .inl ⟨plain, ?_⟩
    unfold scalarText
    rw [plain]
  | inr quoted =>
    refine .inr ⟨quoted, ?_⟩
    rw [scalarText_singleQuoted n quoted, (readChars_eq_iff hn quoted).2 hk.noBreak]

theorem IsKey.length_written {k : String} (hk : IsKey k) {n : Nat} (hn : n ≠ 0) :
    0 < (scalarText n k).length ∧ (scalarText n k).length ≤ 1024 := by
  have simple := hk.simple
  have least := length_le_utf8ByteSize k
  have most := length_doubled_le k.toList
  simp only [isSimpleKey, Bool.and_eq_true, decide_eq_true_eq] at simple
  obtain ⟨plain, written⟩ | ⟨-, written⟩ := hk.written hn
  · obtain ⟨c, cs, chars, -⟩ := (isPlain_of_style plain).chars
    have positive : 0 < k.toList.length := by
      rw [chars]
      exact Nat.succ_pos _
    rw [written]
    omega
  · rw [written]
    simp only [List.length_cons, List.length_append, List.length_nil]
    omega

theorem IsKey.opens {k : String} (hk : IsKey k) {n : Nat} (hn : n ≠ 0) (text : List Char) :
    Opens (scalarText n k ++ text) := by
  obtain ⟨plain, written⟩ | ⟨-, written⟩ := hk.written hn
  · rw [written]
    exact (isPlain_of_style plain).opens _
  · rw [written]
    rfl

namespace Scan

/-- A key is read with its colon, and a map is entered if it is the first one. -/
theorem fetches_key {s : State} {k : String} (hk : IsKey k) {n column : Nat} (hn : n ≠ 0)
    {text : List Char} {shown : List Token} {cs : List Nat}
    (h : s.Ready (scalarText n k ++ ':' :: text) column shown cs)
    (hr : text.headD ' ' = ' ' ∨ text.headD ' ' = '\n') (allowed : s.keyAllowed = true) :
    ∃ t, Fetches .v12 s t ∧
      t.At text (column + (scalarText n k).length + 1)
        (shown ++ mapStart column cs ++ [.key, .scalar (styleOf k) k, .value])
        (entered column cs) := by
  have candidate : ∃ u, Fetches .v12 s u ∧
      u.AtColon text column (scalarText n k).length shown (.scalar (styleOf k) k) cs := by
    obtain ⟨plain, written⟩ | ⟨quoted, written⟩ := hk.written hn
    · rw [written] at h ⊢
      have blank : isBlankOrEnd .v12 (text.headD endChar) = true := by
        cases text with
        | nil => rfl
        | cons c text =>
          obtain space | line := hr
          · rw [show c = ' ' from space]
            rfl
          · rw [show c = '\n' from line]
            rfl
      rw [plain]
      simpa using fetches_plainKey h (isPlain_of_style plain) blank allowed
    · have stands : ∀ d ∈ k.toList, d ≠ ' ' → StandsFor true (doubled d) d := by
        intro d hd space
        obtain ⟨writable, line⟩ := isWritable_of_singleQuoted quoted d hd
        exact standsFor_doubled (isBlankOrEnd_of_isWritable writable space line)
      have length : (quote true :: (k.toList.flatMap doubled ++ [quote true])).length =
          (k.toList.flatMap doubled).length.succ.succ := by
        simp
      rw [written, List.cons_append, List.append_assoc] at h
      rw [quoted, written, length]
      simpa [quotedStyle] using fetches_quotedKey h stands rfl allowed
  obtain ⟨u, fetched, atColon⟩ := candidate
  obtain ⟨t, colon, at'⟩ := fetches_colon atColon hr (hk.length_written hn)
  exact ⟨t, fetched.trans colon, at'⟩

end Scan

/-- What stands between a colon and the value. -/
def valueGap (column : Nat) : Json → List Char
  | .object (_ :: _) => '\n' :: List.replicate (column + 2) ' '
  | .array (_ :: _) => '\n' :: List.replicate column ' '
  | _ => [' ']

/-- The entries of a map whose first key stands at a column of the current line. -/
def entriesText (column : Nat) : List (String × Json) → List Char
  | [] => []
  | (k, j) :: ms =>
    scalarText (column + 2) k ++ ':' :: (valueGap column j ++
      (block (valueColumn column j) j ++ furtherEntries column ms))

/-- The items of a list whose first dash stands at a column of the current line. -/
def itemsText (column : Nat) : List Json → List Char
  | [] => []
  | j :: js => '-' :: ' ' :: (block (column + 2) j ++ furtherItems column js)

theorem entry_eq {k : String} (hk : IsKey k) (column : Nat) (j : Json) :
    keyText column k ++ (valueStart column (isSimpleKey k) j).1 ++
        block (valueStart column (isSimpleKey k) j).2 j =
      scalarText (column + 2) k ++ ':' :: (valueGap column j ++ block (valueColumn column j) j) := by
  have start : valueStart column true j = (valueGap column j, valueColumn column j) := by
    unfold valueStart valueGap valueColumn
    split <;> simp_all [margin]
  unfold keyText
  rw [hk.simple, if_pos rfl, start]
  simp

theorem block_object {p : String → Prop} {column : Nat} {ms : List (String × Json)} (hne : ms ≠ [])
    (h : RegularMembers p ms) : block column (.object ms) = entriesText column ms := by
  obtain ⟨⟨k, j⟩, ms, rfl⟩ := List.exists_cons_of_ne_nil hne
  rw [block, entriesText, entry_eq h.1]
  simp

theorem block_array {column : Nat} {js : List Json} (hne : js ≠ []) :
    block column (.array js) = itemsText column js := by
  obtain ⟨j, js, rfl⟩ := List.exists_cons_of_ne_nil hne
  rw [block, itemsText]
  rfl

theorem furtherEntries_eq {p : String → Prop} {column : Nat} {ms : List (String × Json)} (hne : ms ≠ [])
    (h : RegularMembers p ms) :
    furtherEntries column ms = List.replicate column ' ' ++ entriesText column ms := by
  obtain ⟨⟨k, j⟩, ms, rfl⟩ := List.exists_cons_of_ne_nil hne
  have entry := congrArg (· ++ furtherEntries column ms) (entry_eq h.1 column j)
  simp only [List.append_assoc, List.cons_append] at entry
  rw [furtherEntries, entriesText]
  simp only [List.append_assoc]
  rw [entry]
  rfl

theorem furtherItems_eq {column : Nat} {js : List Json} (hne : js ≠ []) :
    furtherItems column js = List.replicate column ' ' ++ itemsText column js := by
  obtain ⟨j, js, rfl⟩ := List.exists_cons_of_ne_nil hne
  rw [furtherItems, itemsText]
  simp [margin]

theorem opens_entriesText {p : String → Prop} {column : Nat} {ms : List (String × Json)} (hne : ms ≠ [])
    (h : RegularMembers p ms) (text : List Char) : Opens (entriesText column ms ++ text) := by
  obtain ⟨⟨k, j⟩, ms, rfl⟩ := List.exists_cons_of_ne_nil hne
  rw [entriesText, List.append_assoc]
  exact h.1.opens (by simp) _

theorem opens_itemsText {column : Nat} {js : List Json} (hne : js ≠ []) (text : List Char) :
    Opens (itemsText column js ++ text) := by
  obtain ⟨j, js, rfl⟩ := List.exists_cons_of_ne_nil hne
  rfl

theorem opens_written (n : Nat) (v : String) (text : List Char) :
    Opens (endLine (scalarText n v) ++ text) := by
  cases style_cases v with
  | inl plain =>
    rw [written_plain n plain.1, List.append_assoc]
    exact (isPlain_of_style plain.1).opens _
  | inr others =>
    cases others with
    | inl quoted =>
      rw [written_quoted (scalarText_singleQuoted n quoted.1) rfl]
      rfl
    | inr others =>
      cases others with
      | inl style =>
        rw [written_quoted (scalarText_doubleQuoted n style) rfl]
        rfl
      | inr literal =>
        rw [written_literal n literal.1]
        unfold endLine
        split <;> rfl

theorem opens_block {p : String → Prop} (column : Nat) {j : Json} (h : IsRegular p j) (text : List Char) :
    Opens (block column j ++ text) := by
  match j with
  | .null => exact h.elim
  | .bool _ => exact h.elim
  | .number (.real _) => exact h.elim
  | .number (.integer n) =>
    obtain ⟨k, rfl⟩ := Int.eq_ofNat_of_zero_le h.1
    rw [block, Json.Scan.numberText_ofNat, List.append_assoc]
    exact isPlain_toDigits.opens _
  | .string v => exact opens_written column v text
  | .array [] => rfl
  | .array (j :: js) => rw [block_array (by simp)]; exact opens_itemsText (by simp) text
  | .object [] => rfl
  | .object (m :: ms) =>
    rw [block_object (by simp) h.2]
    exact opens_entriesText (by simp) h.2 text

/-- Where a tree stands within a block: a list at the column of the block, everything else two
columns further. Lists and maps start on lines of their own or after a dash. -/
def Placed (s : State) (c n column : Nat) : Json → Prop
  | .array (_ :: _) => n = c ∧ column = c ∧ s.keyAllowed = true
  | .object (_ :: _) => n = c + 2 ∧ column = c + 2 ∧ s.keyAllowed = true
  | _ => n = c + 2 ∧ c + 2 ≤ column

theorem exists_entered {column : Nat} {cs : List Nat} (h : innermost cs ≤ column) :
    ∃ ds, entered column cs = column :: ds := by
  unfold entered
  split
  next => exact ⟨cs, rfl⟩
  next above =>
    cases cs with
    | nil => simp [innermost] at above; omega
    | cons d cs =>
      have same : d = column := by
        simp only [innermost] at h above
        omega
      exact ⟨cs, by rw [same]⟩

namespace Scan

variable {text : List Char} {shown : List Token} {column : Nat} {cs : List Nat}

/-- After its key a value is reached, on the same line or on the next one. -/
theorem fetches_valueGap {p : String → Prop} {s : State} {c : Nat} {j : Json} (hj : IsRegular p j)
    (h : s.At (valueGap c j ++ (block (valueColumn c j) j ++ text)) column shown (c :: cs))
    (hc : c + 1 ≤ column) :
    ∃ t column', Fetches .v12 s t ∧ t.Ready (block (valueColumn c j) j ++ text) column' shown (c :: cs) ∧
      Placed t c (valueColumn c j) column' j := by
  have opens := opens_block (valueColumn c j) hj text
  have inline (gap : valueGap c j = [' ']) (placed : ∀ t : State, ∀ column', c + 2 ≤ column' →
      Placed t c (valueColumn c j) column' j) : ∃ t column', Fetches .v12 s t ∧
      t.Ready (block (valueColumn c j) j ++ text) column' shown (c :: cs) ∧
      Placed t c (valueColumn c j) column' j := by
    rw [gap] at h
    obtain ⟨t, fetched, ready, -⟩ := fetches_space h opens (by rw [innermost_cons]; omega)
    exact ⟨t, column + 1, fetched, ready, placed t _ (by omega)⟩
  match j with
  | .null => exact hj.elim
  | .bool _ => exact hj.elim
  | .number _ => exact inline rfl fun _ _ further => ⟨rfl, further⟩
  | .string _ => exact inline rfl fun _ _ further => ⟨rfl, further⟩
  | .array [] => exact inline rfl fun _ _ further => ⟨rfl, further⟩
  | .object [] => exact inline rfl fun _ _ further => ⟨rfl, further⟩
  | .array (j :: js) =>
    obtain ⟨t, fetched, ready, allowed⟩ := fetches_line h opens (by simp)
    exact ⟨t, c, fetched, ready, rfl, rfl, allowed⟩
  | .object (m :: ms) =>
    obtain ⟨t, fetched, ready, allowed⟩ := fetches_line h opens (by rw [innermost_cons]; omega)
    exact ⟨t, c + 2, fetched, ready, rfl, rfl, allowed⟩

theorem valueGap_starts (c : Nat) (j : Json) (text : List Char) :
    (valueGap c j ++ text).headD ' ' = ' ' ∨ (valueGap c j ++ text).headD ' ' = '\n' := by
  unfold valueGap
  split <;> simp

mutual

/-- The text of a tree is read as its tokens, up to the next line. -/
theorem fetches_block (n : Nat) (j : Json) (hj : IsRegular Keeps j) {s : State} {text : List Char}
    {shown : List Token} {c column : Nat} {cs : List Nat}
    (h : s.Ready (block n j ++ text) column shown (c :: cs)) (hg : GoesOn c text)
    (hp : Placed s c n column j) (bare : ∀ x ∈ shown, isProperty x = false) :
    ∃ t, Fetches .v12 s t ∧ t.Ended text (shown ++ tokensOf n j) (c :: cs) := by
  match j with
  | .null => exact hj.elim
  | .bool _ => exact hj.elim
  | .number (.real _) => exact hj.elim
  | .number (.integer i) =>
    rw [block, List.append_assoc] at h
    exact fetches_number hj.1 h hg hp.2
  | .string v =>
    obtain ⟨rfl, further⟩ := hp
    exact fetches_text hj h hg further
  | .array [] => exact fetches_brackets false h hg hp.2
  | .object [] => exact fetches_brackets true h hg hp.2
  | .array (j :: js) =>
    obtain ⟨rfl, rfl, allowed⟩ := hp
    rw [block_array (by simp)] at h
    rw [tokensOf_array (by simp)]
    exact fetches_items column (j :: js) hj (by simp) h hg allowed bare
  | .object (m :: ms) =>
    obtain ⟨rfl, rfl, allowed⟩ := hp
    have deeper : innermost (c :: cs) < (c + 2 : Nat) := by
      rw [innermost_cons]
      omega
    rw [block_object (by simp) hj.2] at h
    obtain ⟨t, fetched, ended⟩ := fetches_entries (c + 2) (m :: ms) hj.2 (by simp) h
      (hg.mono (by omega)) (by omega) allowed bare
    rw [mapStart, entered, if_pos deeper, if_pos deeper] at ended
    refine ⟨t, fetched, ?_⟩
    have closed := ended.close deeper
    rw [tokensOf_object (by simp)]
    simpa using closed

theorem fetches_items (c : Nat) (js : List Json) (hj : RegularItems Keeps js) (hne : js ≠ []) {s : State}
    {text : List Char} {shown : List Token} {cs : List Nat}
    (h : s.Ready (itemsText c js ++ text) c shown (c :: cs)) (hg : GoesOn c text)
    (hk : s.keyAllowed = true) (bare : ∀ x ∈ shown, isProperty x = false) :
    ∃ t, Fetches .v12 s t ∧ t.Ended text (shown ++ itemTokens c js) (c :: cs) := by
  match js with
  | [] => contradiction
  | j :: js =>
    obtain ⟨notList, regular, others⟩ := hj
    have line : s.Ready ('-' :: ' ' :: (block (c + 2) j ++ (furtherItems c js ++ text))) c shown
        (c :: cs) := by
      rw [itemsText] at h
      simpa using h
    obtain ⟨t, dashed, ready, allowed⟩ := fetches_dash line (opens_block _ regular _) hk bare
    have placed : Placed t c (c + 2) (c + 2) j := by
      match j with
      | .null => exact regular.elim
      | .bool _ => exact regular.elim
      | .number _ => exact ⟨rfl, Nat.le_refl _⟩
      | .string _ => exact ⟨rfl, Nat.le_refl _⟩
      | .array [] => exact ⟨rfl, Nat.le_refl _⟩
      | .array (i :: is) => exact absurd rfl (notList i is)
      | .object [] => exact ⟨rfl, Nat.le_refl _⟩
      | .object (m :: ms) => exact ⟨rfl, rfl, allowed⟩
    have goesOn : GoesOn c (furtherItems c js ++ text) := by
      by_cases none : js = []
      · rw [none]
        exact hg
      · rw [furtherItems_eq none, List.append_assoc]
        exact goesOn_margin c (opens_itemsText none text)
    have dash : ∀ x ∈ shown ++ [.blockEntry], isProperty x = false := by
      simpa [isProperty, or_imp, forall_and] using bare
    obtain ⟨u, item, ended⟩ := fetches_block (c + 2) j regular ready goesOn placed dash
    have bare' : ∀ x ∈ shown ++ [.blockEntry] ++ tokensOf (c + 2) j, isProperty x = false := by
      intro x hx
      cases List.mem_append.1 hx with
      | inl before => exact dash x before
      | inr own => exact isProperty_tokensOf _ j x own
    by_cases none : js = []
    · subst none
      refine ⟨u, dashed.trans item, ?_⟩
      simpa [furtherItems, itemTokens] using ended
    · rw [furtherItems_eq none, List.append_assoc] at ended
      obtain ⟨v, reached, ready', allowed'⟩ := fetches_ended ended (opens_itemsText none text)
      obtain ⟨w, further, ended'⟩ := fetches_items c js others none ready' hg allowed' bare'
      refine ⟨w, ((dashed.trans item).trans reached).trans further, ?_⟩
      rw [itemTokens]
      simpa using ended'

theorem fetches_entries (c : Nat) (ms : List (String × Json)) (hm : RegularMembers Keeps ms)
    (hne : ms ≠ []) {s : State} {text : List Char} {shown : List Token} {cs : List Nat}
    (h : s.Ready (entriesText c ms ++ text) c shown cs) (hg : GoesOn c text)
    (hc : innermost cs ≤ c) (hk : s.keyAllowed = true)
    (bare : ∀ x ∈ shown, isProperty x = false) :
    ∃ t, Fetches .v12 s t ∧
      t.Ended text (shown ++ mapStart c cs ++ entryTokens c ms) (entered c cs) := by
  match ms with
  | [] => contradiction
  | (k, j) :: ms =>
    obtain ⟨key, regular, others⟩ := hm
    obtain ⟨ds, enter⟩ := exists_entered hc
    have line : s.Ready (scalarText (c + 2) k ++ ':' :: (valueGap c j ++
        (block (valueColumn c j) j ++ (furtherEntries c ms ++ text)))) c shown cs := by
      rw [entriesText] at h
      simpa using h
    obtain ⟨t, keyed, at'⟩ := fetches_key key (by simp) line (valueGap_starts c j _) hk
    rw [enter] at at'
    obtain ⟨u, column, reached, ready, placed⟩ := fetches_valueGap regular at' (by omega)
    have goesOn : GoesOn c (furtherEntries c ms ++ text) := by
      by_cases none : ms = []
      · rw [none]
        exact hg
      · rw [furtherEntries_eq none others, List.append_assoc]
        exact goesOn_margin c (opens_entriesText none others text)
    have named : ∀ x ∈ shown ++ mapStart c cs ++ [.key, .scalar (styleOf k) k, .value],
        isProperty x = false := by
      unfold mapStart
      split <;> simpa [isProperty, or_imp, forall_and] using bare
    obtain ⟨v, value, ended⟩ := fetches_block (valueColumn c j) j regular ready goesOn placed named
    have bare' : ∀ x ∈ shown ++ mapStart c cs ++ [.key, .scalar (styleOf k) k, .value] ++
        tokensOf (valueColumn c j) j, isProperty x = false := by
      intro x hx
      cases List.mem_append.1 hx with
      | inl before => exact named x before
      | inr own => exact isProperty_tokensOf _ j x own
    rw [enter]
    by_cases none : ms = []
    · subst none
      refine ⟨v, (keyed.trans reached).trans value, ?_⟩
      simpa [furtherEntries, entryTokens] using ended
    · rw [furtherEntries_eq none others, List.append_assoc] at ended
      obtain ⟨w, settled, ready', allowed⟩ :=
        fetches_ended ended (opens_entriesText none others text)
      obtain ⟨x, further, ended'⟩ := fetches_entries c ms others none ready' hg (by simp)
        allowed bare'
      have started : mapStart c (c :: ds) = [] := if_neg (Int.lt_irrefl _)
      have inside : entered c (c :: ds) = c :: ds := if_neg (Int.lt_irrefl _)
      rw [started, inside] at ended'
      refine ⟨x, (((keyed.trans reached).trans value).trans settled).trans further, ?_⟩
      rw [entryTokens]
      simpa using ended'

end

end Scan

end TrafficIntent.Yaml
