import TrafficIntent.Proofs.Yaml.ReadBack
import TrafficIntent.Proofs.Yaml.Resolution

namespace TrafficIntent.Yaml

/-- Characters of names, spaces apart. -/
def isNameChar (c : Char) : Bool := c.isAlphanum || ['-', '.', '_', '/', ','].contains c

/-- A letter, then characters of names with single spaces between them. -/
def isName (s : String) : Bool :=
  let cs := s.toList
  cs.head?.any Char.isAlpha && cs.all (fun c => isNameChar c || c == ' ') &&
    cs.getLast? != some ' ' && !hasPair (· == ' ') (· == ' ') cs

/-- Digits with a value of sixteen bits. -/
def isPortNumeral (s : String) : Bool :=
  !s.isEmpty && s.toList.all Char.isDigit && digitsValue s.toList < 65536

/-- A character as it stands in a pattern, where zeros stand for digits. -/
def patternChar (c : Char) : Char := if c.isDigit then '0' else c

/-- A date and a time of day in universal time, to the second. -/
def isMoment (s : String) : Bool :=
  s.toList.map patternChar == "0000-00-00T00:00:00Z".toList

def isSafeText (s : String) : Bool := isName s || isPortNumeral s || isMoment s

/-- Names that are not too long, and that name neither infinity nor no number. -/
def isSafeKey (k : String) : Bool :=
  isName k && k.toList.length ≤ 63 &&
    !(["inf", "infinity", "nan"].contains (String.ofList (k.toList.map Char.toLower)))

/-- Printable characters of one byte. -/
def isAscii (c : Char) : Bool := 0x20 ≤ c.toNat && c.toNat ≤ 0x7E

private theorem bounds_of_isAscii {c : Char} (h : isAscii c = true) :
    0x20 ≤ c.toNat ∧ c.toNat ≤ 0x7E := by
  simpa [isAscii] using h

private theorem line_of_isAscii {c : Char} (ascii : isAscii c = true) :
    isWritable c = true ∧ isLineBreak c = false := by
  have h := bounds_of_isAscii ascii
  have differs (d : Char) (hd : d.toNat < 0x20 ∨ 0x7E < d.toNat) : c ≠ d := by
    rintro rfl
    omega
  refine ⟨by simp [isWritable, h], ?_⟩
  simp [isLineBreak, isBreak, differs '\n' (by decide), differs '\r' (by decide),
    differs '\x85' (by decide), differs '\u2028' (by decide), differs '\u2029' (by decide)]

private theorem isAscii_of_isAlphanum {c : Char} (h : c.isAlphanum = true) : isAscii c = true := by
  simp only [Char.isAlphanum, Bool.or_eq_true] at h
  simp only [isAscii, Bool.and_eq_true, decide_eq_true_eq]
  cases h with
  | inl letter =>
    have bounds := toNat_of_isAlpha letter
    omega
  | inr digit =>
    have bounds := toNat_of_isDigit digit
    omega

private theorem isAscii_of_isName {s : String} (h : isName s = true) :
    ∀ c ∈ s.toList, isAscii c = true := by
  simp only [isName, Bool.and_eq_true, List.all_eq_true] at h
  intro c hc
  have own := h.1.1.2 c hc
  simp only [isNameChar, Bool.or_eq_true] at own
  obtain (word | mark) | space := own
  · exact isAscii_of_isAlphanum word
  · have marks : ['-', '.', '_', '/', ','].all isAscii = true := by decide
    exact List.all_eq_true.1 marks c (by simpa using mark)
  · rw [show c = ' ' by simpa using space]
    decide

variable {s : String}

private theorem exists_letter (h : isName s = true) :
    ∃ c cs, s.toList = c :: cs ∧ c.isAlpha = true := by
  simp only [isName, Bool.and_eq_true] at h
  cases chars : s.toList with
  | nil => simp [chars] at h
  | cons c cs => exact ⟨c, cs, rfl, by simpa [chars] using h.1.1.1⟩

private theorem tree_of_isName (h : isName s = true) (plain : styleOf s = .plain) :
    (Value.ofPlain s).tree = .ok (.string s) := by
  obtain ⟨c, cs, chars, letter⟩ := exists_letter h
  exact tree_of_isAlpha chars letter (found_of_plain plain).2

private theorem utf8ByteSize_of_isAscii (h : ∀ c ∈ s.toList, isAscii c = true) :
    s.utf8ByteSize = s.toList.length := by
  rw [← String.utf8Len_toList]
  generalize s.toList = cs at h ⊢
  induction cs with
  | nil => rfl
  | cons c cs ih =>
    have one : c.utf8Size = 1 := by
      rw [Char.utf8Size_eq_one_iff, UInt32.le_iff_toNat_le]
      have own : c.val.toNat ≤ 0x7E := (bounds_of_isAscii (h c List.mem_cons_self)).2
      exact Nat.le_trans own (by decide)
    rw [String.utf8Len_cons, ih fun d hd => h d (List.mem_cons_of_mem _ hd), one, List.length_cons]

theorem isKey_of_isSafeKey (h : isSafeKey s = true) : IsKey s := by
  simp only [isSafeKey, Bool.and_eq_true, decide_eq_true_eq, Bool.not_eq_true',
    List.contains_eq_mem, decide_eq_false_iff_not] at h
  obtain ⟨⟨name, short⟩, other⟩ := h
  have ascii := isAscii_of_isName name
  have line : ∀ c ∈ s.toList, isWritable c = true ∧ isLineBreak c = false :=
    fun c hc => line_of_isAscii (ascii c hc)
  obtain ⟨c, cs, chars, letter⟩ := exists_letter name
  have simple : isSimpleKey s = true := by
    have size := utf8ByteSize_of_isAscii ascii
    have single : s.toList.any isLineBreak = false := by
      rw [List.any_eq_false]
      intro d hd
      simp [(line d hd).2]
    simp only [isSimpleKey, Layout.ofText, single, Bool.not_false, Bool.true_and, decide_eq_true_eq]
    omega
  cases style_of_line line with
  | inl plain =>
    apply IsKey.of_plain plain simple
    rw [ofPlain_of_isAlpha chars letter (found_of_plain plain).2,
      isReal_of_isAlpha chars letter other]
    rfl
  | inr quoted => exact IsKey.of_singleQuoted quoted simple

private theorem isAscii_of_isPortNumeral (h : isPortNumeral s = true) :
    ∀ c ∈ s.toList, isAscii c = true := by
  simp only [isPortNumeral, Bool.and_eq_true, List.all_eq_true] at h
  exact fun c hc => isAscii_of_isAlphanum (isAlphanum_of_isDigit (h.1.2 c hc))

/-- The writer knows a number, so that it never leaves the quotes out. -/
private theorem not_plain_of_isPortNumeral (h : isPortNumeral s = true) : styleOf s ≠ .plain := by
  simp only [isPortNumeral, Bool.and_eq_true, Bool.not_eq_true', List.all_eq_true,
    decide_eq_true_eq] at h
  obtain ⟨⟨nonempty, digits⟩, small⟩ := h
  intro plain
  have hne : s.toList ≠ [] := by
    intro none
    rw [String.toList_eq_nil_iff.1 none] at nonempty
    contradiction
  obtain ⟨filled, found⟩ := found_of_plain plain
  rw [plainFound_of_digits hne digits small filled] at found
  contradiction

private theorem patternChar_cases {c d : Char} (h : patternChar c = d) :
    c.isDigit = true ∧ d = '0' ∨ c = d := by
  unfold patternChar at h
  split at h
  next digit => exact .inl ⟨digit, h.symm⟩
  next => exact .inr h

private theorem isAscii_of_isMoment (h : isMoment s = true) :
    ∀ c ∈ s.toList, isAscii c = true := by
  have shape : s.toList.map patternChar = "0000-00-00T00:00:00Z".toList := eq_of_beq h
  have marks : "0000-00-00T00:00:00Z".toList.all isAscii = true := by decide
  intro c hc
  obtain ⟨digit, -⟩ | same := patternChar_cases (c := c) rfl
  · exact isAscii_of_isAlphanum (isAlphanum_of_isDigit digit)
  · rw [same]
    exact List.all_eq_true.1 marks _ (shape ▸ List.mem_map_of_mem hc)

private theorem ofPlain_of_isMoment (h : isMoment s = true) : Value.ofPlain s = .string s := by
  have shape : s.toList.map patternChar =
      ['0', '0', '0', '0'] ++ '-' :: "00-00T00:00:00Z".toList := eq_of_beq h
  obtain ⟨year, rest, chars, digits, dash⟩ := List.map_eq_append_iff.1 shape
  obtain ⟨x, r, rfl, hx, -⟩ := List.map_eq_cons_iff.1 dash
  have dash : x = '-' := by
    obtain ⟨-, zero⟩ | same := patternChar_cases hx
    · contradiction
    · exact same
  obtain ⟨d, year, rfl, -, more⟩ := List.map_eq_cons_iff.1 digits
  obtain ⟨e, year, rfl, -, -⟩ := List.map_eq_cons_iff.1 more
  have year : ∀ y ∈ d :: e :: year, y.isDigit = true := by
    intro y hy
    have place : patternChar y ∈ ['0', '0', '0', '0'] := digits ▸ List.mem_map_of_mem hy
    obtain ⟨digit, -⟩ | same := patternChar_cases (c := y) (d := '0') (by simpa using place)
    · exact digit
    · rw [same]
      rfl
  exact ofPlain_of_dash (dash ▸ chars) year

theorem line_of_isSafeText (h : isSafeText s = true) :
    ∀ c ∈ s.toList, isWritable c = true ∧ isLineBreak c = false := by
  simp only [isSafeText, Bool.or_eq_true] at h
  intro c hc
  obtain (name | numeral) | moment := h
  · exact line_of_isAscii (isAscii_of_isName name c hc)
  · exact line_of_isAscii (isAscii_of_isPortNumeral numeral c hc)
  · exact line_of_isAscii (isAscii_of_isMoment moment c hc)

theorem readsBack_of_isSafeText (h : isSafeText s = true) : ReadsBack s := by
  apply readsBack_of_line fun c hc => (line_of_isSafeText h c hc).2
  intro plain
  simp only [isSafeText, Bool.or_eq_true] at h
  obtain (name | numeral) | moment := h
  · exact tree_of_isName name plain
  · exact absurd plain (not_plain_of_isPortNumeral numeral)
  · rw [ofPlain_of_isMoment moment, Value.tree]

/-- There are no lines to keep. -/
theorem keeps_of_isSafeText (h : isSafeText s = true) : Keeps s := by
  intro literal
  cases style_of_line (line_of_isSafeText h) with
  | inl plain => rw [plain] at literal; contradiction
  | inr quoted => rw [quoted] at literal; contradiction

end TrafficIntent.Yaml
