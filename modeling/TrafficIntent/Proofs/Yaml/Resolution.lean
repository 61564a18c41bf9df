import Mathlib.Data.List.TakeDrop
import TrafficIntent.Yaml.Manifest
import TrafficIntent.Yaml.Scalar

namespace TrafficIntent

theorem toNat_of_isAlpha {c : Char} (h : c.isAlpha = true) :
    65 ≤ c.toNat ∧ c.toNat ≤ 90 ∨ 97 ≤ c.toNat ∧ c.toNat ≤ 122 := by
  have cases : (decide ('A'.val ≤ c.val ∧ c.val ≤ 'Z'.val) ||
      (decide ('a'.val ≤ c.val) && decide (c.val ≤ 'z'.val))) = true := h
  simp only [Bool.or_eq_true, Bool.and_eq_true, decide_eq_true_eq, UInt32.le_iff_toNat_le] at cases
  exact cases

theorem toNat_of_isDigit {c : Char} (h : c.isDigit = true) : 48 ≤ c.toNat ∧ c.toNat ≤ 57 :=
  Char.isDigit_iff_toNat.1 h

theorem isDigit_of_isAlpha {c : Char} (h : c.isAlpha = true) : c.isDigit = false := by
  have letter := toNat_of_isAlpha h
  rw [← Bool.not_eq_true]
  intro digit
  have bounds := toNat_of_isDigit digit
  omega

/-- A character of some kind is none of another kind. -/
theorem ne_of_kind (p : Char → Bool) {c d : Char} (h : p c = true) (hd : p d = false) : c ≠ d := by
  rintro rfl
  rw [h] at hd
  contradiction

theorem isAlphanum_of_isAlpha {c : Char} (h : c.isAlpha = true) : c.isAlphanum = true := by
  simp [Char.isAlphanum, h]

theorem isAlphanum_of_isDigit {c : Char} (h : c.isDigit = true) : c.isAlphanum = true := by
  simp [Char.isAlphanum, h]

namespace Binary64

private theorem signed_of_isAlphanum {c : Char} {cs : List Char} (h : c.isAlphanum = true) :
    signed (c :: cs) = (false, c :: cs) := by
  have minus : c ≠ '-' := ne_of_kind Char.isAlphanum h rfl
  have plus : c ≠ '+' := ne_of_kind Char.isAlphanum h rfl
  unfold signed
  split <;> simp_all

/-- The only numbers that start with a letter are those named by words. -/
theorem named_of_ofText? {s : String} {c : Char} {cs : List Char} (chars : s.toList = c :: cs)
    (letter : c.isAlpha = true) {x : Binary64} (h : ofText? s = some x) :
    x.isFinite = false ∧
      String.ofList (s.toList.map Char.toLower) ∈ ["inf", "infinity", "nan"] := by
  have digit := isDigit_of_isAlpha letter
  have point : c ≠ '.' := ne_of_kind Char.isAlpha letter rfl
  have none : decimal? false (c :: cs) = none := by
    unfold decimal?
    simp [List.span_eq_takeWhile_dropWhile, digit, point]
  unfold ofText? at h
  rw [chars, signed_of_isAlphanum (isAlphanum_of_isAlpha letter), ← chars] at h
  simp only at h
  split at h
  next word =>
    obtain rfl := Option.some.inj h
    refine ⟨rfl, ?_⟩
    simp only [Bool.or_eq_true, decide_eq_true_eq] at word
    rcases word with word | word <;> simp [word]
  next =>
    split at h
    next word =>
      obtain rfl := Option.some.inj h
      exact ⟨rfl, by simp [word]⟩
    next =>
      rw [chars, none] at h
      contradiction

/-- A dash after digits belongs to no number. -/
theorem ofText?_of_dash {s : String} {d : Char} {ds r : List Char}
    (chars : s.toList = (d :: ds) ++ '-' :: r) (digits : ∀ e ∈ d :: ds, e.isDigit = true) :
    ofText? s = none := by
  have digit := digits d List.mem_cons_self
  have split : s.toList.span Char.isDigit = (d :: ds, '-' :: r) := by
    rw [chars, List.span_eq_takeWhile_dropWhile, List.takeWhile_append_of_pos digits,
      List.dropWhile_append_of_pos digits]
    simp
  have none : decimal? false s.toList = none := by
    unfold decimal?
    rw [split]
    simp [exponent?]
  have word (k : String) (hk : '-' ∉ k.toList) :
      String.ofList (s.toList.map Char.toLower) ≠ k := by
    intro same
    rw [← same, String.toList_ofList, chars] at hk
    exact hk (List.mem_map.2 ⟨'-', by simp, rfl⟩)
  have signs : signed s.toList = (false, s.toList) := by
    rw [chars]
    exact signed_of_isAlphanum (isAlphanum_of_isDigit digit)
  unfold ofText?
  rw [signs]
  simp [word "inf" (by decide), word "infinity" (by decide), word "nan" (by decide), none]

end Binary64

namespace Yaml

variable {s : String} {c : Char} {cs : List Char}

/-- Something that is no digit belongs to no whole number, unless it is a sign before it. -/
theorem int64?_eq_none {base : Nat} (hc : c ∈ cs) (other : digitOf? base c = none)
    (minus : cs.head? ≠ some '-') (plus : cs.head? ≠ some '+') : int64? base cs = none := by
  have stops (ds : List Char) (hds : c ∈ ds) (m : Nat) :
      ds.foldlM (fun n d => (digitOf? base d).map (base * n + ·)) m = none := by
    induction ds generalizing m with
    | nil => contradiction
    | cons d ds ih =>
      rw [List.foldlM_cons]
      cases List.mem_cons.1 hds with
      | inl same =>
        rw [← same, other]
        rfl
      | inr later =>
        cases digitOf? base d with
        | none => rfl
        | some n => exact ih later _
  unfold int64?
  split
  next negative ds sign =>
    split at sign
    next => simp at minus
    next => simp at plus
    next =>
      obtain ⟨rfl, rfl⟩ := Prod.mk.inj sign
      have some' : cs.isEmpty = false := by
        cases cs with
        | nil => contradiction
        | cons d ds => rfl
      rw [some', stops cs hc]
      rfl

private theorem natural?_of_digits (digits : ∀ c ∈ cs, c.isDigit = true) (hne : cs ≠ []) :
    natural? 10 cs = some (digitsValue cs) := by
  have some' : cs.isEmpty = false := by
    cases cs with
    | nil => exact absurd rfl hne
    | cons c cs => rfl
  unfold natural? digitsValue
  rw [some', if_neg (by simp)]
  clear hne some'
  generalize 0 = m
  induction cs generalizing m with
  | nil => rfl
  | cons c cs ih =>
    have digit := digits c List.mem_cons_self
    have below : c.toNat - '0'.toNat < 10 := by
      have upper := (toNat_of_isDigit digit).2
      have zero : '0'.toNat = 48 := rfl
      omega
    have step : ((hexValue? c).bind fun d => if d < 10 then some (10 * m + d) else none) =
        some (10 * m + (c.toNat - '0'.toNat)) := by
      rw [hexValue?, if_pos digit, Option.bind_some, if_pos below]
    rw [List.foldlM_cons, step]
    exact ih (fun d hd => digits d (List.mem_cons_of_mem _ hd)) _

theorem unsigned?_of_digits (hne : s.toList ≠ []) (digits : ∀ c ∈ s.toList, c.isDigit = true)
    (filled : isZeroFilled s = false) : unsigned? s = some (digitsValue s.toList) := by
  obtain ⟨c, cs, chars⟩ := List.exists_cons_of_ne_nil hne
  have plus : c ≠ '+' := ne_of_kind Char.isDigit (digits c (by simp [chars])) rfl
  have based : based? s.toList = some (digitsValue s.toList) := by
    have letter (k : Char) (hk : k.isDigit = false) : k ∉ s.toList := by
      intro there
      rw [digits k there] at hk
      contradiction
    rw [← natural?_of_digits digits hne]
    unfold based?
    split
    next h => exact absurd (by simp [h]) (letter 'x' rfl)
    next h => exact absurd (by simp [h]) (letter 'o' rfl)
    next h => exact absurd (by simp [h]) (letter 'b' rfl)
    next => rfl
  unfold unsigned?
  rw [filled, if_neg (by simp)]
  split
  next h => rw [chars] at h; exact absurd (List.cons.inj h).1 plus
  next => exact based

/-- Digits are a whole number to the writer, unless a zero is filled in before them. -/
theorem plainFound_of_digits (hne : s.toList ≠ []) (digits : ∀ c ∈ s.toList, c.isDigit = true)
    (small : digitsValue s.toList < 65536) (filled : isZeroFilled s = false) :
    plainFound s = .integer (digitsValue s.toList) := by
  have unsigned := unsigned?_of_digits hne digits filled
  have whole : whole? s = some (.integer (digitsValue s.toList)) := by
    have bound : 65536 ≤ twoTo 64 := by decide
    unfold whole?
    rw [unsigned]
    exact if_pos (by omega)
  have word (k : String) (hk : k.toList.all Char.isDigit = false) : s ≠ k := by
    rintro rfl
    rw [List.all_eq_true.2 digits] at hk
    contradiction
  have nonempty : s.isEmpty = false := by
    rw [← Bool.not_eq_true, String.isEmpty_iff]
    rintro rfl
    exact hne rfl
  have null : isNull s = false := by
    simp [isNull, word "~" rfl, word "null" rfl, word "Null" rfl, word "NULL" rfl]
  have bool : bool? s = none := by
    simp [bool?, word "true" rfl, word "True" rfl, word "TRUE" rfl, word "false" rfl,
      word "False" rfl, word "FALSE" rfl]
  unfold plainFound
  rw [nonempty, null, bool, whole]
  rfl

/-- A text is one to the reader if it is none of the words, and no number. -/
private theorem ofPlain_eq (words : s ∉ ["", "~", "null", "true", "false"])
    (base : ∀ ds, s.toList ≠ '0' :: 'x' :: ds ∧ s.toList ≠ '0' :: 'o' :: ds)
    (plus : s.toList.head? ≠ some '+') (number : int64? 10 s.toList = none) :
    Value.ofPlain s = if isReal s then .real s else .string s := by
  simp only [List.mem_cons, not_or, List.not_mem_nil, not_false_eq_true, and_true] at words
  obtain ⟨empty, tilde, null, yes, no⟩ := words
  have none : ["", "~", "null"].contains s = false := by simp [empty, tilde, null]
  unfold Value.ofPlain
  simp only
  split
  next n h =>
    exfalso
    split at h
    next ds chars => exact (base ds).1 chars
    next ds chars => exact (base ds).2 chars
    next ds chars => simp [chars] at plus
    next => contradiction
  next => rw [none, if_neg (by simp), if_neg yes, if_neg no, number]

/-- A word that is a text to the writer is one to the reader, or names infinity or no number. -/
theorem ofPlain_of_isAlpha (chars : s.toList = c :: cs) (letter : c.isAlpha = true)
    (found : plainFound s = .string s) :
    Value.ofPlain s = if isReal s then .real s else .string s := by
  have differs {d : Char} : d.isAlpha = false → c ≠ d := ne_of_kind Char.isAlpha letter
  have word (k : String) (hk : plainFound k ≠ .string k) : s ≠ k := by
    rintro rfl
    exact hk found
  have digit : digitOf? 10 c = none := by
    have nine := isDigit_of_isAlpha letter
    unfold digitOf? hexValue?
    rw [nine, if_neg (by simp)]
    split
    · simp
    · split
      · simp
      · rfl
  apply ofPlain_eq
  · simp [word "" (by decide), word "~" (by decide), word "null" (by decide),
      word "true" (by decide), word "false" (by decide)]
  · intro ds
    rw [chars]
    exact ⟨fun same => differs rfl (List.cons.inj same).1,
      fun same => differs rfl (List.cons.inj same).1⟩
  · simpa [chars] using differs (d := '+') rfl
  · apply int64?_eq_none (c := c) (by simp [chars]) digit
    · simpa [chars] using differs (d := '-') rfl
    · simpa [chars] using differs (d := '+') rfl

/-- A text is none of the names that start in another way. -/
private theorem contains_eq {p : Char → Bool} {names : List String} (kept : List String)
    (chars : s.toList = c :: cs) (start : p c = true)
    (hk : (names.filter fun k => k.toList.head?.any p) = kept) :
    names.contains s = kept.contains s := by
  have alike : s ∈ names ↔ s ∈ kept := by
    simp [← hk, chars, start]
  simp [List.contains_eq_mem, alike]

/-- Infinity and no number have no place in a tree, so that words are read as texts in any case. -/
theorem tree_of_isAlpha (chars : s.toList = c :: cs) (letter : c.isAlpha = true)
    (found : plainFound s = .string s) : (Value.ofPlain s).tree = .ok (.string s) := by
  have special : isSpecialReal s = false := by
    have minus : c ≠ '-' := ne_of_kind Char.isAlpha letter rfl
    have plus : c ≠ '+' := ne_of_kind Char.isAlpha letter rfl
    unfold isSpecialReal
    rw [chars]
    simp only
    split
    next h => exact absurd (List.cons.inj h).1 minus
    next h => exact absurd (List.cons.inj h).1 plus
    next =>
      rw [← chars, String.ofList_toList]
      exact contains_eq [] chars letter (by decide)
  have real : realTree s = .string s := by
    unfold realTree
    rw [special, if_neg (by simp)]
    cases number : Binary64.ofText? s with
    | none => rfl
    | some x => simp [(Binary64.named_of_ofText? chars letter number).1]
  rw [ofPlain_of_isAlpha chars letter found]
  split
  · rw [Value.tree, real]
  · rw [Value.tree]

/-- A word that names neither infinity nor no number is no number. -/
theorem isReal_of_isAlpha (chars : s.toList = c :: cs) (letter : c.isAlpha = true)
    (other : String.ofList (s.toList.map Char.toLower) ∉ ["inf", "infinity", "nan"]) :
    isReal s = false := by
  have none : Binary64.ofText? s = none := by
    cases number : Binary64.ofText? s with
    | none => rfl
    | some x => exact absurd (Binary64.named_of_ofText? chars letter number).2 other
  have name : s ≠ "NaN" := by
    rintro rfl
    exact other (by decide)
  unfold isReal
  rw [none, contains_eq ["NaN"] chars letter (by decide)]
  simpa using name

/-- Digits before a dash are read as a text. -/
theorem ofPlain_of_dash {d e : Char} {ds r : List Char}
    (chars : s.toList = (d :: e :: ds) ++ '-' :: r)
    (digits : ∀ x ∈ d :: e :: ds, x.isDigit = true) : Value.ofPlain s = .string s := by
  have first := digits d List.mem_cons_self
  have second := digits e (by simp)
  have differs {x k : Char} : x.isDigit = true → k.isDigit = false → x ≠ k :=
    ne_of_kind Char.isDigit
  have word (k : String) (hk : '-' ∉ k.toList) : s ≠ k := by
    rintro rfl
    exact hk (by simp [chars])
  have real : isReal s = false := by
    unfold isReal
    rw [Binary64.ofText?_of_dash chars digits, contains_eq [] chars first (by decide)]
    rfl
  rw [ofPlain_eq, real, if_neg (by simp)]
  · simp [word "" (by decide), word "~" (by decide), word "null" (by decide),
      word "true" (by decide), word "false" (by decide)]
  · intro ds
    rw [chars]
    exact ⟨fun same => differs second rfl (List.cons.inj (List.cons.inj same).2).1,
      fun same => differs second rfl (List.cons.inj (List.cons.inj same).2).1⟩
  · simpa [chars] using differs (k := '+') first rfl
  · apply int64?_eq_none (c := '-') (by simp [chars]) rfl
    · simpa [chars] using differs (k := '-') first rfl
    · simpa [chars] using differs (k := '+') first rfl

end Yaml

end TrafficIntent
