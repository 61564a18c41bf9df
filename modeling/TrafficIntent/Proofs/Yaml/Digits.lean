import TrafficIntent.Proofs.Json.Steps
import TrafficIntent.Proofs.Yaml.PlainScalar
import TrafficIntent.Proofs.Yaml.Resolution

namespace TrafficIntent.Yaml

open Json.Scan (exists_digits isDigit_of_mem_toDigits)

variable {cs : List Char} {n : Nat}

private theorem not_isBlankOrEnd_of_isDigit {c : Char} (h : c.isDigit = true) :
    isBlankOrEnd .v12 c = false ∧ isIndicator c = false ∧ c ≠ ' ' ∧ c ≠ ':' ∧ c ≠ '-' ∧ c ≠ '?' ∧
      c ≠ '.' := by
  have differs (d : Char) (hd : d.isDigit = false) : c ≠ d := ne_of_kind Char.isDigit h hd
  simp [isBlankOrEnd, isBlank, isBreakOrEnd, isBreak, endChar, isIndicator, differs, Char.isDigit]

theorem isPlain_of_digits (hne : cs ≠ []) (h : ∀ c ∈ cs, c.isDigit = true) : IsPlain cs := by
  have flows : Flows cs := by
    clear hne
    induction cs with
    | nil => trivial
    | cons c cs ih =>
      obtain ⟨blank, -, space, colon, -⟩ := not_isBlankOrEnd_of_isDigit (h c List.mem_cons_self)
      refine ⟨?_, ih fun d hd => h d (List.mem_cons_of_mem _ hd)⟩
      rw [if_neg space]
      exact ⟨blank, fun same => absurd same colon⟩
  obtain ⟨c, ds, rfl⟩ := List.exists_cons_of_ne_nil hne
  obtain ⟨-, bare, space, -, dash, query, dot⟩ :=
    not_isBlankOrEnd_of_isDigit (h c List.mem_cons_self)
  have first : (c :: ds).headD ' ' = c := rfl
  refine ⟨space, bare, ?_, ⟨?_, ?_⟩, flows⟩
  · intro mark
    exact absurd mark (by simp [dash, query])
  · simp [List.isPrefixOf, beq_false_of_ne (Ne.symm dash)]
  · simp [List.isPrefixOf, beq_false_of_ne (Ne.symm dot)]

theorem isPlain_toDigits : IsPlain (Nat.toDigits 10 n) :=
  isPlain_of_digits Nat.toDigits_ne_nil fun _ => isDigit_of_mem_toDigits

private theorem digit_value {c : Char} (h : c.isDigit = true) :
    digitOf? 10 c = some (c.toNat - '0'.toNat) := by
  have below : c.toNat - '0'.toNat < 10 := by
    simp only [Char.isDigit, Bool.and_eq_true, decide_eq_true_eq, UInt32.le_iff_toNat_le] at h
    have upper : c.toNat ≤ 57 := h.2
    have zero : '0'.toNat = 48 := rfl
    omega
  rw [digitOf?, hexValue?, if_pos h, Option.bind_some, if_pos below]

private theorem foldlM_digits (h : ∀ c ∈ cs, c.isDigit = true) (m : Nat) :
    cs.foldlM (fun n c => (digitOf? 10 c).map (10 * n + ·)) m =
      some (Nat.ofDigitChars 10 cs m) := by
  induction cs generalizing m with
  | nil => rfl
  | cons c cs ih =>
    rw [List.foldlM_cons, Nat.ofDigitChars_cons, ← ih fun d hd => h d (List.mem_cons_of_mem _ hd),
      digit_value (h c List.mem_cons_self)]
    rfl

private theorem int64?_toDigits (hn : n < 65536) :
    int64? 10 (Nat.toDigits 10 n) = some (n : Int) := by
  obtain ⟨c, ds, cons, first⟩ := exists_digits n
  have fold := foldlM_digits (fun _ hc => isDigit_of_mem_toDigits (n := n) hc) 0
  rw [Nat.ofDigitChars_ten_toDigits] at fold
  unfold int64?
  split
  next negative digits' sign =>
    split at sign
    next ds' h =>
      rw [cons] at h
      exact absurd (List.cons.inj h).1 (ne_of_kind Char.isDigit first rfl)
    next ds' h =>
      rw [cons] at h
      exact absurd (List.cons.inj h).1 (ne_of_kind Char.isDigit first rfl)
    next =>
      obtain ⟨rfl, rfl⟩ := Prod.mk.inj sign
      have some' : (Nat.toDigits 10 n).isEmpty = false := by rw [cons]; rfl
      rw [some']
      simp only [Bool.false_eq_true, if_false, fold]
      show (if -9223372036854775808 ≤ (n : Int) ∧ (n : Int) ≤ 9223372036854775807 then
        some (n : Int) else none) = _
      rw [if_pos (by omega)]

private theorem ofList_toDigits_ne {k : String}
    (hk : k.toList.all Char.isDigit = false ∨ k = "") : String.ofList (Nat.toDigits 10 n) ≠ k := by
  rintro rfl
  rw [String.toList_ofList] at hk
  cases hk with
  | inl letter =>
    rw [List.all_eq_true.2 fun _ hc => isDigit_of_mem_toDigits hc] at letter
    contradiction
  | inr empty =>
    have chars := congrArg String.toList empty
    rw [String.toList_ofList] at chars
    exact Nat.toDigits_ne_nil chars

/-- A number of digits is read as it is written. -/
theorem ofPlain_toDigits (hn : n < 65536) :
    Value.ofPlain (String.ofList (Nat.toDigits 10 n)) = .integer n := by
  have absent (k : Char) (hk : k.isDigit = false) : k ∉ Nat.toDigits 10 n :=
    fun there => ne_of_kind Char.isDigit (isDigit_of_mem_toDigits there) hk rfl
  unfold Value.ofPlain
  rw [String.toList_ofList]
  simp only
  split
  next m h =>
    -- none of the signs that another notation starts with is a digit
    exfalso
    split at h
    next h' => exact absent 'x' rfl (by rw [h']; simp)
    next h' => exact absent 'o' rfl (by rw [h']; simp)
    next h' => exact absent '+' rfl (by rw [h']; simp)
    next => contradiction
  next =>
    have word : ["", "~", "null"].contains (String.ofList (Nat.toDigits 10 n)) = false := by
      simp [ofList_toDigits_ne (k := "") (.inr rfl), ofList_toDigits_ne (k := "~") (.inl rfl),
        ofList_toDigits_ne (k := "null") (.inl rfl)]
    rw [word, if_neg (by simp), if_neg (ofList_toDigits_ne (.inl rfl)),
      if_neg (ofList_toDigits_ne (.inl rfl)), int64?_toDigits hn]

end TrafficIntent.Yaml
