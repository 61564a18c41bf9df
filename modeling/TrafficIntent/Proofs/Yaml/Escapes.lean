import TrafficIntent.Proofs.Yaml.QuotedScalar
import TrafficIntent.Yaml.Quoting

namespace TrafficIntent.Yaml

namespace Scan

variable {s t : State}

/-- Between single quotes, a quote is written twice. -/
def doubled (c : Char) : List Char := if c == '\x27' then [c, c] else [c]

theorem standsFor_doubled {c : Char} (hc : isBlankOrEnd .v12 c = false) :
    StandsFor true (doubled c) c := by
  by_cases apostrophe : c = '\x27'
  · subst apostrophe
    refine ⟨rfl, ?_⟩
    intro s rest fuel f h
    have head : s.rest = '\x27' :: ('\x27' :: rest) := h
    have both : s.rest = ['\x27', '\x27'] ++ rest := h
    conv => lhs; unfold quotedWord
    rw [run_bind (run_ahead s 0), State.ahead_of_rest head]
    show (ahead 1 >>= _).run s = _
    rw [run_bind (run_ahead s 1), State.ahead_one_of_rest head]
    have passed : (skipMany 2).run s = some ((), s.after ['\x27', '\x27'] rest) := run_skipMany both
    show (skipMany 2 >>= _).run s = _
    rw [run_bind passed]
    rfl
  · have same : doubled c = [c] := by simp [doubled, apostrophe]
    rw [same]
    refine ⟨hc, ?_⟩
    intro s rest fuel f h
    have head : s.rest = c :: rest := h
    conv => lhs; unfold quotedWord
    rw [run_bind (run_ahead s 0), State.ahead_of_rest head, hc, beq_false_of_ne apostrophe]
    show (skip >>= _).run s = _
    rw [run_bind (run_skip head)]

/-- Between double quotes, what is no quote and no backslash is read as it is. -/
theorem isPiece_self {e : Edition} {c : Char} (hc : isBlankOrEnd e c = false) (hq : c ≠ '\x22')
    (hb : c ≠ '\\') : IsPiece e false (c, [c]) := by
  refine ⟨hc, ?_⟩
  intro s rest fuel f h
  have head : s.rest = c :: rest := h
  conv => lhs; unfold quotedWord
  rw [run_bind (run_ahead s 0), State.ahead_of_rest head, hc, beq_false_of_ne hq,
    beq_false_of_ne hb]
  show (skip >>= _).run s = _
  rw [run_bind (run_skip head)]

/-- Whether characters are an escape for one: a letter, or as many digits as it asks for. -/
def isEscapeOf (c : Char) : List Char → Bool
  | '\\' :: l :: ds =>
    !isBreak .v12 l && match escape? l, escapeDigits? l with
      | some d, _ => d == c && ds.isEmpty
      | none, some n => ds.length == n && (hexNumber? ds).bind char? == some c
      | none, none => false
  | _ => false

private theorem exists_escape {c : Char} {w : List Char} (h : isEscapeOf c w = true) :
    ∃ l ds, w = '\\' :: l :: ds ∧ isBreak .v12 l = false ∧
      (escape? l = some c ∧ ds = [] ∨
        escape? l = none ∧ ∃ n, escapeDigits? l = some n ∧ ds.length = n ∧
          (hexNumber? ds).bind char? = some c) := by
  unfold isEscapeOf at h
  split at h
  next l ds =>
    simp only [Bool.and_eq_true, Bool.not_eq_true'] at h
    refine ⟨l, ds, rfl, h.1, ?_⟩
    have kind := h.2
    split at kind
    next d _ letter =>
      simp only [Bool.and_eq_true, beq_iff_eq, List.isEmpty_iff] at kind
      exact .inl ⟨by rw [letter, kind.1], kind.2⟩
    next n letter digits =>
      simp only [Bool.and_eq_true, beq_iff_eq] at kind
      exact .inr ⟨letter, n, digits, kind.1, kind.2⟩
    next => contradiction
  next => contradiction

theorem run_escaped {c : Char} {w rest : List Char} (hw : isEscapeOf c w = true)
    (h : s.rest = w ++ rest) : escaped.run s = some (c, s.after w rest) := by
  obtain ⟨l, ds, rfl, -, kind⟩ := exists_escape hw
  have head : s.rest = '\\' :: (l :: (ds ++ rest)) := h
  have second : s.ahead 1 = l := State.ahead_one_of_rest head
  have mark : (skipMany 2).run s = some ((), s.after ['\\', l] (ds ++ rest)) :=
    run_skipMany (w := ['\\', l]) h
  cases kind with
  | inl letter =>
    obtain ⟨letter, none⟩ := letter
    subst none
    unfold escaped
    rw [run_bind (run_ahead s 1), second, letter]
    show (skipMany 2 >>= _).run s = _
    rw [run_bind mark]
    rfl
  | inr digits =>
    obtain ⟨letter, n, digits, length, number⟩ := digits
    let s1 := s.after ['\\', l] (ds ++ rest)
    have taken : (s.after ['\\', l] (ds ++ rest)).rest.take n = ds := by
      show (ds ++ rest).take n = ds
      rw [← length, List.take_left]
    have long : ¬ds.length < n := by omega
    have passed : (skipMany n).run s1 = some ((), s1.after ds rest) := by
      rw [← length]
      exact run_skipMany (s := s1) rfl
    unfold escaped
    rw [run_bind (run_ahead s 1), second, letter, digits]
    show (skipMany 2 >>= _).run s = _
    rw [run_bind mark]
    rw [run_get_bind]
    simp only [taken, number, long, if_false]
    show (skipMany n >>= _).run s1 = _
    rw [run_bind passed, State.after_after]
    rfl

theorem isPiece_escape {e : Edition} {c l : Char} {ds : List Char}
    (hw : isEscapeOf c ('\\' :: l :: ds) = true) (notBreak : isBreak e l = false) :
    IsPiece e false (c, '\\' :: l :: ds) := by
  refine ⟨by cases e <;> rfl, ?_⟩
  intro s rest fuel f h
  have head : s.rest = '\\' :: (l :: (ds ++ rest)) := h
  have mark : isBlankOrEnd e '\\' = false := by
    cases e <;> rfl
  conv => lhs; unfold quotedWord
  rw [run_bind (run_ahead s 0), State.ahead_of_rest head, mark]
  show (ahead 1 >>= _).run s = _
  rw [run_bind (run_ahead s 1), State.ahead_one_of_rest head]
  simp only [List.headD_cons, notBreak, Bool.false_eq_true, if_false]
  rw [run_bind (run_escaped hw h)]

private theorem escapedChar_low : ∀ n < 0xA0, n ≠ 0x20 →
    isEscapeOf (Char.ofNat n) (escapedChar (Char.ofNat n)) = true ∨
      escapedChar (Char.ofNat n) = [Char.ofNat n] ∧
        isBlankOrEnd .v12 (Char.ofNat n) = false ∧ n ≠ 0x22 ∧ n ≠ 0x5C := by
  decide +kernel

private theorem escapedChar_high {c : Char} (h : 0xA0 ≤ c.toNat) :
    isEscapeOf c (escapedChar c) = true ∨
      escapedChar c = [c] ∧ isBlankOrEnd .v12 c = false ∧ c ≠ '\x22' ∧ c ≠ '\\' := by
  have away (d : Char) (hd : d.toNat < 0xA0) : c ≠ d := by
    intro same
    rw [same] at h
    omega
  by_cases line : c = '\u2028'
  · subst line
    exact .inl (by decide +kernel)
  · by_cases paragraph : c = '\u2029'
    · subst paragraph
      exact .inl (by decide +kernel)
    · by_cases writable : isWritable c = true
      · right
        refine ⟨?_, ?_, away _ (by decide), away _ (by decide)⟩
        · unfold escapedChar
          split <;> first
            | exact absurd rfl line
            | exact absurd rfl paragraph
            | exact absurd rfl (away _ (by decide))
            | exact if_pos writable
        · have other (d : Char) (hd : d.toNat < 0xA0) : (c == d) = false := beq_false_of_ne (away d hd)
          unfold isBlankOrEnd isBlank isBreakOrEnd isBreak endChar
          rw [other ' ' (by decide), other '\t' (by decide), other '\n' (by decide),
            other '\r' (by decide), other '\x00' (by decide)]
          rfl
      · left
        simp only [isWritable, Bool.or_eq_true, Bool.and_eq_true, decide_eq_true_eq, beq_iff_eq,
          bne_iff_ne, ne_eq] at writable
        have odd : c.toNat = 0xFEFF ∨ c.toNat = 0xFFFE ∨ c.toNat = 0xFFFF := by omega
        rw [← Char.ofNat_toNat c]
        rcases odd with odd | odd | odd <;> rw [odd] <;> decide +kernel

/-- What is written for a character between double quotes stands for it. -/
theorem standsFor_escapedChar {c : Char} (hc : c ≠ ' ') : StandsFor false (escapedChar c) c := by
  have cases' : isEscapeOf c (escapedChar c) = true ∨
      escapedChar c = [c] ∧ isBlankOrEnd .v12 c = false ∧ c ≠ '\x22' ∧ c ≠ '\\' := by
    by_cases low : c.toNat < 0xA0
    · have other : c.toNat ≠ 0x20 := by
        intro same
        apply hc
        rw [← Char.ofNat_toNat c, same]
      have known := escapedChar_low c.toNat low other
      rw [Char.ofNat_toNat] at known
      refine known.imp_right fun self => ⟨self.1, self.2.1, ?_, ?_⟩
      · intro same
        exact self.2.2.1 (by rw [same]; rfl)
      · intro same
        exact self.2.2.2 (by rw [same]; rfl)
    · exact escapedChar_high (by omega)
  cases cases' with
  | inl escape =>
    obtain ⟨l, ds, same, notBreak, -⟩ := exists_escape escape
    rw [same] at escape ⊢
    exact standsFor_iff.2 (isPiece_escape escape notBreak)
  | inr self =>
    rw [self.1]
    exact standsFor_iff.2 (isPiece_self self.2.1 self.2.2.1 self.2.2.2)

end Scan

end TrafficIntent.Yaml
