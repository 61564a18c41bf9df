import Mathlib.Tactic.IntervalCases
import TrafficIntent.Json.Parse
import TrafficIntent.Json.Writer

/-!
What the readers of JSON text find at the start of a text, and what they leave of it. Where the text
stands makes no difference to this: positions are there for faults only.
-/

namespace TrafficIntent.Json.Scan

variable {α β : Type} {cs ds es : List Char}

/-- At the start of a text, wherever it stands, a reader finds a value and leaves the rest. -/
def Takes (s : Scan α) (cs : List Char) (a : α) (rest : List Char) : Prop :=
  ∀ p, ∃ q, StateT.run s ⟨cs, p⟩ = .ok (a, ⟨rest, q⟩)

theorem takes_pure (a : α) : Takes (pure a) cs a cs := fun p => ⟨p, rfl⟩

theorem Takes.bind {s : Scan α} {f : α → Scan β} {a : α} {b : β} (first : Takes s cs a ds)
    (second : Takes (f a) ds b es) : Takes (s >>= f) cs b es := by
  intro p
  obtain ⟨q, hq⟩ := first p
  obtain ⟨r, hr⟩ := second q
  refine ⟨r, ?_⟩
  rw [StateT.run_bind, hq]
  exact hr

theorem takes_ahead : Takes ahead cs cs.head? cs := fun p => ⟨p, rfl⟩

theorem takes_budget : Takes budget cs (cs.length + 1) cs := fun p => ⟨p, rfl⟩

theorem takes_pass (n : Nat) : Takes (pass n) cs () (cs.drop n) := fun _ => ⟨_, rfl⟩

theorem takes_passWhile (f : Char → Bool) :
    Takes (passWhile f) cs (cs.takeWhile f) (cs.dropWhile f) := by
  intro p
  have rest : cs.drop (cs.takeWhile f).length = cs.dropWhile f := by
    calc
      cs.drop (cs.takeWhile f).length
          = (cs.takeWhile f ++ cs.dropWhile f).drop (cs.takeWhile f).length := by
            rw [List.takeWhile_append_dropWhile]
      _ = cs.dropWhile f := List.drop_left
  exact ⟨_, by rw [← rest]; rfl⟩

theorem takes_passSpace {w : List Char} (blank : ∀ c ∈ w, isSpace c = true)
    (ends : ∀ c ∈ cs.head?, isSpace c = false) : Takes passSpace (w ++ cs) cs.head? cs := by
  have rest : (w ++ cs).dropWhile isSpace = cs := by
    rw [List.dropWhile_append_of_pos blank]
    cases cs with
    | nil => rfl
    | cons c cs => simp [ends c rfl]
  have passed : Takes (passWhile isSpace) (w ++ cs) _ _ := takes_passWhile isSpace
  rw [rest] at passed
  exact passed.bind takes_ahead

theorem takes_word (w : List Char) : Takes (word w) (w ++ cs) () cs := by
  induction w with
  | nil => exact takes_pure ()
  | cons c w ih =>
    refine takes_ahead.bind ?_
    show Takes (if c = c then do pass 1; word w else _) _ _ _
    rw [if_pos rfl]
    exact (takes_pass 1).bind ih

private theorem hexQuad?_control : ∀ n < 32,
    hexQuad? '0' '0' (Nat.digitChar (n / 16)) (Nat.digitChar (n % 16)) = some n := by
  decide

/-- A character is read as what its escape was written for. -/
theorem stringBody_escaped (c : Char) (r : List Char) (p : Position) :
    ∃ q, stringBody (escaped c ++ r) p = do
      let (cs, k) ← stringBody r q
      return (c :: cs, k) := by
  unfold escaped
  split
  next => exact ⟨_, rfl⟩
  next => exact ⟨_, rfl⟩
  next => exact ⟨_, rfl⟩
  next => exact ⟨_, rfl⟩
  next => exact ⟨_, rfl⟩
  next => exact ⟨_, rfl⟩
  next => exact ⟨_, rfl⟩
  next quote backslash _ _ _ _ _ =>
    split
    next control =>
      have small : c.toNat < 32 := control
      refine ⟨⟨p.line, p.column + 6⟩, ?_⟩
      change stringBody ('\\' :: 'u' :: '0' :: '0' :: Nat.digitChar (c.toNat / 16) ::
        Nat.digitChar (c.toNat % 16) :: r) p = _
      rw [stringBody, hexQuad?_control c.toNat small]
      simp only
      rw [if_pos (by omega), Char.ofNat_toNat]
      rfl
    next shown =>
      refine ⟨p.past c, ?_⟩
      rw [List.cons_append, List.nil_append, stringBody, if_neg shown]
      · exact quote
      all_goals
        intros
        exact backslash ‹_›

theorem takes_stringRest (s : String) :
    Takes stringRest (s.toList.flatMap escaped ++ '\x22' :: cs) s cs := by
  have body (ds : List Char) (p : Position) :
      ∃ q, stringBody (ds.flatMap escaped ++ '\x22' :: cs) p = .ok (ds, ⟨cs, q⟩) := by
    induction ds generalizing p with
    | nil => exact ⟨_, rfl⟩
    | cons d ds ih =>
      obtain ⟨next, step⟩ := stringBody_escaped d (ds.flatMap escaped ++ '\x22' :: cs) p
      obtain ⟨q, rest⟩ := ih next
      refine ⟨q, ?_⟩
      rw [List.flatMap_cons, List.append_assoc, step, rest]
      rfl
  intro p
  obtain ⟨q, hq⟩ := body s.toList p
  refine ⟨q, ?_⟩
  simp only [stringRest, StateT.run_bind, StateT.run_get, pure_bind]
  show ((stringBody (s.toList.flatMap escaped ++ '\x22' :: cs) p >>= fun r =>
    pure (r, (_ : Cursor))) >>= fun r => _) = _
  rw [hq]
  exact congrArg (fun t => Except.ok (t, (⟨cs, q⟩ : Cursor))) String.ofList_toList

theorem le_ofDigitChars (ds : List Char) (n : Nat) : n ≤ Nat.ofDigitChars 10 ds n := by
  induction ds generalizing n with
  | nil => exact Nat.le_refl n
  | cons d ds ih =>
    rw [Nat.ofDigitChars_cons]
    have := ih (10 * n + (d.toNat - '0'.toNat))
    omega

/-- Digits of a number below the limit are all taken. -/
theorem takeDigits_eq (limit n : Nat) (ds : List Char) (h : Nat.ofDigitChars 10 ds n < limit) :
    takeDigits limit n ds = (Nat.ofDigitChars 10 ds n, ds.length, 0) := by
  induction ds generalizing n with
  | nil => rfl
  | cons d ds ih =>
    rw [Nat.ofDigitChars_cons] at h ⊢
    have small := (le_ofDigitChars ds _).trans_lt h
    rw [takeDigits, if_neg (by omega), ih _ h]
    rfl

theorem isDigit_of_mem_toDigits {n : Nat} {c : Char} (h : c ∈ Nat.toDigits 10 n) :
    c.isDigit = true :=
  Nat.isDigit_of_mem_toDigits (by decide) (by decide) h

theorem exists_digits (n : Nat) : ∃ c ds, Nat.toDigits 10 n = c :: ds ∧ c.isDigit = true := by
  obtain ⟨c, ds, digits⟩ := List.exists_cons_of_ne_nil (Nat.toDigits_ne_nil (n := n) (b := 10))
  refine ⟨c, ds, digits, isDigit_of_mem_toDigits (n := n) ?_⟩
  rw [digits]
  exact List.mem_cons_self

theorem numberText_ofNat (n : Nat) : numberText (.integer n) = Nat.toDigits 10 n :=
  Nat.toList_repr

/-- Only zero is written with a zero in front. -/
theorem exists_toDigits {n : Nat} (hn : 0 < n) :
    ∃ c ds, Nat.toDigits 10 n = c :: ds ∧ isNonzeroDigit c = true := by
  induction n using Nat.strongRecOn with
  | ind n ih =>
    by_cases small : n < 10
    · rw [Nat.toDigits_of_lt_base small]
      refine ⟨n.digitChar, [], rfl, ?_⟩
      interval_cases n <;> rfl
    · obtain ⟨c, ds, digits, nonzero⟩ := ih (n / 10) (by omega) (by omega)
      rw [Nat.toDigits_of_base_le (by decide) (by omega), digits]
      exact ⟨c, _, rfl, nonzero⟩

/-- What may follow a whole number without becoming a part of it. -/
def Ends (cs : List Char) : Prop :=
  ∀ c ∈ cs.head?, c.isDigit = false ∧ c ≠ '.' ∧ c ≠ 'e' ∧ c ≠ 'E'

theorem takes_fractionOrExponent {negative : Bool} {digits : Nat} {e : Int} {whole : Scan Number}
    {n : Number} (ends : Ends cs) (h : Takes whole cs n cs) :
    Takes (fractionOrExponent negative digits e whole) cs n cs := by
  refine takes_ahead.bind ?_
  split
  next point => exact absurd rfl (ends _ point).2.1
  next mark => exact absurd rfl (ends _ mark).2.2.1
  next mark => exact absurd rfl (ends _ mark).2.2.2
  next => exact h

theorem takes_digits (n : Nat) (ends : Ends cs) :
    Takes (passWhile Char.isDigit) (Nat.toDigits 10 n ++ cs) (Nat.toDigits 10 n) cs := by
  have digits : ∀ c ∈ Nat.toDigits 10 n, c.isDigit = true := fun _ => isDigit_of_mem_toDigits
  have taken : Takes (passWhile Char.isDigit) (Nat.toDigits 10 n ++ cs) _ _ :=
    takes_passWhile Char.isDigit
  rw [List.takeWhile_append_of_pos digits, List.dropWhile_append_of_pos digits] at taken
  cases cs with
  | nil => simpa using taken
  | cons c cs => simpa [(ends c rfl).1] using taken

/-- A whole number that is not zero is read by its digits, after the sign. -/
theorem takes_number_pos (negative : Bool) {n : Nat} (pos : 0 < n)
    (small : if negative then n ≤ twoTo 63 else n < twoTo 64) (ends : Ends cs) :
    Takes (number negative) (Nat.toDigits 10 n ++ cs)
      (.integer (if negative then -n else n)) cs := by
  obtain ⟨c, ds, digits, nonzero⟩ := exists_toDigits pos
  have start : (Nat.toDigits 10 n ++ cs).head? = some c := by rw [digits]; rfl
  have below : n < twoTo 64 := by
    cases negative
    · exact small
    · exact Nat.lt_of_le_of_lt small (by decide)
  have value := takeDigits_eq (twoTo 64) 0 (Nat.toDigits 10 n)
    (by rwa [Nat.ofDigitChars_ten_toDigits])
  refine takes_ahead.bind ?_
  rw [start]
  split
  next none => contradiction
  next zero => simp_all [isNonzeroDigit]
  next d _ same =>
    obtain rfl := Option.some.inj same
    rw [if_pos nonzero]
    refine (takes_digits n ends).bind ?_
    rw [value, Nat.ofDigitChars_ten_toDigits]
    refine takes_fractionOrExponent ends ?_
    cases negative with
    | false => exact takes_pure _
    | true =>
      have fits : n ≤ twoTo 63 := small
      show Takes (if (decide (0 = 0) && decide (n ≤ twoTo 63)) = true then _ else _) _ _ _
      rw [if_pos (by simpa using fits)]
      exact takes_pure _

theorem takes_number_zero (ends : Ends cs) :
    Takes (number false) (Nat.toDigits 10 0 ++ cs) (.integer 0) cs := by
  refine takes_ahead.bind ?_
  refine (takes_pass 1).bind (takes_ahead.bind ?_)
  show Takes (if (cs.head?.map Char.isDigit).getD false then _ else _) _ _ _
  have ended : (cs.head?.map Char.isDigit).getD false = false := by
    cases cs with
    | nil => rfl
    | cons c cs => exact (ends c rfl).1
  rw [ended]
  exact (takes_pure _).bind (takes_fractionOrExponent ends (takes_pure _))

/-- A whole number without a sign is read by its digits. -/
theorem takes_number_digits {n : Nat} (small : n < twoTo 64) (ends : Ends cs) :
    Takes (number false) (Nat.toDigits 10 n ++ cs) (.integer n) cs := by
  cases Nat.eq_zero_or_pos n with
  | inl zero => rw [zero]; exact takes_number_zero ends
  | inr pos => exact takes_number_pos false pos small ends

end TrafficIntent.Json.Scan
