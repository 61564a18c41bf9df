import TrafficIntent.Yaml.Scan

namespace TrafficIntent.Yaml

namespace Mark

/-- Past the characters of a line, one after the other. -/
def passing (m : Mark) (w : List Char) : Mark := w.foldl past m

@[simp] theorem passing_line (m : Mark) (w : List Char) : (m.passing w).line = m.line := by
  unfold passing
  induction w generalizing m with
  | nil => rfl
  | cons c w ih => exact ih (m.past c)

/-- What every character carries further by one, a line carries further by its length. -/
theorem passing_part {part : Mark → Nat} (step : ∀ m c, part (past m c) = part m + 1) (m : Mark)
    (w : List Char) : part (m.passing w) = part m + w.length := by
  unfold passing
  induction w generalizing m with
  | nil => rfl
  | cons c w ih =>
    rw [List.foldl_cons, ih, step, List.length_cons]
    omega

@[simp] theorem passing_column (m : Mark) (w : List Char) :
    (m.passing w).column = m.column + w.length := passing_part (fun _ _ => rfl) m w

@[simp] theorem passing_index (m : Mark) (w : List Char) :
    (m.passing w).index = m.index + w.length := passing_part (fun _ _ => rfl) m w

theorem passing_offset (m : Mark) (w : List Char) :
    (m.passing w).offset = m.offset + (String.ofList w).utf8ByteSize := by
  unfold passing
  induction w generalizing m with
  | nil => rfl
  | cons c w ih =>
    have step : (m.past c).offset = m.offset + c.utf8Size := rfl
    rw [List.foldl_cons, ih, step, String.ofList_cons, String.utf8ByteSize_append,
      String.utf8ByteSize_singleton]
    omega

theorem passing_append (m : Mark) (w v : List Char) :
    m.passing (w ++ v) = (m.passing w).passing v := List.foldl_append

end Mark

/-- What is before a separator, and what is left after it and all others behind it. -/
theorem exists_split {α : Type} (x : α) (cs : List α) :
    ∃ w n v, cs = w ++ (List.replicate n x ++ v) ∧ (∀ c ∈ w, c ≠ x) ∧ (n = 0 → v = []) ∧
      v.head? ≠ some x := by
  induction cs with
  | nil => exact ⟨[], 0, [], rfl, by simp, fun _ => rfl, by simp⟩
  | cons c cs ih =>
    obtain ⟨w, n, v, hcs, hw, hz, hv⟩ := ih
    by_cases same : c = x
    · subst same
      cases w with
      | nil =>
        cases n with
        | zero => exact ⟨[], 1, [], by simp [hcs, hz rfl], by simp, by simp, by simp⟩
        | succ n =>
          refine ⟨[], n + 2, v, ?_, by simp, by simp, hv⟩
          rw [hcs]
          rfl
      | cons d w =>
        refine ⟨[], 1, cs, rfl, by simp, by simp, ?_⟩
        rw [hcs]
        have other := hw d List.mem_cons_self
        simpa using other
    · refine ⟨c :: w, n, v, by rw [hcs]; rfl, ?_, hz, hv⟩
      intro d hd
      cases List.mem_cons.1 hd with
      | inl here => rw [here]; exact same
      | inr later => exact hw d later

namespace State

/-- The state past some characters of a line, with what is then left. -/
def after (s : State) (w tail : List Char) : State :=
  { s with
    rest := tail
    mark := s.mark.passing w
    atLineStart := s.atLineStart && w.all isBlank }

/-- The state past a line break and the spaces of the line after it. -/
def onNextLine (s : State) (n : Nat) (tail : List Char) : State :=
  { s with
    rest := tail
    mark := (s.mark.past '\n').nextLine.passing (List.replicate n ' ')
    atLineStart := true }

/-- The state with keys allowed or not. -/
def allow (s : State) (b : Bool) : State := { s with keyAllowed := b }

/-- The state with one more token, which ends where the scanner stands. -/
def push (s : State) (t : Token) (start : Mark) : State :=
  { s with tokens := s.tokens.push ⟨t, start, s.mark⟩ }

theorem after_nil (s : State) : s.after [] s.rest = s := by
  simp [after, Mark.passing]

theorem after_after (s : State) (w v t u : List Char) :
    (s.after w t).after v u = s.after (w ++ v) u := by
  simp [after, Mark.passing, List.foldl_append, Bool.and_assoc]

theorem onNextLine_after (s : State) (n k : Nat) (t u : List Char) :
    (s.onNextLine n t).after (List.replicate k ' ') u = s.onNextLine (n + k) u := by
  have blank : isBlank ' ' = true := rfl
  simp [after, onNextLine, Mark.passing, ← List.replicate_append_replicate, List.foldl_append,
    List.all_replicate, blank]

@[simp] theorem after_column (s : State) (w t : List Char) :
    (s.after w t).mark.column = s.mark.column + w.length :=
  Mark.passing_column s.mark w

@[simp] theorem after_line (s : State) (w t : List Char) :
    (s.after w t).mark.line = s.mark.line :=
  Mark.passing_line s.mark w

@[simp] theorem onNextLine_column (s : State) (n : Nat) (t : List Char) :
    (s.onNextLine n t).mark.column = n := by
  have zero : (s.mark.past '\n').nextLine.column = 0 := rfl
  show ((s.mark.past '\n').nextLine.passing (List.replicate n ' ')).column = n
  rw [Mark.passing_column, zero, List.length_replicate, Nat.zero_add]

@[simp] theorem onNextLine_line (s : State) (n : Nat) (t : List Char) :
    (s.onNextLine n t).mark.line = s.mark.line + 1 :=
  Mark.passing_line _ _

theorem skip_of_rest {s : State} {c : Char} {cs : List Char} (h : s.rest = c :: cs) :
    s.skip = s.after [c] cs := by
  unfold skip
  rw [h]
  simp [after, Mark.passing]

theorem skipMany_of_rest {s : State} {w tail : List Char} (h : s.rest = w ++ tail) :
    s.skipMany w.length = s.after w tail := by
  induction w generalizing s with
  | nil =>
    have left : s.rest = tail := h
    rw [← left, after_nil]
    rfl
  | cons c w ih =>
    have first : s.skip = s.after [c] (w ++ tail) := skip_of_rest h
    have next : (s.after [c] (w ++ tail)).rest = w ++ tail := rfl
    rw [List.length_cons, skipMany, first, ih next, after_after]
    rfl

theorem skipBreak_of_rest {s : State} {cs : List Char} (h : s.rest = '\n' :: cs) :
    s.skipBreak = s.onNextLine 0 cs := by
  unfold skipBreak
  rw [h]
  rfl

theorem ahead_zero (s : State) : s.ahead 0 = s.rest.headD endChar := by
  unfold ahead
  cases s.rest <;> rfl

theorem ahead_of_rest {s : State} {c : Char} {cs : List Char} (h : s.rest = c :: cs) :
    s.ahead 0 = c := by
  rw [ahead_zero, h]
  rfl

theorem ahead_one_of_rest {s : State} {c : Char} {cs : List Char} (h : s.rest = c :: cs) :
    s.ahead 1 = cs.headD endChar := by
  unfold ahead
  rw [h]
  cases cs <;> rfl

end State

namespace Scan

variable {s t : State} {w tail : List Char}

theorem run_bind {α β : Type} {m : Scan α} {f : α → Scan β} {a : α}
    (h : m.run s = some (a, t)) : (m >>= f).run s = (f a).run t := by
  simp [StateT.run_bind, h]

theorem run_get_bind {β : Type} (s : State) (f : State → Scan β) :
    (get >>= f).run s = (f s).run s := rfl

theorem run_set_bind {β : Type} (s t : State) (f : PUnit → Scan β) :
    (set t >>= f).run s = (f ⟨⟩).run t := rfl

theorem run_modify_bind {β : Type} (s : State) (g : State → State) (f : PUnit → Scan β) :
    (modify g >>= f).run s = (f ⟨⟩).run (g s) := rfl

theorem run_ahead (s : State) (n : Nat) : (ahead n).run s = some (s.ahead n, s) := rfl

theorem run_mark (s : State) : mark.run s = some (s.mark, s) := rfl

theorem run_inFlow (s : State) : inFlow.run s = some (s.flowDepth != 0, s) := rfl

theorem run_candidate (s : State) :
    candidate.run s = some (s.candidates.headD .none, s) := rfl

theorem run_allowKey (s : State) (b : Bool) : (allowKey b).run s = some ((), s.allow b) := rfl

theorem run_emit (s : State) (token : Token) (start : Mark) :
    (emit token start).run s = some ((), s.push token start) := rfl

theorem run_skip {c : Char} (h : s.rest = c :: tail) : skip.run s = some ((), s.after [c] tail) := by
  show some ((), s.skip) = _
  rw [State.skip_of_rest h]

theorem run_skipMany (h : s.rest = w ++ tail) :
    (skipMany w.length).run s = some ((), s.after w tail) := by
  show some ((), s.skipMany w.length) = _
  rw [State.skipMany_of_rest h]

theorem run_passBreak (h : s.rest = '\n' :: tail) :
    passBreak.run s = some (['\n'], s.onNextLine 0 tail) := by
  unfold passBreak
  rw [run_bind (run_ahead s 0), State.ahead_of_rest h]
  show some (_, s.skipBreak) = _
  rw [State.skipBreak_of_rest h]
  rfl

theorem run_passWhile {p : Char → Bool} (h : s.rest = w ++ tail) (hw : ∀ c ∈ w, p c = true)
    (ht : ∀ c ∈ tail.head?, p c = false) : (passWhile p).run s = some (w, s.after w tail) := by
  have taken : s.rest.takeWhile p = w := by
    rw [h, List.takeWhile_append_of_pos hw]
    cases tail with
    | nil => simp
    | cons c cs =>
      have stop : p c = false := ht c rfl
      simp [stop]
  show some (s.rest.takeWhile p, s.skipMany (s.rest.takeWhile p).length) = _
  rw [taken, State.skipMany_of_rest h]

/-- Whether a character can stand where a token starts: no blank, break or comment does. -/
def isStart (c : Char) : Bool := !(isBlank c || isBreak .v12 c || c == '#')

/-- The text is at its end, or at the start of a token. -/
def Opens (cs : List Char) : Prop := isStart (cs.headD endChar) = true

theorem opens_nil : Opens [] := rfl

theorem Opens.head {c : Char} (h : Opens tail) (hc : c ∈ tail.head?) :
    c ≠ ' ' ∧ c ≠ '\t' ∧ c ≠ '\n' ∧ c ≠ '\r' ∧ c ≠ '#' := by
  cases tail with
  | nil => contradiction
  | cons d cs =>
    have same : d = c := by simpa using hc
    subst same
    have start : isStart d = true := h
    simpa [isStart, isBlank, isBreak, not_or, and_assoc] using start

theorem Opens.not_blank (h : Opens tail) : isBlank (tail.headD endChar) = false := by
  simp only [Opens, isStart, Bool.not_eq_true', Bool.or_eq_false_iff] at h
  exact h.1.1

theorem Opens.not_break (h : Opens tail) : isBreak .v12 (tail.headD endChar) = false := by
  simp only [Opens, isStart, Bool.not_eq_true', Bool.or_eq_false_iff] at h
  exact h.1.2

theorem Opens.head?_ne_space (h : Opens tail) : tail.head? ≠ some ' ' :=
  fun space => (h.head space).1 rfl

theorem run_passBlanks (tabs : Bool) (h : s.rest = w ++ tail) (hw : ∀ c ∈ w, c = ' ')
    (ht : ∀ c ∈ tail.head?, c ≠ ' ' ∧ c ≠ '\t' ∧ c ≠ '#') :
    (passBlanks tabs).run s = some ((false, w.contains ' '), s.after w tail) := by
  have passed : (passWhile fun c => c == ' ' || (tabs && c == '\t')).run s =
      some (w, s.after w tail) := by
    apply run_passWhile h
    · intro c hc
      simp [hw c hc]
    · intro c hc
      simp [ht c hc]
  have noTab : w.contains '\t' = false := by
    rw [List.contains_eq_mem, decide_eq_false_iff_not]
    intro hc
    have same := hw _ hc
    contradiction
  have noComment : ((s.after w tail).ahead 0 == '#') = false := by
    rw [State.ahead_zero]
    cases tail with
    | nil => rfl
    | cons c cs =>
      have other : c ≠ '#' := (ht c rfl).2.2
      simpa [State.after] using other
  unfold passBlanks
  rw [run_bind passed, run_bind (run_ahead _ _), noComment, noTab]
  rfl

theorem run_passBlanks_none (tabs : Bool)
    (h : ∀ c ∈ s.rest.head?, c ≠ ' ' ∧ c ≠ '\t' ∧ c ≠ '#') :
    (passBlanks tabs).run s = some ((false, false), s) := by
  have none := run_passBlanks (s := s) (w := []) tabs rfl (by simp) h
  rwa [State.after_nil] at none

theorem run_toNextToken_opens (h : Opens s.rest) (fuel : Nat) :
    (toNextToken .v12 fuel).run s = some ((), s) := by
  cases fuel with
  | zero => rfl
  | succ fuel =>
    have first : isStart (s.ahead 0) = true := by rwa [State.ahead_zero]
    simp only [isStart, isBlank, Bool.not_eq_true', Bool.or_eq_false_iff] at first
    unfold toNextToken
    rw [run_get_bind, run_bind (run_inFlow s)]
    simp [first]

theorem run_toNextToken_spaces (n : Nat) (h : s.rest = List.replicate n ' ' ++ tail)
    (ht : Opens tail) {fuel : Nat} (hf : n < fuel) :
    (toNextToken .v12 fuel).run s = some ((), s.after (List.replicate n ' ') tail) := by
  induction n generalizing s fuel with
  | zero =>
    have left : s.rest = tail := h
    rw [run_toNextToken_opens (left ▸ ht), ← left]
    simp [State.after_nil]
  | succ n ih =>
    obtain ⟨fuel, rfl⟩ : ∃ k, fuel = k + 1 := ⟨fuel - 1, by omega⟩
    have blank : s.rest = ' ' :: (List.replicate n ' ' ++ tail) := h
    have first := State.ahead_of_rest blank
    have next : (s.after [' '] (List.replicate n ' ' ++ tail)).rest =
        List.replicate n ' ' ++ tail := rfl
    unfold toNextToken
    rw [run_get_bind, run_bind (run_inFlow s)]
    simp only [first]
    show ((skip >>= fun _ => toNextToken .v12 fuel).run s) = _
    rw [run_bind (run_skip blank), ih next (by omega), State.after_after]
    rfl

/-- A line break allows a key. -/
theorem run_toNextToken_line (n : Nat) (h : s.rest = '\n' :: (List.replicate n ' ' ++ tail))
    (ht : Opens tail) (hb : s.flowDepth = 0) :
    (toNextToken .v12 (s.rest.length + 1)).run s =
      some ((), (s.onNextLine n tail).allow true) := by
  have enough : n < s.rest.length := by
    rw [h, List.length_cons, List.length_append, List.length_replicate]
    omega
  let line := (s.onNextLine 0 (List.replicate n ' ' ++ tail)).allow true
  have first := State.ahead_of_rest h
  have next : line.rest = List.replicate n ' ' ++ tail := rfl
  have moved : line.after (List.replicate n ' ') tail = (s.onNextLine n tail).allow true := by
    have joined := State.onNextLine_after s 0 n (List.replicate n ' ' ++ tail) tail
    rw [Nat.zero_add] at joined
    rw [← joined]
    rfl
  unfold toNextToken
  rw [run_get_bind, run_bind (run_inFlow s)]
  simp only [first, hb]
  show ((passBreak >>= fun _ => allowKey true >>= fun _ =>
    toNextToken .v12 s.rest.length).run s) = _
  rw [run_bind (run_passBreak h), run_bind (run_allowKey _ _)]
  show (toNextToken .v12 s.rest.length).run line = _
  rw [run_toNextToken_spaces n next ht enough, moved]

end Scan

end TrafficIntent.Yaml
