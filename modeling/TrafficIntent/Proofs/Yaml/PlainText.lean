import TrafficIntent.Proofs.Yaml.Steps

namespace TrafficIntent.Yaml.Scan

variable {s t : State} {e : Edition} {flow : Bool} {c : Char} {w rest : List Char}

/-- A word: nothing in it ends a plain scalar. -/
def IsWord (e : Edition) (flow : Bool) (rest : List Char) : List Char → Prop
  | [] => True
  | c :: w => plainEnds e flow c ((w ++ rest).headD endChar) = false ∧ IsWord e flow rest w

private theorem not_refused (h : e = .v11 → flow = true → c ≠ ':') (b : Bool) :
    (decide (e = .v11) && flow && c == ':' && b) = false := by
  cases e with
  | v11 =>
    cases flow with
    | true => rw [beq_false_of_ne (h rfl rfl)]; rfl
    | false => rfl
  | v12 => rfl

/-- A word is read up to what ends it. A colon in it may be refused, between brackets and in the
older edition. -/
theorem run_plainWord (h : s.rest = w ++ rest) (hw : IsWord e flow rest w)
    (hr : plainEnds e flow (rest.headD endChar) (rest.tail.headD endChar) = true)
    (colon : e = .v11 → flow = true → ':' ∉ w ∧ rest.headD endChar ≠ ':') {fuel : Nat}
    (hf : w.length < fuel) (f : Folding) :
    (plainWord e flow fuel f).run s = some (f.append w, s.after w rest) := by
  induction w generalizing s fuel f with
  | nil =>
    obtain ⟨fuel, rfl⟩ : ∃ k, fuel = k + 1 := ⟨fuel - 1, by simp at hf; omega⟩
    have left : s.rest = rest := h
    have second : s.ahead 1 = rest.tail.headD endChar := by
      unfold State.ahead
      rw [left]
      cases rest with
      | nil => rfl
      | cons c rest => cases rest <;> rfl
    unfold plainWord
    rw [run_bind (run_ahead s 0), run_bind (run_ahead s 1), State.ahead_zero, second, left,
      not_refused fun old brackets => (colon old brackets).2]
    simp only [hr, Bool.false_eq_true, if_false, if_true]
    show some (f, s) = some (f.append [], s.after [] rest)
    rw [← left, State.after_nil]
    rfl
  | cons c w ih =>
    obtain ⟨fuel, rfl⟩ : ∃ k, fuel = k + 1 := ⟨fuel - 1, by simp at hf; omega⟩
    have head : s.rest = c :: (w ++ rest) := h
    have next : (s.after [c] (w ++ rest)).rest = w ++ rest := rfl
    have own : e = .v11 → flow = true → c ≠ ':' := fun old brackets same =>
      (colon old brackets).1 (by simp [same])
    have others : e = .v11 → flow = true → ':' ∉ w ∧ rest.headD endChar ≠ ':' :=
      fun old brackets =>
        ⟨fun there => (colon old brackets).1 (List.mem_cons_of_mem _ there),
          (colon old brackets).2⟩
    unfold plainWord
    rw [run_bind (run_ahead s 0), run_bind (run_ahead s 1), State.ahead_of_rest head,
      State.ahead_one_of_rest head, not_refused own]
    simp only [hw.1, Bool.false_eq_true, if_false]
    show (skip >>= fun _ => plainWord e flow fuel (f.push c)).run s = _
    rw [run_bind (run_skip head), ih next hw.2 others (by simp at hf; omega), State.after_after]
    simp [Folding.append, Folding.push]

theorem run_plainGap_stop (indent : Int) (blank : isBlank (s.ahead 0) = false)
    (brk : isBreak e (s.ahead 0) = false) (fuel : Nat) (broken : Bool) (f : Folding) :
    (plainGap e indent (fuel + 1) broken f).run s = some ((f, broken), s) := by
  unfold plainGap
  rw [run_bind (run_ahead s 0)]
  simp only [blank, brk, Bool.false_eq_true, if_false]
  rfl

/-- A blank is passed; a tab must not be in the place of indentation. -/
theorem run_plainGap_blank (indent : Int) (h : s.rest = c :: rest) (blank : isBlank c = true)
    (free : c = ' ' ∨ indent ≤ s.mark.column) (fuel : Nat) (broken : Bool) (f : Folding) :
    (plainGap e indent (fuel + 1) broken f).run s =
      (plainGap e indent fuel broken (f.blank broken c)).run (s.after [c] rest) := by
  have allowed : (broken && c == '\t' && decide ((s.mark.column : Int) < indent)) = false := by
    cases free with
    | inl space =>
      have other : (c == '\t') = false := by rw [space]; rfl
      rw [other, Bool.and_false, Bool.false_and]
    | inr inside => rw [decide_eq_false (by omega), Bool.and_false]
  conv => lhs; unfold plainGap
  rw [run_bind (run_ahead s 0), State.ahead_of_rest h, blank, if_pos rfl, run_bind (run_mark s),
    allowed]
  simp only [Bool.false_eq_true, if_false]
  rw [run_bind (run_skip h)]

theorem run_plainGap_break (indent : Int) (blank : isBlank (s.ahead 0) = false)
    (brk : isBreak e (s.ahead 0) = true) {b : List Char} (passed : passBreak.run s = some (b, t))
    (fuel : Nat) (broken : Bool) (f : Folding) :
    (plainGap e indent (fuel + 1) broken f).run s =
      (plainGap e indent fuel true (f.lineBreak broken b)).run t := by
  conv => lhs; unfold plainGap
  rw [run_bind (run_ahead s 0)]
  simp only [blank, brk, Bool.false_eq_true, if_false, if_true]
  rw [run_bind passed]

/-- What is read after a word. -/
def afterWord (e : Edition) (flow : Bool) (indent : Int) (fuel n : Nat) (word : Folding) :
    Scan (List Char × Bool) := do
  let c ← ahead 0
  if isBlank c || isBreak e c then
    let (f, broken) ← plainGap e indent n false word
    if !flow && decide (((← mark).column : Int) < indent) then return (f.text, broken)
    plainText e indent fuel broken f
  else return (word.text, false)

/-- A word is read, and what is after it. Between brackets the newer edition may refuse a dash. -/
theorem run_plainText_word {indent : Int} (h : s.rest = c :: w ++ rest)
    (hf : (s.flowDepth != 0) = flow) (hm : s.atDocumentMark e = false) (hc : c ≠ '#')
    (hw : IsWord e flow rest (c :: w))
    (hr : plainEnds e flow (rest.headD endChar) (rest.tail.headD endChar) = true)
    (colon : e = .v11 → flow = true → ':' ∉ c :: w ∧ rest.headD endChar ≠ ':')
    (dash : e = .v12 → flow = true → c ≠ '-') (fuel : Nat) (f : Folding) :
    (plainText e indent (fuel + 1) false f).run s =
      (afterWord e flow indent fuel (s.rest.length + 1) ((f.join false).append (c :: w))).run
        (s.after (c :: w) rest) := by
  have head : s.rest = c :: (w ++ rest) := h
  have length : (c :: w).length < s.rest.length + 1 := by
    rw [head, List.length_cons, List.length_cons, List.length_append]
    omega
  have word := run_plainWord h hw hr colon length (f.join false)
  have free (b : Bool) : (decide (e = .v12) && flow && c == '-' && b) = false := by
    cases e with
    | v11 => rfl
    | v12 =>
      cases flow with
      | true => rw [beq_false_of_ne (dash rfl rfl)]; rfl
      | false => rfl
  unfold plainText
  rw [run_get_bind, run_bind (run_inFlow s), State.ahead_of_rest head,
    State.ahead_one_of_rest head, hf]
  simp only [hm, beq_false_of_ne hc, free, hw.1, Bool.or_false, Bool.false_eq_true, if_false,
    Bool.not_false, if_true, Bool.not_true, Bool.and_false]
  rw [run_bind word]
  unfold afterWord
  rfl

end TrafficIntent.Yaml.Scan
