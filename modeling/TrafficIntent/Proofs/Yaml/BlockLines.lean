import TrafficIntent.Proofs.Yaml.PlainScalar

namespace TrafficIntent.Yaml

/-- Characters with an indentation before each line of the newer edition. Lines without a character
are left empty. -/
def margined (n : Nat) : Bool → List Char → List Char
  | _, [] => []
  | start, c :: cs =>
    if c = '\n' then c :: margined n true cs
    else if start then List.replicate n ' ' ++ c :: margined n false cs
    else c :: margined n false cs

theorem margined_line {n : Nat} {l : List Char} (hl : '\n' ∉ l) (rest : List Char) :
    margined n false (l ++ rest) = l ++ margined n false rest := by
  induction l with
  | nil => rfl
  | cons c l ih =>
    rw [List.mem_cons, not_or] at hl
    rw [List.cons_append, margined, if_neg (Ne.symm hl.1), if_neg (by simp), ih hl.2]
    rfl

theorem margined_newlines (n k : Nat) (start : Bool) (cs : List Char) :
    margined n start (List.replicate k '\n' ++ cs) =
      List.replicate k '\n' ++ margined n (if k = 0 then start else true) cs := by
  induction k generalizing start with
  | zero => rfl
  | succ k ih =>
    rw [List.replicate_succ, List.cons_append, margined, if_pos rfl, ih]
    by_cases zero : k = 0
    · simp [zero]
    · simp [zero]

theorem margined_start (n : Nat) {c : Char} (cs : List Char) (hc : c ≠ '\n') :
    margined n true (c :: cs) = List.replicate n ' ' ++ margined n false (c :: cs) := by
  rw [margined, margined, if_neg hc, if_neg hc]
  rfl

theorem margined_append_newlines (n t : Nat) (start : Bool) (cs : List Char) :
    margined n start (cs ++ List.replicate t '\n') =
      margined n start cs ++ List.replicate t '\n' := by
  induction cs generalizing start with
  | nil =>
    have alone := margined_newlines n t start []
    simpa [margined] using alone
  | cons c cs ih =>
    rw [List.cons_append, margined, margined, ih, ih]
    split
    next => rfl
    next => cases start <;> simp

theorem getLast?_margined (n : Nat) (start : Bool) (cs : List Char) :
    (margined n start cs).getLast? = cs.getLast? := by
  induction cs generalizing start with
  | nil => rfl
  | cons c cs ih =>
    have tail (b : Bool) : (c :: margined n b cs).getLast? = (c :: cs).getLast? := by
      rw [List.getLast?_cons, List.getLast?_cons, ih]
    rw [margined]
    split
    next => exact tail true
    next =>
      cases start with
      | true => rw [if_pos rfl, List.getLast?_append, tail, List.getLast?_cons]; rfl
      | false => rw [if_neg (by simp), tail]

theorem length_le_margined (n : Nat) (start : Bool) (cs : List Char) :
    cs.length ≤ (margined n start cs).length := by
  induction cs generalizing start with
  | nil => exact Nat.le_refl _
  | cons c cs ih =>
    have step := ih true
    have step' := ih false
    rw [margined]
    split
    · simp only [List.length_cons]
      omega
    · cases start with
      | true =>
        rw [if_pos rfl, List.length_append, List.length_cons, List.length_cons]
        omega
      | false =>
        rw [if_neg (by simp), List.length_cons, List.length_cons]
        omega

/-- The empty lines at the start and at the end of a text. -/
theorem exists_core (x : Char) (cs : List Char) :
    (∃ a, cs = List.replicate a x) ∨
      ∃ a core t, cs = List.replicate a x ++ (core ++ List.replicate t x) ∧ core ≠ [] ∧
        core.head? ≠ some x ∧ core.getLast? ≠ some x := by
  induction cs with
  | nil => exact .inl ⟨0, rfl⟩
  | cons c cs ih =>
    by_cases same : c = x
    · subst same
      cases ih with
      | inl all =>
        obtain ⟨a, all⟩ := all
        exact .inl ⟨a + 1, by rw [all]; rfl⟩
      | inr some =>
        obtain ⟨a, core, t, hcs, rest⟩ := some
        exact .inr ⟨a + 1, core, t, by rw [hcs]; rfl, rest⟩
    · right
      cases ih with
      | inl all =>
        obtain ⟨a, all⟩ := all
        exact ⟨0, [c], a, by rw [all]; rfl, by simp, by simpa using same, by simpa using same⟩
      | inr some =>
        obtain ⟨a, core, t, hcs, hne, -, last⟩ := some
        refine ⟨0, c :: (List.replicate a x ++ core), t, by rw [hcs]; simp, by simp,
          by simpa using same, ?_⟩
        obtain ⟨d, ds, rfl⟩ := List.exists_cons_of_ne_nil hne
        rw [← List.cons_append, List.getLast?_append]
        cases hl : (d :: ds).getLast? with
        | none => simp at hl
        | some e =>
          rw [hl] at last
          exact last

/-- From the first state to the second nothing but the place has changed. -/
structure State.MovesTo (s t : State) (text : List Char) (column : Nat) : Prop where
  same : t = { s with rest := t.rest, mark := t.mark, atLineStart := t.atLineStart }
  rest : t.rest = text
  column : t.mark.column = column
  line : s.mark.line ≤ t.mark.line

theorem State.MovesTo.trans {s t u : State} {v w : List Char} {m n : Nat}
    (h : s.MovesTo t v m) (k : t.MovesTo u w n) : s.MovesTo u w n := by
  refine ⟨?_, k.rest, k.column, Nat.le_trans h.line k.line⟩
  rw [k.same, h.same]

theorem State.movesTo_after (s : State) (w v : List Char) :
    s.MovesTo (s.after w v) v (s.mark.column + w.length) :=
  ⟨rfl, rfl, State.after_column .., Nat.le_of_eq (State.after_line ..).symm⟩

theorem State.movesTo_onNextLine (s : State) (n : Nat) (v : List Char) :
    s.MovesTo (s.onNextLine n v) v n :=
  ⟨rfl, rfl, State.onNextLine_column .., by rw [State.onNextLine_line]; exact Nat.le_succ _⟩

namespace Scan

variable {s t : State}

private theorem takeWhile_spaces {j : Nat} {v : List Char} (hv : v.head? ≠ some ' ') :
    (List.replicate j ' ' ++ v).takeWhile (· == ' ') = List.replicate j ' ' := by
  rw [List.takeWhile_append_of_pos (by simp)]
  cases v with
  | nil => simp
  | cons c v =>
    have other : (c == ' ') = false := by simpa using hv
    simp [other]

/-- The spaces that are taken for the indentation, up to it if it is known. -/
def taken (given : Option Nat) (spaces column : Nat) : Nat :=
  match given with
  | some n => min spaces (n - column)
  | none => spaces

/-- A line that is indented as much as is known, or less if it starts otherwise. -/
def Aligned (given : Option Nat) (j : Nat) (v : List Char) : Prop :=
  v.head? ≠ some ' ' ∧ (∀ n ∈ given, j ≤ n) ∨ given = some j

private theorem taken_of_aligned {given : Option Nat} {j : Nat} {v : List Char}
    (h : Aligned given j v) :
    taken given ((List.replicate j ' ' ++ v).takeWhile (· == ' ')).length 0 = j := by
  cases h with
  | inl plain =>
    rw [takeWhile_spaces plain.1, List.length_replicate]
    cases given with
    | none => rfl
    | some n => exact Nat.min_eq_left (plain.2 n rfl)
  | inr same =>
    rw [same, List.takeWhile_append_of_pos (by simp), List.length_append, List.length_replicate]
    exact Nat.min_eq_right (by omega)

theorem run_blockGap_step {given : Option Nat} {u : State} (fuel : Nat)
    (breaks : List Char) (widest : Nat)
    (hu : (skipMany (taken given (s.rest.takeWhile (· == ' ')).length s.mark.column)).run s =
      some ((), u)) :
    (blockGap .v12 given (fuel + 1) breaks widest).run s =
      (if isBreak .v12 (u.ahead 0) then
        passBreak >>= fun b => blockGap .v12 given fuel (breaks ++ b) (max widest u.mark.column)
      else pure (breaks, max widest u.mark.column)).run u := by
  conv => lhs; unfold blockGap
  rw [run_get_bind]
  show (skipMany (taken given (s.rest.takeWhile (· == ' ')).length s.mark.column) >>= _).run s = _
  rw [run_bind hu, run_get_bind]
  rfl

/-- Empty lines are passed, and the indentation of the line after them. -/
theorem run_blockGap {given : Option Nat} {k j : Nat} {v : List Char}
    (h : s.rest = List.replicate k '\n' ++ (List.replicate j ' ' ++ v)) (hc : s.mark.column = 0)
    (ha : Aligned given j v) (hv : isBreak .v12 (v.headD endChar) = false) {fuel : Nat}
    (hf : k < fuel) (breaks : List Char) (widest : Nat) :
    ∃ t, (blockGap .v12 given fuel breaks widest).run s =
        some ((breaks ++ List.replicate k '\n', max widest j), t) ∧
      s.MovesTo t v j := by
  induction k generalizing s fuel breaks widest with
  | zero =>
    obtain ⟨fuel, rfl⟩ : ∃ k, fuel = k + 1 := ⟨fuel - 1, by omega⟩
    have left : s.rest = List.replicate j ' ' ++ v := h
    have passed : (skipMany (taken given (s.rest.takeWhile (· == ' ')).length s.mark.column)).run s =
        some ((), s.after (List.replicate j ' ') v) := by
      have run := run_skipMany left
      rw [List.length_replicate] at run
      rw [left, hc, taken_of_aligned ha, run]
    have moved := s.movesTo_after (List.replicate j ' ') v
    rw [hc, List.length_replicate, Nat.zero_add] at moved
    have first : (s.after (List.replicate j ' ') v).ahead 0 = v.headD endChar := State.ahead_zero _
    refine ⟨s.after (List.replicate j ' ') v, ?_, moved⟩
    rw [run_blockGap_step fuel breaks widest passed, first, hv, moved.column]
    simp
  | succ k ih =>
    obtain ⟨fuel, rfl⟩ : ∃ k, fuel = k + 1 := ⟨fuel - 1, by omega⟩
    let line := s.onNextLine 0 (List.replicate k '\n' ++ (List.replicate j ' ' ++ v))
    have head : s.rest = '\n' :: (List.replicate k '\n' ++ (List.replicate j ' ' ++ v)) := h
    have passed : (skipMany (taken given (s.rest.takeWhile (· == ' ')).length s.mark.column)).run s =
        some ((), s) := by
      have none : taken given (s.rest.takeWhile (· == ' ')).length s.mark.column = 0 := by
        rw [head]
        cases given <;> simp [taken]
      rw [none]
      rfl
    obtain ⟨t, run, moved⟩ := ih (s := line) rfl (State.onNextLine_column ..)
      (show k < fuel by omega) (breaks ++ ['\n']) (max widest s.mark.column)
    refine ⟨t, ?_, (s.movesTo_onNextLine 0 _).trans moved⟩
    rw [run_blockGap_step fuel breaks widest passed, State.ahead_of_rest head]
    show (passBreak >>= _).run s = _
    rw [run_bind (run_passBreak head), run]
    simp [hc, List.replicate_succ]

/-- A line is read, with the empty lines after it and the indentation of the next one. -/
theorem run_blockLines_line {n k j : Nat} {l v : List Char}
    (h : s.rest = l ++ '\n' :: (List.replicate k '\n' ++ (List.replicate j ' ' ++ v)))
    (hc : s.mark.column = n) (hn : n ≠ 0) (hl : l ≠ []) (fine : ∀ c ∈ l, isBreakOrEnd .v12 c = false)
    (ha : Aligned (some n) j v) (hv : isBreak .v12 (v.headD endChar) = false) (fuel : Nat)
    (after : Bool) (f : Folding) :
    ∃ blank t, (blockLines .v12 true n (fuel + 1) after f).run s =
        (blockLines .v12 true n fuel blank
          ⟨l.reverse ++ ((f.first ++ f.further).reverse ++ f.reversed), [], ['\n'],
            List.replicate k '\n'⟩).run t ∧
      s.MovesTo t v j := by
  let gap := List.replicate k '\n' ++ (List.replicate j ' ' ++ v)
  let s1 := s.after l ('\n' :: gap)
  let s2 := s1.onNextLine 0 gap
  obtain ⟨t, passed, moved⟩ := run_blockGap (s := s2) rfl (State.onNextLine_column ..) ha hv
    (show k < s.rest.length + 1 by rw [h]; simp; omega) [] 0
  have begins : (s.ahead 0 == endChar) = false := by
    rw [State.ahead_zero, h, beq_eq_false_iff_ne]
    cases l with
    | nil => contradiction
    | cons c l =>
      intro same
      have other := fine c List.mem_cons_self
      have null : c = endChar := same
      rw [null] at other
      contradiction
  have line : (passLine .v12).run s = some (l, s1) := by
    apply run_passWhile h
    · intro c hc'
      rw [fine c hc']
      rfl
    · intro c hc'
      have same : c = '\n' := by simpa using hc'.symm
      rw [same]
      rfl
  refine ⟨isBlank (s.ahead 0), t, ?_, ((s.movesTo_after l _).trans
    (s1.movesTo_onNextLine 0 gap)).trans moved⟩
  conv => lhs; unfold blockLines
  rw [run_get_bind, hc, begins]
  simp only [bne_self_eq_false, Bool.or_false, Bool.false_eq_true, if_false, beq_false_of_ne hn,
    Bool.and_false, Bool.false_and, Bool.not_true]
  rw [run_bind line, run_bind (run_ahead s1 0)]
  show (passBreak >>= _).run s1 = _
  rw [run_bind (run_passBreak (s := s1) rfl)]
  show (blockGap .v12 (some n) (s.rest.length + 1) [] 0 >>= _).run s2 = _
  rw [run_bind passed]
  rfl

theorem run_blockLines_stop {n : Nat} (h : s.mark.column ≠ n) (fuel : Nat) (after : Bool)
    (f : Folding) : (blockLines .v12 true n fuel after f).run s = some (f, s) := by
  cases fuel with
  | zero => rfl
  | succ fuel =>
    have other : (s.mark.column != n) = true := by simpa using h
    unfold blockLines
    rw [run_get_bind, other]
    rfl

/-- The first line of a text that neither starts nor ends with an empty line, and the next one with
something on it. -/
private theorem exists_line {core : List Char} (hne : core ≠ []) (first : core.head? ≠ some '\n')
    (last : core.getLast? ≠ some '\n') :
    ∃ l, l ≠ [] ∧ '\n' ∉ l ∧ (core = l ∨ ∃ i d ds,
      core = l ++ (List.replicate (i + 1) '\n' ++ d :: ds) ∧ d ≠ '\n' ∧
      (d :: ds).getLast? ≠ some '\n') := by
  obtain ⟨l, i, v, hl, plain, hz, hv⟩ := exists_split '\n' core
  have lineNe : l ≠ [] := by
    intro none
    rw [none, List.nil_append] at hl
    cases i with
    | zero => exact hne (by rw [hl, hz rfl]; rfl)
    | succ i => exact first (by rw [hl]; rfl)
  refine ⟨l, lineNe, fun hc => plain _ hc rfl, ?_⟩
  cases i with
  | zero =>
    left
    simpa [hz rfl] using hl
  | succ i =>
    right
    have rest : v ≠ [] := by
      intro none
      apply last
      rw [hl, none, List.append_nil, List.replicate_succ', ← List.append_assoc]
      simp
    obtain ⟨d, ds, rfl⟩ := List.exists_cons_of_ne_nil rest
    refine ⟨i, d, ds, hl, by simpa using hv, ?_⟩
    intro ending
    apply last
    rw [hl, List.getLast?_append, List.getLast?_append, ending]
    rfl

/-- A text that neither starts nor ends with an empty line is read, with the line break after it
and the empty lines behind it. -/
theorem run_blockLines {n m k : Nat} {core body : List Char}
    (h : s.rest = margined n false core ++
      '\n' :: (List.replicate k '\n' ++ (List.replicate m ' ' ++ body)))
    (hc : s.mark.column = n) (hm : m < n) (hne : core ≠ []) (first : core.head? ≠ some '\n')
    (last : core.getLast? ≠ some '\n')
    (fine : ∀ c ∈ core, c ≠ '\n' → isBreakOrEnd .v12 c = false) (ho : Opens body) {fuel : Nat}
    (hf : core.length < fuel) (after : Bool) (f : Folding) :
    ∃ g t, (blockLines .v12 true n fuel after f).run s = some (g, t) ∧
      Folding.text g = f.text ++ (f.first ++ f.further) ++ core ∧ g.first = ['\n'] ∧
      g.further = List.replicate k '\n' ∧ s.MovesTo t body m := by
  induction hk : core.length using Nat.strongRecOn generalizing s core fuel after f with
  | ind size ih =>
    obtain ⟨l, lineNe, noBreak, parts⟩ := exists_line hne first last
    obtain ⟨fuel, rfl⟩ : ∃ k, fuel = k + 1 := ⟨fuel - 1, by omega⟩
    have positive : n ≠ 0 := by omega
    cases parts with
    | inl same =>
      subst same
      have alone : margined n false core = core := by
        have written := margined_line (n := n) noBreak []
        simpa [margined] using written
      rw [alone] at h
      have lineFine : ∀ c ∈ core, isBreakOrEnd .v12 c = false := fun c hc =>
        fine c hc (by rintro rfl; exact noBreak hc)
      obtain ⟨blank, t, run, moved⟩ := run_blockLines_line h hc positive lineNe lineFine
        (.inl ⟨ho.head?_ne_space, fun _ hn => by cases hn; omega⟩) ho.not_break fuel after f
      refine ⟨⟨core.reverse ++ ((f.first ++ f.further).reverse ++ f.reversed), [], ['\n'],
        List.replicate k '\n'⟩, t, ?_, ?_, rfl, rfl, moved⟩
      · rw [run, run_blockLines_stop (by rw [moved.column]; omega)]
      · simp [Folding.text]
    | inr parts =>
      obtain ⟨i, d, ds, rfl, other, ending⟩ := parts
      have lineFine : ∀ c ∈ l, isBreakOrEnd .v12 c = false := fun c hc =>
        fine c (by simp [hc]) (by rintro rfl; exact noBreak hc)
      have dFine : isBreakOrEnd .v12 d = false := fine d (by simp) other
      simp only [isBreakOrEnd, Bool.or_eq_false_iff] at dFine
      have split : s.rest = l ++ '\n' :: (List.replicate i '\n' ++ (List.replicate n ' ' ++
          (margined n false (d :: ds) ++
            '\n' :: (List.replicate k '\n' ++ (List.replicate m ' ' ++ body))))) := by
        rw [h, margined_line noBreak, margined_newlines, if_neg (by omega),
          margined_start n ds other]
        simp [List.replicate_succ]
      obtain ⟨blank, t, run, moved⟩ := run_blockLines_line split hc positive lineNe lineFine
        (.inr rfl) (by rw [margined, if_neg other]; exact dFine.1) fuel after f
      simp only [List.length_append, List.length_replicate] at hf hk
      obtain ⟨g, u, run', text, first', further, moved'⟩ := ih (d :: ds).length (by omega)
        moved.rest moved.column (by simp) (by simpa using other) ending
        (fun c hcd => fine c (by simp only [List.mem_append]; exact .inr (.inr hcd)))
        (show (d :: ds).length < fuel by omega) blank _ rfl
      refine ⟨g, u, by rw [run, run'], ?_, first', further, moved.trans moved'⟩
      rw [text]
      simp [Folding.text, List.replicate_succ]

/-- What a header says of the end of a scalar. -/
def Chomping.mark : Chomping → List Char
  | strip => ['-']
  | clip => []
  | keep => ['+']

/-- What is left of a line break and of the empty lines behind it. -/
def Chomping.left (k : Nat) : Chomping → List Char
  | strip => []
  | clip => ['\n']
  | keep => List.replicate (k + 1) '\n'

/-- A header, with the indentation if it says that. -/
def header (two : Bool) (c : Chomping) : List Char := (if two then ['2'] else []) ++ c.mark

/-- What is found for a mark; one line break needs none. -/
private def Chomping.found : Chomping → Option Chomping
  | clip => none
  | c => some c

private theorem run_chompingAhead {c : Chomping} {rest : List Char}
    (h : s.rest = c.mark ++ '\n' :: rest) :
    chompingAhead.run s = some (c.found, s.after c.mark ('\n' :: rest)) := by
  cases c with
  | clip =>
    have left : s.rest = '\n' :: rest := h
    have none : s.after Chomping.clip.mark ('\n' :: rest) = s := by
      rw [← left]
      exact State.after_nil s
    unfold chompingAhead
    rw [none, run_bind (run_ahead s 0), State.ahead_of_rest left]
    rfl
  | strip =>
    have head : s.rest = '-' :: ('\n' :: rest) := h
    unfold chompingAhead
    rw [run_bind (run_ahead s 0), State.ahead_of_rest head]
    show (skip >>= _).run s = _
    rw [run_bind (run_skip head)]
    rfl
  | keep =>
    have head : s.rest = '+' :: ('\n' :: rest) := h
    unfold chompingAhead
    rw [run_bind (run_ahead s 0), State.ahead_of_rest head]
    show (skip >>= _).run s = _
    rw [run_bind (run_skip head)]
    rfl

private theorem run_blockHeader {two : Bool} {c : Chomping} {rest : List Char}
    (h : s.rest = header two c ++ '\n' :: rest) :
    blockHeader.run s = some ((c, if two then 2 else 0), s.after (header two c) ('\n' :: rest)) := by
  cases two with
  | false =>
    have mark : s.rest = c.mark ++ '\n' :: rest := h
    let t := s.after c.mark ('\n' :: rest)
    have none : incrementAhead.run t = some (0, t) := rfl
    unfold blockHeader
    rw [run_bind (run_chompingAhead mark)]
    cases c with
    | clip =>
      show (incrementAhead >>= _).run t = _
      rw [run_bind none]
      rfl
    | strip =>
      show (incrementAhead >>= _).run t = _
      rw [run_bind none]
      rfl
    | keep =>
      show (incrementAhead >>= _).run t = _
      rw [run_bind none]
      rfl
  | true =>
    have head : s.rest = '2' :: (c.mark ++ '\n' :: rest) := h
    let t := s.after ['2'] (c.mark ++ '\n' :: rest)
    have none : chompingAhead.run s = some (Option.none, s) := by
      unfold chompingAhead
      rw [run_bind (run_ahead s 0), State.ahead_of_rest head]
      rfl
    have digit : incrementAhead.run s = some (2, t) := by
      unfold incrementAhead
      rw [run_bind (run_ahead s 0), State.ahead_of_rest head]
      show (skip >>= _).run s = _
      rw [run_bind (run_skip head)]
      rfl
    unfold blockHeader
    rw [run_bind none]
    show (incrementAhead >>= _).run s = _
    rw [run_bind digit]
    show (chompingAhead >>= _).run t = _
    rw [run_bind (run_chompingAhead (s := t) rfl), State.after_after]
    cases c <;> rfl

/-- What is read of a scalar after the line of its header. -/
def afterHeader (c : Chomping) (increment : Nat) (start : Mark) (fuel : Nat) :
    Scan Token := do
  let outer := (← get).indent
  if (← ahead 0) == '\t' then failure
  let given := if increment = 0 then none else some ((max outer 0).toNat + increment)
  let (breaks, widest) ← blockGap .v12 given fuel [] 0
  let indent := given.getD (blockIndent .v12 outer widest)
  let s ← get
  if s.ahead 0 == endChar then
    let text := emptyBlock c (s.mark.line == start.line) ['\n'] breaks
    return .scalar .literal (String.ofList text)
  if decide (s.mark.column < indent) && decide (outer < s.mark.column) then failure
  let f ← blockLines .v12 true indent fuel false ⟨[], [], [], breaks⟩
  let s ← get
  let closing :=
    if s.ahead 0 == endChar && decide (max indent 1 ≤ s.mark.column) then ['\n'] else []
  return .scalar .literal <| String.ofList <| f.text ++ match c with
    | .strip => []
    | .clip => f.first ++ closing
    | .keep => f.first ++ closing ++ f.further

theorem run_blockScalar_header {two : Bool} {c : Chomping} {lines : List Char}
    {blocks : List Nat} (h : s.rest = '|' :: (header two c ++ '\n' :: lines))
    (hi : Inside s.indent s.levels blocks) :
    ∃ t, (blockScalar .v12 true).run s =
        (afterHeader c (if two then 2 else 0) s.mark (s.rest.length + 1)).run t ∧
      (s.within (innermost blocks) (levelsOf blocks)).MovesTo t lines 0 ∧
      s.mark.line < t.mark.line := by
  let s1 := s.after ['|'] (header two c ++ '\n' :: lines)
  let s2 := s1.within (innermost blocks) (levelsOf blocks)
  let s3 := s2.after (header two c) ('\n' :: lines)
  let s4 := s3.onNextLine 0 lines
  have blanks : (passBlanks true).run s3 = some ((false, false), s3) := by
    apply run_passBlanks_none
    show ∀ c ∈ ('\n' :: lines).head?, _
    simp
  have inside : Inside s1.indent s1.levels blocks := hi
  let base := s.within (innermost blocks) (levelsOf blocks)
  have started : base.MovesTo s2 s2.rest (base.mark.column + 1) := State.movesTo_after base ['|'] _
  have moved : base.MovesTo s4 lines 0 :=
    (started.trans (s2.movesTo_after _ _)).trans (s3.movesTo_onNextLine 0 lines)
  refine ⟨s4, ?_, ?_, ?_⟩
  · unfold blockScalar
    rw [run_bind (run_mark s), run_get_bind, run_bind (run_skip h)]
    show (unindentOnes >>= _).run s1 = _
    rw [run_bind (run_unindentOnes inside)]
    show (blockHeader >>= _).run s2 = _
    rw [run_bind (run_blockHeader (s := s2) rfl)]
    show (passBlanks true >>= _).run s3 = _
    rw [run_bind blanks, run_bind (run_ahead s3 0)]
    show (ahead 0 >>= _).run s3 = _
    rw [run_bind (run_ahead s3 0)]
    show (passBreak >>= _).run s3 = _
    rw [run_bind (run_passBreak (s := s3) rfl)]
    rfl
  · exact moved
  · have line : s3.mark.line = s.mark.line := by
      rw [State.after_line]
      show s1.mark.line = s.mark.line
      rw [State.after_line]
    rw [State.onNextLine_line, line]
    exact Nat.lt_succ_self _

/-- The indentation that the header says, if it says it. -/
private def said (two : Bool) (n : Nat) : Option Nat := if two then some n else none

private theorem said_eq {two : Bool} {n : Nat} {outer : Int} (ho : 0 ≤ outer)
    (hn : (n : Int) = outer + 2) :
    (if (if two then 2 else 0) = 0 then none
      else some ((max outer 0).toNat + if two then 2 else 0)) = said two n := by
  cases two with
  | false => rfl
  | true =>
    show some ((max outer 0).toNat + 2) = some n
    congr 1
    omega

private theorem getD_said {two : Bool} {n : Nat} {outer : Int} (hn : (n : Int) = outer + 2) :
    (said two n).getD (blockIndent .v12 outer (max 0 n)) = n := by
  cases two with
  | true => rfl
  | false =>
    show max (max 0 n) (outer + 1).toNat = n
    omega

private theorem aligned_said {two : Bool} {c : Char} (n : Nat) (cs : List Char)
    (plain : two = false → c ≠ ' ') : Aligned (said two n) n (c :: cs) := by
  cases two with
  | true => exact .inr rfl
  | false => exact .inl ⟨by simpa using plain rfl, by simp [said]⟩

/-- The lines of a scalar with a text on one of them. -/
theorem run_afterHeader {two : Bool} {c : Chomping} {a k m n : Nat} {core body : List Char}
    (h : s.rest = List.replicate a '\n' ++ (List.replicate n ' ' ++ (margined n false core ++
      '\n' :: (List.replicate k '\n' ++ (List.replicate m ' ' ++ body)))))
    (hc : s.mark.column = 0) (ho : 0 ≤ s.indent) (hn : (n : Int) = s.indent + 2)
    (hm : (m : Int) ≤ s.indent) (plain : two = false → a = 0 ∧ core.head? ≠ some ' ')
    (hne : core ≠ []) (first : core.head? ≠ some '\n') (last : core.getLast? ≠ some '\n')
    (fine : ∀ c ∈ core, c ≠ '\n' → isBreakOrEnd .v12 c = false) (hb : Opens body)
    (start : Mark) {fuel : Nat} (hf : a + core.length < fuel) :
    ∃ t, (afterHeader c (if two then 2 else 0) start fuel).run s =
        some (.scalar .literal (String.ofList (List.replicate a '\n' ++ core ++ c.left k)), t) ∧
      s.MovesTo t body m := by
  obtain ⟨d, ds, rfl⟩ := List.exists_cons_of_ne_nil hne
  have other : d ≠ '\n' := by simpa using first
  have dFine : isBreakOrEnd .v12 d = false := fine d List.mem_cons_self other
  simp only [isBreakOrEnd, Bool.or_eq_false_iff] at dFine
  let tail := '\n' :: (List.replicate k '\n' ++ (List.replicate m ' ' ++ body))
  obtain ⟨rest, written⟩ : ∃ rest, margined n false (d :: ds) ++ tail = d :: rest := by
    rw [margined, if_neg other]
    exact ⟨_, rfl⟩
  have aligned : Aligned (said two n) n (margined n false (d :: ds) ++ tail) := by
    rw [written]
    exact aligned_said n rest fun none => by simpa using (plain none).2
  obtain ⟨t, gap, moved⟩ := run_blockGap h hc aligned (by rw [written]; exact dFine.1)
    (show a < fuel by omega) [] 0
  obtain ⟨g, u, lines, text, one, further, moved'⟩ := run_blockLines moved.rest moved.column
    (show m < n by omega) hne first last fine hb
    (show (d :: ds).length < fuel by omega) false ⟨[], [], [], List.replicate a '\n'⟩
  have notTab : (s.ahead 0 == '\t') = false := by
    rw [State.ahead_zero, h]
    cases a with
    | zero =>
      obtain ⟨i, rfl⟩ : ∃ i, n = i + 1 := ⟨n - 1, by omega⟩
      rfl
    | succ a => rfl
  have notEnd : (t.ahead 0 == endChar) = false := by
    rw [State.ahead_of_rest (moved.rest.trans written)]
    exact dFine.2
  have closing : (u.ahead 0 == endChar && decide (max n 1 ≤ u.mark.column)) = false := by
    rw [moved'.column, decide_eq_false (by omega), Bool.and_false]
  refine ⟨u, ?_, moved.trans moved'⟩
  unfold afterHeader
  rw [run_get_bind, run_bind (run_ahead s 0), notTab, said_eq ho hn]
  show (blockGap .v12 (said two n) fuel [] 0 >>= _).run s = _
  rw [run_bind gap]
  simp only [getD_said hn]
  rw [run_get_bind, notEnd, moved.column]
  simp only [Nat.lt_irrefl, decide_false, Bool.false_and, Bool.false_eq_true, if_false,
    List.nil_append]
  have read : g.text = List.replicate a '\n' ++ d :: ds := text
  rw [run_bind lines, run_get_bind, closing, read, one, further]
  cases c <;> rfl

/-- The lines of a scalar that are all empty. -/
theorem run_afterHeader_empty {a m : Nat} {body : List Char}
    (h : s.rest = List.replicate (a + 1) '\n' ++ (List.replicate m ' ' ++ body))
    (hc : s.mark.column = 0) (ho : 0 ≤ s.indent) (hm : (m : Int) ≤ s.indent) (hb : Opens body)
    {start : Mark} (hs : start.line < s.mark.line) {fuel : Nat} (hf : a + 1 < fuel) :
    ∃ t, (afterHeader .keep 2 start fuel).run s =
        some (.scalar .literal (String.ofList (List.replicate (a + 1) '\n')), t) ∧
      s.MovesTo t body m := by
  let n := (max s.indent 0).toNat + 2
  have below : m < n := by omega
  obtain ⟨t, gap, moved⟩ := run_blockGap h hc
    (show Aligned (some n) m body from .inl ⟨hb.head?_ne_space, fun _ hn => by cases hn; omega⟩)
    hb.not_break hf [] 0
  have notTab : (s.ahead 0 == '\t') = false := by
    rw [State.ahead_zero, h]
    rfl
  have later : (t.mark.line == start.line) = false := by
    have line := moved.line
    rw [beq_eq_false_iff_ne]
    omega
  refine ⟨t, ?_, moved⟩
  unfold afterHeader
  rw [run_get_bind, run_bind (run_ahead s 0), notTab]
  show (blockGap .v12 (some n) fuel [] 0 >>= _).run s = _
  rw [run_bind gap, run_get_bind, later]
  cases ending : (t.ahead 0 == endChar) with
  | true => rfl
  | false =>
    have outside : decide (s.indent < t.mark.column) = false := by
      rw [moved.column, decide_eq_false (by omega)]
    have stop := run_blockLines_stop (s := t) (n := n) (by rw [moved.column]; omega) fuel false
      ⟨[], [], [], List.replicate (a + 1) '\n'⟩
    simp only [outside, Bool.and_false, Bool.false_eq_true, if_false, List.nil_append]
    show (blockLines .v12 true n fuel false _ >>= _).run t = _
    rw [run_bind stop, run_get_bind, ending]
    rfl

end Scan

end TrafficIntent.Yaml
