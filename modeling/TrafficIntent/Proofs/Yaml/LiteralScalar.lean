import TrafficIntent.Proofs.Yaml.BlockLines
import TrafficIntent.Yaml.Writer

/-!
Reading texts that are written line by line into a block. The older edition has line breaks that the
newer one does not know: it indents what comes after them, and the indentation is read as text.
-/

namespace TrafficIntent.Yaml

/-- Whether the lines of a text are the same in both editions of the notation, as far as the older
one indents them: a break that only it knows stands in no line's first place, and has another break
right after it. -/
def KeepsLines : Bool → List Char → Prop
  | _, [] => True
  | start, c :: cs =>
    if c = '\n' then KeepsLines true cs
    else (isLineBreak c = true → start = false ∧ isLineBreak (cs.headD ' ') = true) ∧
      KeepsLines false cs

/-- No line starts with a break that only the older edition knows. -/
def Firm : Bool → List Char → Prop
  | _, [] => True
  | start, c :: cs =>
    if c = '\n' then Firm true cs else (isLineBreak c = true → start = false) ∧ Firm false cs

/-- What is read of the lines: the indentation after the breaks that only the older edition knows is
text. -/
def spread (n : Nat) : Bool → List Char → List Char
  | _, [] => []
  | odd, c :: cs =>
    if isLineBreak c then c :: spread n (c != '\n') cs
    else if odd then List.replicate n ' ' ++ c :: spread n false cs
    else c :: spread n false cs

theorem KeepsLines.firm {start : Bool} {cs : List Char} (h : KeepsLines start cs) :
    Firm start cs := by
  induction cs generalizing start with
  | nil => trivial
  | cons c cs ih =>
    rw [KeepsLines] at h
    rw [Firm]
    by_cases line : c = '\n'
    · rw [if_pos line] at h ⊢
      exact ih h
    · rw [if_neg line] at h ⊢
      exact ⟨fun brk => (h.1 brk).1, ih h.2⟩

/-- Where a break comes next it does not matter what was before it. -/
theorem spread_of_break {cs : List Char} (h : isLineBreak (cs.headD ' ') = true) (n : Nat) :
    spread n true cs = spread n false cs := by
  cases cs with
  | nil => rfl
  | cons c cs =>
    have first : isLineBreak c = true := h
    rw [spread, spread, if_pos first, if_pos first]

theorem KeepsLines.spread {start : Bool} {cs : List Char} (h : KeepsLines start cs) (n : Nat) :
    spread n false cs = cs := by
  induction cs generalizing start with
  | nil => rfl
  | cons c cs ih =>
    rw [KeepsLines] at h
    rw [Yaml.spread]
    by_cases line : c = '\n'
    · rw [if_pos line] at h
      subst line
      have brk : isLineBreak '\n' = true := rfl
      rw [if_pos brk]
      exact congrArg _ (ih h)
    · rw [if_neg line] at h
      have step := ih h.2
      cases brk : isLineBreak c with
      | true =>
        have odd : (c != '\n') = true := by simpa using line
        rw [if_pos rfl, odd, spread_of_break (h.1 brk).2, step]
      | false => rw [if_neg (by simp), if_neg (by simp), step]

/-- Firm lines are indented by the newer edition as they are by the older one, if what it takes for
text is among them. -/
theorem indented_eq_margined (n : Nat) {cs : List Char} (start odd : Bool) (h : Firm start cs)
    (apart : odd = true → start = false) :
    indented n (start || odd) cs = margined n start (spread n odd cs) := by
  induction cs generalizing start odd with
  | nil => rfl
  | cons c cs ih =>
    rw [Firm] at h
    rw [indented, spread]
    by_cases line : c = '\n'
    · subst line
      rw [if_pos rfl] at h
      have brk : isLineBreak '\n' = true := rfl
      have step := ih true false h (by simp)
      rw [if_pos brk, if_pos brk, margined, if_pos rfl]
      exact congrArg _ step
    · rw [if_neg line] at h
      cases brk : isLineBreak c with
      | true =>
        have inside := h.1 brk
        have odd : (c != '\n') = true := by simpa using line
        have step := ih false true h.2 (by simp)
        rw [if_pos rfl, if_pos rfl, margined, if_neg line, inside, odd, ← step]
        rfl
      | false =>
        have step := ih false false h.2 (by simp)
        simp only [Bool.false_eq_true, if_false]
        cases odd with
        | true =>
          have inside := apart rfl
          subst inside
          have blanks : '\n' ∉ List.replicate n ' ' := by simp
          rw [if_pos rfl, margined_line blanks, margined, if_neg line, ← step]
          rfl
        | false =>
          rw [if_neg (by simp : ¬false = true), margined, if_neg line, ← step]
          cases start <;> rfl

theorem KeepsLines.indented {cs : List Char} (h : KeepsLines true cs) (n : Nat) :
    indented n true cs = margined n true cs := by
  have same := indented_eq_margined n true false h.firm (by simp)
  rwa [Bool.or_false, h.spread n] at same

/-- No break that the newer edition does not know ends a text. -/
theorem KeepsLines.last {start : Bool} {cs : List Char} {c : Char} (h : KeepsLines start cs)
    (hc : cs.getLast? = some c) (other : c ≠ '\n') : isLineBreak c = false := by
  induction cs generalizing start with
  | nil => contradiction
  | cons d cs ih =>
    cases cs with
    | nil =>
      have same : d = c := by simpa using hc
      subst same
      rw [KeepsLines, if_neg other] at h
      cases brk : isLineBreak d with
      | false => rfl
      | true => exact absurd (h.1 brk).2 (by decide)
    | cons e cs =>
      rw [List.getLast?_cons_cons] at hc
      by_cases line : d = '\n'
      · rw [KeepsLines, if_pos line] at h
        exact ih h hc
      · rw [KeepsLines, if_neg line] at h
        exact ih h.2 hc

namespace Scan

variable {s t : State}

/-- What the end of a text asks for in the header. -/
private theorem exists_chomping {a t : Nat} {core : List Char} (hne : core ≠ [])
    (last : ∀ c, core.getLast? = some c → t = 0 → isLineBreak c = false) :
    ∃ c k, chompingMark (List.replicate a '\n' ++ (core ++ List.replicate t '\n')) =
        Chomping.mark c ∧
      c.left k = List.replicate t '\n' ∧ k + 1 = max t 1 := by
  obtain ⟨x, xs, reversed⟩ : ∃ x xs, core.reverse = x :: xs :=
    List.exists_cons_of_ne_nil (by simpa using hne)
  have ending : core.getLast? = some x := by
    rw [List.getLast?_eq_head?_reverse, reversed]
    rfl
  unfold chompingMark
  rw [List.reverse_append, List.reverse_append, List.reverse_replicate, reversed]
  match t with
  | 0 =>
    refine ⟨.strip, 0, ?_, rfl, rfl⟩
    show (if (!isLineBreak x) = true then ['-'] else _) = _
    rw [last x ending rfl]
    rfl
  | 1 =>
    cases brk : isLineBreak x with
    | true =>
      refine ⟨.keep, 0, ?_, rfl, rfl⟩
      show (if (!isLineBreak '\n') = true then _ else
        if isLineBreak x = true then ['+'] else []) = _
      rw [brk]
      rfl
    | false =>
      refine ⟨.clip, 0, ?_, rfl, rfl⟩
      show (if (!isLineBreak '\n') = true then _ else
        if isLineBreak x = true then ['+'] else []) = _
      rw [brk]
      rfl
  | t + 2 => exact ⟨.keep, t + 1, rfl, rfl, by omega⟩

theorem endLine_of_last {cs : List Char} {c : Char} (hc : cs.getLast? = some c)
    (other : isLineBreak c = false) : endLine cs = cs ++ ['\n'] := by
  have brk : isBreak .v11 c = false := other
  unfold endLine
  rw [hc]
  simp [brk]

theorem endLine_newlines (cs : List Char) (k : Nat) :
    endLine (cs ++ List.replicate (k + 1) '\n') = cs ++ List.replicate (k + 1) '\n' := by
  have last : (cs ++ List.replicate (k + 1) '\n').getLast? = some '\n' := by
    rw [List.getLast?_append, List.getLast?_replicate]
    rfl
  unfold endLine
  rw [last]
  rfl

/-- A text gets a line break at its end if it has none there. -/
private theorem endLine_append {cs : List Char} {c : Char} {t k : Nat} (hc : cs.getLast? = some c)
    (other : t = 0 → isLineBreak c = false) (hk : k + 1 = max t 1) :
    endLine (cs ++ List.replicate t '\n') = cs ++ '\n' :: List.replicate k '\n' := by
  cases t with
  | zero =>
    obtain rfl : k = 0 := by omega
    rw [List.replicate_zero, List.append_nil]
    exact endLine_of_last hc (other rfl)
  | succ t =>
    obtain rfl : k = t := by omega
    exact endLine_newlines cs k

/-- How empty lines are written. -/
private theorem written_newlines (n a : Nat) :
    endLine (blockHeaderOf (List.replicate (a + 1) '\n') ++
        '\n' :: margined n true (List.replicate (a + 1) '\n')) =
      '|' :: (header true .keep ++ '\n' :: List.replicate (a + 1) '\n') := by
  have mark : chompingMark (List.replicate (a + 1) '\n') = ['+'] := by
    unfold chompingMark
    rw [List.reverse_replicate]
    cases a <;> rfl
  have written : blockHeaderOf (List.replicate (a + 1) '\n') = '|' :: header true .keep := by
    unfold blockHeaderOf
    rw [mark]
    rfl
  have lines := margined_newlines n (a + 1) true []
  have ended := endLine_newlines ('|' :: (header true .keep ++ ['\n'])) a
  rw [List.append_nil] at lines
  rw [lines, margined, List.append_nil, written]
  simpa using ended

/-- How lines are written that neither start nor end with an empty one, with empty ones before and
after them. -/
private theorem exists_written_core (a t n : Nat) {d : Char} {ds : List Char} (other : d ≠ '\n')
    (ends : ∀ c, (d :: ds).getLast? = some c → t = 0 → isLineBreak c = false) :
    ∃ k two c, Chomping.left k c = List.replicate t '\n' ∧ (two = false → a = 0 ∧ d ≠ ' ') ∧
      endLine (blockHeaderOf (List.replicate a '\n' ++ (d :: ds ++ List.replicate t '\n')) ++
          '\n' :: margined n true
            (List.replicate a '\n' ++ (d :: ds ++ List.replicate t '\n'))) =
        '|' :: (header two c ++ '\n' :: (List.replicate a '\n' ++ (List.replicate n ' ' ++
          (margined n false (d :: ds) ++ '\n' :: List.replicate k '\n')))) := by
  obtain ⟨c, k, mark, left, count⟩ := exists_chomping (a := a) (t := t) (by simp) ends
  obtain ⟨x, final⟩ : ∃ x, (d :: ds).getLast? = some x := by
    rw [List.getLast?_cons]
    exact ⟨_, rfl⟩
  let two := decide (a ≠ 0) || (d == ' ' || isLineBreak d)
  have lines : margined n true (List.replicate a '\n' ++ (d :: ds ++ List.replicate t '\n')) =
      List.replicate a '\n' ++ (List.replicate n ' ' ++
        (margined n false (d :: ds) ++ List.replicate t '\n')) := by
    rw [margined_newlines, ite_self, margined_append_newlines, margined_start n ds other]
    simp
  have header' : blockHeaderOf (List.replicate a '\n' ++ (d :: ds ++ List.replicate t '\n')) =
      '|' :: header two c := by
    unfold blockHeaderOf header
    rw [mark]
    congr 2
    cases a with
    | zero => rfl
    | succ a => rfl
  let before := ('|' :: (header two c ++ '\n' :: (List.replicate a '\n' ++
    List.replicate n ' '))) ++ margined n false (d :: ds)
  have last : before.getLast? = some x := by
    rw [List.getLast?_append, getLast?_margined, final]
    rfl
  have ended := endLine_append last (ends x final) count
  refine ⟨k, two, c, left, ?_, ?_⟩
  · intro none
    simp only [two, Bool.or_eq_false_iff, decide_eq_false_iff_not, not_not] at none
    exact ⟨none.1, by simpa using none.2.1⟩
  · rw [lines, header']
    simpa [before] using ended

/-- How lines are written in a block: they are all empty, or there are empty ones before and after
the others. -/
theorem exists_written {cs : List Char} (n : Nat)
    (ends : ∀ c, cs.getLast? = some c → c ≠ '\n' → isLineBreak c = false) (hne : cs ≠ []) :
    (∃ a, cs = List.replicate (a + 1) '\n' ∧
        endLine (blockHeaderOf cs ++ '\n' :: margined n true cs) =
          '|' :: (header true .keep ++ '\n' :: List.replicate (a + 1) '\n')) ∨
      ∃ a core k two c, cs = List.replicate a '\n' ++ core ++ Chomping.left k c ∧ core ≠ [] ∧
        core.head? ≠ some '\n' ∧ core.getLast? ≠ some '\n' ∧
        (two = false → a = 0 ∧ core.head? ≠ some ' ') ∧
        endLine (blockHeaderOf cs ++ '\n' :: margined n true cs) =
          '|' :: (header two c ++ '\n' :: (List.replicate a '\n' ++ (List.replicate n ' ' ++
            (margined n false core ++ '\n' :: List.replicate k '\n')))) := by
  cases exists_core '\n' cs with
  | inl all =>
    left
    obtain ⟨a, rfl⟩ := all
    cases a with
    | zero => exact absurd rfl hne
    | succ a => exact ⟨a, rfl, written_newlines n a⟩
  | inr some =>
    right
    obtain ⟨a, core, t, rfl, coreNe, first, last⟩ := some
    obtain ⟨d, ds, rfl⟩ := List.exists_cons_of_ne_nil coreNe
    have ending : ∀ c, (d :: ds).getLast? = Option.some c → t = 0 → isLineBreak c = false := by
      intro c hc none
      subst none
      refine ends c ?_ (by intro same; exact last (by rw [hc, same]))
      rw [List.replicate_zero, List.append_nil, List.getLast?_append, hc]
      rfl
    obtain ⟨k, two, c, left, plain, written⟩ :=
      exists_written_core a t n (by simpa using first) ending
    refine ⟨a, d :: ds, k, two, c, by rw [left, List.append_assoc], coreNe, first, last, ?_,
      written⟩
    intro none
    obtain ⟨noLines, noSpace⟩ := plain none
    exact ⟨noLines, by simpa using noSpace⟩

/-- Lines are read as they are if the newer edition indents them, up to the indentation of what
comes after them. -/
theorem run_blockScalar {u : State} {cs body : List Char} {m n : Nat} {blocks : List Nat}
    (h : u.rest = endLine (blockHeaderOf cs ++ '\n' :: margined n true cs) ++
      (List.replicate m ' ' ++ body))
    (ends : ∀ c, cs.getLast? = some c → c ≠ '\n' → isLineBreak c = false) (hne : cs ≠ [])
    (fine : ∀ c ∈ cs, c ≠ '\n' → isBreakOrEnd .v12 c = false) (inside : Inside u.indent u.levels blocks)
    (hn : (n : Int) = innermost blocks + 2) (hi : 0 ≤ innermost blocks) (ho : Opens body)
    (hm : (m : Int) ≤ innermost blocks) :
    ∃ t, (blockScalar .v12 true).run u = some (.scalar .literal (String.ofList cs), t) ∧
      (u.within (innermost blocks) (levelsOf blocks)).MovesTo t body m ∧
      u.mark.line < t.mark.line := by
  cases exists_written n ends hne with
  | inl empty =>
    obtain ⟨a, rfl, written⟩ := empty
    have rest : u.rest = '|' :: (header true .keep ++ '\n' :: (List.replicate (a + 1) '\n' ++
        (List.replicate m ' ' ++ body))) := by
      rw [h, written]
      simp
    obtain ⟨v, run, moved, line⟩ := run_blockScalar_header rest inside
    have indent : v.indent = innermost blocks := by rw [moved.same]; rfl
    obtain ⟨t, lines, moved'⟩ := run_afterHeader_empty moved.rest
      moved.column (by omega) (by omega) ho line (show a + 1 < u.rest.length + 1 by
        rw [rest]
        simp
        omega)
    refine ⟨t, ?_, moved.trans moved', Nat.lt_of_lt_of_le line moved'.line⟩
    rw [run]
    exact lines
  | inr text =>
    obtain ⟨a, core, k, two, c, rfl, coreNe, first, last, plain, written⟩ := text
    have rest : u.rest = '|' :: (header two c ++ '\n' :: (List.replicate a '\n' ++
        (List.replicate n ' ' ++ (margined n false core ++
          '\n' :: (List.replicate k '\n' ++ (List.replicate m ' ' ++ body)))))) := by
      rw [h, written]
      simp
    obtain ⟨v, run, moved, line⟩ := run_blockScalar_header rest inside
    have indent : v.indent = innermost blocks := by rw [moved.same]; rfl
    obtain ⟨t, lines, moved'⟩ := run_afterHeader moved.rest moved.column
      (by omega) (by omega) (by omega) plain coreNe first last
      (fun c hc => fine c (by simp [hc])) ho u.mark
      (show a + core.length < u.rest.length + 1 by
        rw [rest]
        have := length_le_margined n false core
        simp
        omega)
    refine ⟨t, ?_, moved.trans moved', Nat.lt_of_lt_of_le line moved'.line⟩
    rw [run, lines]

/-- What is written in a block starts with a bar. -/
private theorem exists_bar {cs : List Char} (n : Nat) (tail : List Char)
    (ends : ∀ c, cs.getLast? = some c → c ≠ '\n' → isLineBreak c = false) (hne : cs ≠ []) :
    ∃ text, endLine (blockHeaderOf cs ++ '\n' :: margined n true cs) ++ tail = '|' :: text ∧
      tail.length ≤ text.length := by
  cases exists_written n ends hne with
  | inl empty =>
    obtain ⟨a, -, written⟩ := empty
    rw [written]
    exact ⟨_, rfl, by simp; omega⟩
  | inr text =>
    obtain ⟨a, core, k, two, c, -, -, -, -, -, written⟩ := text
    rw [written]
    exact ⟨_, rfl, by simp; omega⟩

private theorem fetchToken_bar {text : List Char} (h : s.rest = '|' :: text)
    (hf : s.flowDepth = 0) :
    (fetchToken .v12).run s = (fetchBlockScalar .v12 true).run s := by
  have value : atValue .v12 s = false := by
    unfold atValue
    rw [State.ahead_of_rest h]
    rfl
  have block : (s.flowDepth != 0) = false := by simp [hf]
  unfold fetchToken
  rw [run_get_bind, State.ahead_of_rest h, value, block]
  rfl

/-- A value in a block is read with the spaces of the line after it. -/
theorem fetches_literal {cs body : List Char} {column m n : Nat} {shown : List Token}
    {blocks : List Nat}
    (h : s.Ready (endLine (blockHeaderOf cs ++ '\n' :: indented n true cs) ++
      (List.replicate m ' ' ++ body)) column shown blocks)
    (keeps : KeepsLines true cs) (hne : cs ≠ [])
    (fine : ∀ c ∈ cs, c ≠ '\n' → isBreakOrEnd .v12 c = false) (hn : (n : Int) = innermost blocks + 2)
    (hi : 0 ≤ innermost blocks) (ho : Opens body) (hm : (m : Int) ≤ innermost blocks)
    (hk : s.keyAllowed = true → s.indent < s.mark.column) :
    ∃ t, Fetches .v12 s t ∧ t.At body m (shown ++ [.scalar .literal (String.ofList cs)]) blocks ∧
      t.keyAllowed = true := by
  obtain ⟨k, saved, idle⟩ := exists_saved h hk
  let u := (s.remembering [k]).allow true
  have ends := fun c => keeps.last (c := c)
  rw [keeps.indented n] at h
  obtain ⟨v, scalar, moved, line⟩ :=
    run_blockScalar (u := u) h.rest ends hne fine h.inside hn hi ho hm
  obtain ⟨text, bar, shorter⟩ := exists_bar n (List.replicate m ' ' ++ body) ends hne
  have start : s.rest = '|' :: text := h.rest.trans bar
  let t := v.push (.scalar .literal (String.ofList cs)) s.mark
  have fetched : (fetchToken .v12).run s = some ((), t) := by
    rw [fetchToken_bar start h.flowDepth]
    unfold fetchBlockScalar
    show (saveCandidate .v12 >>= _).run s = _
    rw [run_bind saved, run_bind (run_allowKey _ _), run_bind (run_mark _)]
    show (blockScalar .v12 true >>= _).run u = _
    rw [run_bind scalar]
    rfl
  have same := moved.same
  refine ⟨t, ?_, ?_, ?_⟩
  · apply fetches_token (run_settle_ready h) start (by decide) (by decide)
      (atDocumentMark_of_head start (by decide) (by decide)) h.indented fetched
    show v.rest.length ≤ _
    rw [moved.rest]
    rw [List.length_append] at shorter
    omega
  · exact
      { rest := moved.rest
        column := moved.column
        shown := by rw [State.shown_push, ← h.shown, same]; rfl
        inside := by
          have exact := Inside.exact blocks
          show Inside v.indent v.levels blocks
          rw [same]
          exact exact
        flowDepth := by
          show v.flowDepth = 0
          rw [same]
          exact h.flowDepth
        pairOpen := by
          show v.pairOpen = false
          rw [same]
          exact h.pairOpen
        idle := by
          refine State.idle_of_saved ?_ idle line
          show v.candidates = [k]
          rw [same]
          rfl }
  · show v.keyAllowed = true
    rw [same]
    rfl

end Scan

end TrafficIntent.Yaml
