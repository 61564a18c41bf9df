import TrafficIntent.Proofs.Yaml.Columns

namespace TrafficIntent.Yaml

/-- The token of a map that starts at a column, if the scanner is not in it already. -/
def mapStart (column : Nat) (blocks : List Nat) : List Token :=
  if innermost blocks < column then [.blockMappingStart] else []

/-- The blocks once a key has been read at a column. -/
def entered (column : Nat) (blocks : List Nat) : List Nat :=
  if innermost blocks < column then column :: blocks else blocks

namespace Scan

variable {s t : State}

private theorem fetchToken_value {rest : List Char} (h : s.rest = ':' :: rest)
    (hr : isBlankOrEnd .v12 (rest.headD endChar) = true) :
    (fetchToken .v12).run s = (fetchValue .v12).run s := by
  have value : atValue .v12 s = true := by
    unfold atValue
    rw [State.ahead_of_rest h, State.ahead_one_of_rest h]
    simp only [hr]
    rfl
  unfold fetchToken
  rw [run_get_bind, State.ahead_of_rest h, value]
  rfl

/-- A map is entered before a candidate, unless the scanner is in it already. -/
private theorem exists_openedMap {k : KeyCandidate} {blocks : List Nat} {before after : List Token}
    {column : Nat} (number : k.number = before.length) (shown : s.shown = before ++ after)
    (hi : Inside s.indent s.levels blocks) (hf : s.flowDepth = 0) (hb : s.indent ≤ column) :
    ∃ t, (openBlock column (some k) .blockMappingStart).run s = some ((), t) ∧
      t = { s with tokens := t.tokens, indent := t.indent, levels := t.levels } ∧
      t.shown = before ++ mapStart column blocks ++ after ∧
      Inside t.indent t.levels (entered column blocks) := by
  have opened := run_openBlock hi hf hb (some k) .blockMappingStart
  unfold mapStart entered
  by_cases deeper : innermost blocks < column
  · rw [if_pos deeper] at opened ⊢
    rw [if_pos deeper]
    let within := s.within column (levelsOf (column :: blocks))
    refine ⟨within.insert k .blockMappingStart, opened, rfl, ?_, Inside.exact (column :: blocks)⟩
    rw [State.shown_insert (s := within) shown number]
    simp
  · rw [if_neg deeper] at opened ⊢
    rw [if_neg deeper]
    exact ⟨s, opened, rfl, by rw [shown, List.append_nil], hi⟩

/-- The colon after a candidate makes it a key. -/
private theorem run_fetchValue {rest : List Char} {k : KeyCandidate} {blocks : List Nat}
    {before after : List Token} {column : Nat} (h : s.rest = ':' :: rest) (hr : rest.headD ' ' ≠ '\t')
    (hc : s.candidates = [k]) (possible : k.possible = true) (hk : k.mark.column = column)
    (number : k.number = before.length) (shown : s.shown = before ++ after)
    (hi : Inside s.indent s.levels blocks) (hf : s.flowDepth = 0) (hb : s.indent ≤ column) :
    ∃ t, (fetchValue .v12).run s = some ((), t) ∧ t.rest = rest ∧ t.mark = s.mark.past ':' ∧
      t.shown = before ++ mapStart column blocks ++ .key :: after ++ [.value] ∧
      Inside t.indent t.levels (entered column blocks) ∧ t.flowDepth = 0 ∧ t.pairOpen = false ∧
      t.candidates = [{ k with possible := false }] := by
  have block : (s.flowDepth != 0) = false := by simp [hf]
  let s0 : State := { s with pairOpen := false }
  let s1 := s0.after [':'] rest
  let s2 := s1.insert k .key
  have head : s.candidates.headD .none = k := by rw [hc]; rfl
  have first : (s1.ahead 0 == '\t') = false := by
    rw [State.ahead_zero, beq_eq_false_iff_ne]
    show rest.headD endChar ≠ '\t'
    cases rest with
    | nil => decide
    | cons c rest => exact hr
  have keyed : s2.shown = before ++ .key :: after :=
    State.shown_insert (s := s1) shown number .key
  have inside : Inside s2.indent s2.levels blocks := hi
  obtain ⟨s3, opened, same, started, entered⟩ := exists_openedMap number keyed inside hf hb
  have flow : s3.flowDepth = 0 := by
    rw [same]
    exact hf
  obtain ⟨i, ls, indented, within, -⟩ := run_indentOne entered flow
  let s4 := ((s3.within i ls).remembering [{ k with possible := false }]).allow false
  let t : State := { s4 with tokens := s4.tokens.push ⟨.value, s.mark, s1.mark⟩ }
  have tail : (s3.within i ls).candidates.tail = [] := by
    show s3.candidates.tail = []
    rw [same]
    show s.candidates.tail = []
    rw [hc]
    rfl
  refine ⟨t, ?_, ?_, ?_, ?_, within, flow, ?_, rfl⟩
  · unfold fetchValue
    rw [run_bind (run_candidate s), run_bind (run_mark s), run_bind (run_inFlow s), run_get_bind,
      run_set_bind, head, block]
    simp only [Bool.and_false, Bool.false_and]
    show (skip >>= _).run s0 = _
    rw [run_bind (run_skip (s := s0) h)]
    show (mark >>= _).run s1 = _
    rw [run_bind (run_mark s1), run_bind (run_ahead s1 0), first]
    simp only [Bool.and_false, Bool.false_eq_true, if_false, possible, if_true]
    show (emitBefore k .key >>= _).run s1 = _
    rw [run_bind (run_emitBefore k .key), hk]
    show (openBlock column (some k) .blockMappingStart >>= _).run s2 = _
    rw [run_bind opened]
    show (indentOne >>= _).run s3 = _
    rw [run_bind indented]
    show (setCandidate { k with possible := false } >>= _).run (s3.within i ls) = _
    rw [run_bind (run_setCandidate _), tail]
    rfl
  · show s3.rest = rest
    rw [same]
    rfl
  · show s3.mark = s.mark.past ':'
    rw [same]
    rfl
  · show ((s3.tokens.push _).toList.map Lexeme.token) = _
    rw [Array.toList_push, List.map_append]
    show s3.shown ++ [.value] = _
    rw [started]
  · show s3.pairOpen = false
    rw [same]
    rfl

/-- The token before a colon becomes a key, and a map is entered if it is the first one. -/
theorem fetches_colon {text : List Char} {start width : Nat} {shown : List Token} {token : Token}
    {blocks : List Nat} (h : s.AtColon text start width shown token blocks)
    (hr : text.headD ' ' = ' ' ∨ text.headD ' ' = '\n') (hw : 0 < width ∧ width ≤ 1024) :
    ∃ t, Fetches .v12 s t ∧
      t.At text (start + width + 1) (shown ++ mapStart start blocks ++ [.key, token, .value])
        (entered start blocks) := by
  have blank : isBlankOrEnd .v12 (text.headD endChar) = true ∧ text.headD ' ' ≠ '\t' := by
    cases text with
    | nil => decide
    | cons c text =>
      cases hr with
      | inl space =>
        have same : c = ' ' := space
        rw [same]
        exact ⟨rfl, by simp⟩
      | inr line =>
        have same : c = '\n' := line
        rw [same]
        exact ⟨rfl, by simp⟩
  obtain ⟨k, candidates, possible, number, mark, line, index⟩ := h.candidate
  have column := h.column
  have indented := h.indented
  have fresh : ∀ l ∈ s.candidates, stale s l = false := by
    intro l hl
    have same : l = k := by simpa [candidates] using hl
    simp [stale, same, index, line]
    omega
  have settled : settle.run s = some (s.mark.column, s) :=
    run_settle_same (by rw [h.rest]; rfl) h.flowDepth (by omega) fresh
  obtain ⟨t, run, rest', mark', shown', inside, flow, pair, remembered⟩ :=
    run_fetchValue h.rest blank.2 candidates possible mark number h.shown h.inside h.flowDepth
      indented
  have fetched : Fetches .v12 s t := by
    apply fetches_token settled h.rest (by decide) (by decide)
      (atDocumentMark_of_column (by omega)) (by omega)
    · rw [fetchToken_value h.rest blank.1, run]
    · exact Nat.le_of_eq (congrArg List.length rest')
  refine ⟨t, fetched, ?_⟩
  exact
    { rest := rest'
      column := by
        rw [mark']
        show s.mark.column + 1 = _
        rw [column]
      shown := by rw [shown']; simp
      inside := inside
      flowDepth := flow
      pairOpen := pair
      idle := ⟨_, remembered, fun contra => by simp at contra⟩ }

end Scan

end TrafficIntent.Yaml
