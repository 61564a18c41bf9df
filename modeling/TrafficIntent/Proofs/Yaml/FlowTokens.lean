import TrafficIntent.Proofs.Yaml.Flow

namespace TrafficIntent.Yaml.Scan

open Json (Gap)

variable {s : State} {text gap : List Char} {shown : List Token} {d : Nat}

private theorem run_opening_between (map : Bool) (h : s.Between ((opening map).1 :: text) shown d) :
    ∃ t, (fetchToken .v11).run s = some ((), t) ∧ t.rest.length ≤ text.length ∧
      t.Between text (shown ++ [(opening map).2]) (d + 1) ∧ t.keyAllowed = true := by
  obtain ⟨ks, saved, between, -⟩ := run_saveCandidate_between h
  have fetched : (fetchToken .v11).run s = (fetchFlowStart .v11 (opening map).2).run s := by
    unfold fetchToken
    rw [run_get_bind, State.ahead_of_rest h.rest]
    cases map <;> rfl
  let u : State := { s with
    flowDepth := s.flowDepth + 1
    candidates := .none :: ks
    keyAllowed := true
    inFlowMapping := map || s.inFlowMapping }
  let t := (u.after [(opening map).1] text).push (opening map).2 s.mark
  refine ⟨t, ?_, Nat.le_refl _, ?_, rfl⟩
  · rw [fetched]
    unfold fetchFlowStart
    rw [run_bind saved, run_bind (run_mark _)]
    simp only [reduceCtorEq, if_false]
    let v : State := { u with inFlowMapping := s.inFlowMapping }
    have left : v.rest = (opening map).1 :: text := h.rest
    rw [run_modify_bind]
    show (skip >>= _).run v = _
    rw [run_bind (run_skip left)]
    cases map <;> rfl
  · apply between_push
    exact
      { rest := rfl
        shown := h.shown
        flowDepth := congrArg (· + 1) h.flowDepth
        indent := h.indent
        levels := h.levels
        free := by
          intro k hk
          cases List.mem_cons.1 hk with
          | inl none => rw [none]; rfl
          | inr outer => exact between.free k outer
        count := congrArg (· + 1) between.count }

private theorem run_closing_between (map : Bool)
    (h : s.Between ((closing map).1 :: text) shown (d + 1)) :
    ∃ t, (fetchToken .v11).run s = some ((), t) ∧ t.rest.length ≤ text.length ∧
      t.Between text (shown ++ [(closing map).2]) d := by
  obtain ⟨ks, dropped, between⟩ := run_dropCandidate_between h
  have fetched : (fetchToken .v11).run s = (fetchFlowEnd .v11 (closing map).2).run s := by
    unfold fetchToken
    rw [run_get_bind, State.ahead_of_rest h.rest]
    cases map <;> rfl
  obtain ⟨k, ls, same, -, count, free⟩ := exists_candidate between
  obtain rfl : ks = k :: ls := same
  let u := ({ s with flowDepth := d, candidates := ls } : State).allow false
  have left : (if (s.remembering (k :: ls)).flowDepth = 0 then s.remembering (k :: ls)
      else { s.remembering (k :: ls) with
        flowDepth := (s.remembering (k :: ls)).flowDepth - 1
        candidates := (s.remembering (k :: ls)).candidates.tail }) =
      ({ s with flowDepth := d, candidates := ls } : State) := by
    have deep : (s.remembering (k :: ls)).flowDepth = d + 1 := h.flowDepth
    rw [deep]
    rfl
  refine ⟨(u.after [(closing map).1] text).push (closing map).2 s.mark, ?_, Nat.le_refl _, ?_⟩
  · rw [fetched]
    unfold fetchFlowEnd
    rw [run_bind dropped, run_modify_bind, left, run_bind (run_allowKey _ _)]
    show (mark >>= _).run u = _
    rw [run_bind (run_mark u), run_bind (run_skip (s := u) h.rest)]
    rfl
  · apply between_push
    exact ⟨rfl, h.shown, rfl, h.indent, h.levels, free, count⟩

private theorem run_comma_between (h : s.Between (',' :: text) shown d) :
    ∃ t, (fetchToken .v11).run s = some ((), t) ∧ t.rest.length ≤ text.length ∧
      t.Between text (shown ++ [.flowEntry]) d ∧ t.keyAllowed = true := by
  obtain ⟨ks, dropped, between⟩ := run_dropCandidate_between h
  have fetched : (fetchToken .v11).run s = (fetchFlowEntry .v11).run s := by
    unfold fetchToken
    rw [run_get_bind, State.ahead_of_rest h.rest]
    rfl
  let u := (s.remembering ks).allow true
  refine ⟨(u.after [','] text).push .flowEntry s.mark, ?_, Nat.le_refl _, ?_, rfl⟩
  · rw [fetched]
    unfold fetchFlowEntry
    rw [run_bind dropped, run_bind (run_allowKey _ _)]
    show (mark >>= _).run u = _
    rw [run_bind (run_mark u), run_bind (run_skip (s := u) h.rest)]
    rfl
  · apply between_push
    exact between_moved between text _ _ true

/-- A colon after what may be a key makes it one. -/
private theorem run_colon_between {k : KeyCandidate} {ks : List KeyCandidate} {before : List Token}
    {name : Token} (h : s.Between (':' :: text) (before ++ [name]) (d + 1))
    (candidates : s.candidates = k :: ks) (possible : k.possible = true)
    (number : k.number = before.length) :
    ∃ t, (fetchToken .v11).run s = some ((), t) ∧ t.rest.length ≤ text.length ∧
      t.Between text (before ++ [.key, name, .value]) (d + 1) := by
  have flow : (s.flowDepth != 0) = true := by rw [h.flowDepth]; rfl
  have value : atValue .v11 s = true := by
    unfold atValue
    rw [State.ahead_of_rest h.rest, flow]
    simp
  have fetched : (fetchToken .v11).run s = (fetchValue .v11).run s := by
    unfold fetchToken
    rw [run_get_bind, State.ahead_of_rest h.rest, value, flow]
    rfl
  let u : State := { s with pairOpen := false, candidates := k :: ks }
  let v := u.after [':'] text
  let w := ((v.insert k .key).remembering ({ k with possible := false } :: ks)).allow false
  let t : State := { w with tokens := w.tokens.push ⟨.value, s.mark, v.mark⟩ }
  have between : w.Between text (before ++ [.key, name]) (d + 1) :=
    { rest := rfl
      shown := State.shown_insert (s := v) h.shown number .key
      flowDepth := h.flowDepth
      indent := h.indent
      levels := h.levels
      free := by
        have free := h.free
        rw [candidates] at free
        intro l hl
        cases List.mem_cons.1 hl with
        | inl own => rw [own]; exact free k List.mem_cons_self
        | inr outer => exact free l (List.mem_cons_of_mem _ outer)
      count := by
        have count := h.count
        rw [candidates] at count
        exact count }
  refine ⟨t, ?_, Nat.le_refl _, ?_⟩
  · rw [fetched]
    unfold fetchValue
    rw [run_bind (run_candidate s), run_bind (run_mark s), run_bind (run_inFlow s), run_get_bind,
      run_set_bind, candidates]
    simp only [List.headD_cons, possible, reduceCtorEq, decide_false, Bool.false_and, if_true,
      if_false, Bool.false_eq_true]
    show (skip >>= _).run u = _
    rw [run_bind (run_skip (s := u) h.rest), run_bind (run_mark _), run_bind (run_ahead _ _)]
    show (emitBefore k .key >>= _).run v = _
    rw [run_bind (run_emitBefore k .key)]
    have inside : (openBlock k.mark.column (some k) .blockMappingStart).run (v.insert k .key) =
        some ((), v.insert k .key) := by
      unfold openBlock
      have flow' : ((v.insert k .key).flowDepth != 0) = true := flow
      rw [run_bind (run_inFlow _), flow']
      rfl
    rw [run_bind inside, run_bind (run_setCandidate _), run_bind (run_allowKey _ _)]
    rfl
  · exact
      { rest := rfl
        shown := by
          have pushed : t.shown = w.shown ++ [.value] := State.shown_push w .value s.mark
          rw [pushed, between.shown, List.append_assoc]
          rfl
        flowDepth := h.flowDepth
        indent := h.indent
        levels := h.levels
        free := between.free
        count := between.count }

theorem starts_of_indicator {c : Char} (h : c ∈ ['[', '{', ']', '}', ',', ':', '\x22'])
    (text : List Char) : Starts c text := by
  have known : isOpening c = true ∧ c ≠ endChar ∧ c ≠ '%' ∧ c ≠ '-' ∧ c ≠ '.' := by
    simp only [List.mem_cons, List.not_mem_nil, or_false] at h
    rcases h with rfl | rfl | rfl | rfl | rfl | rfl | rfl <;> decide
  obtain ⟨opening, there, directive, minus, point⟩ := known
  exact ⟨opening, there, directive, fun mark => absurd mark (not_or.2 ⟨minus, point⟩)⟩

theorem fetches_flowOpening (map : Bool) (h : s.Between (gap ++ (opening map).1 :: text) shown d)
    (space : GapAt d gap) :
    ∃ t, Fetches .v11 s t ∧ t.Between text (shown ++ [(opening map).2]) (d + 1) ∧
      t.keyAllowed = true :=
  fetches_flowToken h space (starts_of_indicator (by cases map <;> decide) text)
    fun _ between _ _ => run_opening_between map between

theorem fetches_flowClosing (map : Bool)
    (h : s.Between (gap ++ (closing map).1 :: text) shown (d + 1)) (space : Gap gap) :
    ∃ t, Fetches .v11 s t ∧ t.Between text (shown ++ [(closing map).2]) d :=
  fetches_flowToken h (gapAt_succ space) (starts_of_indicator (by cases map <;> decide) text)
    fun _ between _ _ => run_closing_between map between

theorem fetches_comma (h : s.Between (gap ++ ',' :: text) shown (d + 1)) (space : Gap gap) :
    ∃ t, Fetches .v11 s t ∧ t.Between text (shown ++ [.flowEntry]) (d + 1) ∧ t.keyAllowed = true :=
  fetches_flowToken h (gapAt_succ space) (starts_of_indicator (by decide) text)
    fun _ between _ _ => run_comma_between between

/-- The colon after a key, on the key's line and near enough to its start. -/
theorem fetches_flowColon {k : KeyCandidate} {ks : List KeyCandidate} {before : List Token}
    {name : Token} {blanks : List Char}
    (h : s.Between (blanks ++ ':' :: text) (before ++ [name]) (d + 1))
    (blank : ∀ c ∈ blanks, c = ' ' ∨ c = '\t') (candidates : s.candidates = k :: ks)
    (possible : k.possible = true) (number : k.number = before.length)
    (line : k.mark.line = s.mark.line)
    (near : (s.mark.passing blanks).offset ≤ k.mark.offset + 1024) :
    ∃ t, Fetches .v11 s t ∧ t.Between text (before ++ [.key, name, .value]) (d + 1) := by
  apply fetches_flowToken h (gapAt_succ (Json.gap_of_blanks blank))
    (starts_of_indicator (by decide) text)
  intro u between _ kept
  have blank' : ∀ c ∈ blanks, isBlank c = true := by
    intro c hc
    cases blank c hc with
    | inl space => rw [space]; rfl
    | inr tab => rw [tab]; rfl
  obtain ⟨ls, candidates'⟩ := kept k ks blank' candidates line near
  exact run_colon_between between candidates' possible number

end TrafficIntent.Yaml.Scan
