import TrafficIntent.Proofs.Yaml.Columns

namespace TrafficIntent.Yaml.Scan

variable {s t : State} {text : List Char}

/-- The brackets of a list or of a map, with their tokens. -/
def opening (map : Bool) : Char × Token :=
  if map then ('{', .flowMappingStart) else ('[', .flowSequenceStart)

def closing (map : Bool) : Char × Token :=
  if map then ('}', .flowMappingEnd) else (']', .flowSequenceEnd)

/-- The state between brackets that have just been opened. -/
private def bracketed (s : State) (map : Bool) (k : KeyCandidate) : State :=
  { s with
    flowDepth := s.flowDepth + 1
    candidates := [.none, k]
    keyAllowed := true
    inFlowMapping := map || s.inFlowMapping }

private theorem run_opening {map : Bool} {k : KeyCandidate} {i : Int} {ls : List Level}
    (h : s.rest = (opening map).1 :: text)
    (saved : (saveCandidate .v12).run s = some ((), s.remembering [k]))
    (indented : indentOne.run (s.remembering [k]) = some ((), (s.remembering [k]).within i ls))
    (hf : s.flowDepth = 0) (ht : ∀ c ∈ text.head?, c ≠ ' ' ∧ c ≠ '\t' ∧ c ≠ '#') :
    (fetchToken .v12).run s = some ((),
      (((bracketed (s.within i ls) map k).after [(opening map).1] text).push (opening map).2
        s.mark)) := by
  let u := (bracketed (s.within i ls) map k).after [(opening map).1] text
  have blanks : (passBlanks true).run u = some ((false, false), u) := run_passBlanks_none true ht
  have fetched : (fetchToken .v12).run s = (fetchFlowStart .v12 (opening map).2).run s := by
    unfold fetchToken
    rw [run_get_bind, State.ahead_of_rest h]
    cases map <;> rfl
  rw [fetched]
  unfold fetchFlowStart
  rw [run_bind saved, run_bind (run_mark _)]
  show (indentOne >>= _).run (s.remembering [k]) = _
  rw [run_bind indented, run_get_bind]
  have free : ((s.remembering [k]).within i ls).flowDepth = 255 ↔ False := by
    show s.flowDepth = 255 ↔ False
    simp [hf]
  simp only [free, if_false]
  rw [run_modify_bind]
  let v := { bracketed (s.within i ls) map k with inFlowMapping := s.inFlowMapping }
  have left : v.rest = (opening map).1 :: text := h
  show (skip >>= _).run v = _
  rw [run_bind (run_skip left)]
  cases map with
  | true =>
    rw [if_pos (show (opening true).2 = .flowMappingStart from rfl), run_modify_bind]
    show (passBlanks true >>= _).run u = _
    rw [run_bind blanks]
    rfl
  | false =>
    show (passBlanks true >>= _).run u = _
    rw [run_bind blanks]
    rfl

private theorem run_closing {map : Bool} {k : KeyCandidate} (h : s.rest = (closing map).1 :: text)
    (hc : s.candidates = [.none, k]) (hf : s.flowDepth = 1) (hp : s.pairOpen = false)
    (ht : ∀ c ∈ text.head?, c ≠ ' ' ∧ c ≠ '\t' ∧ c ≠ '#') :
    (fetchToken .v12).run s = some ((),
      ((({ s with flowDepth := 0, candidates := [k] } : State).allow false).after
        [(closing map).1] text).push (closing map).2 s.mark) := by
  let u := ({ s with flowDepth := 0, candidates := [k] } : State).allow false
  let v := u.after [(closing map).1] text
  have blanks : (passBlanks true).run v = some ((false, false), v) := run_passBlanks_none true ht
  have fetched : (fetchToken .v12).run s = (fetchFlowEnd .v12 (closing map).2).run s := by
    unfold fetchToken
    rw [run_get_bind, State.ahead_of_rest h]
    cases map <;> rfl
  have left : (if s.flowDepth = 0 then s
      else { s with flowDepth := s.flowDepth - 1, candidates := s.candidates.tail }) =
      ({ s with flowDepth := 0, candidates := [k] } : State) := by
    rw [hf, hc]
    rfl
  have single : closePair.run u = some ((), u) := by
    unfold closePair
    rw [run_get_bind]
    show (if s.pairOpen = true then _ else _ : Scan Unit).run u = _
    rw [hp]
    rfl
  have block : (v.flowDepth != 0) = false := rfl
  rw [fetched]
  unfold fetchFlowEnd
  rw [run_bind (run_dropCandidate hc rfl), run_modify_bind, left, run_bind (run_allowKey _ _)]
  show (closePair >>= _).run u = _
  rw [run_bind single]
  show (mark >>= _).run u = _
  rw [run_bind (run_mark u), run_bind (run_skip (s := u) h)]
  show (passBlanks true >>= _).run v = _
  rw [run_bind blanks, run_bind (run_inFlow v), block]
  rfl

private theorem run_settle_flow (ho : Opens s.rest) (hf : s.flowDepth = 1) :
    settle.run s = some (s.mark.column, s) := by
  have kept : (dropStale .v12).run s = some ((), s) := by
    unfold dropStale
    rw [run_get_bind, hf]
    rfl
  have none : (closeBlocks s.mark.column).run s = some ((), s) := by
    unfold closeBlocks
    rw [run_get_bind, hf]
    rfl
  unfold settle
  rw [run_get_bind, run_bind (run_toNextToken_opens ho _), run_bind kept, run_bind (run_mark s),
    run_bind none]
  rfl

/-- A bracket is opened where the scanner stands, within the same blocks. -/
private theorem exists_fetches_opening (map : Bool) {k : KeyCandidate} {column : Nat}
    {shown : List Token} {blocks : List Nat}
    (h : s.Ready ((opening map).1 :: text) column shown blocks)
    (saved : (saveCandidate .v12).run s = some ((), s.remembering [k]))
    (ht : ∀ c ∈ text.head?, c ≠ ' ' ∧ c ≠ '\t' ∧ c ≠ '#') :
    ∃ i ls, Inside i ls blocks ∧ Fetches .v12 s
      (((bracketed (s.within i ls) map k).after [(opening map).1] text).push (opening map).2
        s.mark) := by
  have inside : Inside (s.remembering [k]).indent (s.remembering [k]).levels blocks := h.inside
  obtain ⟨i, ls, indented, inside', -⟩ := run_indentOne inside h.flowDepth
  have start : (opening map).1 ≠ endChar ∧ (opening map).1 ≠ '%' ∧ (opening map).1 ≠ '-' ∧
      (opening map).1 ≠ '.' := by
    cases map <;> decide
  refine ⟨i, ls, inside', ?_⟩
  apply fetches_token (run_settle_ready h) h.rest start.1 start.2.1
    (atDocumentMark_of_head h.rest start.2.2.1 start.2.2.2) h.indented
  · exact run_opening h.rest saved indented h.flowDepth ht
  · exact Nat.le_refl _

private theorem fetches_closing (map : Bool) {k : KeyCandidate}
    (h : s.rest = (closing map).1 :: text) (hc : s.candidates = [.none, k]) (hf : s.flowDepth = 1)
    (hp : s.pairOpen = false) (hm : s.mark.column ≠ 0) (hi : s.indent ≤ s.mark.column)
    (ht : ∀ c ∈ text.head?, c ≠ ' ' ∧ c ≠ '\t' ∧ c ≠ '#') :
    Fetches .v12 s (((({ s with flowDepth := 0, candidates := [k] } : State).allow false).after
      [(closing map).1] text).push (closing map).2 s.mark) := by
  have finish : isStart (closing map).1 = true ∧ (closing map).1 ≠ endChar ∧
      (closing map).1 ≠ '%' := by
    cases map <;> decide
  have opens : Opens s.rest := by
    rw [h]
    exact finish.1
  apply fetches_token (run_settle_flow opens hf) h finish.2.1 finish.2.2
    (atDocumentMark_of_column hm) hi
  · exact run_closing h hc hf hp ht
  · exact Nat.le_refl _

/-- Nothing stands between the brackets. -/
theorem fetches_empty (map : Bool) {body : List Char} {column m : Nat} {shown : List Token}
    {blocks : List Nat}
    (h : s.Ready ((opening map).1 :: (closing map).1 :: '\n' :: (List.replicate m ' ' ++ body))
      column shown blocks) (ho : Opens body) (hk : s.keyAllowed = true → s.indent < s.mark.column) :
    ∃ t, Fetches .v12 s t ∧ t.At body m (shown ++ [(opening map).2, (closing map).2]) blocks ∧
      t.keyAllowed = true := by
  obtain ⟨k, saved, idle⟩ := exists_saved h hk
  let tail := '\n' :: (List.replicate m ' ' ++ body)
  obtain ⟨i, ls, inside, opened⟩ :=
    exists_fetches_opening map h saved (by cases map <;> simp [closing])
  let between := bracketed (s.within i ls) map k
  let u := (between.after [(opening map).1] ((closing map).1 :: tail)).push (opening map).2 s.mark
  let outside := ({ u with flowDepth := 0, candidates := [k] } : State).allow false
  let v := (outside.after [(closing map).1] tail).push (closing map).2 u.mark
  let t := (v.onNextLine m body).allow true
  have past : u.mark.column = s.mark.column + 1 :=
    between.after_column [(opening map).1] ((closing map).1 :: tail)
  have closed : Fetches .v12 u v := by
    have deep : u.indent ≤ u.mark.column := by
      have further := inside.le_succ
      have deep := h.inside.le
      have indented := h.indented
      show i ≤ _
      rw [past]
      omega
    have flow : u.flowDepth = 1 := by
      show s.flowDepth + 1 = 1
      rw [h.flowDepth]
    exact fetches_closing map rfl rfl flow h.pairOpen (by rw [past]; omega) deep
      (by simp [tail])
  have passed : Fetches .v12 v t := fetches_nextLine m rfl ho rfl
  have line : v.mark.line = s.mark.line :=
    (outside.after_line [(closing map).1] tail).trans
      (between.after_line [(opening map).1] ((closing map).1 :: tail))
  refine ⟨t, (opened.trans closed).trans passed, ?_, rfl⟩
  exact
    { rest := rfl
      column := State.onNextLine_column v m body
      shown := by
        show v.shown = _
        rw [State.shown_push]
        show u.shown ++ _ = _
        rw [State.shown_push]
        show (s.shown ++ _) ++ _ = _
        rw [h.shown]
        simp
      inside := inside
      flowDepth := rfl
      pairOpen := h.pairOpen
      idle := by
        apply State.idle_of_saved rfl idle
        show s.mark.line < (v.onNextLine m body).mark.line
        rw [State.onNextLine_line, line]
        exact Nat.lt_succ_self _ }

end TrafficIntent.Yaml.Scan
