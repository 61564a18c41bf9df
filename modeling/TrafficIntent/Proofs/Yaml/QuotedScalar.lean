import TrafficIntent.Proofs.Yaml.QuotedText

namespace TrafficIntent.Yaml

namespace Scan

variable {s t : State}

/-- Between quotes, some characters are read as one. -/
structure StandsFor (single : Bool) (w : List Char) (c : Char) : Prop where
  starts : isBlankOrEnd .v12 (w.headD ' ') = false
  reads : ∀ (s : State) (rest : List Char) (fuel : Nat) (f : Folding), s.rest = w ++ rest →
    (quotedWord .v12 single (fuel + 1) f).run s =
      (quotedWord .v12 single fuel (f.push c)).run (s.after w rest)

theorem standsFor_iff {single : Bool} {w : List Char} {c : Char} :
    StandsFor single w c ↔ IsPiece .v12 single (c, w) :=
  ⟨fun h => ⟨h.starts, h.reads⟩, fun h => ⟨h.starts, h.reads⟩⟩

private theorem arePieces_of_standsFor {single : Bool} {enc : Char → List Char} {ds : List Char}
    (hd : ∀ d ∈ ds, d ≠ ' ' → StandsFor single (enc d) d) (hs : enc ' ' = [' ']) :
    ArePieces .v12 single (ds.map fun d => (d, enc d)) := by
  intro p hp other
  obtain ⟨d, hdd, rfl⟩ := List.mem_map.1 hp
  refine standsFor_iff.1 (hd d hdd ?_)
  rintro rfl
  exact other (by rw [hs])

/-- After the closing quote stands a line break, or the colon of a key on the line of the opening
one. -/
private theorem run_quotedEnd {c : Char} {tail : List Char} {start : Mark} (h : s.rest = c :: tail)
    (hf : s.flowDepth = 0) (hc : c = '\n' ∨ c = ':' ∧ start.line = s.mark.line) :
    (quotedEnd start).run s = some ((), s) := by
  have flow : (s.flowDepth != 0) = false := by simp [hf]
  have blanks : (passBlanks true).run s = some ((false, false), s) := by
    apply run_passBlanks_none
    rw [h]
    obtain rfl | ⟨rfl, -⟩ := hc <;> simp
  unfold quotedEnd
  rw [run_bind blanks, run_bind (run_ahead s 0), run_bind (run_inFlow s), run_bind (run_mark s),
    State.ahead_of_rest h, flow]
  obtain rfl | ⟨rfl, line⟩ := hc
  · rfl
  · simp only [line, beq_self_eq_true]
    rfl

private theorem run_quotedScalar_block {single : Bool} {enc : Char → List Char} {c : Char}
    {ds tail : List Char}
    (h : s.rest = quote single :: (ds.flatMap enc ++ quote single :: c :: tail))
    (hd : ∀ d ∈ ds, d ≠ ' ' → StandsFor single (enc d) d) (hs : enc ' ' = [' '])
    (hi : s.indent ≤ s.mark.column) (hf : s.flowDepth = 0) (hc : c = '\n' ∨ c = ':') :
    (quotedScalar .v12 single).run s =
      some (.scalar (quotedStyle single) (String.ofList ds),
        s.after (quote single :: (ds.flatMap enc ++ [quote single])) (c :: tail)) := by
  let ps := ds.map fun d => (d, enc d)
  have written : ps.flatMap Prod.snd = ds.flatMap enc := List.flatMap_map ..
  have text : ps.map Prod.fst = ds := by
    rw [List.map_map]
    exact List.map_id ds
  have other : (c :: tail).headD ' ' ≠ '\x27' := by
    obtain rfl | rfl := hc <;> simp
  rw [← written] at h ⊢
  rw [run_quotedScalar h (arePieces_of_standsFor hd hs) (stops_quote _ _ fun _ => other)
    (fun _ => hi), text]
  intro t _
  exact run_quotedEnd rfl hf (hc.imp_right fun same => ⟨same, (State.after_line ..).symm⟩)

/-- A scalar between quotes is fetched by its first quote, with the blanks after its last one. -/
private theorem fetches_fetchQuoted {single : Bool} {enc : Char → List Char} {c : Char}
    {ds tail : List Char} {column : Nat} {shown : List Token} {blocks : List Nat}
    {k : KeyCandidate}
    (h : s.Ready (quote single :: (ds.flatMap enc ++ quote single :: c :: tail)) column shown
      blocks)
    (hd : ∀ d ∈ ds, d ≠ ' ' → StandsFor single (enc d) d) (hs : enc ' ' = [' '])
    (hc : c = '\n' ∨ c = ':')
    (saved : (saveCandidate .v12).run s = some ((), s.remembering [k]))
    (moved : (toNextToken .v12 ((c :: tail).length + 1)).run
      (((s.remembering [k]).allow false).after
        (quote single :: (ds.flatMap enc ++ [quote single])) (c :: tail)) = some ((), t))
    (shorter : t.rest.length ≤ (c :: tail).length) :
    Fetches .v12 s (({ t with adjacentValueAt := t.mark.index } : State).push
      (.scalar (quotedStyle single) (String.ofList ds)) s.mark) := by
  let u := (s.remembering [k]).allow false
  apply fetches_token (run_settle_ready h) h.rest (by cases single <;> decide)
    (by cases single <;> decide) ?_ h.indented
  · rw [fetchToken_quoted h.rest]
    unfold fetchQuoted
    rw [run_bind saved, run_bind (run_allowKey _ _), run_bind (run_mark _)]
    show (quotedScalar .v12 single >>= _).run u = _
    rw [run_bind (run_quotedScalar_block (s := u) h.rest hd hs h.indented h.flowDepth hc)]
    simp only [if_true]
    rw [run_get_bind]
    show (toNextToken .v12 ((c :: tail).length + 1) >>= _).run (u.after _ (c :: tail)) = _
    rw [run_bind moved]
    rfl
  · show t.rest.length ≤ _
    simp only [List.length_cons, List.length_append] at shorter ⊢
    omega
  · exact atDocumentMark_of_head h.rest (by cases single <;> decide) (by cases single <;> decide)

/-- A value between quotes is read with the line break after it and the spaces of the next
line. -/
theorem fetches_quoted {single : Bool} {enc : Char → List Char} {ds body : List Char}
    {column m : Nat} {shown : List Token} {blocks : List Nat}
    (h : s.Ready (quote single :: (ds.flatMap enc ++
      quote single :: '\n' :: (List.replicate m ' ' ++ body))) column shown blocks)
    (hd : ∀ d ∈ ds, d ≠ ' ' → StandsFor single (enc d) d) (hs : enc ' ' = [' '])
    (ho : Opens body) (hk : s.keyAllowed = true → s.indent < s.mark.column) :
    ∃ t, Fetches .v12 s t ∧
      t.At body m (shown ++ [.scalar (quotedStyle single) (String.ofList ds)]) blocks ∧
      t.keyAllowed = true := by
  obtain ⟨k, saved, idle⟩ := exists_saved h hk
  let u := (s.remembering [k]).allow false
  let v := u.after (quote single :: (ds.flatMap enc ++ [quote single]))
    ('\n' :: (List.replicate m ' ' ++ body))
  let line := (v.onNextLine m body).allow true
  have moved : (toNextToken .v12 (v.rest.length + 1)).run v = some ((), line) :=
    run_toNextToken_line (s := v) m rfl ho h.flowDepth
  refine ⟨_, fetches_fetchQuoted h hd hs (.inl rfl) saved moved ?_, ?_, rfl⟩
  · show body.length ≤ _
    simp
    omega
  · exact
      { rest := rfl
        column := State.onNextLine_column v m body
        shown := by rw [State.shown_push, ← h.shown]; rfl
        inside := h.inside
        flowDepth := h.flowDepth
        pairOpen := h.pairOpen
        idle := by
          apply State.idle_of_saved rfl idle
          show s.mark.line < (v.onNextLine m body).mark.line
          rw [State.onNextLine_line, State.after_line]
          exact Nat.lt_succ_self _ }

/-- A key between quotes is read up to its colon, and remembered. -/
theorem fetches_quotedKey {single : Bool} {enc : Char → List Char} {ds tail : List Char}
    {column : Nat} {shown : List Token} {blocks : List Nat}
    (h : s.Ready (quote single :: (ds.flatMap enc ++ quote single :: ':' :: tail)) column shown
      blocks)
    (hd : ∀ d ∈ ds, d ≠ ' ' → StandsFor single (enc d) d) (hs : enc ' ' = [' '])
    (hk : s.keyAllowed = true) :
    ∃ u, Fetches .v12 s u ∧
      u.AtColon tail column (ds.flatMap enc).length.succ.succ shown
        (.scalar (quotedStyle single) (String.ofList ds)) blocks := by
  obtain ⟨k, saved, possible, number, mark⟩ := exists_savedKey h hk
  let w := quote single :: (ds.flatMap enc ++ [quote single])
  let v := ((s.remembering [k]).allow false).after w (':' :: tail)
  have moved : (toNextToken .v12 (v.rest.length + 1)).run v = some ((), v) :=
    run_toNextToken_opens (s := v) rfl _
  have length : w.length = (ds.flatMap enc).length.succ.succ := by simp [w]
  have start := h.column
  have passed : v.mark = s.mark.passing w := rfl
  refine ⟨_, fetches_fetchQuoted h hd hs (.inr rfl) saved moved (Nat.le_refl _), ?_⟩
  exact
    { rest := rfl
      column := by
        show v.mark.column = _
        rw [passed, Mark.passing_column, start, length]
      shown := by rw [State.shown_push, ← h.shown]; rfl
      inside := h.inside
      indented := start ▸ h.indented
      flowDepth := h.flowDepth
      candidate := by
        refine ⟨k, rfl, possible, number, by rw [mark, start], ?_, ?_⟩
        · show _ = v.mark.line
          rw [passed, mark, Mark.passing_line]
        · show v.mark.index = _
          rw [passed, mark, Mark.passing_index, length] }

end Scan

end TrafficIntent.Yaml
