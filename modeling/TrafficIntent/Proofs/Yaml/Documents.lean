import TrafficIntent.Proofs.Yaml.Trees

namespace TrafficIntent.Yaml

open Scan

/-- Trees of maps, each a document. -/
def IsDocument (p : String → Prop) : Json → Prop
  | .object (m :: ms) => IsRegular p (.object (m :: ms))
  | _ => False

/-- The characters of documents with marks between them. -/
def documentsText : List Json → List Char
  | [] => []
  | [j] => block 0 j
  | j :: js => block 0 j ++ '-' :: '-' :: '-' :: '\n' :: documentsText js

def documentsTokens : List Json → List Token
  | [] => [.streamEnd]
  | [j] => tokensOf 0 j ++ [.streamEnd]
  | j :: js => tokensOf 0 j ++ .documentStart :: documentsTokens js

theorem opens_documentsText {js : List Json} (hj : ∀ j ∈ js, IsDocument Keeps j) :
    Opens (documentsText js) := by
  cases js with
  | nil => rfl
  | cons j js =>
    have first := hj j List.mem_cons_self
    match j with
    | .object (m :: ms) =>
      cases js with
      | nil => simpa [documentsText] using opens_block 0 (j := .object (m :: ms)) first []
      | cons i is => exact opens_block 0 (j := .object (m :: ms)) first _

namespace Scan

variable {s t : State} {text : List Char} {shown : List Token} {cs : List Nat}

private theorem run_closeAll (h : s.Ready text 0 shown cs) :
    ∃ t, (closeBlocks (-1)).run s = some ((), t) ∧
      t.At text 0 (shown ++ cs.map fun _ => .blockEnd) [] ∧
      (∀ k ∈ t.candidates, k.possible = false) ∧ t.mark = s.mark := by
  obtain ⟨i, ls, ts, run, inside, -, tokens⟩ := run_closeBlocks (m := -1) cs []
    (by simpa using h.inside) h.flowDepth (fun p _ => by omega) (Int.le_refl _)
  refine ⟨_, run, ?_, h.settled, rfl⟩
  exact
    { rest := h.rest
      column := h.column
      shown := by rw [← h.shown]; exact tokens
      inside := inside
      flowDepth := h.flowDepth
      pairOpen := h.pairOpen
      idle := h.idle }

/-- The mark before a document ends all blocks. -/
theorem fetches_mark (h : s.Ready ('-' :: '-' :: '-' :: '\n' :: text) 0 shown cs)
    (ho : Opens text) :
    ∃ t, Fetches .v12 s t ∧
      t.Ready text 0 (shown ++ (cs.map fun _ => .blockEnd) ++ [.documentStart]) [] ∧
      t.keyAllowed = true := by
  obtain ⟨u, closed, at', settled, place⟩ := run_closeAll h
  obtain ⟨k, candidates, -⟩ := at'.idle
  let v := ((u.allow false).after ['-', '-', '-'] ('\n' :: text)).push .documentStart u.mark
  have run : (fetchDocumentMark .documentStart).run s = some ((), v) := by
    unfold fetchDocumentMark
    rw [run_bind closed, run_bind (run_dropCandidate candidates (settled k (by simp [candidates]))),
      run_bind (run_allowKey u false)]
    show (mark >>= _).run (u.allow false) = _
    rw [run_bind (run_mark _)]
    have left : (u.allow false).rest = ['-', '-', '-'] ++ '\n' :: text := at'.rest
    show (skipMany ['-', '-', '-'].length >>= _).run _ = _
    rw [run_bind (run_skipMany left)]
    rfl
  have started : s.atDocumentStart .v12 = true := by
    unfold State.atDocumentStart State.atTriple State.ahead
    rw [h.rest, h.column]
    rfl
  have fetched : Fetches .v12 s v := by
    intro fuel hf
    obtain ⟨fuel, rfl⟩ : ∃ k, fuel = k + 1 := ⟨fuel - 1, by omega⟩
    rw [h.rest] at hf
    refine ⟨fuel, ?_, ?_⟩
    · show text.length + 1 < fuel
      simp at hf
      omega
    · rw [fetchAll_succ, run_bind (run_settle_ready h)]
      unfold fetchOn
      rw [run_get_bind, State.ahead_of_rest h.rest, started]
      simp only [show ('-' == endChar) = false from rfl, show ('-' == '%') = false from rfl,
        Bool.and_false, Bool.false_eq_true, if_false, if_true]
      rw [run_bind run]
  have line : v.At ('\n' :: (List.replicate 0 ' ' ++ text)) 3
      (shown ++ (cs.map fun _ => .blockEnd) ++ [.documentStart]) [] :=
    { rest := rfl
      column := by
        have moved := (u.allow false).after_column ['-', '-', '-'] ('\n' :: text)
        have zero : (u.allow false).mark.column = 0 := at'.column
        rw [zero] at moved
        exact moved
      shown := by rw [State.shown_push, ← at'.shown]; rfl
      inside := at'.inside
      flowDepth := at'.flowDepth
      pairOpen := at'.pairOpen
      idle := ⟨k, candidates, fun possible => by
        rw [settled k (by simp [candidates])] at possible
        contradiction⟩ }
  obtain ⟨t, reached, ready, allowed⟩ := fetches_line line ho (by simp [innermost])
  exact ⟨t, fetched.trans reached, ready, allowed⟩

/-- The end of a text ends all blocks. -/
theorem fetches_end (h : s.Ready [] 0 shown cs) {fuel : Nat} (hf : 0 < fuel) :
    ∃ t, (fetchAll .v12 fuel).run s = some ((), t) ∧
      t.shown = shown ++ (cs.map fun _ => .blockEnd) ++ [.streamEnd] := by
  obtain ⟨fuel, rfl⟩ : ∃ k, fuel = k + 1 := ⟨fuel - 1, by omega⟩
  obtain ⟨u, closed, at', -, -⟩ := run_closeAll h
  refine ⟨(u.allow false).push .streamEnd u.mark, ?_, by rw [State.shown_push, ← at'.shown]; rfl⟩
  have free : (s.candidates.any fun k => k.possible && k.required) = false := by
    rw [List.any_eq_false]
    intro k hk
    simp [h.settled k hk]
  have ended : (s.ahead 0 == endChar) = true := by
    rw [State.ahead_zero, h.rest]
    rfl
  have start : (if s.mark.column = 0 then s else { s with mark := s.mark.nextLine }) = s :=
    if_pos h.column
  rw [fetchAll_succ, run_bind (run_settle_ready h)]
  unfold fetchOn
  rw [run_get_bind, ended, if_pos rfl]
  unfold fetchEnd
  rw [run_modify_bind, start, run_get_bind, free]
  show (closeBlocks (-1) >>= _).run s = _
  rw [run_bind closed]
  rfl

private theorem fetches_document {j : Json} (hj : IsDocument Keeps j)
    (h : s.Ready (block 0 j ++ text) 0 shown []) (hg : GoesOn 0 text) (hk : s.keyAllowed = true)
    (bare : ∀ x ∈ shown, isProperty x = false) :
    ∃ t before, Fetches .v12 s t ∧ t.Ended text before [0] ∧
      before ++ [.blockEnd] = shown ++ tokensOf 0 j := by
  match j with
  | .object (m :: ms) =>
    have deeper : innermost [] < (0 : Nat) := by simp [innermost]
    rw [block_object (by simp) hj.2] at h
    obtain ⟨t, fetched, ended⟩ :=
      fetches_entries 0 (m :: ms) hj.2 (by simp) h hg (by omega) hk bare
    rw [mapStart, entered, if_pos deeper, if_pos deeper] at ended
    refine ⟨t, _, fetched, ended, ?_⟩
    rw [tokensOf_object (by simp)]
    simp

theorem exists_fetchAll {js : List Json} (hj : ∀ j ∈ js, IsDocument Keeps j)
    (h : s.Ready (documentsText js) 0 shown []) (hk : s.keyAllowed = true)
    (bare : ∀ x ∈ shown, isProperty x = false) {fuel : Nat} (hf : s.rest.length < fuel) :
    ∃ t, (fetchAll .v12 fuel).run s = some ((), t) ∧ t.shown = shown ++ documentsTokens js := by
  induction js generalizing s shown fuel with
  | nil =>
    obtain ⟨t, run, tokens⟩ := fetches_end h (show 0 < fuel by omega)
    exact ⟨t, run, by rw [tokens]; simp [documentsTokens]⟩
  | cons j js ih =>
    have first := hj j List.mem_cons_self
    cases js with
    | nil =>
      have whole : s.Ready (block 0 j ++ []) 0 shown [] := by simpa [documentsText] using h
      obtain ⟨t, before, fetched, ended, tokens⟩ :=
        fetches_document first whole ⟨0, [], rfl, opens_nil, Int.le_refl _⟩ hk bare
      have start : t.Ended (List.replicate 0 ' ' ++ []) before [0] := ended
      obtain ⟨u, settled, ready, -⟩ := fetches_ended start opens_nil
      obtain ⟨left, hl, same⟩ := (fetched.trans settled) fuel hf
      obtain ⟨v, run, shown'⟩ := fetches_end ready (show 0 < left by omega)
      refine ⟨v, by rw [same, run], ?_⟩
      rw [shown', documentsTokens, ← List.append_assoc, ← tokens]
      simp
    | cons i is =>
      let rest := '-' :: '-' :: '-' :: '\n' :: documentsText (i :: is)
      have whole : s.Ready (block 0 j ++ rest) 0 shown [] := h
      have others : ∀ k ∈ i :: is, IsDocument Keeps k := fun k hk => hj k (List.mem_cons_of_mem _ hk)
      obtain ⟨t, before, fetched, ended, tokens⟩ :=
        fetches_document first whole ⟨0, rest, rfl, rfl, Int.le_refl _⟩ hk bare
      have start : t.Ended (List.replicate 0 ' ' ++ rest) before [0] := ended
      obtain ⟨u, settled, ready, -⟩ := fetches_ended start rfl
      obtain ⟨v, marked, ready', allowed⟩ := fetches_mark ready (opens_documentsText others)
      obtain ⟨left, hl, same⟩ := ((fetched.trans settled).trans marked) fuel hf
      have bare' : ∀ x ∈ before ++ [.blockEnd] ++ [.documentStart], isProperty x = false := by
        rw [tokens]
        intro x hx
        simp only [List.append_assoc, List.mem_append, List.mem_singleton] at hx
        obtain old | own | mark := hx
        · exact bare x old
        · exact isProperty_tokensOf 0 j x own
        · rw [mark]
          rfl
      obtain ⟨w, run, shown'⟩ := ih others ready' allowed bare' hl
      refine ⟨w, by rw [same, run], ?_⟩
      have one : ([0] : List Nat).map (fun _ => Token.blockEnd) = [.blockEnd] := rfl
      have split : documentsTokens (j :: i :: is) =
          tokensOf 0 j ++ .documentStart :: documentsTokens (i :: is) := rfl
      rw [shown', one, tokens, split]
      simp

end Scan

/-- The tokens of documents one after the other. -/
theorem tokens_documentsText {js : List Json} (hj : ∀ j ∈ js, IsDocument Keeps j) :
    ∃ ls, tokens? .v12 (String.ofList (documentsText js)) = some ls ∧
      ls.map Lexeme.token = documentsTokens js := by
  let s := State.ofText (String.ofList (documentsText js))
  have chars : s.rest = documentsText js := String.toList_ofList
  have ready : s.Ready (documentsText js) 0 [] [] :=
    { rest := chars
      column := rfl
      shown := rfl
      inside := .inl ⟨rfl, rfl⟩
      flowDepth := rfl
      pairOpen := rfl
      idle := ⟨.none, rfl, by simp [KeyCandidate.none]⟩
      opens := opens_documentsText hj
      indented := by
        show (-1 : Int) ≤ 0
        omega
      settled := by
        intro k hk
        have same : k = .none := by simpa [s, State.ofText] using hk
        rw [same]
        rfl }
  obtain ⟨t, run, shown⟩ :=
    exists_fetchAll hj ready rfl (by simp) (show s.rest.length < s.rest.length + 1 by omega)
  refine ⟨t.tokens.toList, ?_, shown⟩
  unfold tokens?
  show ((fetchAll .v12 (s.rest.length + 1)).run s).map _ = _
  rw [run]
  rfl

end TrafficIntent.Yaml
