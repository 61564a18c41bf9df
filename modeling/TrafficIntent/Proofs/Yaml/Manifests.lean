import TrafficIntent.Proofs.Yaml.Documents
import TrafficIntent.Proofs.Yaml.Nodes

namespace TrafficIntent.Yaml

/-- The tokens after a document. -/
def laterTokens : List Json → List Token
  | [] => [.streamEnd]
  | js => .documentStart :: documentsTokens js

theorem documentsTokens_cons (j : Json) (js : List Json) :
    documentsTokens (j :: js) = tokensOf 0 j ++ laterTokens js := by
  cases js <;> rfl

namespace Parse

variable {ls : List Lexeme} {fuel : Nat}

private theorem exists_document {g : Grammar} {j : Json} (hj : IsDocument Keeps j) {after : List Token}
    (h : ls.map Lexeme.token = tokensOf 0 j ++ after) (hf : 3 * ls.length + 2 ≤ fuel) :
    ∃ node rest, (Parse.node g fuel true false).run ls = some (node, rest) ∧
      rest.map Lexeme.token = after ∧ node.Loads (valueOf 0 j) := by
  have length := congrArg List.length h
  rw [List.length_map, List.length_append] at length
  match j with
  | .object (m :: ms) =>
    exact exists_node g 0 (.object (m :: ms)) hj h (by omega) (by simp)

/-- The first token of a document is no mark. -/
private theorem exists_first {j : Json} (hj : IsDocument Keeps j) {after : List Token}
    (h : ls.map Lexeme.token = tokensOf 0 j ++ after) :
    ∃ l rest, ls = l :: rest ∧ l.token = .blockMappingStart := by
  match j with
  | .object ((k, j) :: ms) =>
    obtain ⟨l, rest, rfl, start, -⟩ := List.map_eq_cons_iff.1 h
    exact ⟨l, rest, rfl, start⟩

private theorem run_documents_end {l : Lexeme} (h : l.token = .streamEnd) (n : Nat)
    (first implicit : Bool) :
    (documents .v12 fuel (n + 1) first implicit).run (l :: ls) = some ([], l :: ls) := by
  have kept : (l :: ls).dropWhile (·.token = .documentEnd) = l :: ls :=
    List.dropWhile_cons_of_neg (by simp [h])
  unfold documents
  simp only [decide_true, Bool.true_or, if_true]
  rw [run_modify_bind, kept, run_bind (run_token l ls), if_pos h]
  rfl

/-- A document and those after it, each with a mark. -/
private theorem run_documents {l m : Lexeme} {ms rest : List Lexeme} {document : Node String}
    {nodes : List (Node String)} {n : Nat} {first implicit : Bool}
    (hl : l.token ≠ .documentEnd ∧ l.token ≠ .streamEnd)
    (run : (if implicit && !isDirective l.token && l.token != .documentStart then
      Parse.node ⟨.v12, []⟩ fuel true false else explicitDocument .v12 fuel).run (l :: ls) =
        some (document, m :: ms))
    (hm : m.token = .documentStart ∨ m.token = .streamEnd)
    (others : (documents .v12 fuel n false false).run (m :: ms) = some (nodes, rest)) :
    (documents .v12 fuel (n + 1) first implicit).run (l :: ls) =
      some (document :: nodes, rest) := by
  have kept : (l :: ls).dropWhile (·.token = .documentEnd) = l :: ls :=
    List.dropWhile_cons_of_neg (by simp [hl.1])
  have open' : m.token ≠ .documentEnd ∧ isDirective m.token = false := by
    cases hm with
    | inl mark => rw [mark]; exact ⟨by simp, rfl⟩
    | inr finish => rw [finish]; exact ⟨by simp, rfl⟩
  conv => lhs; unfold documents
  simp only [decide_true, Bool.true_or, if_true]
  rw [run_modify_bind, kept, run_bind (run_token l ls), if_neg hl.2]
  have finish : (do
      let ended ← accept .documentEnd
      if true && !ended && isDirective (← token) then failure
      return document :: (← documents .v12 fuel n false (true && ended)) :
        Parse (List (Node String))).run (m :: ms) = some (document :: nodes, rest) := by
    rw [run_bind (run_accept_other open'.1), run_bind (run_token m ms), open'.2]
    show (documents .v12 fuel n false false >>= _).run (m :: ms) = _
    rw [run_bind others]
    rfl
  split
  next bare =>
    rw [if_pos bare] at run
    rw [run_bind run]
    exact finish
  next marked =>
    rw [if_neg marked] at run
    rw [run_bind run]
    exact finish

private theorem run_explicitDocument {l m : Lexeme} {ms : List Lexeme} (hl : l.token = .documentStart)
    (hm : m.token = .blockMappingStart) (fuel : Nat) :
    (explicitDocument .v12 (fuel + 1)).run (l :: m :: ms) =
      (Parse.node ⟨.v12, []⟩ (fuel + 1) true false).run (m :: ms) := by
  have none : (directives .v12 (fuel + 1) false []).run (l :: m :: ms) =
      some ([], l :: m :: ms) := by
    unfold directives
    rw [run_bind (run_token l _), hl]
    rfl
  unfold explicitDocument
  rw [run_bind none]
  show (expect .documentStart >>= _).run (l :: m :: ms) = _
  rw [run_bind (run_expect hl), run_bind (run_ahead m ms), hm]
  rfl

private theorem exists_later (js : List Json) (h : ls.map Lexeme.token = laterTokens js) :
    ∃ m ms, ls = m :: ms ∧ (m.token = .documentStart ∨ m.token = .streamEnd) := by
  cases js with
  | nil =>
    obtain ⟨m, ms, rfl, finish, -⟩ := List.map_eq_cons_iff.1 h
    exact ⟨m, ms, rfl, .inr finish⟩
  | cons j js =>
    obtain ⟨m, ms, rfl, mark, -⟩ := List.map_eq_cons_iff.1 h
    exact ⟨m, ms, rfl, .inl mark⟩

private theorem run_rest {js : List Json} (hj : ∀ j ∈ js, IsDocument Keeps j) {n : Nat}
    (hn : js.length < n) (h : ls.map Lexeme.token = laterTokens js)
    (hf : 3 * ls.length + 2 ≤ fuel) :
    ∃ nodes rest, (documents .v12 fuel n false false).run ls = some (nodes, rest) ∧
      LoadAll nodes (js.map (valueOf 0)) := by
  induction js generalizing ls n with
  | nil =>
    obtain ⟨n, rfl⟩ : ∃ m, n = m + 1 := ⟨n - 1, by omega⟩
    obtain ⟨l, rest, rfl, finish, -⟩ := List.map_eq_cons_iff.1 h
    exact ⟨[], l :: rest, run_documents_end finish n false false, trivial⟩
  | cons j js ih =>
    obtain ⟨n, rfl⟩ : ∃ m, n = m + 1 := ⟨n - 1, by omega⟩
    obtain ⟨fuel, rfl⟩ : ∃ m, fuel = m + 1 := ⟨fuel - 1, by omega⟩
    have first := hj j List.mem_cons_self
    obtain ⟨l, ls, rfl, mark, tokens⟩ := List.map_eq_cons_iff.1 h
    rw [documentsTokens_cons] at tokens
    simp only [List.length_cons] at hf hn
    obtain ⟨document, left, run, after, load⟩ :=
      exists_document (g := ⟨.v12, []⟩) first tokens (show 3 * ls.length + 2 ≤ fuel + 1 by omega)
    obtain ⟨m, ms, rfl, start⟩ := exists_first first tokens
    obtain ⟨x, xs, rfl, next⟩ := exists_later js after
    have shorter : (x :: xs).length ≤ (m :: ms).length := by
      have whole := congrArg List.length tokens
      have part := congrArg List.length after
      simp only [List.length_map, List.length_append] at whole part
      omega
    simp only [List.length_cons] at hf shorter
    obtain ⟨nodes, rest, others, loads⟩ :=
      ih (fun k hk => hj k (List.mem_cons_of_mem _ hk)) (show js.length < n by omega) after
        (by simp only [List.length_cons]; omega)
    refine ⟨document :: nodes, rest, ?_, load, loads⟩
    apply run_documents (by simp [mark]) ?_ next others
    show (explicitDocument .v12 (fuel + 1)).run (l :: m :: ms) = _
    rw [run_explicitDocument mark start, run]

theorem exists_documents {js : List Json} (hj : ∀ j ∈ js, IsDocument Keeps j) {n : Nat}
    (hn : js.length < n) (h : ls.map Lexeme.token = documentsTokens js)
    (hf : 3 * ls.length + 2 ≤ fuel) :
    ∃ nodes rest, (documents .v12 fuel n true true).run ls = some (nodes, rest) ∧
      LoadAll nodes (js.map (valueOf 0)) := by
  obtain ⟨n, rfl⟩ : ∃ m, n = m + 1 := ⟨n - 1, by omega⟩
  cases js with
  | nil =>
    obtain ⟨l, rest, rfl, finish, -⟩ := List.map_eq_cons_iff.1 h
    exact ⟨[], l :: rest, run_documents_end finish n true true, trivial⟩
  | cons j js =>
    have first := hj j List.mem_cons_self
    rw [documentsTokens_cons] at h
    simp only [List.length_cons] at hn
    obtain ⟨document, left, run, after, load⟩ := exists_document (g := ⟨.v12, []⟩) first h hf
    obtain ⟨l, rest, rfl, start⟩ := exists_first first h
    obtain ⟨m, ms, rfl, next⟩ := exists_later js after
    have shorter : (m :: ms).length ≤ (l :: rest).length := by
      have whole := congrArg List.length h
      have part := congrArg List.length after
      simp only [List.length_map, List.length_append] at whole part
      omega
    obtain ⟨nodes, rest', others, loads⟩ :=
      run_rest (fun k hk => hj k (List.mem_cons_of_mem _ hk)) (show js.length < n by omega) after
        (show 3 * (m :: ms).length + 2 ≤ fuel by omega)
    refine ⟨document :: nodes, rest', ?_, load, loads⟩
    apply run_documents (by simp [start]) ?_ next others
    rw [start]
    exact run

end Parse

theorem length_documentsTokens (js : List Json) : js.length < (documentsTokens js).length + 1 := by
  induction js with
  | nil => simp
  | cons j js ih =>
    cases js with
    | nil => simp [documentsTokens]
    | cons i is =>
      show _ < (tokensOf 0 j ++ .documentStart :: documentsTokens (i :: is)).length + 1
      simp only [List.length_cons, List.length_append] at ih ⊢
      omega

theorem LoadAll.mapM {nodes : List (Node String)} {vs : List Value} (h : LoadAll nodes vs) :
    nodes.mapM Node.value? = some vs := by
  induction nodes generalizing vs with
  | nil =>
    cases vs with
    | nil => rfl
    | cons v vs => exact h.elim
  | cons n ns ih =>
    cases vs with
    | nil => exact h.elim
    | cons v vs =>
      have first : n.value? = some v := by
        unfold Node.value?
        rw [h.1 .empty]
        rfl
      rw [List.mapM_cons, first, ih h.2]
      rfl

/-- What is read where documents are written. -/
theorem manifests_documentsText {js : List Json} (hj : ∀ j ∈ js, IsDocument Keeps j) :
    manifests (String.ofList (documentsText js)) = Value.trees (js.map (valueOf 0)) := by
  obtain ⟨ls, scanned, tokens⟩ := tokens_documentsText hj
  have length := congrArg List.length tokens
  rw [List.length_map] at length
  have longer := length_documentsTokens js
  obtain ⟨nodes, rest, run, loads⟩ := Parse.exists_documents hj
    (show js.length < ls.length + 1 by omega) tokens
    (show 3 * ls.length + 2 ≤ 4 * (ls.length + 1) by omega)
  have parsed : documents? .v12 (String.ofList (documentsText js)) = some nodes := by
    unfold documents?
    rw [scanned]
    show (((Parse.documents .v12 (4 * (ls.length + 1)) (ls.length + 1) true true).run ls).bind
      fun r => some r.1) = _
    rw [run]
    rfl
  unfold manifests
  rw [parsed, Option.bind_some, loads.mapM]

end TrafficIntent.Yaml
