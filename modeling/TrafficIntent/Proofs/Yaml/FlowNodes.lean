import TrafficIntent.Proofs.Yaml.FlowDocuments
import TrafficIntent.Proofs.Yaml.Nodes
import TrafficIntent.Yaml.Document

namespace TrafficIntent.Yaml

mutual

/-- A node that has what is in a tree, and no anchors, tags or aliases. -/
def IsNodeOf {α : Type} : Json → Node α → Prop
  | .array js, n => ∃ m ns, n = .sequence .none m ns ∧ AreNodesOf js ns
  | .object ms, n => ∃ m es, n = .mapping .none m es ∧ AreEntriesOf ms es
  | j, n => ∃ m style text, n = .scalar .none m style text ∧ flowTokens j = [.scalar style text]

def AreNodesOf {α : Type} : List Json → List (Node α) → Prop
  | [], ns => ns = []
  | j :: js, ns => ∃ n rest, ns = n :: rest ∧ IsNodeOf j n ∧ AreNodesOf js rest

def AreEntriesOf {α : Type} : List (String × Json) → List (Node α × Node α) → Prop
  | [], es => es = []
  | (k, j) :: ms, es => ∃ m n rest, es = (.scalar .none m .doubleQuoted k, n) :: rest ∧
      IsNodeOf j n ∧ AreEntriesOf ms rest

end

namespace Parse

variable {l : Lexeme} {ls : List Lexeme}

/-- What cannot start a node between brackets. -/
def notStarts : List Token := [.key, .value, .flowEntry, .flowSequenceEnd, .flowMappingEnd]

theorem exists_flowTokens (j : Json) : ∃ x xs, flowTokens j = x :: xs ∧ x ∉ notStarts := by
  match j with
  | .null | .bool true | .bool false | .number _ | .string _ | .array _ | .object _ =>
    exact ⟨_, _, rfl, by simp [notStarts]⟩

/-- A comma is passed before an item or entry that is not the first one. -/
theorem exists_separated (stop : Token) {first : Bool} {x : Token} {xs : List Token}
    (h : ls.map Lexeme.token = separator first ++ x :: xs) (other : x ≠ stop)
    (noComma : stop ≠ .flowEntry) :
    ∃ l left, l.token = x ∧ left.map Lexeme.token = xs ∧
      (accept stop).run ls = some (false, ls) ∧
      ∀ {β : Type} (k : PUnit → Parse β),
        (if (!first) = true then expect .flowEntry >>= k else k ⟨⟩).run ls =
          (k ⟨⟩).run (l :: left) := by
  cases first with
  | true =>
    obtain ⟨l, ls, rfl, head, rest⟩ := List.map_eq_cons_iff.1 h
    exact ⟨l, ls, head, rest, run_accept_other (by rwa [head]), fun _ => rfl⟩
  | false =>
    obtain ⟨comma, ls, rfl, head, more⟩ := List.map_eq_cons_iff.1 h
    obtain ⟨l, ls, rfl, same, rest⟩ := List.map_eq_cons_iff.1 more
    refine ⟨l, ls, same, rest, run_accept_other (by rw [head]; exact noComma.symm), ?_⟩
    intro β k
    exact run_bind (run_expect head)

/-- An item is read after its comma, if there has to be one. -/
theorem exists_flowItem (g : Grammar) (fuel : Nat) {first : Bool} {x : Token} {xs : List Token}
    (h : ls.map Lexeme.token = separator first ++ x :: xs) (shown : x ∉ notStarts) :
    ∃ left, left.map Lexeme.token = x :: xs ∧ (flowItems g (fuel + 1) first).run ls = (do
      let item ← node g fuel false false
      return item :: (← flowItems g fuel false)).run left := by
  simp only [notStarts, List.mem_cons, List.not_mem_nil, or_false, not_or] at shown
  obtain ⟨notKey, -, -, notEnd, -⟩ := shown
  obtain ⟨l, left, head, rest, goesOn, separated⟩ := exists_separated _ h notEnd (by simp)
  refine ⟨l :: left, by rw [List.map_cons, head, rest], ?_⟩
  conv => lhs; unfold flowItems
  rw [run_bind goesOn, if_neg Bool.false_ne_true]
  refine (separated _).trans ?_
  rw [run_bind (run_ahead l left), run_bind (run_accept_other (by rwa [head]))]
  simp only [Bool.false_eq_true, if_false]
  rw [run_bind (run_accept_other (by rwa [head]))]
  rfl

/-- An entry is read after its comma: its key, and then its value. -/
theorem exists_flowEntry (g : Grammar) (fuel : Nat) {first : Bool} {k : String} {x : Token}
    {xs : List Token}
    (h : ls.map Lexeme.token =
      separator first ++ .key :: .scalar .doubleQuoted k :: .value :: x :: xs)
    (shown : x ∉ notStarts) :
    ∃ (m : Mark) (left : List Lexeme), left.map Lexeme.token = x :: xs ∧
      (flowEntries g (fuel + 3) first).run ls = (do
        let value ← node g fuel false false
        return (Node.scalar .none m .doubleQuoted k, value) ::
          (← flowEntries g (fuel + 2) false)).run left := by
  have separation := exists_separated .flowMappingEnd h (by simp) (by simp)
  obtain ⟨l, left, key, more, goesOn, separated⟩ := separation
  obtain ⟨name, left, rfl, scalar, more⟩ := List.map_eq_cons_iff.1 more
  obtain ⟨colon, left, rfl, value, more⟩ := List.map_eq_cons_iff.1 more
  obtain ⟨v, left, rfl, head, rest⟩ := List.map_eq_cons_iff.1 more
  simp only [notStarts, List.mem_cons, List.not_mem_nil, or_false, not_or] at shown
  have keyed : (nodeUnless g (fuel + 2) [.value, .flowEntry, .flowMappingEnd] name.start false
      false).run (name :: colon :: v :: left) =
        some (.scalar .none name.start .doubleQuoted k, colon :: v :: left) := by
    rw [run_nodeUnless (by simp [scalar]), run_node_scalar scalar]
  have valued : (flowValue g (fuel + 2)).run (colon :: v :: left) =
      (node g fuel false false).run (v :: left) := by
    unfold flowValue
    rw [run_bind (run_accept value), if_pos rfl, run_bind (run_ahead v left),
      run_nodeUnless (by simp [head, shown])]
  refine ⟨name.start, v :: left, by rw [List.map_cons, head, rest], ?_⟩
  conv => lhs; unfold flowEntries
  rw [run_bind goesOn, if_neg Bool.false_ne_true]
  refine (separated _).trans ?_
  rw [run_bind (run_accept_other (by simp [key])), if_neg Bool.false_ne_true,
    run_bind (run_ahead l _), run_bind (run_accept key), if_pos rfl,
    run_bind (run_ahead name _), run_bind keyed]
  show (flowValue g (fuel + 2) >>= fun value => flowEntries g (fuel + 2) false >>= fun entries =>
    pure ((Node.scalar .none name.start .doubleQuoted k, value) :: entries)).run
      (colon :: v :: left) = _
  rw [StateT.run_bind, valued]
  rfl

mutual

/-- The tokens of a tree make a node of it. -/
theorem exists_nodeOf (g : Grammar) (j : Json) {ls : List Lexeme} {after : List Token} {fuel : Nat}
    (h : ls.map Lexeme.token = flowTokens j ++ after) (enough : (flowTokens j).length ≤ fuel)
    (block : Bool) :
    ∃ n rest, (node g fuel block false).run ls = some (n, rest) ∧
      rest.map Lexeme.token = after ∧ IsNodeOf j n := by
  match j with
  | .null | .bool true | .bool false | .number _ | .string _ =>
    obtain ⟨l, ls, rfl, scalar, rest⟩ := List.map_eq_cons_iff.1 h
    obtain ⟨fuel, rfl⟩ : ∃ f, fuel = f + 1 := ⟨fuel - 1, by simp [flowTokens] at enough; omega⟩
    exact ⟨_, ls, run_node_scalar scalar fuel block false, rest, _, _, _, rfl, rfl⟩
  | .array js =>
    obtain ⟨l, ls, rfl, start, more⟩ := List.map_eq_cons_iff.1 h
    simp only [flowTokens, List.length_cons, List.length_append, List.length_nil] at enough
    obtain ⟨fuel, rfl⟩ : ∃ f, fuel = f + 1 := ⟨fuel - 1, by omega⟩
    obtain ⟨ns, rest, run, left, nodes⟩ :=
      exists_nodesOf g js (by simpa using more) (show _ < fuel by omega)
    exact ⟨_, rest, run_node_opened start .flowItems run false, left, l.start, ns, rfl, nodes⟩
  | .object ms =>
    obtain ⟨l, ls, rfl, start, more⟩ := List.map_eq_cons_iff.1 h
    simp only [flowTokens, List.length_cons, List.length_append, List.length_nil] at enough
    obtain ⟨fuel, rfl⟩ : ∃ f, fuel = f + 1 := ⟨fuel - 1, by omega⟩
    obtain ⟨es, rest, run, left, entries⟩ :=
      exists_entriesOf g ms (by simpa using more) (show _ < fuel by omega)
    exact ⟨_, rest, run_node_opened start .flowEntries run false, left, l.start, es, rfl, entries⟩

theorem exists_nodesOf (g : Grammar) (js : List Json) {first : Bool} {ls : List Lexeme}
    {after : List Token} {fuel : Nat}
    (h : ls.map Lexeme.token = flowItemTokens first js ++ .flowSequenceEnd :: after)
    (enough : (flowItemTokens first js).length < fuel) :
    ∃ ns rest, (flowItems g fuel first).run ls = some (ns, rest) ∧
      rest.map Lexeme.token = after ∧ AreNodesOf js ns := by
  obtain ⟨fuel, rfl⟩ : ∃ f, fuel = f + 1 := ⟨fuel - 1, by omega⟩
  match js with
  | [] =>
    obtain ⟨l, ls, rfl, finish, rest⟩ := List.map_eq_cons_iff.1 h
    exact ⟨[], ls, run_flowItems_end finish fuel first, rest, rfl⟩
  | j :: js =>
    obtain ⟨x, xs, head, shown⟩ := exists_flowTokens j
    simp only [flowItemTokens, List.length_append] at enough
    have some : 0 < (flowTokens j).length := by rw [head]; exact Nat.succ_pos _
    have item : ls.map Lexeme.token = separator first ++
        (x :: (xs ++ (flowItemTokens false js ++ .flowSequenceEnd :: after))) := by
      simpa [flowItemTokens, head] using h
    obtain ⟨left, tokens, run⟩ := exists_flowItem g fuel item shown
    have tokens : left.map Lexeme.token =
        flowTokens j ++ (flowItemTokens false js ++ .flowSequenceEnd :: after) := by
      rw [tokens, head]
      rfl
    obtain ⟨n, more, read, behind, isNode⟩ :=
      exists_nodeOf g j tokens (show _ ≤ fuel by omega) false
    obtain ⟨ns, rest, read', behind', areNodes⟩ := exists_nodesOf g js behind
      (show _ < fuel by omega)
    refine ⟨n :: ns, rest, ?_, behind', n, ns, rfl, isNode, areNodes⟩
    rw [run, run_bind read, run_bind read']
    rfl

theorem exists_entriesOf (g : Grammar) (ms : List (String × Json)) {first : Bool}
    {ls : List Lexeme} {after : List Token} {fuel : Nat}
    (h : ls.map Lexeme.token = flowMemberTokens first ms ++ .flowMappingEnd :: after)
    (enough : (flowMemberTokens first ms).length < fuel) :
    ∃ es rest, (flowEntries g fuel first).run ls = some (es, rest) ∧
      rest.map Lexeme.token = after ∧ AreEntriesOf ms es := by
  match ms with
  | [] =>
    obtain ⟨fuel, rfl⟩ : ∃ f, fuel = f + 1 := ⟨fuel - 1, by omega⟩
    obtain ⟨l, ls, rfl, finish, rest⟩ := List.map_eq_cons_iff.1 h
    exact ⟨[], ls, run_flowEntries_end finish fuel first, rest, rfl⟩
  | (k, j) :: ms =>
    obtain ⟨x, xs, head, shown⟩ := exists_flowTokens j
    simp only [flowMemberTokens, List.length_append, List.length_cons] at enough
    have some : 0 < (flowTokens j).length := by rw [head]; exact Nat.succ_pos _
    obtain ⟨fuel, rfl⟩ : ∃ f, fuel = f + 3 := ⟨fuel - 3, by omega⟩
    have entry : ls.map Lexeme.token = separator first ++
        (.key :: .scalar .doubleQuoted k :: .value ::
          x :: (xs ++ (flowMemberTokens false ms ++ .flowMappingEnd :: after))) := by
      simpa [flowMemberTokens, head] using h
    obtain ⟨m, left, tokens, run⟩ := exists_flowEntry g fuel entry shown
    have tokens : left.map Lexeme.token =
        flowTokens j ++ (flowMemberTokens false ms ++ .flowMappingEnd :: after) := by
      rw [tokens, head]
      rfl
    obtain ⟨n, more, read, behind, isNode⟩ :=
      exists_nodeOf g j tokens (show _ ≤ fuel by omega) false
    obtain ⟨es, rest, read', behind', areEntries⟩ := exists_entriesOf g ms behind
      (show _ < fuel + 2 by omega)
    refine ⟨_ :: es, rest, ?_, behind', m, n, es, rfl, isNode, areEntries⟩
    rw [run, run_bind read, run_bind read']
    rfl

end

theorem exists_flowDocument {ms : List (String × Json)}
    (h : ls.map Lexeme.token = flowTokens (.object ms) ++ [.streamEnd]) {fuel : Nat}
    (enough : (flowTokens (.object ms)).length ≤ fuel) (n : Nat) :
    ∃ root rest, (documents .v11 fuel (n + 2) true true).run ls = some ([root], rest) ∧
      IsNodeOf (.object ms) root := by
  obtain ⟨root, rest, read, behind, isNode⟩ := exists_nodeOf ⟨.v11, []⟩ (.object ms) h enough true
  obtain ⟨l, left, rfl, start, -⟩ := List.map_eq_cons_iff.1 h
  obtain ⟨m, rest, rfl, finish, -⟩ := List.map_eq_cons_iff.1 behind
  have last : (documents .v11 fuel (n + 1) false false).run (m :: rest) = some ([], m :: rest) := by
    have stays : (m :: rest).dropWhile (·.token = .documentEnd) = m :: rest :=
      List.dropWhile_cons_of_neg (by simp [finish])
    unfold documents
    simp only [reduceCtorEq, decide_false, Bool.not_false, Bool.false_or, if_true]
    rw [run_modify_bind, stays, run_bind (run_token m rest), if_pos finish]
    rfl
  refine ⟨root, m :: rest, ?_, isNode⟩
  conv => lhs; unfold documents
  simp only [reduceCtorEq, decide_false, Bool.not_true, Bool.false_or, Bool.false_eq_true, if_false]
  rw [run_bind (run_token l left), start]
  show (node ⟨.v11, []⟩ fuel true false >>= _).run (l :: left) = _
  rw [run_bind read, run_bind (run_accept_other (by simp [finish]))]
  simp only [Bool.false_and, Bool.false_eq_true, if_false]
  rw [run_bind (run_token m rest), run_bind last]
  rfl

end Parse

theorem run_properties_none (names : List (String × Nat)) :
    (Numbering.properties .none).run names = some (.none, names) := rfl

mutual

/-- Without anchors there is nothing to be numbered. -/
theorem exists_numbered (j : Json) {n : Node String} (h : IsNodeOf j n)
    (names : List (String × Nat)) :
    ∃ n', (Numbering.node n).run names = some (n', names) ∧ IsNodeOf j n' := by
  match j with
  | .null | .bool _ | .number _ | .string _ =>
    obtain ⟨m, style, text, rfl, tokens⟩ := h
    exact ⟨_, rfl, m, style, text, rfl, tokens⟩
  | .array js =>
    obtain ⟨m, ns, rfl, items⟩ := h
    obtain ⟨ns', run, items'⟩ := exists_numberedItems js items names
    refine ⟨.sequence .none m ns', ?_, m, ns', rfl, items'⟩
    unfold Numbering.node
    simp [StateT.run_bind, run_properties_none, run]
  | .object ms =>
    obtain ⟨m, es, rfl, entries⟩ := h
    obtain ⟨es', run, entries'⟩ := exists_numberedEntries ms entries names
    refine ⟨.mapping .none m es', ?_, m, es', rfl, entries'⟩
    unfold Numbering.node
    simp [StateT.run_bind, run_properties_none, run]

theorem exists_numberedItems (js : List Json) {ns : List (Node String)} (h : AreNodesOf js ns)
    (names : List (String × Nat)) :
    ∃ ns', (Numbering.nodes ns).run names = some (ns', names) ∧ AreNodesOf js ns' := by
  match js with
  | [] =>
    obtain rfl : ns = [] := h
    exact ⟨[], rfl, rfl⟩
  | j :: js =>
    obtain ⟨n, ns, rfl, node, nodes⟩ := h
    obtain ⟨n', run, node'⟩ := exists_numbered j node names
    obtain ⟨ns', run', nodes'⟩ := exists_numberedItems js nodes names
    refine ⟨n' :: ns', ?_, n', ns', rfl, node', nodes'⟩
    unfold Numbering.nodes
    simp [StateT.run_bind, run, run']

theorem exists_numberedEntries (ms : List (String × Json)) {es : List (Node String × Node String)}
    (h : AreEntriesOf ms es) (names : List (String × Nat)) :
    ∃ es', (Numbering.entries es).run names = some (es', names) ∧ AreEntriesOf ms es' := by
  match ms with
  | [] =>
    obtain rfl : es = [] := h
    exact ⟨[], rfl, rfl⟩
  | (k, j) :: ms =>
    obtain ⟨m, n, es, rfl, node, entries⟩ := h
    obtain ⟨n', run, node'⟩ := exists_numbered j node names
    obtain ⟨es', run', entries'⟩ := exists_numberedEntries ms entries names
    have key : (Numbering.node (.scalar .none m .doubleQuoted k)).run names =
        some (.scalar .none m .doubleQuoted k, names) := rfl
    refine ⟨(.scalar .none m .doubleQuoted k, n') :: es', ?_, m, n', es', rfl, node', entries'⟩
    unfold Numbering.entries
    simp [StateT.run_bind, key, run, run']

end

/-- A spelling of an object is a document, with the object for its root. -/
theorem exists_spelledDocument {ms : List (String × Json)} {w before behind : List Char}
    {text : String} (chars : text.toList = before ++ (w ++ behind))
    (spelled : Json.Spells (.object ms) w) (space : GapAt 0 before) (space' : GapAt 0 behind) :
    ∃ d, Document.ofText? text = some d ∧ IsNodeOf (.object ms) d.root := by
  obtain ⟨lexemes, scanned, tokens⟩ := exists_tokens chars spelled space space'
  have length : lexemes.length = (flowTokens (.object ms)).length + 1 := by
    have same := congrArg List.length tokens
    rwa [List.length_map, List.length_append] at same
  have short : 0 < (flowTokens (.object ms)).length := Nat.succ_pos _
  obtain ⟨n, hn⟩ : ∃ n, lexemes.length + 1 = n + 2 := ⟨lexemes.length - 1, by omega⟩
  obtain ⟨root, rest, parsed, isNode⟩ := Parse.exists_flowDocument tokens
    (show _ ≤ 4 * (n + 2) by omega) n
  obtain ⟨root', numbered, isNode'⟩ := exists_numbered _ isNode []
  have one : documents? .v11 text = some [root] := by
    unfold documents?
    rw [scanned]
    simp only [Option.bind_eq_bind, Option.bind_some, hn, parsed]
    rfl
  refine ⟨⟨root'⟩, ?_, isNode'⟩
  unfold Document.ofText?
  rw [one]
  simp [numbered]

end TrafficIntent.Yaml
