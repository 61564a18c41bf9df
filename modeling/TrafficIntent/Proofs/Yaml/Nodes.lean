import TrafficIntent.Proofs.Yaml.Trees

namespace TrafficIntent.Yaml

mutual

/-- What is read where a tree is written at a column. -/
def valueOf (column : Nat) : Json → Value
  | .string s => .ofScalar none (styleOf s) (String.ofList (readChars column s))
  | .number n => .ofPlain (String.ofList (Json.numberText n))
  | .array js => .sequence (itemValues column js)
  | .object ms => .mapping (memberValues column ms)
  | _ => .bad

def itemValues (column : Nat) : List Json → List Value
  | [] => []
  | j :: js => valueOf (column + 2) j :: itemValues column js

def memberValues (column : Nat) : List (String × Json) → List (Value × Value)
  | [] => []
  | (k, j) :: ms => (.string k, valueOf (valueColumn column j) j) :: memberValues column ms

end

/-- Loading a node gives a value, whatever has been loaded before. -/
def Node.Loads (n : Node String) (v : Value) : Prop := ∀ a, (Load.value n).run a = some (v, a)

theorem Node.loads_scalar (m : Mark) (style : Style) (text : String) :
    (Node.scalar .none m style text).Loads (.ofScalar none style text) := fun _ => rfl

/-- The values of nodes one after the other. -/
def LoadAll : List (Node String) → List Value → Prop
  | [], [] => True
  | n :: ns, v :: vs => n.Loads v ∧ LoadAll ns vs
  | _, _ => False

theorem LoadAll.run {ns : List (Node String)} {vs : List Value} (h : LoadAll ns vs) (a : Anchors) :
    (Load.values ns).run a = some (vs, a) := by
  induction ns generalizing vs with
  | nil =>
    cases vs with
    | nil => rfl
    | cons v vs => exact h.elim
  | cons n ns ih =>
    cases vs with
    | nil => exact h.elim
    | cons v vs =>
      unfold Load.values
      simp [StateT.run_bind, h.1 a, ih h.2]

theorem Node.loads_sequence {ns : List (Node String)} {vs : List Value} (m : Mark)
    (h : LoadAll ns vs) : (Node.sequence .none m ns).Loads (.sequence vs) := by
  intro a
  unfold Load.value
  show (Load.values ns >>= fun vs => pure (Value.sequence vs)).run a = _
  simp [h.run a]

/-- The entries of a node one after the other, with texts as keys. -/
def LoadEntries : List (Node String × Node String) → List (Value × Value) → Prop
  | [], [] => True
  | (k, n) :: es, (key, v) :: vs => k.Loads key ∧ n.Loads v ∧ LoadEntries es vs
  | _, _ => False

/-- Keys and values in turn. -/
def inTurn : List (Value × Value) → List Value
  | [] => []
  | (k, v) :: es => k :: v :: inTurn es

theorem LoadEntries.run {es : List (Node String × Node String)} {vs : List (Value × Value)}
    (h : LoadEntries es vs) (a : Anchors) :
    (Load.entryValues es).run a = some (inTurn vs, a) := by
  induction es generalizing vs with
  | nil =>
    cases vs with
    | nil => rfl
    | cons v vs => exact h.elim
  | cons e es ih =>
    cases vs with
    | nil => exact h.elim
    | cons v vs =>
      unfold Load.entryValues
      simp [StateT.run_bind, h.1 a, h.2.1 a, ih h.2.2, inTurn]

/-- Different texts are taken as the keys of a map. -/
theorem entriesOf_texts {es acc : List (Value × Value)} {ks : List String}
    (hk : es.map Prod.fst = ks.map Value.string) (distinct : ks.Nodup)
    (fresh : ∀ e ∈ acc, ∀ k ∈ ks, e.1.same (.string k) = false) :
    entriesOf none (inTurn es) acc = some (acc.reverse ++ es) := by
  induction es generalizing acc ks with
  | nil => simp [inTurn, entriesOf]
  | cons e es ih =>
    obtain ⟨key, v⟩ := e
    cases ks with
    | nil => simp at hk
    | cons k ks =>
      simp only [List.map_cons, List.cons.injEq] at hk
      obtain ⟨rfl, hk⟩ := hk
      obtain ⟨new, distinct⟩ := List.nodup_cons.1 distinct
      have unused : (acc.any fun e => e.1.same (.string k)) = false := by
        rw [List.any_eq_false]
        intro e he
        simp [fresh e he k List.mem_cons_self]
      rw [inTurn, entriesOf]
      show entriesOf (some (.string k)) (v :: inTurn es) acc = _
      rw [entriesOf, unused]
      show entriesOf none (inTurn es) ((.string k, v) :: acc) = _
      rw [ih hk distinct]
      · simp
      · intro e he l hl
        cases List.mem_cons.1 he with
        | inl own =>
          rw [own]
          show (k == l) = false
          rw [beq_eq_false_iff_ne]
          intro same
          exact new (same ▸ hl)
        | inr old => exact fresh e old l (List.mem_cons_of_mem _ hl)

theorem Node.loads_mapping {es : List (Node String × Node String)} {vs : List (Value × Value)}
    {ks : List String} (m : Mark) (h : LoadEntries es vs)
    (hk : vs.map Prod.fst = ks.map Value.string) (distinct : ks.Nodup) :
    (Node.mapping .none m es).Loads (.mapping vs) := by
  intro a
  unfold Load.value
  have texts : entriesOf none (inTurn vs) [] = some vs := entriesOf_texts hk distinct (by simp)
  show (Load.entryValues es >>= _).run a = _
  simp [h.run a, texts]

theorem memberValues_fst (column : Nat) (ms : List (String × Json)) :
    (memberValues column ms).map Prod.fst = (ms.map Prod.fst).map Value.string := by
  induction ms with
  | nil => rfl
  | cons m ms ih =>
    obtain ⟨k, j⟩ := m
    rw [memberValues]
    simp [ih]

namespace Parse

open Scan (isProperty)

variable {p : String → Prop} {g : Grammar} {l : Lexeme} {ls rest : List Lexeme} {fuel : Nat}

theorem run_bind {α β : Type} {m : Parse α} {f : α → Parse β} {a : α}
    (h : m.run ls = some (a, rest)) : (m >>= f).run ls = (f a).run rest := by
  simp [StateT.run_bind, h]

theorem run_modify_bind {β : Type} (f : List Lexeme → List Lexeme) (k : PUnit → Parse β)
    (ls : List Lexeme) : (modify f >>= k).run ls = (k ⟨⟩).run (f ls) := rfl

theorem run_ahead (l : Lexeme) (ls : List Lexeme) : ahead.run (l :: ls) = some (l, l :: ls) := rfl

theorem run_token (l : Lexeme) (ls : List Lexeme) :
    token.run (l :: ls) = some (l.token, l :: ls) := rfl

theorem run_skip (l : Lexeme) (ls : List Lexeme) : skip.run (l :: ls) = some ((), ls) := rfl

theorem run_accept {t : Token} (h : l.token = t) : (accept t).run (l :: ls) = some (true, ls) := by
  unfold accept
  rw [run_bind (run_token l ls), if_pos h]
  rfl

theorem run_accept_other {t : Token} (h : l.token ≠ t) :
    (accept t).run (l :: ls) = some (false, l :: ls) := by
  unfold accept
  rw [run_bind (run_token l ls), if_neg h]
  rfl

theorem run_expect {t : Token} (h : l.token = t) : (expect t).run (l :: ls) = some ((), ls) := by
  unfold expect
  rw [run_bind (run_accept h)]
  rfl

theorem run_properties (h : isProperty l.token = false) :
    (properties g).run (l :: ls) = some (.none, l :: ls) := by
  have noAnchor : anchorAhead.run (l :: ls) = some (none, l :: ls) := by
    unfold anchorAhead
    rw [run_bind (run_token l ls)]
    split
    next name same => rw [same] at h; contradiction
    next => rfl
  have noTag : (tagAhead g).run (l :: ls) = some (none, l :: ls) := by
    unfold tagAhead
    rw [run_bind (run_token l ls)]
    split
    next handle suffix same => rw [same] at h; contradiction
    next => rfl
  unfold properties
  rw [run_bind noAnchor]
  show (tagAhead g >>= _).run _ = _
  rw [run_bind noTag]
  rfl

/-- A node without an anchor or a tag. -/
theorem run_node (h : isProperty l.token = false) (name : ∀ n, l.token ≠ .reference n)
    (fuel : Nat) (block unindented : Bool) :
    (node g (fuel + 1) block unindented).run (l :: ls) =
      (match l.token with
        | .scalar style text => do
          skip
          return .scalar .none l.start style text
        | .flowSequenceStart => do
          skip
          return .sequence .none l.start (← flowItems g fuel true)
        | .flowMappingStart => do
          skip
          return .mapping .none l.start (← flowEntries g fuel true)
        | t =>
          if t = .blockEntry && unindented then do
            return .sequence .none l.start (← unindentedItems g fuel)
          else if t = .blockSequenceStart && block then do
            skip
            return .sequence .none l.start (← blockItems g fuel)
          else if t = .blockMappingStart && block then do
            skip
            return .mapping .none l.start (← blockEntries g fuel)
          else failure : Parse (Node String)).run (l :: ls) := by
  unfold node
  rw [run_bind (run_ahead l ls), run_bind (run_token l ls)]
  split
  next n same => exact absurd same (name n)
  next =>
    rw [run_bind (run_properties h), run_bind (run_token l ls)]
    rfl

theorem run_node_scalar {style : Style} {text : String} (h : l.token = .scalar style text)
    (fuel : Nat) (block unindented : Bool) :
    (node g (fuel + 1) block unindented).run (l :: ls) =
      some (.scalar .none l.start style text, ls) := by
  rw [run_node (by rw [h]; rfl) (by simp [h]), h]
  rfl

theorem run_node_items (h : l.token = .blockEntry) {fuel : Nat} {items : List (Node String)}
    (run : (unindentedItems g fuel).run (l :: ls) = some (items, rest)) (block : Bool) :
    (node g (fuel + 1) block true).run (l :: ls) =
      some (.sequence .none l.start items, rest) := by
  rw [run_node (by rw [h]; rfl) (by simp [h]), h]
  show (unindentedItems g fuel >>= _).run (l :: ls) = _
  rw [run_bind run]
  rfl

/-- What a token opens: the reader of what comes behind it, and the node made of that. -/
inductive Opens (g : Grammar) (fuel : Nat) (block : Bool) :
    Token → (α : Type) → Parse α → (Mark → α → Node String) → Prop
  | blockEntries (inBlock : block = true) :
      Opens g fuel block .blockMappingStart _ (blockEntries g fuel) (.mapping .none)
  | flowItems : Opens g fuel block .flowSequenceStart _ (flowItems g fuel true) (.sequence .none)
  | flowEntries : Opens g fuel block .flowMappingStart _ (flowEntries g fuel true) (.mapping .none)

theorem run_node_opened {fuel : Nat} {block : Bool} {t : Token} {α : Type} {read : Parse α}
    {make : Mark → α → Node String} {a : α} (h : l.token = t)
    (opens : Opens g fuel block t α read make) (run : read.run ls = some (a, rest))
    (unindented : Bool) :
    (node g (fuel + 1) block unindented).run (l :: ls) = some (make l.start a, rest) := by
  have collected : (do skip; return make l.start (← read) : Parse (Node String)).run (l :: ls) =
      some (make l.start a, rest) := by
    rw [run_bind (run_skip l ls), run_bind run]
    rfl
  cases opens with
  | blockEntries inBlock =>
    subst inBlock
    rw [run_node (by rw [h]; rfl) (by simp [h]), h]
    exact collected
  | flowItems =>
    rw [run_node (by rw [h]; rfl) (by simp [h]), h]
    exact collected
  | flowEntries =>
    rw [run_node (by rw [h]; rfl) (by simp [h]), h]
    exact collected

theorem run_flowItems_end (h : l.token = .flowSequenceEnd) (fuel : Nat) (first : Bool) :
    (flowItems g (fuel + 1) first).run (l :: ls) = some ([], ls) := by
  unfold flowItems
  rw [run_bind (run_accept h)]
  rfl

theorem run_flowEntries_end (h : l.token = .flowMappingEnd) (fuel : Nat) (first : Bool) :
    (flowEntries g (fuel + 1) first).run (l :: ls) = some ([], ls) := by
  unfold flowEntries
  rw [run_bind (run_accept h)]
  rfl

theorem run_nodeUnless {ends : List Token} (h : l.token ∉ ends) (fuel : Nat) (m : Mark)
    (block unindented : Bool) :
    (nodeUnless g (fuel + 1) ends m block unindented).run (l :: ls) =
      (node g fuel block unindented).run (l :: ls) := by
  have other : ends.contains l.token = false := by simpa using h
  conv => lhs; unfold nodeUnless
  rw [run_bind (run_token l ls), other]
  rfl

theorem run_items_end (h : l.token ≠ .blockEntry) (fuel : Nat) :
    (unindentedItems g (fuel + 1)).run (l :: ls) = some ([], l :: ls) := by
  unfold unindentedItems
  rw [run_bind (run_ahead l ls), run_bind (run_accept_other h)]
  rfl

/-- A dash and the node after it are an item. -/
theorem run_items_item {m : Lexeme} {fuel : Nat} {item : Node String}
    {items : List (Node String)} {rest' : List Lexeme} (h : l.token = .blockEntry)
    (hm : m.token ∉ [.blockEntry, .key, .value, .blockEnd])
    (first : (node g fuel true false).run (m :: ls) = some (item, rest))
    (others : (unindentedItems g (fuel + 1)).run rest = some (items, rest')) :
    (unindentedItems g (fuel + 2)).run (l :: m :: ls) = some (item :: items, rest') := by
  conv => lhs; unfold unindentedItems
  rw [run_bind (run_ahead l _), run_bind (run_accept h)]
  show (nodeUnless g (fuel + 1) [.blockEntry, .key, .value, .blockEnd] l.finish true false >>=
    fun item => unindentedItems g (fuel + 1) >>= fun items => pure (item :: items)).run
      (m :: ls) = _
  rw [run_bind ((run_nodeUnless hm fuel l.finish true false).trans first), run_bind others]
  rfl

theorem run_entries_end (h : l.token = .blockEnd) (fuel : Nat) :
    (blockEntries g (fuel + 1)).run (l :: ls) = some ([], ls) := by
  unfold blockEntries
  rw [run_bind (run_ahead l ls), run_bind (run_accept h)]
  rfl

/-- A key, its colon and the node after it are an entry. -/
theorem run_entries_entry {m v w : Lexeme} {fuel : Nat} {key value : Node String}
    {entries : List (Node String × Node String)} {rest' : List Lexeme} (h : l.token = .key)
    (hm : m.token ∉ [.key, .value, .blockEnd]) (hv : v.token = .value)
    (hw : w.token ∉ [.key, .value, .blockEnd])
    (name : (node g fuel true true).run (m :: v :: w :: ls) = some (key, v :: w :: ls))
    (first : (node g fuel true true).run (w :: ls) = some (value, rest))
    (others : (blockEntries g (fuel + 1)).run rest = some (entries, rest')) :
    (blockEntries g (fuel + 2)).run (l :: m :: v :: w :: ls) =
      some ((key, value) :: entries, rest') := by
  have keyed := (run_nodeUnless hm fuel l.finish true true).trans name
  have valued := (run_nodeUnless hw fuel v.finish true true).trans first
  conv => lhs; unfold blockEntries
  rw [run_bind (run_ahead l _), run_bind (run_accept_other (by simp [h]))]
  show (accept .key >>= _).run (l :: m :: v :: w :: ls) = _
  rw [run_bind (run_accept h)]
  show (nodeUnless g (fuel + 1) [.key, .value, .blockEnd] l.finish true true >>= _).run _ = _
  rw [run_bind keyed, run_bind (run_ahead v _), run_bind (run_accept hv)]
  show (nodeUnless g (fuel + 1) [.key, .value, .blockEnd] v.finish true true >>= _).run _ = _
  rw [run_bind valued, run_bind others]
  rfl

/-- The tokens that a node can start with. -/
theorem exists_tokensOf (column : Nat) {j : Json} (hj : IsRegular p j) :
    ∃ x xs, tokensOf column j = x :: xs ∧ x ∉ [.key, .value, .blockEnd] ∧
      (x = .blockEntry → ∃ i is, j = .array (i :: is)) := by
  match j with
  | .null => exact hj.elim
  | .bool _ => exact hj.elim
  | .number _ => exact ⟨_, [], rfl, by simp, by simp⟩
  | .string _ => exact ⟨_, [], rfl, by simp, by simp⟩
  | .array [] => exact ⟨_, _, rfl, by simp, by simp⟩
  | .array (i :: is) => exact ⟨_, _, rfl, by simp, fun _ => ⟨i, is, rfl⟩⟩
  | .object [] => exact ⟨_, _, rfl, by simp, by simp⟩
  | .object ((k, j) :: ms) => exact ⟨_, _, rfl, by simp, by simp⟩

mutual

/-- The tokens of a tree make a node with its value. -/
theorem exists_node (g : Grammar) (n : Nat) (j : Json) (hj : IsRegular p j) {ls : List Lexeme}
    {after : List Token} {fuel : Nat} (h : ls.map Lexeme.token = tokensOf n j ++ after)
    (hf : 3 * (tokensOf n j).length + 2 ≤ fuel) {unindented : Bool}
    (list : ∀ i is, j = .array (i :: is) →
      unindented = true ∧ ∃ a as, after = a :: as ∧ a ≠ .blockEntry) :
    ∃ node rest, (Parse.node g fuel true unindented).run ls = some (node, rest) ∧
      rest.map Lexeme.token = after ∧ node.Loads (valueOf n j) := by
  match j with
  | .null => exact hj.elim
  | .bool _ => exact hj.elim
  | .number k =>
    obtain ⟨l, ls, rfl, scalar, rest⟩ := List.map_eq_cons_iff.1 h
    obtain ⟨fuel, rfl⟩ : ∃ f, fuel = f + 1 := ⟨fuel - 1, by omega⟩
    exact ⟨_, ls, run_node_scalar scalar fuel true unindented, rest, Node.loads_scalar _ _ _⟩
  | .string s =>
    obtain ⟨l, ls, rfl, scalar, rest⟩ := List.map_eq_cons_iff.1 h
    obtain ⟨fuel, rfl⟩ : ∃ f, fuel = f + 1 := ⟨fuel - 1, by omega⟩
    exact ⟨_, ls, run_node_scalar scalar fuel true unindented, rest, Node.loads_scalar _ _ _⟩
  | .array [] =>
    obtain ⟨l, ls, rfl, start, rest⟩ := List.map_eq_cons_iff.1 h
    obtain ⟨m, ls, rfl, finish, rest⟩ := List.map_eq_cons_iff.1 rest
    obtain ⟨fuel, rfl⟩ : ∃ f, fuel = f + 2 := ⟨fuel - 2, by omega⟩
    exact ⟨_, ls, run_node_opened start .flowItems (run_flowItems_end finish fuel true) unindented,
      rest, Node.loads_sequence l.start trivial⟩
  | .object [] =>
    obtain ⟨l, ls, rfl, start, rest⟩ := List.map_eq_cons_iff.1 h
    obtain ⟨m, ls, rfl, finish, rest⟩ := List.map_eq_cons_iff.1 rest
    obtain ⟨fuel, rfl⟩ : ∃ f, fuel = f + 2 := ⟨fuel - 2, by omega⟩
    exact ⟨_, ls, run_node_opened start .flowEntries (run_flowEntries_end finish fuel true) unindented,
      rest, Node.loads_mapping l.start trivial (memberValues_fst n []) .nil⟩
  | .array (i :: is) =>
    obtain ⟨rfl, ha⟩ := list i is rfl
    rw [tokensOf_array (by simp)] at h hf
    obtain ⟨fuel, rfl⟩ : ∃ f, fuel = f + 1 := ⟨fuel - 1, by omega⟩
    obtain ⟨items, rest, run, left, load⟩ := exists_items g n (i :: is) hj h
      (show 3 * (itemTokens n (i :: is)).length < fuel by omega) ha
    obtain ⟨l, ls, rfl, start, -⟩ := List.map_eq_cons_iff.1 h
    exact ⟨_, rest, run_node_items start run true, left, Node.loads_sequence l.start load⟩
  | .object (m :: ms) =>
    rw [tokensOf_object (by simp)] at h hf
    simp only [List.length_cons, List.length_append, List.length_nil] at hf
    obtain ⟨l, ls, rfl, start, more⟩ := List.map_eq_cons_iff.1 h
    obtain ⟨fuel, rfl⟩ : ∃ f, fuel = f + 1 := ⟨fuel - 1, by omega⟩
    obtain ⟨entries, rest, run, left, load⟩ :=
      exists_entries g n (m :: ms) hj.2 (by simpa using more) (show _ < fuel by omega)
    exact ⟨_, rest, run_node_opened start (.blockEntries rfl) run unindented, left,
      Node.loads_mapping l.start load (memberValues_fst n (m :: ms)) hj.1⟩

theorem exists_items (g : Grammar) (n : Nat) (js : List Json) (hj : RegularItems p js)
    {ls : List Lexeme} {after : List Token} {fuel : Nat}
    (h : ls.map Lexeme.token = itemTokens n js ++ after)
    (hf : 3 * (itemTokens n js).length < fuel)
    (ha : ∃ a as, after = a :: as ∧ a ≠ .blockEntry) :
    ∃ items rest, (unindentedItems g fuel).run ls = some (items, rest) ∧
      rest.map Lexeme.token = after ∧ LoadAll items (itemValues n js) := by
  obtain ⟨fuel, rfl⟩ : ∃ f, fuel = f + 1 := ⟨fuel - 1, by omega⟩
  match js with
  | [] =>
    obtain ⟨a, as, rfl, other⟩ := ha
    obtain ⟨l, ls, rfl, same, rest⟩ := List.map_eq_cons_iff.1 h
    exact ⟨[], l :: ls, run_items_end (by rwa [same]) fuel, by rw [List.map_cons, same, rest],
      trivial⟩
  | j :: js =>
    obtain ⟨notList, regular, others⟩ := hj
    obtain ⟨x, xs, head, hx, entry⟩ := exists_tokensOf (n + 2) regular
    simp only [itemTokens, List.length_cons, List.length_append] at hf
    obtain ⟨l, ls, rfl, dash, more⟩ := List.map_eq_cons_iff.1 h
    obtain ⟨fuel, rfl⟩ : ∃ f, fuel = f + 1 := ⟨fuel - 1, by omega⟩
    obtain ⟨item, rest, run, left, load⟩ :=
      exists_node g (n + 2) j regular (by simpa using more) (show _ ≤ fuel by omega)
        (show ∀ i is, j = .array (i :: is) → false = true ∧ _ from
          fun i is same => absurd same (notList i is))
    obtain ⟨items, rest', run', left', load'⟩ := exists_items g n js others left
      (show _ < fuel + 1 by omega) ha
    rw [head] at more
    obtain ⟨m, ms, rfl, same, -⟩ := List.map_eq_cons_iff.1 more
    have inside : m.token ∉ [.blockEntry, .key, .value, .blockEnd] := by
      rw [same, List.mem_cons, not_or]
      refine ⟨?_, hx⟩
      intro dash
      obtain ⟨i, is, list⟩ := entry dash
      exact notList i is list
    exact ⟨item :: items, rest', run_items_item dash inside run run', left', load, load'⟩

theorem exists_entries (g : Grammar) (n : Nat) (ms : List (String × Json)) (hm : RegularMembers p ms)
    {ls : List Lexeme} {after : List Token} {fuel : Nat}
    (h : ls.map Lexeme.token = entryTokens n ms ++ .blockEnd :: after)
    (hf : 3 * (entryTokens n ms).length < fuel) :
    ∃ entries rest, (blockEntries g fuel).run ls = some (entries, rest) ∧
      rest.map Lexeme.token = after ∧ LoadEntries entries (memberValues n ms) := by
  obtain ⟨fuel, rfl⟩ : ∃ f, fuel = f + 1 := ⟨fuel - 1, by omega⟩
  match ms with
  | [] =>
    obtain ⟨l, ls, rfl, finish, rest⟩ := List.map_eq_cons_iff.1 h
    exact ⟨[], ls, run_entries_end finish fuel, rest, trivial⟩
  | (k, j) :: ms =>
    obtain ⟨isKey, regular, others⟩ := hm
    obtain ⟨x, xs, head, hx, -⟩ := exists_tokensOf (valueColumn n j) regular
    simp only [entryTokens, List.length_cons, List.length_append] at hf
    obtain ⟨l, ls, rfl, key, more⟩ := List.map_eq_cons_iff.1 h
    obtain ⟨m, ls, rfl, name, more⟩ := List.map_eq_cons_iff.1 more
    obtain ⟨v, ls, rfl, colon, more⟩ := List.map_eq_cons_iff.1 more
    have more : ls.map Lexeme.token =
        tokensOf (valueColumn n j) j ++ (entryTokens n ms ++ .blockEnd :: after) := by
      simpa using more
    obtain ⟨fuel, rfl⟩ : ∃ f, fuel = f + 2 := ⟨fuel - 2, by omega⟩
    have next : ∃ a as, entryTokens n ms ++ .blockEnd :: after = a :: as ∧ a ≠ .blockEntry := by
      cases ms with
      | nil => exact ⟨.blockEnd, after, rfl, by simp⟩
      | cons e ms =>
        obtain ⟨k, j⟩ := e
        exact ⟨.key, _, rfl, by simp⟩
    obtain ⟨value, rest, run, left, load⟩ :=
      exists_node g (valueColumn n j) j regular more (show _ ≤ fuel + 1 by omega)
        (show ∀ i is, j = .array (i :: is) → true = true ∧ _ from fun _ _ _ => ⟨rfl, next⟩)
    obtain ⟨entries, rest', run', left', load'⟩ := exists_entries g n ms others left
      (show _ < fuel + 2 by omega)
    have text : (Node.scalar .none m.start (styleOf k) k).Loads (.string k) := by
      have loads := Node.loads_scalar m.start (styleOf k) k
      rwa [isKey.text] at loads
    rw [head] at more
    obtain ⟨w, ws, rfl, same, -⟩ := List.map_eq_cons_iff.1 more
    have run'' := run_entries_entry key (by simp [name]) colon (by rwa [same])
      (run_node_scalar name fuel true true) run run'
    exact ⟨_, rest', run'', left', text, load, load'⟩

end

end Parse

end TrafficIntent.Yaml
