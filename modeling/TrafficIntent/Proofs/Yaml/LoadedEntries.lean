import TrafficIntent.Proofs.Yaml.Nodes

/-!
What loading keeps of a document. A list keeps its items, and a map its entries unless one of its
keys has no value: such a key is passed over, so that values become keys, and an entry is missing.
No key of a map comes twice.
-/

namespace TrafficIntent.Yaml

theorem entriesOf_nil (pending : Option Value) (acc : List (Value × Value)) :
    entriesOf pending [] acc = some acc.reverse := by
  cases pending <;> rfl

theorem length_inTurn (es : List (Value × Value)) : (inTurn es).length = 2 * es.length := by
  induction es with
  | nil => rfl
  | cons e es ih =>
    simp only [inTurn, List.length_cons, ih]
    omega

/-- Two values make an entry, and one that is left over makes none. -/
theorem length_entriesOf {pending : Option Value} {vs : List Value} {acc es : List (Value × Value)}
    (made : entriesOf pending vs acc = some es) :
    2 * es.length ≤ 2 * acc.length + vs.length + pending.toList.length := by
  induction vs generalizing pending acc with
  | nil =>
    rw [entriesOf_nil] at made
    rw [← Option.some.inj made, List.length_reverse]
    omega
  | cons v vs ih =>
    cases pending with
    | none =>
      rw [entriesOf] at made
      have rest := ih made
      have one : (if v.isBad then none else some v).toList.length ≤ 1 := by
        cases v.isBad <;> simp
      simp only [List.length_cons, Option.toList_none, List.length_nil]
      omega
    | some k =>
      rw [entriesOf] at made
      split at made
      · contradiction
      · have rest := ih made
        simp only [List.length_cons, Option.toList_none, Option.toList_some, List.length_nil]
          at rest ⊢
        omega

/-- Keys and values in turn give back the entries exactly if all keys have values. -/
theorem entriesOf_inTurn {loaded acc es : List (Value × Value)}
    (made : entriesOf none (inTurn loaded) acc = some es) :
    es = acc.reverse ++ loaded ∧ (∀ e ∈ loaded, e.1.isBad = false) ∨
      es.length < acc.length + loaded.length ∧ ∃ e ∈ loaded, e.1.isBad = true := by
  induction loaded generalizing acc with
  | nil =>
    rw [inTurn, entriesOf_nil] at made
    refine .inl ⟨?_, by simp⟩
    rw [List.append_nil, Option.some.inj made]
  | cons e loaded ih =>
    obtain ⟨k, v⟩ := e
    rw [inTurn, entriesOf] at made
    cases bad : k.isBad with
    | true =>
      -- The value is taken for a key, and what follows has an odd number of values.
      have short := length_entriesOf made
      refine .inr ⟨?_, _, List.mem_cons_self, bad⟩
      simp only [bad, if_true, List.length_cons, Option.toList_none, List.length_nil,
        length_inTurn] at short ⊢
      omega
    | false =>
      simp only [bad, Bool.false_eq_true, if_false] at made
      rw [entriesOf] at made
      split at made
      · contradiction
      · cases ih made with
        | inl kept =>
          obtain ⟨rfl, good⟩ := kept
          refine .inl ⟨by simp, ?_⟩
          intro e he
          cases List.mem_cons.1 he with
          | inl first => rw [first, bad]
          | inr later => exact good e later
        | inr lost =>
          obtain ⟨short, e, he, bad⟩ := lost
          refine .inr ⟨?_, e, List.mem_cons_of_mem _ he, bad⟩
          simp only [List.length_cons] at short ⊢
          omega

mutual

/-- No map among the parts of a value has a key twice. -/
def Value.KeysOnce : Value → Prop
  | .sequence vs => ItemsKeysOnce vs
  | .mapping es => (es.map Prod.fst).Nodup ∧ EntriesKeysOnce es
  | _ => True

def ItemsKeysOnce : List Value → Prop
  | [] => True
  | v :: vs => v.KeysOnce ∧ ItemsKeysOnce vs

def EntriesKeysOnce : List (Value × Value) → Prop
  | [] => True
  | (_, v) :: es => v.KeysOnce ∧ EntriesKeysOnce es

end

theorem itemsKeysOnce_iff {vs : List Value} : ItemsKeysOnce vs ↔ ∀ v ∈ vs, v.KeysOnce := by
  induction vs with
  | nil => simp [ItemsKeysOnce]
  | cons v vs ih => simp [ItemsKeysOnce, ih]

theorem entriesKeysOnce_iff {es : List (Value × Value)} :
    EntriesKeysOnce es ↔ ∀ e ∈ es, e.2.KeysOnce := by
  induction es with
  | nil => simp [EntriesKeysOnce]
  | cons e es ih => simp [EntriesKeysOnce, ih]

theorem Value.keysOnce_ofPlain (s : String) : (Value.ofPlain s).KeysOnce := by
  unfold Value.ofPlain
  extract_lets whole
  clear_value whole
  cases whole with
  | some n => trivial
  | none =>
    repeat' split
    all_goals trivial

theorem Value.keysOnce_ofTagged (suffix s : String) : (Value.ofTagged suffix s).KeysOnce := by
  unfold Value.ofTagged
  repeat' split
  all_goals trivial

theorem Value.keysOnce_ofScalar (tag : Option Tag) (style : Style) (s : String) :
    (Value.ofScalar tag style s).KeysOnce := by
  unfold Value.ofScalar
  split
  · trivial
  · split
    · exact Value.keysOnce_ofPlain s
    · split
      · exact Value.keysOnce_ofTagged _ s
      · trivial

/-- A key that is the same as one before it makes no entries. -/
theorem keysOnce_of_entriesOf {pending : Option Value} {vs : List Value}
    {acc es : List (Value × Value)} (made : entriesOf pending vs acc = some es)
    (each : ∀ v ∈ vs, v.KeysOnce) (once : (acc.map Prod.fst).Nodup)
    (earlier : ∀ e ∈ acc, e.2.KeysOnce) : (Value.mapping es).KeysOnce := by
  induction vs generalizing pending acc with
  | nil =>
    rw [entriesOf_nil] at made
    rw [← Option.some.inj made, Value.KeysOnce, entriesKeysOnce_iff, List.map_reverse,
      (List.reverse_perm _).nodup_iff]
    exact ⟨once, fun e he => earlier e (List.mem_reverse.1 he)⟩
  | cons v vs ih =>
    have others : ∀ v ∈ vs, v.KeysOnce := fun v hv => each v (List.mem_cons_of_mem _ hv)
    cases pending with
    | none =>
      rw [entriesOf] at made
      exact ih made others once earlier
    | some k =>
      rw [entriesOf] at made
      split at made
      · contradiction
      next new =>
        have other : k ∉ acc.map Prod.fst := by
          intro there
          obtain ⟨e, he, rfl⟩ := List.mem_map.1 there
          exact new (List.any_eq_true.2 ⟨e, he, (Value.same_iff _ _).2 rfl⟩)
        refine ih made others (List.nodup_cons.2 ⟨other, once⟩) ?_
        intro e he
        cases List.mem_cons.1 he with
        | inl added => exact added ▸ each v List.mem_cons_self
        | inr there => exact earlier e there

mutual

/-- What a value has of a node: the items of a list one by one, and the entries of a map one by one
or, if the value of one of their keys is bad, fewer. An alias has the value of another node. -/
def Node.CoveredBy : Node String → Value → Prop
  | .scalar p _ style text, v => v = .ofScalar p.tag style text
  | .sequence _ _ ns, v => ∃ vs, v = .sequence vs ∧ ItemsCoveredBy ns vs
  | .mapping _ _ es, v => ∃ entries loaded, v = .mapping entries ∧ EntriesCoveredBy es loaded ∧
    (entries = loaded ∧ (∀ e ∈ loaded, e.1.isBad = false) ∨
      entries.length < es.length ∧ ∃ e ∈ loaded, e.1.isBad = true)
  | .reference _ _, _ => True

def ItemsCoveredBy : List (Node String) → List Value → Prop
  | [], [] => True
  | n :: ns, v :: vs => n.CoveredBy v ∧ ItemsCoveredBy ns vs
  | _, _ => False

def EntriesCoveredBy : List (Node String × Node String) → List (Value × Value) → Prop
  | [], [] => True
  | (k, n) :: es, (key, v) :: vs => k.CoveredBy key ∧ n.CoveredBy v ∧ EntriesCoveredBy es vs
  | _, _ => False

end

theorem EntriesCoveredBy.length_eq {es : List (Node String × Node String)}
    {vs : List (Value × Value)} (h : EntriesCoveredBy es vs) : es.length = vs.length := by
  induction es generalizing vs with
  | nil =>
    cases vs with
    | nil => rfl
    | cons v vs => exact h.elim
  | cons e es ih =>
    cases vs with
    | nil => exact h.elim
    | cons v vs => exact congrArg (· + 1) (ih h.2.2)

namespace Load

variable {α β : Type} {P : α → Prop} {Q : β → Prop}

theorem exists_of_run_bind {load : Load α} {f : α → Load β} {a c : Anchors} {r : β}
    (run : (load >>= f).run a = some (r, c)) :
    ∃ x b, load.run a = some (x, b) ∧ (f x).run b = some (r, c) := by
  obtain ⟨⟨x, b⟩, first, rest⟩ := Option.bind_eq_some_iff.1 run
  exact ⟨x, b, first, rest⟩

/-- What is loaded has a property, as long as the values of the anchors have their keys once; and
they still have them once afterwards. -/
def Gives (P : α → Prop) (load : Load α) : Prop :=
  ∀ a r c, (∀ e ∈ a.values, e.2.KeysOnce) → load.run a = some (r, c) →
    P r ∧ ∀ e ∈ c.values, e.2.KeysOnce

theorem gives_pure {r : α} (h : P r) : Gives P (pure r) := by
  intro a x c anchors run
  obtain ⟨rfl, rfl⟩ := Prod.mk.inj (Option.some.inj run)
  exact ⟨h, anchors⟩

theorem gives_bind {load : Load α} {f : α → Load β} (first : Gives P load)
    (rest : ∀ x, P x → Gives Q (f x)) : Gives Q (load >>= f) := by
  intro a r c anchors run
  obtain ⟨x, b, run, later⟩ := exists_of_run_bind run
  obtain ⟨such, anchors⟩ := first a x b anchors run
  exact rest x such b r c anchors later

/-- The value that is kept for an anchor is the one that is given. -/
theorem gives_anchored {P : Value → Prop} {load : Load Value} (anchor : Option String)
    (once : ∀ v, P v → v.KeysOnce) (gives : Gives P load) : Gives P (anchored anchor load) := by
  cases anchor with
  | none => exact gives
  | some name =>
    intro a r c anchors run
    obtain ⟨_, _, asked, run⟩ := exists_of_run_bind run
    obtain ⟨rfl, rfl⟩ := Prod.mk.inj (Option.some.inj asked)
    obtain ⟨_, _, declared, run⟩ := exists_of_run_bind run
    obtain ⟨-, rfl⟩ := Prod.mk.inj (Option.some.inj declared)
    obtain ⟨v, b, inner, run⟩ := exists_of_run_bind run
    obtain ⟨such, anchors⟩ := gives (a.declare name) v b anchors inner
    obtain ⟨_, _, completed, run⟩ := exists_of_run_bind run
    obtain ⟨-, rfl⟩ := Prod.mk.inj (Option.some.inj completed)
    obtain ⟨rfl, rfl⟩ := Prod.mk.inj (Option.some.inj run)
    refine ⟨such, ?_⟩
    intro e he
    cases List.mem_cons.1 he with
    | inl own => exact own ▸ once v such
    | inr there => exact anchors e there

/-- An alias stands for a value that was loaded, or for none yet. -/
theorem gives_reference (m : Mark) (name : String) :
    Gives Value.KeysOnce (value (.reference m name)) := by
  intro a r c anchors run
  unfold value at run
  obtain ⟨_, _, asked, run⟩ := exists_of_run_bind run
  obtain ⟨rfl, rfl⟩ := Prod.mk.inj (Option.some.inj asked)
  cases found : a.find? name with
  | none =>
    rw [found] at run
    contradiction
  | some v =>
    rw [found] at run
    obtain ⟨rfl, rfl⟩ := Prod.mk.inj (Option.some.inj run)
    refine ⟨?_, anchors⟩
    obtain ⟨n, -, rfl⟩ := Option.map_eq_some_iff.1 found
    cases value : a.values.lookup n with
    | none => trivial
    | some v =>
      obtain ⟨before, after, parts, -⟩ := List.lookup_eq_some_iff.1 value
      exact anchors (n, v) (parts ▸ List.mem_append_right before List.mem_cons_self)

mutual

/-- A node that is loaded is covered by its value. -/
theorem gives_value (n : Node String) :
    Gives (fun v => n.CoveredBy v ∧ v.KeysOnce) (value n) := by
  match n with
  | .reference m name =>
    intro a r c anchors run
    obtain ⟨once, anchors⟩ := gives_reference m name a r c anchors run
    exact ⟨⟨trivial, once⟩, anchors⟩
  | .scalar p _ style text =>
    unfold value
    refine gives_anchored _ (fun _ => And.right) (gives_pure ?_)
    exact ⟨rfl, Value.keysOnce_ofScalar _ _ _⟩
  | .sequence p _ ns =>
    unfold value
    refine gives_anchored _ (fun _ => And.right) (gives_bind (gives_values ns) ?_)
    rintro vs ⟨covered, once⟩
    exact gives_pure ⟨⟨vs, rfl, covered⟩, itemsKeysOnce_iff.2 once⟩
  | .mapping p _ es =>
    unfold value
    refine gives_anchored _ (fun _ => And.right) (gives_bind (gives_entryValues es) ?_)
    rintro vs ⟨⟨loaded, rfl, covered⟩, once⟩
    cases made : entriesOf none (inTurn loaded) [] with
    | none =>
      intro a r c _ run
      contradiction
    | some entries =>
      have kept := entriesOf_inTurn made
      rw [List.reverse_nil, List.nil_append, List.length_nil, Nat.zero_add,
        ← covered.length_eq] at kept
      exact gives_pure ⟨⟨entries, loaded, rfl, covered, kept⟩,
        keysOnce_of_entriesOf made once .nil (by simp)⟩

theorem gives_values (ns : List (Node String)) :
    Gives (fun vs => ItemsCoveredBy ns vs ∧ ∀ v ∈ vs, v.KeysOnce) (values ns) := by
  match ns with
  | [] => exact gives_pure ⟨trivial, by simp⟩
  | n :: ns =>
    unfold values
    refine gives_bind (gives_value n) ?_
    rintro v ⟨first, once⟩
    refine gives_bind (gives_values ns) ?_
    rintro vs ⟨rest, others⟩
    exact gives_pure ⟨⟨first, rest⟩, List.forall_mem_cons.2 ⟨once, others⟩⟩

theorem gives_entryValues (es : List (Node String × Node String)) :
    Gives (fun vs => (∃ loaded, vs = inTurn loaded ∧ EntriesCoveredBy es loaded) ∧
      ∀ v ∈ vs, v.KeysOnce) (entryValues es) := by
  match es with
  | [] => exact gives_pure ⟨⟨[], rfl, trivial⟩, by simp⟩
  | (k, n) :: es =>
    unfold entryValues
    refine gives_bind (gives_value k) ?_
    rintro key ⟨first, keyOnce⟩
    refine gives_bind (gives_value n) ?_
    rintro v ⟨second, valueOnce⟩
    refine gives_bind (gives_entryValues es) ?_
    rintro vs ⟨⟨loaded, rfl, rest⟩, others⟩
    exact gives_pure ⟨⟨(key, v) :: loaded, rfl, first, second, rest⟩,
      List.forall_mem_cons.2 ⟨keyOnce, List.forall_mem_cons.2 ⟨valueOnce, others⟩⟩⟩

end

end Load

/-- What is known of the value of a document. -/
theorem Node.loaded_of_value? {n : Node String} {v : Value} (loaded : n.value? = some v) :
    n.CoveredBy v ∧ v.KeysOnce := by
  obtain ⟨⟨_, c⟩, run, rfl⟩ := Option.map_eq_some_iff.1 loaded
  exact (Load.gives_value n .empty _ c (by simp [Anchors.empty]) run).1

end TrafficIntent.Yaml
