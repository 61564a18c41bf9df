import Std.Data.String.ToInt
import TrafficIntent.Proofs.Json.Decoded
import TrafficIntent.Proofs.Json.ReadBack
import TrafficIntent.Proofs.Json.Renaming
import TrafficIntent.Proofs.Yaml.LoadedEntries
import TrafficIntent.Yaml.Manifest

/-!
What trees show of documents. The members of an object are named by the texts of keys, and a text may
spell a number or a truth value that is a key of the same map. Of two entries with one text the later
is shown.
-/

namespace TrafficIntent

namespace Json

variable {ms : List (String × Json)} {m : String × Json}

theorem nodup_inKeyOrder (ms : List (String × Json)) :
    ((inKeyOrder ms).map Prod.fst).Nodup := by
  rw [List.Nodup, List.pairwise_map]
  exact (pairwise_inKeyOrder ms).imp String.ne_of_lt

/-- A key that comes again costs a member. -/
theorem length_inKeyOrder_iff :
    (inKeyOrder ms).length = ms.length ↔ (ms.map Prod.fst).Nodup := by
  constructor
  · intro length
    have part : ((inKeyOrder ms).map Prod.fst).Subperm (ms.map Prod.fst) := by
      refine List.subperm_of_subset (nodup_inKeyOrder ms) ?_
      intro k hk
      obtain ⟨m, hm, rfl⟩ := List.mem_map.1 hk
      exact keys_inKeyOrder_subset ms m hm
    have perm := part.perm_of_length_le (by rw [List.length_map, List.length_map, length])
    exact perm.nodup_iff.1 (nodup_inKeyOrder ms)
  · intro once
    exact (perm_inKeyOrder once).length_eq

/-- The last member with a key is the one that stays. -/
theorem mem_inKeyOrder_of_last (before : List (String × Json)) {after : List (String × Json)}
    (last : m.1 ∉ after.map Prod.fst) : m ∈ inKeyOrder (before ++ m :: after) := by
  induction after using List.reverseRecOn with
  | nil =>
    rw [inKeyOrder_concat]
    exact (perm_putEntry_filter (pairwise_inKeyOrder before)).mem_iff.2 List.mem_cons_self
  | append_singleton after n ih =>
    rw [List.map_append, List.mem_append, not_or] at last
    have other : (m.1 != n.1) = true := bne_iff_ne.2 fun same => last.2 (by simp [same])
    rw [← List.cons_append, ← List.append_assoc, inKeyOrder_concat]
    refine (perm_putEntry_filter (pairwise_inKeyOrder _)).mem_iff.2 ?_
    exact List.mem_cons_of_mem _ (List.mem_filter.2 ⟨ih last.1, other⟩)

end Json

namespace Yaml

/-- A text that is written like another key. -/
def Value.Spells (k l : Value) : Prop := ∃ s, k = .string s ∧ l.keyText? = some s ∧ l ≠ .string s

theorem digit_of_mem_toString {n : Int} {c : Char} (there : c ∈ (toString n).toList) :
    c = '-' ∨ c.isDigit = true := by
  have chars : c ∈ Json.numberText (.integer n) := there
  cases n with
  | ofNat n =>
    rw [Int.ofNat_eq_natCast, Json.Scan.numberText_ofNat] at chars
    exact .inr (Json.Scan.isDigit_of_mem_toDigits chars)
  | negSucc n =>
    rw [Json.Scan.numberText_negSucc] at chars
    exact (List.mem_cons.1 chars).imp_right Json.Scan.isDigit_of_mem_toDigits

theorem toString_ne_truth (n : Int) (b : Bool) : toString n ≠ if b then "true" else "false" := by
  intro same
  have letter : 'e' ∈ (toString n).toList := by
    rw [same]
    cases b <;> decide
  have other := digit_of_mem_toString letter
  revert other
  decide

/-- Numbers and truth values are told apart by their texts. -/
theorem Value.eq_of_keyText? {k l : Value} {name : String} (hk : k.keyText? = some name)
    (hl : l.keyText? = some name) (key : k ≠ .string name) (other : l ≠ .string name) : k = l := by
  have written (s : String) (text : (string s).keyText? = some name) : string s = string name :=
    congrArg string (Option.some.inj text)
  cases k with
  | string s => exact (key (written s hk)).elim
  | integer m =>
    cases l with
    | string s => exact (other (written s hl)).elim
    | integer n => rw [Int.repr_inj.1 (Option.some.inj (hk.trans hl.symm))]
    | bool b => exact (toString_ne_truth m b (Option.some.inj (hk.trans hl.symm))).elim
    | _ => contradiction
  | bool a =>
    cases l with
    | string s => exact (other (written s hl)).elim
    | integer n => exact (toString_ne_truth n a (Option.some.inj (hl.trans hk.symm))).elim
    | bool b =>
      have apart : ∀ a b : Bool, (if a then "true" else "false") =
          (if b then "true" else "false") → a = b := by decide
      rw [apart a b (Option.some.inj (hk.trans hl.symm))]
    | _ => contradiction
  | _ => contradiction

/-- Different keys have one text only if one of them spells the other. -/
theorem Value.spells_of_keyText? {k l : Value} {name : String} (hk : k.keyText? = some name)
    (hl : l.keyText? = some name) (other : k ≠ l) : k.Spells l ∨ l.Spells k := by
  by_cases first : k = .string name
  · exact .inl ⟨name, first, hl, fun second => other (first.trans second.symm)⟩
  · by_cases second : l = .string name
    · exact .inr ⟨name, second, hk, first⟩
    · exact (other (Value.eq_of_keyText? hk hl first second)).elim

variable {es : List (Value × Value)} {l : List (String × Json)}

theorem keys_of_members (made : Value.members es = .ok l) :
    es.map (fun e => e.1.keyText?) = l.map fun m => some m.1 := by
  induction es generalizing l with
  | nil =>
    obtain rfl := Except.ok.inj made
    rfl
  | cons e es ih =>
    obtain ⟨k, v⟩ := e
    rw [Value.members] at made
    split at made
    · contradiction
    next name text =>
      obtain ⟨j, -, made⟩ := Json.Decoder.exists_of_bind made
      obtain ⟨rest, others, made⟩ := Json.Decoder.exists_of_bind made
      obtain rfl := Except.ok.inj made
      rw [List.map_cons, List.map_cons, text, ih others]

/-- No entry is lost if and only if no key spells another. -/
theorem length_inKeyOrder_members_iff (once : (es.map Prod.fst).Nodup)
    (made : Value.members es = .ok l) :
    (Json.inKeyOrder l).length = es.length ↔ ∀ d ∈ es, ∀ e ∈ es, ¬d.1.Spells e.1 := by
  have keys := keys_of_members made
  have length : es.length = l.length := by simpa using congrArg List.length keys
  have texts : (l.map Prod.fst).Nodup ↔ (es.map fun e => e.1.keyText?).Nodup := by
    rw [keys, ← List.nodup_map_iff fun _ _ => Option.some.inj, List.map_map]
    rfl
  rw [length, Json.length_inKeyOrder_iff, texts]
  constructor
  · rintro apart d hd e he ⟨s, text, spelled, other⟩
    have same : d.1.keyText? = e.1.keyText? := by rw [text, spelled, Value.keyText?]
    obtain rfl := List.inj_on_of_nodup_map apart hd he same
    exact other text
  · intro none
    have named : ∀ e ∈ es, ∃ name, e.1.keyText? = some name := by
      intro e he
      have there := List.mem_map_of_mem (f := fun e : Value × Value => e.1.keyText?) he
      rw [keys] at there
      obtain ⟨m, -, text⟩ := List.mem_map.1 there
      exact ⟨m.1, text.symm⟩
    rw [List.Nodup, List.pairwise_map] at once ⊢
    refine once.imp_of_mem ?_
    intro d e hd he other same
    obtain ⟨name, text⟩ := named e he
    cases Value.spells_of_keyText? (same.trans text) text other with
    | inl spells => exact none d hd e he spells
    | inr spells => exact none e he d hd spells

mutual

/-- What a tree shows of a value: all items of a list, and under each name the last entry of a map
whose key has this text. That is all entries if no key spells another. -/
def Value.ShownBy : Value → Json → Prop
  | .sequence vs, j => ∃ js, j = .array js ∧ ItemsShownBy vs js
  | .mapping es, j => ∃ ms, j = .object ms ∧ (ms.map Prod.fst).Nodup ∧
    (∀ m ∈ ms, ∃ e ∈ es, e.1.keyText? = some m.1) ∧ EntriesShownBy es ms ∧
    (ms.length = es.length ↔ ∀ d ∈ es, ∀ e ∈ es, ¬d.1.Spells e.1)
  | v, j => v.tree = .ok j

def ItemsShownBy : List Value → List Json → Prop
  | [], [] => True
  | v :: vs, j :: js => v.ShownBy j ∧ ItemsShownBy vs js
  | _, _ => False

def EntriesShownBy : List (Value × Value) → List (String × Json) → Prop
  | [], _ => True
  | (k, v) :: es, ms => EntriesShownBy es ms ∧ ((∀ e ∈ es, e.1.keyText? ≠ k.keyText?) →
    ∃ name j, k.keyText? = some name ∧ (name, j) ∈ ms ∧ v.ShownBy j)

end

mutual

theorem Value.shownBy_of_tree (v : Value) (once : v.KeysOnce) {j : Json} (made : v.tree = .ok j) :
    v.ShownBy j := by
  match v with
  | .bad | .null | .bool _ | .integer _ | .real _ | .string _ => exact made
  | .sequence vs =>
    rw [Value.tree] at made
    obtain ⟨js, items, made⟩ := Json.Decoder.exists_of_bind made
    exact ⟨js, (Except.ok.inj made).symm, itemsShownBy_of_trees vs once items⟩
  | .mapping es =>
    rw [Value.tree] at made
    obtain ⟨l, entries, made⟩ := Json.Decoder.exists_of_bind made
    have named : ∀ m ∈ Json.inKeyOrder l, ∃ e ∈ es, e.1.keyText? = some m.1 := by
      intro m hm
      obtain ⟨n, hn, key⟩ := List.mem_map.1 (Json.keys_inKeyOrder_subset l m hm)
      have there : some m.1 ∈ es.map fun e => e.1.keyText? := by
        rw [keys_of_members entries]
        exact List.mem_map.2 ⟨n, hn, congrArg some key⟩
      exact List.mem_map.1 there
    exact ⟨Json.inKeyOrder l, (Except.ok.inj made).symm, Json.nodup_inKeyOrder l, named,
      entriesShownBy_of_members es once.2 [] entries, length_inKeyOrder_members_iff once.1 entries⟩

theorem itemsShownBy_of_trees (vs : List Value) (once : ItemsKeysOnce vs) {js : List Json}
    (made : Value.trees vs = .ok js) : ItemsShownBy vs js := by
  match vs with
  | [] =>
    obtain rfl := Except.ok.inj made
    trivial
  | v :: vs =>
    rw [Value.trees] at made
    obtain ⟨j, first, made⟩ := Json.Decoder.exists_of_bind made
    obtain ⟨rest, others, made⟩ := Json.Decoder.exists_of_bind made
    obtain rfl := Except.ok.inj made
    exact ⟨Value.shownBy_of_tree v once.1 first, itemsShownBy_of_trees vs once.2 others⟩

/-- Entries are shown whatever members come before theirs. -/
theorem entriesShownBy_of_members (es : List (Value × Value)) (once : EntriesKeysOnce es)
    (before : List (String × Json)) {l : List (String × Json)}
    (made : Value.members es = .ok l) : EntriesShownBy es (Json.inKeyOrder (before ++ l)) := by
  match es with
  | [] => trivial
  | (k, v) :: es =>
    rw [Value.members] at made
    split at made
    · contradiction
    next name text =>
      obtain ⟨j, value, made⟩ := Json.Decoder.exists_of_bind made
      obtain ⟨rest, others, made⟩ := Json.Decoder.exists_of_bind made
      obtain rfl := Except.ok.inj made
      constructor
      · have later := entriesShownBy_of_members es once.2 (before ++ [(name, j)]) others
        rwa [List.append_assoc] at later
      · intro last
        have new : name ∉ rest.map Prod.fst := by
          intro there
          obtain ⟨m, hm, key⟩ := List.mem_map.1 there
          have again : some name ∈ es.map fun e => e.1.keyText? := by
            rw [keys_of_members others]
            exact List.mem_map.2 ⟨m, hm, congrArg some key⟩
          obtain ⟨e, he, same⟩ := List.mem_map.1 again
          exact last e he (same.trans text.symm)
        exact ⟨name, j, text, Json.mem_inKeyOrder_of_last before new,
          Value.shownBy_of_tree v once.1 value⟩

end

theorem forall₂_of_mapM {nodes : List (Node String)} {values : List Value}
    (loaded : nodes.mapM Node.value? = some values) :
    List.Forall₂ (fun n v => n.value? = some v) nodes values := by
  induction nodes generalizing values with
  | nil =>
    obtain rfl := Option.some.inj loaded
    exact .nil
  | cons n nodes ih =>
    rw [List.mapM_cons] at loaded
    obtain ⟨v, first, loaded⟩ := Option.bind_eq_some_iff.1 loaded
    obtain ⟨vs, others, loaded⟩ := Option.bind_eq_some_iff.1 loaded
    obtain rfl := Option.some.inj loaded
    exact .cons first (ih others)

theorem forall₂_of_itemsShownBy {vs : List Value} {js : List Json} (shown : ItemsShownBy vs js) :
    List.Forall₂ Value.ShownBy vs js := by
  induction vs generalizing js with
  | nil =>
    cases js with
    | nil => exact .nil
    | cons j js => exact shown.elim
  | cons v vs ih =>
    cases js with
    | nil => exact shown.elim
    | cons j js => exact .cons shown.1 (ih shown.2)

/-- A text that is accepted has a tree for each of its documents. The value of the document has what
the document has, and the tree shows what the value has. -/
theorem documents_shown {text : String} {js : List Json} (accepted : manifests text = .ok js) :
    ∃ nodes values, documents? .v12 text = some nodes ∧
      List.Forall₂ (fun n v => n.value? = some v ∧ n.CoveredBy v ∧ v.KeysOnce) nodes values ∧
      List.Forall₂ Value.ShownBy values js := by
  unfold manifests at accepted
  split at accepted
  · contradiction
  next values there =>
    obtain ⟨nodes, parsed, each⟩ := Option.bind_eq_some_iff.1 there
    have known : List.Forall₂ (fun n v => n.value? = some v ∧ n.CoveredBy v ∧ v.KeysOnce)
        nodes values := by
      refine (forall₂_of_mapM each).imp ?_
      intro n v loaded
      exact ⟨loaded, n.loaded_of_value? loaded⟩
    have once : ItemsKeysOnce values := by
      clear there parsed each accepted
      induction known with
      | nil => trivial
      | cons first _ ih => exact ⟨first.2.2, ih⟩
    exact ⟨nodes, values, parsed, known,
      forall₂_of_itemsShownBy (itemsShownBy_of_trees values once accepted)⟩

theorem eq_some_of_sameItems {o : Option (List Value)} {vs : List Value}
    (same : o.any (Value.sameItems vs) = true) : o = some vs := by
  cases o with
  | none => contradiction
  | some ws => rw [(Value.sameItems_iff vs ws).1 same]

theorem manifests_of_loaded {text : String} {vs : List Value}
    (loaded : (documents? .v12 text).bind (List.mapM Node.value?) = some vs) :
    manifests text = Value.trees vs := by
  unfold manifests
  rw [loaded]

/-- Numbers with quotes and without, and a map that is empty. -/
def quotedPorts : String := "port: 53\ncilium_port: '53'\nempty: \x7b\x7d\n---\n- first\n"

theorem documents_shown_quotedPorts :
    manifests quotedPorts = .ok [.object [("cilium_port", .string "53"), ("empty", .object []),
        ("port", .int 53)], .array [.string "first"]] ∧
      ∃ nodes values, documents? .v12 quotedPorts = some nodes ∧
        List.Forall₂ (fun n v => n.value? = some v ∧ n.CoveredBy v ∧ v.KeysOnce) nodes values ∧
        List.Forall₂ Value.ShownBy values [.object [("cilium_port", .string "53"),
          ("empty", .object []), ("port", .int 53)], .array [.string "first"]] := by
  have loaded : (documents? .v12 quotedPorts).bind (List.mapM Node.value?) =
      some [.mapping [(.string "port", .integer 53), (.string "cilium_port", .string "53"),
        (.string "empty", .mapping [])], .sequence [.string "first"]] :=
    eq_some_of_sameItems (by decide +kernel)
  have accepted : manifests quotedPorts = .ok [.object [("cilium_port", .string "53"),
      ("empty", .object []), ("port", .int 53)], .array [.string "first"]] :=
    manifests_of_loaded loaded
  exact ⟨accepted, documents_shown accepted⟩

/-- Two keys, a number and the text that spells it. -/
def spelledKey : String := "1: a\n'1': b\n"

/-- The second of two entries takes the place of the first. -/
theorem spelledKey_lost :
    (documents? .v12 spelledKey).bind (List.mapM Node.value?) =
        some [.mapping [(.integer 1, .string "a"), (.string "1", .string "b")]] ∧
      manifests spelledKey = .ok [.object [("1", .string "b")]] := by
  have loaded : (documents? .v12 spelledKey).bind (List.mapM Node.value?) =
      some [.mapping [(.integer 1, .string "a"), (.string "1", .string "b")]] :=
    eq_some_of_sameItems (by decide +kernel)
  exact ⟨loaded, manifests_of_loaded loaded⟩

end Yaml

end TrafficIntent
