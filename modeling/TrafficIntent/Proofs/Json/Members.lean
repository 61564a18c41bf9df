import TrafficIntent.Json.Members
import TrafficIntent.Proofs.KeyOrder

namespace TrafficIntent.Json

section

variable {α : Type} {name : String} {write : α → Json} {ms ns : List (String × Json)}

theorem ifSome_fst (name : String) (write : α → Json) (o : Option α) :
    ((ifSome name write o).map Prod.fst).Sublist [name] := by
  cases o with
  | none => exact List.nil_sublist _
  | some a => exact List.Sublist.refl _

theorem unlessEmpty_fst (name : String) (write : α → Json) (xs : List α) :
    ((unlessEmpty name write xs).map Prod.fst).Sublist [name] := by
  cases xs with
  | nil => exact List.nil_sublist _
  | cons x xs => exact List.Sublist.refl _

theorem unlessBare_fst (name : String) (l : Labels) :
    ((unlessBare name l).map Prod.fst).Sublist [name] := by
  unfold unlessBare
  split
  · exact List.nil_sublist _
  · exact List.Sublist.refl _

theorem sortedMembers_fst (ms : List (String × Json)) :
    (sortedMembers ms).map Prod.fst = ms.map Prod.fst := by
  rw [sortedMembers_eq_map, List.map_map]
  rfl

theorem sortedMembers_append : sortedMembers (ms ++ ns) = sortedMembers ms ++ sortedMembers ns := by
  simp only [sortedMembers_eq_map, List.map_append]

theorem sorted_listOf (xs : List α) :
    (listOf write xs).sorted = array (xs.map fun x => (write x).sorted) := by
  have items : (listOf write xs).sorted = array (sortedItems (xs.map write)) := rfl
  rw [items, sortedItems_eq_map, List.map_map]
  rfl

theorem pairwise_inKeyOrder (ms : List (String × Json)) :
    (inKeyOrder ms).Pairwise fun a b => a.1 < b.1 := by
  have listed : (KeyMap.ofList ms).entries = inKeyOrder ms := KeyMap.entries_foldl_insert ms
  rw [← listed]
  exact (KeyMap.ofList ms).sorted

theorem inKeyOrder_of_perm (perm : ms.Perm ns) (distinct : (ms.map Prod.fst).Nodup) :
    inKeyOrder ms = inKeyOrder ns := by
  have first := perm_inKeyOrder distinct
  have second := perm_inKeyOrder ((perm.map Prod.fst).nodup_iff.1 distinct)
  have same : (inKeyOrder ms).Perm (inKeyOrder ns) := (first.trans perm).trans second.symm
  exact eq_of_perm_of_sorted same (pairwise_inKeyOrder ms) (pairwise_inKeyOrder ns)

/-- Members that had the same keys in the same order were the same. -/
theorem inKeyOrder_inj (distinct : (ms.map Prod.fst).Nodup)
    (keys : ms.map Prod.fst = ns.map Prod.fst) (h : inKeyOrder ms = inKeyOrder ns) : ms = ns := by
  have first := perm_inKeyOrder distinct
  have second := perm_inKeyOrder (keys ▸ distinct)
  rw [h] at first
  have perm : ms.Perm ns := first.symm.trans second
  have same : ∀ m ∈ ms, ∀ n ∈ ns, m.1 = n.1 → m = n := by
    intro m hm n hn key
    exact List.inj_on_of_nodup_map distinct hm (perm.mem_iff.2 hn) key
  clear distinct h first second perm
  induction ms generalizing ns with
  | nil => exact (List.map_eq_nil_iff.1 keys.symm).symm
  | cons m ms ih =>
    cases ns with
    | nil => simp at keys
    | cons n ns =>
      obtain ⟨key, keys⟩ := List.cons.inj keys
      have later := ih keys fun m hm n hn =>
        same m (List.mem_cons_of_mem _ hm) n (List.mem_cons_of_mem _ hn)
      rw [same m List.mem_cons_self n List.mem_cons_self key, later]

theorem sorted_object_congr (same : sortedMembers ms = sortedMembers ns) :
    (object ms).sorted = (object ns).sorted :=
  congrArg (fun members => object (inKeyOrder members)) same

/-- Objects with the same members are the same tree, in whatever order these were written. -/
theorem sorted_object_of_perm (perm : (sortedMembers ms).Perm (sortedMembers ns))
    (distinct : (ms.map Prod.fst).Nodup) : (object ms).sorted = (object ns).sorted := by
  have once : ((sortedMembers ms).map Prod.fst).Nodup := by rwa [sortedMembers_fst]
  exact congrArg object (inKeyOrder_of_perm perm once)

end

end TrafficIntent.Json
