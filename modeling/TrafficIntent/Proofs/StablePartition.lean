import TrafficIntent.Proofs.Grouping

namespace TrafficIntent

variable {κ α : Type}

/-- The sizes of groups add up to the number of their members. -/
theorem length_members (groups : List (Group κ α)) :
    (groups.flatMap Group.members).length =
      groups.foldr (fun g n => g.members.length + n) 0 := by
  induction groups with
  | nil => rfl
  | cons g groups ih => rw [List.flatMap_cons, List.length_append, ih, List.foldr_cons]

section

variable [BEq κ]

/-- What it means for groups to divide the items of a list by their keys. -/
structure IsStablePartition (key : α → κ) (items : List α) (groups : List (Group κ α)) : Prop where
  keys : ∀ k, k ∈ groups.map Group.key ↔ ∃ a ∈ items, key a = k
  distinct : (groups.map Group.key).Nodup
  order : (groups.map Group.key).Pairwise fun k l =>
    (items.map key).idxOf k < (items.map key).idxOf l
  filled : ∀ g ∈ groups, g.members ≠ []
  members : ∀ g ∈ groups, g.members = items.filter fun a => key a == g.key
  inOne : ∀ a ∈ items, ∃ g ∈ groups, a ∈ g.members ∧ ∀ h ∈ groups, a ∈ h.members → h = g
  asOften : (groups.flatMap Group.members).Perm items
  sizes : groups.foldr (fun g n => g.members.length + n) 0 = items.length

variable (key : α → κ) (items : List α)

theorem keys_partition :
    (partition key items).map Group.key = (items.map key).eraseDups := by
  rw [partition, List.map_map]
  exact List.map_id _

theorem members_of_mem_partition {g : Group κ α} (hg : g ∈ partition key items) :
    g.members = items.filter fun a => key a == g.key := by
  obtain ⟨k, -, rfl⟩ := List.mem_map.1 hg
  rfl

variable [LawfulBEq κ]

/-- First appearances come in order. -/
theorem pairwise_idxOf_eraseDups (ks : List κ) :
    ks.eraseDups.Pairwise fun k l => ks.idxOf k < ks.idxOf l := by
  induction ks using List.reverseRecOn with
  | nil => exact .nil
  | append_singleton ks k ih =>
    have earlier : ks.eraseDups.Pairwise fun l m =>
        (ks ++ [k]).idxOf l < (ks ++ [k]).idxOf m := by
      refine ih.imp_of_mem ?_
      intro l m hl hm less
      rw [List.idxOf_append_of_mem (List.mem_eraseDups.1 hl),
        List.idxOf_append_of_mem (List.mem_eraseDups.1 hm)]
      exact less
    rw [eraseDups_concat]
    split
    · exact earlier
    · next new =>
      refine List.pairwise_append.2 ⟨earlier, List.pairwise_singleton _ _, ?_⟩
      intro l hl m hm
      have known : l ∈ ks := List.mem_eraseDups.1 hl
      have place := List.idxOf_lt_length_of_mem known
      rw [List.mem_singleton.1 hm, List.idxOf_append_of_mem known,
        List.idxOf_append_of_notMem new]
      omega

/-- The group of an item's key is there, and it is the only one that has the item. -/
theorem exists_group_of_mem {a : α} (ha : a ∈ items) :
    ∃ g ∈ partition key items, a ∈ g.members ∧
      ∀ h ∈ partition key items, a ∈ h.members → h = g := by
  have named : key a ∈ (items.map key).eraseDups :=
    List.mem_eraseDups.2 (List.mem_map_of_mem ha)
  refine ⟨_, List.mem_map_of_mem named, List.mem_filter.2 ⟨ha, beq_self_eq_true _⟩, ?_⟩
  intro h hh there
  obtain ⟨k, -, rfl⟩ := List.mem_map.1 hh
  have own : key a = k := eq_of_beq (List.mem_filter.1 there).2
  rw [own]

theorem isStablePartition_partition : IsStablePartition key items (partition key items) where
  keys k := by rw [keys_partition, List.mem_eraseDups, List.mem_map]
  distinct := by
    rw [keys_partition]
    exact nodup_eraseDups _
  order := by
    rw [keys_partition]
    exact pairwise_idxOf_eraseDups _
  filled g hg := by
    have named : g.key ∈ (items.map key).eraseDups := by
      rw [← keys_partition]
      exact List.mem_map_of_mem hg
    obtain ⟨a, ha, own⟩ := List.mem_map.1 (List.mem_eraseDups.1 named)
    rw [members_of_mem_partition key items hg]
    exact List.ne_nil_of_mem (List.mem_filter.2 ⟨ha, beq_iff_eq.2 own⟩)
  members _ hg := members_of_mem_partition key items hg
  inOne _ ha := exists_group_of_mem key items ha
  asOften := perm_members_partition key items
  sizes := by
    rw [← length_members]
    exact (perm_members_partition key items).length_eq

end

variable [BEq κ] [Hashable κ]

namespace Grouping

/-- What the index says of a place is said of a group that is there. -/
theorem Indexed.index_iff {g : Grouping κ α} (h : g.Indexed) {k : κ} {i : Nat} :
    g.index[k]? = some i ↔ ∃ inside : i < g.groups.size, g.groups[i].key = k := by
  rw [h k i, keys, List.getElem?_map, Array.getElem?_toList, Option.map_eq_some_iff]
  simp only [Array.getElem?_eq_some_iff]
  constructor
  · rintro ⟨e, ⟨inside, rfl⟩, own⟩
    exact ⟨inside, own⟩
  · rintro ⟨inside, own⟩
    exact ⟨_, ⟨inside, rfl⟩, own⟩

/-- A grouping may be left and taken up again at any item. -/
theorem foldl_ofList (key : α → κ) (done rest : List α) :
    rest.foldl (fun g a => g.add (key a) a) (ofList key done) = ofList key (done ++ rest) := by
  rw [ofList, ofList, List.foldl_append]

end Grouping

variable [LawfulBEq κ] [LawfulHashable κ]

/-- Grouping divides a list by its keys, and at every item that it comes to, the index has a key
exactly if there is a group of the key at that place. -/
theorem groupsOf_isStablePartition (key : α → κ) (items : List α) :
    IsStablePartition key items (groupsOf key items) ∧
    ∀ done rest, done ++ rest = items →
      rest.foldl (fun g a => g.add (key a) a) (Grouping.ofList key done) =
        Grouping.ofList key items ∧
      ∀ k i, (Grouping.ofList key done).index[k]? = some i ↔
        ∃ inside : i < (Grouping.ofList key done).groups.size,
          (Grouping.ofList key done).groups[i].key = k := by
  constructor
  · rw [groupsOf_eq_partition]
    exact isStablePartition_partition key items
  · rintro done rest rfl
    refine ⟨Grouping.foldl_ofList key done rest, ?_⟩
    intro k i
    exact (Grouping.indexed_ofList key done).index_iff

/-- Numbers under letters, of which two come again. -/
def lettered : List (String × Nat) := [("b", 1), ("a", 2), ("b", 3), ("c", 4), ("a", 5)]

theorem groupsOf_isStablePartition_lettered :
    groupsOf Prod.fst lettered =
        [⟨"b", [("b", 1), ("b", 3)]⟩, ⟨"a", [("a", 2), ("a", 5)]⟩, ⟨"c", [("c", 4)]⟩] ∧
      IsStablePartition Prod.fst lettered (groupsOf Prod.fst lettered) ∧
      ∀ k i, (Grouping.ofList Prod.fst (lettered.take 2)).index[k]? = some i ↔
        ∃ inside : i < (Grouping.ofList Prod.fst (lettered.take 2)).groups.size,
          (Grouping.ofList Prod.fst (lettered.take 2)).groups[i].key = k := by
  obtain ⟨divided, inStep⟩ := groupsOf_isStablePartition Prod.fst lettered
  refine ⟨?_, divided, (inStep _ _ (List.take_append_drop 2 lettered)).2⟩
  rw [groupsOf_eq_partition]
  decide

end TrafficIntent
