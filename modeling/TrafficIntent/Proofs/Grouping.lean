import Mathlib.Data.List.Induction
import Mathlib.Data.List.Nodup
import Mathlib.Data.List.Perm.Basic
import TrafficIntent.Grouping

namespace TrafficIntent

/-- Of blocks for different things only one is for a given one. -/
theorem flatMap_ite_eq {α β : Type} [DecidableEq α] {xs : List α} {x : α} (f : α → List β)
    (distinct : xs.Nodup) (none : x ∉ xs → f x = []) :
    (xs.flatMap fun y => if y = x then f y else []) = f x := by
  by_cases there : x ∈ xs
  · clear none
    induction xs with
    | nil => simp at there
    | cons y ys ih =>
      obtain ⟨new, distinct⟩ := List.nodup_cons.1 distinct
      rw [List.flatMap_cons]
      by_cases own : y = x
      · have others : (ys.flatMap fun y => if y = x then f y else []) = [] := by
          rw [List.flatMap_eq_nil_iff]
          intro z hz
          exact if_neg fun again => new (by rw [own, ← again]; exact hz)
        rw [if_pos own, others, own, List.append_nil]
      · rw [if_neg own, List.nil_append]
        exact ih distinct ((List.mem_cons.1 there).resolve_left (Ne.symm own))
  · rw [none there, List.flatMap_eq_nil_iff]
    intro y hy
    have other : y ≠ x := fun same => there (by rw [← same]; exact hy)
    exact if_neg other

section Partition

variable {κ : Type} [BEq κ] [LawfulBEq κ]

theorem eraseDups_concat (ks : List κ) (k : κ) :
    (ks ++ [k]).eraseDups = if k ∈ ks then ks.eraseDups else ks.eraseDups ++ [k] := by
  rw [List.eraseDups_append]
  by_cases h : k ∈ ks
  · simp [h, List.removeAll]
  · simp [h, List.removeAll, List.eraseDups_cons]

theorem nodup_eraseDups (ks : List κ) : ks.eraseDups.Nodup := by
  induction ks using List.reverseRecOn with
  | nil => simp
  | append_singleton ks k ih =>
    rw [eraseDups_concat]
    split
    · exact ih
    · next h => exact List.Nodup.append ih (by simp) (by simpa using h)

theorem eraseDups_eq_nil {ks : List κ} : ks.eraseDups = [] ↔ ks = [] := by
  simp only [List.eq_nil_iff_forall_not_mem, List.mem_eraseDups]

/-- A list that goes on keeps its first appearances. -/
theorem eraseDups_prefix {ks ls : List κ} (goesOn : ks <+: ls) : ks.eraseDups <+: ls.eraseDups := by
  obtain ⟨further, rfl⟩ := goesOn
  rw [List.eraseDups_append]
  exact List.prefix_append _ _

/-- Repetitions at the end of a list count as one. -/
theorem eraseDups_append_replicate (ks : List κ) (k : κ) (n : Nat) :
    (ks ++ List.replicate (n + 1) k).eraseDups = (ks ++ [k]).eraseDups := by
  induction n with
  | zero => rfl
  | succ n ih =>
    have known : k ∈ ks ++ List.replicate (n + 1) k := by simp
    rw [List.replicate_succ', ← List.append_assoc, eraseDups_concat, if_pos known, ih]

theorem eraseDups_filter_beq (ks : List κ) (k : κ) :
    (ks.filter (· == k)).eraseDups = if k ∈ ks then [k] else [] := by
  rw [List.filter_beq]
  split
  next named =>
    have some : ks.count k ≠ 0 := by simpa [List.count_eq_zero] using named
    obtain ⟨n, count⟩ := Nat.exists_eq_add_one_of_ne_zero some
    rw [count, ← List.nil_append (List.replicate _ k), eraseDups_append_replicate]
    simp [List.eraseDups_cons]
  next other =>
    rw [List.count_eq_zero.2 other]
    rfl

/-- The groups of a list, each picked out of the list by its key. -/
def partition {α : Type} (key : α → κ) (items : List α) : List (Group κ α) :=
  (items.map key).eraseDups.map fun k => ⟨k, items.filter fun a => key a == k⟩

/-- One more item changes the partition as it changes the groups. -/
theorem partition_concat {α : Type} (key : α → κ) (items : List α) (a : α) :
    partition key (items ++ [a]) =
      if key a ∈ items.map key then
        (partition key items).map fun e =>
          if e.key == key a then { e with members := e.members ++ [a] } else e
      else partition key items ++ [⟨key a, [a]⟩] := by
  have members (k : κ) : (items ++ [a]).filter (fun b => key b == k) =
      (items.filter fun b => key b == k) ++ if key a == k then [a] else [] := by
    rw [List.filter_append]
    cases hk : key a == k <;> simp [hk]
  simp only [partition, List.map_append, List.map_cons, List.map_nil, eraseDups_concat, members]
  by_cases h : key a ∈ items.map key
  · simp only [h, if_true, List.map_map]
    apply List.map_congr_left
    intro k _
    by_cases hk : key a = k
    · simp [hk]
    · simp [hk, Ne.symm hk]
  · have absent : items.filter (fun b => key b == key a) = [] := by
      rw [List.filter_eq_nil_iff]
      intro b hb eq
      exact h (List.mem_map.2 ⟨b, hb, by simpa using eq⟩)
    simp only [h, if_false, List.map_append, List.map_cons, List.map_nil, absent, beq_self_eq_true,
      if_true, List.nil_append]
    congr 1
    apply List.map_congr_left
    intro k hk
    have ne : key a ≠ k := by
      intro eq
      exact h (by rw [eq]; exact List.mem_eraseDups.1 hk)
    simp [ne]

/-- Items that are picked out by the keys of a list come back once each if the keys are distinct and
all of theirs are among them. -/
theorem perm_flatMap_filter {α : Type} {key : α → κ} {ks : List κ} (distinct : ks.Nodup)
    {items : List α} (named : ∀ a ∈ items, key a ∈ ks) :
    (ks.flatMap fun k => items.filter fun a => key a == k).Perm items := by
  classical
  induction items with
  | nil => simp
  | cons a items ih =>
    have rest := ih fun b hb => named b (List.mem_cons_of_mem a hb)
    have own : (ks.flatMap fun k => if k = key a then [a] else []) = [a] := by
      apply flatMap_ite_eq (fun _ => [a]) distinct
      intro absent
      exact absurd (named a List.mem_cons_self) absent
    have split (k : κ) : (a :: items).filter (fun b => key b == k) =
        (if k = key a then [a] else []) ++ items.filter fun b => key b == k := by
      by_cases same : k = key a
      · simp [same]
      · simp [same, Ne.symm same]
    simp only [split]
    apply (List.flatMap_append_perm ks _ _).symm.trans
    rw [own]
    exact rest.cons a

/-- Each item is in one group, as often as in the list. -/
theorem perm_members_partition {α : Type} (key : α → κ) (items : List α) :
    ((partition key items).flatMap Group.members).Perm items := by
  have named : ∀ a ∈ items, key a ∈ (items.map key).eraseDups := by
    intro a ha
    rw [List.mem_eraseDups]
    exact List.mem_map_of_mem ha
  rw [partition, List.flatMap_map]
  exact perm_flatMap_filter (nodup_eraseDups _) named

end Partition

namespace Grouping

variable {κ α : Type} [BEq κ] [Hashable κ]

def keys (g : Grouping κ α) : List κ := g.groups.toList.map Group.key

/-- The index sends a key to a place exactly if the group at that place has the key. -/
def Indexed (g : Grouping κ α) : Prop :=
  ∀ (k : κ) (i : Nat), g.index[k]? = some i ↔ g.keys[i]? = some k

theorem ofList_concat (key : α → κ) (items : List α) (a : α) :
    ofList key (items ++ [a]) = (ofList key items).add (key a) a := by
  simp [ofList]

theorem Indexed.mem_keys {g : Grouping κ α} (h : g.Indexed) {k : κ} :
    k ∈ g.keys ↔ ∃ i, g.index[k]? = some i := by
  simp only [List.mem_iff_getElem?, h k]

theorem Indexed.index_eq_none {g : Grouping κ α} (h : g.Indexed) {k : κ} (hk : k ∉ g.keys) :
    g.index[k]? = none := by
  cases hi : g.index[k]? with
  | none => rfl
  | some i => exact absurd (h.mem_keys.2 ⟨i, hi⟩) hk

section

variable [LawfulBEq κ]

/-- What the addition of an item does to the groups: its group gets one more member, or there is a
new group at the end. -/
theorem Indexed.groups_add {g : Grouping κ α} (h : g.Indexed) (k : κ) (a : α) :
    (g.add k a).groups.toList =
      if k ∈ g.keys then
        g.groups.toList.map fun e => if e.key == k then { e with members := e.members ++ [a] } else e
      else g.groups.toList ++ [⟨k, [a]⟩] := by
  by_cases hk : k ∈ g.keys
  · obtain ⟨i, hi⟩ := h.mem_keys.1 hk
    have place := (h k i).1 hi
    simp only [add, hi, hk, if_true]
    apply List.ext_getElem?
    intro j
    rw [Array.toList_modify, List.getElem?_modify, List.getElem?_map]
    cases hj : g.groups.toList[j]? with
    | none => rfl
    | some e =>
      have key : g.keys[j]? = some e.key := by simp only [keys, List.getElem?_map, hj, Option.map_some]
      by_cases same : i = j
      · subst same
        have eq : e.key = k := by simpa [key] using place
        simp [eq]
      · have ne : e.key ≠ k := by
          intro eq
          have := (h k j).2 (by rw [key, eq])
          exact same (by simpa [hi] using this)
        simp [same, ne]
  · simp [add, h.index_eq_none hk, hk]

theorem Indexed.keys_add {g : Grouping κ α} (h : g.Indexed) (k : κ) (a : α) :
    (g.add k a).keys = if k ∈ g.keys then g.keys else g.keys ++ [k] := by
  show (g.add k a).groups.toList.map Group.key = _
  rw [h.groups_add]
  split
  · rw [List.map_map]
    apply List.map_congr_left
    intro e _
    simp only [Function.comp_apply]
    split <;> rfl
  · simp [keys]

end

variable [LawfulBEq κ] [LawfulHashable κ]

theorem indexed_empty : (empty : Grouping κ α).Indexed := by
  intro k i
  simp [empty, keys]

/-- The index stays in step with the groups. -/
theorem Indexed.add {g : Grouping κ α} (h : g.Indexed) (k : κ) (a : α) : (g.add k a).Indexed := by
  intro l i
  rw [h.keys_add]
  by_cases hk : k ∈ g.keys
  · obtain ⟨j, hj⟩ := h.mem_keys.1 hk
    simp only [hk, if_true, ← h l i, Grouping.add, hj]
  · have size : g.groups.size = g.keys.length := by simp [keys]
    simp only [hk, if_false, Grouping.add, h.index_eq_none hk, Std.HashMap.getElem?_insert, size]
    by_cases hl : k = l
    · subst hl
      simp only [beq_self_eq_true, if_true, Option.some.injEq, List.getElem?_append]
      split
      · next hlt =>
        constructor
        · intro eq
          omega
        · intro eq
          exact absurd (List.mem_of_getElem? eq) hk
      · next hge =>
        constructor
        · intro eq
          simp [← eq]
        · intro eq
          have := (List.getElem?_eq_some_iff.1 eq).1
          simp at this
          omega
    · simp only [beq_iff_eq, hl, if_false, h l i]
      rw [List.getElem?_append]
      split
      · rfl
      · next hge =>
        rw [List.getElem?_eq_none (Nat.le_of_not_lt hge)]
        constructor
        · intro eq
          cases eq
        · intro eq
          have := List.mem_of_getElem? eq
          exact absurd (by simpa using this) (Ne.symm hl)

theorem indexed_ofList (key : α → κ) (items : List α) : (ofList key items).Indexed := by
  induction items using List.reverseRecOn with
  | nil => exact indexed_empty
  | append_singleton items a ih =>
    rw [ofList_concat]
    exact ih.add _ _

end Grouping

open Grouping

theorem groupsOf_eq_partition {κ α : Type} [BEq κ] [Hashable κ] [LawfulBEq κ] [LawfulHashable κ]
    (key : α → κ) (items : List α) : groupsOf key items = partition key items := by
  unfold groupsOf
  induction items using List.reverseRecOn with
  | nil => simp [ofList, empty, partition]
  | append_singleton items a ih =>
    have indexed := indexed_ofList key items
    have keys : (ofList key items).keys = (items.map key).eraseDups := by
      simp [Grouping.keys, ih, partition, Function.comp_def]
    rw [ofList_concat, indexed.groups_add, partition_concat, keys, ih]
    simp only [List.mem_eraseDups]

end TrafficIntent
