import Mathlib.Data.List.Nodup
import Mathlib.Data.List.Perm.Basic
import TrafficIntent.Json

namespace TrafficIntent

section

variable {α : Type} {k : String} {v : α} {l acc : List (String × α)}

theorem perm_putEntry (new : k ∉ l.map Prod.fst) : (putEntry k v l).Perm ((k, v) :: l) := by
  induction l with
  | nil => exact .refl _
  | cons e l ih =>
    obtain ⟨other, later⟩ := not_or.1 (List.mem_cons.not.1 new)
    simp only [putEntry]
    split
    next => exact .refl _
    next => exact ((ih later).cons e).trans (.swap _ _ _)

theorem perm_foldl_putEntry (distinct : ((acc ++ l).map Prod.fst).Nodup) :
    (l.foldl (fun acc e => putEntry e.1 e.2 acc) acc).Perm (acc ++ l) := by
  induction l generalizing acc with
  | nil => rw [List.append_nil]; exact .refl _
  | cons e l ih =>
    have moved : (acc ++ e :: l).Perm (e :: acc ++ l) := List.perm_middle
    have split : (e.1 :: (acc ++ l).map Prod.fst).Nodup := (moved.map Prod.fst).nodup_iff.1 distinct
    have new : e.1 ∉ acc.map Prod.fst := fun there =>
      (List.nodup_cons.1 split).1 (by rw [List.map_append]; exact List.mem_append_left _ there)
    have put := (perm_putEntry (v := e.2) new).append_right l
    refine (ih ((put.map Prod.fst).nodup_iff.2 split)).trans (put.trans moved.symm)

/-- A key beyond all others goes to the end. -/
theorem putEntry_cons_of_lt {j : String} {w : α} (less : k < j) :
    putEntry k v ((j, w) :: l) = (k, v) :: (j, w) :: l := if_pos less

theorem putEntry_cons_of_gt {j : String} {w : α} (more : j < k) :
    putEntry k v ((j, w) :: l) = (j, w) :: putEntry k v l := by
  rw [putEntry, if_neg (String.lt_asymm more), if_neg (String.ne_of_lt more).symm]

theorem putEntry_of_lt (beyond : ∀ e ∈ l, e.1 < k) : putEntry k v l = l ++ [(k, v)] := by
  induction l with
  | nil => rfl
  | cons e l ih =>
    rw [putEntry_cons_of_gt (beyond e List.mem_cons_self),
      ih fun d hd => beyond d (List.mem_cons_of_mem _ hd)]
    rfl

theorem foldl_putEntry_of_sorted (sorted : (acc ++ l).Pairwise fun a b => a.1 < b.1) :
    l.foldl (fun acc e => putEntry e.1 e.2 acc) acc = acc ++ l := by
  induction l generalizing acc with
  | nil => rw [List.append_nil]; rfl
  | cons e l ih =>
    have beyond : ∀ d ∈ acc, d.1 < e.1 := fun d hd =>
      (List.pairwise_append.1 sorted).2.2 d hd e List.mem_cons_self
    have parts : acc ++ e :: l = acc ++ [e] ++ l := by simp
    rw [List.foldl_cons, putEntry_of_lt beyond, parts, ih (by rwa [← parts])]

/-- Entries have one key order only. -/
theorem eq_of_perm_of_sorted (perm : l.Perm acc) (hl : l.Pairwise fun a b => a.1 < b.1)
    (hacc : acc.Pairwise fun a b => a.1 < b.1) : l = acc := by
  apply perm.eq_of_pairwise _ hl hacc
  intro a b _ _ less more
  exact absurd (String.lt_trans less more) (String.lt_irrefl _)

end

theorem Json.perm_inKeyOrder {ms : List (String × Json)} (distinct : (ms.map Prod.fst).Nodup) :
    (inKeyOrder ms).Perm ms :=
  perm_foldl_putEntry (show (([] ++ ms).map Prod.fst).Nodup from distinct)

theorem Json.inKeyOrder_of_sorted {ms : List (String × Json)}
    (sorted : ms.Pairwise fun a b => a.1 < b.1) : inKeyOrder ms = ms :=
  foldl_putEntry_of_sorted (show ([] ++ ms).Pairwise _ from sorted)

namespace KeyMap

variable {α : Type} {m n : KeyMap α}

theorem ext_entries (h : m.entries = n.entries) : m = n := by
  cases m
  cases n
  cases h
  rfl

theorem entries_foldl_insert (l : List (String × α)) :
    (l.foldl (fun m e => m.insert e.1 e.2) m).entries =
      l.foldl (fun acc e => putEntry e.1 e.2 acc) m.entries := by
  induction l generalizing m with
  | nil => rfl
  | cons e l ih => exact ih

theorem ofList_entries (m : KeyMap α) : ofList m.entries = m :=
  ext_entries ((entries_foldl_insert m.entries).trans (foldl_putEntry_of_sorted m.sorted))

theorem mem_entries {k : String} {v : α} : (k, v) ∈ m.entries ↔ m.get? k = some v := by
  obtain ⟨l, sorted⟩ := m
  show _ ↔ (l.find? fun e => e.1 == k).map Prod.snd = some v
  induction l with
  | nil => simp
  | cons e l ih =>
    obtain ⟨first, sorted⟩ := List.pairwise_cons.1 sorted
    rw [List.mem_cons, List.find?_cons]
    by_cases own : e.1 = k
    · have absent : (k, v) ∉ l := fun there =>
        absurd (first _ there) (by rw [own]; exact String.lt_irrefl k)
      simp [own, absent, Prod.ext_iff, eq_comm]
    · have other : (k, v) ≠ e := fun same => own (by rw [← same])
      rw [beq_eq_false_iff_ne.2 own]
      simpa only [other, false_or] using ih sorted

/-- Maps that agree on every key are the same. -/
theorem ext_get? (h : ∀ k, m.get? k = n.get? k) : m = n := by
  have members : ∀ e, e ∈ m.entries ↔ e ∈ n.entries := by
    rintro ⟨k, v⟩
    rw [mem_entries, mem_entries, h]
  have distinct (o : KeyMap α) : o.entries.Nodup := by
    refine o.sorted.imp ?_
    rintro a b less rfl
    exact String.lt_irrefl _ less
  have perm := (List.perm_ext_iff_of_nodup (distinct m) (distinct n)).2 members
  exact ext_entries (eq_of_perm_of_sorted perm m.sorted n.sorted)

theorem insert_comm {k l : String} (other : k ≠ l) (v w : α) :
    (m.insert k v).insert l w = (m.insert l w).insert k v := by
  apply ext_get?
  intro j
  simp only [get?_insert]
  split <;> split <;> simp_all

theorem insert_insert (k : String) (v w : α) : (m.insert k v).insert k w = m.insert k w := by
  apply ext_get?
  intro j
  simp only [get?_insert]
  split <;> rfl

theorem erase_insert (k : String) (v : α) : (m.insert k v).erase k = m.erase k := by
  apply ext_get?
  intro j
  simp only [get?_insert, get?_erase]
  split <;> rfl

end KeyMap

end TrafficIntent
