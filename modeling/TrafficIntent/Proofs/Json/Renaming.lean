import Mathlib.Data.List.Induction
import TrafficIntent.Json.Tree
import TrafficIntent.Proofs.Json.Members

/-!
Objects under other names for their members. A record does not see a name that belongs to none of
its fields, nor which of a field's names was used. In a tree a new name moves its member to another
place; that place is seen only if a member of another field is passed on the way.
-/

namespace TrafficIntent

section

variable {α β : Type} {k : String} {v : α} {l : List (String × α)}

/-- A key that is put takes the place of the entry it had. -/
theorem perm_putEntry_filter (sorted : l.Pairwise fun a b => a.1 < b.1) :
    (putEntry k v l).Perm ((k, v) :: l.filter fun e => e.1 != k) := by
  induction l with
  | nil => exact .refl _
  | cons e l ih =>
    obtain ⟨first, sorted⟩ := List.pairwise_cons.1 sorted
    by_cases own : k = e.1
    · have others : ∀ d ∈ l, (d.1 != k) = true := by
        intro d hd
        rw [bne_iff_ne, own]
        exact (String.ne_of_lt (first d hd)).symm
      have put : putEntry k v (e :: l) = (k, v) :: l := by
        rw [putEntry, if_neg (own ▸ String.lt_irrefl _), if_pos own]
      have gone : (e.1 != k) = false := by rw [own, bne_self_eq_false]
      rw [put, List.filter_cons, gone, List.filter_eq_self.2 others]
      exact .refl _
    · have stays : (e.1 != k) = true := bne_iff_ne.2 (Ne.symm own)
      rw [List.filter_cons, stays, if_pos rfl, putEntry, if_neg own]
      split
      next less =>
        have others : ∀ d ∈ l, (d.1 != k) = true := by
          intro d hd
          rw [bne_iff_ne]
          exact (String.ne_of_lt (String.lt_trans less (first d hd))).symm
        rw [List.filter_eq_self.2 others]
      next => exact ((ih sorted).cons e).trans (.swap _ _ _)

/-- New values leave every entry in its place. -/
theorem putEntry_map (f : String → α → β) :
    putEntry k (f k v) (l.map fun e => (e.1, f e.1 e.2)) =
      (putEntry k v l).map fun e => (e.1, f e.1 e.2) := by
  induction l with
  | nil => rfl
  | cons e l ih =>
    simp only [List.map_cons, putEntry]
    split
    next => rfl
    next =>
      split
      next => rfl
      next => rw [List.map_cons, ih]

end

namespace Json

open Decoder (members record)
open scoped List

variable {ms : List (String × Json)}

theorem inKeyOrder_concat (ms : List (String × Json)) (m : String × Json) :
    inKeyOrder (ms ++ [m]) = putEntry m.1 m.2 (inKeyOrder ms) := by
  rw [inKeyOrder, List.foldl_append]
  rfl

theorem inKeyOrder_map (f : String → Json → Json) (ms : List (String × Json)) :
    inKeyOrder (ms.map fun m => (m.1, f m.1 m.2)) =
      (inKeyOrder ms).map fun m => (m.1, f m.1 m.2) := by
  induction ms using List.reverseRecOn with
  | nil => rfl
  | append_singleton ms m ih =>
    rw [List.map_append, List.map_singleton, inKeyOrder_concat, inKeyOrder_concat, ih, putEntry_map]

theorem keys_inKeyOrder_subset (ms : List (String × Json)) :
    ∀ m ∈ inKeyOrder ms, m.1 ∈ ms.map Prod.fst := by
  induction ms using List.reverseRecOn with
  | nil => nofun
  | append_singleton ms m ih =>
    rw [inKeyOrder_concat, List.map_append]
    intro n hn
    cases mem_putEntry hn with
    | inl own => simp [own]
    | inr there => exact List.mem_append_left _ (ih n there)

/-- A member under the name that stands for its own. -/
def renamed (name : String → String) (m : String × Json) : String × Json := (name m.1, m.2)

/-- Names that are kept apart keep all the members that were in the tree. -/
theorem perm_inKeyOrder_renamed {name : String → String}
    (apart : ∀ k ∈ ms.map Prod.fst, ∀ l ∈ ms.map Prod.fst, name k = name l → k = l) :
    (inKeyOrder (ms.map (renamed name))).Perm ((inKeyOrder ms).map (renamed name)) := by
  induction ms using List.reverseRecOn with
  | nil => exact .refl _
  | append_singleton ms m ih =>
    rw [List.map_append] at apart
    have earlier := ih fun k hk l hl =>
      apart k (List.mem_append_left _ hk) l (List.mem_append_left _ hl)
    have others : ∀ n ∈ inKeyOrder ms, (name n.1 != name m.1) = (n.1 != m.1) := by
      intro n hn
      have key := List.mem_append_left [m.1] (keys_inKeyOrder_subset ms n hn)
      rw [Bool.eq_iff_iff, bne_iff_ne, bne_iff_ne, not_iff_not]
      exact ⟨apart n.1 key m.1 (List.mem_append_right _ List.mem_cons_self), congrArg name⟩
    rw [List.map_append, List.map_singleton, inKeyOrder_concat, inKeyOrder_concat]
    calc
      putEntry (name m.1) m.2 (inKeyOrder (ms.map (renamed name)))
        ~ renamed name m :: (inKeyOrder (ms.map (renamed name))).filter fun n => n.1 != name m.1 :=
          perm_putEntry_filter (pairwise_inKeyOrder _)
      _ ~ renamed name m :: ((inKeyOrder ms).map (renamed name)).filter fun n => n.1 != name m.1 :=
          (earlier.filter _).cons _
      _ = (m :: (inKeyOrder ms).filter fun n => n.1 != m.1).map (renamed name) := by
          rw [List.filter_map, List.map_cons]
          congr 2
          exact List.filter_congr others
      _ ~ (putEntry m.1 m.2 (inKeyOrder ms)).map (renamed name) :=
          (perm_putEntry_filter (pairwise_inKeyOrder ms)).symm.map _

section

/-- A reader does not tell two trees apart, neither as they were written nor in key order. -/
def Alike {α : Type} (d : Decoder α) (j k : Json) : Prop := d j = d k ∧ d j.sorted = d k.sorted

theorem Alike.refl {α : Type} (d : Decoder α) (j : Json) : Alike d j j := ⟨rfl, rfl⟩

variable {σ : Type} {r : Record Decoder σ} {name : String → String}

/-- The members that are for a field. -/
def known (r : Record Decoder σ) (ms : List (String × Json)) : List (String × Json) :=
  ms.filter fun m => (r.field? m.1).isSome

theorem members_known (ms : List (String × Json)) (seen : List String) (s : σ) :
    members r (known r ms) seen s = members r ms seen s := by
  induction ms generalizing seen s with
  | nil => rfl
  | cons m ms ih =>
    cases field : r.field? m.1 with
    | none =>
      have left : known r (m :: ms) = known r ms := by simp [known, field]
      rw [left, ih, members, field]
    | some f =>
      have kept : known r (m :: ms) = m :: known r ms := by simp [known, field]
      rw [kept, members, members, field]
      simp only [ih]

theorem members_renamed (same : ∀ k, r.field? (name k) = r.field? k) (ms : List (String × Json))
    (seen : List String) (s : σ) :
    members r (ms.map (renamed name)) seen s = members r ms seen s := by
  induction ms generalizing seen s with
  | nil => rfl
  | cons m ms ih => simp only [List.map_cons, renamed, members, same, ih]

theorem known_renamed (same : ∀ k, r.field? (name k) = r.field? k) (ms : List (String × Json)) :
    known r (ms.map (renamed name)) = (known r ms).map (renamed name) := by
  rw [known, List.filter_map]
  congr 2
  funext m
  exact congrArg Option.isSome (same m.1)

theorem field?_isSome {k : String} (field : (r.field? k).isSome) :
    k ∈ r.fields.flatMap fun f => f.name :: f.otherNames := by
  obtain ⟨f, found⟩ := Option.isSome_iff_exists.1 field
  rw [Record.field?] at found
  have named := List.find?_some found
  rw [Field.isNamed, Bool.or_eq_true, beq_iff_eq, List.contains_iff_mem] at named
  exact List.mem_flatMap.2 ⟨f, List.mem_of_find?_eq_some found,
    List.mem_cons.2 (named.imp_left Eq.symm)⟩

/-- Names for the members of an object that are names of the same fields, and neither bring two
members together nor let two known ones change places. -/
structure Renames (r : Record Decoder σ) (name : String → String) (ms : List (String × Json)) :
    Prop where
  same : ∀ k, r.field? (name k) = r.field? k
  apart : ∀ k ∈ ms.map Prod.fst, ∀ l ∈ ms.map Prod.fst, name k = name l → k = l
  ordered : ∀ k ∈ r.fields.flatMap fun f => f.name :: f.otherNames,
    ∀ l ∈ r.fields.flatMap fun f => f.name :: f.otherNames,
    k ∈ ms.map Prod.fst → l ∈ ms.map Prod.fst → k < l → name k < name l

theorem record_sorted_renamed (renames : Renames r name ms) :
    record r (object (ms.map (renamed name))).sorted = record r (object ms).sorted := by
  let ns := sortedMembers ms
  have keys : ns.map Prod.fst = ms.map Prod.fst := sortedMembers_fst ms
  have values : sortedMembers (ms.map (renamed name)) = ns.map (renamed name) := by
    simp only [ns, sortedMembers_eq_map, List.map_map]
    rfl
  have moved : (inKeyOrder (ns.map (renamed name))).Perm ((inKeyOrder ns).map (renamed name)) :=
    perm_inKeyOrder_renamed (keys ▸ renames.apart)
  have perm : (known r (inKeyOrder (ns.map (renamed name)))).Perm
      ((known r (inKeyOrder ns)).map (renamed name)) := by
    rw [← known_renamed renames.same]
    exact moved.filter _
  -- Both sides of `perm` are in key order, so they are one list: the fields are met in one order.
  have first : (known r (inKeyOrder (ns.map (renamed name)))).Pairwise fun a b => a.1 < b.1 :=
    (pairwise_inKeyOrder _).filter _
  have second : ((known r (inKeyOrder ns)).map (renamed name)).Pairwise fun a b => a.1 < b.1 := by
    rw [List.pairwise_map]
    refine ((pairwise_inKeyOrder ns).filter _).imp_of_mem ?_
    intro a b ha hb less
    obtain ⟨ha, fieldA⟩ := List.mem_filter.1 ha
    obtain ⟨hb, fieldB⟩ := List.mem_filter.1 hb
    exact renames.ordered a.1 (field?_isSome fieldA) b.1 (field?_isSome fieldB)
      (keys ▸ keys_inKeyOrder_subset ns a ha) (keys ▸ keys_inKeyOrder_subset ns b hb) less
  calc
    record r (object (ms.map (renamed name))).sorted
        = members r (inKeyOrder (ns.map (renamed name))) [] r.blank := by
          rw [sorted, values, record]
    _ = members r (known r (inKeyOrder (ns.map (renamed name)))) [] r.blank :=
          (members_known _ _ _).symm
    _ = members r ((known r (inKeyOrder ns)).map (renamed name)) [] r.blank := by
          rw [eq_of_perm_of_sorted perm first second]
    _ = members r (known r (inKeyOrder ns)) [] r.blank := members_renamed renames.same _ _ _
    _ = record r (object ms).sorted := by rw [members_known, sorted, record]

/-- Members under other names of their fields are read alike. -/
theorem alike_renamed (renames : Renames r name ms) :
    Alike (record r) (object (ms.map (renamed name))) (object ms) :=
  ⟨members_renamed renames.same ms [] r.blank, record_sorted_renamed renames⟩

theorem members_valued {f g : String → Json → Json}
    (same : ∀ k h j, r.field? k = some h → h.read (f k j) = h.read (g k j))
    (ms : List (String × Json)) (seen : List String) (s : σ) :
    members r (ms.map fun m => (m.1, f m.1 m.2)) seen s =
      members r (ms.map fun m => (m.1, g m.1 m.2)) seen s := by
  induction ms generalizing seen s with
  | nil => rfl
  | cons m ms ih =>
    simp only [List.map_cons, members]
    split
    next => exact ih seen s
    next h field => simp only [same m.1 h m.2 field, ih]

theorem sorted_valued (f : String → Json → Json) (ms : List (String × Json)) :
    (object (ms.map fun m => (m.1, f m.1 m.2))).sorted =
      object ((inKeyOrder ms).map fun m => (m.1, (f m.1 m.2).sorted)) := by
  rw [sorted, sortedMembers_eq_map, List.map_map, ← inKeyOrder_map fun k j => (f k j).sorted]
  rfl

/-- Members with values that their fields read alike are read alike. -/
theorem alike_valued (f : String → Json → Json) (ms : List (String × Json))
    (same : ∀ k h j, r.field? k = some h → Alike h.read (f k j) j) :
    Alike (record r) (object (ms.map fun m => (m.1, f m.1 m.2))) (object ms) := by
  have own : ms = ms.map fun m => (m.1, m.2) := (List.map_id' ms).symm
  constructor
  · rw [own, List.map_map]
    exact members_valued (fun k h j field => (same k h j field).1) ms [] r.blank
  · rw [sorted_valued, own, sorted_valued fun _ j => j, ← own]
    exact members_valued (fun k h j field => (same k h j field).2) _ [] r.blank

end

section

variable {α : Type} {d : Decoder α} {j k : Json} {js ks : List Json}

theorem alike_list (same : List.Forall₂ (Alike d) js ks) : Alike d.list (array js) (array ks) := by
  show Decoder.items d js = Decoder.items d ks ∧
    Decoder.items d (sortedItems js) = Decoder.items d (sortedItems ks)
  induction same with
  | nil => exact ⟨rfl, rfl⟩
  | cons first _ ih =>
    simp only [sortedItems, Decoder.items, first.1, first.2, ih.1, ih.2, and_self]

end

end Json

end TrafficIntent
