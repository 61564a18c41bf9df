import TrafficIntent.Proofs.Json.Decoded
import TrafficIntent.Proofs.Json.Members

/-!
Records as objects. A record's members come back in key order and not in the order of its fields,
which makes no difference where each field enters the record on its own. A field whose value is left
out has the value of the blank record.
-/

namespace TrafficIntent.Json

open Decoder (members)

variable {σ α : Type}

/-- What an object says about one field: the members written for it, and what it makes of a
record. -/
structure Part (σ : Type) where
  members : List (String × Json)
  set : σ → σ

/-- A field's part is one member that is read as it was written, or none where the blank record has
the value already. -/
inductive Part.Fits (blank : σ) (f : Field Decoder σ) : Part σ → Prop
  | given {j : Json} {set : σ → σ} (read : f.read j.sorted = .ok set) :
      Fits blank f ⟨[(f.name, j)], set⟩
  | missing {set : σ → σ} (free : f.required = false) (same : set blank = blank) :
      Fits blank f ⟨[], set⟩

section

variable {r : Record Decoder σ}

/-- A member that is for a field of a record, and what it makes of the record. -/
def Acts (r : Record Decoder σ) (m : String × Json) (set : σ → σ) : Prop :=
  ∃ f, r.field? m.1 = some f ∧ f.name = m.1 ∧ f.read m.2 = .ok set

theorem members_of_acts {ms : List (String × Json)} {sets : List (σ → σ)}
    (acts : List.Forall₂ (Acts r) ms sets) (distinct : (ms.map Prod.fst).Nodup) {seen : List String}
    (new : ∀ m ∈ ms, m.1 ∉ seen)
    (complete : ∀ f ∈ r.fields, f.required = true → f.name ∈ ms.map Prod.fst ∨ f.name ∈ seen)
    (s : σ) : members r ms seen s = .ok (sets.foldl (fun s set => set s) s) := by
  induction acts generalizing seen s with
  | nil =>
    have none : r.missing? seen = none := by
      rw [Record.missing?, List.find?_eq_none]
      intro f hf
      cases needed : f.required with
      | false => simp
      | true => simpa using complete f hf needed
    rw [members, none]
    rfl
  | @cons m set ms sets act _ ih =>
    obtain ⟨f, field, name, read⟩ := act
    obtain ⟨first, distinct⟩ := List.nodup_cons.1 distinct
    have once : seen.contains f.name = false := by
      simpa [name] using new m List.mem_cons_self
    rw [members, field]
    simp only [once, read]
    refine ih distinct ?_ ?_ (set s)
    · intro n hn
      rw [name, List.mem_cons, not_or]
      exact ⟨fun same => first (same ▸ List.mem_map_of_mem hn), new n (List.mem_cons_of_mem _ hn)⟩
    · intro g hg needed
      rw [name]
      have := complete g hg needed
      simp only [List.map_cons, List.mem_cons] at this ⊢
      tauto

theorem field?_name (distinct : (r.fields.flatMap fun f => f.name :: f.otherNames).Nodup)
    {f : Field Decoder σ} (hf : f ∈ r.fields) : r.field? f.name = some f := by
  unfold Record.field?
  generalize r.fields = fs at distinct hf
  induction fs with
  | nil => contradiction
  | cons g fs ih =>
    obtain ⟨-, later, apart⟩ := List.nodup_append.1 distinct
    cases List.mem_cons.1 hf with
    | inl own => simp [own, Field.isNamed]
    | inr further =>
      have named : f.name ∈ fs.flatMap fun f => f.name :: f.otherNames :=
        List.mem_flatMap.2 ⟨f, further, List.mem_cons_self⟩
      have other : g.isNamed f.name = false := by
        rw [Bool.eq_false_iff]
        intro same
        rw [Field.isNamed, Bool.or_eq_true, beq_iff_eq, List.contains_iff_mem] at same
        exact apart f.name (List.mem_cons.2 (same.imp_left Eq.symm)) f.name named rfl
      rw [List.find?_cons, other]
      exact ih later further

/-- Members that were taken in have been read, each by its field. -/
theorem read_of_members {ms : List (String × Json)} {seen : List String} {s x : σ}
    (taken : members r ms seen s = .ok x) {m : String × Json} (hm : m ∈ ms) {f : Field Decoder σ}
    (field : r.field? m.1 = some f) : ∃ set, f.read m.2 = .ok set := by
  induction ms generalizing seen s with
  | nil => contradiction
  | cons n ms ih =>
    obtain ⟨unknown, others⟩ | ⟨g, set, known, -, read, others⟩ := Decoder.member_of_members taken
    · have further : m ∈ ms := by
        apply (List.mem_cons.1 hm).resolve_left
        intro same
        rw [← same, field] at unknown
        contradiction
      exact ih others further
    · cases List.mem_cons.1 hm with
      | inl same =>
        rw [same, known] at field
        rw [same, ← Option.some.inj field]
        exact ⟨set, read⟩
      | inr further => exact ih others further

variable {blank : σ} {fs : List (Field Decoder σ)} {parts : List (Part σ)}

/-- The keys of the members are names of fields, in their order. -/
theorem keys_sublist (fits : List.Forall₂ (Part.Fits blank) fs parts) :
    ((parts.flatMap Part.members).map Prod.fst).Sublist
      (fs.flatMap fun f => f.name :: f.otherNames) := by
  induction fits with
  | nil => exact .refl _
  | @cons f p fs parts fit _ ih =>
    rw [List.flatMap_cons]
    cases fit with
    | given => exact (ih.trans (List.sublist_append_right _ _)).cons_cons f.name
    | missing => exact ih.trans (List.sublist_append_right _ _)

theorem mem_keys_of_required (fits : List.Forall₂ (Part.Fits blank) fs parts) :
    ∀ f ∈ fs, f.required = true → f.name ∈ (parts.flatMap Part.members).map Prod.fst := by
  induction fits with
  | nil => simp
  | @cons g p fs parts fit _ ih =>
    intro f hf needed
    cases List.mem_cons.1 hf with
    | inl own =>
      cases fit with
      | given => simp [own]
      | missing free => simp [own, free] at needed
    | inr further =>
      rw [List.flatMap_cons, List.map_append]
      exact List.mem_append_right _ (ih f further needed)

/-- The members act as their parts say, and the parts without members leave the blank record. -/
theorem exists_acts (known : ∀ f ∈ fs, r.field? f.name = some f)
    (fits : List.Forall₂ (Part.Fits blank) fs parts) :
    ∃ written left, List.Forall₂ (Acts r) (sortedMembers (parts.flatMap Part.members)) written ∧
      left.foldl (fun s set => set s) blank = blank ∧
      (parts.map Part.set).Perm (left ++ written) := by
  induction fits with
  | nil => exact ⟨[], [], .nil, rfl, .refl _⟩
  | @cons f p fs parts fit _ ih =>
    obtain ⟨written, left, acts, same, perm⟩ := ih fun g hg => known g (List.mem_cons_of_mem _ hg)
    cases fit with
    | @given j set read =>
      refine ⟨set :: written, left, .cons ?_ acts, same, ?_⟩
      · exact ⟨f, known f List.mem_cons_self, rfl, read⟩
      · exact (perm.cons set).trans List.perm_middle.symm
    | @missing set free stays =>
      refine ⟨written, set :: left, acts, ?_, perm.cons set⟩
      rw [List.foldl_cons, stays, same]

/-- A record whose fields enter it independently of each other is read from an object with a part
for each of them. -/
theorem record_sorted (fits : List.Forall₂ (Part.Fits r.blank) r.fields parts) {x : σ}
    {written : List (String × Json)}
    (result : (parts.map Part.set).foldl (fun s set => set s) r.blank = x)
    (members : parts.flatMap Part.members = written)
    (distinct : (r.fields.flatMap fun f => f.name :: f.otherNames).Nodup)
    (commute : (parts.map Part.set).Pairwise fun f g => ∀ s, f (g s) = g (f s)) :
    Decoder.record r (object written).sorted = .ok x := by
  subst result members
  obtain ⟨written, left, acts, same, perm⟩ := exists_acts (fun f => field?_name distinct) fits
  let ms := sortedMembers (parts.flatMap Part.members)
  have keys : ms.map Prod.fst = (parts.flatMap Part.members).map Prod.fst := sortedMembers_fst _
  have once : (ms.map Prod.fst).Nodup := by
    rw [keys]
    exact distinct.sublist (keys_sublist fits)
  have ordered := perm_inKeyOrder once
  obtain ⟨sets, acts, sorted⟩ := List.perm_comp_forall₂ ordered acts
  have complete : ∀ f ∈ r.fields, f.required = true →
      f.name ∈ (inKeyOrder ms).map Prod.fst ∨ f.name ∈ [] := by
    intro f hf needed
    refine .inl ((ordered.map Prod.fst).mem_iff.2 ?_)
    rw [keys]
    exact mem_keys_of_required fits f hf needed
  have result : Decoder.members r (inKeyOrder ms) [] r.blank = _ :=
    members_of_acts acts ((ordered.map _).nodup_iff.2 once) (by simp) complete r.blank
  have swap : ∀ f ∈ left ++ written, ∀ g ∈ left ++ written, ∀ s, g (f s) = f (g s) := by
    have pairs := commute.forall_of_forall_of_flip (fun _ _ _ => rfl)
      (commute.imp fun same s => (same s).symm)
    intro f hf g hg
    exact pairs (perm.mem_iff.2 hg) (perm.mem_iff.2 hf)
  show Decoder.members r (inKeyOrder ms) [] r.blank = _
  rw [result]
  congr 1
  calc
    sets.foldl (fun s set => set s) r.blank
        = written.foldl (fun s set => set s) r.blank := by
      refine sorted.foldl_eq' ?_ _
      intro f hf g hg
      exact swap f (List.mem_append_right _ (sorted.mem_iff.1 hf)) g
        (List.mem_append_right _ (sorted.mem_iff.1 hg))
    _ = (left ++ written).foldl (fun s set => set s) r.blank := by
      rw [List.foldl_append, same]
    _ = (parts.map Part.set).foldl (fun s set => set s) r.blank := perm.symm.foldl_eq' swap _

end

variable {name : String} {set : α → σ → σ} {blank : σ} {d : Decoder α} {write : α → Json}

theorem string_sorted (s : String) : Decoder.string (string s).sorted = .ok s := rfl

theorem list_sorted {xs : List α} (read : ∀ x ∈ xs, d (write x).sorted = .ok x) :
    Decoder.list d (listOf write xs).sorted = .ok xs := by
  show Decoder.items d (sortedItems (xs.map write)) = _
  induction xs with
  | nil => rfl
  | cons x xs ih =>
    rw [List.map_cons, sortedItems, Decoder.items, read x List.mem_cons_self,
      ih fun y hy => read y (List.mem_cons_of_mem _ hy)]
    rfl

theorem port_sorted (p : UInt16) : Decoder.port (int p.toNat).sorted = .ok p := by
  have small : (p.toNat : Int) < 65536 := by
    have := p.toNat_lt
    omega
  have same : (int p.toNat).sorted = .number (.integer p.toNat) := rfl
  rw [same, Decoder.port, if_pos ⟨Int.natCast_nonneg _, small⟩, Int.toNat_natCast,
    UInt16.ofNat_toNat]

private theorem labelEntries_texts (es : List (String × String)) (acc : Labels) :
    Decoder.labelEntries (es.map fun e => (e.1, string e.2)) acc =
      .ok (es.foldl (fun m e => m.insert e.1 e.2) acc) := by
  induction es generalizing acc with
  | nil => rfl
  | cons e es ih => exact ih (acc.insert e.1 e.2)

theorem labels_sorted (l : Labels) : Decoder.labels (labels l).sorted = .ok l := by
  have texts : sortedMembers (l.entries.map fun e => (e.1, string e.2)) =
      l.entries.map fun e => (e.1, string e.2) := by
    rw [sortedMembers_eq_map, List.map_map]
    rfl
  have ordered : (l.entries.map fun e => (e.1, string e.2)).Pairwise fun a b => a.1 < b.1 :=
    List.pairwise_map.2 l.sorted
  show Decoder.labelEntries (inKeyOrder (sortedMembers _)) .empty = _
  rw [texts, inKeyOrder_of_sorted ordered, labelEntries_texts]
  exact congrArg Except.ok (KeyMap.ofList_entries l)

theorem fits_needed {a : α} {j : Json} (read : d j.sorted = .ok a) :
    Part.Fits blank (.needed name set d) ⟨[(name, j)], set a⟩ :=
  .given (congrArg (Except.map set) read)

/-- A field that may be left out and never is. -/
theorem fits_free {a : α} {j : Json} (read : d j.sorted = .ok a) :
    Part.Fits blank (.free name set d) ⟨[(name, j)], set a⟩ :=
  .given (congrArg (Except.map set) read)

theorem fits_ifSome {set : Option α → σ → σ} {o : Option α}
    (read : ∀ a ∈ o, d (write a).sorted = .ok a) (there : ∀ a, (write a).sorted ≠ .null)
    (same : set none blank = blank) :
    Part.Fits blank (.free name set d.optional) ⟨ifSome name write o, set o⟩ := by
  cases o with
  | none => exact .missing rfl same
  | some a =>
    have value : d.optional (write a).sorted = .ok (some a) := by
      unfold Decoder.optional
      split
      next null => exact absurd null (there a)
      next => rw [read a rfl]; rfl
    exact fits_free value

theorem fits_unlessEmpty {set : List α → σ → σ} {xs : List α}
    (read : ∀ x ∈ xs, d (write x).sorted = .ok x) (same : set [] blank = blank) :
    Part.Fits blank (.free name set d.list) ⟨unlessEmpty name write xs, set xs⟩ := by
  cases xs with
  | nil => exact .missing rfl same
  | cons x xs => exact fits_free (list_sorted read)

theorem fits_unlessBare {set : Labels → σ → σ} (l : Labels) (same : set .empty blank = blank) :
    Part.Fits blank (.free name set .labels) ⟨unlessBare name l, set l⟩ := by
  unfold unlessBare
  split
  next bare =>
    have none : l = .empty := KeyMap.ext_entries (List.isEmpty_iff.1 bare)
    rw [none]
    exact .missing rfl same
  next => exact fits_free (labels_sorted l)

end TrafficIntent.Json
