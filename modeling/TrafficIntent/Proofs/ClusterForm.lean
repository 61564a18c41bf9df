import TrafficIntent.Manifest.Cluster
import TrafficIntent.Proofs.Agreement
import TrafficIntent.Proofs.Json.Members
import TrafficIntent.Proofs.TypedManifests

namespace TrafficIntent

open Json (ifSome unlessEmpty unlessBare listOf sortedMembers sortedMembers_append sorted_listOf
  sorted_object_of_perm sorted_object_congr)

namespace Cluster

open Json (Part record_sorted fits_ifSome fits_needed fits_free list_sorted string_sorted
  labels_sorted)

/-- Port numbers have 32 bits with a sign. -/
def PortRef.Fits : PortRef → Prop
  | number n => -2147483648 ≤ n ∧ n < 2147483648
  | name _ => True

def Entry.Fits (e : Entry) : Prop := ∀ ports ∈ e.ports, ∀ p ∈ ports, ∀ r ∈ p.port, r.Fits

def Spec.Fits (s : Spec) : Prop :=
  (∀ entries ∈ s.ingress, ∀ e ∈ entries, e.Fits) ∧ ∀ entries ∈ s.egress, ∀ e ∈ entries, e.Fits

def Policy.Fits (p : Policy) : Prop := ∀ s ∈ p.spec, s.Fits

theorem fits_part {σ α : Type} {name : String} {set : Option α → σ → σ} {d : Json.Decoder α}
    {write : α → Json} {blank : σ} {o : Option α} (read : ∀ a ∈ o, d (write a).sorted = .ok a)
    (there : ∀ a, (write a).sorted ≠ .null) (same : set none blank = blank) :
    Part.Fits blank (part name set d) ⟨ifSome name write o, set o⟩ :=
  fits_ifSome read there same

theorem exactly_sorted (s : String) : exactly s (Json.string s).sorted = .ok () := if_pos rfl

theorem texts_sorted (ts : List String) :
    Json.Decoder.list Json.Decoder.string (Json.texts ts).sorted = .ok ts :=
  list_sorted fun t _ => string_sorted t

theorem PortRef.decoder_sorted {r : PortRef} (h : r.Fits) : decoder r.toJson.sorted = .ok r := by
  cases r with
  | number n =>
    have same : (number n).toJson.sorted = .number (.integer n) := rfl
    have small : -2147483648 ≤ n ∧ n < 2147483648 := h
    rw [same, decoder, if_pos small]
  | name s => rfl

theorem PortRef.sorted_ne_null (r : PortRef) : r.toJson.sorted ≠ .null := by
  cases r <;> nofun

theorem Meta.decoder_sorted (m : Meta) : decoder m.toJson.sorted = .ok m :=
  record_sorted
    (.cons (fits_part (fun l _ => labels_sorted l) (fun _ => nofun) rfl) <|
      .cons (fits_part (fun l _ => labels_sorted l) (fun _ => nofun) rfl) <|
      .cons (fits_part (fun s _ => string_sorted s) (fun _ => nofun) rfl) <|
      .cons (fits_part (fun s _ => string_sorted s) (fun _ => nofun) rfl) .nil)
    (by rfl) (by simp) (by decide) (by simp)

theorem Selector.decoder_sorted (s : Selector) : decoder s.toJson.sorted = .ok s :=
  record_sorted (.cons (fits_part (fun l _ => labels_sorted l) (fun _ => nofun) rfl) .nil)
    (by rfl) (by simp) (by decide) (by simp)

theorem Selector.sorted_ne_null (s : Selector) : s.toJson.sorted ≠ .null := nofun

theorem Port.decoder_sorted {p : Port} (h : ∀ r ∈ p.port, r.Fits) :
    decoder p.toJson.sorted = .ok p :=
  record_sorted
    (.cons (fits_part (fun r hr => PortRef.decoder_sorted (h r hr)) PortRef.sorted_ne_null rfl) <|
      .cons (fits_part (fun s _ => string_sorted s) (fun _ => nofun) rfl) .nil)
    (by rfl) (by simp) (by decide) (by simp)

theorem Peer.decoder_sorted (p : Peer) : decoder p.toJson.sorted = .ok p :=
  record_sorted
    (.cons (fits_part (fun s _ => s.decoder_sorted) Selector.sorted_ne_null rfl) <|
      .cons (fits_part (fun s _ => s.decoder_sorted) Selector.sorted_ne_null rfl) .nil)
    (by rfl) (by simp) (by decide) (by simp)

theorem Entry.decoder_sorted (d : Direction) {e : Entry} (h : e.Fits) :
    decoder d (e.toJson d).sorted = .ok e :=
  record_sorted
    (.cons (fits_part (fun _ _ => list_sorted fun p _ => p.decoder_sorted) (fun _ => nofun) rfl) <|
      .cons (fits_part (fun ports hp => list_sorted fun p hr =>
        Port.decoder_sorted (h ports hp p hr)) (fun _ => nofun) rfl) .nil)
    (by rfl) (by simp) (by cases d <;> decide) (by simp)

theorem Spec.decoder_sorted {s : Spec} (h : s.Fits) : decoder s.toJson.sorted = .ok s :=
  record_sorted
    (.cons (fits_part (fun entries he => list_sorted fun e hm => Entry.decoder_sorted .egress
        (h.2 entries he e hm)) (fun _ => nofun) rfl) <|
      .cons (fits_part (fun entries he => list_sorted fun e hm => Entry.decoder_sorted .ingress
        (h.1 entries he e hm)) (fun _ => nofun) rfl) <|
      .cons (fits_needed s.podSelector.decoder_sorted) <|
      .cons (fits_part (fun ts _ => texts_sorted ts) (fun _ => nofun) rfl) .nil)
    (by rfl) (by simp) (by decide) (by simp)

theorem Policy.decoder_sorted {p : Policy} (h : p.Fits) : decoder p.toJson.sorted = .ok p :=
  record_sorted
    (.cons (fits_free (exactly_sorted _)) <|
      .cons (fits_free (exactly_sorted _)) <|
      .cons (fits_needed p.metadata.decoder_sorted) <|
      .cons (fits_part (fun s hs => Spec.decoder_sorted (h s hs)) (fun _ => nofun) rfl) .nil)
    (by rfl) (by simp) (by decide) (by simp)

end Cluster

namespace Cluster

/-- A list with nothing in it is missing. -/
def ofList {α : Type} : List α → Option (List α)
  | [] => none
  | xs => some xs

def ofLabels (l : Labels) : Option Labels := if l.isEmpty then none else some l

theorem eq_of_mem_ofList {α : Type} {xs ys : List α} (h : ys ∈ ofList xs) : ys = xs := by
  cases xs with
  | nil => contradiction
  | cons x xs => exact (Option.some.inj h).symm

end Cluster

def LabelSelector.inCluster (s : LabelSelector) : Cluster.Selector :=
  ⟨Cluster.ofLabels s.matchLabels⟩

def PolicyPort.inCluster (p : PolicyPort) : Cluster.Port :=
  ⟨some (.number p.port.toNat), some p.protocol⟩

def PolicyPeer.inCluster (p : PolicyPeer) : Cluster.Peer :=
  ⟨p.podSelector.map LabelSelector.inCluster, p.namespaceSelector.map LabelSelector.inCluster⟩

def PolicyEntry.inCluster (e : PolicyEntry) : Cluster.Entry :=
  ⟨Cluster.ofList (e.peers.map PolicyPeer.inCluster), e.ports.map (List.map PolicyPort.inCluster)⟩

def PolicySpec.inCluster (s : PolicySpec) : Cluster.Spec where
  podSelector := s.podSelector.inCluster
  policyTypes := some (s.policyTypes.map Direction.name)
  ingress := Cluster.ofList (s.ingress.map PolicyEntry.inCluster)
  egress := Cluster.ofList (s.egress.map PolicyEntry.inCluster)

def ObjectMeta.inCluster (m : ObjectMeta) : Cluster.Meta :=
  ⟨some m.name, some m.ns, Cluster.ofLabels m.labels, Cluster.ofLabels m.annotations⟩

def NetworkPolicy.inCluster (p : NetworkPolicy) : Cluster.Policy :=
  ⟨p.metadata.inCluster, some p.spec.inCluster⟩

theorem PolicyEntry.fits_inCluster (e : PolicyEntry) : e.inCluster.Fits := by
  intro ports hports q hq r hr
  obtain ⟨given, -, rfl⟩ := Option.map_eq_some_iff.1 hports
  obtain ⟨p, -, rfl⟩ := List.mem_map.1 hq
  have number : r = .number p.port.toNat := (Option.some.inj hr).symm
  have small := p.port.toNat_lt
  rw [number]
  constructor <;> omega

theorem NetworkPolicy.fits_inCluster (p : NetworkPolicy) : p.inCluster.Fits := by
  have all {given : List PolicyEntry} :
      ∀ entries ∈ Cluster.ofList (given.map PolicyEntry.inCluster), ∀ e ∈ entries, e.Fits := by
    intro entries hentries e he
    rw [Cluster.eq_of_mem_ofList hentries] at he
    obtain ⟨own, -, rfl⟩ := List.mem_map.1 he
    exact own.fits_inCluster
  intro s hs
  rw [← Option.some.inj hs]
  exact ⟨all, all⟩

section

variable {α β : Type} {name : String} {f : α → β} {write : β → Json} {own : α → Json}

theorem ifSome_ofLabels (name : String) (l : Labels) :
    ifSome name Json.labels (Cluster.ofLabels l) = unlessBare name l := by
  unfold Cluster.ofLabels unlessBare
  cases l.isEmpty <;> rfl

theorem sortedMembers_map (same : ∀ a, (write (f a)).sorted = (own a).sorted) (o : Option α) :
    sortedMembers (ifSome name write (o.map f)) = sortedMembers (ifSome name own o) := by
  cases o with
  | none => rfl
  | some a => simp [ifSome, sortedMembers, same]

theorem sorted_listOf_map (same : ∀ a, (write (f a)).sorted = (own a).sorted) (xs : List α) :
    (listOf write (xs.map f)).sorted = (listOf own xs).sorted := by
  simp [sorted_listOf, same]

theorem sortedMembers_ofList (same : ∀ a, (write (f a)).sorted = (own a).sorted) (xs : List α) :
    sortedMembers (ifSome name (listOf write) (Cluster.ofList (xs.map f))) =
      sortedMembers (unlessEmpty name own xs) := by
  cases xs with
  | nil => rfl
  | cons x xs =>
    have list := sorted_listOf_map same (x :: xs)
    simp only [List.map_cons] at list
    simp only [List.map_cons, Cluster.ofList, ifSome, unlessEmpty, sortedMembers, list]

/-- Three parts in the opposite order have the same members. -/
theorem perm_opposite (as bs cs : List α) : (as ++ bs ++ cs).Perm (cs ++ bs ++ as) := by
  have last : (as ++ bs ++ cs).Perm (cs ++ (as ++ bs)) := List.perm_append_comm
  have first : (cs ++ (as ++ bs)).Perm (cs ++ (bs ++ as)) := List.perm_append_comm.append_left cs
  rw [List.append_assoc cs bs as]
  exact last.trans first

end

theorem LabelSelector.toJson_inCluster (s : LabelSelector) : s.inCluster.toJson = s.toJson :=
  congrArg Json.object (ifSome_ofLabels "matchLabels" s.matchLabels)

theorem PolicyPort.toJson_inCluster (p : PolicyPort) : p.inCluster.toJson = p.toJson := rfl

theorem PolicyPeer.sorted_inCluster (p : PolicyPeer) :
    p.inCluster.toJson.sorted = p.toJson.sorted := by
  have selector (s : LabelSelector) : s.inCluster.toJson.sorted = s.toJson.sorted := by
    rw [s.toJson_inCluster]
  have keys := (Json.ifSome_fst "namespaceSelector" Cluster.Selector.toJson
    p.inCluster.namespaceSelector).append
    (Json.ifSome_fst "podSelector" Cluster.Selector.toJson p.inCluster.podSelector)
  rw [← List.map_append] at keys
  apply sorted_object_of_perm
  · rw [sortedMembers_append, sortedMembers_append, ← sortedMembers_map selector,
      ← sortedMembers_map selector]
    exact List.perm_append_comm
  · exact List.Nodup.sublist keys (by decide)

theorem PolicyEntry.sorted_inCluster (d : Direction) (e : PolicyEntry) :
    (e.inCluster.toJson d).sorted = (e.toJson d).sorted := by
  have port (p : PolicyPort) : p.inCluster.toJson.sorted = p.toJson.sorted := by
    rw [p.toJson_inCluster]
  apply sorted_object_congr
  rw [sortedMembers_append, sortedMembers_append]
  exact congrArg₂ (· ++ ·) (sortedMembers_ofList PolicyPeer.sorted_inCluster e.peers)
    (sortedMembers_map (sorted_listOf_map port) e.ports)

theorem PolicySpec.sorted_inCluster (s : PolicySpec) :
    s.inCluster.toJson.sorted = s.toJson.sorted := by
  have types : Json.texts (s.policyTypes.map Direction.name) =
      listOf Direction.toJson s.policyTypes := by
    simp [Json.texts, listOf, Direction.toJson]
  let first : List (String × Json) := [("podSelector", s.podSelector.toJson),
    ("policyTypes", listOf Direction.toJson s.policyTypes)]
  have written : s.inCluster.toJson = .object (
      ifSome "egress" (listOf (Cluster.Entry.toJson .egress)) s.inCluster.egress ++
      ifSome "ingress" (listOf (Cluster.Entry.toJson .ingress)) s.inCluster.ingress ++ first) := by
    simp only [first, ← types, ← s.podSelector.toJson_inCluster]
    rfl
  have keys := ((Json.ifSome_fst "egress" (listOf (Cluster.Entry.toJson .egress))
    s.inCluster.egress).append (Json.ifSome_fst "ingress" (listOf (Cluster.Entry.toJson .ingress))
      s.inCluster.ingress)).append (List.Sublist.refl ["podSelector", "policyTypes"])
  rw [written]
  apply sorted_object_of_perm
  · have egress : sortedMembers (ifSome "egress" (listOf (Cluster.Entry.toJson .egress))
        s.inCluster.egress) = sortedMembers (unlessEmpty "egress" (PolicyEntry.toJson .egress)
          s.egress) := sortedMembers_ofList (PolicyEntry.sorted_inCluster .egress) s.egress
    have ingress : sortedMembers (ifSome "ingress" (listOf (Cluster.Entry.toJson .ingress))
        s.inCluster.ingress) = sortedMembers (unlessEmpty "ingress" (PolicyEntry.toJson .ingress)
          s.ingress) := sortedMembers_ofList (PolicyEntry.sorted_inCluster .ingress) s.ingress
    simp only [sortedMembers_append, egress, ingress]
    exact perm_opposite _ _ _
  · rw [List.map_append, List.map_append]
    exact List.Nodup.sublist keys (by decide)

theorem ObjectMeta.sorted_inCluster (m : ObjectMeta) :
    m.inCluster.toJson.sorted = m.toJson.sorted := by
  let first : List (String × Json) := [("name", .string m.name), ("namespace", .string m.ns)]
  have written : m.inCluster.toJson = .object (unlessBare "annotations" m.annotations ++
      unlessBare "labels" m.labels ++ first) := by
    rw [← ifSome_ofLabels, ← ifSome_ofLabels]
    exact congrArg Json.object (List.append_assoc _ [("name", Json.string m.name)] _)
  have keys := ((Json.unlessBare_fst "annotations" m.annotations).append
    (Json.unlessBare_fst "labels" m.labels)).append (List.Sublist.refl ["name", "namespace"])
  rw [written]
  apply sorted_object_of_perm
  · simp only [sortedMembers_append]
    exact perm_opposite _ _ _
  · rw [List.map_append, List.map_append]
    exact List.Nodup.sublist keys (by decide)

theorem NetworkPolicy.sorted_inCluster {p : NetworkPolicy}
    (api : p.apiVersion = Resource.apiVersion NetworkPolicy)
    (kind : p.kind = Resource.kind NetworkPolicy) :
    p.inCluster.toJson.sorted = p.toJson.sorted := by
  apply sorted_object_congr
  have metadata := p.metadata.sorted_inCluster
  have spec := p.spec.sorted_inCluster
  simp only [inCluster, ifSome, List.cons_append, List.nil_append, sortedMembers, metadata, spec,
    api, kind]

/-- A text that must be one in particular is that one once it has been read. -/
theorem Cluster.eq_of_exactly {σ : Type} {name expected s : String} {set : Unit → σ → σ} {f : σ → σ}
    (read : (Field.free name set (exactly expected)).read (.string s) = .ok f) : s = expected := by
  by_contra other
  have refused : exactly expected (.string s) = .error (.value (.string s) expected) := if_neg other
  have failed : (Field.free name set (exactly expected)).read (.string s) =
      (exactly expected (.string s)).map set := rfl
  rw [failed, refused] at read
  contradiction

namespace NetworkPolicy

variable {p : NetworkPolicy} {k : Cluster.Policy}

/-- The names that the interface asks for. -/
def IsNamed (p : NetworkPolicy) : Prop :=
  p.apiVersion = "networking.k8s.io/v1" ∧ p.kind = "NetworkPolicy"

theorem IsNamed.toCluster_eq (h : p.IsNamed) : p.toCluster = .ok p.inCluster := by
  have tree := sorted_inCluster h.1 h.2
  have read := Cluster.Policy.decoder_sorted p.fits_inCluster
  rw [tree] at read
  exact read

theorem isNamed_of_toCluster (h : p.toCluster = .ok k) : p.IsNamed := by
  let ms : List (String × Json) := [("apiVersion", .string p.apiVersion), ("kind", .string p.kind),
    ("metadata", p.metadata.toJson.sorted), ("spec", p.spec.toJson.sorted)]
  have distinct : (ms.map Prod.fst).Nodup := by simp [ms]
  have there {m : String × Json} (hm : m ∈ ms) : m ∈ Json.inKeyOrder ms :=
    (Json.perm_inKeyOrder distinct).mem_iff.2 hm
  have api : ("apiVersion", Json.string p.apiVersion) ∈ ms := by simp [ms]
  have kind : ("kind", Json.string p.kind) ∈ ms := by simp [ms]
  obtain ⟨_, readApi⟩ := Json.read_of_members h (there api) rfl
  obtain ⟨_, readKind⟩ := Json.read_of_members h (there kind) rfl
  exact ⟨Cluster.eq_of_exactly readApi, Cluster.eq_of_exactly readKind⟩

/-- The interface takes the policies that carry its names and no others, and in its own form. -/
theorem toCluster_eq_ok_iff : p.toCluster = .ok k ↔ p.IsNamed ∧ k = p.inCluster := by
  constructor
  · intro taken
    have named := isNamed_of_toCluster taken
    rw [named.toCluster_eq] at taken
    exact ⟨named, (Except.ok.inj taken).symm⟩
  · intro both
    rw [both.2]
    exact both.1.toCluster_eq

end NetworkPolicy

theorem Compilation.isNamed_of_mem_manifests (c : Compilation) {p : NetworkPolicy}
    (hp : p ∈ c.policies.manifests) : p.IsNamed := by
  rcases c.mem_manifests.1 hp with rfl | ⟨d, service, _, rfl⟩
  · exact ⟨rfl, rfl⟩
  · cases d <;> exact ⟨rfl, rfl⟩

/-- The cluster's interface takes exactly the policies that carry its names, those of an intent
among them. It then writes the tree of the policy, from which the policy is read again. -/
theorem toCluster_lossless :
    (∀ p : NetworkPolicy, (p.apiVersion = "networking.k8s.io/v1" ∧ p.kind = "NetworkPolicy") ↔
      ∃ k, p.toCluster = .ok k) ∧
    (∀ (p : NetworkPolicy) (k : Cluster.Policy), p.toCluster = .ok k →
      k.toJson.sorted = p.toJson.sorted ∧ NetworkPolicy.decoder k.toJson.sorted = .ok p) ∧
    ∀ c : Compilation, ∀ p ∈ c.policies.manifests, ∃ k, p.toCluster = .ok k := by
  refine ⟨?_, ?_, ?_⟩
  · intro p
    constructor
    · intro named
      exact ⟨p.inCluster, NetworkPolicy.IsNamed.toCluster_eq named⟩
    · intro taken
      obtain ⟨k, hk⟩ := taken
      exact NetworkPolicy.isNamed_of_toCluster hk
  · intro p k taken
    obtain ⟨named, rfl⟩ := NetworkPolicy.toCluster_eq_ok_iff.1 taken
    have tree := NetworkPolicy.sorted_inCluster named.1 named.2
    refine ⟨tree, ?_⟩
    rw [tree]
    exact p.decoder_sorted
  · intro c p hp
    exact ⟨p.inCluster, (c.isNamed_of_mem_manifests hp).toCluster_eq⟩

/-- An entry whose ports are missing, one whose list of ports is empty, and a selector of
everything. -/
def sparsePolicy : NetworkPolicy :=
  .new ⟨"sparse", "default", .empty, .empty⟩
    ⟨.all, [], [⟨[], none⟩, ⟨[⟨some .all, none⟩, ⟨none, some .all⟩], some []⟩], []⟩

theorem toCluster_lossless_sparsePolicy :
    ∃ k, sparsePolicy.toCluster = .ok k ∧
      (k.spec.bind fun s => s.ingress.map fun es => es.map fun e => e.ports) =
        some [none, some []] ∧
      k.toJson.sorted = sparsePolicy.toJson.sorted ∧
      NetworkPolicy.decoder k.toJson.sorted = .ok sparsePolicy := by
  obtain ⟨k, taken⟩ := (toCluster_lossless.1 sparsePolicy).1 ⟨rfl, rfl⟩
  have kept := toCluster_lossless.2.1 sparsePolicy k taken
  have form := (NetworkPolicy.toCluster_eq_ok_iff.1 taken).2
  refine ⟨k, taken, ?_, kept⟩
  rw [form]
  rfl

end TrafficIntent
