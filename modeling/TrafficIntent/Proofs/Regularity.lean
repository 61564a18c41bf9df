import TrafficIntent.Proofs.Json.Members
import TrafficIntent.Proofs.Yaml.Documents
import TrafficIntent.Proofs.Yaml.ReadBack
import TrafficIntent.Synthesis.Cilium
import TrafficIntent.Synthesis.PolicySet

namespace TrafficIntent

open Yaml (IsKey IsRegular RegularItems RegularMembers IsDocument)

/-- The keys of manifests, and of their labels and annotations. -/
def manifestKeys : List String :=
  ["apiVersion", "kind", "metadata", "spec", "name", "namespace", "labels", "annotations",
    "podSelector", "policyTypes", "ingress", "egress", "from", "to", "ports", "port", "protocol",
    "namespaceSelector", "matchLabels", "endpointSelector", "fromEndpoints", "toPorts", "rules",
    "http", "method", "path", "host", "headers", managedByLabel, generatedAtKey, policyTypeLabel,
    targetServiceLabel, sourceServiceLabel, intentLabel, descriptionKey, intentDescriptionKey,
    allowedSourcesKey, allowedDestinationsKey, serviceLabel, ciliumNamespaceLabel]

theorem isKey_of_mem {k : String} (h : k ∈ manifestKeys) : IsKey k := by
  have checks : ∀ k ∈ manifestKeys, Yaml.styleOf k = .plain ∧ Yaml.isSimpleKey k = true ∧
      (Yaml.Value.ofPlain k).same (.string k) = true := by
    decide +kernel
  obtain ⟨plain, simple, same⟩ := checks k h
  exact .of_plain plain simple ((Yaml.Value.same_iff _ _).1 same)

/-- Trees that are regular whatever their texts are. -/
def IsShaped (j : Json) : Prop := IsRegular (fun _ => True) j

private theorem regularMembers_iff {p : String → Prop} (ms : List (String × Json)) :
    RegularMembers p ms ↔ ∀ m ∈ ms, IsKey m.1 ∧ IsRegular p m.2 := by
  induction ms with
  | nil => simp [RegularMembers]
  | cons m ms ih =>
    obtain ⟨k, j⟩ := m
    simp [RegularMembers, ih, and_assoc]

/-- An object with some of a record's fields, in the order of the record. -/
theorem isShaped_object {names : List String} {ms : List (String × Json)}
    (sub : (ms.map Prod.fst).Sublist names) (distinct : names.Nodup)
    (known : ∀ k ∈ names, k ∈ manifestKeys) (values : ∀ m ∈ ms, IsShaped m.2) :
    IsShaped (.object ms) := by
  refine ⟨distinct.sublist sub, (regularMembers_iff ms).2 ?_⟩
  intro m hm
  exact ⟨isKey_of_mem (known _ (sub.subset (List.mem_map_of_mem hm))), values m hm⟩

theorem isShaped_listOf {α : Type} {write : α → Json} {xs : List α}
    (h : ∀ x ∈ xs, IsShaped (write x) ∧ ∀ js, write x ≠ .array js) :
    IsShaped (Json.listOf write xs) := by
  show RegularItems _ (xs.map write)
  induction xs with
  | nil => trivial
  | cons x xs ih =>
    have first := h x List.mem_cons_self
    exact ⟨fun i is => first.2 (i :: is), first.1, ih fun y hy => h y (List.mem_cons_of_mem _ hy)⟩

private theorem values_ifSome {α : Type} {name : String} {write : α → Json} {o : Option α}
    (h : ∀ a ∈ o, IsShaped (write a)) : ∀ m ∈ Json.ifSome name write o, IsShaped m.2 := by
  cases o with
  | none => simp [Json.ifSome]
  | some a => simpa [Json.ifSome] using h a rfl

private theorem values_unlessEmpty {α : Type} {name : String} {write : α → Json} {xs : List α}
    (h : ∀ x ∈ xs, IsShaped (write x) ∧ ∀ js, write x ≠ .array js) :
    ∀ m ∈ Json.unlessEmpty name write xs, IsShaped m.2 := by
  cases xs with
  | nil => simp [Json.unlessEmpty]
  | cons x xs => simpa [Json.unlessEmpty] using isShaped_listOf h

/-- Labels whose keys are read back. -/
def Known (l : Labels) : Prop := ∀ e ∈ l.entries, IsKey e.1

theorem isShaped_labels {l : Labels} (h : Known l) : IsShaped (Json.labels l) := by
  have keys : (l.entries.map fun e => (e.1, Json.string e.2)).map Prod.fst =
      l.entries.map Prod.fst := by
    rw [List.map_map]
    rfl
  refine ⟨?_, (regularMembers_iff _).2 ?_⟩
  · rw [keys]
    exact List.Pairwise.map _ (fun _ _ less => String.ne_of_lt less) l.sorted
  · intro m hm
    obtain ⟨e, he, rfl⟩ := List.mem_map.1 hm
    exact ⟨h e he, trivial⟩

private theorem values_unlessBare {name : String} {l : Labels} (h : Known l) :
    ∀ m ∈ Json.unlessBare name l, IsShaped m.2 := by
  unfold Json.unlessBare
  split
  · simp
  · simpa using isShaped_labels h

theorem Known.insert {l : Labels} (h : Known l) {k : String} (hk : k ∈ manifestKeys)
    (v : String) : Known (l.insert k v) := by
  intro e he
  cases mem_putEntry he with
  | inl new => rw [new]; exact isKey_of_mem hk
  | inr old => exact h e old

theorem known_empty : Known .empty := by
  intro e he
  contradiction

theorem known_singleton {k : String} (hk : k ∈ manifestKeys) (v : String) :
    Known (.singleton k v) := known_empty.insert hk v

private theorem isShaped_string (s : String) : IsShaped (.string s) := trivial

theorem isShaped_labelSelector {s : LabelSelector} (h : Known s.matchLabels) :
    IsShaped s.toJson ∧ ∀ js, s.toJson ≠ .array js :=
  ⟨isShaped_object (Json.unlessBare_fst "matchLabels" s.matchLabels) (by decide) (by decide)
    (values_unlessBare h), by simp [LabelSelector.toJson]⟩

theorem isShaped_meta {m : ObjectMeta} (hl : Known m.labels) (ha : Known m.annotations) :
    IsShaped m.toJson := by
  have sub : (([("name", Json.string m.name), ("namespace", Json.string m.ns)] ++
      Json.unlessBare "labels" m.labels ++ Json.unlessBare "annotations" m.annotations).map
        Prod.fst).Sublist ["name", "namespace", "labels", "annotations"] := by
    rw [List.map_append, List.map_append]
    exact ((List.Sublist.refl _).append (Json.unlessBare_fst _ _)).append (Json.unlessBare_fst _ _)
  refine isShaped_object sub (by decide) (by decide) ?_
  simp only [List.forall_mem_append]
  exact ⟨⟨by simp [isShaped_string], values_unlessBare hl⟩, values_unlessBare ha⟩

theorem isShaped_policyPort (p : PolicyPort) :
    IsShaped p.toJson ∧ ∀ js, p.toJson ≠ .array js := by
  have sub : ["port", "protocol"].Sublist ["port", "protocol"] := List.Sublist.refl _
  refine ⟨isShaped_object sub (by decide) (by decide) ?_, by simp [PolicyPort.toJson]⟩
  have small := p.port.toNat_lt
  have number : IsShaped (.int p.port.toNat) := ⟨by omega, by omega⟩
  simp [number, isShaped_string]

/-- Peers that are selected by labels whose keys are read back. -/
def PolicyPeer.KnownLabels (q : PolicyPeer) : Prop :=
  (∀ s ∈ q.podSelector, Known s.matchLabels) ∧ ∀ s ∈ q.namespaceSelector, Known s.matchLabels

theorem isShaped_policyPeer {q : PolicyPeer} (h : q.KnownLabels) :
    IsShaped q.toJson ∧ ∀ js, q.toJson ≠ .array js := by
  have sub := (Json.ifSome_fst "podSelector" LabelSelector.toJson q.podSelector).append
    (Json.ifSome_fst "namespaceSelector" LabelSelector.toJson q.namespaceSelector)
  rw [← List.map_append] at sub
  refine ⟨isShaped_object sub (by decide) (by decide) ?_, by simp [PolicyPeer.toJson]⟩
  simp only [List.forall_mem_append]
  exact ⟨values_ifSome fun s hs => (isShaped_labelSelector (h.1 s hs)).1,
    values_ifSome fun s hs => (isShaped_labelSelector (h.2 s hs)).1⟩

theorem isShaped_policyEntry (d : Direction) {e : PolicyEntry}
    (h : ∀ q ∈ e.peers, q.KnownLabels) :
    IsShaped (e.toJson d) ∧ ∀ js, e.toJson d ≠ .array js := by
  have sub := (Json.unlessEmpty_fst d.peersName PolicyPeer.toJson e.peers).append
    (Json.ifSome_fst "ports" (Json.listOf PolicyPort.toJson) e.ports)
  rw [← List.map_append] at sub
  refine ⟨isShaped_object sub (by cases d <;> decide) (by cases d <;> decide) ?_,
    by simp [PolicyEntry.toJson]⟩
  simp only [List.forall_mem_append]
  exact ⟨values_unlessEmpty fun q hq => isShaped_policyPeer (h q hq),
    values_ifSome fun ports _ => isShaped_listOf fun p _ => isShaped_policyPort p⟩

/-- Policies all of whose labels have keys that are read back. -/
structure NetworkPolicy.KnownLabels (p : NetworkPolicy) : Prop where
  labels : Known p.metadata.labels
  annotations : Known p.metadata.annotations
  pods : Known p.spec.podSelector.matchLabels
  ingress : ∀ e ∈ p.spec.ingress, ∀ q ∈ e.peers, q.KnownLabels
  egress : ∀ e ∈ p.spec.egress, ∀ q ∈ e.peers, q.KnownLabels

theorem isShaped_policySpec {p : NetworkPolicy} (h : p.KnownLabels) : IsShaped p.spec.toJson := by
  have first : ([("podSelector", p.spec.podSelector.toJson),
      ("policyTypes", Json.listOf Direction.toJson p.spec.policyTypes)].map Prod.fst).Sublist
        ["podSelector", "policyTypes"] := List.Sublist.refl _
  have sub := (first.append (Json.unlessEmpty_fst "ingress" (PolicyEntry.toJson .ingress)
    p.spec.ingress)).append (Json.unlessEmpty_fst "egress" (PolicyEntry.toJson .egress) p.spec.egress)
  rw [← List.map_append, ← List.map_append] at sub
  refine isShaped_object sub (by decide) (by decide) ?_
  have types : IsShaped (Json.listOf Direction.toJson p.spec.policyTypes) :=
    isShaped_listOf fun d _ => ⟨isShaped_string _, by simp [Direction.toJson]⟩
  simp only [List.forall_mem_append]
  refine ⟨⟨?_, values_unlessEmpty fun e he => isShaped_policyEntry .ingress (h.ingress e he)⟩,
    values_unlessEmpty fun e he => isShaped_policyEntry .egress (h.egress e he)⟩
  simp [types, (isShaped_labelSelector h.pods).1]

/-- The four parts that all manifests have. -/
private theorem isShaped_manifest {apiVersion kind : String} {metadata spec : Json}
    (hm : IsShaped metadata) (hs : IsShaped spec) :
    IsDocument (fun _ => True) (.object [("apiVersion", .string apiVersion),
      ("kind", .string kind), ("metadata", metadata), ("spec", spec)]) := by
  have sub : ["apiVersion", "kind", "metadata", "spec"].Sublist
    ["apiVersion", "kind", "metadata", "spec"] := List.Sublist.refl _
  show IsShaped (.object (_ :: _))
  refine isShaped_object sub (by decide) (by decide) ?_
  simp [isShaped_string, hm, hs]

theorem isDocument_networkPolicy {p : NetworkPolicy} (h : p.KnownLabels) :
    IsDocument (fun _ => True) p.toJson :=
  isShaped_manifest (isShaped_meta h.labels h.annotations) (isShaped_policySpec h)

theorem isShaped_httpRule (r : HttpRule) : IsShaped r.toJson ∧ ∀ js, r.toJson ≠ .array js := by
  have sub := (((Json.ifSome_fst "method" .string r.method).append
    (Json.ifSome_fst "path" .string r.path)).append (Json.ifSome_fst "host" .string r.host)).append
    (Json.unlessEmpty_fst "headers" .string r.headers)
  rw [← List.map_append, ← List.map_append, ← List.map_append] at sub
  refine ⟨isShaped_object sub (by decide) (by decide) ?_, by simp [HttpRule.toJson]⟩
  simp only [List.forall_mem_append]
  exact ⟨⟨⟨values_ifSome fun s _ => isShaped_string s, values_ifSome fun s _ => isShaped_string s⟩,
    values_ifSome fun s _ => isShaped_string s⟩,
    values_unlessEmpty fun s _ => ⟨isShaped_string s, by simp⟩⟩

theorem isShaped_l7Rules (r : L7Rules) : IsShaped r.toJson :=
  isShaped_object (Json.unlessEmpty_fst "http" HttpRule.toJson r.http) (by decide) (by decide)
    (values_unlessEmpty fun h _ => isShaped_httpRule h)

theorem isShaped_ciliumPort (p : CiliumPort) :
    IsShaped p.toJson ∧ ∀ js, p.toJson ≠ .array js := by
  have sub : ["port", "protocol"].Sublist ["port", "protocol"] := List.Sublist.refl _
  refine ⟨isShaped_object sub (by decide) (by decide) ?_, by simp [CiliumPort.toJson]⟩
  simp [isShaped_string]

theorem isShaped_ciliumPortRule (r : CiliumPortRule) :
    IsShaped r.toJson ∧ ∀ js, r.toJson ≠ .array js := by
  have sub := (List.Sublist.refl ["ports"]).append (Json.ifSome_fst "rules" L7Rules.toJson r.rules)
  refine ⟨isShaped_object sub (by decide) (by decide) ?_, by simp [CiliumPortRule.toJson]⟩
  rw [List.forall_mem_cons]
  exact ⟨isShaped_listOf fun p _ => isShaped_ciliumPort p,
    values_ifSome fun l _ => isShaped_l7Rules l⟩

theorem isShaped_ciliumEntry {e : CiliumEntry} (h : ∀ s ∈ e.fromEndpoints, Known s.matchLabels) :
    IsShaped e.toJson ∧ ∀ js, e.toJson ≠ .array js := by
  have sub := (Json.unlessEmpty_fst "fromEndpoints" LabelSelector.toJson e.fromEndpoints).append
    (Json.unlessEmpty_fst "toPorts" CiliumPortRule.toJson e.toPorts)
  rw [← List.map_append] at sub
  refine ⟨isShaped_object sub (by decide) (by decide) ?_, by simp [CiliumEntry.toJson]⟩
  simp only [List.forall_mem_append]
  exact ⟨values_unlessEmpty fun s hs => isShaped_labelSelector (h s hs),
    values_unlessEmpty fun r _ => isShaped_ciliumPortRule r⟩

structure CiliumPolicy.KnownLabels (p : CiliumPolicy) : Prop where
  labels : Known p.metadata.labels
  annotations : Known p.metadata.annotations
  pods : Known p.spec.endpointSelector.matchLabels
  ingress : ∀ e ∈ p.spec.ingress, ∀ s ∈ e.fromEndpoints, Known s.matchLabels

theorem isDocument_ciliumPolicy {p : CiliumPolicy} (h : p.KnownLabels) :
    IsDocument (fun _ => True) p.toJson := by
  have sub := (List.Sublist.refl ["endpointSelector"]).append
    (Json.unlessEmpty_fst "ingress" CiliumEntry.toJson p.spec.ingress)
  have spec : IsShaped p.spec.toJson := by
    refine isShaped_object sub (by decide) (by decide) ?_
    rw [List.forall_mem_cons]
    exact ⟨(isShaped_labelSelector h.pods).1,
      values_unlessEmpty fun e he => isShaped_ciliumEntry (h.ingress e he)⟩
  exact isShaped_manifest (isShaped_meta h.labels h.annotations) spec

namespace Compilation

variable (c : Compilation)

private theorem known_metadata (name ns family description : String) :
    Known (c.metadata name ns family description).labels ∧
      Known (c.metadata name ns family description).annotations := by
  have labels : Known (((ObjectMeta.new name ns).label policyTypeLabel family).labels) :=
    (known_singleton (by decide) _).insert (by decide) _
  have annotations : Known ((((ObjectMeta.new name ns).label policyTypeLabel family).annotate
      descriptionKey description).annotate generatedAtKey c.generatedAt.text).annotations :=
    (known_empty.insert (by decide) _).insert (by decide) _
  unfold metadata
  cases c.intent.description with
  | none => exact ⟨labels, annotations⟩
  | some text => exact ⟨labels, annotations.insert (by decide) text⟩

private theorem knownLabels_toPolicyPeer (p : Peer) : p.toPolicyPeer.KnownLabels := by
  refine ⟨?_, ?_⟩
  · intro s hs
    have same : LabelSelector.single serviceLabel p.service = s := by
      simpa [Peer.toPolicyPeer] using hs
    rw [← same]
    exact known_singleton (by decide) _
  · intro s hs
    obtain ⟨ns, -, rfl⟩ := Option.map_eq_some_iff.1 (Option.mem_def.1 hs)
    exact known_singleton (by decide) _

private theorem knownLabels_entries (entries : List PeerEntry) :
    ∀ e ∈ entries.map fun e => (⟨[e.peer.toPolicyPeer], e.ports⟩ : PolicyEntry),
      ∀ q ∈ e.peers, q.KnownLabels := by
  intro e he q hq
  obtain ⟨entry, -, rfl⟩ := List.mem_map.1 he
  have same : q = entry.peer.toPolicyPeer := by simpa using hq
  rw [same]
  exact knownLabels_toPolicyPeer _

theorem knownLabels_manifests : ∀ p ∈ c.policies.manifests, p.KnownLabels := by
  intro p hp
  simp only [policies, PolicySet.manifests, ingress, egress, List.mem_append,
    List.mem_singleton, List.mem_map] at hp
  obtain (baseline | ⟨g, -, rfl⟩) | ⟨g, -, rfl⟩ := hp
  · obtain ⟨labels, annotations⟩ := c.known_metadata baselineName c.intent.ns "default-deny"
      "Default deny all ingress and egress traffic"
    rw [baseline]
    exact ⟨labels, annotations, known_empty, by simp [Compilation.baseline, NetworkPolicy.new],
      by simp [Compilation.baseline, NetworkPolicy.new]⟩
  · obtain ⟨labels, annotations⟩ := c.known_metadata (ingressName g.key) c.intent.ns "ingress"
      ("Allow ingress traffic to " ++ g.key)
    exact ⟨(labels.insert (by decide) _).insert (by decide) _, annotations.insert (by decide) _,
      known_singleton (by decide) _, knownLabels_entries _,
      by simp [ingressPolicy, NetworkPolicy.new]⟩
  · obtain ⟨labels, annotations⟩ := c.known_metadata (egressName g.key) c.intent.ns "egress"
      ("Allow egress traffic from " ++ g.key)
    refine ⟨(labels.insert (by decide) _).insert (by decide) _, annotations.insert (by decide) _,
      known_singleton (by decide) _, by simp [egressPolicy, NetworkPolicy.new], ?_⟩
    intro e he
    cases List.mem_append.1 he with
    | inl entry => exact knownLabels_entries _ e entry
    | inr dns =>
      have same : e = dnsEntry := by simpa using dns
      simp [same, dnsEntry]

theorem knownLabels_cilium : ∀ p ∈ c.cilium, p.KnownLabels := by
  intro p hp
  obtain ⟨g, -, rfl⟩ := List.mem_map.1 hp
  obtain ⟨labels, annotations⟩ := c.known_metadata (ciliumName g.key) c.intent.ns "l7-ingress"
    ("Allow L7-filtered ingress traffic to " ++ g.key)
  refine ⟨(labels.insert (by decide) _).insert (by decide) _, annotations,
    known_singleton (by decide) _, ?_⟩
  intro e he s hs
  obtain ⟨r, -, rfl⟩ := List.mem_map.1 he
  have same : s = (c.sourcePeer r).toEndpointSelector := by simpa using hs
  have own : Known (.singleton serviceLabel (c.sourcePeer r).service) :=
    known_singleton (by decide) _
  rw [same]
  unfold Peer.toEndpointSelector
  cases (c.sourcePeer r).ns with
  | none => exact own
  | some ns => exact own.insert (by decide) ns

end Compilation

end TrafficIntent
