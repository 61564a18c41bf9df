import TrafficIntent.Proofs.RoundTrip
import TrafficIntent.Proofs.Yaml.SafeTexts

namespace TrafficIntent

open Yaml (isSafeText isSafeKey isKey_of_isSafeKey readsBack_of_isSafeText keeps_of_isSafeText)

def KeyMap.keys {α : Type} (m : KeyMap α) : List String := m.entries.map Prod.fst

def LabelSelector.labelKeys (s : LabelSelector) : List String := s.matchLabels.keys

def PolicyPeer.labelKeys (q : PolicyPeer) : List String :=
  (q.podSelector.toList ++ q.namespaceSelector.toList).flatMap LabelSelector.labelKeys

/-- The keys of labels and annotations, and of the labels that peers are selected by. -/
def NetworkPolicy.labelKeys (p : NetworkPolicy) : List String :=
  p.metadata.labels.keys ++ p.metadata.annotations.keys ++ p.spec.podSelector.labelKeys ++
    (p.spec.ingress ++ p.spec.egress).flatMap fun e => e.peers.flatMap PolicyPeer.labelKeys

def CiliumPolicy.labelKeys (p : CiliumPolicy) : List String :=
  p.metadata.labels.keys ++ p.metadata.annotations.keys ++ p.spec.endpointSelector.labelKeys ++
    p.spec.ingress.flatMap fun e => e.fromEndpoints.flatMap LabelSelector.labelKeys

theorem known_iff {l : Labels} : Known l ↔ ∀ k ∈ l.keys, Yaml.IsKey k := by
  unfold Known KeyMap.keys
  rw [List.forall_mem_map]

private theorem knownLabels_of_peer {q : PolicyPeer} (h : ∀ k ∈ q.labelKeys, Yaml.IsKey k) :
    q.KnownLabels := by
  unfold PolicyPeer.labelKeys at h
  rw [List.forall_mem_flatMap, List.forall_mem_append] at h
  exact ⟨fun s hs => known_iff.2 (h.1 s (by simpa using hs)),
    fun s hs => known_iff.2 (h.2 s (by simpa using hs))⟩

theorem NetworkPolicy.knownLabels_of_keys {p : NetworkPolicy}
    (h : ∀ k ∈ p.labelKeys, Yaml.IsKey k) : p.KnownLabels := by
  unfold NetworkPolicy.labelKeys at h
  simp only [List.forall_mem_append, List.forall_mem_flatMap] at h
  obtain ⟨⟨⟨labels, annotations⟩, pods⟩, ingress, egress⟩ := h
  exact ⟨known_iff.2 labels, known_iff.2 annotations, known_iff.2 pods,
    fun e he q hq => knownLabels_of_peer (ingress e he q hq),
    fun e he q hq => knownLabels_of_peer (egress e he q hq)⟩

theorem CiliumPolicy.knownLabels_of_keys {p : CiliumPolicy}
    (h : ∀ k ∈ p.labelKeys, Yaml.IsKey k) : p.KnownLabels := by
  unfold CiliumPolicy.labelKeys at h
  simp only [List.forall_mem_append, List.forall_mem_flatMap] at h
  obtain ⟨⟨⟨labels, annotations⟩, pods⟩, ingress⟩ := h
  exact ⟨known_iff.2 labels, known_iff.2 annotations, known_iff.2 pods,
    fun e he s hs => known_iff.2 (ingress e he s hs)⟩

/-- Manifests whose keys are read back are read back if their texts are safe. -/
theorem manifests_of_isSafeText {α : Type} [Resource α] {ms : List α}
    (shaped : ∀ m ∈ ms, Yaml.IsDocument (fun _ => True) (Resource.toJson m))
    (texts : ∀ s ∈ textsOf ms, isSafeText s = true) :
    Yaml.manifests (toYaml ms) = .ok (structured ms) :=
  (manifests_toYaml_iff shaped fun s hs => keeps_of_isSafeText (texts s hs)).2
    fun s hs => readsBack_of_isSafeText (texts s hs)

/-- Policies of any shape are read back if their texts and the keys of their labels are safe. -/
theorem safe_manifests_read_back (ps : List NetworkPolicy) (cs : List CiliumPolicy)
    (texts : ∀ s ∈ textsOf ps ++ textsOf cs, isSafeText s = true)
    (keys : ∀ k ∈ ps.flatMap NetworkPolicy.labelKeys ++ cs.flatMap CiliumPolicy.labelKeys,
      isSafeKey k = true) :
    Yaml.manifests (toYaml ps) = .ok (structured ps) ∧
      Yaml.manifests (toYaml cs) = .ok (structured cs) := by
  simp only [List.forall_mem_append, List.forall_mem_flatMap] at texts keys
  refine ⟨manifests_of_isSafeText ?_ texts.1, manifests_of_isSafeText ?_ texts.2⟩
  · intro p hp
    exact isDocument_networkPolicy
      (NetworkPolicy.knownLabels_of_keys fun k hk => isKey_of_isSafeKey (keys.1 p hp k hk))
  · intro p hp
    exact isDocument_ciliumPolicy
      (CiliumPolicy.knownLabels_of_keys fun k hk => isKey_of_isSafeKey (keys.2 p hp k hk))

/-- Entries without peers, with an empty list of ports and with several peers; keys and texts that
are words of the notation or look like numbers. -/
def wordyPolicy : NetworkPolicy where
  apiVersion := "networking.k8s.io/v1"
  kind := "NetworkPolicy"
  metadata := {
    name := "nan"
    ns := "null"
    labels := (KeyMap.singleton "null" "true").insert "True" "443"
    annotations := KeyMap.singleton "e5 a, b" "2024-02-29T12:00:00Z" }
  spec := {
    podSelector := .all
    policyTypes := []
    ingress := [⟨[], some []⟩, ⟨[⟨none, none⟩, ⟨some .all, some (.single "no" "00080")⟩], none⟩]
    egress := [⟨[], some [⟨80, "TCP"⟩, ⟨65535, "y"⟩]⟩] }

/-- Port rules without ports and matchers without a part. -/
def wordyCiliumPolicy : CiliumPolicy where
  apiVersion := "cilium.io/v2"
  kind := "CiliumNetworkPolicy"
  metadata := ⟨"FALSE", "Infinity", .empty, .singleton "Null" "yes"⟩
  spec := {
    endpointSelector := .single "FALSE" "NaN"
    ingress := [⟨[], []⟩, ⟨[.all, .single "app" "null"],
      [⟨[], some ⟨[]⟩⟩, ⟨[⟨"8080", "TCP"⟩], some ⟨[.blank, ⟨some "GET", none, none, ["x"]⟩]⟩⟩]⟩] }

theorem safe_manifests_read_back_wordy :
    (∀ s ∈ textsOf [wordyPolicy, wordyPolicy] ++ textsOf [wordyCiliumPolicy],
        isSafeText s = true) ∧
      (∀ k ∈ [wordyPolicy, wordyPolicy].flatMap NetworkPolicy.labelKeys ++
        [wordyCiliumPolicy].flatMap CiliumPolicy.labelKeys, isSafeKey k = true) ∧
      Yaml.manifests (toYaml [wordyPolicy, wordyPolicy]) =
        .ok (structured [wordyPolicy, wordyPolicy]) ∧
      Yaml.manifests (toYaml [wordyCiliumPolicy]) = .ok (structured [wordyCiliumPolicy]) := by
  have texts : ∀ s ∈ textsOf [wordyPolicy, wordyPolicy] ++ textsOf [wordyCiliumPolicy],
      isSafeText s = true := by
    decide +kernel
  have keys : ∀ k ∈ [wordyPolicy, wordyPolicy].flatMap NetworkPolicy.labelKeys ++
      [wordyCiliumPolicy].flatMap CiliumPolicy.labelKeys, isSafeKey k = true := by
    decide +kernel
  exact ⟨texts, keys, safe_manifests_read_back _ _ texts keys⟩

end TrafficIntent
