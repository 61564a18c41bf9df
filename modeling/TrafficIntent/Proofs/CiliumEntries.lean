import TrafficIntent.Proofs.CiliumAdmission

namespace TrafficIntent

/-- Whether an entry lets a request pass on a port, if it tells of matchers whether they take the
request. Without port rules everything passes, and on ports without matchers every request. -/
def CiliumEntry.Passes (e : CiliumEntry) (taken : L7Rules → Prop) (port : PolicyPort) : Prop :=
  e.toPorts = [] ∨ ∃ r ∈ e.toPorts,
    ⟨toString port.port.toNat, port.protocol⟩ ∈ r.ports ∧ ∀ l7 ∈ r.rules, taken l7

/-- Where all port rules carry the same matchers, an entry is a matter of its ports and of these. -/
theorem CiliumEntry.passes_iff {e : CiliumEntry} {l7 : Option L7Rules}
    (same : ∀ r ∈ e.toPorts, r.rules = l7) (closed : e.toPorts = [] → l7 = none)
    (taken : L7Rules → Prop) (port : PolicyPort) :
    e.Passes taken port ↔ e.admitsPort port = true ∧ ∀ m ∈ l7, taken m := by
  have admits : e.admitsPort port = true ↔ e.toPorts = [] ∨ ∃ r ∈ e.toPorts,
      ⟨toString port.port.toNat, port.protocol⟩ ∈ r.ports := by
    simp [CiliumEntry.admitsPort]
  rw [admits]
  constructor
  · intro passes
    cases passes with
    | inl none => simp [none, closed none]
    | inr listed =>
      obtain ⟨r, hr, opened, matched⟩ := listed
      rw [same r hr] at matched
      exact ⟨.inr ⟨r, hr, opened⟩, matched⟩
  · intro both
    obtain ⟨opened, matched⟩ := both
    cases opened with
    | inl none => exact .inl none
    | inr listed =>
      obtain ⟨r, hr, opened⟩ := listed
      refine .inr ⟨r, hr, opened, ?_⟩
      rw [same r hr]
      exact matched

namespace Rule

variable {r : Rule}

/-- No port rule lacks the matchers of its rule or has others. -/
theorem rules_of_mem_ciliumPorts {p : CiliumPortRule} (h : p ∈ r.ciliumPorts) : p.rules = r.l7 := by
  unfold ciliumPorts at h
  split at h
  next => simp_all
  next matchers => simp_all
  next => simp at h

/-- All ports are open only for a rule that asks for no ports and for no matchers. -/
theorem ciliumPorts_eq_nil : r.ciliumPorts = [] ↔ r.ports = none ∧ r.l7 = none := by
  rw [← expandPorts_eq_none]
  unfold ciliumPorts
  cases r.expandPorts <;> cases r.l7 <;> simp

end Rule

namespace Compilation

variable (c : Compilation)

/-- The entry for a rule: its source by name, with the namespace if it is not the intent's own, and
its ports with its matchers. -/
def ciliumEntry (r : Rule) : CiliumEntry where
  fromEndpoints :=
    let own := KeyMap.singleton "app" r.source
    [⟨if r.nsOr c.intent.ns = c.intent.ns then own
      else own.insert "k8s:io.kubernetes.pod.namespace" (r.nsOr c.intent.ns)⟩]
  toPorts :=
    match r.ports, r.l7 with
    | none, none => []
    | none, some l7 => [⟨[⟨"80", "TCP"⟩], some l7⟩]
    | some ports, l7 =>
      [⟨ports.flatMap fun port => r.protocols.map fun protocol =>
        ⟨toString port.toNat, protocol⟩, l7⟩]

theorem ciliumEntry_eq (r : Rule) :
    c.ciliumEntry r = ⟨[(c.sourcePeer r).toEndpointSelector], r.ciliumPorts⟩ := by
  have endpoint : (c.ciliumEntry r).fromEndpoints = [(c.sourcePeer r).toEndpointSelector] := by
    unfold ciliumEntry sourcePeer Peer.resolve Peer.toEndpointSelector
    by_cases own : r.nsOr c.intent.ns = c.intent.ns <;>
      simp [own, serviceLabel, ciliumNamespaceLabel]
  have ports : (c.ciliumEntry r).toPorts = r.ciliumPorts := by
    unfold ciliumEntry Rule.ciliumPorts Rule.expandPorts
    cases r.ports with
    | none => cases r.l7 <;> rfl
    | some ports => simp [List.map_flatMap, Function.comp_def]
  rw [← endpoint, ← ports]

theorem ciliumTo_entries (target : String) : (c.ciliumTo target).spec.ingress =
    (c.rulesAt Rule.target target).map c.ciliumEntry := by
  rw [funext c.ciliumEntry_eq]
  rfl

/-- An entry lets a request pass on a port exactly if its rule opens the port and the rule's
matchers, if it has any, take the request. -/
theorem ciliumEntry_passes (r : Rule) (taken : L7Rules → Prop) (port : PolicyPort) :
    (c.ciliumEntry r).Passes taken port ↔ r.AllowsMatched port ∧ ∀ l7 ∈ r.l7, taken l7 := by
  have same : ∀ p ∈ (c.ciliumEntry r).toPorts, p.rules = r.l7 := by
    rw [ciliumEntry_eq]
    intro p hp
    exact Rule.rules_of_mem_ciliumPorts hp
  have closed : (c.ciliumEntry r).toPorts = [] → r.l7 = none := by
    rw [ciliumEntry_eq]
    intro none
    exact (Rule.ciliumPorts_eq_nil.1 none).2
  rw [CiliumEntry.passes_iff same closed, ciliumEntry_eq, ciliumPorts_admits]

/-- All entries together are those of the rules. -/
theorem perm_entries_cilium :
    (c.cilium.flatMap fun p => p.spec.ingress).Perm (c.intent.rules.map c.ciliumEntry) := by
  have groups := (perm_members_partition Rule.target c.intent.rules).map c.ciliumEntry
  rw [partition, List.flatMap_map, List.map_flatMap] at groups
  rw [cilium_eq, List.flatMap_map]
  simp only [ciliumTo_entries]
  exact groups

/-- Cilium's policies, in order, with the entries of their rules. What an entry lets pass is what
its rule allows, its matchers included, and no entry is lost or made up. -/
theorem cilium_spelled_out :
    (c.cilium.map fun p => (p.metadata.ns, p.spec)) =
      ((c.intent.rules.map Rule.target).eraseDups.map fun target =>
        (c.intent.ns, ⟨.single "app" target,
          (c.intent.rules.filter fun r => r.target == target).map c.ciliumEntry⟩)) ∧
    (c.cilium.flatMap fun p => p.spec.ingress).length = c.intent.rules.length ∧
    ∀ (r : Rule) (taken : L7Rules → Prop) (port : PolicyPort),
      (c.ciliumEntry r).Passes taken port ↔ r.AllowsMatched port ∧ ∀ l7 ∈ r.l7, taken l7 := by
  refine ⟨?_, ?_, c.ciliumEntry_passes⟩
  · rw [cilium_eq, List.map_map]
    apply List.map_congr_left
    intro target _
    have entries := c.ciliumTo_entries target
    rw [rulesAt] at entries
    rw [Function.comp_apply, ciliumTo_ns, ← entries]
    rfl
  · rw [c.perm_entries_cilium.length_eq, List.length_map]

end Compilation

end TrafficIntent
