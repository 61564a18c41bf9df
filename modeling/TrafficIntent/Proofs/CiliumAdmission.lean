import Std.Data.String.ToNat
import TrafficIntent.Proofs.Admission
import TrafficIntent.Synthesis.Cilium

/-!
Cilium's policies are no wider than the plain ones. Both protect the same targets, and whatever a
Cilium policy admits, its matchers of requests aside, is admitted by the plain policy of the target.
Only rules with matchers and without ports make a difference: Cilium takes them for one port.
-/

namespace TrafficIntent

/-- Whether a rule admits a port once its matchers, if it has any, have been given a port. -/
def Rule.AllowsMatched (r : Rule) (p : PolicyPort) : Prop :=
  match r.ports, r.l7 with
  | none, some _ => p = ⟨defaultL7Port, defaultProtocol⟩
  | _, _ => r.Allows p

namespace Rule

variable {r : Rule} {p : PolicyPort}

theorem AllowsMatched.allows (h : r.AllowsMatched p) : r.Allows p := by
  unfold AllowsMatched at h
  split at h
  next open' _ => simp [Allows, open']
  next => exact h

theorem Allows.matched (h : r.Allows p) (listed : r.l7 ≠ none → r.ports ≠ none) :
    r.AllowsMatched p := by
  unfold AllowsMatched
  split
  next open' matchers => exact absurd open' (listed (by simp [matchers]))
  next => exact h

theorem allowsMatched_of_ports {listed : List UInt16} (h : r.ports = some listed) :
    r.AllowsMatched p ↔ r.Allows p := by
  simp [AllowsMatched, h]

end Rule

/-- The text of a port tells the port. -/
theorem ciliumPort_injective : Function.Injective fun p : PolicyPort =>
    (⟨toString p.port.toNat, p.protocol⟩ : CiliumPort) := by
  intro p q h
  obtain ⟨text, protocol⟩ := CiliumPort.mk.inj h
  have number : p.port.toNat = q.port.toNat := Nat.repr_inj.1 text
  have port : p.port = q.port := UInt16.toNat_inj.1 number
  cases p
  cases q
  simp_all

/-- The port rules for a rule admit what the rule does once its matchers have a port. -/
theorem ciliumPorts_admits (selectors : List LabelSelector) (r : Rule) (p : PolicyPort) :
    (⟨selectors, r.ciliumPorts⟩ : CiliumEntry).admitsPort p ↔ r.AllowsMatched p := by
  unfold CiliumEntry.admitsPort Rule.ciliumPorts
  cases expanded : r.expandPorts with
  | none =>
    have open' : r.ports = none := Rule.expandPorts_eq_none.1 expanded
    cases matchers : r.l7 with
    | none => simp [Rule.AllowsMatched, Rule.Allows, open', matchers]
    | some l7 =>
      have same := ciliumPort_injective.eq_iff (a := p) (b := ⟨defaultL7Port, defaultProtocol⟩)
      simpa [Rule.AllowsMatched, open', matchers] using same
  | some ports =>
    have listed : ∃ l, r.ports = some l := by
      rw [← Option.isSome_iff_exists]
      simpa [Rule.expandPorts] using congrArg Option.isSome expanded
    obtain ⟨l, hl⟩ := listed
    have texts := List.mem_map_of_injective ciliumPort_injective (a := p) (l := ports)
    rw [Rule.allowsMatched_of_ports hl, ← Rule.mem_expandPorts expanded, ← texts]
    show (false || ([_].any _)) = true ↔ _
    rw [Bool.false_or, List.any_cons, List.any_nil, Bool.or_false, List.contains_iff_mem]

theorem label?_toEndpointSelector_service (p : Peer) :
    p.toEndpointSelector.label? serviceLabel = some p.service := by
  have other : serviceLabel ≠ ciliumNamespaceLabel := by decide
  unfold Peer.toEndpointSelector LabelSelector.label?
  cases p.ns <;> simp [KeyMap.singleton, KeyMap.get?_insert, other]

theorem label?_toEndpointSelector_namespace (p : Peer) :
    p.toEndpointSelector.label? ciliumNamespaceLabel = p.ns := by
  have other : ciliumNamespaceLabel ≠ serviceLabel := by decide
  unfold Peer.toEndpointSelector LabelSelector.label?
  cases p.ns <;> simp [KeyMap.singleton, KeyMap.get?_insert, other]

namespace Compilation

variable (c : Compilation)

theorem sourcePeer_admits (r : Rule) (rules : List CiliumPortRule) (service ns : String) :
    (⟨[(c.sourcePeer r).toEndpointSelector], rules⟩ : CiliumEntry).admitsService c.intent.ns
        service ns ↔
      r.source = service ∧ r.nsOr c.intent.ns = ns := by
  simp only [CiliumEntry.admitsService, List.any_cons, List.any_nil, Bool.or_false,
    label?_toEndpointSelector_service, label?_toEndpointSelector_namespace, sourcePeer,
    Peer.resolve]
  by_cases own : r.nsOr c.intent.ns = c.intent.ns <;> simp [own]

/-- Cilium's policy of a target, from all rules that name it. -/
def ciliumTo (target : String) : CiliumPolicy :=
  c.ciliumPolicy target (c.rulesAt Rule.target target)

theorem cilium_eq : c.cilium = (c.services Rule.target).map c.ciliumTo := by
  simp only [cilium, groupsOf_eq_partition, partition, List.map_map]
  rfl

@[simp] theorem ciliumTo_ns (target : String) : (c.ciliumTo target).metadata.ns = c.intent.ns := by
  simp [ciliumTo, ciliumPolicy, CiliumPolicy.new, ObjectMeta.label]

@[simp] theorem ciliumTo_selector (target : String) :
    (c.ciliumTo target).spec.endpointSelector = .single serviceLabel target := rfl

/-- What Cilium's policy of a target admits, rule by rule. -/
theorem ciliumTo_admits (source target ns : String) (port : PolicyPort) :
    (c.ciliumTo target).admits source ns port ↔
      ∃ r ∈ c.rulesBetween source target ns, r.AllowsMatched port := by
  have entries : (c.ciliumTo target).spec.ingress =
      (c.rulesAt Rule.target target).map fun r =>
        ⟨[(c.sourcePeer r).toEndpointSelector], r.ciliumPorts⟩ := rfl
  unfold CiliumPolicy.admits
  rw [ciliumTo_ns, entries]
  simp only [List.any_map, List.any_eq_true, Function.comp_apply, Bool.and_eq_true,
    sourcePeer_admits, ciliumPorts_admits, mem_rulesAt, mem_rulesBetween]
  constructor
  · rintro ⟨r, ⟨hr, ht⟩, ⟨hs, hn⟩, allows⟩
    exact ⟨r, ⟨hr, hs, ht, hn⟩, allows⟩
  · rintro ⟨r, ⟨hr, hs, ht, hn⟩, allows⟩
    exact ⟨r, ⟨hr, ht⟩, ⟨hs, hn⟩, allows⟩

/-- The plain policy of a target has an entry for a service with a port, or with all ports, exactly
if some rule declares it. -/
theorem policyTo_lists (source target ns : String) (port : PolicyPort) :
    (∃ e ∈ (c.policyTo target).spec.ingress, c.peer source ns ∈ e.peers ∧
        ∀ ports ∈ e.ports, port ∈ ports) ↔
      c.intent.Declares source target ns port := by
  rw [policyTo_spec, ← c.exists_allows_iff]
  constructor
  · rintro ⟨e, he, hpeer, hports⟩
    obtain ⟨ne, rfl⟩ := (c.mem_entriesWith (d := .ingress)).1 ⟨he, hpeer⟩
    exact (mem_unionPorts_or_all ne port).1 hports
  · rintro ⟨r, hr, allows⟩
    have ne := List.ne_nil_of_mem hr
    obtain ⟨he, hpeer⟩ := (c.mem_entriesWith (d := .ingress)).2 ⟨ne, rfl⟩
    exact ⟨_, he, hpeer, (mem_unionPorts_or_all ne port).2 ⟨r, hr, allows⟩⟩

/-- Whether Cilium's policy of a target admits a service in a namespace, its matchers aside. -/
def CiliumAdmits (source target ns : String) (port : PolicyPort) : Prop :=
  ∃ p ∈ c.cilium, p.spec.endpointSelector = .single serviceLabel target ∧ p.admits source ns port

/-- Whether the plain policy of a target has an entry for a service in a namespace that lists a port
or leaves the ports out. -/
def IngressAdmits (source target ns : String) (port : PolicyPort) : Prop :=
  ∃ p ∈ c.ingress, p.spec.podSelector = .single serviceLabel target ∧
    ∃ e ∈ p.spec.ingress, c.peer source ns ∈ e.peers ∧ ∀ ports ∈ e.ports, port ∈ ports

theorem ciliumAdmits_iff {source target ns : String} {port : PolicyPort} :
    c.CiliumAdmits source target ns port ↔
      ∃ r ∈ c.rulesBetween source target ns, r.AllowsMatched port := by
  unfold CiliumAdmits
  rw [cilium_eq]
  constructor
  · rintro ⟨p, hp, selector, admits⟩
    obtain ⟨t, _, rfl⟩ := List.mem_map.1 hp
    have same : t = target := LabelSelector.single_inj.1 selector
    rw [same] at admits
    exact (c.ciliumTo_admits source target ns port).1 admits
  · rintro ⟨r, hr, allows⟩
    have service : target ∈ c.services Rule.target :=
      c.mem_services_near (d := .ingress) (List.ne_nil_of_mem hr)
    refine ⟨c.ciliumTo target, List.mem_map_of_mem service, c.ciliumTo_selector target, ?_⟩
    exact (c.ciliumTo_admits source target ns port).2 ⟨r, hr, allows⟩

theorem ingressAdmits_iff {source target ns : String} {port : PolicyPort} :
    c.IngressAdmits source target ns port ↔ c.intent.Declares source target ns port := by
  unfold IngressAdmits
  rw [ingress_eq]
  constructor
  · rintro ⟨p, hp, selector, entry⟩
    obtain ⟨t, _, rfl⟩ := List.mem_map.1 hp
    rw [policyTo_spec] at selector
    have same : t = target := LabelSelector.single_inj.1 selector
    rw [same] at entry
    exact (c.policyTo_lists source target ns port).1 entry
  · intro declared
    obtain ⟨r, hr, _⟩ := c.exists_allows_iff.2 declared
    have service : target ∈ c.services Rule.target :=
      c.mem_services_near (d := .ingress) (List.ne_nil_of_mem hr)
    refine ⟨c.policyTo target, List.mem_map_of_mem service, ?_, ?_⟩
    · rw [policyTo_spec]
    · exact (c.policyTo_lists source target ns port).2 declared

/-- Cilium's policies protect the same targets as the plain ones, in the same order, and admit
nothing that those do not. They admit as much if every rule with matchers has ports. -/
theorem cilium_refines_ingress :
    (c.cilium.map fun p => p.spec.endpointSelector) = (c.ingress.map fun p => p.spec.podSelector) ∧
    ∀ (source target ns : String) (port : PolicyPort),
      (c.CiliumAdmits source target ns port → c.IngressAdmits source target ns port) ∧
      ((∀ r ∈ c.intent.rules, r.l7 ≠ none → r.ports ≠ none) →
        c.IngressAdmits source target ns port → c.CiliumAdmits source target ns port) := by
  refine ⟨?_, ?_⟩
  · rw [cilium_eq, ingress_eq, List.map_map, List.map_map]
    apply List.map_congr_left
    intro target _
    simp
  intro source target ns port
  rw [ciliumAdmits_iff, ingressAdmits_iff, ← c.exists_allows_iff]
  refine ⟨?_, ?_⟩
  · rintro ⟨r, hr, matched⟩
    exact ⟨r, hr, matched.allows⟩
  · rintro listed ⟨r, hr, allows⟩
    exact ⟨r, hr, allows.matched (listed r (c.mem_rulesBetween.1 hr).1)⟩

end Compilation

/-- Rules for one source in another namespace, with matchers on one of them. -/
def matchedRules : Compilation where
  intent := .new "shop" "default" [
    .build "frontend" "api" [.inNamespace "web", .l7 ⟨[⟨some "GET", none, none, []⟩]⟩, .ports [8080]],
    .build "admin" "api" [.ports [22]],
    .build "frontend" "api" [.ports [9090], .inNamespace "web"]]
  generatedAt := .epoch

theorem cilium_refines_ingress_matchedRules :
    (∀ r ∈ matchedRules.intent.rules, r.l7 ≠ none → r.ports ≠ none) ∧
      matchedRules.IngressAdmits "frontend" "api" "web" ⟨8080, "TCP"⟩ ∧
      matchedRules.CiliumAdmits "frontend" "api" "web" ⟨8080, "TCP"⟩ ∧
      ¬matchedRules.CiliumAdmits "frontend" "api" "default" ⟨8080, "TCP"⟩ := by
  have listed : ∀ r ∈ matchedRules.intent.rules, r.l7 ≠ none → r.ports ≠ none := by decide
  have admitted : matchedRules.CiliumAdmits "frontend" "api" "web" ⟨8080, "TCP"⟩ := by
    refine matchedRules.ciliumAdmits_iff.2 ⟨_, List.mem_cons_self, ?_⟩
    exact Rule.Allows.matched ⟨by decide, by decide⟩ (by decide)
  have plain := matchedRules.cilium_refines_ingress.2 "frontend" "api" "web" ⟨8080, "TCP"⟩
  refine ⟨listed, plain.1 admitted, plain.2 listed (plain.1 admitted), ?_⟩
  intro own
  obtain ⟨r, hr, _⟩ := matchedRules.ciliumAdmits_iff.1 own
  have none : matchedRules.rulesBetween "frontend" "api" "default" = [] := by decide
  rw [none] at hr
  contradiction

end TrafficIntent
