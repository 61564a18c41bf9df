import TrafficIntent.Proofs.CiliumEntries

/-!
What is missing from an entry stands for everything, so a policy is as tight as its rules only if
nothing goes missing on the way. Rules that were built step by step have entries for one service
each, and these are open to all ports only if a rule is.
-/

namespace TrafficIntent

/-- A selector of labels that selects by one label only. -/
def LabelSelector.SelectsBy (s : LabelSelector) (key value : String) : Prop :=
  s.matchLabels.entries = [(key, value)]

namespace Compilation

/-- What an entry must be in the policy of a service to be for one other service in one namespace,
and for all ports only if a rule between the two is. -/
structure IsNarrow (c : Compilation) (d : Direction) (service other ns : String) (e : PolicyEntry) :
    Prop where
  peer : ∃ s, e.peers =
      [⟨some s, if ns = c.intent.ns then none else some (.single namespaceLabel ns)⟩] ∧
    s.SelectsBy serviceLabel other
  ports : ∀ ports ∈ e.ports, ports ≠ []
  allPorts : e.ports = none → ∃ r ∈ c.intent.rules,
    d.near r = service ∧ d.far r = other ∧ r.nsOr c.intent.ns = ns ∧ r.ports = none

/-- What an entry must be in Cilium's policy of a target to be for pods with some label, to have a
port in every port rule and a matcher in all rules for requests, and to be for all ports only if its
rule is. -/
structure IsNarrowCilium (c : Compilation) (target : String) (e : CiliumEntry) : Prop where
  endpoint : ∃ s, e.fromEndpoints = [s] ∧ s.matchLabels.entries ≠ []
  ports : ∀ r ∈ e.toPorts, r.ports ≠ []
  matchers : ∀ r ∈ e.toPorts, ∀ l7 ∈ r.rules, l7.http ≠ []
  allPorts : e.toPorts = [] → ∃ r ∈ c.intent.rules,
    r.target = target ∧ c.ciliumEntry r = e ∧ r.ports = none ∧ r.l7 = none

end Compilation

namespace Rule

variable {r : Rule}

theorem Normal.expandPorts_ne_nil (h : r.Normal) : r.expandPorts ≠ some [] := by
  intro none
  obtain ⟨port, allowed⟩ := h.exists_allows
  have listed := (mem_expandPorts none port).2 allowed
  contradiction

theorem Normal.ciliumPorts (h : r.Normal) {p : CiliumPortRule} (hp : p ∈ r.ciliumPorts) :
    p.ports ≠ [] ∧ ∀ l7 ∈ p.rules, l7.http ≠ [] := by
  have some := h.expandPorts_ne_nil
  constructor
  · unfold Rule.ciliumPorts at hp
    split at hp
    next expanded => simp_all
    next => simp_all
    next => contradiction
  · rw [rules_of_mem_ciliumPorts hp]
    exact h.l7

end Rule

theorem entries_toEndpointSelector_ne_nil (p : Peer) :
    p.toEndpointSelector.matchLabels.entries ≠ [] := by
  intro none
  have service := label?_toEndpointSelector_service p
  simp [LabelSelector.label?, KeyMap.get?, none] at service

namespace Compilation

variable {c : Compilation} (built : ∀ r ∈ c.intent.rules, r.IsBuilt)
include built

/-- The entry for rules that are there is narrow. -/
theorem isNarrow_entryFor {d : Direction} {service other ns : String}
    (named : (other, ns) ∈ c.counterparts d service) :
    c.IsNarrow d service other ns (c.entryFor other ns (c.rulesWith d service other ns)) := by
  have rules := c.mem_counterparts.1 named
  have normal : ∀ r ∈ c.rulesWith d service other ns, r.Normal := rulesWith_normal built
  refine ⟨⟨.single serviceLabel other, rfl, rfl⟩, ?_, ?_⟩
  · intro ports listed empty
    rw [empty] at listed
    exact unionPorts_ne_nil normal listed
  · intro all
    obtain ⟨r, hr, none⟩ := (unionPorts_eq_none rules).1 all
    obtain ⟨hr, near, far, ns⟩ := c.mem_rulesWith.1 hr
    exact ⟨r, hr, near, far, ns, none⟩

/-- The entries of a service that rules name are narrow, and there is one. -/
theorem isNarrow_entriesWith {d : Direction} {service : String}
    (named : service ∈ c.services d.near) : c.entriesWith d service ≠ [] ∧
      ∀ e ∈ c.entriesWith d service, ∃ other ns, c.IsNarrow d service other ns e := by
  constructor
  · intro none
    exact c.counterparts_eq_nil_iff.1 (List.map_eq_nil_iff.1 none) named
  · intro e he
    obtain ⟨⟨other, ns⟩, hq, rfl⟩ := List.mem_map.1 he
    exact ⟨other, ns, isNarrow_entryFor built hq⟩

theorem isNarrowCilium_ciliumEntry {r : Rule} (hr : r ∈ c.intent.rules) :
    c.IsNarrowCilium r.target (c.ciliumEntry r) := by
  have normal := (built r hr).normal
  have toPorts : (c.ciliumEntry r).toPorts = r.ciliumPorts := by rw [ciliumEntry_eq]
  refine ⟨⟨(c.sourcePeer r).toEndpointSelector, ?_, ?_⟩, ?_, ?_, ?_⟩
  · rw [ciliumEntry_eq]
  · exact entries_toEndpointSelector_ne_nil _
  · rw [toPorts]
    intro p hp
    exact (normal.ciliumPorts hp).1
  · rw [toPorts]
    intro p hp
    exact (normal.ciliumPorts hp).2
  · rw [toPorts, Rule.ciliumPorts_eq_nil]
    intro all
    exact ⟨r, hr, rfl, rfl, all⟩

/-- Policies for rules that were built step by step have an entry, and all their entries but those
for the resolution of names are narrow. -/
theorem entries_are_narrow :
    (∀ p ∈ c.policies.ingress, ∃ target, p.spec.podSelector.SelectsBy serviceLabel target ∧
      p.spec.ingress ≠ [] ∧
      ∀ e ∈ p.spec.ingress, ∃ source ns, c.IsNarrow .ingress target source ns e) ∧
    (∀ p ∈ c.policies.egress, ∃ source, p.spec.podSelector.SelectsBy serviceLabel source ∧
      ∃ entries, p.spec.egress = entries ++ [dnsEntry] ∧ entries ≠ [] ∧
      ∀ e ∈ entries, ∃ target ns, c.IsNarrow .egress source target ns e) ∧
    ∀ p ∈ c.cilium, ∃ target, p.spec.endpointSelector.SelectsBy serviceLabel target ∧
      p.spec.ingress ≠ [] ∧ ∀ e ∈ p.spec.ingress, c.IsNarrowCilium target e := by
  refine ⟨?_, ?_, ?_⟩
  · intro p hp
    rw [policies, ingress_eq] at hp
    obtain ⟨target, named, rfl⟩ := List.mem_map.1 hp
    rw [policyTo_spec]
    exact ⟨target, rfl, isNarrow_entriesWith built (d := .ingress) named⟩
  · intro p hp
    rw [policies, egress_eq] at hp
    obtain ⟨source, named, rfl⟩ := List.mem_map.1 hp
    rw [policyFrom_spec]
    exact ⟨source, rfl, c.entriesFrom source, rfl, isNarrow_entriesWith built (d := .egress) named⟩
  · intro p hp
    rw [cilium_eq] at hp
    obtain ⟨target, named, rfl⟩ := List.mem_map.1 hp
    rw [ciliumTo_entries]
    refine ⟨target, rfl, ?_, ?_⟩
    · intro none
      obtain ⟨r, hr, same⟩ := List.mem_map.1 (List.mem_eraseDups.1 named)
      rw [List.map_eq_nil_iff, List.eq_nil_iff_forall_not_mem] at none
      exact none r (c.mem_rulesAt.2 ⟨hr, same⟩)
    · intro e he
      obtain ⟨r, hr, rfl⟩ := List.mem_map.1 he
      obtain ⟨known, rfl⟩ := c.mem_rulesAt.1 hr
      exact isNarrowCilium_ciliumEntry built known

end Compilation

/-- Rules built with steps that take back what earlier ones said, or say nothing. -/
def revisedRules : Compilation where
  intent := .new "shop" "default" [
    .build "frontend" "api" [.ports [8080], .protocols ["UDP"], .ports [], .protocols []],
    .build "admin" "api" [.l7 ⟨[]⟩, .ports [], .ports [22], .inNamespace "ops", .inNamespace " "],
    .build "admin" "db" [.l7 ⟨[⟨some "GET", none, none, []⟩]⟩, .protocols []]]
  generatedAt := .epoch

theorem entries_are_narrow_revisedRules :
    (∀ r ∈ revisedRules.intent.rules, r.IsBuilt) ∧
      ((revisedRules.policyTo "api").spec.ingress.map fun e => e.ports) =
        [none, some [⟨22, "TCP"⟩]] ∧
      (∀ e ∈ (revisedRules.policyTo "api").spec.ingress, ∃ target source ns,
        revisedRules.IsNarrow .ingress target source ns e) ∧
      ∀ e ∈ (revisedRules.ciliumTo "db").spec.ingress, ∃ target,
        revisedRules.IsNarrowCilium target e := by
  have built : ∀ r ∈ revisedRules.intent.rules, r.IsBuilt := by
    intro r hr
    simp only [revisedRules, Intent.new, List.mem_cons, List.not_mem_nil, or_false] at hr
    rcases hr with rfl | rfl | rfl <;> exact ⟨_, _, _, rfl⟩
  have narrow := Compilation.entries_are_narrow built
  have api : revisedRules.policyTo "api" ∈ revisedRules.policies.ingress := by
    rw [Compilation.policies, Compilation.ingress_eq]
    exact List.mem_map_of_mem (by decide)
  have db : revisedRules.ciliumTo "db" ∈ revisedRules.cilium := by
    rw [Compilation.cilium_eq]
    exact List.mem_map_of_mem (by decide)
  refine ⟨built, ?_, ?_, ?_⟩
  · rw [Compilation.policyTo_spec]
    decide
  · obtain ⟨target, -, -, entries⟩ := narrow.1 _ api
    intro e he
    exact ⟨target, entries e he⟩
  · obtain ⟨target, -, -, entries⟩ := narrow.2.2 _ db
    intro e he
    exact ⟨target, entries e he⟩

end TrafficIntent
