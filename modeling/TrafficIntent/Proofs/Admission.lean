import TrafficIntent.Proofs.Agreement
import TrafficIntent.Synthesis.Meaning

namespace TrafficIntent

/-- Whether some rule is for traffic between two services with one of them in a namespace. -/
def Intent.Declares (i : Intent) (source target ns : String) (port : PolicyPort) : Prop :=
  ∃ r ∈ i.rules, r.source = source ∧ r.target = target ∧ r.nsOr i.ns = ns ∧ r.Allows port

theorem selects_single (key value : String) (labels : Labels) :
    (LabelSelector.single key value).selects labels ↔ labels.get? key = some value := by
  simp [LabelSelector.selects, LabelSelector.single, KeyMap.singleton, KeyMap.insert, KeyMap.empty,
    putEntry]

theorem selects_all (labels : Labels) : LabelSelector.all.selects labels := by
  simp [LabelSelector.selects, LabelSelector.all, KeyMap.empty]

theorem namespaceLabels_name (ns : String) : (namespaceLabels ns).get? namespaceLabel = some ns := by
  simp [namespaceLabels, KeyMap.singleton, KeyMap.get?_insert]

namespace Compilation

variable (c : Compilation)

theorem peer_selects (service ns : String) (pod : Pod) :
    (c.peer service ns).selects c.intent.ns pod ↔ pod.service? = some service ∧ pod.ns = ns := by
  unfold peer Peer.resolve Peer.toPolicyPeer PolicyPeer.selects
  by_cases h : ns = c.intent.ns
  · simp [h, selects_single, Pod.service?, and_comm]
  · simp [h, selects_single, namespaceLabels_name, Pod.service?, and_comm]

theorem entryFor_admitsPod (service ns : String) (rules : List Rule) (pod : Pod) :
    (c.entryFor service ns rules).admitsPod c.intent.ns pod ↔
      pod.service? = some service ∧ pod.ns = ns := by
  rw [entryFor_eq, ← c.peer_selects service ns pod]
  simp [PolicyEntry.admitsPod, peer]

/-- An entry for rules that are there and normal admits the ports of each of them. -/
theorem entryFor_admitsPort (service ns : String) {rules : List Rule} (ne : rules ≠ [])
    (normal : ∀ r ∈ rules, r.Normal) (port : PolicyPort) :
    (c.entryFor service ns rules).admitsPort port ↔ ∃ r ∈ rules, r.Allows port := by
  rw [← mem_unionPorts_or_all ne, entryFor_eq, PolicyEntry.admitsPort]
  dsimp only
  cases h : unionPorts rules with
  | none => simp
  | some ports =>
    have some : ports ≠ [] := by
      rintro rfl
      exact unionPorts_ne_nil normal h
    simp [some]

theorem dnsEntry_admits (pod : Pod) (port : PolicyPort) :
    (dnsEntry.admitsPod c.intent.ns pod ∧ dnsEntry.admitsPort port) ↔
      port = ⟨53, "UDP"⟩ ∨ port = ⟨53, "TCP"⟩ := by
  simp [dnsEntry, dnsPort, PolicyEntry.admitsPod, PolicyEntry.admitsPort]

theorem exists_allows_iff {source target ns : String} {port : PolicyPort} :
    (∃ r ∈ c.rulesBetween source target ns, r.Allows port) ↔
      c.intent.Declares source target ns port := by
  simp [Intent.Declares, mem_rulesBetween, and_assoc]

variable {c}

theorem rulesWith_normal (built : ∀ r ∈ c.intent.rules, r.IsBuilt) {d : Direction}
    {service other ns : String} : ∀ r ∈ c.rulesWith d service other ns, r.Normal := by
  intro r hr
  exact (built r (c.mem_rulesWith.1 hr).1).normal

/-- The entries for the other side of a service's rules admit what some rule allows. -/
theorem exists_entriesWith_iff (built : ∀ r ∈ c.intent.rules, r.IsBuilt) (d : Direction)
    (service : String) (pod : Pod) (port : PolicyPort) :
    (∃ e ∈ c.entriesWith d service, e.admitsPod c.intent.ns pod ∧ e.admitsPort port) ↔
      ∃ other, pod.service? = some other ∧
        ∃ r ∈ c.rulesWith d service other pod.ns, r.Allows port := by
  simp only [entriesWith, List.mem_map]
  constructor
  · rintro ⟨_, ⟨⟨other, ns⟩, hq, rfl⟩, hpod, hport⟩
    have some := c.mem_counterparts.1 hq
    obtain ⟨ho, rfl⟩ := (c.entryFor_admitsPod _ _ _ _).1 hpod
    exact ⟨other, ho, (c.entryFor_admitsPort _ _ some (rulesWith_normal built) port).1 hport⟩
  · rintro ⟨other, ho, allowed⟩
    obtain ⟨r, hr, _⟩ := id allowed
    have some := List.ne_nil_of_mem hr
    refine ⟨_, ⟨(other, pod.ns), c.mem_counterparts.2 some, rfl⟩, ?_, ?_⟩
    · exact (c.entryFor_admitsPod _ _ _ _).2 ⟨ho, rfl⟩
    · exact (c.entryFor_admitsPort _ _ some (rulesWith_normal built) port).2 allowed

variable (c)

theorem baseline_governs (pod : Pod) :
    (c.baseline c.intent.ns).governs pod ↔ pod.ns = c.intent.ns := by
  simp [NetworkPolicy.governs, selects_all]

theorem policyOf_governs (d : Direction) (service : String) (pod : Pod) :
    (c.policyOf d service).governs pod ↔ pod.ns = c.intent.ns ∧ pod.service? = some service := by
  simp [NetworkPolicy.governs, selects_single, Pod.service?]

theorem ns_of_governs {p : NetworkPolicy} (hp : p ∈ c.policies.manifests) {pod : Pod}
    (h : p.governs pod) : pod.ns = c.intent.ns := by
  rcases c.mem_manifests.1 hp with rfl | ⟨d, service, _, rfl⟩
  · exact (c.baseline_governs pod).1 h
  · exact ((c.policyOf_governs d service pod).1 h).1

/-- The baseline isolates the pods of the intent's namespace, and nothing isolates any other. -/
theorem isIsolated_iff (d : Direction) (pod : Pod) :
    isIsolated c.policies.manifests d pod ↔ pod.ns = c.intent.ns := by
  simp only [isIsolated, List.any_eq_true, Bool.and_eq_true]
  constructor
  · rintro ⟨p, hp, governs, -⟩
    exact c.ns_of_governs hp governs
  · intro h
    refine ⟨_, c.mem_manifests.2 (.inl rfl), (c.baseline_governs pod).2 h, ?_⟩
    cases d <;> rfl

variable {c}

/-- A pod of the intent's namespace has what its own service's entries in the direction admit. -/
theorem admitsEnd_iff (built : ∀ r ∈ c.intent.rules, r.IsBuilt) (d : Direction) (pod peer : Pod)
    (port : PolicyPort) :
    admitsEnd c.policies.manifests d pod peer port ↔
      (pod.ns = c.intent.ns → ∃ service, pod.service? = some service ∧
        ((∃ other, peer.service? = some other ∧
            ∃ r ∈ c.rulesWith d service other peer.ns, r.Allows port) ∨
          service ∈ c.services d.near ∧
            ∃ e ∈ d.standing, e.admitsPod c.intent.ns peer ∧ e.admitsPort port)) := by
  rw [admitsEnd, Bool.or_eq_true, Bool.not_eq_true', ← Bool.not_eq_true, isIsolated_iff,
    ← imp_iff_not_or]
  refine imp_congr_right fun h => ?_
  simp only [List.any_eq_true, Bool.and_eq_true]
  constructor
  · rintro ⟨p, hp, governs, e, he, admits⟩
    rcases c.mem_manifests.1 hp with rfl | ⟨d', service, named, rfl⟩
    · cases d <;> contradiction
    · rw [policyOf_ns] at admits
      refine ⟨service, ((c.policyOf_governs d' service pod).1 governs).2, ?_⟩
      by_cases same : d' = d
      · subst same
        rw [entries_policyOf, List.mem_append] at he
        refine he.imp (fun own => ?_) fun standing => ⟨named, e, standing, admits⟩
        exact (exists_entriesWith_iff built d' service peer port).1 ⟨e, own, admits⟩
      · rw [entries_policyOf_other c same] at he
        contradiction
  · rintro ⟨service, hs, allowed | ⟨named, e, standing, admits⟩⟩
    · obtain ⟨e, own, admits⟩ := (exists_entriesWith_iff built d service peer port).2 allowed
      obtain ⟨other, _, r, hr, _⟩ := allowed
      have named := c.mem_services_near (List.ne_nil_of_mem hr)
      refine ⟨c.policyOf d service, c.policyOf_mem_manifests named,
        (c.policyOf_governs d service pod).2 ⟨h, hs⟩, e, ?_, by rwa [policyOf_ns]⟩
      rw [entries_policyOf]
      exact List.mem_append_left _ own
    · refine ⟨c.policyOf d service, c.policyOf_mem_manifests named,
        (c.policyOf_governs d service pod).2 ⟨h, hs⟩, e, ?_, by rwa [policyOf_ns]⟩
      rw [entries_policyOf]
      exact List.mem_append_right _ standing

/-- A connection passes exactly if each of its ends that is in the intent's namespace finds a rule
for it, or the source is named by a rule and resolves names. -/
theorem admits_manifests_iff (built : ∀ r ∈ c.intent.rules, r.IsBuilt) (source target : Pod)
    (port : PolicyPort) :
    admits c.policies.manifests source target port ↔
      (source.ns = c.intent.ns → ∃ s, source.service? = some s ∧
        ((∃ t, target.service? = some t ∧ c.intent.Declares s t target.ns port) ∨
          (∃ r ∈ c.intent.rules, r.source = s) ∧
            (port = ⟨53, "UDP"⟩ ∨ port = ⟨53, "TCP"⟩))) ∧
      (target.ns = c.intent.ns → ∃ s t, source.service? = some s ∧ target.service? = some t ∧
        c.intent.Declares s t source.ns port) := by
  have declared (s t ns : String) : (∃ r ∈ c.rulesWith .egress s t ns, r.Allows port) ↔
      c.intent.Declares s t ns port := c.exists_allows_iff
  have declared' (s t ns : String) : (∃ r ∈ c.rulesWith .ingress t s ns, r.Allows port) ↔
      c.intent.Declares s t ns port := c.exists_allows_iff
  have named (s : String) :
      s ∈ c.services Direction.egress.near ↔ ∃ r ∈ c.intent.rules, r.source = s := by
    simp [services, Direction.near]
  have names : (∃ e ∈ Direction.egress.standing, e.admitsPod c.intent.ns target ∧
      e.admitsPort port) ↔ port = ⟨53, "UDP"⟩ ∨ port = ⟨53, "TCP"⟩ := by
    simpa [Direction.standing] using c.dnsEntry_admits target port
  have none : ¬∃ e ∈ Direction.ingress.standing, e.admitsPod c.intent.ns source ∧
      e.admitsPort port := by
    simp [Direction.standing]
  rw [admits, Bool.and_eq_true, admitsEnd_iff built, admitsEnd_iff built]
  simp only [declared, declared', named, names, none, and_false, or_false]
  refine and_congr_right fun _ => imp_congr_right fun _ => ?_
  constructor
  · rintro ⟨t, ht, s, hs, declares⟩
    exact ⟨s, t, hs, ht, declares⟩
  · rintro ⟨s, t, hs, ht, declares⟩
    exact ⟨t, ht, s, hs, declares⟩

end Compilation

theorem admits_manifests_mixedRules :
    let admitted := admits mixedRules.policies.manifests ⟨"web", .singleton "app" "frontend"⟩
      ⟨"default", .singleton "app" "api"⟩
    (∀ r ∈ mixedRules.intent.rules, r.IsBuilt) ∧
      admitted ⟨9090, "TCP"⟩ = true ∧ admitted ⟨22, "TCP"⟩ = false := by
  have built : ∀ r ∈ mixedRules.intent.rules, r.IsBuilt := by
    intro r hr
    simp only [mixedRules, Intent.new, List.mem_cons, List.not_mem_nil, or_false] at hr
    rcases hr with rfl | rfl | rfl <;> exact ⟨_, _, _, rfl⟩
  refine ⟨built, ?_, ?_⟩
  · refine (mixedRules.admits_manifests_iff built _ _ _).2 ⟨?_, ?_⟩
    · intro outside
      exact absurd outside (by decide)
    · intro _
      refine ⟨"frontend", "api", by decide, by decide, ?_⟩
      exact ⟨.build "frontend" "api" [.ports [9090, 8080], .inNamespace "web"], by decide, rfl, rfl,
        rfl, by simp [Rule.build, Rule.step, Rule.new, Rule.withPorts, Rule.inNamespace,
          Rule.Allows, defaultProtocol]⟩
  · rw [Bool.eq_false_iff]
    intro admitted
    obtain ⟨-, inside⟩ := (mixedRules.admits_manifests_iff built _ _ _).1 admitted
    obtain ⟨s, t, hs, ht, r, hr, rfl, rfl, hn, allows⟩ := inside (by decide)
    simp only [mixedRules, Intent.new, List.mem_cons, List.not_mem_nil, or_false] at hr
    rcases hr with rfl | rfl | rfl
    · exact absurd allows.1 (by decide)
    · exact absurd hn (by decide)
    · exact absurd allows.1 (by decide)

end TrafficIntent
