import TrafficIntent.Proofs.Shape

namespace TrafficIntent

theorem ingressName_injective : Function.Injective ingressName := by
  intro a b h
  have texts : "allow-ingress-to-" ++ a = "allow-ingress-to-" ++ b := h
  exact (String.append_right_inj _).1 texts

theorem egressName_injective : Function.Injective egressName := by
  intro a b h
  have texts : "allow-egress-from-" ++ a = "allow-egress-from-" ++ b := h
  exact (String.append_right_inj _).1 texts

/-- Texts go apart where their beginnings do. -/
theorem append_ne_append {p q : String} (ahead : ¬p.toList <+: q.toList)
    (behind : ¬q.toList <+: p.toList) (a b : String) : p ++ a ≠ q ++ b := by
  intro same
  have chars : p.toList ++ a.toList = q.toList ++ b.toList := by
    rw [← String.toList_append, ← String.toList_append, same]
  have first : p.toList <+: q.toList ++ b.toList := chars ▸ List.prefix_append _ _
  exact (List.prefix_or_prefix_of_prefix first (List.prefix_append _ _)).elim ahead behind

theorem ingressName_ne_egressName (a b : String) : ingressName a ≠ egressName b :=
  append_ne_append (by decide) (by decide) a b

theorem Direction.policyName_inj {d e : Direction} {a b : String} :
    d.policyName a = e.policyName b ↔ d = e ∧ a = b := by
  constructor
  · intro h
    cases d <;> cases e
    case ingress.ingress => exact ⟨rfl, ingressName_injective h⟩
    case ingress.egress => exact absurd h (ingressName_ne_egressName a b)
    case egress.ingress => exact absurd h.symm (ingressName_ne_egressName b a)
    case egress.egress => exact ⟨rfl, egressName_injective h⟩
  · rintro ⟨rfl, rfl⟩
    rfl

theorem Direction.policyName_ne_baselineName (d : Direction) (a : String) :
    d.policyName a ≠ baselineName := by
  cases d <;> exact append_ne_append (q := baselineName) (by decide) (by decide) a ""

theorem LabelSelector.single_inj {key a b : String} : single key a = single key b ↔ a = b := by
  constructor
  · intro h
    have entries := congrArg (fun s => s.matchLabels.entries) h
    simpa [single, KeyMap.singleton, KeyMap.insert, KeyMap.empty, putEntry] using entries
  · rintro rfl
    rfl

theorem toPolicyPeer_injective : Function.Injective Peer.toPolicyPeer := by
  rintro ⟨s, ns⟩ ⟨t, ms⟩ h
  simp only [Peer.toPolicyPeer, PolicyPeer.mk.injEq, Option.some.injEq,
    LabelSelector.single_inj] at h
  obtain ⟨rfl, h⟩ := h
  cases ns <;> cases ms <;> simp_all [LabelSelector.single_inj]

/-- The peer that an entry names for a service in a namespace. -/
def Compilation.peer (c : Compilation) (service ns : String) : PolicyPeer :=
  (Peer.resolve service ns c.intent.ns).toPolicyPeer

namespace Compilation

variable (c : Compilation)

theorem peer_inj {s t ns ms : String} : c.peer s ns = c.peer t ms ↔ s = t ∧ ns = ms := by
  have inj := toPolicyPeer_injective.comp (resolve_injective c.intent.ns)
  simpa [peer, Prod.ext_iff] using inj.eq_iff (a := (s, ns)) (b := (t, ms))

theorem peer_mem_entryFor {s t ns ms : String} {rules : List Rule} :
    c.peer s ns ∈ (c.entryFor t ms rules).peers ↔ s = t ∧ ns = ms := by
  rw [entryFor_eq, List.mem_singleton]
  exact c.peer_inj

variable {d : Direction} {service other ns : String}

theorem mem_rulesBetween {source target ns : String} {r : Rule} :
    r ∈ c.rulesBetween source target ns ↔
      r ∈ c.intent.rules ∧ r.source = source ∧ r.target = target ∧ r.nsOr c.intent.ns = ns := by
  simp [rulesBetween, and_assoc]

theorem mem_rulesWith {r : Rule} : r ∈ c.rulesWith d service other ns ↔
    r ∈ c.intent.rules ∧ d.near r = service ∧ d.far r = other ∧ r.nsOr c.intent.ns = ns := by
  cases d with
  | ingress => exact c.mem_rulesBetween.trans (and_congr_right fun _ => and_left_comm)
  | egress => exact c.mem_rulesBetween

/-- The other side of a service's rules is whatever some rule has there. -/
theorem mem_counterparts :
    (other, ns) ∈ c.counterparts d service ↔ c.rulesWith d service other ns ≠ [] := by
  rw [← List.length_pos_iff, List.length_pos_iff_exists_mem, counterparts, List.mem_eraseDups]
  simp [mem_rulesWith, and_assoc]

theorem mem_services_near (h : c.rulesWith d service other ns ≠ []) :
    service ∈ c.services d.near := by
  obtain ⟨r, hr⟩ := List.exists_mem_of_ne_nil _ h
  obtain ⟨hr, near, -⟩ := c.mem_rulesWith.1 hr
  exact List.mem_eraseDups.2 (List.mem_map.2 ⟨r, hr, near⟩)

/-- The entry that a service has for another one, if there is a rule between them. -/
theorem mem_entriesWith {e : PolicyEntry} :
    e ∈ c.entriesWith d service ∧ c.peer other ns ∈ e.peers ↔
      c.rulesWith d service other ns ≠ [] ∧
        e = c.entryFor other ns (c.rulesWith d service other ns) := by
  rw [entriesWith, List.mem_map]
  constructor
  · rintro ⟨⟨⟨s, ms⟩, hq, rfl⟩, hp⟩
    obtain ⟨rfl, rfl⟩ := c.peer_mem_entryFor.1 hp
    exact ⟨c.mem_counterparts.1 hq, rfl⟩
  · rintro ⟨some, rfl⟩
    exact ⟨⟨(other, ns), c.mem_counterparts.2 some, rfl⟩, c.peer_mem_entryFor.2 ⟨rfl, rfl⟩⟩

theorem mem_manifests {p : NetworkPolicy} : p ∈ c.policies.manifests ↔
    p = c.baseline c.intent.ns ∨ ∃ d, ∃ service ∈ c.services d.near, c.policyOf d service = p := by
  rw [manifests_eq, List.cons_append, List.mem_cons, List.mem_append, List.mem_map, List.mem_map]
  refine or_congr_right ⟨?_, ?_⟩
  · rintro (target | source)
    · exact ⟨.ingress, target⟩
    · exact ⟨.egress, source⟩
  · rintro ⟨d, there⟩
    cases d with
    | ingress => exact .inl there
    | egress => exact .inr there

theorem policyOf_mem_manifests (h : service ∈ c.services d.near) :
    c.policyOf d service ∈ c.policies.manifests :=
  c.mem_manifests.2 (.inr ⟨d, service, h, rfl⟩)

/-- The policy with the name that goes with a service, if there is one, is that of the service. -/
theorem eq_policyOf {p : NetworkPolicy} (hp : p ∈ c.policies.manifests)
    (hn : p.metadata.name = d.policyName service) : p = c.policyOf d service := by
  rcases c.mem_manifests.1 hp with rfl | ⟨e, s, -, rfl⟩
  · rw [baseline_name] at hn
    exact absurd hn.symm (d.policyName_ne_baselineName service)
  · rw [policyOf_name] at hn
    obtain ⟨rfl, rfl⟩ := Direction.policyName_inj.1 hn
    rfl

theorem peers_of_mem_standing {e : PolicyEntry} (h : e ∈ d.standing) : e.peers = [] := by
  cases d with
  | ingress => contradiction
  | egress => rw [List.mem_singleton.1 h, dnsEntry]

/-- An entry of a service's policy for another one is the one that all their rules give. -/
theorem entry_iff {e : PolicyEntry} :
    (∃ p ∈ c.policies.manifests, p.metadata.name = d.policyName service ∧ e ∈ p.entries d ∧
        c.peer other ns ∈ e.peers) ↔
      c.rulesWith d service other ns ≠ [] ∧
        e = c.entryFor other ns (c.rulesWith d service other ns) := by
  constructor
  · rintro ⟨p, hp, hn, he, hpeer⟩
    rw [c.eq_policyOf hp hn, entries_policyOf, List.mem_append] at he
    refine he.elim (fun own => c.mem_entriesWith.1 ⟨own, hpeer⟩) fun standing => ?_
    rw [peers_of_mem_standing standing] at hpeer
    contradiction
  · intro h
    obtain ⟨he, hpeer⟩ := c.mem_entriesWith.2 h
    have there := c.policyOf_mem_manifests (c.mem_services_near h.1)
    refine ⟨_, there, c.policyOf_name d service, ?_, hpeer⟩
    rw [entries_policyOf]
    exact List.mem_append_left _ he

/-- A target's policy admits a service in a namespace exactly if the service's policy admits the
target there, and both list the same ports in the same order. -/
theorem ends_agree (source target ns : String) :
    ((∃ p ∈ c.policies.manifests, p.metadata.name = ingressName target ∧
        ∃ e ∈ p.spec.ingress, c.peer source ns ∈ e.peers) ↔
      ∃ p ∈ c.policies.manifests, p.metadata.name = egressName source ∧
        ∃ e ∈ p.spec.egress, c.peer target ns ∈ e.peers) ∧
    ∀ p ∈ c.policies.manifests, ∀ q ∈ c.policies.manifests,
      p.metadata.name = ingressName target → q.metadata.name = egressName source →
      ∀ e ∈ p.spec.ingress, ∀ f ∈ q.spec.egress,
        c.peer source ns ∈ e.peers → c.peer target ns ∈ f.peers → e.ports = f.ports := by
  have incoming {e : PolicyEntry} :
      (∃ p ∈ c.policies.manifests, p.metadata.name = ingressName target ∧ e ∈ p.spec.ingress ∧
        c.peer source ns ∈ e.peers) ↔ _ := c.entry_iff (d := .ingress)
  have outgoing {e : PolicyEntry} :
      (∃ p ∈ c.policies.manifests, p.metadata.name = egressName source ∧ e ∈ p.spec.egress ∧
        c.peer target ns ∈ e.peers) ↔ _ := c.entry_iff (d := .egress)
  refine ⟨⟨?_, ?_⟩, ?_⟩
  · rintro ⟨p, hp, hn, e, he, hpeer⟩
    have rules := (incoming.1 ⟨p, hp, hn, he, hpeer⟩).1
    obtain ⟨q, hq, hm, hf, hpeer⟩ := outgoing.2 ⟨rules, rfl⟩
    exact ⟨q, hq, hm, _, hf, hpeer⟩
  · rintro ⟨q, hq, hm, f, hf, hpeer⟩
    have rules := (outgoing.1 ⟨q, hq, hm, hf, hpeer⟩).1
    obtain ⟨p, hp, hn, he, hpeer⟩ := incoming.2 ⟨rules, rfl⟩
    exact ⟨p, hp, hn, _, he, hpeer⟩
  · intro p hp q hq hn hm e he f hf hpe hpf
    rw [(incoming.1 ⟨p, hp, hn, he, hpe⟩).2, (outgoing.1 ⟨q, hq, hm, hf, hpf⟩).2]
    rfl

end Compilation

/-- Two rules for one pair of services, with a rule for another pair between them. -/
def mixedRules : Compilation where
  intent := .new "shop" "default" [
    .build "frontend" "api" [.inNamespace "web", .ports [8080]],
    .build "admin" "api" [.ports [22]],
    .build "frontend" "api" [.ports [9090, 8080], .inNamespace "web"]]
  generatedAt := .epoch

theorem ends_agree_mixedRules :
    let e := mixedRules.entryFor "frontend" "web" (mixedRules.rulesBetween "frontend" "api" "web")
    let f := mixedRules.entryFor "api" "web" (mixedRules.rulesBetween "frontend" "api" "web")
    mixedRules.policyTo "api" ∈ mixedRules.policies.manifests ∧
      mixedRules.policyFrom "frontend" ∈ mixedRules.policies.manifests ∧
      e ∈ (mixedRules.policyTo "api").spec.ingress ∧
      f ∈ (mixedRules.policyFrom "frontend").spec.egress ∧
      mixedRules.peer "frontend" "web" ∈ e.peers ∧ mixedRules.peer "api" "web" ∈ f.peers ∧
      e.ports = f.ports ∧ e.ports = some [⟨8080, "TCP"⟩, ⟨9090, "TCP"⟩] := by
  intro e f
  have hp : mixedRules.policyTo "api" ∈ mixedRules.policies.manifests :=
    mixedRules.policyOf_mem_manifests (d := .ingress) (by decide)
  have hq : mixedRules.policyFrom "frontend" ∈ mixedRules.policies.manifests :=
    mixedRules.policyOf_mem_manifests (d := .egress) (by decide)
  have he : e ∈ (mixedRules.policyTo "api").spec.ingress := by
    rw [Compilation.policyTo_spec]
    decide
  have hf : f ∈ (mixedRules.policyFrom "frontend").spec.egress := by
    rw [Compilation.policyFrom_spec]
    decide
  have hpe : mixedRules.peer "frontend" "web" ∈ e.peers := by decide
  have hpf : mixedRules.peer "api" "web" ∈ f.peers := by decide
  refine ⟨hp, hq, he, hf, hpe, hpf, ?_, by decide⟩
  exact (mixedRules.ends_agree "frontend" "api" "web").2 _ hp _ hq (mixedRules.policyTo_name "api")
    (mixedRules.policyFrom_name "frontend") _ he _ hf hpe hpf

end TrafficIntent
