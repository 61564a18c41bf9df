import TrafficIntent.Proofs.Entries
import TrafficIntent.Synthesis.Meaning
import TrafficIntent.Synthesis.PolicySet

namespace TrafficIntent

/-- The end of a rule that a policy in a direction protects. -/
def Direction.near : Direction → Rule → String
  | .ingress => Rule.target
  | .egress => Rule.source

/-- The end of a rule that an entry in a direction names. -/
def Direction.far : Direction → Rule → String
  | .ingress => Rule.source
  | .egress => Rule.target

def Direction.policyName : Direction → String → String
  | .ingress => ingressName
  | .egress => egressName

/-- The kind of policies in a direction. -/
def Direction.family : Direction → String
  | .ingress => "ingress"
  | .egress => "egress"

/-- What a policy in a direction is for, up to the name of its service. -/
def Direction.purpose : Direction → String
  | .ingress => "Allow ingress traffic to "
  | .egress => "Allow egress traffic from "

/-- The label for the service that a policy protects. -/
def Direction.serviceKey : Direction → String
  | .ingress => targetServiceLabel
  | .egress => sourceServiceLabel

/-- The annotation for the services on the other side. -/
def Direction.partnersKey : Direction → String
  | .ingress => allowedSourcesKey
  | .egress => allowedDestinationsKey

/-- The entries that a policy in a direction has whatever the rules say: names are resolved. -/
def Direction.standing : Direction → List PolicyEntry
  | .ingress => []
  | .egress => [dnsEntry]

theorem Direction.standing_peers (d : Direction) : ∀ e ∈ d.standing, e.peers = [] := by
  cases d <;> simp [standing, dnsEntry]

theorem resolve_injective (policyNs : String) :
    Function.Injective fun q : String × String => Peer.resolve q.1 q.2 policyNs := by
  rintro ⟨s, ns⟩ ⟨t, ms⟩ h
  simp only [Peer.resolve, Peer.mk.injEq] at h
  obtain ⟨rfl, h⟩ := h
  by_cases hn : ns = policyNs <;> by_cases hm : ms = policyNs <;> simp_all

theorem resolve_beq (policyNs s ns t ms : String) :
    (Peer.resolve s ns policyNs == Peer.resolve t ms policyNs) = (s == t && ns == ms) := by
  have iff := (resolve_injective policyNs).eq_iff (a := (s, ns)) (b := (t, ms))
  rw [Bool.eq_iff_iff]
  simpa [Prod.ext_iff] using iff

theorem eraseDups_map {α β : Type} [BEq α] [LawfulBEq α] [BEq β] [LawfulBEq β] {f : α → β}
    (hf : Function.Injective f) (xs : List α) : (xs.map f).eraseDups = xs.eraseDups.map f := by
  induction xs using List.reverseRecOn with
  | nil => rfl
  | append_singleton xs x ih =>
    have mem : f x ∈ xs.map f ↔ x ∈ xs := by simp [hf.eq_iff]
    rw [List.map_append, List.map_singleton, eraseDups_concat, eraseDups_concat, ih]
    simp only [mem]
    split <;> simp

namespace Compilation

variable (c : Compilation)

/-- The same intent with other rules, compiled at the same time. -/
def withRules (rules : List Rule) : Compilation :=
  { c with intent := { c.intent with rules := rules } }

/-- The rules that have a service at one end. -/
def rulesAt (ends : Rule → String) (service : String) : List Rule :=
  c.intent.rules.filter fun r => ends r == service

/-- The rules for traffic between two services, the other side being in a namespace. -/
def rulesBetween (source target ns : String) : List Rule :=
  c.intent.rules.filter fun r =>
    r.source == source && r.target == target && r.nsOr c.intent.ns == ns

/-- The services that rules name as one end, each once. -/
def services (ends : Rule → String) : List String := (c.intent.rules.map ends).eraseDups

/-- The rules between a service and another one in a namespace, seen from the first. -/
def rulesWith (d : Direction) (service other ns : String) : List Rule :=
  match d with
  | .ingress => c.rulesBetween other service ns
  | .egress => c.rulesBetween service other ns

/-- The services on the other side of one service, each with its namespace and each once. -/
def counterparts (d : Direction) (service : String) : List (String × String) :=
  ((c.rulesAt d.near service).map fun r => (d.far r, r.nsOr c.intent.ns)).eraseDups

/-- The entry for a service in a namespace, which is named only if it is not the intent's own. -/
def entryFor (service ns : String) (rules : List Rule) : PolicyEntry where
  peers := [{
    podSelector := some (.single serviceLabel service)
    namespaceSelector := if ns = c.intent.ns then none else some (.single namespaceLabel ns) }]
  ports := unionPorts rules

/-- The entries that a service's rules give, one for each service and namespace on the other
side. -/
def entriesWith (d : Direction) (service : String) : List PolicyEntry :=
  (c.counterparts d service).map fun q => c.entryFor q.1 q.2 (c.rulesWith d service q.1 q.2)

def entriesTo (target : String) : List PolicyEntry := c.entriesWith .ingress target

def entriesFrom (source : String) : List PolicyEntry := c.entriesWith .egress source

@[simp] theorem mem_rulesAt {ends : Rule → String} {service : String} {r : Rule} :
    r ∈ c.rulesAt ends service ↔ r ∈ c.intent.rules ∧ ends r = service := by
  simp [rulesAt]

theorem entryFor_eq (service ns : String) (rules : List Rule) :
    c.entryFor service ns rules =
      ⟨[(Peer.resolve service ns c.intent.ns).toPolicyPeer], unionPorts rules⟩ := by
  simp only [entryFor, Peer.toPolicyPeer, Peer.resolve]
  split <;> rfl

/-- The other side of a rule, seen from a policy in a direction. -/
def otherSide (d : Direction) (r : Rule) : Peer :=
  .resolve (d.far r) (r.nsOr c.intent.ns) c.intent.ns

theorem filter_otherSide (d : Direction) (service other ns : String) :
    (c.rulesAt d.near service).filter
        (fun r => c.otherSide d r == .resolve other ns c.intent.ns) =
      c.rulesWith d service other ns := by
  simp only [rulesAt, otherSide, resolve_beq, List.filter_filter]
  cases d with
  | ingress =>
    refine congrArg (List.filter · c.intent.rules) (funext fun r => ?_)
    exact Bool.and_right_comm _ _ _
  | egress =>
    refine congrArg (List.filter · c.intent.rules) (funext fun r => ?_)
    exact (Bool.and_comm _ _).trans (Bool.and_assoc _ _ _).symm

/-- The entries that a group of rules gives, peer by peer. -/
theorem map_peerEntries (d : Direction) (service : String) :
    (peerEntries (c.rulesAt d.near service) (c.otherSide d)).map
      (fun e => (⟨[e.peer.toPolicyPeer], e.ports⟩ : PolicyEntry)) = c.entriesWith d service := by
  have peers : ((c.rulesAt d.near service).map (c.otherSide d)).eraseDups =
      (c.counterparts d service).map fun q => .resolve q.1 q.2 c.intent.ns := by
    rw [counterparts, ← eraseDups_map (resolve_injective c.intent.ns), List.map_map]
    rfl
  rw [entriesWith, peerEntries_eq, peers, List.map_map, List.map_map]
  apply List.map_congr_left
  intro q _
  rw [entryFor_eq, ← filter_otherSide]
  rfl

theorem counterparts_eq_nil_iff {d : Direction} {service : String} :
    c.counterparts d service = [] ↔ service ∉ c.services d.near := by
  rw [counterparts, eraseDups_eq_nil, List.map_eq_nil_iff, List.eq_nil_iff_forall_not_mem]
  simp [services]

/-- The policy of a target, from all rules that name it. -/
def policyTo (target : String) : NetworkPolicy :=
  c.ingressPolicy target (c.rulesAt Rule.target target)

/-- The policy of a source, from all rules that name it. -/
def policyFrom (source : String) : NetworkPolicy :=
  c.egressPolicy source (c.rulesAt Rule.source source)

/-- The policy of a service in a direction. -/
def policyOf (d : Direction) (service : String) : NetworkPolicy :=
  match d with
  | .ingress => c.policyTo service
  | .egress => c.policyFrom service

theorem ingress_eq : c.ingress = (c.services Rule.target).map c.policyTo := by
  simp only [ingress, groupsOf_eq_partition, partition, List.map_map]
  rfl

theorem egress_eq : c.egress = (c.services Rule.source).map c.policyFrom := by
  simp only [egress, groupsOf_eq_partition, partition, List.map_map]
  rfl

theorem manifests_eq : c.policies.manifests =
    c.baseline c.intent.ns :: (c.services Rule.target).map c.policyTo ++
      (c.services Rule.source).map c.policyFrom := by
  rw [policies, PolicySet.manifests, ingress_eq, egress_eq]
  rfl

@[simp] theorem metadata_name (name ns family description : String) :
    (c.metadata name ns family description).name = name := by
  simp only [metadata]
  split <;> rfl

@[simp] theorem metadata_ns (name ns family description : String) :
    (c.metadata name ns family description).ns = ns := by
  simp only [metadata]
  split <;> rfl

@[simp] theorem baseline_name (ns : String) : (c.baseline ns).metadata.name = baselineName := by
  simp [baseline, NetworkPolicy.new]

@[simp] theorem baseline_ns (ns : String) : (c.baseline ns).metadata.ns = ns := by
  simp [baseline, NetworkPolicy.new]

@[simp] theorem policyTo_name (target : String) :
    (c.policyTo target).metadata.name = ingressName target := by
  simp [policyTo, ingressPolicy, NetworkPolicy.new, ObjectMeta.annotate, ObjectMeta.label]

@[simp] theorem policyTo_ns (target : String) :
    (c.policyTo target).metadata.ns = c.intent.ns := by
  simp [policyTo, ingressPolicy, NetworkPolicy.new, ObjectMeta.annotate, ObjectMeta.label]

@[simp] theorem policyFrom_name (source : String) :
    (c.policyFrom source).metadata.name = egressName source := by
  simp [policyFrom, egressPolicy, NetworkPolicy.new, ObjectMeta.annotate, ObjectMeta.label]

@[simp] theorem policyFrom_ns (source : String) :
    (c.policyFrom source).metadata.ns = c.intent.ns := by
  simp [policyFrom, egressPolicy, NetworkPolicy.new, ObjectMeta.annotate, ObjectMeta.label]

@[simp] theorem baseline_spec (ns : String) :
    (c.baseline ns).spec = ⟨.all, [.ingress, .egress], [], []⟩ := rfl

@[simp] theorem policyTo_spec (target : String) : (c.policyTo target).spec =
    ⟨.single serviceLabel target, [.ingress], c.entriesTo target, []⟩ := by
  simp only [policyTo, ingressPolicy, NetworkPolicy.new, entriesTo, PolicySpec.mk.injEq]
  exact ⟨trivial, trivial, c.map_peerEntries .ingress target, trivial⟩

@[simp] theorem policyFrom_spec (source : String) : (c.policyFrom source).spec =
    ⟨.single serviceLabel source, [.egress], [], c.entriesFrom source ++ [dnsEntry]⟩ := by
  simp only [policyFrom, egressPolicy, NetworkPolicy.new, PolicySpec.mk.injEq]
  refine ⟨trivial, trivial, trivial, ?_⟩
  exact congrArg (· ++ [dnsEntry]) (c.map_peerEntries .egress source)

@[simp] theorem policyOf_name (d : Direction) (service : String) :
    (c.policyOf d service).metadata.name = d.policyName service := by
  cases d with
  | ingress => exact c.policyTo_name service
  | egress => exact c.policyFrom_name service

@[simp] theorem policyOf_ns (d : Direction) (service : String) :
    (c.policyOf d service).metadata.ns = c.intent.ns := by
  cases d with
  | ingress => exact c.policyTo_ns service
  | egress => exact c.policyFrom_ns service

@[simp] theorem policyOf_selector (d : Direction) (service : String) :
    (c.policyOf d service).spec.podSelector = .single serviceLabel service := by
  cases d <;> rfl

/-- A policy has the entries that its service's rules give and the standing ones. -/
theorem entries_policyOf (d : Direction) (service : String) :
    (c.policyOf d service).entries d = c.entriesWith d service ++ d.standing := by
  cases d with
  | ingress =>
    show (c.policyTo service).spec.ingress = c.entriesTo service ++ []
    rw [policyTo_spec, List.append_nil]
  | egress =>
    show (c.policyFrom service).spec.egress = c.entriesFrom service ++ [dnsEntry]
    rw [policyFrom_spec]

/-- In the other direction it has none. -/
theorem entries_policyOf_other {d e : Direction} (other : d ≠ e) (service : String) :
    (c.policyOf d service).entries e = [] := by
  cases d <;> cases e
  case ingress.egress => exact congrArg PolicySpec.egress (c.policyTo_spec service)
  case egress.ingress => exact congrArg PolicySpec.ingress (c.policyFrom_spec service)
  all_goals contradiction

/-- All entries of a policy, whatever its direction. -/
theorem ingress_append_egress (d : Direction) (service : String) :
    (c.policyOf d service).spec.ingress ++ (c.policyOf d service).spec.egress =
      c.entriesWith d service ++ d.standing := by
  cases d with
  | ingress =>
    show (c.policyTo service).spec.ingress ++ (c.policyTo service).spec.egress = _
    rw [policyTo_spec]
    rfl
  | egress =>
    show (c.policyFrom service).spec.ingress ++ (c.policyFrom service).spec.egress = _
    rw [policyFrom_spec]
    rfl

/-- The whole set, in order: names, namespaces and what the policies say. -/
theorem manifests_spelled_out :
    c.policies.manifests.map (fun p => (p.metadata.name, p.metadata.ns, p.spec)) =
      (baselineName, c.intent.ns, ⟨.all, [.ingress, .egress], [], []⟩) ::
        ((c.services Rule.target).map fun target =>
          (ingressName target, c.intent.ns,
            ⟨.single serviceLabel target, [.ingress], c.entriesTo target, []⟩)) ++
        (c.services Rule.source).map fun source =>
          (egressName source, c.intent.ns,
            ⟨.single serviceLabel source, [.egress], [],
              c.entriesFrom source ++ [⟨[], some [⟨53, "UDP"⟩, ⟨53, "TCP"⟩]⟩]⟩) := by
  simp [manifests_eq, Function.comp_def, dnsEntry, dnsPort]

end Compilation

end TrafficIntent
