import TrafficIntent.Proofs.CiliumAdmission

namespace TrafficIntent

namespace Compilation

variable (c : Compilation)

/-- Policies see rules only through the services on each side and the entries for each service. -/
theorem policies_withRules {rules : List Rule}
    (services : ∀ d : Direction, (c.withRules rules).services d.near = c.services d.near)
    (entries : ∀ (d : Direction) (service : String),
      peerEntries ((c.withRules rules).rulesAt d.near service) (c.otherSide d) =
        peerEntries (c.rulesAt d.near service) (c.otherSide d)) :
    (c.withRules rules).policies = c.policies := by
  have ingress : (c.withRules rules).ingress = c.ingress := by
    have targets : (c.withRules rules).services Rule.target = _ := services .ingress
    rw [ingress_eq, ingress_eq, targets]
    refine List.map_congr_left fun target _ => ?_
    have same : peerEntries ((c.withRules rules).rulesAt Rule.target target) c.sourcePeer =
      peerEntries (c.rulesAt Rule.target target) c.sourcePeer := entries .ingress target
    show c.ingressPolicy target ((c.withRules rules).rulesAt Rule.target target) =
      c.ingressPolicy target (c.rulesAt Rule.target target)
    rw [ingressPolicy, same]
    rfl
  have egress : (c.withRules rules).egress = c.egress := by
    have sources : (c.withRules rules).services Rule.source = _ := services .egress
    rw [egress_eq, egress_eq, sources]
    refine List.map_congr_left fun source _ => ?_
    have same : peerEntries ((c.withRules rules).rulesAt Rule.source source) c.targetPeer =
      peerEntries (c.rulesAt Rule.source source) c.targetPeer := entries .egress source
    show c.egressPolicy source ((c.withRules rules).rulesAt Rule.source source) =
      c.egressPolicy source (c.rulesAt Rule.source source)
    rw [egressPolicy, same]
    rfl
  rw [policies, ingress, egress]
  rfl

/-- Whether the rules for the two services of a rule, the other side being in the same namespace, ask
for all ports or for all those that the rule asks for. -/
def Redundant (r : Rule) : Prop :=
  let given := c.rulesBetween r.source r.target (r.nsOr c.intent.ns)
  given ≠ [] ∧ ((∃ s ∈ given, s.ports = none) ∨
    r.ports ≠ none ∧ ∀ p ∈ r.expandPorts.getD [], ∃ s ∈ given, p ∈ s.expandPorts.getD [])

instance (r : Rule) : Decidable (c.Redundant r) := inferInstanceAs (Decidable (_ ∧ _))

variable {c} {r : Rule}

theorem redundant_of_mem (h : r ∈ c.intent.rules) : c.Redundant r := by
  have given : r ∈ c.rulesBetween r.source r.target (r.nsOr c.intent.ns) := by
    simp [rulesBetween, h]
  refine ⟨List.ne_nil_of_mem given, ?_⟩
  by_cases all : r.ports = none
  · exact .inl ⟨r, given, all⟩
  · exact .inr ⟨all, fun p hp => ⟨r, given, hp⟩⟩

theorem Redundant.ports_concat (h : c.Redundant r) :
    unionPorts (c.rulesBetween r.source r.target (r.nsOr c.intent.ns) ++ [r]) =
      unionPorts (c.rulesBetween r.source r.target (r.nsOr c.intent.ns)) := by
  obtain ⟨ne, asked⟩ := h
  rw [unionPorts_concat ne]
  cases hu : unionPorts (c.rulesBetween r.source r.target (r.nsOr c.intent.ns)) with
  | none => rfl
  | some ports =>
    rcases asked with all | ⟨listed, covered⟩
    · rw [(unionPorts_eq_none ne).2 all] at hu
      contradiction
    · -- The union has all ports of the group already, whichever rule they come from.
      obtain ⟨asked, ha⟩ := Option.ne_none_iff_exists'.1 fun none =>
        listed (Rule.expandPorts_eq_none.1 none)
      have there : ∀ p ∈ asked, p ∈ ports := by
        intro p hp
        obtain ⟨s, hs, member⟩ := covered p (by simpa [ha] using hp)
        exact (mem_unionPorts hu p).2 ⟨s, hs, Rule.allows_of_mem member⟩
      rw [ha]
      show some (addNew ports asked) = some ports
      rw [addNew_of_subset there]

theorem rulesAt_concat (ends : Rule → String) (service : String) :
    (c.withRules (c.intent.rules ++ [r])).rulesAt ends service =
      c.rulesAt ends service ++ if ends r = service then [r] else [] := by
  by_cases own : ends r = service <;> simp [rulesAt, withRules, own]

theorem filter_otherSide_self (d : Direction) :
    (c.rulesAt d.near (d.near r)).filter (fun s => c.otherSide d s == c.otherSide d r) =
      c.rulesBetween r.source r.target (r.nsOr c.intent.ns) := by
  rw [otherSide, filter_otherSide]
  cases d <;> rfl

theorem Redundant.entries_concat (h : c.Redundant r) (d : Direction) (service : String) :
    peerEntries ((c.withRules (c.intent.rules ++ [r])).rulesAt d.near service) (c.otherSide d) =
      peerEntries (c.rulesAt d.near service) (c.otherSide d) := by
  rw [rulesAt_concat]
  split
  next own =>
    subst own
    have given : (c.rulesAt d.near (d.near r)).filter
        (fun s => c.otherSide d s == c.otherSide d r) ≠ [] := by
      rw [filter_otherSide_self]
      exact h.1
    obtain ⟨s, hs⟩ := List.exists_mem_of_ne_nil _ given
    obtain ⟨hs, same⟩ := List.mem_filter.1 hs
    refine peerEntries_concat (List.mem_map.2 ⟨s, hs, by simpa using same⟩) ?_
    rw [filter_otherSide_self, h.ports_concat]
  next => rw [List.append_nil]

theorem Redundant.services_concat (h : c.Redundant r) (d : Direction) :
    (c.withRules (c.intent.rules ++ [r])).services d.near = c.services d.near := by
  have known : d.near r ∈ c.services d.near := by
    cases d with
    | ingress => exact c.mem_services_near (d := .ingress) h.1
    | egress => exact c.mem_services_near (d := .egress) h.1
  show ((c.intent.rules ++ [r]).map d.near).eraseDups = _
  rw [List.map_append, List.map_singleton, eraseDups_concat, if_pos (List.mem_eraseDups.1 known)]
  rfl

theorem Redundant.policies_concat (h : c.Redundant r) :
    (c.withRules (c.intent.rules ++ [r])).policies = c.policies :=
  c.policies_withRules h.services_concat h.entries_concat

variable (c)

/-- A redundant rule at the end makes no difference to the policies, nor do any rules that are there
already. -/
theorem redundant_rules_change_nothing :
    (∀ r, c.Redundant r → (c.withRules (c.intent.rules ++ [r])).policies = c.policies) ∧
      ∀ rs, rs ⊆ c.intent.rules → (c.withRules (c.intent.rules ++ rs)).policies = c.policies := by
  refine ⟨fun r h => h.policies_concat, fun rs known => ?_⟩
  -- The rules are added one by one, each to rules among which it already is.
  induction rs using List.reverseRecOn with
  | nil =>
    rw [List.append_nil]
    rfl
  | append_singleton rs r ih =>
    have earlier := ih fun s hs => known (List.mem_append_left _ hs)
    have there : r ∈ (c.withRules (c.intent.rules ++ rs)).intent.rules :=
      List.mem_append_left _ (known (by simp))
    rw [← earlier, ← List.append_assoc]
    exact (redundant_of_mem there).policies_concat

end Compilation

/-- A rule for a port that is asked for with another one, and rules that come a second time. -/
theorem redundant_rules_change_nothing_mixedRules :
    let c := mixedRules
    let part := Rule.build "frontend" "api" [.ports [9090], .inNamespace "web"]
    c.Redundant part ∧ part ∉ c.intent.rules ∧
      (c.withRules (c.intent.rules ++ [part])).policies = c.policies ∧
      (c.withRules (c.intent.rules ++ c.intent.rules.drop 1)).policies = c.policies := by
  intro c part
  have redundant : c.Redundant part := by decide
  have unchanged := c.redundant_rules_change_nothing
  exact ⟨redundant, by decide, unchanged.1 part redundant,
    unchanged.2 _ (List.drop_subset 1 c.intent.rules)⟩

/-- Whether rules are for the same traffic in an intent of some namespace, whatever their matchers.
Only rules with ports need the same protocols. -/
structure Rule.SameTraffic (intentNs : String) (r s : Rule) : Prop where
  source : r.source = s.source
  target : r.target = s.target
  ports : r.ports = s.ports
  ns : r.nsOr intentNs = s.nsOr intentNs
  protocols : r.ports ≠ none → r.protocols = s.protocols

namespace Rule

/-- The rule with its namespace written out, without protocols that do not matter, and with other
matchers. -/
def plain (intentNs : String) (l7 : Option L7Rules) (r : Rule) : Rule where
  source := r.source
  target := r.target
  ports := r.ports
  protocols := if r.ports = none then [] else r.protocols
  ns := some (r.nsOr intentNs)
  l7 := l7

theorem sameTraffic_plain (intentNs : String) (l7 : Option L7Rules) (r : Rule) :
    (r.plain intentNs l7).SameTraffic intentNs r where
  source := rfl
  target := rfl
  ports := rfl
  ns := rfl
  protocols listed := if_neg listed

theorem sameTraffic_l7 (intentNs : String) (l7 : Option L7Rules) (r : Rule) :
    SameTraffic intentNs { r with l7 := l7 } r :=
  ⟨rfl, rfl, rfl, rfl, fun _ => rfl⟩

theorem sameTraffic_ns (intentNs : String) (r : Rule) :
    SameTraffic intentNs { r with ns := some (r.nsOr intentNs) } r :=
  ⟨rfl, rfl, rfl, rfl, fun _ => rfl⟩

theorem sameTraffic_protocols (intentNs : String) (protocols : List String) (r : Rule) :
    SameTraffic intentNs (if r.ports = none then { r with protocols := protocols } else r) r := by
  split
  next all => exact ⟨rfl, rfl, rfl, rfl, fun listed => absurd all listed⟩
  next => exact ⟨rfl, rfl, rfl, rfl, fun _ => rfl⟩

variable {intentNs : String} {r s : Rule}

theorem SameTraffic.plain_eq (h : r.SameTraffic intentNs s) (l7 : Option L7Rules) :
    r.plain intentNs l7 = s.plain intentNs l7 := by
  have protocols : (if r.ports = none then [] else r.protocols) =
      if s.ports = none then [] else s.protocols := by
    rw [← h.ports]
    split
    next => rfl
    next listed => exact h.protocols listed
  rw [plain, plain, protocols, h.source, h.target, h.ports, h.ns]

theorem SameTraffic.near (h : r.SameTraffic intentNs s) : ∀ d : Direction, d.near r = d.near s
  | .ingress => h.target
  | .egress => h.source

theorem SameTraffic.far (h : r.SameTraffic intentNs s) : ∀ d : Direction, d.far r = d.far s
  | .ingress => h.source
  | .egress => h.target

theorem SameTraffic.expandPorts (h : r.SameTraffic intentNs s) : r.expandPorts = s.expandPorts := by
  unfold Rule.expandPorts
  cases hr : r.ports with
  | none => rw [← h.ports, hr]; rfl
  | some ports =>
    have protocols := h.protocols (by simp [hr])
    rw [← h.ports, hr, protocols]

theorem SameTraffic.ciliumPorts (h : r.SameTraffic intentNs s) (l7 : r.l7 = s.l7) :
    r.ciliumPorts = s.ciliumPorts := by
  rw [Rule.ciliumPorts, h.expandPorts, l7]
  rfl

end Rule

namespace Compilation

section

variable {c : Compilation} {f : Rule → Rule}

theorem services_map {ends : Rule → String} (same : ∀ r, ends (f r) = ends r) :
    (c.withRules (c.intent.rules.map f)).services ends = c.services ends := by
  simp only [services, withRules, List.map_map, Function.comp_def, same]

theorem rulesAt_map {ends : Rule → String} (same : ∀ r, ends (f r) = ends r) (service : String) :
    (c.withRules (c.intent.rules.map f)).rulesAt ends service =
      (c.rulesAt ends service).map f := by
  simp only [rulesAt, withRules, List.filter_map, Function.comp_def, same]

variable (same : ∀ r, (f r).SameTraffic c.intent.ns r)
include same

theorem otherSide_map (d : Direction) (r : Rule) : c.otherSide d (f r) = c.otherSide d r := by
  simp only [otherSide, (same r).far, (same r).ns]

theorem policies_map : (c.withRules (c.intent.rules.map f)).policies = c.policies := by
  have near (d : Direction) (r : Rule) : d.near (f r) = d.near r := (same r).near d
  refine c.policies_withRules (fun d => services_map (near d)) fun d service => ?_
  rw [rulesAt_map (near d)]
  exact peerEntries_map (otherSide_map same d) (fun r => (same r).expandPorts) _

/-- Cilium's policies see the matchers as well. -/
theorem cilium_map (l7 : ∀ r, (f r).l7 = r.l7) :
    (c.withRules (c.intent.rules.map f)).cilium = c.cilium := by
  have targets (r : Rule) : (f r).target = r.target := (same r).target
  have peers (r : Rule) : c.sourcePeer (f r) = c.sourcePeer r := otherSide_map same .ingress r
  have ports (r : Rule) : (f r).ciliumPorts = r.ciliumPorts := (same r).ciliumPorts (l7 r)
  rw [cilium_eq, cilium_eq, services_map targets]
  refine List.map_congr_left fun target _ => ?_
  show c.ciliumPolicy target ((c.withRules (c.intent.rules.map f)).rulesAt Rule.target target) =
    c.ciliumPolicy target (c.rulesAt Rule.target target)
  rw [rulesAt_map targets]
  simp only [ciliumPolicy, List.map_map, Function.comp_def, peers, ports]

end

/-- Rules for the same traffic look the same once they are plain, with whatever matchers. -/
theorem map_plain_eq {intentNs : String} {rs ss : List Rule} {l7 : Rule → Option L7Rules}
    (traffic : List.Forall₂ (Rule.SameTraffic intentNs) rs ss) (matchers : rs.map l7 = ss.map l7) :
    (rs.map fun r => r.plain intentNs (l7 r)) = ss.map fun s => s.plain intentNs (l7 s) := by
  induction traffic with
  | nil => rfl
  | cons same _ ih =>
    obtain ⟨first, further⟩ := List.cons.inj matchers
    rw [List.map_cons, List.map_cons, same.plain_eq, first, ih further]

/-- Intents whose rules are for the same traffic, one by one, have the same policies, and the same of
Cilium's if their rules have the same matchers. So matchers make no difference to the plain policies,
and it makes none to any whether the namespace of the intent is written out, or what protocols a
rule without ports has. -/
theorem same_traffic_same_policies (i j : Intent) (t : Timestamp) (name : i.name = j.name)
    (ns : i.ns = j.ns) (description : i.description = j.description)
    (traffic : List.Forall₂ (Rule.SameTraffic i.ns) i.rules j.rules) :
    let c : Compilation := ⟨i, t⟩
    let d : Compilation := ⟨j, t⟩
    let all (b : Compilation) := (b.policies, b.cilium)
    c.policies = d.policies ∧
    (i.rules.map Rule.l7 = j.rules.map Rule.l7 → c.cilium = d.cilium) ∧
    (∀ l7 : Rule → Option L7Rules,
      (c.withRules (i.rules.map fun r => { r with l7 := l7 r })).policies = c.policies) ∧
    all (c.withRules (i.rules.map fun r => { r with ns := some (r.nsOr i.ns) })) = all c ∧
    ∀ protocols : Rule → List String,
      all (c.withRules (i.rules.map fun r =>
        if r.ports = none then { r with protocols := protocols r } else r)) = all c := by
  intro c d all
  have other : d = c.withRules j.rules := by
    show (⟨j, t⟩ : Compilation) = ⟨⟨i.name, i.ns, i.description, j.rules⟩, t⟩
    rw [name, ns, description]
  -- Plain rules have the policies of the rules that they come from, and both sides have the same.
  refine ⟨?_, fun matchers => ?_, fun l7 => ?_, ?_, fun protocols => ?_⟩
  · have lengths : (i.rules.map fun _ => (none : Option L7Rules)) = j.rules.map fun _ => none := by
      rw [List.map_const', List.map_const', traffic.length_eq]
    have same := Rule.sameTraffic_plain i.ns none
    rw [other, ← policies_map (c := c) same, ← policies_map (c := c.withRules j.rules) same]
    exact congrArg (fun rules => (c.withRules rules).policies) (map_plain_eq traffic lengths)
  · have same (r : Rule) := r.sameTraffic_plain i.ns r.l7
    rw [other, ← cilium_map (c := c) same fun _ => rfl,
      ← cilium_map (c := c.withRules j.rules) same fun _ => rfl]
    exact congrArg (fun rules => (c.withRules rules).cilium) (map_plain_eq traffic matchers)
  · exact policies_map fun r => r.sameTraffic_l7 i.ns (l7 r)
  · have same (r : Rule) := r.sameTraffic_ns i.ns
    exact congrArg₂ Prod.mk (policies_map same) (cilium_map same fun _ => rfl)
  · have same (r : Rule) := r.sameTraffic_protocols i.ns (protocols r)
    refine congrArg₂ Prod.mk (policies_map same) (cilium_map same fun r => ?_)
    split <;> rfl

end Compilation

def terseRules : Intent :=
  .new "shop" "default" [.build "frontend" "api" [.ports [8080]], .build "admin" "api" []]

def wordyRules : Intent :=
  .new "shop" "default" [
    .build "frontend" "api" [.inNamespace "default", .ports [8080]],
    .build "admin" "api" [.protocols ["UDP"]]]

/-- The namespace of the intent is written out, and a rule for all ports has another protocol. -/
theorem same_traffic_same_policies_wordyRules :
    let c : Compilation := ⟨terseRules, .epoch⟩
    let d : Compilation := ⟨wordyRules, .epoch⟩
    terseRules.rules.Forall₂ (Rule.SameTraffic "default") wordyRules.rules ∧
      terseRules.rules.map Rule.l7 = wordyRules.rules.map Rule.l7 ∧
      terseRules.rules ≠ wordyRules.rules ∧ c.policies = d.policies ∧ c.cilium = d.cilium := by
  intro c d
  have traffic : terseRules.rules.Forall₂ (Rule.SameTraffic "default") wordyRules.rules :=
    .cons ⟨rfl, rfl, rfl, rfl, fun _ => rfl⟩ <|
      .cons ⟨rfl, rfl, rfl, rfl, fun listed => absurd rfl listed⟩ .nil
  have same := Compilation.same_traffic_same_policies terseRules wordyRules .epoch rfl rfl rfl traffic
  exact ⟨traffic, by decide, by decide, same.1, same.2.1 (by decide)⟩

end TrafficIntent
