import TrafficIntent.Proofs.EntryPorts
import TrafficIntent.Proofs.RuleOrder

/-!
Ports that an entry lists more than once. The rules of a peer add their ports to those of the first
of them without repetition, but the list of the first one is taken as it is. So an entry repeats
what its first rule repeats, and how long its list is depends on which rule comes first.
-/

namespace TrafficIntent

/-- Additions that are new and come once repeat nothing. -/
theorem eraseDups_append_new {α : Type} [DecidableEq α] {xs more : List α} (once : more.Nodup)
    (new : ∀ a ∈ more, a ∉ xs) : (xs ++ more).eraseDups = xs.eraseDups ++ more := by
  induction more using List.reverseRecOn with
  | nil => simp
  | append_singleton more a ih =>
    obtain ⟨earlier, -, apart⟩ := List.nodup_append.1 once
    have rest := ih earlier fun b hb => new b (List.mem_append_left _ hb)
    have absent : a ∉ xs ++ more := by
      rw [List.mem_append, not_or]
      refine ⟨new a (by simp), ?_⟩
      intro again
      exact apart a again a (by simp) rfl
    rw [← List.append_assoc, eraseDups_concat, if_neg absent, rest, List.append_assoc]

/-- Whether a rule lists a port with a protocol more than once. -/
def Rule.Repeats (r : Rule) : Prop :=
  r.protocols ≠ [] ∧ ∃ ports ∈ r.ports, ports ≠ [] ∧ ¬(ports.Nodup ∧ r.protocols.Nodup)

theorem Rule.nodup_expandPorts_iff {r : Rule} {first : List PolicyPort}
    (h : r.expandPorts = some first) : first.Nodup ↔ ¬r.Repeats := by
  let pairs (port : UInt16) : List PolicyPort := r.protocols.map fun protocol => ⟨port, protocol⟩
  have own (port : UInt16) : (pairs port).Nodup ↔ r.protocols.Nodup := by
    apply List.nodup_map_iff
    intro s t same
    exact (PolicyPort.mk.inj same).2
  have apart (some : r.protocols ≠ []) : Function.onFun List.Disjoint pairs = (· ≠ ·) := by
    obtain ⟨protocol, listed⟩ := List.exists_mem_of_ne_nil _ some
    funext p q
    apply propext
    constructor
    · rintro disjoint rfl
      exact disjoint (List.mem_map_of_mem listed) (List.mem_map_of_mem listed)
    · intro other a ha hb
      obtain ⟨s, -, rfl⟩ := List.mem_map.1 ha
      obtain ⟨t, -, same⟩ := List.mem_map.1 hb
      exact other (PolicyPort.mk.inj same).1.symm
  obtain ⟨ports, listed, rfl⟩ := Option.map_eq_some_iff.1 h
  show (ports.flatMap pairs).Nodup ↔ _
  unfold Repeats
  simp only [listed, Option.mem_some_iff, exists_eq_left']
  by_cases none : r.protocols = []
  · have bare : ports.flatMap pairs = [] := by simp [pairs, none]
    simp [bare, none]
  · by_cases empty : ports = []
    · simp [empty]
    · obtain ⟨port, there⟩ := List.exists_mem_of_ne_nil _ empty
      have all : (∀ port ∈ ports, r.protocols.Nodup) ↔ r.protocols.Nodup :=
        ⟨fun each => each port there, fun distinct _ _ => distinct⟩
      simp only [List.nodup_flatMap, own, apart none, all, none, empty, ne_eq, not_false_eq_true,
        true_and, not_not]
      exact and_comm

/-- The ports of a group are those of its first rule, as it lists them, and others once each. -/
theorem exists_unionPorts {rs : List Rule} {ports : List PolicyPort}
    (h : unionPorts rs = some ports) :
    ∃ r ∈ rs.head?, ∃ first more, r.expandPorts = some first ∧ ports = first ++ more ∧
      more.Nodup ∧ ∀ p ∈ more, p ∉ first := by
  obtain ⟨listed, r, later, rfl, rfl⟩ := exists_first_of_unionPorts h
  have expanded := Rule.expandPorts_eq_some (listed r List.mem_cons_self)
  refine ⟨r, rfl, r.pairs, _, expanded, rfl, nodup_eraseDups _, ?_⟩
  intro p hp
  have lacked := (List.mem_filter.1 (List.mem_eraseDups.1 hp)).2
  exact of_decide_eq_true lacked

/-- A list of ports is longer than it has ports by what its first rule repeats. -/
theorem length_unionPorts {rs : List Rule} {ports : List PolicyPort}
    (h : unionPorts rs = some ports) :
    ∃ r ∈ rs.head?, ∃ first, r.expandPorts = some first ∧
      ports.length + first.eraseDups.length = ports.eraseDups.length + first.length := by
  obtain ⟨r, hr, first, more, expanded, rfl, once, new⟩ := exists_unionPorts h
  refine ⟨r, hr, first, expanded, ?_⟩
  rw [eraseDups_append_new once new, List.length_append, List.length_append]
  omega

/-- A group repeats no port exactly if its first rule does not. -/
theorem nodup_unionPorts_iff {rs : List Rule} {ports : List PolicyPort}
    (h : unionPorts rs = some ports) : ports.Nodup ↔ ∀ r ∈ rs.head?, ¬r.Repeats := by
  obtain ⟨r, hr, first, more, expanded, rfl, once, new⟩ := exists_unionPorts h
  have all : (∀ s ∈ rs.head?, ¬s.Repeats) ↔ ¬r.Repeats := by
    rw [Option.mem_def.1 hr]
    simp
  rw [all, ← Rule.nodup_expandPorts_iff expanded, List.nodup_append]
  constructor
  · intro both
    exact both.1
  · intro distinct
    refine ⟨distinct, once, ?_⟩
    rintro p hp q hq rfl
    exact new p hq hp

/-- Whatever the order of the rules, the same number of ports is listed, repetitions aside. -/
theorem length_eraseDups_unionPorts {rs ss : List Rule} (perm : rs.Perm ss)
    {ps qs : List PolicyPort} (hp : unionPorts rs = some ps) (hq : unionPorts ss = some qs) :
    ps.eraseDups.length = qs.eraseDups.length := by
  have same := samePorts_unionPorts perm
  rw [hp, hq] at same
  apply List.Perm.length_eq
  rw [List.perm_ext_iff_of_nodup (nodup_eraseDups ps) (nodup_eraseDups qs)]
  intro p
  rw [List.mem_eraseDups, List.mem_eraseDups]
  exact same p

namespace Compilation

variable (c : Compilation)

theorem exists_entry_of_unionPorts {source target ns : String} {ports : List PolicyPort}
    (h : unionPorts (c.rulesBetween source target ns) = some ports) :
    ∃ p ∈ c.policies.manifests, ∃ e ∈ p.spec.ingress ++ p.spec.egress, ports ∈ e.ports := by
  have some : c.rulesBetween source target ns ≠ [] := by
    intro none
    rw [none] at h
    cases h
  obtain ⟨p, hp, -, he, -⟩ := (c.entry_iff (d := .ingress)).2 ⟨some, rfl⟩
  exact ⟨p, hp, _, List.mem_append_left _ he, h⟩

/-- Lists of ports are those of the rules between two services, but for that of name resolution. -/
theorem ports_of_mem_manifests {p : NetworkPolicy} (hp : p ∈ c.policies.manifests)
    {e : PolicyEntry} (he : e ∈ p.spec.ingress ++ p.spec.egress) {ports : List PolicyPort}
    (listed : ports ∈ e.ports) :
    (∃ source target ns, unionPorts (c.rulesBetween source target ns) = some ports) ∨
      ∃ d : Direction, ∃ e ∈ d.standing, ports ∈ e.ports := by
  rcases c.mem_manifests.1 hp with rfl | ⟨d, service, -, rfl⟩
  · contradiction
  · rw [ingress_append_egress] at he
    cases List.mem_append.1 he with
    | inl own =>
      obtain ⟨q, -, rfl⟩ := List.mem_map.1 own
      cases d with
      | ingress => exact .inl ⟨q.1, service, q.2, listed⟩
      | egress => exact .inl ⟨service, q.1, q.2, listed⟩
    | inr standing => exact .inr ⟨d, e, standing, listed⟩

/-- All lists of ports are free of repetitions exactly if between any two services, where no rule is
for all ports, the first rule is. Beyond its distinct ports a list has what its first rule repeats,
and the distinct ones do not depend on the order of the rules. -/
theorem ports_listed_once_iff :
    ((∀ p ∈ c.policies.manifests, ∀ e ∈ p.spec.ingress ++ p.spec.egress, ∀ ports ∈ e.ports,
        ports.Nodup) ↔
      ∀ source target ns, (∀ r ∈ c.rulesBetween source target ns, r.ports ≠ none) →
        ∀ r ∈ (c.rulesBetween source target ns).head?, ¬r.Repeats) ∧
    ∀ source target ns, ∀ ports ∈ unionPorts (c.rulesBetween source target ns),
      (∃ r ∈ (c.rulesBetween source target ns).head?, ∃ first, r.expandPorts = some first ∧
        ports.length + first.eraseDups.length = ports.eraseDups.length + first.length) ∧
      ∀ rules, c.intent.rules.Perm rules →
        ∀ others ∈ unionPorts ((c.withRules rules).rulesBetween source target ns),
          ports.eraseDups.length = others.eraseDups.length := by
  refine ⟨⟨?_, ?_⟩, ?_⟩
  · intro once source target ns listed r hr
    have some : c.rulesBetween source target ns ≠ [] := by
      intro none
      rw [none] at hr
      contradiction
    cases union : unionPorts (c.rulesBetween source target ns) with
    | none =>
      obtain ⟨s, hs, none⟩ := (unionPorts_eq_none some).1 union
      exact absurd none (listed s hs)
    | some ports =>
      obtain ⟨p, hp, e, he, there⟩ := c.exists_entry_of_unionPorts union
      exact (nodup_unionPorts_iff union).1 (once p hp e he ports there) r hr
  · intro firsts p hp e he ports listed
    cases c.ports_of_mem_manifests hp he listed with
    | inl rules =>
      obtain ⟨source, target, ns, union⟩ := rules
      rw [nodup_unionPorts_iff union]
      apply firsts source target ns
      intro r hr none
      have some : c.rulesBetween source target ns ≠ [] := List.ne_nil_of_mem hr
      rw [(unionPorts_eq_none some).2 ⟨r, hr, none⟩] at union
      contradiction
    | inr names =>
      obtain ⟨d, e, standing, listed⟩ := names
      cases d with
      | ingress => contradiction
      | egress =>
        rw [List.mem_singleton.1 standing] at listed
        rw [← Option.some.inj listed]
        decide
  · intro source target ns ports union
    refine ⟨length_unionPorts union, ?_⟩
    intro rules perm others other
    exact length_eraseDups_unionPorts (perm_rulesBetween perm source target ns) union other

end Compilation

/-- Two rules for one peer, of which the first lists its port twice. -/
def repeatedPort : Compilation where
  intent := .new "shop" "default" [
    (Rule.new "web" "api").withPorts [8080, 8080],
    (Rule.new "web" "api").withPorts [9090]]
  generatedAt := .epoch

/-- The port is listed twice, and only once where the other rule comes first. -/
theorem repeated_port_listed_twice :
    (∃ p ∈ repeatedPort.policies.manifests, ∃ e ∈ p.spec.ingress ++ p.spec.egress,
      ∃ ports ∈ e.ports, ¬ports.Nodup) ∧
    (repeatedPort.entriesTo "api").map PolicyEntry.ports =
      [some [⟨8080, "TCP"⟩, ⟨8080, "TCP"⟩, ⟨9090, "TCP"⟩]] ∧
    ((repeatedPort.withRules repeatedPort.intent.rules.reverse).entriesTo "api").map
        PolicyEntry.ports = [some [⟨9090, "TCP"⟩, ⟨8080, "TCP"⟩]] := by
  have union : unionPorts (repeatedPort.rulesBetween "web" "api" "default") =
      some [⟨8080, "TCP"⟩, ⟨8080, "TCP"⟩, ⟨9090, "TCP"⟩] := by decide
  obtain ⟨p, hp, e, he, listed⟩ := repeatedPort.exists_entry_of_unionPorts union
  exact ⟨⟨p, hp, e, he, _, listed, by decide⟩, by decide, by decide⟩

end TrafficIntent
