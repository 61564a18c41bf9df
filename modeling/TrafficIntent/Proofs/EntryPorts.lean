import TrafficIntent.Proofs.Entries
import TrafficIntent.Proofs.StablePartition

namespace TrafficIntent

/-- Every port of a rule with each of its protocols, port by port. -/
def Rule.pairs (r : Rule) : List PolicyPort :=
  (r.ports.getD []).flatMap fun port => r.protocols.map fun protocol => ⟨port, protocol⟩

theorem Rule.expandPorts_eq_some {r : Rule} (listed : r.ports ≠ none) :
    r.expandPorts = some r.pairs := by
  obtain ⟨ports, some⟩ := Option.ne_none_iff_exists'.1 listed
  rw [expandPorts, pairs, some]
  rfl

/-- Rules that all list their ports are expanded one by one. -/
theorem mapM_expandPorts_eq_some {rs : List Rule} (listed : ∀ r ∈ rs, r.ports ≠ none) :
    rs.mapM Rule.expandPorts = some (rs.map Rule.pairs) := by
  induction rs with
  | nil => rfl
  | cons r rs ih =>
    have others := ih fun s hs => listed s (List.mem_cons_of_mem r hs)
    rw [List.mapM_cons, others, Rule.expandPorts_eq_some (listed r List.mem_cons_self)]
    rfl

/-- The list of a group without a rule for all ports. -/
theorem unionPorts_eq_some {r : Rule} {rs : List Rule} (listed : ∀ s ∈ r :: rs, s.ports ≠ none) :
    unionPorts (r :: rs) =
      some (r.pairs ++ ((rs.flatMap Rule.pairs).filter fun p => p ∉ r.pairs).eraseDups) := by
  have others := mapM_expandPorts_eq_some fun s hs => listed s (List.mem_cons_of_mem r hs)
  rw [unionPorts_cons, others, Rule.expandPorts_eq_some (listed r List.mem_cons_self)]
  exact congrArg some (addNew_eq _ _)

/-- A list of ports is that of rules of which none is for all ports. -/
theorem exists_first_of_unionPorts {rs : List Rule} {ports : List PolicyPort}
    (h : unionPorts rs = some ports) :
    (∀ r ∈ rs, r.ports ≠ none) ∧ ∃ first later, rs = first :: later ∧
      ports = first.pairs ++
        ((later.flatMap Rule.pairs).filter fun p => p ∉ first.pairs).eraseDups := by
  have ruled : rs ≠ [] := by
    rintro rfl
    contradiction
  have listed : ∀ r ∈ rs, r.ports ≠ none := by
    intro r hr all
    rw [(unionPorts_eq_none ruled).2 ⟨r, hr, all⟩] at h
    contradiction
  obtain ⟨first, later, rfl⟩ := List.exists_cons_of_ne_nil ruled
  rw [unionPorts_eq_some listed] at h
  exact ⟨listed, first, later, rfl, (Option.some.inj h).symm⟩

/-- The union of ports is never asked about a group without rules. -/
theorem members_ne_nil_of_mem_groupsOf {rules : List Rule} {peerOf : Rule → Peer}
    {g : Group Peer Rule} (hg : g ∈ groupsOf peerOf rules) : g.members ≠ [] := by
  rw [groupsOf_eq_partition] at hg
  exact (isStablePartition_partition peerOf rules).filled g hg

/-- Each peer that rules name has one entry, in the order in which they name the peers. It is for
all ports if some rule of the peer is, and lists otherwise the pairs of the peer's first rule as
they are and then, once each, those of the others that the first one lacks. -/
theorem peerEntries_spelled_out (rules : List Rule) (peerOf : Rule → Peer) :
    (peerEntries rules peerOf).map PeerEntry.peer = (rules.map peerOf).eraseDups ∧
    ((peerEntries rules peerOf).map PeerEntry.peer).Nodup ∧
    (∀ e ∈ peerEntries rules peerOf,
      (e.ports = none ↔ ∃ r ∈ rules, peerOf r = e.peer ∧ r.ports = none) ∧
      ∀ ports ∈ e.ports, ∃ first later,
        (rules.filter fun r => peerOf r == e.peer) = first :: later ∧
        ports = first.pairs ++
          ((later.flatMap Rule.pairs).filter fun p => p ∉ first.pairs).eraseDups) ∧
    ∀ g ∈ groupsOf peerOf rules, g.members ≠ [] := by
  have peers : (peerEntries rules peerOf).map PeerEntry.peer = (rules.map peerOf).eraseDups := by
    rw [peerEntries_eq, List.map_map]
    exact List.map_id _
  refine ⟨peers, ?_, ?_, fun g hg => members_ne_nil_of_mem_groupsOf hg⟩
  · rw [peers]
    exact nodup_eraseDups _
  · intro e he
    rw [peerEntries_eq] at he
    obtain ⟨q, named, rfl⟩ := List.mem_map.1 he
    have ruled : (rules.filter fun r => peerOf r == q) ≠ [] := by
      obtain ⟨r, hr, own⟩ := List.mem_map.1 (List.mem_eraseDups.1 named)
      exact List.ne_nil_of_mem (List.mem_filter.2 ⟨hr, beq_iff_eq.2 own⟩)
    constructor
    · simp only [unionPorts_eq_none ruled, List.mem_filter, beq_iff_eq, and_assoc]
    · intro ports union
      exact (exists_first_of_unionPorts union).2

end TrafficIntent
