import TrafficIntent.Proofs.ConnectionTable
import TrafficIntent.Proofs.KeyOrder

namespace TrafficIntent

/-- Whether a policy selects a destination by its label and has an entry for incoming traffic with a
peer that selects a source by its. -/
def NetworkPolicy.Names (p : NetworkPolicy) (source destination : String) : Prop :=
  ("app", destination) ∈ p.spec.podSelector.matchLabels.entries ∧
    ∃ e ∈ p.spec.ingress, ∃ peer ∈ e.peers, ∃ selector, peer.podSelector = some selector ∧
      ("app", source) ∈ selector.matchLabels.entries

theorem label?_eq_some_iff {s : LabelSelector} {service : String} :
    s.label? serviceLabel = some service ↔ ("app", service) ∈ s.matchLabels.entries :=
  KeyMap.mem_entries.symm

namespace Connections

theorem mem_sourcesOf {e : PolicyEntry} {source : String} :
    source ∈ sourcesOf e ↔ ∃ peer ∈ e.peers, ∃ selector, peer.podSelector = some selector ∧
      ("app", source) ∈ selector.matchLabels.entries := by
  simp only [sourcesOf, List.mem_filterMap, Option.bind_eq_some_iff, label?_eq_some_iff]

theorem mem_ofPolicy {p : NetworkPolicy} {source destination : String} :
    (destination, source) ∈ ofPolicy p ↔ p.Names source destination := by
  unfold ofPolicy NetworkPolicy.Names
  rw [← label?_eq_some_iff]
  cases selected : p.spec.podSelector.label? serviceLabel with
  | none => simp
  | some d =>
    have own : (∃ s ∈ p.spec.ingress.flatMap sourcesOf, (d, s) = (destination, source)) ↔
        d = destination ∧ ∃ e ∈ p.spec.ingress, source ∈ sourcesOf e := by
      simp only [List.mem_flatMap, Prod.mk.injEq]
      constructor
      · rintro ⟨s, there, same, rfl⟩
        exact ⟨same, there⟩
      · rintro ⟨same, there⟩
        exact ⟨source, there, same, rfl⟩
    rw [List.mem_map, own, Option.some_inj]
    simp only [mem_sourcesOf]

theorem mem_flatMap_ofPolicy {ps : List NetworkPolicy} {source destination : String} :
    (destination, source) ∈ ps.flatMap ofPolicy ↔ ∃ p ∈ ps, p.Names source destination := by
  simp only [List.mem_flatMap, mem_ofPolicy]

variable (pairs : List (String × String))

theorem mem_sourcesIn {source destination : String} :
    source ∈ sourcesIn pairs destination ↔ (destination, source) ∈ pairs := by
  simp [sourcesIn]

/-- Further pairs take no destination and no source from a table, and move none. -/
theorem ofPairs_prefix (further : List (String × String)) :
    (ofPairs pairs).destinations <+: (ofPairs (pairs ++ further)).destinations ∧
      ∀ destination, (ofPairs pairs).sourcesFor destination <+:
        (ofPairs (pairs ++ further)).sourcesFor destination := by
  have goesOn : pairs <+: pairs ++ further := List.prefix_append pairs further
  constructor
  · rw [destinations_ofPairs, destinations_ofPairs]
    exact eraseDups_prefix (goesOn.map Prod.fst)
  · intro destination
    rw [sourcesFor_ofPairs, sourcesFor_ofPairs]
    exact eraseDups_prefix ((goesOn.filter _).map Prod.snd)

/-- Every destination of a table has a source, and none twice. -/
theorem sources_ofPairs : ∀ e ∈ (ofPairs pairs).entries, e.2 ≠ [] ∧ e.2.Nodup := by
  intro e he
  obtain ⟨destination, listed, rfl⟩ := List.mem_map.1 he
  obtain ⟨⟨d, source⟩, there, rfl⟩ := List.mem_map.1 (List.mem_eraseDups.1 listed)
  exact ⟨List.ne_nil_of_mem ((mem_sourcesIn pairs).2 there), nodup_eraseDups _⟩

theorem check_ofPairs {source destination : String} :
    ((ofPairs pairs).check source destination).allowed = true ↔ (destination, source) ∈ pairs := by
  rw [check_allowed, allows, List.contains_iff_mem, sourcesFor_ofPairs, mem_sourcesIn]

/-- A table without destinations is one that allows nothing: no destination is without a source. -/
theorem isEmpty_ofPairs :
    (ofPairs pairs).isEmpty = true ↔
      ∀ source destination, ((ofPairs pairs).check source destination).allowed = false := by
  have nothing : (ofPairs pairs).isEmpty = true ↔ pairs = [] := by
    unfold isEmpty ofPairs
    rw [List.isEmpty_iff, List.map_eq_nil_iff, eraseDups_eq_nil, List.map_eq_nil_iff]
  rw [nothing, List.eq_nil_iff_forall_not_mem]
  simp only [← Bool.not_eq_true, check_ofPairs]
  constructor
  · intro none source destination
    exact none (destination, source)
  · intro none q
    exact none q.2 q.1

/-- What the table is, whatever the policies: no destination or source is in it twice, each is at
the place where the policies first name it, it allows what some policy names, and policies that
follow take nothing from it. -/
theorem ofPolicies_invariant (ps : List NetworkPolicy) :
    ((ofPolicies ps).destinations.Nodup ∧ ∀ e ∈ (ofPolicies ps).entries, e.2 ≠ [] ∧ e.2.Nodup) ∧
    (ofPolicies ps).entries = ((ps.flatMap ofPolicy).map Prod.fst).eraseDups.map (fun destination =>
      (destination, (((ps.flatMap ofPolicy).filter fun q => q.1 == destination).map
        Prod.snd).eraseDups)) ∧
    (∀ source destination, ((ofPolicies ps).check source destination).allowed = true ↔
      ∃ p ∈ ps, p.Names source destination) ∧
    ((ofPolicies ps).isEmpty = true ↔
      ∀ source destination, ((ofPolicies ps).check source destination).allowed = false) ∧
    ∀ qs,
      ofPolicies (ps ++ qs) =
        (qs.flatMap ofPolicy).foldl (fun t q => t.insert q.1 q.2) (ofPolicies ps) ∧
      (ofPolicies ps).destinations <+: (ofPolicies (ps ++ qs)).destinations ∧
      ∀ destination, (ofPolicies ps).sourcesFor destination <+:
        (ofPolicies (ps ++ qs)).sourcesFor destination := by
  have table (qs : List NetworkPolicy) :
      ofPolicies (ps ++ qs) = ofPairs (ps.flatMap ofPolicy ++ qs.flatMap ofPolicy) := by
    rw [ofPolicies_eq, List.flatMap_append]
  rw [ofPolicies_eq ps]
  refine ⟨⟨?_, sources_ofPairs _⟩, rfl, ?_, isEmpty_ofPairs _, ?_⟩
  · rw [destinations_ofPairs]
    exact nodup_eraseDups _
  · intro source destination
    rw [check_ofPairs, mem_flatMap_ofPolicy]
  · intro qs
    rw [table]
    exact ⟨(addPolicies_ofPairs _ qs).symm, ofPairs_prefix _ _⟩

end Connections

end TrafficIntent
