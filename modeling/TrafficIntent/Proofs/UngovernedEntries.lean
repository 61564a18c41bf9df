import TrafficIntent.Proofs.Agreement
import TrafficIntent.Proofs.ConnectionInvariant

/-!
Policies that do not govern incoming traffic. The table of connections looks at a policy's entries
and not at the directions that it governs, so entries for incoming traffic count in a policy for
outgoing traffic as well, where the cluster ignores them. Leaving such policies out makes no
difference exactly if all that they name is named by policies that govern incoming traffic.
-/

namespace TrafficIntent

namespace NetworkPolicy

def governsIngress (p : NetworkPolicy) : Bool := p.spec.policyTypes.contains .ingress

/-- Whether a policy selects its pods by their service. -/
def selectsService (p : NetworkPolicy) : Bool := (p.spec.podSelector.label? serviceLabel).isSome

end NetworkPolicy

namespace Connections

variable {ps : List NetworkPolicy}

theorem ofPolicy_of_not_selectsService {p : NetworkPolicy} (h : p.selectsService = false) :
    ofPolicy p = [] := by
  have none : p.spec.podSelector.label? serviceLabel = none :=
    Option.isNone_iff_eq_none.1 (Option.isSome_eq_false_iff.1 h)
  unfold ofPolicy
  rw [none]

theorem ofPolicy_of_ingress_eq_nil {p : NetworkPolicy} (h : p.spec.ingress = []) :
    ofPolicy p = [] := by
  unfold ofPolicy
  rw [h]
  split <;> rfl

/-- Policies that contribute nothing may be left out. -/
theorem ofPolicies_filter {keep : NetworkPolicy → Bool}
    (nothing : ∀ p ∈ ps, keep p = false → ofPolicy p = []) :
    ofPolicies (ps.filter keep) = ofPolicies ps := by
  have pairs : (ps.filter keep).flatMap ofPolicy = ps.flatMap ofPolicy := by
    induction ps with
    | nil => rfl
    | cons p ps ih =>
      have rest := ih fun q hq => nothing q (List.mem_cons_of_mem p hq)
      cases kept : keep p with
      | true => rw [List.filter_cons_of_pos kept, List.flatMap_cons, List.flatMap_cons, rest]
      | false =>
        have none := nothing p List.mem_cons_self kept
        rw [List.filter_cons_of_neg (by simp [kept]), List.flatMap_cons, none, rest]
        rfl
  rw [ofPolicies_eq, ofPolicies_eq, pairs]

theorem allows_ofPolicies {source destination : String} :
    (ofPolicies ps).allows source destination = true ↔ ∃ p ∈ ps, p.Names source destination := by
  rw [← check_allowed, ofPolicies_eq, check_ofPairs, mem_flatMap_ofPolicy]

/-- A verdict tells no more than whether the connection is allowed. -/
theorem check_eq_check_iff {t u : Connections} {source destination : String} :
    t.check source destination = u.check source destination ↔
      (t.allows source destination = true ↔ u.allows source destination = true) := by
  unfold check
  cases t.allows source destination <;> cases u.allows source destination <;> simp

/-- What is left out with policies that do not govern incoming traffic is what they alone name. -/
theorem check_filter_governsIngress_iff :
    (∀ source destination, (ofPolicies (ps.filter NetworkPolicy.governsIngress)).check source
        destination = (ofPolicies ps).check source destination) ↔
      ∀ p ∈ ps, p.governsIngress = false → ∀ source destination, p.Names source destination →
        ∃ q ∈ ps, q.governsIngress = true ∧ q.Names source destination := by
  simp only [check_eq_check_iff, allows_ofPolicies, List.mem_filter]
  constructor
  · intro same p hp _ source destination named
    obtain ⟨q, ⟨hq, governs⟩, named⟩ := (same source destination).2 ⟨p, hp, named⟩
    exact ⟨q, hq, governs, named⟩
  · intro covered source destination
    constructor
    · intro left
      obtain ⟨p, ⟨hp, _⟩, named⟩ := left
      exact ⟨p, hp, named⟩
    · intro all
      obtain ⟨p, hp, named⟩ := all
      cases governs : p.governsIngress with
      | true => exact ⟨p, ⟨hp, governs⟩, named⟩
      | false =>
        obtain ⟨q, hq, governs, named⟩ := covered p hp governs source destination named
        exact ⟨q, ⟨hq, governs⟩, named⟩

/-- Where entries for incoming traffic are listed by policies that govern it only, these are all
that counts. -/
theorem ofPolicies_filter_governed
    (bare : ∀ p ∈ ps, p.governsIngress = false → p.spec.ingress = []) :
    ofPolicies (ps.filter fun p => p.governsIngress && p.selectsService) = ofPolicies ps := by
  apply ofPolicies_filter
  intro p hp out
  cases Bool.and_eq_false_iff.1 out with
  | inl ungoverned => exact ofPolicy_of_ingress_eq_nil (bare p hp ungoverned)
  | inr unselected => exact ofPolicy_of_not_selectsService unselected

end Connections

/-- The policies of an intent have entries only for what they govern. -/
theorem Compilation.connections_governed (c : Compilation) :
    Connections.ofPolicies (c.policies.manifests.filter fun p =>
      p.governsIngress && p.selectsService) = c.connections := by
  apply Connections.ofPolicies_filter_governed
  intro p hp ungoverned
  rcases c.mem_manifests.1 hp with rfl | ⟨d, service, _, rfl⟩
  · rfl
  · cases d with
    | ingress =>
      have governed : (c.policyTo service).governsIngress = true := by
        rw [NetworkPolicy.governsIngress, policyTo_spec]
        rfl
      exact absurd (governed.symm.trans ungoverned) (by decide)
    | egress => exact c.entries_policyOf_other (d := .egress) (e := .ingress) (by decide) service

/-- Policies that select no service leave no trace. Those that do not govern incoming traffic leave
none in what the table allows exactly if what they name is named by policies that do, and none at
all if they have no entries for incoming traffic. -/
theorem Connections.ungoverned_entries_count (ps : List NetworkPolicy) :
    ofPolicies (ps.filter NetworkPolicy.selectsService) = ofPolicies ps ∧
    ((∀ source destination, (ofPolicies (ps.filter NetworkPolicy.governsIngress)).check source
        destination = (ofPolicies ps).check source destination) ↔
      ∀ p ∈ ps, p.governsIngress = false → ∀ source destination, p.Names source destination →
        ∃ q ∈ ps, q.governsIngress = true ∧ q.Names source destination) ∧
    ((∀ p ∈ ps, p.governsIngress = false → p.spec.ingress = []) →
      ofPolicies (ps.filter fun p => p.governsIngress && p.selectsService) = ofPolicies ps) := by
  refine ⟨?_, check_filter_governsIngress_iff, ofPolicies_filter_governed⟩
  apply ofPolicies_filter
  intro p _ unselected
  exact ofPolicy_of_not_selectsService unselected

/-- A policy for outgoing traffic that lists an entry for incoming traffic. -/
def strayEntry : NetworkPolicy :=
  .new ⟨"stray", "default", .empty, .empty⟩
    ⟨.single serviceLabel "api", [.egress],
      [⟨[⟨some (.single serviceLabel "web"), none⟩], none⟩], []⟩

/-- The entry counts, though no policy governs incoming traffic. -/
theorem stray_entry_allowed :
    strayEntry.governsIngress = false ∧
      ((Connections.ofPolicies [strayEntry]).check "web" "api").allowed = true ∧
      Connections.ofPolicies ([strayEntry].filter fun p => p.governsIngress && p.selectsService) ≠
        Connections.ofPolicies [strayEntry] := by
  decide

end TrafficIntent
