import TrafficIntent.Proofs.CiliumAdmission

namespace TrafficIntent

/-- Whether a policy governs the pods of a service. -/
def NetworkPolicy.isFor (p : NetworkPolicy) (service : String) : Bool :=
  p.spec.podSelector == .single serviceLabel service

def CiliumPolicy.isFor (p : CiliumPolicy) (service : String) : Bool :=
  p.spec.endpointSelector == .single serviceLabel service

namespace Compilation

/-- The compilation of one group of rules alone. -/
def onlyAt (c : Compilation) (ends : Rule → String) (service : String) : Compilation :=
  c.withRules (c.rulesAt ends service)

/-- What it means for policies to come from groups of rules, each from its own and from nothing
else. `isFor` tells whose group a policy comes from. -/
structure IsLocal {α : Type} (family : Compilation → List α) (ends : Rule → String)
    (isFor : α → String → Bool) : Prop where
  alone : ∀ (c : Compilation) service,
    family (c.onlyAt ends service) = (family c).filter (isFor · service)
  length_alone : ∀ (c : Compilation) service, (family (c.onlyAt ends service)).length =
    if service ∈ c.intent.rules.map ends then 1 else 0
  joined : ∀ c : Compilation,
    ((c.services ends).flatMap fun service => family (c.onlyAt ends service)) = family c
  others : ∀ (c : Compilation) rules service,
    (c.withRules rules).rulesAt ends service = c.rulesAt ends service →
      (family (c.withRules rules)).filter (isFor · service) = (family c).filter (isFor · service)

section

variable {α : Type} {family : Compilation → List α} {ends : Rule → String}
  {policy : Compilation → String → List Rule → α}
  (whole : ∀ c, family c =
    (c.services ends).map fun service => policy c service (c.rulesAt ends service))
variable (fixed : ∀ c rules, policy (c.withRules rules) = policy c)
include whole fixed

theorem family_onlyAt (c : Compilation) (service : String) : family (c.onlyAt ends service) =
    if service ∈ c.intent.rules.map ends then [policy c service (c.rulesAt ends service)]
    else [] := by
  have services : (c.onlyAt ends service).services ends =
      if service ∈ c.intent.rules.map ends then [service] else [] := by
    rw [← eraseDups_filter_beq, List.filter_map]
    rfl
  have again : (c.onlyAt ends service).rulesAt ends service = c.rulesAt ends service := by
    simp [rulesAt, onlyAt, withRules, List.filter_filter]
  rw [whole, services]
  split
  next => rw [List.map_singleton, again, onlyAt, fixed]
  next => rfl

/-- It is enough that policies are made group by group, tell their group, and take nothing from the
rules of the intent but the group. -/
theorem isLocal_of_groups {isFor : α → String → Bool}
    (tells : ∀ c service rules other, isFor (policy c service rules) other = (service == other)) :
    IsLocal family ends isFor := by
  have group := family_onlyAt whole fixed
  have alone (c : Compilation) (service : String) :
      family (c.onlyAt ends service) = (family c).filter (isFor · service) := by
    -- Each service is listed once, so no more than one policy is for it.
    have once : (c.services ends).count service =
        if service ∈ c.intent.rules.map ends then 1 else 0 := by
      simp only [services, (nodup_eraseDups _).count, List.mem_eraseDups]
    rw [group, whole, List.filter_map]
    simp only [Function.comp_def, tells, List.filter_beq, once]
    split <;> rfl
  refine ⟨alone, fun c service => ?_, fun c => ?_, fun c rules service same => ?_⟩
  · rw [group]
    split <;> rfl
  · have each : ∀ service ∈ c.services ends, family (c.onlyAt ends service) =
        [policy c service (c.rulesAt ends service)] := fun service hs =>
      (group c service).trans (if_pos (List.mem_eraseDups.1 hs))
    rw [List.flatMap_congr each, ← List.map_eq_flatMap, ← whole]
  · have restricted : (c.withRules rules).onlyAt ends service = c.onlyAt ends service :=
      congrArg c.withRules same
    rw [← alone, restricted, alone]

end

/-- Policies for incoming traffic, Cilium's and those for outgoing traffic all come from the group of
rules of their service: the group alone gives the policy that it has among all, one group after the
other gives them all, and rules of other groups make no difference. -/
theorem synthesis_is_local :
    IsLocal ingress Rule.target NetworkPolicy.isFor ∧
      IsLocal cilium Rule.target CiliumPolicy.isFor ∧
      IsLocal egress Rule.source NetworkPolicy.isFor := by
  have tells (s t : String) :
      (LabelSelector.single serviceLabel s == LabelSelector.single serviceLabel t) = (s == t) := by
    rw [Bool.eq_iff_iff, beq_iff_eq, beq_iff_eq, LabelSelector.single_inj]
  refine ⟨?_, ?_, ?_⟩
  · have whole (c : Compilation) : c.ingress = (c.services Rule.target).map fun target =>
        c.ingressPolicy target (c.rulesAt Rule.target target) := c.ingress_eq
    exact isLocal_of_groups whole (fun _ _ => rfl) fun _ service _ other => tells service other
  · have whole (c : Compilation) : c.cilium = (c.services Rule.target).map fun target =>
        c.ciliumPolicy target (c.rulesAt Rule.target target) := c.cilium_eq
    exact isLocal_of_groups whole (fun _ _ => rfl) fun _ service _ other => tells service other
  · have whole (c : Compilation) : c.egress = (c.services Rule.source).map fun source =>
        c.egressPolicy source (c.rulesAt Rule.source source) := c.egress_eq
    exact isLocal_of_groups whole (fun _ _ => rfl) fun _ service _ other => tells service other

end Compilation

/-- The rule of another source is left out, and the policy of `frontend` stays as it is. -/
theorem synthesis_is_local_mixedRules :
    let d := mixedRules.withRules (mixedRules.intent.rules.filter fun r => r.source != "admin")
    d.intent.rules.length = 2 ∧ mixedRules.intent.rules.length = 3 ∧
      d.rulesAt Rule.source "frontend" = mixedRules.rulesAt Rule.source "frontend" ∧
      (d.egress.filter (·.isFor "frontend")) = mixedRules.egress.filter (·.isFor "frontend") := by
  intro d
  have same : d.rulesAt Rule.source "frontend" = mixedRules.rulesAt Rule.source "frontend" := by
    decide
  exact ⟨by decide, by decide, same,
    Compilation.synthesis_is_local.2.2.others mixedRules d.intent.rules "frontend" same⟩

end TrafficIntent
