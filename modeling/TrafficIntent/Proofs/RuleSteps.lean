import TrafficIntent.Intent.Rule

namespace TrafficIntent

namespace Rule

/-- Nothing that is there is empty or blank. -/
structure Normal (r : Rule) : Prop where
  ports : r.ports ≠ some []
  protocols : r.protocols ≠ []
  ns : ∀ ns, r.ns = some ns → Text.isBlank ns = false
  l7 : ∀ l7, r.l7 = some l7 → l7.http ≠ []

/-- A rule as it comes out of the steps. -/
def IsBuilt (r : Rule) : Prop := ∃ source target steps, r = build source target steps

theorem normal_new (source target : String) : (new source target).Normal :=
  ⟨by simp [new], by simp [new], by simp [new], by simp [new]⟩

theorem Normal.step {r : Rule} (h : r.Normal) (s : Step) : (r.step s).Normal := by
  cases s with
  | ports ports =>
    refine ⟨?_, h.protocols, h.ns, h.l7⟩
    cases ports <;> simp [Rule.step, withPorts]
  | protocols protocols =>
    refine ⟨h.ports, ?_, h.ns, h.l7⟩
    cases protocols <;> simp [Rule.step, withProtocols]
  | inNamespace ns =>
    refine ⟨h.ports, h.protocols, ?_, h.l7⟩
    intro given hg
    cases blank : Text.isBlank ns with
    | true => simp [Rule.step, inNamespace, blank] at hg
    | false =>
      have eq : ns = given := by simpa [Rule.step, inNamespace, blank] using hg
      rw [← eq, blank]
  | l7 rules =>
    refine ⟨h.ports, h.protocols, h.ns, ?_⟩
    intro given hg
    cases empty : rules.isEmpty with
    | true => simp [Rule.step, withL7, empty] at hg
    | false =>
      have eq : rules = given := by simpa [Rule.step, withL7, empty] using hg
      rw [← eq]
      intro none
      simp [L7Rules.isEmpty, none] at empty

theorem normal_foldl {r : Rule} (h : r.Normal) (steps : List Step) :
    (steps.foldl Rule.step r).Normal := by
  induction steps generalizing r with
  | nil => exact h
  | cons s steps ih => exact ih (h.step s)

/-- Steps in any order and any number leave a rule normal. -/
theorem IsBuilt.normal {r : Rule} (h : r.IsBuilt) : r.Normal := by
  obtain ⟨source, target, steps, rfl⟩ := h
  exact normal_foldl (normal_new source target) steps

end Rule

end TrafficIntent
