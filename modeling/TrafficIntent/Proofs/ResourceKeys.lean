import TrafficIntent.Proofs.Agreement
import TrafficIntent.Proofs.CiliumAdmission

namespace TrafficIntent

theorem ciliumName_injective : Function.Injective ciliumName := by
  intro a b h
  have texts : "cilium-allow-ingress-to-" ++ a = "cilium-allow-ingress-to-" ++ b := h
  exact (String.append_right_inj _).1 texts

theorem ciliumName_ne_baselineName (a : String) : ciliumName a ≠ baselineName :=
  append_ne_append (q := baselineName) (by decide) (by decide) a ""

theorem ciliumName_ne_policyName (a : String) (d : Direction) (b : String) :
    ciliumName a ≠ d.policyName b := by
  cases d <;> exact append_ne_append (by decide) (by decide) a b

/-- What a policy is generated for. -/
inductive Origin where
  | baseline
  | ingress (target : String)
  | egress (source : String)
  | cilium (target : String)

namespace Origin

def kind : Origin → String
  | cilium _ => Resource.kind CiliumPolicy
  | _ => Resource.kind NetworkPolicy

def name : Origin → String
  | baseline => baselineName
  | ingress target => ingressName target
  | egress source => egressName source
  | cilium target => ciliumName target

def key (ns : String) (o : Origin) : ResourceKey := ⟨o.kind, ns, o.name⟩

theorem eq_of_name : ∀ {a b : Origin}, a.name = b.name → a = b
  | baseline, baseline, _ => rfl
  | baseline, ingress t, h => absurd h.symm (Direction.ingress.policyName_ne_baselineName t)
  | baseline, egress s, h => absurd h.symm (Direction.egress.policyName_ne_baselineName s)
  | baseline, cilium t, h => absurd h.symm (ciliumName_ne_baselineName t)
  | ingress t, baseline, h => absurd h (Direction.ingress.policyName_ne_baselineName t)
  | ingress _, ingress _, h => congrArg ingress (ingressName_injective h)
  | ingress t, egress s, h => absurd h (ingressName_ne_egressName t s)
  | ingress t, cilium u, h => absurd h.symm (ciliumName_ne_policyName u .ingress t)
  | egress s, baseline, h => absurd h (Direction.egress.policyName_ne_baselineName s)
  | egress s, ingress t, h => absurd h.symm (ingressName_ne_egressName t s)
  | egress _, egress _, h => congrArg egress (egressName_injective h)
  | egress s, cilium t, h => absurd h.symm (ciliumName_ne_policyName t .egress s)
  | cilium t, baseline, h => absurd h (ciliumName_ne_baselineName t)
  | cilium t, ingress u, h => absurd h (ciliumName_ne_policyName t .ingress u)
  | cilium t, egress s, h => absurd h (ciliumName_ne_policyName t .egress s)
  | cilium _, cilium _, h => congrArg cilium (ciliumName_injective h)

theorem kind_eq (o : Origin) : o.kind = "NetworkPolicy" ∨ o.kind = "CiliumNetworkPolicy" := by
  cases o with
  | cilium => exact .inr rfl
  | _ => exact .inl rfl

/-- A slash in a name does no harm, since the two kinds start differently and the namespace is the
same. -/
theorem text_injective (ns : String) : Function.Injective fun o => (key ns o).text := by
  intro a b same
  have texts : a.kind ++ "/" ++ ns ++ "/" ++ a.name = b.kind ++ "/" ++ ns ++ "/" ++ b.name := same
  have kinds : a.kind = b.kind := by
    have chars := congrArg String.toList texts
    rcases a.kind_eq with ha | ha <;> rcases b.kind_eq with hb | hb <;> rw [ha, hb] at chars ⊢
    all_goals simp [String.toList_append] at chars
  rw [kinds] at texts
  exact eq_of_name ((String.append_right_inj _).1 texts)

theorem key_injective (ns : String) : Function.Injective (key ns) :=
  (text_injective ns).of_comp (f := ResourceKey.text)

end Origin

namespace Compilation

variable (c : Compilation)

@[simp] theorem ciliumTo_name (target : String) :
    (c.ciliumTo target).metadata.name = ciliumName target :=
  c.metadata_name _ _ _ _

/-- What the policies of an intent are generated for, in their order. -/
def origins : List Origin :=
  .baseline :: (c.services Rule.target).map .ingress ++ (c.services Rule.source).map .egress

def ciliumOrigins : List Origin := (c.services Rule.target).map .cilium

theorem nodup_origins : (c.origins ++ c.ciliumOrigins).Nodup := by
  have once (ends : Rule → String) : (c.services ends).Nodup := nodup_eraseDups _
  have targets := (once Rule.target).map fun _ _ => Origin.ingress.inj
  have sources := (once Rule.source).map fun _ _ => Origin.egress.inj
  have cilium := (once Rule.target).map fun _ _ => Origin.cilium.inj
  refine List.Nodup.append ?_ cilium ?_
  · refine List.Nodup.append (List.nodup_cons.2 ⟨?_, targets⟩) sources ?_
    · simp
    · simp [List.disjoint_left]
  · simp [List.disjoint_right, origins, ciliumOrigins]

theorem keys_manifests :
    c.policies.manifests.map Resource.key = c.origins.map (Origin.key c.intent.ns) := by
  have baseline : Resource.key (c.baseline c.intent.ns) = Origin.key c.intent.ns .baseline :=
    congrArg₂ (ResourceKey.mk _) (c.baseline_ns _) (c.baseline_name _)
  have ingress (t : String) : Resource.key (c.policyTo t) = Origin.key c.intent.ns (.ingress t) :=
    congrArg₂ (ResourceKey.mk _) (c.policyTo_ns t) (c.policyTo_name t)
  have egress (s : String) : Resource.key (c.policyFrom s) = Origin.key c.intent.ns (.egress s) :=
    congrArg₂ (ResourceKey.mk _) (c.policyFrom_ns s) (c.policyFrom_name s)
  simp [manifests_eq, origins, baseline, ingress, egress, Function.comp_def]

theorem keys_cilium : c.cilium.map Resource.key = c.ciliumOrigins.map (Origin.key c.intent.ns) := by
  have cilium (t : String) : Resource.key (c.ciliumTo t) = Origin.key c.intent.ns (.cilium t) :=
    congrArg₂ (ResourceKey.mk _) (c.ciliumTo_ns t) (c.ciliumTo_name t)
  simp [cilium_eq, ciliumOrigins, cilium, Function.comp_def]

/-- No two policies of an intent have the same key, nor the same text of their keys, Cilium's
included. -/
theorem resource_keys_distinct :
    (c.policies.manifests.map Resource.key ++ c.cilium.map Resource.key).Nodup ∧
      ((c.policies.manifests.map Resource.key ++ c.cilium.map Resource.key).map
        ResourceKey.text).Nodup := by
  have distinct := c.nodup_origins
  rw [keys_manifests, keys_cilium, ← List.map_append, List.map_map]
  exact ⟨distinct.map (Origin.key_injective _), distinct.map (Origin.text_injective _)⟩

end Compilation

end TrafficIntent
