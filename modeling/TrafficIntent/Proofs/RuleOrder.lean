import Mathlib.Data.List.Rotate
import TrafficIntent.Proofs.ConnectionTable
import TrafficIntent.Proofs.ResourceKeys

namespace TrafficIntent

theorem perm_eraseDups {α : Type} [BEq α] [LawfulBEq α] {xs ys : List α} (h : xs.Perm ys) :
    xs.eraseDups.Perm ys.eraseDups := by
  refine (List.perm_ext_iff_of_nodup (nodup_eraseDups xs) (nodup_eraseDups ys)).2 fun a => ?_
  rw [List.mem_eraseDups, List.mem_eraseDups, h.mem_iff]

/-- All ports on both sides, or the same ports listed. -/
def SamePorts : Option (List PolicyPort) → Option (List PolicyPort) → Prop
  | none, none => True
  | some ps, some qs => ∀ p, p ∈ ps ↔ p ∈ qs
  | _, _ => False

/-- A union stops at the first rule for all ports, but whether there is one is a matter of the whole
group. -/
theorem samePorts_unionPorts {rs ss : List Rule} (h : rs.Perm ss) :
    SamePorts (unionPorts rs) (unionPorts ss) := by
  by_cases bare : rs = []
  · subst bare
    rw [List.nil_perm.1 h]
    trivial
  · have other : ss ≠ [] := fun none => bare (List.perm_nil.1 (none ▸ h))
    have all : unionPorts rs = none ↔ unionPorts ss = none := by
      simp only [unionPorts_eq_none bare, unionPorts_eq_none other, h.mem_iff]
    cases hr : unionPorts rs with
    | none =>
      rw [all.1 hr]
      trivial
    | some ps =>
      cases hs : unionPorts ss with
      | none => simp [all.2 hs] at hr
      | some qs =>
        intro p
        simp only [mem_unionPorts hr, mem_unionPorts hs, h.mem_iff]

/-- Entries that name the same peers, each with the same ports. -/
structure AlikeEntries (es fs : List PolicyEntry) : Prop where
  peers : ∀ peer, (∃ e ∈ es, peer ∈ e.peers) ↔ ∃ f ∈ fs, peer ∈ f.peers
  ports : ∀ e ∈ es, ∀ f ∈ fs, ∀ peer ∈ e.peers, peer ∈ f.peers → SamePorts e.ports f.ports

namespace AlikeEntries

theorem nil : AlikeEntries [] [] := ⟨by simp, by simp⟩

/-- Entries without peers make no difference. -/
theorem append {es fs : List PolicyEntry} (h : AlikeEntries es fs) {bare : List PolicyEntry}
    (none : ∀ e ∈ bare, e.peers = []) : AlikeEntries (es ++ bare) (fs ++ bare) := by
  have named {es : List PolicyEntry} {e : PolicyEntry} {peer : PolicyPeer} (hp : peer ∈ e.peers) :
      e ∈ es ++ bare ↔ e ∈ es := by
    refine ⟨fun he => (List.mem_append.1 he).resolve_right fun last => ?_, List.mem_append_left _⟩
    rw [none e last] at hp
    contradiction
  refine ⟨fun peer => ?_, fun e he f hf peer hpe hpf => ?_⟩
  · simpa only [and_congr_left_iff.2 named] using h.peers peer
  · exact h.ports e ((named hpe).1 he) f ((named hpf).1 hf) peer hpe hpf

end AlikeEntries

theorem ObjectMeta.get?_annotate (m : ObjectMeta) {k l : String} (other : l ≠ k) (v : String) :
    (m.annotate k v).annotations.get? l = m.annotations.get? l :=
  (KeyMap.get?_insert _ _ _ _).trans (if_neg other)

/-- What an annotation says makes no difference to the others. -/
theorem ObjectMeta.get?_of_annotated (m : ObjectMeta) {keys : List String} {k : String}
    (others : ∀ key ∈ keys, key ≠ k) (v w : String) (key : String) (text : key ∈ keys) :
    (m.annotate k v).annotations.get? key = (m.annotate k w).annotations.get? key :=
  (m.get?_annotate (others key text) v).trans (m.get?_annotate (others key text) w).symm

/-- Policies that differ in the order of what they list. -/
structure NetworkPolicy.Alike (p q : NetworkPolicy) : Prop where
  labels : p.metadata.labels = q.metadata.labels
  podSelector : p.spec.podSelector = q.spec.podSelector
  policyTypes : p.spec.policyTypes = q.spec.policyTypes
  texts : ∀ key ∈ [descriptionKey, intentDescriptionKey, generatedAtKey],
    p.metadata.annotations.get? key = q.metadata.annotations.get? key
  ingress : AlikeEntries p.spec.ingress q.spec.ingress
  egress : AlikeEntries p.spec.egress q.spec.egress

structure CiliumPolicy.Alike (p q : CiliumPolicy) : Prop where
  metadata : p.metadata = q.metadata
  endpointSelector : p.spec.endpointSelector = q.spec.endpointSelector
  ingress : p.spec.ingress.Perm q.spec.ingress

namespace Compilation

variable (c : Compilation)

theorem alikeEntries_entryFor {qs rs : List (String × String)} (same : qs.Perm rs)
    {between other : String × String → List Rule} (perm : ∀ q, (between q).Perm (other q)) :
    AlikeEntries (qs.map fun q => c.entryFor q.1 q.2 (between q))
      (rs.map fun q => c.entryFor q.1 q.2 (other q)) := by
  have peer_mem {peer : PolicyPeer} {q : String × String} {rules : List Rule} :
      peer ∈ (c.entryFor q.1 q.2 rules).peers ↔ peer = c.peer q.1 q.2 := by
    rw [entryFor_eq, List.mem_singleton]
    rfl
  refine ⟨fun peer => ?_, fun e he f hf peer hpe hpf => ?_⟩
  · simp only [List.mem_map, exists_exists_and_eq_and, peer_mem, same.mem_iff]
  · obtain ⟨q, _, rfl⟩ := List.mem_map.1 he
    obtain ⟨r, _, rfl⟩ := List.mem_map.1 hf
    obtain ⟨service, ns⟩ := c.peer_inj.1 ((peer_mem.1 hpe).symm.trans (peer_mem.1 hpf))
    rw [Prod.ext service ns]
    exact samePorts_unionPorts (perm r)

section

variable {c} {rules : List Rule} (perm : c.intent.rules.Perm rules)
include perm

theorem perm_services (ends : Rule → String) :
    (c.services ends).Perm ((c.withRules rules).services ends) :=
  perm_eraseDups (perm.map ends)

theorem perm_counterparts (d : Direction) (service : String) :
    (c.counterparts d service).Perm ((c.withRules rules).counterparts d service) :=
  perm_eraseDups ((perm.filter _).map _)

theorem perm_partners (d : Direction) (service : String) :
    (c.partners d service).Perm ((c.withRules rules).partners d service) :=
  perm_eraseDups ((perm.filter _).map _)

theorem perm_rulesBetween (source target ns : String) :
    (c.rulesBetween source target ns).Perm ((c.withRules rules).rulesBetween source target ns) :=
  perm.filter _

theorem perm_keys_manifests : (c.policies.manifests.map Resource.key).Perm
    ((c.withRules rules).policies.manifests.map Resource.key) := by
  have targets := (perm_services perm Rule.target).map Origin.ingress
  have sources := (perm_services perm Rule.source).map Origin.egress
  rw [keys_manifests, keys_manifests]
  exact ((targets.cons Origin.baseline).append sources).map _

theorem perm_keys_cilium : (c.cilium.map Resource.key).Perm
    ((c.withRules rules).cilium.map Resource.key) := by
  rw [keys_cilium, keys_cilium]
  exact ((perm_services perm Rule.target).map Origin.cilium).map _

theorem perm_rulesWith (d : Direction) (service other ns : String) :
    (c.rulesWith d service other ns).Perm ((c.withRules rules).rulesWith d service other ns) := by
  cases d with
  | ingress => exact perm_rulesBetween perm other service ns
  | egress => exact perm_rulesBetween perm service other ns

theorem alikeEntries_entriesWith (d : Direction) (service : String) :
    AlikeEntries (c.entriesWith d service) ((c.withRules rules).entriesWith d service) :=
  c.alikeEntries_entryFor (perm_counterparts perm d service) fun q =>
    perm_rulesWith perm d service q.1 q.2

theorem alikeEntries_policyOf (d e : Direction) (service : String) :
    AlikeEntries ((c.policyOf d service).entries e)
      (((c.withRules rules).policyOf d service).entries e) := by
  by_cases same : d = e
  · subst same
    rw [entries_policyOf, entries_policyOf]
    exact (alikeEntries_entriesWith perm d service).append d.standing_peers
  · rw [entries_policyOf_other c same, entries_policyOf_other (c.withRules rules) same]
    exact .nil

theorem alike_policyOf (d : Direction) (service : String) :
    (c.policyOf d service).Alike ((c.withRules rules).policyOf d service) where
  labels := by rw [policyOf_metadata, policyOf_metadata]; rfl
  podSelector := by rw [policyOf_selector, policyOf_selector]
  policyTypes := by cases d <;> rfl
  texts key text := by
    have others : ∀ key ∈ [descriptionKey, intentDescriptionKey, generatedAtKey],
        key ≠ d.partnersKey := by cases d <;> decide
    rw [policyOf_metadata, policyOf_metadata]
    exact ObjectMeta.get?_of_annotated _ others _ _ key text
  ingress := alikeEntries_policyOf perm d .ingress service
  egress := alikeEntries_policyOf perm d .egress service

omit perm in
theorem alike_baseline :
    (c.baseline c.intent.ns).Alike ((c.withRules rules).baseline c.intent.ns) where
  labels := rfl
  podSelector := rfl
  policyTypes := rfl
  texts _ _ := rfl
  ingress := .nil
  egress := .nil

theorem alike_ciliumTo (target : String) :
    (c.ciliumTo target).Alike ((c.withRules rules).ciliumTo target) where
  metadata := rfl
  endpointSelector := rfl
  ingress := (perm.filter _).map _

end

theorem eq_baseline {p : NetworkPolicy} (hp : p ∈ c.policies.manifests)
    (hn : p.metadata.name = baselineName) : p = c.baseline c.intent.ns := by
  rcases c.mem_manifests.1 hp with rfl | ⟨d, service, _, rfl⟩
  · rfl
  · rw [policyOf_name] at hn
    exact absurd hn (d.policyName_ne_baselineName service)

theorem alike_manifests {rules : List Rule} (perm : c.intent.rules.Perm rules) {p q : NetworkPolicy}
    (hp : p ∈ c.policies.manifests) (hq : q ∈ (c.withRules rules).policies.manifests)
    (same : Resource.key p = Resource.key q) : p.Alike q := by
  have names : q.metadata.name = p.metadata.name := congrArg ResourceKey.name same.symm
  rcases c.mem_manifests.1 hp with rfl | ⟨d, service, _, rfl⟩
  · rw [eq_baseline _ hq (names.trans (c.baseline_name _))]
    exact alike_baseline
  · rw [eq_policyOf _ hq (names.trans (c.policyOf_name d service))]
    exact alike_policyOf perm d service

theorem alike_cilium {rules : List Rule} (perm : c.intent.rules.Perm rules) {p q : CiliumPolicy}
    (hp : p ∈ c.cilium) (hq : q ∈ (c.withRules rules).cilium)
    (same : Resource.key p = Resource.key q) : p.Alike q := by
  have names : p.metadata.name = q.metadata.name := congrArg ResourceKey.name same
  rw [cilium_eq] at hp hq
  obtain ⟨t, _, rfl⟩ := List.mem_map.1 hp
  obtain ⟨u, _, rfl⟩ := List.mem_map.1 hq
  rw [ciliumTo_name, ciliumTo_name] at names
  rw [ciliumName_injective names]
  exact alike_ciliumTo perm u

theorem getLast?_egress : ∀ p ∈ c.policies.egress, p.spec.egress.getLast? = some dnsEntry := by
  intro p hp
  rw [policies, egress_eq] at hp
  obtain ⟨source, _, rfl⟩ := List.mem_map.1 hp
  rw [policyFrom_spec, List.getLast?_concat]

/-- The annotations of a policy join the services on its other side. -/
theorem joined_partners {p : NetworkPolicy} (hp : p ∈ c.policies.manifests) :
    (∀ target, p.metadata.name = ingressName target →
      p.metadata.annotations.get? allowedSourcesKey =
        some (",".intercalate (c.partners .ingress target))) ∧
    ∀ source, p.metadata.name = egressName source →
      p.metadata.annotations.get? allowedDestinationsKey =
        some (",".intercalate (c.partners .egress source)) := by
  refine ⟨fun target hn => ?_, fun source hn => ?_⟩
  · rw [c.eq_policyOf (d := .ingress) hp hn]
    exact c.policyOf_partners .ingress target
  · rw [c.eq_policyOf (d := .egress) hp hn]
    exact c.policyOf_partners .egress source

/-- Intents with the same rules in different orders have policies of the same keys, and policies of
the same key differ in the order of what they list. -/
theorem rule_order_only_orders (i j : Intent) (t : Timestamp) (name : i.name = j.name)
    (ns : i.ns = j.ns) (description : i.description = j.description)
    (perm : i.rules.Perm j.rules) :
    let c : Compilation := ⟨i, t⟩
    let d : Compilation := ⟨j, t⟩
    (c.policies.manifests.map Resource.key).Perm (d.policies.manifests.map Resource.key) ∧
    (c.cilium.map Resource.key).Perm (d.cilium.map Resource.key) ∧
    (∀ p ∈ c.policies.manifests, ∀ q ∈ d.policies.manifests,
      Resource.key p = Resource.key q → p.Alike q) ∧
    (∀ p ∈ c.cilium, ∀ q ∈ d.cilium, Resource.key p = Resource.key q → p.Alike q) ∧
    (∀ p ∈ c.policies.egress ++ d.policies.egress,
      p.spec.egress.getLast? = some ⟨[], some [⟨53, "UDP"⟩, ⟨53, "TCP"⟩]⟩) ∧
    (∀ b ∈ [c, d], ∀ p ∈ b.policies.manifests,
      (∀ target, p.metadata.name = ingressName target →
        p.metadata.annotations.get? allowedSourcesKey =
          some (",".intercalate (b.partners .ingress target))) ∧
      ∀ source, p.metadata.name = egressName source →
        p.metadata.annotations.get? allowedDestinationsKey =
          some (",".intercalate (b.partners .egress source))) ∧
    ∀ e service, (c.partners e service).Perm (d.partners e service) := by
  intro c d
  have same : d = c.withRules j.rules := by
    show (⟨j, t⟩ : Compilation) = ⟨⟨i.name, i.ns, i.description, j.rules⟩, t⟩
    rw [name, ns, description]
  refine ⟨?_, ?_, ?_, ?_, ?_, fun b _ p hp => b.joined_partners hp, ?_⟩
  · rw [same]
    exact perm_keys_manifests perm
  · rw [same]
    exact perm_keys_cilium perm
  · rw [same]
    exact fun p hp q hq => c.alike_manifests perm hp hq
  · rw [same]
    exact fun p hp q hq => c.alike_cilium perm hp hq
  · intro p hp
    exact (List.mem_append.1 hp).elim (c.getLast?_egress p) (d.getLast?_egress p)
  · rw [same]
    exact fun e service => perm_partners perm e service

end Compilation

/-- The first rule comes last: a peer, its port and the name of its service change their places. -/
theorem rule_order_only_orders_mixedRules :
    let d := mixedRules.withRules (mixedRules.intent.rules.rotate 1)
    mixedRules.intent.rules.Perm d.intent.rules ∧
      Resource.key (mixedRules.policyTo "api") = Resource.key (d.policyTo "api") ∧
      (mixedRules.policyTo "api").Alike (d.policyTo "api") ∧
      (mixedRules.entriesTo "api").map PolicyEntry.ports =
        [some [⟨8080, "TCP"⟩, ⟨9090, "TCP"⟩], some [⟨22, "TCP"⟩]] ∧
      (d.entriesTo "api").map PolicyEntry.ports =
        [some [⟨22, "TCP"⟩], some [⟨9090, "TCP"⟩, ⟨8080, "TCP"⟩]] ∧
      mixedRules.partners .ingress "api" = ["frontend", "admin"] ∧
      d.partners .ingress "api" = ["admin", "frontend"] := by
  intro d
  have perm : mixedRules.intent.rules.Perm d.intent.rules := (List.rotate_perm _ 1).symm
  have same : Resource.key (mixedRules.policyTo "api") = Resource.key (d.policyTo "api") :=
    congrArg₂ (ResourceKey.mk _)
      ((mixedRules.policyTo_ns "api").trans (d.policyTo_ns "api").symm)
      ((mixedRules.policyTo_name "api").trans (d.policyTo_name "api").symm)
  have hp : mixedRules.policyTo "api" ∈ mixedRules.policies.manifests :=
    mixedRules.policyOf_mem_manifests (d := .ingress) (by decide)
  have hq : d.policyTo "api" ∈ d.policies.manifests :=
    d.policyOf_mem_manifests (d := .ingress) (by decide)
  have order :=
    Compilation.rule_order_only_orders mixedRules.intent d.intent .epoch rfl rfl rfl perm
  exact ⟨perm, same, order.2.2.1 _ hp _ hq same, by decide, by decide, by decide, by decide⟩

end TrafficIntent
