import TrafficIntent.Proofs.Conversion
import TrafficIntent.Proofs.NarrowEntries

/-!
Namespaces that cannot be seen. A rule's namespace counts as missing if it is blank, and so no peer
is ever in a blank namespace. A document's own counts as missing only if it is empty: one of white
space is taken as it is, and all policies are in it.
-/

namespace TrafficIntent

/-- Some character of the text is not white space. -/
def Visible (text : String) : Prop := ∃ c ∈ text.toList, Text.isSpace c = false

/-- Whether a policy selects peers by the name of their namespace. -/
def NetworkPolicy.MentionsNamespace (p : NetworkPolicy) (ns : String) : Prop :=
  ∃ e ∈ p.spec.ingress ++ p.spec.egress, ∃ peer ∈ e.peers, ∃ s ∈ peer.namespaceSelector,
    ∃ label ∈ s.matchLabels.entries, label.2 = ns

/-- Whether Cilium's policy selects pods by the name of their namespace. -/
def CiliumPolicy.MentionsNamespace (p : CiliumPolicy) (ns : String) : Prop :=
  ∃ s ∈ p.spec.endpointSelector :: p.spec.ingress.flatMap CiliumEntry.fromEndpoints,
    s.label? ciliumNamespaceLabel = some ns

/-- Whether a set of policies is in a namespace that can be seen, and no peer is in another. -/
structure Compilation.NamespacesVisible (c : Compilation) : Prop where
  manifests : ∀ p ∈ c.policies.manifests,
    Visible p.metadata.ns ∧ ∀ ns, p.MentionsNamespace ns → Visible ns
  cilium : ∀ p ∈ c.cilium, Visible p.metadata.ns ∧ ∀ ns, p.MentionsNamespace ns → Visible ns

/-- The rule without its namespace if that is blank. -/
def RuleDocument.withoutBlank (r : RuleDocument) : RuleDocument :=
  { r with ns := r.ns.filter fun ns => !Text.isBlank ns }

/-- The document without its namespace if that is empty, and without the blank ones of its rules. -/
def IntentDocument.withoutBlank (d : IntentDocument) : IntentDocument :=
  { d with
    ns := d.ns.filter fun ns => !ns.isEmpty
    rules := d.rules.map (List.map RuleDocument.withoutBlank) }

namespace RuleDocument

variable (r : RuleDocument)

/-- The rule of a document comes out of the steps that the document gives. -/
theorem toRule?_eq : r.toRule? = do
    let source ← present? r.source
    let target ← present? r.target
    return .build source target r.steps := by
  unfold toRule? steps
  cases r.ns <;> cases r.l7 <;> rfl

theorem toRule?_withoutBlank : r.withoutBlank.toRule? = r.toRule? := by
  have built (source target : String) :
      Rule.build source target r.withoutBlank.steps = Rule.build source target r.steps := by
    simp only [build_steps, withoutBlank, Option.filter_filter, Bool.and_self]
  simp only [toRule?_eq, built]
  rfl

theorem isBuilt_of_toRule? {rule : Rule} (made : r.toRule? = some rule) : rule.IsBuilt := by
  rw [toRule?_eq] at made
  obtain ⟨source, -, made⟩ := Option.bind_eq_some_iff.1 made
  obtain ⟨target, -, made⟩ := Option.bind_eq_some_iff.1 made
  exact ⟨source, target, r.steps, (Option.some.inj made).symm⟩

end RuleDocument

theorem nonEmptyOr_eq (fallback : String) (text : Option String) :
    nonEmptyOr fallback text = (text.filter fun s => !s.isEmpty).getD fallback := by
  cases text with
  | none => rfl
  | some s => cases empty : s.isEmpty <;> simp [nonEmptyOr, Option.filter, empty]

namespace IntentDocument

variable {d : IntentDocument} {intent : Intent}

/-- The conversion, part by part. -/
theorem toIntent_eq (d : IntentDocument) : d.toIntent =
    if d.validate.isValid = true then .ok {
      name := nonEmptyOr defaultIntentName d.name
      ns := (d.ns.filter fun ns => !ns.isEmpty).getD defaultNamespace
      description := d.description.filter fun text => !text.isEmpty
      rules := (d.rules.getD []).filterMap RuleDocument.toRule? }
    else .error d.validate.problems := by
  unfold toIntent
  rw [← nonEmptyOr_eq]
  cases valid : d.validate.isValid with
  | false => simp [valid]
  | true =>
    cases d.description with
    | none => simp [valid, Intent.new]
    | some text =>
      cases empty : text.isEmpty <;>
        simp [valid, Intent.new, Intent.withDescription, Option.filter, empty]

theorem validate_withoutBlank : d.withoutBlank.validate = d.validate := by
  unfold validate withoutBlank
  cases d.rules with
  | none => rfl
  | some rules =>
    cases rules with
    | nil => rfl
    | cons r rs =>
      have places : (List.map RuleDocument.withoutBlank (r :: rs)).zipIdx =
          (r :: rs).zipIdx.map (Prod.map RuleDocument.withoutBlank id) := List.zipIdx_map ..
      rw [List.map_cons] at places
      simp only [Option.map_some, List.map_cons, places, List.flatMap_map]
      rfl

/-- Namespaces that count as missing might as well be left out. -/
theorem toIntent_withoutBlank : d.withoutBlank.toIntent = d.toIntent := by
  have ns : d.withoutBlank.ns.filter (fun ns => !ns.isEmpty) = d.ns.filter fun ns => !ns.isEmpty := by
    simp only [withoutBlank, Option.filter_filter, Bool.and_self]
  have rules : (d.withoutBlank.rules.getD []).filterMap RuleDocument.toRule? =
      (d.rules.getD []).filterMap RuleDocument.toRule? := by
    unfold withoutBlank
    cases d.rules with
    | none => rfl
    | some rules =>
      simp only [Option.map_some, Option.getD_some, List.filterMap_map]
      exact congrArg (List.filterMap · rules) (funext RuleDocument.toRule?_withoutBlank)
  rw [toIntent_eq, toIntent_eq, validate_withoutBlank, ns, rules]
  rfl

/-- The namespace of an intent is that of its document, and its rules come out of steps. -/
theorem parts_of_toIntent (made : d.toIntent = .ok intent) :
    intent.ns = (d.ns.filter fun ns => !ns.isEmpty).getD defaultNamespace ∧
      ∀ r ∈ intent.rules, r.IsBuilt := by
  rw [toIntent_eq] at made
  split at made
  · obtain rfl := Except.ok.inj made
    refine ⟨rfl, ?_⟩
    intro r hr
    obtain ⟨described, -, made⟩ := List.mem_filterMap.1 hr
    exact described.isBuilt_of_toRule? made
  · contradiction

end IntentDocument

theorem Rule.Normal.visible_nsOr {r : Rule} (normal : r.Normal) {intentNs : String}
    (foreign : r.nsOr intentNs ≠ intentNs) : Visible (r.nsOr intentNs) := by
  cases given : r.ns with
  | none => simp [Rule.nsOr, given] at foreign
  | some ns =>
    have own : r.nsOr intentNs = ns := by simp [Rule.nsOr, given]
    rw [own]
    exact isBlank_eq_false.1 (normal.ns ns given)

namespace Compilation

variable {c : Compilation} (built : ∀ r ∈ c.intent.rules, r.IsBuilt)
include built

/-- A namespace is named in an entry only if it is a rule's own. -/
theorem visible_of_mem_entries {d : Direction} {service : String} {e : PolicyEntry}
    (he : e ∈ c.entriesWith d service) {peer : PolicyPeer} (hpeer : peer ∈ e.peers)
    {s : LabelSelector} (hs : s ∈ peer.namespaceSelector) {label : String × String}
    (hlabel : label ∈ s.matchLabels.entries) : Visible label.2 := by
  obtain ⟨⟨other, ns⟩, named, rfl⟩ := List.mem_map.1 he
  obtain rfl := List.mem_singleton.1 hpeer
  by_cases own : ns = c.intent.ns
  · simp [own] at hs
  · simp only [if_neg own, Option.mem_some_iff] at hs
    rw [← hs] at hlabel
    obtain rfl := List.mem_singleton.1 hlabel
    obtain ⟨r, between⟩ := List.exists_mem_of_ne_nil _ (c.mem_counterparts.1 named)
    obtain ⟨hr, -, -, rfl⟩ := c.mem_rulesWith.1 between
    exact (built r hr).normal.visible_nsOr own

theorem visible_of_mentions {p : NetworkPolicy} (hp : p ∈ c.policies.manifests) {ns : String}
    (mentioned : p.MentionsNamespace ns) : Visible ns := by
  obtain ⟨e, he, peer, hpeer, s, hs, label, hlabel, rfl⟩ := mentioned
  rcases c.mem_manifests.1 hp with rfl | ⟨d, service, -, rfl⟩
  · contradiction
  · rw [ingress_append_egress] at he
    cases List.mem_append.1 he with
    | inl own => exact visible_of_mem_entries built own hpeer hs hlabel
    | inr standing =>
      rw [peers_of_mem_standing standing] at hpeer
      contradiction

theorem visible_of_cilium_mentions {p : CiliumPolicy} (hp : p ∈ c.cilium) {ns : String}
    (mentioned : p.MentionsNamespace ns) : Visible ns := by
  rw [cilium_eq] at hp
  obtain ⟨target, -, rfl⟩ := List.mem_map.1 hp
  obtain ⟨s, hs, label⟩ := mentioned
  have other : ciliumNamespaceLabel ≠ serviceLabel := by decide
  cases List.mem_cons.1 hs with
  | inl own =>
    rw [own, ciliumTo_selector] at label
    simp [LabelSelector.label?, LabelSelector.single, KeyMap.singleton, KeyMap.get?_insert,
      other] at label
  | inr listed =>
    obtain ⟨e, he, hs⟩ := List.mem_flatMap.1 listed
    rw [ciliumTo_entries] at he
    obtain ⟨r, hr, rfl⟩ := List.mem_map.1 he
    rw [ciliumEntry_eq] at hs
    obtain rfl := List.mem_singleton.1 hs
    rw [label?_toEndpointSelector_namespace, sourcePeer, Peer.resolve] at label
    split at label
    next => contradiction
    next foreign =>
      rw [← Option.some.inj label]
      exact (built r (c.mem_rulesAt.1 hr).1).normal.visible_nsOr foreign

omit built in
/-- All policies are in the namespace of the intent. -/
theorem ns_of_mem_manifests {p : NetworkPolicy} (hp : p ∈ c.policies.manifests) :
    p.metadata.ns = c.intent.ns := by
  rcases c.mem_manifests.1 hp with rfl | ⟨d, service, -, rfl⟩ <;> simp

omit built in
theorem ns_of_mem_cilium {p : CiliumPolicy} (hp : p ∈ c.cilium) :
    p.metadata.ns = c.intent.ns := by
  rw [cilium_eq] at hp
  obtain ⟨target, -, rfl⟩ := List.mem_map.1 hp
  exact c.ciliumTo_ns target

/-- It is the intent's own namespace that decides. -/
theorem namespacesVisible_iff : c.NamespacesVisible ↔ Visible c.intent.ns := by
  constructor
  · intro visible
    have baseline := (visible.manifests _ (c.mem_manifests.2 (.inl rfl))).1
    rwa [baseline_ns] at baseline
  · intro own
    constructor
    · intro p hp
      rw [ns_of_mem_manifests hp]
      exact ⟨own, fun ns mentioned => visible_of_mentions built hp mentioned⟩
    · intro p hp
      rw [ns_of_mem_cilium hp]
      exact ⟨own, fun ns mentioned => visible_of_cilium_mentions built hp mentioned⟩

end Compilation

/-- The default can be seen, so only a text that is given and not empty needs to be. -/
theorem visible_getD_iff (given : Option String) :
    Visible ((given.filter fun ns => !ns.isEmpty).getD defaultNamespace) ↔
      ∀ ns ∈ given, ns ≠ "" → Visible ns := by
  have default : Visible defaultNamespace := ⟨'d', by decide, by decide⟩
  cases given with
  | none => simpa using default
  | some ns =>
    by_cases empty : ns = ""
    · subst empty
      have none : (some "").filter (fun ns : String => !ns.isEmpty) = none := by decide
      rw [none]
      simpa using default
    · simp [Option.filter, empty]

/-- The policies for a document are in a namespace that can be seen, with all their peers, exactly
if the document's namespace is missing, empty or can be seen. That of a peer can be seen always, and
a blank one of a rule is as good as a missing one. -/
theorem namespaces_visible_iff {d : IntentDocument} {intent : Intent}
    (made : d.toIntent = .ok intent) (generatedAt : Timestamp) :
    let c : Compilation := ⟨intent, generatedAt⟩
    (c.NamespacesVisible ↔ ∀ ns ∈ d.ns, ns ≠ "" → Visible ns) ∧
    (∀ p ∈ c.policies.manifests,
      p.metadata.ns = intent.ns ∧ ∀ ns, p.MentionsNamespace ns → Visible ns) ∧
    (∀ p ∈ c.cilium, p.metadata.ns = intent.ns ∧ ∀ ns, p.MentionsNamespace ns → Visible ns) ∧
    d.withoutBlank.toIntent = .ok intent := by
  intro c
  obtain ⟨own, built⟩ := IntentDocument.parts_of_toIntent made
  refine ⟨?_, ?_, ?_, ?_⟩
  · rw [Compilation.namespacesVisible_iff built, own]
    exact visible_getD_iff d.ns
  · intro p hp
    exact ⟨Compilation.ns_of_mem_manifests hp, fun ns mentioned =>
      Compilation.visible_of_mentions built hp mentioned⟩
  · intro p hp
    exact ⟨Compilation.ns_of_mem_cilium hp, fun ns mentioned =>
      Compilation.visible_of_cilium_mentions built hp mentioned⟩
  · rw [IntentDocument.toIntent_withoutBlank, made]

/-- A document without a namespace of its own, with a rule for a blank and one for another. -/
def sparseNamespaces : IntentDocument where
  name := none
  ns := some ""
  description := none
  rules := some [
    { RuleDocument.blank with source := some "web", target := some "api", ns := some " \t" },
    { RuleDocument.blank with source := some "probe", target := some "api", ns := some "ops" }]

theorem namespaces_visible_iff_sparseNamespaces :
    ∃ intent, sparseNamespaces.toIntent = .ok intent ∧
      (⟨intent, .epoch⟩ : Compilation).NamespacesVisible ∧
      (intent.rules.map fun r => r.nsOr intent.ns) = ["default", "ops"] := by
  let intent : Intent := .new "generated" "default" [
    .new "web" "api", (Rule.new "probe" "api").inNamespace "ops"]
  have made : sparseNamespaces.toIntent = .ok intent := by decide
  obtain ⟨visible, -⟩ := namespaces_visible_iff made .epoch
  refine ⟨intent, made, visible.2 ?_, by decide⟩
  intro ns given some
  exact absurd (Option.some.inj given).symm some

/-- A document whose namespace is a space. -/
def blankNamespace : IntentDocument := { IntentDocument.blank with ns := some " ", rules := some [] }

/-- The space is the namespace of the policies. -/
theorem blank_namespace_kept :
    ∃ intent, blankNamespace.toIntent = .ok intent ∧
      ∃ p ∈ (⟨intent, .epoch⟩ : Compilation).policies.manifests,
        p.metadata.ns = " " ∧ ¬Visible p.metadata.ns := by
  refine ⟨.new "generated" " " [], by decide, _, List.mem_cons_self, ?_⟩
  rw [Compilation.baseline_ns]
  refine ⟨rfl, ?_⟩
  intro visible
  have blank : Text.isBlank " " = false := isBlank_eq_false.2 visible
  contradiction

end TrafficIntent
