import TrafficIntent.Proofs.CiliumAdmission
import TrafficIntent.Proofs.ConnectionTable
import TrafficIntent.Proofs.KeyOrder

namespace TrafficIntent

namespace ObjectMeta

variable (m : ObjectMeta)

theorem annotate_comm {k l : String} (other : k ≠ l) (v w : String) :
    (m.annotate k v).annotate l w = (m.annotate l w).annotate k v := by
  simp only [annotate, KeyMap.insert_comm other]

theorem label_annotate (k v l w : String) :
    (m.annotate k v).label l w = (m.label l w).annotate k v := rfl

theorem annotate_annotate (k v w : String) :
    (m.annotate k v).annotate k w = m.annotate k w := by
  simp only [annotate, KeyMap.insert_insert]

theorem withoutTimestamps_annotate (text : String) :
    (m.annotate generatedAtKey text).withoutTimestamps = m.withoutTimestamps := by
  simp only [withoutTimestamps, annotate, KeyMap.erase_insert]

end ObjectMeta

/-- The resource with a time at which it was generated, in place of the one that it has. -/
def Resource.stamped {α : Type} [Resource α] (t : Timestamp) (a : α) : α :=
  withMetadata a ((metadata a).annotate generatedAtKey t.text)

section

variable (t : Timestamp)

theorem NetworkPolicy.withoutTimestamps_stamped (p : NetworkPolicy) :
    Resource.withoutTimestamps (Resource.stamped t p) = Resource.withoutTimestamps p :=
  congrArg (fun m => { p with metadata := m }) (p.metadata.withoutTimestamps_annotate t.text)

theorem CiliumPolicy.withoutTimestamps_stamped (p : CiliumPolicy) :
    Resource.withoutTimestamps (Resource.stamped t p) = Resource.withoutTimestamps p :=
  congrArg (fun m => { p with metadata := m }) (p.metadata.withoutTimestamps_annotate t.text)

theorem NetworkPolicy.generatedAt_stamped (p : NetworkPolicy) :
    (Resource.stamped t p).metadata.annotations.get? generatedAtKey = some t.text :=
  (KeyMap.get?_insert _ _ _ _).trans (if_pos rfl)

theorem CiliumPolicy.generatedAt_stamped (p : CiliumPolicy) :
    (Resource.stamped t p).metadata.annotations.get? generatedAtKey = some t.text :=
  (KeyMap.get?_insert _ _ _ _).trans (if_pos rfl)

end

namespace Compilation

variable (c : Compilation) (t : Timestamp)

/-- The same intent, compiled at another time. -/
def regenerated : Compilation := { c with generatedAt := t }

theorem metadata_regenerated (name ns family description : String) :
    (c.regenerated t).metadata name ns family description =
      (c.metadata name ns family description).annotate generatedAtKey t.text := by
  have other : intentDescriptionKey ≠ generatedAtKey := by decide
  simp only [metadata, regenerated]
  cases c.intent.description with
  | none => simp only [ObjectMeta.annotate_annotate]
  | some text => simp only [ObjectMeta.annotate_comm _ other, ObjectMeta.annotate_annotate]

theorem baseline_regenerated (ns : String) :
    (c.regenerated t).baseline ns = Resource.stamped t (c.baseline ns) := by
  unfold baseline
  rw [metadata_regenerated]
  rfl

theorem policyOf_regenerated (d : Direction) (service : String) :
    (c.regenerated t).policyOf d service = Resource.stamped t (c.policyOf d service) := by
  have other : generatedAtKey ≠ d.partnersKey := by cases d <;> decide
  have metadata : ((c.regenerated t).policyOf d service).metadata =
      (c.policyOf d service).metadata.annotate generatedAtKey t.text := by
    rw [policyOf_metadata, policyOf_metadata, metadata_regenerated, ObjectMeta.label_annotate,
      ObjectMeta.label_annotate, ObjectMeta.annotate_comm _ other]
    rfl
  cases d <;> exact congrArg (fun m => NetworkPolicy.new m _) metadata

theorem ciliumTo_regenerated (target : String) :
    (c.regenerated t).ciliumTo target = Resource.stamped t (c.ciliumTo target) := by
  unfold ciliumTo ciliumPolicy
  rw [metadata_regenerated]
  rfl

theorem manifests_regenerated :
    (c.regenerated t).policies.manifests = c.policies.manifests.map (Resource.stamped t) := by
  have targets := (c.services Rule.target).map_congr_left fun target _ =>
    c.policyOf_regenerated t .ingress target
  have sources := (c.services Rule.source).map_congr_left fun source _ =>
    c.policyOf_regenerated t .egress source
  rw [manifests_eq, manifests_eq, List.map_append, List.map_cons, List.map_map, List.map_map]
  exact congrArg₂ _ (congrArg₂ _ (c.baseline_regenerated t c.intent.ns) targets) sources

theorem cilium_regenerated :
    (c.regenerated t).cilium = c.cilium.map (Resource.stamped t) := by
  rw [cilium_eq, cilium_eq, List.map_map]
  exact List.map_congr_left fun target _ => c.ciliumTo_regenerated t target

/-- What the description of an intent adds to the annotations of its policies. -/
def descriptionEntries : List (String × String) :=
  c.intent.description.toList.map fun text => (intentDescriptionKey, text)

theorem metadata_labels (name ns family description : String) :
    (c.metadata name ns family description).labels.entries =
      [(managedByLabel, managerName), (policyTypeLabel, family)] := by
  unfold metadata
  cases c.intent.description <;> rfl

theorem metadata_annotations (name ns family description : String) :
    (c.metadata name ns family description).annotations.entries =
      (descriptionKey, description) :: (generatedAtKey, c.generatedAt.text) ::
        c.descriptionEntries := by
  have first : descriptionKey < generatedAtKey := by decide
  have second : generatedAtKey < intentDescriptionKey := by decide
  have stamped : putEntry generatedAtKey c.generatedAt.text [(descriptionKey, description)] =
      [(descriptionKey, description), (generatedAtKey, c.generatedAt.text)] :=
    putEntry_cons_of_gt first
  unfold metadata descriptionEntries
  cases c.intent.description with
  | none => exact stamped
  | some text =>
    refine (congrArg (putEntry intentDescriptionKey text) stamped).trans ?_
    rw [putEntry_cons_of_gt (String.lt_trans first second), putEntry_cons_of_gt second]
    rfl

/-- The labels for a service come around that for the kind of policy. -/
theorem label_entries {serviceKey : String} (later : policyTypeLabel < serviceKey)
    (name ns family description service : String) :
    (((c.metadata name ns family description).label serviceKey service).label intentLabel
        c.intent.name).labels.entries =
      [(managedByLabel, managerName), (intentLabel, c.intent.name), (policyTypeLabel, family),
        (serviceKey, service)] := by
  have first : managedByLabel < intentLabel := by decide
  have second : intentLabel < policyTypeLabel := by decide
  have sorted : ∀ e ∈ [(managedByLabel, managerName), (policyTypeLabel, family)],
      e.1 < serviceKey :=
    List.forall_mem_cons.2 ⟨String.lt_trans (String.lt_trans first second) later,
      List.forall_mem_singleton.2 later⟩
  show putEntry intentLabel c.intent.name (putEntry serviceKey service
    (c.metadata name ns family description).labels.entries) = _
  rw [metadata_labels, putEntry_of_lt sorted]
  exact (putEntry_cons_of_gt first).trans (congrArg _ (putEntry_cons_of_lt second))

theorem policyOf_labels (d : Direction) (service : String) :
    (c.policyOf d service).metadata.labels.entries =
      [(managedByLabel, managerName), (intentLabel, c.intent.name), (policyTypeLabel, d.family),
        (d.serviceKey, service)] := by
  have later : policyTypeLabel < d.serviceKey := by cases d <;> decide
  rw [policyOf_metadata]
  exact c.label_entries later _ _ _ _ _

theorem policyOf_annotations (d : Direction) (service : String) :
    (c.policyOf d service).metadata.annotations.entries =
      (d.partnersKey, ",".intercalate (c.partners d service)) ::
        (descriptionKey, d.purpose ++ service) ::
        (generatedAtKey, c.generatedAt.text) :: c.descriptionEntries := by
  have first : d.partnersKey < descriptionKey := by cases d <;> decide
  rw [policyOf_metadata]
  show putEntry d.partnersKey _ (c.metadata _ _ _ _).annotations.entries = _
  rw [metadata_annotations, putEntry_cons_of_lt first]

/-- Two compilations of an intent differ in the value of one annotation. It is the same in all
policies of one compilation, and the other labels and annotations are those of the policy's family,
each with its own value. -/
theorem only_timestamps_vary (i : Intent) (t u : Timestamp) :
    let c : Compilation := ⟨i, t⟩
    let d : Compilation := ⟨i, u⟩
    let said (m : ObjectMeta) := (m.labels.entries, m.annotations.entries)
    let common (description : String) :=
      (descriptionKey, description) :: (generatedAtKey, t.text) ::
        i.description.toList.map fun text => (intentDescriptionKey, text)
    (d.policies.manifests.map Resource.withoutTimestamps =
        c.policies.manifests.map Resource.withoutTimestamps ∧
      d.cilium.map Resource.withoutTimestamps = c.cilium.map Resource.withoutTimestamps) ∧
    (d.policies.manifests = c.policies.manifests.map (Resource.stamped u) ∧
      d.cilium = c.cilium.map (Resource.stamped u)) ∧
    ((∀ p ∈ c.policies.manifests, p.metadata.annotations.get? generatedAtKey = some t.text) ∧
      ∀ p ∈ c.cilium, p.metadata.annotations.get? generatedAtKey = some t.text) ∧
    (c.policies.manifests.map fun p => said p.metadata) =
      ([(managedByLabel, managerName), (policyTypeLabel, "default-deny")],
        common "Default deny all ingress and egress traffic") ::
      ((c.services Rule.target).map fun target =>
        ([(managedByLabel, managerName), (intentLabel, i.name), (policyTypeLabel, "ingress"),
            (targetServiceLabel, target)],
          (allowedSourcesKey, ",".intercalate (c.partners .ingress target)) ::
            common ("Allow ingress traffic to " ++ target))) ++
      ((c.services Rule.source).map fun source =>
        ([(managedByLabel, managerName), (intentLabel, i.name), (policyTypeLabel, "egress"),
            (sourceServiceLabel, source)],
          (allowedDestinationsKey, ",".intercalate (c.partners .egress source)) ::
            common ("Allow egress traffic from " ++ source))) ∧
    (c.cilium.map fun p => said p.metadata) = (c.services Rule.target).map fun target =>
      ([(managedByLabel, managerName), (intentLabel, i.name), (policyTypeLabel, "l7-ingress"),
          (targetServiceLabel, target)],
        common ("Allow L7-filtered ingress traffic to " ++ target)) := by
  intro c d said common
  have manifests : d.policies.manifests = c.policies.manifests.map (Resource.stamped u) :=
    c.manifests_regenerated u
  have cilium : d.cilium = c.cilium.map (Resource.stamped u) := c.cilium_regenerated u
  refine ⟨⟨?_, ?_⟩, ⟨manifests, cilium⟩, ⟨?_, ?_⟩, ?_, ?_⟩
  · rw [manifests, List.map_map]
    exact List.map_congr_left fun p _ => p.withoutTimestamps_stamped u
  · rw [cilium, List.map_map]
    exact List.map_congr_left fun p _ => p.withoutTimestamps_stamped u
  · -- A compilation is its own regeneration, so each of its policies has been stamped.
    rw [show c.policies.manifests = _ from c.manifests_regenerated t]
    intro p hp
    obtain ⟨q, _, rfl⟩ := List.mem_map.1 hp
    exact q.generatedAt_stamped t
  · rw [show c.cilium = _ from c.cilium_regenerated t]
    intro p hp
    obtain ⟨q, _, rfl⟩ := List.mem_map.1 hp
    exact q.generatedAt_stamped t
  · have baseline : said (c.baseline i.ns).metadata = _ :=
      congrArg₂ Prod.mk (c.metadata_labels _ _ _ _) (c.metadata_annotations _ _ _ _)
    rw [manifests_eq, List.map_append, List.map_cons, List.map_map, List.map_map]
    refine congrArg₂ _ (congrArg₂ _ baseline ?_) ?_
    · exact List.map_congr_left fun target _ =>
        congrArg₂ Prod.mk (c.policyOf_labels .ingress target)
          (c.policyOf_annotations .ingress target)
    · exact List.map_congr_left fun source _ =>
        congrArg₂ Prod.mk (c.policyOf_labels .egress source)
          (c.policyOf_annotations .egress source)
  · rw [cilium_eq, List.map_map]
    exact List.map_congr_left fun target _ =>
      congrArg₂ Prod.mk (c.label_entries (by decide) _ _ _ _ target)
        (c.metadata_annotations _ _ _ _)

end Compilation

end TrafficIntent
