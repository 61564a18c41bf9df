import TrafficIntent.Connections
import TrafficIntent.Proofs.Shape

namespace TrafficIntent

section

variable {α β : Type} [BEq α] [LawfulBEq α]

/-- Repetitions that come before a function leave no trace after it. -/
theorem eraseDups_map_eraseDups [BEq β] [LawfulBEq β] (f : α → β) (xs : List α) :
    (xs.eraseDups.map f).eraseDups = (xs.map f).eraseDups := by
  induction xs using List.reverseRecOn with
  | nil => rfl
  | append_singleton xs x ih =>
    rw [eraseDups_concat, List.map_append, List.map_singleton, eraseDups_concat]
    split
    next known =>
      have there : f x ∈ xs.map f := List.mem_map_of_mem known
      rw [if_pos there, ih]
    next =>
      have same : f x ∈ xs.eraseDups.map f ↔ f x ∈ xs.map f := by simp
      simp only [List.map_append, List.map_singleton, eraseDups_concat, same, ih]

/-- What blocks are for is seen in the order of the blocks, however long they are. -/
theorem eraseDups_flatMap_const (f : α → List β) (xs : List α) (some : ∀ x ∈ xs, f x ≠ []) :
    (xs.flatMap fun x => (f x).map fun _ => x).eraseDups = xs.eraseDups := by
  induction xs using List.reverseRecOn with
  | nil => rfl
  | append_singleton xs x ih =>
    have earlier : ∀ y ∈ xs, f y ≠ [] := fun y hy => some y (List.mem_append_left _ hy)
    obtain ⟨n, length⟩ : ∃ n, (f x).length = n + 1 :=
      Nat.exists_eq_add_one_of_ne_zero fun none => some x (by simp) (List.length_eq_zero_iff.1 none)
    have same : x ∈ (xs.flatMap fun y => (f y).map fun _ => y) ↔ x ∈ xs := by
      rw [← List.mem_eraseDups, ih earlier, List.mem_eraseDups]
    rw [List.flatMap_append, List.flatMap_singleton, List.map_const', length,
      eraseDups_append_replicate, eraseDups_concat, eraseDups_concat, ih earlier]
    simp only [same]

end

theorem label?_single (key value : String) :
    (LabelSelector.single key value).label? key = some value := by
  simp [LabelSelector.label?, LabelSelector.single, KeyMap.singleton, KeyMap.get?_insert]

theorem addNew_nil {α : Type} [DecidableEq α] (xs : List α) : addNew [] xs = xs.eraseDups := by
  induction xs using List.reverseRecOn with
  | nil => rfl
  | append_singleton xs x ih =>
    rw [addNew_append, ih, eraseDups_concat]
    simp [addNew]

namespace Connections

/-- Where no destination has two entries, the place of an entry is as good as its destination. -/
private theorem modify_findIdx? {es : List (String × List String)} {d : String} {i : Nat}
    (distinct : (es.map Prod.fst).Nodup) (h : es.findIdx? (fun e => e.1 == d) = some i)
    (f : String × List String → String × List String) :
    es.modify i f = es.map fun e => if e.1 = d then f e else e := by
  induction es generalizing i with
  | nil => simp at h
  | cons e es ih =>
    obtain ⟨new, distinct⟩ := List.nodup_cons.1 distinct
    rw [List.findIdx?_cons] at h
    by_cases same : e.1 = d
    · have first : i = 0 := by simpa [same, eq_comm] using h
      have others : es.map (fun e => if e.1 = d then f e else e) = es := by
        rw [List.map_congr_left (g := id), List.map_id]
        intro g hg
        have other : g.1 ≠ d := fun again => new (by rw [same, ← again]; exact List.mem_map_of_mem hg)
        simp [other]
      rw [first, List.map_cons, others, if_pos same]
      rfl
    · obtain ⟨j, hj, rfl⟩ : ∃ j, es.findIdx? (fun e => e.1 == d) = some j ∧ j + 1 = i := by
        simpa [same] using h
      rw [List.modify_succ_cons, ih distinct hj, List.map_cons, if_neg same]

theorem entries_insert_of_mem {t : Connections} {destination : String} (source : String)
    (distinct : t.destinations.Nodup) (known : destination ∈ t.destinations) :
    (t.insert destination source).entries = t.entries.map fun e =>
      if e.1 = destination then if source ∈ e.2 then e else (e.1, e.2 ++ [source]) else e := by
  obtain ⟨e, he, same⟩ := List.mem_map.1 known
  cases found : t.entries.findIdx? fun e => e.1 == destination with
  | some i =>
    unfold insert
    rw [found]
    exact modify_findIdx? distinct found _
  | none =>
    have other := List.findIdx?_eq_none_iff.1 found e he
    simp [same] at other

theorem entries_insert_of_notMem {t : Connections} {destination : String} (source : String)
    (new : destination ∉ t.destinations) :
    (t.insert destination source).entries = t.entries ++ [(destination, [source])] := by
  have none : t.entries.findIdx? (fun e => e.1 == destination) = none := by
    rw [List.findIdx?_eq_none_iff]
    intro e he
    rw [beq_eq_false_iff_ne]
    intro same
    exact new (same ▸ List.mem_map_of_mem he)
  unfold insert
  rw [none]

/-- The sources that pairs name for a destination, each once. -/
def sourcesIn (pairs : List (String × String)) (destination : String) : List String :=
  ((pairs.filter fun q => q.1 == destination).map Prod.snd).eraseDups

/-- The table of a list of pairs of a destination and a source. -/
def ofPairs (pairs : List (String × String)) : Connections :=
  ⟨(pairs.map Prod.fst).eraseDups.map fun d => (d, sourcesIn pairs d)⟩

theorem sourcesIn_concat (pairs : List (String × String)) (d source k : String) :
    sourcesIn (pairs ++ [(d, source)]) k =
      if k = d ∧ source ∉ sourcesIn pairs k then sourcesIn pairs k ++ [source]
      else sourcesIn pairs k := by
  unfold sourcesIn
  by_cases same : k = d
  · subst same
    simp only [List.filter_append, List.filter_singleton, beq_self_eq_true, cond_true,
      List.map_append, List.map_singleton, eraseDups_concat, List.mem_eraseDups, true_and, ite_not]
  · simp [List.filter_append, same, Ne.symm same]

theorem sourcesIn_eq_nil {pairs : List (String × String)} {d : String}
    (h : d ∉ pairs.map Prod.fst) : sourcesIn pairs d = [] := by
  have none : pairs.filter (fun q => q.1 == d) = [] := by
    rw [List.filter_eq_nil_iff]
    intro q hq same
    exact h (beq_iff_eq.1 same ▸ List.mem_map_of_mem hq)
  unfold sourcesIn
  rw [none]
  rfl

theorem destinations_ofPairs (pairs : List (String × String)) :
    (ofPairs pairs).destinations = (pairs.map Prod.fst).eraseDups := by
  simp [destinations, ofPairs, Function.comp_def]

private theorem find?_entries (f : String → List String) (ds : List String) (d : String) :
    (ds.map fun k => (k, f k)).find? (fun e => e.1 == d) = if d ∈ ds then some (d, f d) else none := by
  induction ds with
  | nil => rfl
  | cons k ds ih =>
    by_cases h : k = d
    · simp [h]
    · simp [h, Ne.symm h, ih]

theorem sourcesFor_ofPairs (pairs : List (String × String)) (destination : String) :
    (ofPairs pairs).sourcesFor destination = sourcesIn pairs destination := by
  unfold sourcesFor ofPairs
  rw [find?_entries]
  split
  next => rfl
  next unknown =>
    rw [List.mem_eraseDups] at unknown
    rw [sourcesIn_eq_nil unknown]
    rfl

/-- One more pair is one more insertion. -/
theorem insert_ofPairs (pairs : List (String × String)) (destination source : String) :
    (ofPairs pairs).insert destination source = ofPairs (pairs ++ [(destination, source)]) := by
  have same : ∀ t u : Connections, t.entries = u.entries → t = u := by
    rintro ⟨es⟩ ⟨fs⟩ rfl
    rfl
  apply same
  have keys := destinations_ofPairs pairs
  by_cases known : destination ∈ pairs.map Prod.fst
  · have distinct : (ofPairs pairs).destinations.Nodup := by
      rw [keys]
      exact nodup_eraseDups _
    have there : destination ∈ (ofPairs pairs).destinations := by
      rw [keys]
      exact List.mem_eraseDups.2 known
    rw [entries_insert_of_mem source distinct there]
    simp only [ofPairs, List.map_append, List.map_singleton, eraseDups_concat, if_pos known,
      List.map_map]
    apply List.map_congr_left
    intro k _
    rw [sourcesIn_concat, Function.comp_apply]
    by_cases own : k = destination
    · subst own
      by_cases old : source ∈ sourcesIn pairs k <;> simp [old]
    · simp [own]
  · have new : destination ∉ (ofPairs pairs).destinations := by
      rw [keys]
      exact fun there => known (List.mem_eraseDups.1 there)
    have first : sourcesIn pairs destination = [] := sourcesIn_eq_nil known
    rw [entries_insert_of_notMem source new]
    simp only [ofPairs, List.map_append, List.map_singleton, eraseDups_concat, if_neg known]
    congr 1
    · apply List.map_congr_left
      intro k hk
      have other : k ≠ destination := fun same => known (same ▸ List.mem_eraseDups.1 hk)
      rw [sourcesIn_concat, if_neg fun own => other own.1]
    · rw [sourcesIn_concat, first]
      simp

theorem addPolicies_ofPairs (pairs : List (String × String)) (ps : List NetworkPolicy) :
    (ofPairs pairs).addPolicies ps = ofPairs (pairs ++ ps.flatMap ofPolicy) := by
  unfold addPolicies
  induction ps.flatMap ofPolicy generalizing pairs with
  | nil => simp
  | cons q qs ih =>
    rw [List.foldl_cons, insert_ofPairs, ih]
    simp

theorem ofPolicies_eq (ps : List NetworkPolicy) : ofPolicies ps = ofPairs (ps.flatMap ofPolicy) :=
  addPolicies_ofPairs [] ps

theorem check_allowed (t : Connections) (source destination : String) :
    (t.check source destination).allowed = t.allows source destination := by
  unfold check
  cases t.allows source destination <;> rfl

end Connections

namespace Compilation

variable (c : Compilation)

/-- The services on the other side of one service, each once, whatever their namespaces. -/
def partners (d : Direction) (service : String) : List String :=
  ((c.rulesAt d.near service).map d.far).eraseDups

theorem eraseDups_counterparts (d : Direction) (service : String) :
    ((c.counterparts d service).map Prod.fst).eraseDups = c.partners d service := by
  rw [counterparts, eraseDups_map_eraseDups, List.map_map]
  rfl

/-- A target's policy contributes the services of its peers. -/
theorem ofPolicy_policyTo (target : String) :
    Connections.ofPolicy (c.policyTo target) =
      (c.counterparts .ingress target).map fun q => (target, q.1) := by
  have source (q : String × String) (rules : List Rule) :
      Connections.sourcesOf (c.entryFor q.1 q.2 rules) = [q.1] := by
    simp [Connections.sourcesOf, entryFor, label?_single]
  unfold Connections.ofPolicy
  rw [policyTo_spec, label?_single]
  simp only [entriesTo, entriesWith, List.flatMap_map, source, ← List.map_eq_flatMap]
  rw [List.map_map]
  rfl

/-- The baseline and the policies of sources contribute nothing. -/
theorem flatMap_ofPolicy_manifests :
    c.policies.manifests.flatMap Connections.ofPolicy =
      (c.services Rule.target).flatMap fun target =>
        (c.counterparts .ingress target).map fun q => (target, q.1) := by
  have baseline : Connections.ofPolicy (c.baseline c.intent.ns) = [] := rfl
  have outgoing : ((c.services Rule.source).map c.policyFrom).flatMap Connections.ofPolicy = [] := by
    rw [List.flatMap_map, List.flatMap_eq_nil_iff]
    intro source _
    unfold Connections.ofPolicy
    rw [policyFrom_spec, label?_single]
    rfl
  rw [manifests_eq, List.flatMap_append, List.flatMap_cons, baseline, outgoing, List.flatMap_map]
  simp [ofPolicy_policyTo]

/-- Who may reach whom, as far as the policies of the intent itself tell it. -/
def connections : Connections := .ofPolicies c.policies.manifests

theorem destinations_connections : c.connections.destinations = c.services Rule.target := by
  have some : ∀ target ∈ c.services Rule.target, c.counterparts .ingress target ≠ [] := by
    intro target there none
    exact c.counterparts_eq_nil_iff.1 none there
  have blocks := eraseDups_flatMap_const (c.counterparts .ingress) (c.services Rule.target) some
  have once : (c.services Rule.target).eraseDups = c.services Rule.target := by
    simpa [services] using eraseDups_map_eraseDups id (c.intent.rules.map Rule.target)
  rw [connections, Connections.ofPolicies_eq, Connections.destinations_ofPairs,
    flatMap_ofPolicy_manifests, List.map_flatMap]
  simpa [Function.comp_def, once] using blocks

theorem sourcesFor_connections (target : String) :
    c.connections.sourcesFor target = c.partners .ingress target := by
  have own (t : String) : ((c.counterparts .ingress t).map fun q => (t, q.1)).filter
      (fun q => q.1 == target) =
      if t = target then (c.counterparts .ingress t).map fun q => (t, q.1) else [] := by
    by_cases same : t = target
    · rw [if_pos same, List.filter_eq_self]
      rintro q hq
      obtain ⟨p, _, rfl⟩ := List.mem_map.1 hq
      simpa using same
    · rw [if_neg same, List.filter_eq_nil_iff]
      rintro q hq
      obtain ⟨p, _, rfl⟩ := List.mem_map.1 hq
      simpa using same
  have absent : target ∉ c.services Rule.target →
      (c.counterparts .ingress target).map (fun q => (target, q.1)) = [] := by
    intro h
    rw [c.counterparts_eq_nil_iff.2 h]
    rfl
  have block := flatMap_ite_eq (fun t => (c.counterparts .ingress t).map fun q => (t, q.1))
    (nodup_eraseDups (c.intent.rules.map Rule.target)) absent
  have filtered : (c.policies.manifests.flatMap Connections.ofPolicy).filter
      (fun q => q.1 == target) = (c.counterparts .ingress target).map fun q => (target, q.1) := by
    rw [flatMap_ofPolicy_manifests, List.filter_flatMap]
    simp only [own]
    exact block
  rw [connections, Connections.ofPolicies_eq, Connections.sourcesFor_ofPairs,
    Connections.sourcesIn, filtered, List.map_map, ← eraseDups_counterparts]
  rfl

theorem mem_partners_ingress {source target : String} :
    source ∈ c.partners .ingress target ↔
      ∃ r ∈ c.intent.rules, r.source = source ∧ r.target = target := by
  simp only [partners, Direction.near, Direction.far, List.mem_eraseDups, List.mem_map,
    mem_rulesAt]
  constructor
  · rintro ⟨r, ⟨hr, ht⟩, hs⟩
    exact ⟨r, hr, hs, ht⟩
  · rintro ⟨r, hr, hs, ht⟩
    exact ⟨r, ⟨hr, ht⟩, hs⟩

theorem joinedServices_peerEntries (rules : List Rule) (peerOf : Rule → Peer) :
    joinedServices (peerEntries rules peerOf) =
      ",".intercalate (rules.map fun r => (peerOf r).service).eraseDups := by
  unfold joinedServices
  rw [peerEntries_eq, List.map_map, addNew_nil]
  congr 1
  exact (eraseDups_map_eraseDups Peer.service (rules.map peerOf)).trans (by rw [List.map_map]; rfl)

/-- What a policy in a direction says about itself. -/
theorem policyOf_metadata (d : Direction) (service : String) :
    (c.policyOf d service).metadata =
      (((c.metadata (d.policyName service) c.intent.ns d.family (d.purpose ++ service)).label
        d.serviceKey service).label intentLabel c.intent.name).annotate d.partnersKey
          (",".intercalate (c.partners d service)) := by
  have joined : joinedServices (peerEntries (c.rulesAt d.near service) (c.otherSide d)) =
      ",".intercalate (c.partners d service) := joinedServices_peerEntries _ _
  rw [← joined]
  cases d <;> rfl

/-- The annotation of a policy joins the services on its other side. -/
theorem policyOf_partners (d : Direction) (service : String) :
    (c.policyOf d service).metadata.annotations.get? d.partnersKey =
      some (",".intercalate (c.partners d service)) := by
  rw [policyOf_metadata, ObjectMeta.annotate, KeyMap.get?_insert, if_pos rfl]

/-- The table of an intent's policies is the relation of its rules, in the order of the rules, and
the annotations of the policies tell the same. -/
theorem connections_spelled_out :
    c.connections.destinations = (c.intent.rules.map Rule.target).eraseDups ∧
    (∀ target, c.connections.sourcesFor target =
      ((c.intent.rules.filter fun r => r.target == target).map Rule.source).eraseDups) ∧
    (∀ source target, (c.connections.check source target).allowed = true ↔
      ∃ r ∈ c.intent.rules, r.source = source ∧ r.target = target) ∧
    (c.policies.ingress.map fun p => (p.spec.podSelector.label? serviceLabel,
        p.metadata.annotations.get? allowedSourcesKey)) =
      (c.connections.destinations.map fun target =>
        (some target, some (",".intercalate (c.connections.sourcesFor target)))) ∧
    (c.policies.egress.map fun p => (p.spec.podSelector.label? serviceLabel,
        p.metadata.annotations.get? allowedDestinationsKey)) =
      ((c.intent.rules.map Rule.source).eraseDups.map fun source =>
        (some source, some (",".intercalate
          ((c.intent.rules.filter fun r => r.source == source).map Rule.target).eraseDups))) := by
  have sources := c.sourcesFor_connections
  refine ⟨c.destinations_connections, sources, ?_, ?_, ?_⟩
  · intro source target
    rw [Connections.check_allowed, Connections.allows, List.contains_iff_mem, sources]
    exact c.mem_partners_ingress
  · rw [destinations_connections, policies, ingress_eq, List.map_map]
    apply List.map_congr_left
    intro target _
    rw [Function.comp_apply, policyTo_spec, label?_single, sources]
    exact congrArg _ (c.policyOf_partners .ingress target)
  · rw [policies, egress_eq, List.map_map]
    apply List.map_congr_left
    intro source _
    rw [Function.comp_apply, policyFrom_spec, label?_single]
    exact congrArg _ (c.policyOf_partners .egress source)

end Compilation

end TrafficIntent
