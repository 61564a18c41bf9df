import TrafficIntent.Proofs.Grouping
import TrafficIntent.Proofs.RuleSteps
import TrafficIntent.Synthesis.Entry

namespace TrafficIntent

theorem peerEntries_eq (rules : List Rule) (peerOf : Rule → Peer) :
    peerEntries rules peerOf = (rules.map peerOf).eraseDups.map fun p =>
      ⟨p, unionPorts (rules.filter fun r => peerOf r == p)⟩ := by
  simp [peerEntries, groupsOf_eq_partition, partition]

section

variable {α : Type} [DecidableEq α]

theorem addNew_append (xs ys zs : List α) : addNew xs (ys ++ zs) = addNew (addNew xs ys) zs :=
  List.foldl_append

/-- What is added to a list is what it lacks, in the order of first appearance. -/
theorem addNew_eq (xs ys : List α) :
    addNew xs ys = xs ++ (ys.filter fun y => y ∉ xs).eraseDups := by
  induction ys using List.reverseRecOn with
  | nil => simp [addNew]
  | append_singleton ys y ih =>
    have last : addNew (addNew xs ys) [y] =
        if y ∈ addNew xs ys then addNew xs ys else addNew xs ys ++ [y] := rfl
    rw [addNew_append, last, ih]
    by_cases known : y ∈ xs
    · simp [known]
    · have lacked : (ys ++ [y]).filter (fun z => z ∉ xs) =
          ys.filter (fun z => z ∉ xs) ++ [y] := by simp [known]
      have added : y ∈ xs ++ (ys.filter fun z => z ∉ xs).eraseDups ↔
          y ∈ ys.filter fun z => z ∉ xs := by
        rw [List.mem_append, List.mem_eraseDups, or_iff_right known]
      rw [lacked, eraseDups_concat]
      simp only [added]
      split
      · rfl
      · exact List.append_assoc _ _ _

theorem mem_addNew {xs ys : List α} {a : α} : a ∈ addNew xs ys ↔ a ∈ xs ∨ a ∈ ys := by
  rw [addNew_eq, List.mem_append, List.mem_eraseDups, List.mem_filter]
  by_cases known : a ∈ xs <;> simp [known]

theorem addNew_of_subset {xs ys : List α} (h : ∀ y ∈ ys, y ∈ xs) : addNew xs ys = xs := by
  have none : (ys.filter fun y => y ∉ xs) = [] := by
    rw [List.filter_eq_nil_iff]
    intro y hy
    simp [h y hy]
  rw [addNew_eq, none, List.eraseDups_nil, List.append_nil]

end

/-- Whether a rule admits a port: one of its ports with one of its protocols, or any if it lists no
ports. -/
def Rule.Allows (r : Rule) (p : PolicyPort) : Prop :=
  match r.ports with
  | none => True
  | some ports => p.port ∈ ports ∧ p.protocol ∈ r.protocols

theorem Rule.expandPorts_eq_none {r : Rule} : r.expandPorts = none ↔ r.ports = none := by
  simp [expandPorts]

theorem Rule.ports_ne_none {r : Rule} {ports : List PolicyPort} (h : r.expandPorts = some ports) :
    r.ports ≠ none := by
  intro all
  rw [expandPorts_eq_none.2 all] at h
  cases h

theorem Rule.mem_expandPorts {r : Rule} {ports : List PolicyPort} (h : r.expandPorts = some ports)
    (p : PolicyPort) : p ∈ ports ↔ r.Allows p := by
  cases hp : r.ports with
  | none => simp [expandPorts, hp] at h
  | some listed =>
    simp only [expandPorts, hp, Option.map_some, Option.some.injEq] at h
    simp only [← h, Allows, hp, List.mem_flatMap, List.mem_map]
    constructor
    · rintro ⟨port, hport, protocol, hprotocol, rfl⟩
      exact ⟨hport, hprotocol⟩
    · rintro ⟨hport, hprotocol⟩
      exact ⟨p.port, hport, p.protocol, hprotocol, rfl⟩

theorem Rule.allows_of_mem {r : Rule} {p : PolicyPort} (h : p ∈ r.expandPorts.getD []) :
    r.Allows p := by
  cases hr : r.expandPorts with
  | none => simp [hr] at h
  | some ports => exact (mem_expandPorts hr p).1 (by simpa [hr] using h)

/-- The rules after the first one add their ports all at once. -/
theorem unionPorts_cons (r : Rule) (rs : List Rule) :
    unionPorts (r :: rs) = do
      let first ← r.expandPorts
      let further ← rs.mapM Rule.expandPorts
      return addNew first further.flatten := by
  cases hr : r.expandPorts with
  | none => simp [unionPorts, hr]
  | some first =>
    simp only [unionPorts, hr, Option.bind_eq_bind, Option.bind_some]
    clear hr
    induction rs generalizing first with
    | nil => simp [addNew]
    | cons s rs ih =>
      rw [List.foldlM_cons, List.mapM_cons]
      cases s.expandPorts with
      | none => simp
      | some ports =>
        simp only [Option.map_some, Option.bind_eq_bind, Option.bind_some, ih]
        cases rs.mapM Rule.expandPorts with
        | none => simp
        | some further => simp [addNew_append]

theorem mapM_expandPorts_eq_none {rs : List Rule} :
    rs.mapM Rule.expandPorts = none ↔ ∃ r ∈ rs, r.ports = none := by
  induction rs with
  | nil => simp
  | cons r rs ih =>
    rw [List.mapM_cons]
    cases hr : r.expandPorts with
    | none => simp [Rule.expandPorts_eq_none.1 hr]
    | some ports =>
      have some := Rule.ports_ne_none hr
      cases hs : rs.mapM Rule.expandPorts with
      | none => simpa [hs, some] using ih.1 hs
      | some lists => simpa [hs, some] using ih

theorem mem_of_mapM_expandPorts {rs : List Rule} {lists : List (List PolicyPort)}
    (h : rs.mapM Rule.expandPorts = some lists) (p : PolicyPort) :
    p ∈ lists.flatten ↔ ∃ r ∈ rs, r.Allows p := by
  induction rs generalizing lists with
  | nil =>
    simp only [List.mapM_nil] at h
    cases h
    simp
  | cons r rs ih =>
    rw [List.mapM_cons] at h
    obtain ⟨ports, hr, h⟩ := Option.bind_eq_some_iff.1 h
    obtain ⟨rest, hs, h⟩ := Option.bind_eq_some_iff.1 h
    cases h
    simp [Rule.mem_expandPorts hr, ih hs]

/-- A group admits all ports exactly if one of its rules does. -/
theorem unionPorts_eq_none {rs : List Rule} (ne : rs ≠ []) :
    unionPorts rs = none ↔ ∃ r ∈ rs, r.ports = none := by
  cases rs with
  | nil => exact absurd rfl ne
  | cons r rs =>
    rw [unionPorts_cons]
    cases hr : r.expandPorts with
    | none => simp [Rule.expandPorts_eq_none.1 hr]
    | some ports =>
      have some := Rule.ports_ne_none hr
      cases hs : rs.mapM Rule.expandPorts with
      | none => simpa [some] using mapM_expandPorts_eq_none.1 hs
      | some lists =>
        have := mapM_expandPorts_eq_none.not.1 (by simp [hs] : rs.mapM Rule.expandPorts ≠ none)
        simpa [some] using this

/-- A group that lists its ports lists exactly those of its rules. -/
theorem mem_unionPorts {rs : List Rule} {ports : List PolicyPort} (h : unionPorts rs = some ports)
    (p : PolicyPort) : p ∈ ports ↔ ∃ r ∈ rs, r.Allows p := by
  cases rs with
  | nil => cases h
  | cons r rs =>
    rw [unionPorts_cons] at h
    obtain ⟨first, hr, h⟩ := Option.bind_eq_some_iff.1 h
    obtain ⟨further, hs, h⟩ := Option.bind_eq_some_iff.1 h
    cases h
    simp [mem_addNew, Rule.mem_expandPorts hr, mem_of_mapM_expandPorts hs]

/-- A port is one of a group's, which may be all ports, exactly if a rule of the group admits it. -/
theorem mem_unionPorts_or_all {rs : List Rule} (ne : rs ≠ []) (p : PolicyPort) :
    (∀ ports ∈ unionPorts rs, p ∈ ports) ↔ ∃ r ∈ rs, r.Allows p := by
  cases h : unionPorts rs with
  | none =>
    obtain ⟨r, hr, all⟩ := (unionPorts_eq_none ne).1 h
    simpa using ⟨r, hr, by simp [Rule.Allows, all]⟩
  | some ports => simpa using mem_unionPorts h p

/-- A further rule adds its ports to those of the group. -/
theorem unionPorts_concat {rs : List Rule} (ne : rs ≠ []) (r : Rule) :
    unionPorts (rs ++ [r]) = do
      let ports ← unionPorts rs
      return addNew ports (← r.expandPorts) := by
  obtain ⟨s, ss, rfl⟩ := List.exists_cons_of_ne_nil ne
  cases hs : s.expandPorts with
  | none => simp [unionPorts, hs]
  | some first =>
    simp only [List.cons_append, unionPorts, hs, List.foldlM_append, List.foldlM_cons,
      List.foldlM_nil, Option.bind_eq_bind, Option.bind_some]
    cases r.expandPorts <;> simp

/-- Rules are seen only through the ports that they expand to. -/
theorem unionPorts_map {f : Rule → Rule} (ports : ∀ r, (f r).expandPorts = r.expandPorts)
    (rs : List Rule) : unionPorts (rs.map f) = unionPorts rs := by
  cases rs with
  | nil => rfl
  | cons r rs => simp only [List.map_cons, unionPorts, List.foldlM_map, ports]

/-- A further rule of a known peer makes no difference if it makes none to the ports of the peer. -/
theorem peerEntries_concat {rules : List Rule} {peerOf : Rule → Peer} {r : Rule}
    (known : peerOf r ∈ rules.map peerOf)
    (same : unionPorts ((rules.filter fun s => peerOf s == peerOf r) ++ [r]) =
      unionPorts (rules.filter fun s => peerOf s == peerOf r)) :
    peerEntries (rules ++ [r]) peerOf = peerEntries rules peerOf := by
  rw [peerEntries_eq, peerEntries_eq, List.map_append, List.map_singleton, eraseDups_concat,
    if_pos known]
  apply List.map_congr_left
  intro p _
  rw [List.filter_append]
  by_cases own : peerOf r = p
  · subst own
    simpa using same
  · simp [own]

theorem peerEntries_map {f : Rule → Rule} {peerOf : Rule → Peer}
    (peers : ∀ r, peerOf (f r) = peerOf r) (ports : ∀ r, (f r).expandPorts = r.expandPorts)
    (rules : List Rule) : peerEntries (rules.map f) peerOf = peerEntries rules peerOf := by
  simp only [peerEntries_eq, List.map_map, List.filter_map, Function.comp_def, peers,
    unionPorts_map ports]

/-- A rule built step by step never lists ports or protocols without listing one. -/
theorem Rule.Normal.exists_allows {r : Rule} (h : r.Normal) : ∃ p, r.Allows p := by
  unfold Allows
  cases hp : r.ports with
  | none => exact ⟨⟨0, ""⟩, trivial⟩
  | some ports =>
    cases ports with
    | nil => exact absurd hp h.ports
    | cons port ports =>
      cases hq : r.protocols with
      | nil => exact absurd hq h.protocols
      | cons protocol protocols => exact ⟨⟨port, protocol⟩, by simp⟩

theorem unionPorts_ne_nil {rs : List Rule} (normal : ∀ r ∈ rs, r.Normal) :
    unionPorts rs ≠ some [] := by
  intro h
  cases rs with
  | nil => cases h
  | cons r rs =>
    obtain ⟨p, hp⟩ := (normal r (by simp)).exists_allows
    simpa using (mem_unionPorts h p).2 ⟨r, by simp, hp⟩

end TrafficIntent
