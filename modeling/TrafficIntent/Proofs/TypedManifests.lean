import TrafficIntent.Manifest.CiliumPolicy
import TrafficIntent.Proofs.Json.ReadBack
import TrafficIntent.Proofs.Json.Records
import TrafficIntent.Rendering

namespace TrafficIntent

open Json

section

variable {α : Type} {name : String} {write : α → Json} {d : Nat}

theorem exactMembers_append {ms ns : List (String × Json)} (hm : ExactMembers d ms)
    (hn : ExactMembers d ns) : ExactMembers d (ms ++ ns) := by
  induction ms with
  | nil => exact hn
  | cons m ms ih => exact ⟨hm.1, ih hm.2⟩

theorem isExact_object {ms : List (String × Json)} (h : ExactMembers d ms) :
    IsExact (d + 1) (.object ms) := ⟨Nat.succ_pos d, h⟩

theorem isExact_listOf {xs : List α} (h : ∀ x ∈ xs, IsExact d (write x)) :
    IsExact (d + 1) (listOf write xs) := by
  refine ⟨Nat.succ_pos d, ?_⟩
  show ExactItems d (xs.map write)
  induction xs with
  | nil => trivial
  | cons x xs ih => exact ⟨h x List.mem_cons_self, ih fun y hy => h y (List.mem_cons_of_mem _ hy)⟩

theorem exactMembers_ifSome {o : Option α} (h : ∀ a ∈ o, IsExact d (write a)) :
    ExactMembers d (ifSome name write o) := by
  cases o with
  | none => trivial
  | some a => exact ⟨h a rfl, trivial⟩

theorem exactMembers_unlessEmpty {xs : List α} (h : ∀ x ∈ xs, IsExact d (write x)) :
    ExactMembers (d + 1) (unlessEmpty name write xs) := by
  cases xs with
  | nil => trivial
  | cons x xs => exact ⟨isExact_listOf h, trivial⟩

theorem exactMembers_unlessBare (l : Labels) : ExactMembers (d + 1) (unlessBare name l) := by
  have texts (es : List (String × String)) :
      ExactMembers d (es.map fun e => (e.1, Json.string e.2)) := by
    induction es with
    | nil => trivial
    | cons e es ih => exact ⟨trivial, ih⟩
  unfold unlessBare
  split
  · trivial
  · exact ⟨isExact_object (texts l.entries), trivial⟩

end

section

variable (d : Nat)

theorem ObjectMeta.isExact (m : ObjectMeta) : IsExact (d + 2) m.toJson := by
  have names : ExactMembers (d + 1) [("name", .string m.name), ("namespace", .string m.ns)] :=
    ⟨trivial, trivial, trivial⟩
  exact isExact_object (exactMembers_append
    (exactMembers_append names (exactMembers_unlessBare m.labels))
    (exactMembers_unlessBare m.annotations))

theorem LabelSelector.isExact (s : LabelSelector) : IsExact (d + 2) s.toJson :=
  isExact_object (exactMembers_unlessBare s.matchLabels)

theorem PolicyPort.isExact (p : PolicyPort) : IsExact (d + 1) p.toJson := by
  have small := p.port.toNat_lt
  have number : IsExact d (.int p.port.toNat) := by
    unfold int IsExact
    omega
  exact isExact_object ⟨number, trivial, trivial⟩

theorem PolicyPeer.isExact (p : PolicyPeer) : IsExact (d + 3) p.toJson :=
  isExact_object (exactMembers_append (exactMembers_ifSome fun s _ => s.isExact d)
    (exactMembers_ifSome fun s _ => s.isExact d))

theorem PolicyEntry.isExact (t : Direction) (e : PolicyEntry) : IsExact (d + 5) (e.toJson t) :=
  isExact_object (exactMembers_append (exactMembers_unlessEmpty fun p _ => p.isExact d)
    (exactMembers_ifSome fun _ _ => isExact_listOf fun p _ => p.isExact (d + 2)))

theorem PolicySpec.isExact (s : PolicySpec) : IsExact (d + 7) s.toJson := by
  have types : IsExact (d + 6) (listOf Direction.toJson s.policyTypes) :=
    isExact_listOf fun _ _ => trivial
  have first : ExactMembers (d + 6) [("podSelector", s.podSelector.toJson),
      ("policyTypes", listOf Direction.toJson s.policyTypes)] :=
    ⟨s.podSelector.isExact (d + 4), types, trivial⟩
  exact isExact_object (exactMembers_append
    (exactMembers_append first (exactMembers_unlessEmpty fun e _ => e.isExact d .ingress))
    (exactMembers_unlessEmpty fun e _ => e.isExact d .egress))

theorem NetworkPolicy.isExact (p : NetworkPolicy) : IsExact (d + 8) p.toJson :=
  isExact_object ⟨trivial, trivial, p.metadata.isExact (d + 5), p.spec.isExact d, trivial⟩

theorem HttpRule.isExact (r : HttpRule) : IsExact (d + 2) r.toJson := by
  have text {name : String} (o : Option String) : ExactMembers (d + 1) (ifSome name .string o) :=
    exactMembers_ifSome fun _ _ => trivial
  exact isExact_object (exactMembers_append
    (exactMembers_append (exactMembers_append (text r.method) (text r.path)) (text r.host))
    (exactMembers_unlessEmpty fun _ _ => trivial))

theorem L7Rules.isExact (r : L7Rules) : IsExact (d + 4) r.toJson :=
  isExact_object (exactMembers_unlessEmpty fun h _ => h.isExact d)

theorem CiliumPortRule.isExact (r : CiliumPortRule) : IsExact (d + 5) r.toJson := by
  have ports : IsExact (d + 4) (listOf CiliumPort.toJson r.ports) :=
    isExact_listOf fun p _ => isExact_object (d := d + 2) ⟨trivial, trivial, trivial⟩
  exact isExact_object ⟨ports, exactMembers_ifSome fun l _ => l.isExact d⟩

theorem CiliumEntry.isExact (e : CiliumEntry) : IsExact (d + 7) e.toJson :=
  isExact_object (exactMembers_append (exactMembers_unlessEmpty fun s _ => s.isExact (d + 3))
    (exactMembers_unlessEmpty fun r _ => r.isExact d))

theorem CiliumSpec.isExact (s : CiliumSpec) : IsExact (d + 9) s.toJson :=
  isExact_object ⟨s.endpointSelector.isExact (d + 6),
    exactMembers_unlessEmpty fun e _ => e.isExact d⟩

theorem CiliumPolicy.isExact (p : CiliumPolicy) : IsExact (d + 10) p.toJson :=
  isExact_object ⟨trivial, trivial, p.metadata.isExact (d + 7), p.spec.isExact d, trivial⟩

end

theorem ObjectMeta.decoder_sorted (m : ObjectMeta) : decoder m.toJson.sorted = .ok m :=
  record_sorted
    (.cons (fits_needed (string_sorted m.name)) <|
      .cons (fits_needed (string_sorted m.ns)) <|
      .cons (fits_unlessBare m.labels rfl) <|
      .cons (fits_unlessBare m.annotations rfl) .nil)
    (by rfl) (by simp) (by decide) (by simp)

theorem LabelSelector.decoder_sorted (title : String) (s : LabelSelector) :
    decoder title s.toJson.sorted = .ok s :=
  record_sorted (.cons (fits_unlessBare s.matchLabels rfl) .nil) (by rfl) (by simp)
    (List.nodup_singleton _) (by simp)

theorem LabelSelector.sorted_ne_null (s : LabelSelector) : s.toJson.sorted ≠ .null := nofun

theorem Direction.decoder_sorted (d : Direction) : decoder d.toJson.sorted = .ok d := by
  cases d <;> rfl

theorem PolicyPort.decoder_sorted (p : PolicyPort) : decoder p.toJson.sorted = .ok p :=
  record_sorted
    (.cons (fits_needed (port_sorted p.port)) <|
      .cons (fits_needed (string_sorted p.protocol)) .nil)
    (by rfl) (by simp) (by decide) (by simp)

theorem PolicyPeer.decoder_sorted (p : PolicyPeer) : decoder p.toJson.sorted = .ok p :=
  have read (s : LabelSelector) := s.decoder_sorted "LabelSelector"
  record_sorted
    (.cons (fits_ifSome (fun s _ => read s) LabelSelector.sorted_ne_null rfl) <|
      .cons (fits_ifSome (fun s _ => read s) LabelSelector.sorted_ne_null rfl) .nil)
    (by rfl) (by simp) (by decide) (by simp)

theorem PolicyEntry.decoder_sorted (d : Direction) (e : PolicyEntry) :
    decoder d (e.toJson d).sorted = .ok e :=
  record_sorted
    (.cons (fits_unlessEmpty (fun p _ => PolicyPeer.decoder_sorted p) rfl) <|
      .cons (fits_ifSome (fun _ _ => list_sorted fun p _ => PolicyPort.decoder_sorted p)
        (fun _ => nofun) rfl) .nil)
    (by rfl) (by simp) (by cases d <;> decide) (by simp)

theorem PolicySpec.decoder_sorted (s : PolicySpec) : decoder s.toJson.sorted = .ok s :=
  record_sorted
    (.cons (fits_needed (s.podSelector.decoder_sorted "LabelSelector")) <|
      .cons (fits_needed (list_sorted fun d _ => Direction.decoder_sorted d)) <|
      .cons (fits_unlessEmpty (fun e _ => PolicyEntry.decoder_sorted .ingress e) rfl) <|
      .cons (fits_unlessEmpty (fun e _ => PolicyEntry.decoder_sorted .egress e) rfl) .nil)
    (by rfl) (by simp) (by decide) (by simp)

theorem NetworkPolicy.decoder_sorted (p : NetworkPolicy) : decoder p.toJson.sorted = .ok p :=
  record_sorted
    (.cons (fits_free (string_sorted p.apiVersion)) <|
      .cons (fits_free (string_sorted p.kind)) <|
      .cons (fits_needed p.metadata.decoder_sorted) <|
      .cons (fits_needed p.spec.decoder_sorted) .nil)
    (by rfl) (by simp) (by decide) (by simp)

theorem HttpRule.read_sorted (r : HttpRule) : (read : Decoder HttpRule) r.toJson.sorted = .ok r :=
  record_sorted
    (.cons (fits_ifSome (fun s _ => string_sorted s) (fun _ => nofun) rfl) <|
      .cons (fits_ifSome (fun s _ => string_sorted s) (fun _ => nofun) rfl) <|
      .cons (fits_ifSome (fun s _ => string_sorted s) (fun _ => nofun) rfl) <|
      .cons (fits_unlessEmpty (fun s _ => string_sorted s) rfl) .nil)
    (by rfl) (by simp) (by decide) (by simp)

theorem L7Rules.read_sorted (r : L7Rules) : (read : Decoder L7Rules) r.toJson.sorted = .ok r :=
  record_sorted (.cons (fits_unlessEmpty (fun h _ => HttpRule.read_sorted h) rfl) .nil)
    (by rfl) (by simp) (by decide) (by simp)

theorem CiliumPort.decoder_sorted (p : CiliumPort) : decoder p.toJson.sorted = .ok p :=
  record_sorted
    (.cons (fits_needed (string_sorted p.port)) <|
      .cons (fits_needed (string_sorted p.protocol)) .nil)
    (by rfl) (by simp) (by decide) (by simp)

theorem CiliumPortRule.decoder_sorted (r : CiliumPortRule) : decoder r.toJson.sorted = .ok r :=
  record_sorted
    (.cons (fits_needed (list_sorted fun p _ => CiliumPort.decoder_sorted p)) <|
      .cons (fits_ifSome (fun l _ => L7Rules.read_sorted l) (fun _ => nofun) rfl) .nil)
    (by rfl) (by simp) (by decide) (by simp)

theorem CiliumEntry.decoder_sorted (e : CiliumEntry) : decoder e.toJson.sorted = .ok e :=
  record_sorted
    (.cons (fits_unlessEmpty
        (fun s _ => LabelSelector.decoder_sorted endpointSelectorTitle s) rfl) <|
      .cons (fits_unlessEmpty (fun r _ => CiliumPortRule.decoder_sorted r) rfl) .nil)
    (by rfl) (by simp) (by decide) (by simp)

theorem CiliumSpec.decoder_sorted (s : CiliumSpec) : decoder s.toJson.sorted = .ok s :=
  record_sorted
    (.cons (fits_needed (s.endpointSelector.decoder_sorted endpointSelectorTitle)) <|
      .cons (fits_unlessEmpty (fun e _ => CiliumEntry.decoder_sorted e) rfl) .nil)
    (by rfl) (by simp) (by decide) (by simp)

theorem CiliumPolicy.decoder_sorted (p : CiliumPolicy) : decoder p.toJson.sorted = .ok p :=
  record_sorted
    (.cons (fits_free (string_sorted p.apiVersion)) <|
      .cons (fits_free (string_sorted p.kind)) <|
      .cons (fits_needed p.metadata.decoder_sorted) <|
      .cons (fits_needed p.spec.decoder_sorted) .nil)
    (by rfl) (by simp) (by decide) (by simp)

section

variable {α : Type} [Resource α]

theorem parse_toJson {ms : List α} (exact : ∀ m ∈ ms, IsExact 126 (Resource.toJson m)) :
    Json.parse (toJson ms) = .ok (.array (structured ms)) := by
  have read := parse_text (isExact_listOf exact)
  rw [listOf, sorted, sortedItems_eq_map, List.map_map] at read
  exact read

theorem list_structured {d : Decoder α} {ms : List α}
    (read : ∀ m ∈ ms, d (Resource.toJson m).sorted = .ok m) :
    Decoder.list d (.array (structured ms)) = .ok ms := by
  have decoded := list_sorted read
  rw [listOf, sorted, sortedItems_eq_map, List.map_map] at decoded
  exact decoded

theorem toJson_injective {d : Decoder α}
    (parse : ∀ ms : List α, Json.parse (toJson ms) = .ok (.array (structured ms)))
    (read : ∀ ms : List α, Decoder.list d (.array (structured ms)) = .ok ms) :
    Function.Injective (toJson : List α → String) := by
  intro ms ns same
  have tree : Json.array (structured ms) = .array (structured ns) :=
    Except.ok.inj ((parse ms).symm.trans ((congrArg Json.parse same).trans (parse ns)))
  exact Except.ok.inj ((read ms).symm.trans ((congrArg _ tree).trans (read ns)))

end

theorem NetworkPolicy.parse_toJson (ps : List NetworkPolicy) :
    Json.parse (TrafficIntent.toJson ps) = .ok (.array (structured ps)) :=
  TrafficIntent.parse_toJson fun p _ => p.isExact 118

theorem NetworkPolicy.list_structured (ps : List NetworkPolicy) :
    Decoder.list decoder (.array (structured ps)) = .ok ps :=
  TrafficIntent.list_structured fun p _ => p.decoder_sorted

theorem CiliumPolicy.parse_toJson (ps : List CiliumPolicy) :
    Json.parse (TrafficIntent.toJson ps) = .ok (.array (structured ps)) :=
  TrafficIntent.parse_toJson fun p _ => p.isExact 116

theorem CiliumPolicy.list_structured (ps : List CiliumPolicy) :
    Decoder.list decoder (.array (structured ps)) = .ok ps :=
  TrafficIntent.list_structured fun p _ => p.decoder_sorted

/-- The JSON text of policies is read as the array of their trees, and the array as the policies.
So no two lists of policies have the same text, whatever is absent from one and empty in the
other. -/
theorem json_reads_back :
    (∀ ps : List NetworkPolicy, Json.parse (toJson ps) = .ok (.array (structured ps)) ∧
      Decoder.list NetworkPolicy.decoder (.array (structured ps)) = .ok ps) ∧
    (∀ ps : List CiliumPolicy, Json.parse (toJson ps) = .ok (.array (structured ps)) ∧
      Decoder.list CiliumPolicy.decoder (.array (structured ps)) = .ok ps) ∧
    Function.Injective (toJson : List NetworkPolicy → String) ∧
    Function.Injective (toJson : List CiliumPolicy → String) := by
  refine ⟨?_, ?_, ?_, ?_⟩
  · exact fun ps => ⟨NetworkPolicy.parse_toJson ps, NetworkPolicy.list_structured ps⟩
  · exact fun ps => ⟨CiliumPolicy.parse_toJson ps, CiliumPolicy.list_structured ps⟩
  · exact toJson_injective NetworkPolicy.parse_toJson NetworkPolicy.list_structured
  · exact toJson_injective CiliumPolicy.parse_toJson CiliumPolicy.list_structured

/-! A list of ports that is missing is not one without ports, and a selector without labels is not a
missing one. -/

example : (PolicyEntry.toJson .ingress ⟨[], none⟩).sorted = .object [] := rfl

example : (PolicyEntry.toJson .ingress ⟨[⟨some .all, none⟩], some []⟩).sorted =
    .object [("from", .array [.object [("podSelector", .object [])]]), ("ports", .array [])] := by
  cbv

end TrafficIntent
