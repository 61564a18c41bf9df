import TrafficIntent.Intent.Document
import TrafficIntent.Proofs.Json.Renaming
import TrafficIntent.Proofs.TypedManifests

/-!
Intent documents as trees. A document is read from its own tree, with what is missing kept apart
from what is empty, and a rule's fields may go by their second names: rules respelled with them are
read as before, or refused as before.
-/

namespace TrafficIntent

open Json

theorem Json.Part.Fits.orNamed {σ : Type} {blank : σ} {f : Field Decoder σ} {p : Part σ}
    (fits : Part.Fits blank f p) (name : String) : Part.Fits blank (f.orNamed name) p := by
  cases fits with
  | given read => exact .given read
  | missing free same => exact .missing free same

theorem RuleDocument.read_sorted (r : RuleDocument) :
    (read : Decoder RuleDocument) r.toJson.sorted = .ok r :=
  record_sorted
    (.cons ((fits_ifSome (fun s _ => string_sorted s) (fun _ => nofun) rfl).orNamed _) <|
      .cons ((fits_ifSome (fun s _ => string_sorted s) (fun _ => nofun) rfl).orNamed _) <|
      .cons (fits_ifSome (fun _ _ => list_sorted fun p _ => port_sorted p) (fun _ => nofun) rfl) <|
      .cons (fits_ifSome (fun _ _ => list_sorted fun s _ => string_sorted s)
        (fun _ => nofun) rfl) <|
      .cons (fits_ifSome (fun s _ => string_sorted s) (fun _ => nofun) rfl) <|
      .cons ((fits_ifSome (fun l _ => L7Rules.read_sorted l) (fun _ => nofun) rfl).orNamed _) .nil)
    (by rfl) (by simp; rfl) (by decide) (by simp)

theorem IntentDocument.read_sorted (d : IntentDocument) :
    (read : Decoder IntentDocument) d.toJson.sorted = .ok d :=
  record_sorted
    (.cons (fits_ifSome (fun s _ => string_sorted s) (fun _ => nofun) rfl) <|
      .cons (fits_ifSome (fun s _ => string_sorted s) (fun _ => nofun) rfl) <|
      .cons (fits_ifSome (fun s _ => string_sorted s) (fun _ => nofun) rfl) <|
      .cons (fits_ifSome (fun _ _ => list_sorted fun r _ => RuleDocument.read_sorted r)
        (fun _ => nofun) rfl) .nil)
    (by rfl) (by simp) (by decide) (by simp)

namespace RuleDocument

/-- The second name of a field that has one. -/
def otherName (name : String) : String :=
  if name = "from" then "from_service"
  else if name = "to" then "to_service"
  else if name = "l7_rules" then "l7Rules"
  else name

/-- The names under which a rule's members are known. -/
def names : List String :=
  ["from", "from_service", "to", "to_service", "ports", "protocols", "namespace", "l7_rules",
    "l7Rules"]

/-- The second name of a chosen member, unless the rule has a member of that name already. -/
def respelledName (chosen : String → Bool) (members : List (String × Json)) (name : String) :
    String :=
  if chosen name && !(members.map Prod.fst).contains (otherName name) then otherName name else name

/-- A second name is put where no other name stood between it and the first. -/
theorem otherName_ordered :
    ∀ k ∈ names, otherName k ∈ names ∧ ∀ l ∈ names, k < l →
      (otherName k ≠ l → otherName k < l) ∧ (k ≠ otherName l → k < otherName l) := by
  decide

theorem otherName_inj {k l : String} (movesK : otherName k ≠ k) (movesL : otherName l ≠ l)
    (same : otherName k = otherName l) : k = l := by
  unfold otherName at *
  grind

section

variable {chosen : String → Bool} {ms : List (String × Json)} {k l : String}

theorem respelledName_cases (chosen : String → Bool) (ms : List (String × Json)) (k : String) :
    respelledName chosen ms k = k ∨
      respelledName chosen ms k = otherName k ∧ otherName k ∉ ms.map Prod.fst := by
  rw [respelledName]
  split
  next both =>
    rw [Bool.and_eq_true, Bool.not_eq_true', ← Bool.not_eq_true, List.contains_iff_mem] at both
    exact .inr ⟨rfl, both.2⟩
  next => exact .inl rfl

theorem respelledName_inj (hk : k ∈ ms.map Prod.fst) (hl : l ∈ ms.map Prod.fst)
    (same : respelledName chosen ms k = respelledName chosen ms l) : k = l := by
  have stays {k : String} (hk : k ∈ ms.map Prod.fst) (absent : otherName k ∉ ms.map Prod.fst) :
      otherName k ≠ k := by
    intro own
    rw [own] at absent
    exact absent hk
  cases respelledName_cases chosen ms k with
  | inl ownK =>
    cases respelledName_cases chosen ms l with
    | inl ownL => rwa [ownK, ownL] at same
    | inr otherL =>
      rw [ownK, otherL.1] at same
      exact absurd (same ▸ hk) otherL.2
  | inr otherK =>
    cases respelledName_cases chosen ms l with
    | inl ownL =>
      rw [otherK.1, ownL] at same
      exact absurd (same ▸ hl) otherK.2
    | inr otherL =>
      rw [otherK.1, otherL.1] at same
      exact otherName_inj (stays hk otherK.2) (stays hl otherL.2) same

theorem respelledName_ordered (nameK : k ∈ names) (nameL : l ∈ names) (hk : k ∈ ms.map Prod.fst)
    (hl : l ∈ ms.map Prod.fst) (less : k < l) :
    respelledName chosen ms k < respelledName chosen ms l := by
  have apart {k l : String} (hl : l ∈ ms.map Prod.fst) (absent : otherName k ∉ ms.map Prod.fst) :
      otherName k ≠ l := fun same => absent (same ▸ hl)
  obtain ⟨nameOther, orderedK⟩ := otherName_ordered k nameK
  cases respelledName_cases chosen ms k with
  | inl ownK =>
    rw [ownK]
    cases respelledName_cases chosen ms l with
    | inl ownL => rwa [ownL]
    | inr otherL =>
      rw [otherL.1]
      exact (orderedK l nameL less).2 (apart hk otherL.2).symm
  | inr otherK =>
    have first : otherName k < l := (orderedK l nameL less).1 (apart hl otherK.2)
    cases respelledName_cases chosen ms l with
    | inl ownL => rwa [otherK.1, ownL]
    | inr otherL =>
      have different : respelledName chosen ms k ≠ respelledName chosen ms l := fun same =>
        absurd (respelledName_inj hk hl same) (String.ne_of_lt less)
      rw [otherK.1, otherL.1] at different ⊢
      exact ((otherName_ordered _ nameOther).2 l nameL first).2 different

end

/-- Rules are read as a record that knows its fields by either name. -/
theorem exists_record : ∃ r : Record Decoder RuleDocument,
    (read : Decoder RuleDocument) = Decoder.record r ∧
      (r.fields.flatMap fun f => f.name :: f.otherNames) = names ∧
      ∀ k, r.field? (otherName k) = r.field? k := by
  refine ⟨_, rfl, rfl, ?_⟩
  intro k
  rw [otherName]
  split
  next own => rw [own]; rfl
  next =>
    split
    next own => rw [own]; rfl
    next =>
      split
      next own => rw [own]; rfl
      next => rfl

/-- A rule with second names for the chosen members. -/
def respell (chosen : String → Bool) : Json → Json
  | .object members => .object (members.map (renamed (respelledName chosen members)))
  | j => j

theorem alike_respell (chosen : String → Bool) (j : Json) :
    Alike (read : Decoder RuleDocument) (respell chosen j) j := by
  obtain ⟨r, record, known, other⟩ := exists_record
  cases j with
  | object ms =>
    rw [record]
    apply alike_renamed
    constructor
    case same =>
      intro k
      cases respelledName_cases chosen ms k with
      | inl own => rw [own]
      | inr moved => rw [moved.1, other]
    case apart => exact fun k hk l hl => respelledName_inj hk hl
    case ordered =>
      rw [known]
      exact fun k nameK l nameL => respelledName_ordered nameK nameL
  | _ => exact Alike.refl read _

end RuleDocument

namespace IntentDocument

/-- A list of rules with second names for the members chosen in each. -/
def respellRules (chosen : Nat → String → Bool) : Json → Json
  | .array rules => .array (rules.mapIdx fun i rule => RuleDocument.respell (chosen i) rule)
  | j => j

/-- A document with second names for the members chosen in each of its rules. -/
def respell (chosen : Nat → String → Bool) : Json → Json
  | .object members =>
    .object (members.map fun m => (m.1, if m.1 = "rules" then respellRules chosen m.2 else m.2))
  | .array (name :: ns :: description :: rules :: rest) =>
    .array (name :: ns :: description :: respellRules chosen rules :: rest)
  | j => j

theorem alike_respellRules (chosen : Nat → String → Bool) (j : Json) :
    Alike (RuleDocument.read : Decoder RuleDocument).list.optional (respellRules chosen j) j := by
  cases j with
  | array rules =>
    have each : List.Forall₂ (Alike (RuleDocument.read : Decoder RuleDocument))
        (rules.mapIdx fun i rule => RuleDocument.respell (chosen i) rule) rules := by
      induction rules generalizing chosen with
      | nil => exact .nil
      | cons rule rules ih =>
        rw [List.mapIdx_cons]
        exact .cons (RuleDocument.alike_respell _ rule) (ih fun i => chosen (i + 1))
    obtain ⟨plain, inOrder⟩ := alike_list each
    exact ⟨congrArg (Except.map some) plain, congrArg (Except.map some) inOrder⟩
  | _ => exact Alike.refl _ _

/-- Documents are read as a record whose fourth field does not tell respelled rules apart. -/
theorem exists_record : ∃ (r : Record Decoder IntentDocument)
    (name ns description rules : Field Decoder IntentDocument),
    (read : Decoder IntentDocument) = Decoder.record r ∧
      r.fields = [name, ns, description, rules] ∧ r.field? "rules" = some rules ∧
      ∀ chosen j, Alike rules.read (respellRules chosen j) j := by
  refine ⟨_, _, _, _, _, rfl, rfl, rfl, ?_⟩
  intro chosen j
  obtain ⟨plain, inOrder⟩ := alike_respellRules chosen j
  exact ⟨congrArg (Except.map _) plain, congrArg (Except.map _) inOrder⟩

theorem alike_respell (chosen : Nat → String → Bool) (j : Json) :
    Alike (read : Decoder IntentDocument) (respell chosen j) j := by
  obtain ⟨r, name, ns, description, rules, record, fields, named, same⟩ := exists_record
  rw [record]
  cases j with
  | object ms =>
    apply alike_valued fun k j => if k = "rules" then respellRules chosen j else j
    intro k h j field
    split
    next own =>
      rw [own, named] at field
      rw [← Option.some.inj field]
      exact same chosen j
    next => exact Alike.refl _ j
  | array js =>
    match js with
    | a :: b :: c :: d :: rest =>
      obtain ⟨plain, inOrder⟩ := same chosen d
      constructor
      · simp only [respell, Decoder.record, fields, Decoder.positions, plain, List.length_cons]
      · simp only [respell, sorted, sortedItems, Decoder.record, fields, Decoder.positions, inOrder,
          List.length_cons]
    | [] | [_] | [_, _] | [_, _, _] => exact Alike.refl _ _
  | _ => exact Alike.refl _ _

/-- A document is read from its own tree as it is, with absent and empty parts kept apart. Second
names in any of the rules of a tree make no difference to the document that is read from it, nor to
the complaint if none is: in key order, as a parsed tree has its members, or in any other. -/
theorem reads_back_respelled :
    (∀ d : IntentDocument, (read : Decoder IntentDocument) d.toJson.sorted = .ok d) ∧
    ∀ chosen j, (read : Decoder IntentDocument) (respell chosen j).sorted =
        (read : Decoder IntentDocument) j.sorted ∧
      (read : Decoder IntentDocument) (respell chosen j) = (read : Decoder IntentDocument) j := by
  constructor
  · exact read_sorted
  · intro chosen j
    obtain ⟨plain, inOrder⟩ := alike_respell chosen j
    exact ⟨inOrder, plain⟩

/-! A name that has been used already is not used again: a rule with two targets is refused either
way. -/

example :
    respell (fun _ _ => true) (.object [("rules", .array [.object
      [("to", .string "api"), ("from", .string "web"), ("to_service", .string "db")]])]) =
    .object [("rules", .array [.object
      [("to", .string "api"), ("from_service", .string "web"), ("to_service", .string "db")]])] :=
  rfl

end IntentDocument

end TrafficIntent
