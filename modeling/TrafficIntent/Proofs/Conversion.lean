import Mathlib.Data.List.Forall2
import TrafficIntent.Intent.Conversion
import TrafficIntent.Proofs.RuleSteps

namespace TrafficIntent

/-- A name that is there: some character of it is not blank. -/
def Named (name : Option String) : Prop :=
  ∃ text, name = some text ∧ ∃ c ∈ text.toList, Text.isSpace c = false

theorem isBlank_eq_false {s : String} :
    Text.isBlank s = false ↔ ∃ c ∈ s.toList, Text.isSpace c = false := by
  simp [Text.isBlank]

theorem present?_eq_some {name : Option String} {text : String} :
    present? name = some text ↔ name = some text ∧ Named name := by
  cases name with
  | none => simp [present?]
  | some s =>
    by_cases blank : Text.isBlank s = true
    · have bare : ¬Named (some s) := by
        rintro ⟨t, same, visible⟩
        rw [Option.some.inj same, isBlank_eq_false.2 visible] at blank
        contradiction
      simp [present?, blank, bare]
    · have visible : Named (some s) := ⟨s, rfl, isBlank_eq_false.1 (by simpa using blank)⟩
      simp [present?, blank, visible]

theorem present?_eq_none {name : Option String} : present? name = none ↔ ¬Named name := by
  constructor
  · rintro none ⟨text, same, visible⟩
    have there := present?_eq_some.2 ⟨same, text, same, visible⟩
    rw [none] at there
    contradiction
  · intro bare
    cases found : present? name with
    | none => rfl
    | some text => exact absurd (present?_eq_some.1 found).2 bare

instance decidableNamed (name : Option String) : Decidable (Named name) :=
  decidable_of_iff (name.any fun text => text.toList.any fun c => !Text.isSpace c)
    (by cases name <;> simp [Named])

/-- The texts of what is missing in a document: its rules, or names at the ends of its rules, in the
order of the rules and the source before the target. -/
def IntentDocument.missingTexts (d : IntentDocument) : List String :=
  match d.rules with
  | none => ["Missing 'rules' field in intent"]
  | some rules => rules.zipIdx.flatMap fun (r, i) =>
    (if Named r.source then [] else ["Rule " ++ toString i ++ ": Missing 'from' field"]) ++
      if Named r.target then [] else ["Rule " ++ toString i ++ ": Missing 'to' field"]

/-- The texts of what is odd in a document: that it has no rules, or rules from a service to
itself. -/
def IntentDocument.oddTexts (d : IntentDocument) : List String :=
  match d.rules with
  | none => []
  | some [] => ["No rules defined in intent"]
  | some rules => rules.zipIdx.flatMap fun (r, i) =>
    if Named r.source ∧ r.source = r.target then
      ["Rule " ++ toString i ++ ": Source and destination are the same"]
    else []

namespace RuleDocument

variable (i : Nat) (r : RuleDocument)

theorem problems_eq : (r.problems i).map Problem.message =
    (if Named r.source then [] else ["Rule " ++ toString i ++ ": Missing 'from' field"]) ++
      if Named r.target then [] else ["Rule " ++ toString i ++ ": Missing 'to' field"] := by
  have isNone (name : Option String) : (present? name).isNone = true ↔ ¬Named name := by
    rw [Option.isNone_iff_eq_none, present?_eq_none]
  have texts (side : Endpoint) : (Problem.missing i side).message =
      "Rule " ++ toString i ++ ": Missing '" ++ side.fieldName ++ "' field" := rfl
  simp only [problems, isNone, ite_not, List.map_append, apply_ite (List.map Problem.message),
    List.map_nil, List.map_singleton, texts, Endpoint.fieldName, String.append_assoc]
  rfl

theorem cautions_eq : (r.cautions i).map Caution.message =
    if Named r.source ∧ r.source = r.target then
      ["Rule " ++ toString i ++ ": Source and destination are the same"]
    else [] := by
  unfold cautions
  split
  next a b ha hb =>
    obtain ⟨source, named⟩ := present?_eq_some.1 ha
    obtain ⟨target, -⟩ := present?_eq_some.1 hb
    have same : (Named r.source ∧ r.source = r.target) ↔ a = b := by
      rw [and_iff_right named, source, target, Option.some_inj]
    simp only [same, apply_ite (List.map Caution.message)]
    rfl
  next missing =>
    have apart : ¬(Named r.source ∧ r.source = r.target) := by
      rintro ⟨⟨text, source, visible⟩, same⟩
      have there := present?_eq_some.2 ⟨source, text, source, visible⟩
      exact missing text text there (same ▸ there)
    rw [if_neg apart]
    rfl

end RuleDocument

namespace IntentDocument

variable {d : IntentDocument}

/-- The report says what is missing and what is odd, and nothing else. -/
theorem validate_texts : d.validate.problems.map Problem.message = d.missingTexts ∧
    d.validate.cautions.map Caution.message = d.oddTexts := by
  unfold validate missingTexts oddTexts
  cases d.rules with
  | none => exact ⟨rfl, rfl⟩
  | some rules =>
    cases rules with
    | nil => exact ⟨rfl, rfl⟩
    | cons r rs =>
      simp only [List.map_flatMap, RuleDocument.problems_eq, RuleDocument.cautions_eq]
      exact ⟨trivial, trivial⟩

theorem missingTexts_eq_nil : d.missingTexts = [] ↔
    ∃ rules, d.rules = some rules ∧ ∀ r ∈ rules, Named r.source ∧ Named r.target := by
  unfold missingTexts
  cases d.rules with
  | none => simp
  | some rules =>
    have places (p : RuleDocument → Prop) :
        (∀ q ∈ rules.zipIdx, p q.1) ↔ ∀ r ∈ rules, p r := by
      rw [← List.forall_mem_map (f := Prod.fst), List.zipIdx_map_fst]
    simp only [List.flatMap_eq_nil_iff, List.append_eq_nil_iff, Option.some.injEq,
      exists_eq_left']
    refine Iff.trans ?_ (places fun r => Named r.source ∧ Named r.target)
    simp

/-- A document is valid exactly if it has rules and all their endpoints have names. -/
theorem isValid_validate_iff : d.validate.isValid = true ↔
    ∃ rules, d.rules = some rules ∧ ∀ r ∈ rules, Named r.source ∧ Named r.target := by
  rw [Report.isValid, List.isEmpty_iff, ← List.map_eq_nil_iff (f := Problem.message),
    validate_texts.1, missingTexts_eq_nil]

end IntentDocument

/-- The steps that build the rule of a document. -/
def RuleDocument.steps (r : RuleDocument) : List Rule.Step :=
  [.ports (r.ports.getD []), .protocols (r.protocols.getD [])] ++
    r.ns.toList.map .inNamespace ++ r.l7.toList.map .l7

/-- Whether a rule is what a document says: names as they are, and a part that says nothing as if it
were missing. -/
structure RuleDocument.Describes (r : RuleDocument) (rule : Rule) : Prop where
  built : rule = .build rule.source rule.target r.steps
  source : r.source = some rule.source
  target : r.target = some rule.target
  ports : ∀ ports, rule.ports = some ports ↔ r.ports = some ports ∧ ports ≠ []
  protocols : rule.protocols =
    if r.protocols.getD [] = [] then ["TCP"] else r.protocols.getD []
  ns : ∀ ns, rule.ns = some ns ↔ r.ns = some ns ∧ Named r.ns
  l7 : ∀ l7, rule.l7 = some l7 ↔ r.l7 = some l7 ∧ l7.http ≠ []

private theorem ite_none_eq_filter {α : Type} (p : α → Bool) (a : α) :
    (if p a = true then none else some a) = (some a).filter fun x => !p x := by
  cases h : p a <;> simp [Option.filter, h]

/-- The rule that the steps build, part by part. -/
theorem build_steps (r : RuleDocument) (source target : String) :
    Rule.build source target r.steps = {
      source := source
      target := target
      ports := r.ports.filter fun ports => !ports.isEmpty
      protocols := if (r.protocols.getD []).isEmpty then [defaultProtocol] else r.protocols.getD []
      ns := r.ns.filter fun ns => !Text.isBlank ns
      l7 := r.l7.filter fun l7 => !l7.isEmpty } := by
  obtain ⟨_, _, ports, protocols, ns, l7⟩ := r
  unfold Rule.build RuleDocument.steps
  cases ports <;> cases ns <;> cases l7 <;>
    simp only [Option.toList_none, Option.toList_some, List.map_nil, List.map_cons, List.append_nil,
      List.cons_append, List.nil_append, List.foldl_cons, List.foldl_nil, Option.getD_none,
      Option.getD_some, List.isEmpty_nil, if_true, Option.filter_none, Rule.step, Rule.withPorts,
      Rule.withProtocols, Rule.inNamespace, Rule.withL7, Rule.new, ite_none_eq_filter List.isEmpty,
      ite_none_eq_filter Text.isBlank, ite_none_eq_filter L7Rules.isEmpty]

theorem describes_build (r : RuleDocument) {source target : String} (hs : r.source = some source)
    (ht : r.target = some target) : r.Describes (.build source target r.steps) := by
  have visible (ns : String) : r.ns = some ns → (Text.isBlank ns = false ↔ Named r.ns) := by
    intro given
    rw [given, isBlank_eq_false]
    simp [Named]
  have parts := build_steps r source target
  have ends : (Rule.build source target r.steps).source = source ∧
      (Rule.build source target r.steps).target = target := by
    rw [parts]
    exact ⟨rfl, rfl⟩
  refine ⟨by rw [ends.1, ends.2], by rw [ends.1, hs], by rw [ends.2, ht], ?_, ?_, ?_, ?_⟩
  · intro ports
    rw [parts]
    simp [Option.filter_eq_some_iff]
  · rw [parts]
    simp [defaultProtocol]
  · intro ns
    rw [parts]
    simp only [Option.filter_eq_some_iff, Bool.not_eq_true']
    exact and_congr_right (visible ns)
  · intro l7
    rw [parts]
    simp [Option.filter_eq_some_iff, L7Rules.isEmpty]

/-- A document with two names is not dropped, and the rule is what it describes. -/
theorem exists_toRule? {r : RuleDocument} (source : Named r.source) (target : Named r.target) :
    ∃ rule, r.toRule? = some rule ∧ r.Describes rule := by
  obtain ⟨s, hs, -⟩ := id source
  obtain ⟨t, ht, -⟩ := id target
  refine ⟨_, ?_, describes_build r hs ht⟩
  unfold RuleDocument.toRule?
  rw [present?_eq_some.2 ⟨hs, source⟩, present?_eq_some.2 ⟨ht, target⟩]
  unfold RuleDocument.steps
  cases r.ns <;> cases r.l7 <;> rfl

theorem forall₂_describes {rs : List RuleDocument}
    (named : ∀ r ∈ rs, Named r.source ∧ Named r.target) :
    List.Forall₂ RuleDocument.Describes rs (rs.filterMap RuleDocument.toRule?) := by
  induction rs with
  | nil => exact .nil
  | cons r rs ih =>
    obtain ⟨source, target⟩ := named r List.mem_cons_self
    obtain ⟨rule, made, describes⟩ := exists_toRule? source target
    rw [List.filterMap_cons_some made]
    exact .cons describes (ih fun s hs => named s (List.mem_cons_of_mem _ hs))

namespace IntentDocument

variable {d : IntentDocument}

theorem toIntent_of_invalid (h : d.validate.isValid = false) :
    d.toIntent = .error d.validate.problems := by
  unfold toIntent
  simp [h]

/-- A valid document is converted, and no rule of it is lost. -/
theorem exists_toIntent {rules : List RuleDocument} (hr : d.rules = some rules)
    (named : ∀ r ∈ rules, Named r.source ∧ Named r.target) :
    ∃ intent, d.toIntent = .ok intent ∧
      List.Forall₂ RuleDocument.Describes rules intent.rules := by
  have valid : d.validate.isValid = true := isValid_validate_iff.2 ⟨rules, hr, named⟩
  have described := forall₂_describes named
  unfold toIntent
  simp only [valid, Bool.not_true, Bool.false_eq_true, if_false, hr, Option.getD_some]
  cases d.description <;> exact ⟨_, rfl, described⟩

/-- A document is converted exactly if nothing is missing in it, which is the case if it has rules
and all their ends have names; what is only odd does not matter. If it is not, the report's problems
come back, whose texts say what is missing, and if it is, the intent has its rules one by one. -/
theorem toIntent_agrees (d : IntentDocument) :
    ((∃ intent, d.toIntent = .ok intent) ↔ d.validate.isValid = true) ∧
    (d.validate.isValid = true ↔
      ∃ rules, d.rules = some rules ∧ ∀ r ∈ rules, Named r.source ∧ Named r.target) ∧
    d.validate.problems.map Problem.message = d.missingTexts ∧
    d.validate.cautions.map Caution.message = d.oddTexts ∧
    match d.toIntent with
    | .error problems => problems = d.validate.problems
    | .ok intent => ∃ rules, d.rules = some rules ∧
      List.Forall₂ RuleDocument.Describes rules intent.rules := by
  refine ⟨?_, isValid_validate_iff, validate_texts.1, validate_texts.2, ?_⟩
  · constructor
    · rintro ⟨intent, made⟩
      cases valid : d.validate.isValid with
      | true => rfl
      | false =>
        rw [toIntent_of_invalid valid] at made
        contradiction
    · intro valid
      obtain ⟨rules, hr, named⟩ := isValid_validate_iff.1 valid
      obtain ⟨intent, made, -⟩ := exists_toIntent hr named
      exact ⟨intent, made⟩
  · cases valid : d.validate.isValid with
    | false => rw [toIntent_of_invalid valid]
    | true =>
      obtain ⟨rules, hr, named⟩ := isValid_validate_iff.1 valid
      obtain ⟨intent, made, described⟩ := exists_toIntent hr named
      rw [made]
      exact ⟨rules, hr, described⟩

end IntentDocument

end TrafficIntent
