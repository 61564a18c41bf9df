import TrafficIntent.Intent.Document
import TrafficIntent.Text.Blank

/-!
What is wrong with an intent document, and what is only odd about it. Everything found is reported,
rule by rule; an endpoint with a blank name is as good as a missing one.
-/

namespace TrafficIntent

inductive Endpoint where
  | source
  | target
  deriving DecidableEq

/-- Rules are counted from zero. -/
inductive Problem where
  | noRules
  | missing (rule : Nat) (side : Endpoint)
  deriving DecidableEq

inductive Caution where
  | emptyRules
  | selfTraffic (rule : Nat)
  deriving DecidableEq

structure Report where
  problems : List Problem
  cautions : List Caution
  deriving DecidableEq

def Endpoint.fieldName : Endpoint → String
  | source => "from"
  | target => "to"

def Problem.message : Problem → String
  | noRules => "Missing 'rules' field in intent"
  | missing i side => "Rule " ++ toString i ++ ": Missing '" ++ side.fieldName ++ "' field"

def Caution.message : Caution → String
  | emptyRules => "No rules defined in intent"
  | selfTraffic i => "Rule " ++ toString i ++ ": Source and destination are the same"

/-- The text, unless it is missing or blank. -/
def present? : Option String → Option String
  | some s => if Text.isBlank s then none else some s
  | none => none

namespace RuleDocument

def problems (i : Nat) (r : RuleDocument) : List Problem :=
  (if (present? r.source).isNone then [.missing i .source] else []) ++
    (if (present? r.target).isNone then [.missing i .target] else [])

def cautions (i : Nat) (r : RuleDocument) : List Caution :=
  match present? r.source, present? r.target with
  | some a, some b => if a = b then [.selfTraffic i] else []
  | _, _ => []

end RuleDocument

namespace Report

def isValid (r : Report) : Bool := r.problems.isEmpty

def toJson (r : Report) : Json :=
  .object [("valid", .bool r.isValid), ("errors", Json.texts (r.problems.map Problem.message)),
    ("warnings", Json.texts (r.cautions.map Caution.message))]

end Report

def IntentDocument.validate (d : IntentDocument) : Report :=
  match d.rules with
  | none => ⟨[.noRules], []⟩
  | some [] => ⟨[], [.emptyRules]⟩
  | some rules =>
    ⟨rules.zipIdx.flatMap fun (r, i) => r.problems i,
      rules.zipIdx.flatMap fun (r, i) => r.cautions i⟩

end TrafficIntent
