import TrafficIntent.Intent.Rule

namespace TrafficIntent

def defaultNamespace : String := "default"

def defaultIntentName : String := "generated"

/-- The given text, or a default where it is missing or empty. -/
def nonEmptyOr (fallback : String) : Option String → String
  | some s => if s.isEmpty then fallback else s
  | none => fallback

/-- The rule that a document describes, if both its endpoints are present. -/
def RuleDocument.toRule? (r : RuleDocument) : Option Rule := do
  let source ← present? r.source
  let target ← present? r.target
  let rule := ((Rule.new source target).withPorts (r.ports.getD [])).withProtocols
    (r.protocols.getD [])
  let rule := match r.ns with
    | some ns => rule.inNamespace ns
    | none => rule
  return match r.l7 with
    | some l7 => rule.withL7 l7
    | none => rule

def IntentDocument.toIntent (d : IntentDocument) : Except (List Problem) Intent :=
  let report := d.validate
  if !report.isValid then .error report.problems
  else
    let rules := (d.rules.getD []).filterMap RuleDocument.toRule?
    let intent := Intent.new (nonEmptyOr defaultIntentName d.name)
      (nonEmptyOr defaultNamespace d.ns) rules
    .ok <| match d.description with
      | some text => intent.withDescription text
      | none => intent

end TrafficIntent
