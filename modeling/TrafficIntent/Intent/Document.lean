import TrafficIntent.Manifest.HttpRule

/-!
Intent documents as they come in. Every part may be missing, so that what is missing can be reported
all at once; a missing list of rules is not an empty one.
-/

namespace TrafficIntent

structure RuleDocument where
  source : Option String
  target : Option String
  ports : Option (List UInt16)
  protocols : Option (List String)
  ns : Option String
  l7 : Option L7Rules
  deriving DecidableEq

structure IntentDocument where
  name : Option String
  ns : Option String
  description : Option String
  rules : Option (List RuleDocument)
  deriving DecidableEq

namespace RuleDocument

def blank : RuleDocument := ⟨none, none, none, none, none, none⟩

def toJson (r : RuleDocument) : Json :=
  .object <|
    Json.ifSome "from" .string r.source ++ Json.ifSome "to" .string r.target ++
      Json.ifSome "ports" (Json.listOf fun p => .int p.toNat) r.ports ++
      Json.ifSome "protocols" Json.texts r.protocols ++ Json.ifSome "namespace" .string r.ns ++
      Json.ifSome "l7_rules" L7Rules.toJson r.l7

/-- Three fields go by a second name as well. -/
def read {m : Type → Type} [Reader m] : m RuleDocument :=
  Reader.record {
    title := "RuleSpec"
    blank := blank
    fields := [
      (Field.free "from" (fun v r => { r with source := v })
        (Reader.optional Reader.string)).orNamed "from_service",
      (Field.free "to" (fun v r => { r with target := v })
        (Reader.optional Reader.string)).orNamed "to_service",
      .free "ports" (fun v r => { r with ports := v }) (Reader.optional (Reader.list Reader.port)),
      .free "protocols" (fun v r => { r with protocols := v })
        (Reader.optional (Reader.list Reader.string)),
      .free "namespace" (fun v r => { r with ns := v }) (Reader.optional Reader.string),
      (Field.free "l7_rules" (fun v r => { r with l7 := v })
        (Reader.optional L7Rules.read)).orNamed "l7Rules"] }

end RuleDocument

namespace IntentDocument

def blank : IntentDocument := ⟨none, none, none, none⟩

def toJson (d : IntentDocument) : Json :=
  .object <|
    Json.ifSome "name" .string d.name ++ Json.ifSome "namespace" .string d.ns ++
      Json.ifSome "description" .string d.description ++
      Json.ifSome "rules" (Json.listOf RuleDocument.toJson) d.rules

def read {m : Type → Type} [Reader m] : m IntentDocument :=
  Reader.record {
    title := "IntentSpec"
    blank := blank
    fields := [
      .free "name" (fun v d => { d with name := v }) (Reader.optional Reader.string),
      .free "namespace" (fun v d => { d with ns := v }) (Reader.optional Reader.string),
      .free "description" (fun v d => { d with description := v }) (Reader.optional Reader.string),
      .free "rules" (fun v d => { d with rules := v })
        (Reader.optional (Reader.list RuleDocument.read))] }

end IntentDocument

end TrafficIntent
