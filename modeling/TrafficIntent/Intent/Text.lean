import TrafficIntent.Intent.Document
import TrafficIntent.Json.Text
import TrafficIntent.Yaml.Typed

namespace TrafficIntent

inductive TextFault where
  | json (f : Json.Fault)
  | yaml (f : Yaml.Misfit)
  /-- The text is not YAML, or not a single document. -/
  | malformedYaml
  deriving DecidableEq

def TextFault.message : TextFault → String
  | json f => "json error: " ++ f.message
  | yaml f => "yaml error: " ++ f.message
  | malformedYaml => "yaml error: malformed document"

namespace IntentDocument

def ofJson (text : String) : Except TextFault IntentDocument :=
  (Json.Scan.readText read text).mapError .json

def ofYaml (text : String) : Except TextFault IntentDocument :=
  match Yaml.Document.ofText? text with
  | none => .error .malformedYaml
  | some d => (Yaml.TypedReader.readDocument read d).mapError .yaml

end IntentDocument

end TrafficIntent
