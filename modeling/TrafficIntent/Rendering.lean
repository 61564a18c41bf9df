import TrafficIntent.Manifest.Resource
import TrafficIntent.Yaml.Writer

namespace TrafficIntent

variable {α : Type} [Resource α]

/-- The trees of the manifests, with the members of objects in key order. -/
def structured (ms : List α) : List Json := ms.map fun m => (Resource.toJson m).sorted

def documentSeparator : String := "---\n"

/-- YAML text with a document for each manifest. -/
def toYaml (ms : List α) : String :=
  documentSeparator.intercalate (ms.map fun m => Yaml.text (Resource.toJson m))

/-- JSON text of the list of manifests. -/
def toJson (ms : List α) : String := Json.text (.array (ms.map Resource.toJson))

end TrafficIntent
