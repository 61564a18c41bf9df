import TrafficIntent.Intent.Rule
import TrafficIntent.Manifest.Meta
import TrafficIntent.Timestamp

namespace TrafficIntent

def policyTypeLabel : String := "policy-type"
def targetServiceLabel : String := "target-service"
def sourceServiceLabel : String := "source-service"
def intentLabel : String := "intent"
def descriptionKey : String := "description"
def intentDescriptionKey : String := "intent-description"
def allowedSourcesKey : String := "allowed-sources"
def allowedDestinationsKey : String := "allowed-destinations"

/-- One run over an intent: all its policies carry the same time. -/
structure Compilation where
  intent : Intent
  generatedAt : Timestamp
  deriving DecidableEq

/-- The metadata of a policy of some family. -/
def Compilation.metadata (c : Compilation) (name ns family description : String) : ObjectMeta :=
  let m := (ObjectMeta.new name ns).label policyTypeLabel family
  let m := (m.annotate descriptionKey description).annotate generatedAtKey c.generatedAt.text
  match c.intent.description with
  | some text => m.annotate intentDescriptionKey text
  | none => m

end TrafficIntent
