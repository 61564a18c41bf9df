import TrafficIntent.Json.Members
import TrafficIntent.Json.Tree

namespace TrafficIntent

open Json (Decoder)

/-- The label naming the tool that manages a resource. -/
def managedByLabel : String := "app.kubernetes.io/managed-by"

def managerName : String := "netintent"

/-- The annotation with the time at which a resource was generated. Nothing else differs between two
compilations of one intent. -/
def generatedAtKey : String := "generated-at"

structure ObjectMeta where
  name : String
  ns : String
  labels : Labels
  annotations : Labels
  deriving DecidableEq

namespace ObjectMeta

/-- A new resource carries the label of its manager. -/
def new (name ns : String) : ObjectMeta :=
  ⟨name, ns, .singleton managedByLabel managerName, .empty⟩

def label (m : ObjectMeta) (key value : String) : ObjectMeta :=
  { m with labels := m.labels.insert key value }

def annotate (m : ObjectMeta) (key value : String) : ObjectMeta :=
  { m with annotations := m.annotations.insert key value }

def withoutTimestamps (m : ObjectMeta) : ObjectMeta :=
  { m with annotations := m.annotations.erase generatedAtKey }

def toJson (m : ObjectMeta) : Json :=
  .object <|
    [("name", .string m.name), ("namespace", .string m.ns)] ++
      Json.unlessBare "labels" m.labels ++ Json.unlessBare "annotations" m.annotations

def decoder : Decoder ObjectMeta :=
  Decoder.record {
    title := "ObjectMeta"
    blank := ⟨"", "", .empty, .empty⟩
    fields := [
      .needed "name" (fun v m => { m with name := v }) Decoder.string,
      .needed "namespace" (fun v m => { m with ns := v }) Decoder.string,
      .free "labels" (fun v m => { m with labels := v }) Decoder.labels,
      .free "annotations" (fun v m => { m with annotations := v }) Decoder.labels] }

end ObjectMeta

end TrafficIntent
