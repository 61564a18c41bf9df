import TrafficIntent.Manifest.Resource

namespace TrafficIntent

open Json (Decoder)

/-- Selects what carries all the labels; no label selects everything. -/
structure LabelSelector where
  matchLabels : Labels
  deriving DecidableEq

inductive Direction where
  | ingress
  | egress
  deriving DecidableEq

structure PolicyPort where
  port : UInt16
  protocol : String
  deriving DecidableEq

/-- The pods on the other side, in the policy's own namespace unless a namespace is selected. -/
structure PolicyPeer where
  podSelector : Option LabelSelector
  namespaceSelector : Option LabelSelector
  deriving DecidableEq

/-- An entry of a policy in one direction. Without peers it admits every peer; without a list of
ports it admits all ports. -/
structure PolicyEntry where
  peers : List PolicyPeer
  ports : Option (List PolicyPort)
  deriving DecidableEq

structure PolicySpec where
  podSelector : LabelSelector
  policyTypes : List Direction
  ingress : List PolicyEntry
  egress : List PolicyEntry
  deriving DecidableEq

structure NetworkPolicy where
  apiVersion : String
  kind : String
  metadata : ObjectMeta
  spec : PolicySpec
  deriving DecidableEq

namespace LabelSelector

def all : LabelSelector := ⟨.empty⟩

def single (key value : String) : LabelSelector := ⟨.singleton key value⟩

def label? (s : LabelSelector) (key : String) : Option String := s.matchLabels.get? key

def toJson (s : LabelSelector) : Json := .object (Json.unlessBare "matchLabels" s.matchLabels)

/-- Selectors are read under the title of their record. -/
def decoder (title : String) : Decoder LabelSelector :=
  Decoder.record {
    title := title
    blank := all
    fields := [.free "matchLabels" (fun v _ => ⟨v⟩) Decoder.labels] }

end LabelSelector

namespace Direction

def name : Direction → String
  | ingress => "Ingress"
  | egress => "Egress"

def toJson (d : Direction) : Json := .string d.name

def decoder : Decoder Direction :=
  Decoder.choice [(ingress.name, ingress), (egress.name, egress)]

end Direction

namespace PolicyPort

def toJson (p : PolicyPort) : Json :=
  .object [("port", .int p.port.toNat), ("protocol", .string p.protocol)]

def decoder : Decoder PolicyPort :=
  Decoder.record {
    title := "NetworkPolicyPort"
    blank := ⟨0, ""⟩
    fields := [
      .needed "port" (fun v p => { p with port := v }) Decoder.port,
      .needed "protocol" (fun v p => { p with protocol := v }) Decoder.string] }

end PolicyPort

namespace PolicyPeer

def toJson (p : PolicyPeer) : Json :=
  .object <|
    Json.ifSome "podSelector" LabelSelector.toJson p.podSelector ++
      Json.ifSome "namespaceSelector" LabelSelector.toJson p.namespaceSelector

def decoder : Decoder PolicyPeer :=
  Decoder.record {
    title := "NetworkPolicyPeer"
    blank := ⟨none, none⟩
    fields := [
      .free "podSelector" (fun v p => { p with podSelector := v })
        (Decoder.optional (LabelSelector.decoder "LabelSelector")),
      .free "namespaceSelector" (fun v p => { p with namespaceSelector := v })
        (Decoder.optional (LabelSelector.decoder "LabelSelector"))] }

end PolicyPeer

namespace Direction

/-- The name under which an entry lists its peers. -/
def peersName : Direction → String
  | ingress => "from"
  | egress => "to"

end Direction

namespace PolicyEntry

def toJson (d : Direction) (e : PolicyEntry) : Json :=
  .object <|
    Json.unlessEmpty d.peersName PolicyPeer.toJson e.peers ++
      Json.ifSome "ports" (Json.listOf PolicyPort.toJson) e.ports

def decoder (d : Direction) : Decoder PolicyEntry :=
  Decoder.record {
    title := "NetworkPolicy" ++ d.name ++ "Rule"
    blank := ⟨[], none⟩
    fields := [
      .free d.peersName (fun v e => { e with peers := v }) (Decoder.list PolicyPeer.decoder),
      .free "ports" (fun v e => { e with ports := v })
        (Decoder.optional (Decoder.list PolicyPort.decoder))] }

end PolicyEntry

namespace PolicySpec

def toJson (s : PolicySpec) : Json :=
  .object <|
    [("podSelector", s.podSelector.toJson),
      ("policyTypes", Json.listOf Direction.toJson s.policyTypes)] ++
      Json.unlessEmpty "ingress" (PolicyEntry.toJson .ingress) s.ingress ++
      Json.unlessEmpty "egress" (PolicyEntry.toJson .egress) s.egress

def decoder : Decoder PolicySpec :=
  Decoder.record {
    title := "NetworkPolicySpec"
    blank := ⟨.all, [], [], []⟩
    fields := [
      .needed "podSelector" (fun v s => { s with podSelector := v })
        (LabelSelector.decoder "LabelSelector"),
      .needed "policyTypes" (fun v s => { s with policyTypes := v })
        (Decoder.list Direction.decoder),
      .free "ingress" (fun v s => { s with ingress := v })
        (Decoder.list (PolicyEntry.decoder .ingress)),
      .free "egress" (fun v s => { s with egress := v })
        (Decoder.list (PolicyEntry.decoder .egress))] }

end PolicySpec

namespace NetworkPolicy

def new (metadata : ObjectMeta) (spec : PolicySpec) : NetworkPolicy :=
  ⟨"networking.k8s.io/v1", "NetworkPolicy", metadata, spec⟩

def toJson (p : NetworkPolicy) : Json :=
  .object [("apiVersion", .string p.apiVersion), ("kind", .string p.kind),
    ("metadata", p.metadata.toJson), ("spec", p.spec.toJson)]

instance : Resource NetworkPolicy where
  apiVersion := "networking.k8s.io/v1"
  kind := "NetworkPolicy"
  metadata := metadata
  withMetadata p m := { p with metadata := m }
  toJson := toJson

def decoder : Decoder NetworkPolicy :=
  Decoder.record {
    title := "NetworkPolicy"
    blank := new ⟨"", "", .empty, .empty⟩ ⟨.all, [], [], []⟩
    fields := [
      .free "apiVersion" (fun v p => { p with apiVersion := v }) Decoder.string,
      .free "kind" (fun v p => { p with kind := v }) Decoder.string,
      .needed "metadata" (fun v p => { p with metadata := v }) ObjectMeta.decoder,
      .needed "spec" (fun v p => { p with spec := v }) PolicySpec.decoder] }

end NetworkPolicy

end TrafficIntent
