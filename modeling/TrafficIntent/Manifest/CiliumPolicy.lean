import TrafficIntent.Manifest.HttpRule
import TrafficIntent.Manifest.NetworkPolicy

namespace TrafficIntent

open Json (Decoder)

/-- Cilium takes port numbers as text. -/
structure CiliumPort where
  port : String
  protocol : String
  deriving DecidableEq

structure CiliumPortRule where
  ports : List CiliumPort
  rules : Option L7Rules
  deriving DecidableEq

structure CiliumEntry where
  fromEndpoints : List LabelSelector
  toPorts : List CiliumPortRule
  deriving DecidableEq

structure CiliumSpec where
  endpointSelector : LabelSelector
  ingress : List CiliumEntry
  deriving DecidableEq

structure CiliumPolicy where
  apiVersion : String
  kind : String
  metadata : ObjectMeta
  spec : CiliumSpec
  deriving DecidableEq

namespace CiliumPort

def toJson (p : CiliumPort) : Json :=
  .object [("port", .string p.port), ("protocol", .string p.protocol)]

def decoder : Decoder CiliumPort :=
  Decoder.record {
    title := "CiliumPort"
    blank := ⟨"", ""⟩
    fields := [
      .needed "port" (fun v p => { p with port := v }) Decoder.string,
      .needed "protocol" (fun v p => { p with protocol := v }) Decoder.string] }

end CiliumPort

namespace CiliumPortRule

def toJson (r : CiliumPortRule) : Json :=
  .object <|
    ("ports", Json.listOf CiliumPort.toJson r.ports) :: Json.ifSome "rules" L7Rules.toJson r.rules

def decoder : Decoder CiliumPortRule :=
  Decoder.record {
    title := "CiliumPortRule"
    blank := ⟨[], none⟩
    fields := [
      .needed "ports" (fun v r => { r with ports := v }) (Decoder.list CiliumPort.decoder),
      .free "rules" (fun v r => { r with rules := v }) (Decoder.optional L7Rules.read)] }

end CiliumPortRule

/-- The title under which Cilium's selectors are read. -/
def endpointSelectorTitle : String := "EndpointSelector"

namespace CiliumEntry

def toJson (e : CiliumEntry) : Json :=
  .object <|
    Json.unlessEmpty "fromEndpoints" LabelSelector.toJson e.fromEndpoints ++
      Json.unlessEmpty "toPorts" CiliumPortRule.toJson e.toPorts

def decoder : Decoder CiliumEntry :=
  Decoder.record {
    title := "CiliumIngressRule"
    blank := ⟨[], []⟩
    fields := [
      .free "fromEndpoints" (fun v e => { e with fromEndpoints := v })
        (Decoder.list (LabelSelector.decoder endpointSelectorTitle)),
      .free "toPorts" (fun v e => { e with toPorts := v }) (Decoder.list CiliumPortRule.decoder)] }

end CiliumEntry

namespace CiliumSpec

def toJson (s : CiliumSpec) : Json :=
  .object <|
    ("endpointSelector", s.endpointSelector.toJson) ::
      Json.unlessEmpty "ingress" CiliumEntry.toJson s.ingress

def decoder : Decoder CiliumSpec :=
  Decoder.record {
    title := "CiliumNetworkPolicySpec"
    blank := ⟨.all, []⟩
    fields := [
      .needed "endpointSelector" (fun v s => { s with endpointSelector := v })
        (LabelSelector.decoder endpointSelectorTitle),
      .free "ingress" (fun v s => { s with ingress := v }) (Decoder.list CiliumEntry.decoder)] }

end CiliumSpec

namespace CiliumPolicy

def new (metadata : ObjectMeta) (spec : CiliumSpec) : CiliumPolicy :=
  ⟨"cilium.io/v2", "CiliumNetworkPolicy", metadata, spec⟩

def toJson (p : CiliumPolicy) : Json :=
  .object [("apiVersion", .string p.apiVersion), ("kind", .string p.kind),
    ("metadata", p.metadata.toJson), ("spec", p.spec.toJson)]

instance : Resource CiliumPolicy where
  apiVersion := "cilium.io/v2"
  kind := "CiliumNetworkPolicy"
  metadata := metadata
  withMetadata p m := { p with metadata := m }
  toJson := toJson

def decoder : Decoder CiliumPolicy :=
  Decoder.record {
    title := "CiliumNetworkPolicy"
    blank := new ⟨"", "", .empty, .empty⟩ ⟨.all, []⟩
    fields := [
      .free "apiVersion" (fun v p => { p with apiVersion := v }) Decoder.string,
      .free "kind" (fun v p => { p with kind := v }) Decoder.string,
      .needed "metadata" (fun v p => { p with metadata := v }) ObjectMeta.decoder,
      .needed "spec" (fun v p => { p with spec := v }) CiliumSpec.decoder] }

end CiliumPolicy

end TrafficIntent
