import TrafficIntent.Manifest.NetworkPolicy

/-!
Network policies as the cluster's own interface has them. There nearly every part may be missing,
and a port is a number or a name. Policies come into this form through the tree that they write.
-/

namespace TrafficIntent.Cluster

open Json (Decoder)

inductive PortRef where
  | number (n : Int)
  | name (s : String)
  deriving DecidableEq

structure Meta where
  name : Option String
  ns : Option String
  labels : Option Labels
  annotations : Option Labels
  deriving DecidableEq

structure Selector where
  matchLabels : Option Labels
  deriving DecidableEq

structure Port where
  port : Option PortRef
  protocol : Option String
  deriving DecidableEq

structure Peer where
  podSelector : Option Selector
  namespaceSelector : Option Selector
  deriving DecidableEq

structure Entry where
  peers : Option (List Peer)
  ports : Option (List Port)
  deriving DecidableEq

structure Spec where
  podSelector : Selector
  policyTypes : Option (List String)
  ingress : Option (List Entry)
  egress : Option (List Entry)
  deriving DecidableEq

structure Policy where
  metadata : Meta
  spec : Option Spec
  deriving DecidableEq

/-- A text that must be one in particular. -/
def exactly (expected : String) : Decoder Unit := fun j => do
  let s ← Decoder.string j
  if s = expected then return () else throw (.value (.string s) expected)

/-- A field that may be left out or be null. -/
def part {σ α : Type} (name : String) (set : Option α → σ → σ) (d : Decoder α) : Field Decoder σ :=
  .free name set (Decoder.optional d)

namespace PortRef

def toJson : PortRef → Json
  | number n => .int n
  | name s => .string s

/-- Numbers have 32 bits with a sign. -/
def decoder : Decoder PortRef
  | .number (.integer n) =>
    if -2147483648 ≤ n ∧ n < 2147483648 then .ok (number n)
    else .error (.value (.integer n) "i32")
  | .string s => .ok (name s)
  | j => Decoder.refuse "IntOrString" j

end PortRef

namespace Meta

def toJson (m : Meta) : Json :=
  .object <|
    Json.ifSome "annotations" Json.labels m.annotations ++
      Json.ifSome "labels" Json.labels m.labels ++
      Json.ifSome "name" .string m.name ++ Json.ifSome "namespace" .string m.ns

def decoder : Decoder Meta :=
  Decoder.record {
    title := "ObjectMeta"
    blank := ⟨none, none, none, none⟩
    fields := [
      part "annotations" (fun v m => { m with annotations := v }) Decoder.labels,
      part "labels" (fun v m => { m with labels := v }) Decoder.labels,
      part "name" (fun v m => { m with name := v }) Decoder.string,
      part "namespace" (fun v m => { m with ns := v }) Decoder.string] }

end Meta

namespace Selector

def toJson (s : Selector) : Json := .object (Json.ifSome "matchLabels" Json.labels s.matchLabels)

def decoder : Decoder Selector :=
  Decoder.record {
    title := "LabelSelector"
    blank := ⟨none⟩
    fields := [part "matchLabels" (fun v _ => ⟨v⟩) Decoder.labels] }

end Selector

namespace Port

def toJson (p : Port) : Json :=
  .object (Json.ifSome "port" PortRef.toJson p.port ++ Json.ifSome "protocol" .string p.protocol)

def decoder : Decoder Port :=
  Decoder.record {
    title := "NetworkPolicyPort"
    blank := ⟨none, none⟩
    fields := [
      part "port" (fun v p => { p with port := v }) PortRef.decoder,
      part "protocol" (fun v p => { p with protocol := v }) Decoder.string] }

end Port

namespace Peer

def toJson (p : Peer) : Json :=
  .object <|
    Json.ifSome "namespaceSelector" Selector.toJson p.namespaceSelector ++
      Json.ifSome "podSelector" Selector.toJson p.podSelector

def decoder : Decoder Peer :=
  Decoder.record {
    title := "NetworkPolicyPeer"
    blank := ⟨none, none⟩
    fields := [
      part "namespaceSelector" (fun v p => { p with namespaceSelector := v }) Selector.decoder,
      part "podSelector" (fun v p => { p with podSelector := v }) Selector.decoder] }

end Peer

namespace Entry

def toJson (d : Direction) (e : Entry) : Json :=
  .object <|
    Json.ifSome d.peersName (Json.listOf Peer.toJson) e.peers ++
      Json.ifSome "ports" (Json.listOf Port.toJson) e.ports

def decoder (d : Direction) : Decoder Entry :=
  Decoder.record {
    title := "NetworkPolicy" ++ d.name ++ "Rule"
    blank := ⟨none, none⟩
    fields := [
      part d.peersName (fun v e => { e with peers := v }) (Decoder.list Peer.decoder),
      part "ports" (fun v e => { e with ports := v }) (Decoder.list Port.decoder)] }

end Entry

namespace Spec

def toJson (s : Spec) : Json :=
  .object <|
    Json.ifSome "egress" (Json.listOf (Entry.toJson .egress)) s.egress ++
      Json.ifSome "ingress" (Json.listOf (Entry.toJson .ingress)) s.ingress ++
      ("podSelector", s.podSelector.toJson) :: Json.ifSome "policyTypes" Json.texts s.policyTypes

def decoder : Decoder Spec :=
  Decoder.record {
    title := "NetworkPolicySpec"
    blank := ⟨⟨none⟩, none, none, none⟩
    fields := [
      part "egress" (fun v s => { s with egress := v }) (Decoder.list (Entry.decoder .egress)),
      part "ingress" (fun v s => { s with ingress := v }) (Decoder.list (Entry.decoder .ingress)),
      .needed "podSelector" (fun v s => { s with podSelector := v }) Selector.decoder,
      part "policyTypes" (fun v s => { s with policyTypes := v }) (Decoder.list Decoder.string)] }

end Spec

namespace Policy

def toJson (p : Policy) : Json :=
  .object <|
    [("apiVersion", .string (Resource.apiVersion NetworkPolicy)),
      ("kind", .string (Resource.kind NetworkPolicy)), ("metadata", p.metadata.toJson)] ++
      Json.ifSome "spec" Spec.toJson p.spec

/-- The names of the interface and of the kind must be those of network policies. -/
def decoder : Decoder Policy :=
  Decoder.record {
    title := "NetworkPolicy"
    blank := ⟨⟨none, none, none, none⟩, none⟩
    fields := [
      .free "apiVersion" (fun _ p => p) (exactly (Resource.apiVersion NetworkPolicy)),
      .free "kind" (fun _ p => p) (exactly (Resource.kind NetworkPolicy)),
      .needed "metadata" (fun v p => { p with metadata := v }) Meta.decoder,
      part "spec" (fun v p => { p with spec := v }) Spec.decoder] }

end Policy

end TrafficIntent.Cluster

namespace TrafficIntent

/-- The policy as the cluster's interface takes it. -/
def NetworkPolicy.toCluster (p : NetworkPolicy) : Except Mismatch Cluster.Policy :=
  Cluster.Policy.decoder.decode p.toJson.sorted

end TrafficIntent
