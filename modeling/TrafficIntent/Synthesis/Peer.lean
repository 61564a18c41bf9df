import TrafficIntent.Manifest.CiliumPolicy

namespace TrafficIntent

/-- The pod label with the name of the service. -/
def serviceLabel : String := "app"

/-- The label with which a namespace names itself. -/
def namespaceLabel : String := "name"

/-- The pod label in which Cilium keeps the namespace. -/
def ciliumNamespaceLabel : String := "k8s:io.kubernetes.pod.namespace"

structure Peer where
  service : String
  ns : Option String
  deriving DecidableEq, Hashable

namespace Peer

/-- The peer for a service in one namespace, seen from a policy in another. -/
def resolve (service ns policyNs : String) : Peer :=
  ⟨service, if ns = policyNs then none else some ns⟩

def isCrossNamespace (p : Peer) : Bool := p.ns.isSome

def toPolicyPeer (p : Peer) : PolicyPeer :=
  ⟨some (.single serviceLabel p.service), p.ns.map (.single namespaceLabel)⟩

def toEndpointSelector (p : Peer) : LabelSelector :=
  let labels := KeyMap.singleton serviceLabel p.service
  ⟨match p.ns with
    | some ns => labels.insert ciliumNamespaceLabel ns
    | none => labels⟩

end Peer

end TrafficIntent
