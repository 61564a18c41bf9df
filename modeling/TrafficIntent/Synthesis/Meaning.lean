import TrafficIntent.Synthesis.Peer

/-!
What a list of policies means for the traffic of a cluster. A pod is isolated in a direction if some
policy that governs it names the direction; it then has only the connections that an entry of some
policy that governs it admits. A connection needs both of its ends to admit it.
-/

namespace TrafficIntent

/-- A pod runs in a namespace and is known by its labels only. -/
structure Pod where
  ns : String
  labels : Labels
  deriving DecidableEq

/-- The service that a pod belongs to. -/
def Pod.service? (p : Pod) : Option String := p.labels.get? serviceLabel

/-- The labels of a namespace: its name and nothing else. -/
def namespaceLabels (ns : String) : Labels := .singleton namespaceLabel ns

def LabelSelector.selects (s : LabelSelector) (labels : Labels) : Bool :=
  s.matchLabels.entries.all fun e => labels.get? e.1 == some e.2

def PolicyPeer.selects (policyNs : String) (p : PolicyPeer) (pod : Pod) : Bool :=
  (match p.namespaceSelector with
    | none => pod.ns == policyNs
    | some s => s.selects (namespaceLabels pod.ns)) &&
  match p.podSelector with
    | none => true
    | some s => s.selects pod.labels

namespace PolicyEntry

/-- An entry without peers is for every pod. -/
def admitsPod (policyNs : String) (e : PolicyEntry) (pod : Pod) : Bool :=
  e.peers.isEmpty || e.peers.any fun p => p.selects policyNs pod

/-- A missing or empty list of ports stands for all ports. -/
def admitsPort (e : PolicyEntry) (p : PolicyPort) : Bool :=
  match e.ports with
  | none => true
  | some ports => ports.isEmpty || ports.contains p

end PolicyEntry

namespace NetworkPolicy

def governs (p : NetworkPolicy) (pod : Pod) : Bool :=
  pod.ns == p.metadata.ns && p.spec.podSelector.selects pod.labels

def entries (p : NetworkPolicy) : Direction → List PolicyEntry
  | .ingress => p.spec.ingress
  | .egress => p.spec.egress

end NetworkPolicy

def isIsolated (ms : List NetworkPolicy) (d : Direction) (pod : Pod) : Bool :=
  ms.any fun p => p.governs pod && p.spec.policyTypes.contains d

/-- Whether a pod may have a connection with a peer, in the direction seen from the pod. -/
def admitsEnd (ms : List NetworkPolicy) (d : Direction) (pod peer : Pod) (port : PolicyPort) :
    Bool :=
  !isIsolated ms d pod || ms.any fun p =>
    p.governs pod && (p.entries d).any fun e => e.admitsPod p.metadata.ns peer && e.admitsPort port

/-- Whether the source may connect to a port of the target. -/
def admits (ms : List NetworkPolicy) (source target : Pod) (port : PolicyPort) : Bool :=
  admitsEnd ms .egress source target port && admitsEnd ms .ingress target source port

/-! ### Cilium's policies, without their matchers of requests -/

namespace CiliumEntry

/-- Whether an entry is for a service in a namespace. A selector that names no namespace is for the
policy's own. -/
def admitsService (policyNs : String) (e : CiliumEntry) (service ns : String) : Bool :=
  e.fromEndpoints.any fun s =>
    s.label? serviceLabel == some service && (s.label? ciliumNamespaceLabel).getD policyNs == ns

/-- An entry without port rules is for all ports. -/
def admitsPort (e : CiliumEntry) (p : PolicyPort) : Bool :=
  e.toPorts.isEmpty || e.toPorts.any fun r => r.ports.contains ⟨toString p.port.toNat, p.protocol⟩

end CiliumEntry

def CiliumPolicy.admits (p : CiliumPolicy) (service ns : String) (port : PolicyPort) : Bool :=
  p.spec.ingress.any fun e => e.admitsService p.metadata.ns service ns && e.admitsPort port

end TrafficIntent
