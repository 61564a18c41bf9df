import TrafficIntent.Synthesis.Entry
import TrafficIntent.Synthesis.Metadata

namespace TrafficIntent

def ingressName (target : String) : String := "allow-ingress-to-" ++ target

namespace Compilation

/-- The source of a rule, seen from the intent's namespace. -/
def sourcePeer (c : Compilation) (r : Rule) : Peer :=
  .resolve r.source (r.nsOr c.intent.ns) c.intent.ns

def ingressPolicy (c : Compilation) (target : String) (rules : List Rule) : NetworkPolicy :=
  let entries := peerEntries rules c.sourcePeer
  let m := c.metadata (ingressName target) c.intent.ns "ingress"
    ("Allow ingress traffic to " ++ target)
  let m := (m.label targetServiceLabel target).label intentLabel c.intent.name
  .new (m.annotate allowedSourcesKey (joinedServices entries))
    ⟨.single serviceLabel target, [.ingress],
      entries.map fun e => ⟨[e.peer.toPolicyPeer], e.ports⟩, []⟩

def ingress (c : Compilation) : List NetworkPolicy :=
  (groupsOf Rule.target c.intent.rules).map fun g => c.ingressPolicy g.key g.members

end Compilation

end TrafficIntent
