import TrafficIntent.Synthesis.Entry
import TrafficIntent.Synthesis.Metadata

namespace TrafficIntent

def egressName (source : String) : String := "allow-egress-from-" ++ source

def dnsPort : UInt16 := 53

/-- Names may be resolved anywhere. The entry is there even where a rule opens the port already. -/
def dnsEntry : PolicyEntry := ⟨[], some [⟨dnsPort, "UDP"⟩, ⟨dnsPort, "TCP"⟩]⟩

namespace Compilation

/-- The target of a rule, seen from the intent's namespace. -/
def targetPeer (c : Compilation) (r : Rule) : Peer :=
  .resolve r.target (r.nsOr c.intent.ns) c.intent.ns

def egressPolicy (c : Compilation) (source : String) (rules : List Rule) : NetworkPolicy :=
  let entries := peerEntries rules c.targetPeer
  let m := c.metadata (egressName source) c.intent.ns "egress"
    ("Allow egress traffic from " ++ source)
  let m := (m.label sourceServiceLabel source).label intentLabel c.intent.name
  .new (m.annotate allowedDestinationsKey (joinedServices entries))
    ⟨.single serviceLabel source, [.egress], [],
      (entries.map fun e => ⟨[e.peer.toPolicyPeer], e.ports⟩) ++ [dnsEntry]⟩

def egress (c : Compilation) : List NetworkPolicy :=
  (groupsOf Rule.source c.intent.rules).map fun g => c.egressPolicy g.key g.members

end Compilation

end TrafficIntent
