import TrafficIntent.Synthesis.Ingress

namespace TrafficIntent

def ciliumName (target : String) : String := "cilium-allow-ingress-to-" ++ target

/-- The port that HTTP matchers apply to where a rule lists no ports. -/
def defaultL7Port : UInt16 := 80

/-- The ports of a rule, with its matchers on them. -/
def Rule.ciliumPorts (r : Rule) : List CiliumPortRule :=
  match r.expandPorts, r.l7 with
  | some ports, l7 => [⟨ports.map fun p => ⟨toString p.port.toNat, p.protocol⟩, l7⟩]
  | none, some l7 => [⟨[⟨toString defaultL7Port.toNat, defaultProtocol⟩], some l7⟩]
  | none, none => []

namespace Compilation

def ciliumPolicy (c : Compilation) (target : String) (rules : List Rule) : CiliumPolicy :=
  let m := c.metadata (ciliumName target) c.intent.ns "l7-ingress"
    ("Allow L7-filtered ingress traffic to " ++ target)
  .new ((m.label targetServiceLabel target).label intentLabel c.intent.name)
    ⟨.single serviceLabel target,
      rules.map fun r => ⟨[(c.sourcePeer r).toEndpointSelector], r.ciliumPorts⟩⟩

def cilium (c : Compilation) : List CiliumPolicy :=
  (groupsOf Rule.target c.intent.rules).map fun g => c.ciliumPolicy g.key g.members

end Compilation

end TrafficIntent
