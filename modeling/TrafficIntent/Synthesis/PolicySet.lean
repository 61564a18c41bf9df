import TrafficIntent.Synthesis.Baseline
import TrafficIntent.Synthesis.Egress
import TrafficIntent.Synthesis.Ingress

namespace TrafficIntent

structure PolicySet where
  baseline : List NetworkPolicy
  ingress : List NetworkPolicy
  egress : List NetworkPolicy
  deriving DecidableEq

namespace PolicySet

def isEmpty (s : PolicySet) : Bool := s.baseline.isEmpty && s.ingress.isEmpty && s.egress.isEmpty

def count (s : PolicySet) : Nat := s.baseline.length + s.ingress.length + s.egress.length

/-- The baseline comes first, then incoming and then outgoing traffic. -/
def manifests (s : PolicySet) : List NetworkPolicy := s.baseline ++ s.ingress ++ s.egress

end PolicySet

/-- All policies of an intent, with the baseline of its namespace. -/
def Compilation.policies (c : Compilation) : PolicySet :=
  ⟨[c.baseline c.intent.ns], c.ingress, c.egress⟩

end TrafficIntent
