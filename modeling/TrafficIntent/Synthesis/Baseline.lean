import TrafficIntent.Manifest.NetworkPolicy
import TrafficIntent.Synthesis.Metadata

namespace TrafficIntent

def baselineName : String := "default-deny-all"

def Compilation.baseline (c : Compilation) (ns : String) : NetworkPolicy :=
  .new
    (c.metadata baselineName ns "default-deny" "Default deny all ingress and egress traffic")
    ⟨.all, [.ingress, .egress], [], []⟩

end TrafficIntent
