import TrafficIntent.Grouping
import TrafficIntent.Intent.Rule
import TrafficIntent.Synthesis.Peer

namespace TrafficIntent

structure PeerEntry where
  peer : Peer
  ports : Option (List PolicyPort)
  deriving DecidableEq

/-- Every port of a rule with each of its protocols, port by port; `none` for all ports. -/
def Rule.expandPorts (r : Rule) : Option (List PolicyPort) :=
  r.ports.map fun ports =>
    ports.flatMap fun port => r.protocols.map fun protocol => ⟨port, protocol⟩

/-- Puts what is not there yet at the end of a list. -/
def addNew {α : Type} [DecidableEq α] (xs ys : List α) : List α :=
  ys.foldl (fun acc y => if y ∈ acc then acc else acc ++ [y]) xs

/-- The ports of several rules together. One rule for all ports is enough to admit all. The list of
the first rule is taken as it is. -/
def unionPorts : List Rule → Option (List PolicyPort)
  | [] => none
  | r :: rs => do rs.foldlM (fun acc s => s.expandPorts.map (addNew acc)) (← r.expandPorts)

/-- The entries of a group of rules. -/
def peerEntries (rules : List Rule) (peerOf : Rule → Peer) : List PeerEntry :=
  (groupsOf peerOf rules).map fun g => ⟨g.key, unionPorts g.members⟩

/-- The services of the peers, each once, between commas. -/
def joinedServices (entries : List PeerEntry) : String :=
  ",".intercalate (addNew [] (entries.map fun e => e.peer.service))

end TrafficIntent
