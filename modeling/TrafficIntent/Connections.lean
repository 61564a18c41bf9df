import TrafficIntent.Manifest.NetworkPolicy
import TrafficIntent.Synthesis.Peer

/-!
Which service may reach which, as far as a list of policies tells it: a table of destinations with
the sources that their entries for incoming traffic name.
-/

namespace TrafficIntent

/-- Destinations with their sources, both in the order in which they were first named. -/
structure Connections where
  entries : List (String × List String)
  deriving DecidableEq

/-- Whether a connection is allowed, and why. -/
structure Verdict where
  allowed : Bool
  reason : String
  deriving DecidableEq

namespace Connections

def empty : Connections := ⟨[]⟩

/-- Records a source for a destination; what is known already is not recorded again. -/
def insert (t : Connections) (destination source : String) : Connections :=
  match t.entries.findIdx? (fun e => e.1 == destination) with
  | some i =>
    ⟨t.entries.modify i fun e => if source ∈ e.2 then e else (e.1, e.2 ++ [source])⟩
  | none => ⟨t.entries ++ [(destination, [source])]⟩

/-- The sources that an entry names by the label of their service. -/
def sourcesOf (e : PolicyEntry) : List String :=
  e.peers.filterMap fun p => p.podSelector.bind fun s => s.label? serviceLabel

/-- What a policy contributes, if it selects a service. -/
def ofPolicy (p : NetworkPolicy) : List (String × String) :=
  match p.spec.podSelector.label? serviceLabel with
  | none => []
  | some destination => (p.spec.ingress.flatMap sourcesOf).map fun source => (destination, source)

/-- Records all that the policies contribute. -/
def addPolicies (t : Connections) (ps : List NetworkPolicy) : Connections :=
  (ps.flatMap ofPolicy).foldl (fun t c => t.insert c.1 c.2) t

def ofPolicies (ps : List NetworkPolicy) : Connections := empty.addPolicies ps

def sourcesFor (t : Connections) (destination : String) : List String :=
  ((t.entries.find? fun e => e.1 == destination).map (·.2)).getD []

def destinations (t : Connections) : List String := t.entries.map (·.1)

def isEmpty (t : Connections) : Bool := t.entries.isEmpty

def allows (t : Connections) (source destination : String) : Bool :=
  (t.sourcesFor destination).contains source

def check (t : Connections) (source destination : String) : Verdict :=
  let connection := "Connection from " ++ source ++ " to " ++ destination
  if t.allows source destination then ⟨true, connection ++ " is explicitly allowed"⟩
  else ⟨false, connection ++ " not in allowed list"⟩

end Connections

def Verdict.toJson (v : Verdict) : Json :=
  .object [("verdict", .string (if v.allowed then "allowed" else "not_allowed")),
    ("reason", .string v.reason)]

end TrafficIntent
