import TrafficIntent.Intent.Validation

/-!
Intents: which service may reach which, on what ports. A rule starts open and is narrowed step by
step; a step with nothing to say puts the default back.
-/

namespace TrafficIntent

def defaultProtocol : String := "TCP"

/-- Traffic from a source to a target. Without ports it may use all ports, and without a namespace
the other side is in the intent's own. -/
structure Rule where
  source : String
  target : String
  ports : Option (List UInt16)
  protocols : List String
  ns : Option String
  l7 : Option L7Rules
  deriving DecidableEq

structure Intent where
  name : String
  ns : String
  description : Option String
  rules : List Rule
  deriving DecidableEq

namespace Rule

/-- All ports, over TCP. -/
def new (source target : String) : Rule := ⟨source, target, none, [defaultProtocol], none, none⟩

/-- An empty list stands for all ports. -/
def withPorts (r : Rule) (ports : List UInt16) : Rule :=
  { r with ports := if ports.isEmpty then none else some ports }

/-- An empty list stands for TCP. -/
def withProtocols (r : Rule) (protocols : List String) : Rule :=
  { r with protocols := if protocols.isEmpty then [defaultProtocol] else protocols }

/-- A blank name stands for the intent's namespace. -/
def inNamespace (r : Rule) (ns : String) : Rule :=
  { r with ns := if Text.isBlank ns then none else some ns }

/-- No matchers admit all requests. -/
def withL7 (r : Rule) (l7 : L7Rules) : Rule := { r with l7 := if l7.isEmpty then none else some l7 }

/-- The namespace of the rule's peer in an intent. -/
def nsOr (r : Rule) (intentNs : String) : String := r.ns.getD intentNs

inductive Step where
  | ports (ports : List UInt16)
  | protocols (protocols : List String)
  | inNamespace (ns : String)
  | l7 (rules : L7Rules)
  deriving DecidableEq

def step (r : Rule) : Step → Rule
  | .ports ports => r.withPorts ports
  | .protocols protocols => r.withProtocols protocols
  | .inNamespace ns => r.inNamespace ns
  | .l7 rules => r.withL7 rules

/-- The rule after all the steps. -/
def build (source target : String) (steps : List Step) : Rule :=
  steps.foldl step (new source target)

end Rule

namespace Intent

def new (name ns : String) (rules : List Rule) : Intent := ⟨name, ns, none, rules⟩

/-- An empty description is none. -/
def withDescription (i : Intent) (text : String) : Intent :=
  { i with description := if text.isEmpty then none else some text }

end Intent

end TrafficIntent
