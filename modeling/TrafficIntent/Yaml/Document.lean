import TrafficIntent.Yaml.Node

/-!
Documents whose anchors are numbers. An anchor's number is how many names there were before it, so a
name that is declared again gets a number that the next new name gets as well; a number stands for
the last node with it.
-/

namespace TrafficIntent.Yaml

/-- The names declared so far, each with the number of its last declaration. -/
abbrev Numbering := StateT (List (String × Nat)) Option

namespace Numbering

def declare (name : String) : Numbering Nat := do
  let names ← get
  let n := names.length
  set ((name, n) :: names.filter fun e => e.1 != name)
  return n

def properties (p : Properties String) : Numbering (Properties Nat) := do
  match p.anchor with
  | none => return ⟨none, p.tag⟩
  | some name => return ⟨some (← declare name), p.tag⟩

mutual

/-- The node with numbers for names; `none` where an alias has no anchor before it. -/
def node : Node String → Numbering (Node Nat)
  | .reference m name => do
    match (← get).lookup name with
    | some n => return .reference m n
    | none => failure
  | .scalar p m style text => do return .scalar (← properties p) m style text
  | .sequence p m items => do
    let p ← properties p
    return .sequence p m (← nodes items)
  | .mapping p m es => do
    let p ← properties p
    return .mapping p m (← entries es)

def nodes : List (Node String) → Numbering (List (Node Nat))
  | [] => return []
  | n :: ns => do
    let a ← node n
    return a :: (← nodes ns)

def entries : List (Node String × Node String) → Numbering (List (Node Nat × Node Nat))
  | [] => return []
  | (k, n) :: es => do
    let a ← node k
    let b ← node n
    return (a, b) :: (← entries es)

end

end Numbering

namespace Node

variable {α : Type}

/-- An anchor with the node that it names. -/
def named (p : Properties α) (n : Node α) : List (α × Node α) :=
  match p.anchor with
  | some a => [(a, n)]
  | none => []

mutual

/-- The nodes with anchors, from the start of a node to its end. -/
def anchored : Node α → List (α × Node α)
  | .reference _ _ => []
  | .scalar p m style text => named p (.scalar p m style text)
  | .sequence p m items => named p (.sequence p m items) ++ anchoredItems items
  | .mapping p m es => named p (.mapping p m es) ++ anchoredEntries es

def anchoredItems : List (Node α) → List (α × Node α)
  | [] => []
  | n :: ns => anchored n ++ anchoredItems ns

def anchoredEntries : List (Node α × Node α) → List (α × Node α)
  | [] => []
  | (k, n) :: es => anchored k ++ anchored n ++ anchoredEntries es

end

mutual

/-- How many scalars and aliases there are, and starts and ends of lists and maps. -/
def size : Node α → Nat
  | .reference _ _ => 1
  | .scalar _ _ _ _ => 1
  | .sequence _ _ items => 2 + sizeItems items
  | .mapping _ _ es => 2 + sizeEntries es

def sizeItems : List (Node α) → Nat
  | [] => 0
  | n :: ns => size n + sizeItems ns

def sizeEntries : List (Node α × Node α) → Nat
  | [] => 0
  | (k, n) :: es => size k + size n + sizeEntries es

end

end Node

structure Document where
  root : Node Nat

namespace Document

/-- The node that an alias stands for. -/
def target? (d : Document) (n : Nat) : Option (Node Nat) := d.root.anchored.reverse.lookup n

/-- The one document of a text of the older edition; a text without a document counts as one of
nothing. -/
def ofText? (text : String) : Option Document := do
  match ← documents? .v11 text with
  | [] => return ⟨.scalar .none .start .plain ""⟩
  | [n] => return ⟨(← (Numbering.node n).run []).1⟩
  | _ => none

end Document

end TrafficIntent.Yaml
