import TrafficIntent.Json
import TrafficIntent.Yaml.Value

namespace TrafficIntent.Yaml

/-- Why YAML text has no tree. -/
inductive Fault where
  | malformed
  | keyKind
  | badValue
  deriving DecidableEq

def Fault.message : Fault → String
  | malformed => "yaml error: malformed text"
  | keyKind => "yaml error: unsupported YAML key type"
  | badValue => "yaml error: bad YAML value"

/-- The text of a key: texts, whole numbers and truth values can be keys. -/
def Value.keyText? : Value → Option String
  | string s => some s
  | integer n => some (toString n)
  | bool b => some (if b then "true" else "false")
  | _ => none

/-- A number that is not whole, if a tree can hold it. Infinity and no number have no place in a
tree; where they are written without a point they are texts. -/
def realTree (s : String) : Json :=
  if isSpecialReal s then .null
  else match Binary64.ofText? s with
    | some x => if x.isFinite then .number (.real x) else .string s
    | none => .string s

namespace Value

mutual

def tree : Value → Except Fault Json
  | bad => .error .badValue
  | null => .ok .null
  | bool b => .ok (.bool b)
  | integer n => .ok (.int n)
  | real s => .ok (realTree s)
  | string s => .ok (.string s)
  | sequence items => do return .array (← trees items)
  | mapping entries => do return .object (Json.inKeyOrder (← members entries))

def trees : List Value → Except Fault (List Json)
  | [] => .ok []
  | v :: vs => do
    let j ← tree v
    return j :: (← trees vs)

def members : List (Value × Value) → Except Fault (List (String × Json))
  | [] => .ok []
  | (k, v) :: es =>
    match k.keyText? with
    | none => .error .keyKind
    | some name => do
      let j ← tree v
      return (name, j) :: (← members es)

end

end Value

/-- The tree of each document of a text, with the members of objects in key order. -/
def manifests (text : String) : Except Fault (List Json) :=
  match (documents? .v12 text).bind (List.mapM Node.value?) with
  | none => .error .malformed
  | some vs => Value.trees vs

end TrafficIntent.Yaml
