import TrafficIntent.Json.Text

/-!
Reading JSON text as a tree. Objects come out with their members in key order, the last one of a key
counting; nesting beyond 127 lists and objects is refused.
-/

namespace TrafficIntent.Json

namespace Scan

/-- An object's members up to its end. -/
def treeMembers (value : Scan Json) : Nat → Bool → Scan (List (String × Json))
  | 0, _ => failAhead .objectCut
  | fuel + 1, first => do
    if ← nameAhead first then
      pass 1
      let name ← stringRest
      colon
      let j ← value
      return (name, j) :: (← treeMembers value fuel false)
    else
      pass 1
      return []

/-- A value with at most as many levels of lists and objects. -/
def tree : Nat → Scan Json
  | 0 => do
    match ← passSpace with
    | some '[' => failAhead .tooDeep
    | some '{' => failAhead .tooDeep
    | _ => leaf
  | depth + 1 => do
    match ← passSpace with
    | some '[' =>
      pass 1
      let js ← elements (tree depth) (← budget) true
      pass 1
      return array js
    | some '{' =>
      pass 1
      return object (inKeyOrder (← treeMembers (tree depth) (← budget) true))
    | _ => leaf
where
  leaf : Scan Json := do
    match ← ahead with
    | none => failAhead .valueCut
    | some 'n' => do pass 1; word ['u', 'l', 'l']; return null
    | some 't' => do pass 1; word ['r', 'u', 'e']; return .bool true
    | some 'f' => do pass 1; word ['a', 'l', 's', 'e']; return .bool false
    | some '-' => do pass 1; return .number (← number true)
    | some '\x22' => do pass 1; return string (← stringRest)
    | some c => if c.isDigit then return .number (← number false) else failAhead .noValue

end Scan

/-- The tree that a text writes down. -/
def parse (s : String) : Except Fault Json := Scan.readText (Scan.tree 127) s

end TrafficIntent.Json
