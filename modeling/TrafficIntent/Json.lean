import TrafficIntent.Binary64
import TrafficIntent.KeyMap

/-!
Trees of lists and of objects with named members. An object keeps its members in the order in which
they were written; `Json.sorted` gives the tree that counts when only the content does, with the
members of every object in key order.
-/

namespace TrafficIntent

/-- Whole numbers are exact, all others binary. -/
inductive Number where
  | integer (n : Int)
  | real (x : Binary64)
  deriving DecidableEq

inductive Json where
  | null
  | bool (b : Bool)
  | number (n : Number)
  | string (s : String)
  | array (items : List Json)
  | object (members : List (String × Json))

namespace Json

instance : Inhabited Json := ⟨null⟩

def int (n : Int) : Json := number (.integer n)

/-- The value of the member of a given name. -/
def member? (name : String) : Json → Option Json
  | object ms => (ms.find? (fun m => m.1 == name)).map (·.2)
  | _ => none

/-- Members in key order; the last one of a key counts. -/
def inKeyOrder (ms : List (String × Json)) : List (String × Json) :=
  ms.foldl (fun acc m => putEntry m.1 m.2 acc) []

mutual

/-- The tree with every object's members in key order. -/
def sorted : Json → Json
  | array items => array (sortedItems items)
  | object ms => object (inKeyOrder (sortedMembers ms))
  | j => j

def sortedItems : List Json → List Json
  | [] => []
  | j :: js => j.sorted :: sortedItems js

def sortedMembers : List (String × Json) → List (String × Json)
  | [] => []
  | (k, j) :: ms => (k, j.sorted) :: sortedMembers ms

end

mutual

/-- Equality of trees, order of members included. -/
def same : Json → Json → Bool
  | null, null => true
  | bool a, bool b => a == b
  | number a, number b => a == b
  | string a, string b => a == b
  | array as, array bs => sameItems as bs
  | object as, object bs => sameMembers as bs
  | _, _ => false

def sameItems : List Json → List Json → Bool
  | [], [] => true
  | a :: as, b :: bs => same a b && sameItems as bs
  | _, _ => false

def sameMembers : List (String × Json) → List (String × Json) → Bool
  | [], [] => true
  | (k, a) :: as, (l, b) :: bs => k == l && same a b && sameMembers as bs
  | _, _ => false

end

theorem sortedItems_eq_map (js : List Json) : sortedItems js = js.map sorted := by
  induction js with
  | nil => rfl
  | cons j js ih => simp [sortedItems, ih]

theorem sortedMembers_eq_map (ms : List (String × Json)) :
    sortedMembers ms = ms.map fun m => (m.1, m.2.sorted) := by
  induction ms with
  | nil => rfl
  | cons m ms ih => obtain ⟨k, j⟩ := m; simp [sortedMembers, ih]

end Json

end TrafficIntent
