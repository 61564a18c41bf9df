import TrafficIntent.Json

namespace TrafficIntent.Json

def texts (ss : List String) : Json := array (ss.map string)

def listOf {α : Type} (write : α → Json) (xs : List α) : Json := array (xs.map write)

/-- The labels as an object, in key order. -/
def labels (l : Labels) : Json := object (l.entries.map fun e => (e.1, string e.2))

/-- A member that is there if its value is. -/
def ifSome {α : Type} (name : String) (write : α → Json) : Option α → List (String × Json)
  | none => []
  | some a => [(name, write a)]

/-- A member that is there if its list has an element. -/
def unlessEmpty {α : Type} (name : String) (write : α → Json) : List α → List (String × Json)
  | [] => []
  | xs => [(name, listOf write xs)]

/-- A member that is there if there is a label. -/
def unlessBare (name : String) (l : Labels) : List (String × Json) :=
  if l.isEmpty then [] else [(name, labels l)]

end TrafficIntent.Json
