import Std.Data.HashMap

/-!
Grouping of a list by a key. Groups come in the order in which their keys first appear, and the
members of a group keep their order. An index of the keys met so far says where each group is.
-/

namespace TrafficIntent

structure Group (κ α : Type) where
  key : κ
  members : List α
  deriving DecidableEq

/-- The groups so far, and the place of the group of each key. -/
structure Grouping (κ α : Type) [BEq κ] [Hashable κ] where
  groups : Array (Group κ α)
  index : Std.HashMap κ Nat

namespace Grouping

variable {κ α : Type} [BEq κ] [Hashable κ]

def empty : Grouping κ α := ⟨#[], ∅⟩

/-- An item joins the group of its key, and starts one if there is none. -/
def add (g : Grouping κ α) (key : κ) (a : α) : Grouping κ α :=
  match g.index[key]? with
  | some i => { g with groups := g.groups.modify i fun e => { e with members := e.members ++ [a] } }
  | none => ⟨g.groups.push ⟨key, [a]⟩, g.index.insert key g.groups.size⟩

/-- The grouping of a list whose items have their key by some function. -/
def ofList (key : α → κ) (items : List α) : Grouping κ α :=
  items.foldl (fun g a => g.add (key a) a) empty

end Grouping

/-- The groups of a list, in the order of their first members. -/
def groupsOf {κ α : Type} [BEq κ] [Hashable κ] (key : α → κ) (items : List α) : List (Group κ α) :=
  (Grouping.ofList key items).groups.toList

end TrafficIntent
