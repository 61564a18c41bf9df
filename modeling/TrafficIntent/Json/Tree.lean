import TrafficIntent.Document.Reader
import TrafficIntent.Json

/-!
Reading typed values from a tree. Records may be objects, with members of other names ignored, or
lists of the fields in order, from which fields at the end may be missing.
-/

namespace TrafficIntent

namespace Json

def found : Json → Found
  | null => .null
  | bool b => .bool b
  | number (.integer n) => .integer n
  | number (.real x) => .real x
  | string s => .string s
  | array _ => .sequence
  | object _ => .map

/-- Reads a value of type `α` from a tree. -/
def Decoder (α : Type) : Type := Json → Except Mismatch α

namespace Decoder

instance : Functor Decoder where
  map f d j := (d j).map f

def decode {α : Type} (d : Decoder α) (j : Json) : Except Mismatch α := d j

/-- The complaint that a tree is of another kind than expected. -/
def refuse {α : Type} (expected : String) : Decoder α := fun j => .error (.type j.found expected)

def string : Decoder String
  | .string s => .ok s
  | j => refuse "a string" j

def port : Decoder UInt16
  | .number (.integer n) =>
    if 0 ≤ n ∧ n < 65536 then .ok (UInt16.ofNat n.toNat) else .error (.value (.integer n) "u16")
  | j => refuse "u16" j

def items {α : Type} (d : Decoder α) : List Json → Except Mismatch (List α)
  | [] => .ok []
  | j :: js => do return (← d j) :: (← items d js)

def list {α : Type} (d : Decoder α) : Decoder (List α)
  | .array js => items d js
  | j => refuse "a sequence" j

def optional {α : Type} (d : Decoder α) : Decoder (Option α)
  | .null => .ok none
  | j => (d j).map some

def labelEntries : List (String × Json) → Labels → Except Mismatch Labels
  | [], acc => .ok acc
  | (k, j) :: ms, acc => do labelEntries ms (acc.insert k (← string j))

def labels : Decoder Labels
  | .object ms => labelEntries ms .empty
  | j => refuse "a map" j

/-- A choice is named by a text, or by the one member of an object that holds nothing. -/
def choice {α : Type} (options : List (String × α)) : Decoder α
  | .string name => pick name
  | .object [(name, j)] => do
    let a ← pick name
    match j with
    | .null => .ok a
    | j => refuse "unit" j
  | .object _ => .error (.value .map "map with a single key")
  | j => refuse "string or map" j
where
  pick (name : String) : Except Mismatch α :=
    match options.find? (fun o => o.1 == name) with
    | some o => .ok o.2
    | none => .error (.variant name (options.map (·.1)))

/-- Takes the members in, in order, and then asks for the fields that are missing. -/
def members {σ : Type} (r : Record Decoder σ) :
    List (String × Json) → List String → σ → Except Mismatch σ
  | [], seen, s =>
    match r.missing? seen with
    | some f => .error (.missing f.name)
    | none => .ok s
  | (k, j) :: ms, seen, s =>
    match r.field? k with
    | none => members r ms seen s
    | some f =>
      if seen.contains f.name then .error (.duplicate f.name)
      else do
        let set ← f.read j
        members r ms (f.name :: seen) (set s)

/-- Takes values in, one for each field. -/
def positions {σ : Type} (r : Record Decoder σ) (given : Nat) :
    List (Field Decoder σ) → List Json → Nat → σ → Except Mismatch σ
  | [], [], _, s => .ok s
  | [], _ :: _, _, _ => .error (.length given "fewer elements in array")
  | f :: fs, [], i, s =>
    if f.required then .error (.length i r.asList) else positions r given fs [] (i + 1) s
  | f :: fs, j :: js, i, s => do
    let set ← f.read j
    positions r given fs js (i + 1) (set s)

def record {σ : Type} (r : Record Decoder σ) : Decoder σ
  | .object ms => members r ms [] r.blank
  | .array js => positions r js.length r.fields js 0 r.blank
  | j => refuse ("struct " ++ r.title) j

instance : Reader Decoder where
  string := string
  port := port
  list := list
  optional := optional
  record := record

end Decoder

end Json

end TrafficIntent
