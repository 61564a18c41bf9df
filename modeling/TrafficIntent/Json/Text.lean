import TrafficIntent.Document.Reader
import TrafficIntent.Json.Number
import TrafficIntent.Json.Quoted

/-!
Reading typed values straight from JSON text. A text is read from left to right and the first fault
ends it, so a value of the wrong shape hides what is malformed after it. What no record asks for is
passed over without being read closely: its numbers may be of any size, its nesting of any depth and
its escapes need not name characters.
-/

namespace TrafficIntent.Json.Scan

/-- A list's next element is ahead, or its end. -/
def elementAhead (first : Bool) : Scan Bool := do
  match ← passSpace with
  | none => failAhead .listCut
  | some ']' => return false
  | some c =>
    if first then return true
    else if c = ',' then
      pass 1
      match ← passSpace with
      | some ']' => failAhead .trailingComma
      | some _ => return true
      | none => failAhead .valueCut
    else failAhead .noListSeparator

/-- An object's next name is ahead, or its end. -/
def nameAhead (first : Bool) : Scan Bool := do
  match ← passSpace with
  | none => failAhead .objectCut
  | some '}' => return false
  | some c =>
    if first then
      if c = '\x22' then return true else failAhead .keyNotText
    else if c = ',' then
      pass 1
      match ← passSpace with
      | some '\x22' => return true
      | some '}' => failAhead .trailingComma
      | some _ => failAhead .keyNotText
      | none => failAhead .valueCut
    else failAhead .noObjectSeparator

def colon : Scan Unit := do
  match ← passSpace with
  | some ':' => pass 1
  | some _ => failAhead .noColon
  | none => failAhead .objectCut

/-- The end of a list of which no further element is wanted. -/
def listEnd : Scan Unit := do
  match ← passSpace with
  | some ']' => pass 1
  | some ',' =>
    pass 1
    match ← passSpace with
    | some ']' => failAhead .trailingComma
    | _ => failAhead .trailingText
  | some _ => failAhead .trailingText
  | none => failAhead .listCut

mutual

def skipValue : Nat → Scan Unit
  | 0 => failAhead .valueCut
  | fuel + 1 => do
    match ← passSpace with
    | none => failAhead .valueCut
    | some 'n' => do pass 1; word ['u', 'l', 'l']
    | some 't' => do pass 1; word ['r', 'u', 'e']
    | some 'f' => do pass 1; word ['a', 'l', 's', 'e']
    | some '-' => do pass 1; skipNumber
    | some '\x22' => do pass 1; skipStringRest
    | some '[' =>
      pass 1
      match ← passSpace with
      | some ']' => pass 1
      | some _ => skipElements fuel
      | none => failAhead .listCut
    | some '{' =>
      pass 1
      match ← passSpace with
      | some '}' => pass 1
      | some _ => skipMembers fuel
      | none => failAhead .objectCut
    | some c => if c.isDigit then skipNumber else failAhead .noValue

def skipElements : Nat → Scan Unit
  | 0 => failAhead .valueCut
  | fuel + 1 => do
    skipValue fuel
    match ← passSpace with
    | some ',' => do pass 1; skipElements fuel
    | some ']' => pass 1
    | some _ => failAhead .noListSeparator
    | none => failAhead .listCut

def skipMembers : Nat → Scan Unit
  | 0 => failAhead .valueCut
  | fuel + 1 => do
    match ← passSpace with
    | some '\x22' => do pass 1; skipStringRest
    | some _ => failAhead .keyNotText
    | none => failAhead .objectCut
    colon
    skipValue fuel
    match ← passSpace with
    | some ',' => do pass 1; skipMembers fuel
    | some '}' => pass 1
    | some _ => failAhead .noObjectSeparator
    | none => failAhead .objectCut

end

/-- What the value ahead turns out to be, where another was expected. Lists and objects are
recognized by their first character. -/
def refuse {α : Type} (expected : String) : Scan α := do
  let found (f : Found) : Scan α := mismatch (.type f expected)
  let numeric (n : Number) : Scan α :=
    found (match n with | .integer n => .integer n | .real x => .real x)
  match ← ahead with
  | some 'n' => do pass 1; word ['u', 'l', 'l']; found .null
  | some 't' => do pass 1; word ['r', 'u', 'e']; found (.bool true)
  | some 'f' => do pass 1; word ['a', 'l', 's', 'e']; found (.bool false)
  | some '-' => do pass 1; numeric (← number true)
  | some '\x22' => do pass 1; found (.string (← stringRest))
  | some '[' => found .sequence
  | some '{' => found .map
  | some c => if c.isDigit then numeric (← number false) else failAhead .noValue
  | none => failAhead .noValue

def text : Scan String := do
  match ← passSpace with
  | none => failAhead .valueCut
  | some '\x22' => do pass 1; stringRest
  | some _ => refuse "a string"

def port : Scan UInt16 := do
  match ← passSpace with
  | none => failAhead .valueCut
  | some '-' => do pass 1; narrow (← number true)
  | some c => if c.isDigit then narrow (← number false) else refuse "u16"
where
  narrow : Number → Scan UInt16
    | .integer n =>
      if 0 ≤ n ∧ n < 65536 then return UInt16.ofNat n.toNat
      else mismatch (.value (.integer n) "u16")
    | .real x => mismatch (.type (.real x) "u16")

def bool : Scan Bool := do
  match ← passSpace with
  | none => failAhead .valueCut
  | some 't' => do pass 1; word ['r', 'u', 'e']; return true
  | some 'f' => do pass 1; word ['a', 'l', 's', 'e']; return false
  | some _ => refuse "a boolean"

def optional {α : Type} (item : Scan α) : Scan (Option α) := do
  match ← passSpace with
  | some 'n' => do pass 1; word ['u', 'l', 'l']; return none
  | _ => return some (← item)

def elements {α : Type} (item : Scan α) : Nat → Bool → Scan (List α)
  | 0, _ => failAhead .listCut
  | fuel + 1, first => do
    if ← elementAhead first then
      let a ← item
      return a :: (← elements item fuel false)
    else return []

def list {α : Type} (item : Scan α) : Scan (List α) := do
  match ← passSpace with
  | none => failAhead .valueCut
  | some '[' =>
    pass 1
    let xs ← elements item (← budget) true
    listEnd
    return xs
  | some _ => refuse "a sequence"

/-- A choice is named by a text, or by the one member of an object that holds nothing. -/
def choice {α : Type} (options : List (String × α)) : Scan α := do
  match ← passSpace with
  | none => failAhead .valueCut
  | some '\x22' => named
  | some '{' =>
    pass 1
    if !(← nameAhead true) then failAhead .noValue
    let a ← named
    colon
    match ← passSpace with
    | none => failAhead .valueCut
    | some 'n' => do pass 1; word ['u', 'l', 'l']
    | some _ => refuse "unit"
    match ← passSpace with
    | some '}' => pass 1
    | some _ => failHere .noValue
    | none => failHere .objectCut
    return a
  | some _ => failAhead .noValue
where
  named : Scan α := do
    pass 1
    let name ← stringRest
    match options.find? (fun o => o.1 == name) with
    | some o => return o.2
    | none => mismatch (.variant name (options.map (·.1)))

/-- A name that comes twice is reported where the reader stands after trying to close the object. -/
def duplicate {α : Type} (name : String) : Scan α := do
  if (← passSpace) == some '}' then pass 1
  mismatch (.duplicate name)

def members {σ : Type} (r : Record Scan σ) : Nat → Bool → List String → σ → Scan σ
  | 0, _, _, _ => failAhead .objectCut
  | fuel + 1, first, seen, s => do
    if ← nameAhead first then
      pass 1
      let name ← stringRest
      match r.field? name with
      | none =>
        colon
        skipValue (2 * (← budget))
        members r fuel false seen s
      | some f =>
        if seen.contains f.name then duplicate f.name
        else
          colon
          let set ← f.read
          members r fuel false (f.name :: seen) (set s)
    else
      pass 1
      match r.missing? seen with
      | some f => mismatch (.missing f.name)
      | none => return s

/-- Takes the fields' values in, in order, from a list. -/
def positions {σ : Type} (r : Record Scan σ) :
    List (Field Scan σ) → Nat → Bool → σ → Scan σ
  | [], _, _, s => do listEnd; return s
  | f :: fs, i, first, s => do
    if ← elementAhead first then
      let set ← f.read
      positions r fs (i + 1) false (set s)
    else if f.required then mismatch (.length i r.asList)
    else positions r fs (i + 1) first s

def record {σ : Type} (r : Record Scan σ) : Scan σ := do
  match ← passSpace with
  | none => failAhead .valueCut
  | some '{' =>
    pass 1
    members r (← budget) true [] r.blank
  | some '[' =>
    pass 1
    positions r r.fields 0 true r.blank
  | some _ => refuse ("struct " ++ r.title)

instance : Reader Scan where
  string := text
  port := port
  list := list
  optional := optional
  record := record

/-- Reads a whole text. -/
def readText {α : Type} (read : Scan α) (s : String) : Except Fault α :=
  let whole : Scan α := do
    let a ← read
    match ← passSpace with
    | none => return a
    | some _ => failAhead .trailingText
  (StateT.run whole (Cursor.ofText s)).map (·.1)

end TrafficIntent.Json.Scan
