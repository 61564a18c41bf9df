import TrafficIntent.Document.Reader
import TrafficIntent.Yaml.Document
import TrafficIntent.Yaml.Scalar

/-!
Reading typed values from the document of a text. What is wrong is reported with the path to the
innermost value that was being read and the place where it starts.
-/

namespace TrafficIntent.Yaml

/-- The way to a value: the places in lists and the keys in maps. A key that is an alias is not
named. -/
inductive Path where
  | root
  | item (parent : Path) (i : Nat)
  | member (parent : Path) (key : Option String)
  deriving DecidableEq

def Path.text : Path → String
  | root => "."
  | item parent i => parent.text ++ "[" ++ toString i ++ "]"
  | member parent key =>
    (match parent with
      | root => ""
      | parent => parent.text ++ ".") ++ key.getD "?"

inductive Cause where
  | mismatch (m : Mismatch)
  /-- Aliases have been followed too often. -/
  | tooManyAliases
  deriving DecidableEq

/-- What is wrong with a document, and where, as far as it is known. -/
structure Misfit where
  cause : Cause
  place : Option (Path × Mark)
  deriving DecidableEq

/-- Lines and columns are told counting from one. The start of the text is not told. -/
def Misfit.message (f : Misfit) : String :=
  match f.cause with
  | .tooManyAliases => "repetition limit exceeded"
  | .mismatch m =>
    match f.place with
    | none => m.message .yaml
    | some (path, mark) =>
      (if path = .root then "" else path.text ++ ": ") ++ m.message .yaml ++
        (if mark.line = 0 ∧ mark.column = 0 then ""
         else " at line " ++ toString (mark.line + 1) ++ " column " ++ toString (mark.column + 1))

/-- Follows aliases and counts how many. -/
abbrev Follow := StateT Nat (Except Misfit)

/-- Reads a value from a node of a document. -/
def TypedReader (α : Type) : Type := Document → Path → Node Nat → Follow α

namespace TypedReader

instance : Functor TypedReader where
  map f r d p n := f <$> r d p n

def mismatch {α : Type} (m : Mismatch) : Follow α := throw ⟨.mismatch m, none⟩

/-- Says where a mismatch was found, if that has not been said. -/
def placed {α : Type} (path : Path) (mark : Mark) (r : Follow α) : Follow α :=
  tryCatchThe Misfit r fun f => throw { f with place := f.place.or (some (path, mark)) }

/-- The node that an alias stands for. A document may be read a hundred times over, but not more. -/
def resolve (d : Document) : Node Nat → Follow (Node Nat)
  | .reference m n => do
    let count := (← get) + 1
    set count
    if 100 * d.root.size < count then throw ⟨.tooManyAliases, none⟩
    match d.target? n with
    | some target => return target
    | none => return .reference m n
  | n => return n

/-- What a scalar is. A core tag refuses what it does not fit. -/
def scalarFound (tag : Option Tag) (style : Style) (s : String) : Except Mismatch Found :=
  let asText : Found := .string s
  let refuse (expected : String) : Except Mismatch Found := .error (.value asText expected)
  match tag.map Tag.text with
  | none => .ok (if style = .plain then plainFound s else asText)
  | some t =>
    if t = coreOrigin ++ "bool" then
      match bool? s with
      | some b => .ok (.bool b)
      | none => refuse "a boolean"
    else if t = coreOrigin ++ "int" then
      match whole? s with
      | some f => .ok f
      | none => refuse "an integer"
    else if t = coreOrigin ++ "float" then
      match real? s with
      | some x => .ok (.real x)
      | none => refuse "a float"
    else if t = coreOrigin ++ "null" then if isNull s then .ok .null else refuse "null"
    else if "!".isPrefixOf t && style = .plain then .ok (plainFound s)
    else .ok asText

/-- The complaint that a node is of another kind than expected. -/
def refuse {α : Type} (expected : String) : Node Nat → Follow α
  | .scalar p _ style s =>
    match scalarFound p.tag style s with
    | .ok f => mismatch (.type f expected)
    | .error m => mismatch m
  | .sequence _ _ _ => mismatch (.type .sequence expected)
  | .mapping _ _ _ => mismatch (.type .map expected)
  | .reference _ _ => mismatch (.type .null expected)

/-- Reads the node itself or what it stands for, and places mismatches there. -/
def reading {α : Type} (read : Document → Path → Node Nat → Follow α) : TypedReader α :=
  fun d path n => do
    let n ← resolve d n
    placed path n.mark (read d path n)

/-- Any scalar is a text. -/
def textNamed (expected : String) : TypedReader String := reading fun _ _ n =>
  match n with
  | .scalar _ _ _ s => return s
  | n => refuse expected n

def isNothing : Node Nat → Bool
  | .scalar _ _ .plain s => s.isEmpty
  | _ => false

/-- A number stands in a plain scalar, or in a block with the tag of whole numbers. -/
def port : TypedReader UInt16 := reading fun _ _ n =>
  match n with
  | .scalar p _ style s =>
    let numeric := style = .plain ||
      (style = .literal && p.tag.map Tag.text == some (coreOrigin ++ "int"))
    match if numeric then (unsigned? s).filter (· < twoTo 64) else none with
    | some k =>
      if k < 65536 then return UInt16.ofNat k else mismatch (.value (.integer k) "u16")
    | none => refuse "u16" n
  | n => refuse "u16" n

/-- An empty scalar and the names of null are nothing, unless a tag says otherwise. -/
def optional {α : Type} (item : TypedReader α) : TypedReader (Option α) := fun d path n => do
  let n ← resolve d n
  match n with
  | .scalar p _ .plain s =>
    match p.tag.map Tag.text with
    | none => if s.isEmpty || isNull s then return none else return some (← item d path n)
    | some t =>
      if t = coreOrigin ++ "null" then
        if isNull s then return none else mismatch (.value (.string s) "null")
      else return some (← item d path n)
  | n => return some (← item d path n)

def items {α : Type} (item : TypedReader α) (d : Document) (path : Path) :
    Nat → List (Node Nat) → Follow (List α)
  | _, [] => return []
  | i, n :: ns => do
    let a ← item d (.item path i) n
    return a :: (← items item d path (i + 1) ns)

def list {α : Type} (item : TypedReader α) : TypedReader (List α) := reading fun d path n =>
  match n with
  | .sequence _ _ ns => items item d path 0 ns
  | n => if isNothing n then return [] else refuse "a sequence" n

/-- Takes the entries of a map in, in order, and then asks for the fields that are missing. -/
def members {σ : Type} (r : Record TypedReader σ) (d : Document) (path : Path) :
    List (Node Nat × Node Nat) → List String → σ → Follow σ
  | [], seen, s =>
    match r.missing? seen with
    | some f => mismatch (.missing f.name)
    | none => return s
  | (k, n) :: es, seen, s => do
    let name ← textNamed "field identifier" d path k
    match r.field? name with
    | none => members r d path es seen s
    | some f =>
      if seen.contains f.name then mismatch (.duplicate f.name)
      else
        let shown := match k with
          | .scalar _ _ _ key => some key
          | _ => none
        let set ← f.read d (.member path shown) n
        members r d path es (f.name :: seen) (set s)

def record {σ : Type} (r : Record TypedReader σ) : TypedReader σ := reading fun d path n =>
  match n with
  | .mapping _ _ es => members r d path es [] r.blank
  | n =>
    if isNothing n then members r d path [] [] r.blank else refuse ("struct " ++ r.title) n

instance : Reader TypedReader where
  string := textNamed "a string"
  port := port
  list := list
  optional := optional
  record := record

/-- Reads the whole document. -/
def readDocument {α : Type} (r : TypedReader α) (d : Document) : Except Misfit α :=
  (StateT.run (r d .root d.root) 0).map (·.1)

end TypedReader

end TrafficIntent.Yaml
