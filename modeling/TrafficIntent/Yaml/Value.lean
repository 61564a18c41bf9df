import TrafficIntent.Binary64.Text
import TrafficIntent.Yaml.Node

/-!
The values of YAML documents by the rules of the newer edition: scalars are resolved by their tags
and their spelling, and aliases stand for what they name.
-/

namespace TrafficIntent.Yaml

/-- A value of a document. `bad` is what a tag refuses or an alias names too early. Numbers that are
not whole keep their text. -/
inductive Value where
  | bad
  | null
  | bool (b : Bool)
  | integer (n : Int)
  | real (text : String)
  | string (s : String)
  | sequence (items : List Value)
  | mapping (entries : List (Value × Value))

namespace Value

mutual

/-- Equality, by kind and text; the order of entries counts. -/
def same : Value → Value → Bool
  | bad, bad => true
  | null, null => true
  | bool a, bool b => a == b
  | integer a, integer b => a == b
  | real a, real b => a == b
  | string a, string b => a == b
  | sequence as, sequence bs => sameItems as bs
  | mapping as, mapping bs => sameEntries as bs
  | _, _ => false

def sameItems : List Value → List Value → Bool
  | [], [] => true
  | a :: as, b :: bs => same a b && sameItems as bs
  | _, _ => false

def sameEntries : List (Value × Value) → List (Value × Value) → Bool
  | [], [] => true
  | (k, a) :: as, (l, b) :: bs => same k l && same a b && sameEntries as bs
  | _, _ => false

end

mutual

theorem same_iff (v w : Value) : v.same w = true ↔ v = w := by
  match v with
  | bad | null | bool _ | integer _ | real _ | string _ => cases w <;> simp [same]
  | sequence vs => cases w <;> simp [same, sameItems_iff vs]
  | mapping es => cases w <;> simp [same, sameEntries_iff es]

theorem sameItems_iff (vs ws : List Value) : sameItems vs ws = true ↔ vs = ws := by
  match vs with
  | [] => cases ws <;> simp [sameItems]
  | v :: vs => cases ws <;> simp [sameItems, same_iff v, sameItems_iff vs]

theorem sameEntries_iff (ds es : List (Value × Value)) : sameEntries ds es = true ↔ ds = es := by
  match ds with
  | [] => cases es <;> simp [sameEntries]
  | (k, v) :: ds =>
    cases es <;>
      simp [sameEntries, same_iff k, same_iff v, sameEntries_iff ds, Prod.ext_iff]

end

def isBad : Value → Bool
  | bad => true
  | _ => false

end Value

def digitOf? (base : Nat) (c : Char) : Option Nat :=
  (hexValue? c).bind fun d => if d < base then some d else none

/-- A whole number of 64 bits with an optional sign. -/
def int64? (base : Nat) (cs : List Char) : Option Int :=
  let (negative, ds) := match cs with
    | '-' :: ds => (true, ds)
    | '+' :: ds => (false, ds)
    | ds => (false, ds)
  if ds.isEmpty then none
  else do
    let n ← ds.foldlM (fun n c => (digitOf? base c).map (base * n + ·)) 0
    let n : Int := if negative then -n else n
    if -9223372036854775808 ≤ n ∧ n ≤ 9223372036854775807 then some n else none

/-- The names of infinity and of no number, with their point. -/
def isSpecialReal (s : String) : Bool :=
  let unsigned := match s.toList with
    | '-' :: cs => cs
    | '+' :: cs => cs
    | cs => cs
  [".inf", ".Inf", ".INF", ".nan", ".NaN", ".NAN"].contains (String.ofList unsigned)

/-- Whether a text is a number. No number has no sign. -/
def isReal (s : String) : Bool :=
  [".inf", ".Inf", ".INF", "+.inf", "+.Inf", "+.INF", "-.inf", "-.Inf", "-.INF", ".nan", "NaN",
      ".NAN"].contains s ||
    (Binary64.ofText? s).isSome

/-- The value of a plain scalar without a tag. -/
def Value.ofPlain (s : String) : Value :=
  let whole : Option Int := match s.toList with
    | '0' :: 'x' :: ds => int64? 16 ds
    | '0' :: 'o' :: ds => int64? 8 ds
    | '+' :: ds => int64? 10 ds
    | _ => none
  match whole with
  | some n => .integer n
  | none =>
    if ["", "~", "null"].contains s then .null
    else if s = "true" then .bool true
    else if s = "false" then .bool false
    else match int64? 10 s.toList with
      | some n => .integer n
      | none => if isReal s then .real s else .string s

/-- The value of a plain scalar with one of the core tags. -/
def Value.ofTagged (suffix s : String) : Value :=
  if suffix = "bool" then
    if s = "true" then .bool true else if s = "false" then .bool false else .bad
  else if suffix = "int" then
    match int64? 10 s.toList with
    | some n => .integer n
    | none => .bad
  else if suffix = "float" then if isReal s then .real s else .bad
  else if suffix = "null" then if s = "~" || s = "null" then .null else .bad
  else .string s

/-- Scalars with quotes or of a block are texts, and so are those with tags of other origins. -/
def Value.ofScalar (tag : Option Tag) (style : Style) (s : String) : Value :=
  if style ≠ .plain then .string s
  else match tag with
    | none => .ofPlain s
    | some t => if t.origin = coreOrigin then .ofTagged t.suffix s else .string s

/-- The anchors of a document so far: the node that each name stands for, by number, and the values
of the nodes that are complete. -/
structure Anchors where
  count : Nat
  names : List (String × Nat)
  values : List (Nat × Value)

namespace Anchors

def empty : Anchors := ⟨0, [], []⟩

/-- The name stands for the next node from now on. -/
def declare (a : Anchors) (name : String) : Anchors :=
  { a with count := a.count + 1, names := (name, a.count) :: a.names }

def complete (a : Anchors) (n : Nat) (v : Value) : Anchors :=
  { a with values := (n, v) :: a.values }

/-- The value of an alias; `none` if the name has not been declared. -/
def find? (a : Anchors) (name : String) : Option Value :=
  (a.names.lookup name).map fun n => (a.values.lookup n).getD .bad

end Anchors

/-- Makes the entries of a map from keys and values in turn. A key that is bad is not taken, so that
what follows it is the key. A key may come once. -/
def entriesOf : Option Value → List Value → List (Value × Value) → Option (List (Value × Value))
  | _, [], acc => some acc.reverse
  | none, v :: vs, acc => entriesOf (if v.isBad then none else some v) vs acc
  | some k, v :: vs, acc =>
    if acc.any fun e => e.1.same k then none else entriesOf none vs ((k, v) :: acc)

abbrev Load := StateT Anchors Option

namespace Load

/-- Declares an anchor, and keeps the value once it is known. -/
def anchored (anchor : Option String) (load : Load Value) : Load Value := do
  match anchor with
  | none => load
  | some name =>
    let n := (← get).count
    modify (Anchors.declare · name)
    let v ← load
    modify (Anchors.complete · n v)
    return v

mutual

def value : Node String → Load Value
  | .reference _ name => do
    match (← get).find? name with
    | some v => return v
    | none => failure
  | .scalar p _ style text => anchored p.anchor (pure (.ofScalar p.tag style text))
  | .sequence p _ items => anchored p.anchor do return .sequence (← values items)
  | .mapping p _ entries => anchored p.anchor do
    match entriesOf none (← entryValues entries) [] with
    | some es => return .mapping es
    | none => failure

def values : List (Node String) → Load (List Value)
  | [] => return []
  | n :: ns => do
    let v ← value n
    return v :: (← values ns)

/-- The keys and values of entries, in turn. -/
def entryValues : List (Node String × Node String) → Load (List Value)
  | [] => return []
  | (k, n) :: es => do
    let key ← value k
    let v ← value n
    return key :: v :: (← entryValues es)

end

end Load

/-- The value of a document, or `none` if an alias has no anchor or a key comes twice. -/
def Node.value? (n : Node String) : Option Value := ((Load.value n).run .empty).map (·.1)

end TrafficIntent.Yaml
