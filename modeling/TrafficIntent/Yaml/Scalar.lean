import TrafficIntent.Document.Mismatch
import TrafficIntent.Yaml.Edition

namespace TrafficIntent.Yaml

def isNull (s : String) : Bool := ["~", "null", "Null", "NULL"].contains s

def bool? (s : String) : Option Bool :=
  if ["true", "True", "TRUE"].contains s then some true
  else if ["false", "False", "FALSE"].contains s then some false
  else none

/-- Digits after a zero, with a sign or without, are not a number but a text. -/
def isZeroFilled (s : String) : Bool :=
  let cs := match s.toList with
    | '-' :: cs => cs
    | '+' :: cs => cs
    | cs => cs
  match cs with
  | '0' :: d :: ds => (d :: ds).all Char.isDigit
  | _ => false

/-- The number that digits to a base write; there has to be one. -/
def natural? (base : Nat) (ds : List Char) : Option Nat :=
  if ds.isEmpty then none
  else
    ds.foldlM (fun n c => (hexValue? c).bind fun d =>
      if d < base then some (base * n + d) else none) 0

/-- Digits, to a base that they name or to ten. -/
def based? : List Char → Option Nat
  | '0' :: 'x' :: ds => natural? 16 ds
  | '0' :: 'o' :: ds => natural? 8 ds
  | '0' :: 'b' :: ds => natural? 2 ds
  | ds => natural? 10 ds

/-- A whole number without a minus sign. -/
def unsigned? (s : String) : Option Nat :=
  if isZeroFilled s then none
  else match s.toList with
    | '+' :: cs => based? cs
    | cs => based? cs

/-- A whole number with a minus sign, without the sign. -/
def negated? (s : String) : Option Nat :=
  if isZeroFilled s then none
  else match s.toList with
    | '-' :: cs => based? cs
    | _ => none

/-- A whole number of at most 128 bits. -/
def whole? (s : String) : Option Found :=
  match unsigned? s, negated? s with
  | some n, _ =>
    if n < twoTo 64 then some (.integer n) else if n < twoTo 128 then some (.wide n false) else none
  | none, some n =>
    if n ≤ twoTo 63 then some (.integer (-n))
    else if n ≤ twoTo 127 then some (.wide (-n) true) else none
  | none, none => none

/-- A number with a point or exponent. Infinity and no number are written with a point before
them. -/
def real? (s : String) : Option Binary64 :=
  let unsigned := match s.toList with
    | '+' :: '+' :: _ => none
    | '+' :: '-' :: _ => none
    | '+' :: cs => some (String.ofList cs)
    | _ => some s
  unsigned.bind fun u =>
    if [".inf", ".Inf", ".INF"].contains u then some (.infinity false)
    else if ["-.inf", "-.Inf", "-.INF"].contains s then some (.infinity true)
    else if [".nan", ".NaN", ".NAN"].contains s then some .nan
    else (Binary64.ofText? u).filter Binary64.isFinite

/-- What a plain scalar without a tag is. -/
def plainFound (s : String) : Found :=
  if s.isEmpty || isNull s then .null
  else match bool? s with
    | some b => .bool b
    | none =>
      match whole? s with
      | some f => f
      | none =>
        match if isZeroFilled s then none else real? s with
        | some x => .real x
        | none => .string s

end TrafficIntent.Yaml
