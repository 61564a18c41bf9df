import TrafficIntent.Json.Cursor
import TrafficIntent.Json

/-!
Numbers in JSON text. Whole numbers of at most 64 bits are exact. All others are binary: as many
leading digits as fit into 64 bits, scaled by a power of ten with one rounding for the digits and
one for each factor.
-/

namespace TrafficIntent.Json

def isNonzeroDigit (c : Char) : Bool := '1' ≤ c && c ≤ '9'

/-- Takes digits in while the value stays below a limit; gives the value, the number of digits taken
and the number left. -/
def takeDigits (limit : Nat) : Nat → List Char → Nat × Nat × Nat
  | n, [] => (n, 0, 0)
  | n, d :: ds =>
    let next := 10 * n + (d.toNat - '0'.toNat)
    if limit ≤ next then (n, 0, ds.length + 1)
    else
      let (v, taken, left) := takeDigits limit next ds
      (v, taken + 1, left)

/-- Divides by `10 ^ e`, by at most `10 ^ 308` at once. -/
def scaledDown (x : Binary64) (e : Nat) : Binary64 :=
  if e ≤ 308 then x.div (.ofDecimal false 1 e)
  else if x.magnitude.1 = 0 then x
  else scaledDown (x.div (.ofDecimal false 1 308)) (e - 308)
termination_by e
decreasing_by omega

/-- `digits * 10 ^ e`, unless that is too large. -/
def scaledReal? (negative : Bool) (digits : Nat) (e : Int) : Option Binary64 :=
  let x := Binary64.ofRatio negative digits 1
  if e < 0 then some (scaledDown x e.natAbs)
  else if digits = 0 then some x
  else if 308 < e then none
  else
    let y := x.mul (.ofDecimal false 1 e)
    if y.isFinite then some y else none

namespace Scan

private def real (negative : Bool) (digits : Nat) (e : Int) : Scan Number :=
  match scaledReal? negative digits e with
  | some x => return .real x
  | none => failHere .numberTooLarge

/-- An exponent's digits after its mark; the value so far is `digits * 10 ^ e`. An exponent beyond
32 bits makes the number zero or too large, whatever the digits. -/
private def exponent (negative : Bool) (digits : Nat) (e : Int) : Scan Number := do
  pass 1
  let mark ← ahead
  let below := mark == some '-'
  if below || mark == some '+' then pass 1
  match ← ahead with
  | none => failHere .valueCut
  | some c => unless c.isDigit do failAhead .badNumber
  let ds := (← get).rest.takeWhile Char.isDigit
  let (v, taken, left) := takeDigits (twoTo 31) 0 ds
  if 0 < left && digits != 0 && !below then
    pass (taken + 1)
    failHere .numberTooLarge
  pass ds.length
  if 0 < left then return .real (.zero negative)
  else real negative digits (if below then e - v else e + v)

def fractionOrExponent (negative : Bool) (digits : Nat) (e : Int) (whole : Scan Number) :
    Scan Number := do
  match ← ahead with
  | some '.' =>
    pass 1
    let ds := (← get).rest.takeWhile Char.isDigit
    if ds.isEmpty then
      match ← ahead with
      | some _ => failAhead .badNumber
      | none => failHere .valueCut
    pass ds.length
    let (v, taken, _) := takeDigits (twoTo 64) digits ds
    let next ← ahead
    if next == some 'e' || next == some 'E' then exponent negative v (e - taken)
    else real negative v (e - taken)
  | some 'e' => exponent negative digits e
  | some 'E' => exponent negative digits e
  | _ => whole

/-- A number after its sign. A negative zero is not a whole number, nor is one below 64 bits. -/
def number (negative : Bool) : Scan Number := do
  match ← ahead with
  | none => failHere .valueCut
  | some '0' =>
    pass 1
    if ((← ahead).map Char.isDigit).getD false then failAhead .badNumber
    fractionOrExponent negative 0 0 (return if negative then .real (.zero true) else .integer 0)
  | some c =>
    unless isNonzeroDigit c do failAhead .badNumber
    let (v, _, left) := takeDigits (twoTo 64) 0 (← passWhile Char.isDigit)
    fractionOrExponent negative v left <|
      if left = 0 && !negative then return .integer v
      else if left = 0 && v ≤ twoTo 63 then return .integer (-v)
      else real negative v left

/-- Passes a number after its sign, whatever its size. -/
def skipNumber : Scan Unit := do
  match ← ahead with
  | some '0' =>
    pass 1
    if ((← ahead).map Char.isDigit).getD false then failAhead .badNumber
  | some c =>
    unless isNonzeroDigit c do failAhead .badNumber
    let _ ← passWhile Char.isDigit
  | none => failHere .badNumber
  if (← ahead) == some '.' then
    pass 1
    if (← passWhile Char.isDigit).isEmpty then failAhead .badNumber
  let next ← ahead
  if next == some 'e' || next == some 'E' then
    pass 1
    let sign ← ahead
    if sign == some '+' || sign == some '-' then pass 1
    if (← passWhile Char.isDigit).isEmpty then failAhead .badNumber

end Scan

end TrafficIntent.Json
