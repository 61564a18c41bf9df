import TrafficIntent.Binary64

/-!
The fewest decimal digits that name a binary number: among the decimal numbers that round to it, one
on the coarsest grid `10 ^ e` that holds any, and the nearest of those.
-/

namespace TrafficIntent.Binary64

/-- Which of two decimal numbers is taken that are equally near: the one with an even last digit, or
the one that is farther from zero. -/
inductive Tie where
  | toEven
  | away
  deriving DecidableEq

/-- Whether the lower of two neighbours on a grid, of which it is the `n`th, is taken. -/
def Tie.takesLower (n : Nat) : Tie → Bool
  | toEven => n % 2 == 0
  | away => false

/-- A positive number `v` and the interval of numbers that round to it, all in units of `1 / den`.
-/
private structure Neighbourhood where
  low : Nat
  value : Nat
  high : Nat
  den : Nat
  closed : Bool

/-- The interval ends halfway to each neighbour. Below a power of two the lower neighbour is half as
far away. Its ends belong to it if the number itself is the even one. -/
private def neighbourhood (x : Binary64) : Neighbourhood :=
  let (m, q) := x.magnitude
  let (up, den) := if 2 ≤ q then (twoTo (q - 2).toNat, 1) else (1, twoTo (2 - q).toNat)
  let below := if m = twoTo 52 ∧ -1074 < q then 1 else 2
  { low := (4 * m - below) * up, value := 4 * m * up, high := (4 * m + 2) * up, den
    closed := m % 2 == 0 }

/-- Whether `n * 10 ^ e` lies in the interval, given as `n * up / down`. -/
private def Neighbourhood.holds (i : Neighbourhood) (up down n : Nat) : Bool :=
  let point := n * up * i.den
  if i.closed then i.low * down ≤ point && point ≤ i.high * down
  else i.low * down < point && point < i.high * down

/-- The grid's best multiple in the interval. The two multiples beside the value are the only ones
to try: if any lies in the interval, one of these does. -/
private def Neighbourhood.onGrid? (i : Neighbourhood) (tie : Tie) (e : Int) : Option Nat :=
  let (up, down) := if 0 ≤ e then (tenTo e.toNat, 1) else (1, tenTo (-e).toNat)
  let n := i.value * down / (up * i.den)
  let excess := i.value * down - n * up * i.den
  match i.holds up down n, i.holds up down (n + 1) with
  | true, true =>
    let gap := up * i.den
    some (if 2 * excess < gap || (2 * excess == gap && tie.takesLower n) then n else n + 1)
  | true, false => some n
  | false, true => some (n + 1)
  | false, false => none

/-- Searches grids from coarse to fine. -/
private def Neighbourhood.search (i : Neighbourhood) (tie : Tie) : Nat → Int → Nat × Int
  | 0, e => (0, e)
  | fuel + 1, e =>
    match i.onGrid? tie e with
    | some (n + 1) => (n + 1, e)
    | _ => i.search tie fuel (e - 1)

/-- The shortest decimal `n * 10 ^ e` that rounds to a finite number's absolute value, as `n` and
`e`. Seventeen digits always suffice. -/
def shortest (tie : Tie) (x : Binary64) : Nat × Int :=
  if x.magnitude.1 = 0 then (0, 0)
  else
    let i := x.neighbourhood
    let places := (Nat.toDigits 10 (i.value / i.den)).length
    let start : Int := if i.den ≤ i.value then places
      else 1 - (Nat.toDigits 10 (i.den / i.value)).length
    i.search tie 24 (start + 1)

end TrafficIntent.Binary64
