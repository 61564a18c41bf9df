/-!
Binary floating-point numbers of 64 bits, kept as their bits. A finite number is a multiple of a
power of two; every operation is the exact one on rationals, followed by rounding to the nearest
number, a tie going to the even one.
-/

namespace TrafficIntent

/-- One sign bit, eleven exponent bits, fifty-two fraction bits. -/
structure Binary64 where
  bits : UInt64
  deriving DecidableEq, Inhabited

/-- The powers of two. -/
def twoTo (n : Nat) : Nat := Nat.pow 2 n

/-- The powers of ten. -/
def tenTo (n : Nat) : Nat := Nat.pow 10 n

/-- The nearest natural number to a quotient, the even one of two. -/
def roundQuotient (num den : Nat) : Nat :=
  let rest := 2 * (num % den)
  if rest < den || (rest == den && num / den % 2 == 0) then num / den else num / den + 1

namespace Binary64

private def exponentBits (x : Binary64) : Nat := x.bits.toNat / twoTo 52 % twoTo 11

private def fractionBits (x : Binary64) : Nat := x.bits.toNat % twoTo 52

def isNegative (x : Binary64) : Bool := x.bits.toNat / twoTo 63 == 1

def isFinite (x : Binary64) : Bool := x.exponentBits != 2047

def isNaN (x : Binary64) : Bool := x.exponentBits == 2047 && x.fractionBits != 0

/-- The absolute value of a finite number, as `m` and `q` with value `m * 2 ^ q`. -/
def magnitude (x : Binary64) : Nat × Int :=
  if x.exponentBits = 0 then (x.fractionBits, -1074)
  else (twoTo 52 + x.fractionBits, (x.exponentBits : Int) - 1075)

private def withSign (negative : Bool) (n : Nat) : Binary64 :=
  ⟨UInt64.ofNat (if negative then twoTo 63 + n else n)⟩

def zero (negative : Bool) : Binary64 := withSign negative 0

def infinity (negative : Bool) : Binary64 := withSign negative (2047 * twoTo 52)

def nan : Binary64 := withSign false (2047 * twoTo 52 + twoTo 51)

/-- A quotient as numerator and denominator after division by `2 ^ q`. -/
private def scaled (num den : Nat) (q : Int) : Nat × Nat :=
  if 0 ≤ q then (num, den * twoTo q.toNat) else (num * twoTo (-q).toNat, den)

/-- The number nearest to `num / den`. Counting in units of `2 ^ q` with fifty-three significant
bits, or with fewer at the smallest `q`, the count's bits follow the exponent's directly, so a count
that rounds up to the next power of two lands on the right exponent by itself. -/
def ofRatio (negative : Bool) (num den : Nat) : Binary64 :=
  if num = 0 then zero negative
  else
    let e : Int := (num.log2 : Int) - den.log2
    let (n, d) := scaled num den (e - 52)
    let q := max (-1074) (if twoTo 52 ≤ n / d then e - 52 else e - 53)
    let (n, d) := scaled num den q
    let count := (q + 1074).toNat * twoTo 52 + roundQuotient n d
    if 2047 * twoTo 52 ≤ count then infinity negative else withSign negative count

/-- The number nearest to `digits * 10 ^ exponent`. Beyond the exponents tested here the power need
not be formed: the result is infinite or zero. -/
def ofDecimal (negative : Bool) (digits : Nat) (exponent : Int) : Binary64 :=
  let places := (Nat.toDigits 10 digits).length
  if digits = 0 then zero negative
  else if 310 < places + exponent then infinity negative
  else if places + exponent < -330 then zero negative
  else if 0 ≤ exponent then ofRatio negative (digits * tenTo exponent.toNat) 1
  else ofRatio negative digits (tenTo (-exponent).toNat)

/-- The product of two finite numbers. -/
def mul (x y : Binary64) : Binary64 :=
  let (m, p) := x.magnitude
  let (n, q) := y.magnitude
  let (num, den) := scaled (m * n) 1 (-(p + q))
  ofRatio (x.isNegative != y.isNegative) num den

/-- The quotient of two finite numbers, the second not zero. -/
def div (x y : Binary64) : Binary64 :=
  let (m, p) := x.magnitude
  let (n, q) := y.magnitude
  let (num, den) := scaled m n (q - p)
  ofRatio (x.isNegative != y.isNegative) num den

end Binary64

end TrafficIntent
