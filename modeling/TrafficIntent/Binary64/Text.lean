import TrafficIntent.Binary64.Shortest

namespace TrafficIntent

/-- The value of a run of decimal digits. -/
def digitsValue (ds : List Char) : Nat :=
  ds.foldl (fun n d => 10 * n + (d.toNat - '0'.toNat)) 0

namespace Binary64

/-- An optional sign and what follows it. -/
def signed : List Char → Bool × List Char
  | '-' :: r => (true, r)
  | '+' :: r => (false, r)
  | r => (false, r)

/-- The exponent after a mantissa: nothing, or a mark, an optional sign and digits. -/
def exponent? : List Char → Option Int
  | [] => some 0
  | e :: r =>
    let (negative, ds) := signed r
    if (e == 'e' || e == 'E') && !ds.isEmpty && ds.all Char.isDigit then
      some (if negative then -(digitsValue ds : Int) else digitsValue ds)
    else none

/-- Digits with at most one point and at least one digit, then an exponent. -/
def decimal? (negative : Bool) (cs : List Char) : Option Binary64 :=
  let (whole, rest) := cs.span Char.isDigit
  let (fraction, rest) := match rest with
    | '.' :: r => r.span Char.isDigit
    | r => ([], r)
  if whole.isEmpty && fraction.isEmpty then none
  else (exponent? rest).map fun e =>
    ofDecimal negative (digitsValue (whole ++ fraction)) (e - fraction.length)

/-- Reads decimal text, rounding correctly; the names of infinity and of no number count as well, in
any letter case. -/
def ofText? (s : String) : Option Binary64 :=
  let (negative, cs) := signed s.toList
  let word := String.ofList (cs.map Char.toLower)
  if word = "inf" || word = "infinity" then some (infinity negative)
  else if word = "nan" then some nan
  else decimal? negative cs

private def zeros (n : Nat) : List Char := List.replicate n '0'

/-- Digits with the point `e` places from the right, and at least one digit on each side of it. -/
private def positionalDigits (digits : List Char) (e : Int) : List Char :=
  let point := digits.length + e
  if 0 ≤ e then digits ++ zeros e.toNat ++ ['.', '0']
  else if 0 < point then digits.take point.toNat ++ '.' :: digits.drop point.toNat
  else '0' :: '.' :: zeros (-point).toNat ++ digits

private def scientificDigits (digits : List Char) (e : Int) : List Char :=
  let power := e + digits.length - 1
  let tail := match digits with
    | d :: [] => [d]
    | d :: ds => d :: '.' :: ds
    | [] => []
  tail ++ 'e' :: (if power < 0 then '-' else '+') :: Nat.toDigits 10 power.natAbs

private def withSignText (x : Binary64) (text : List Char) : String :=
  if x.isNegative then String.ofList ('-' :: text) else String.ofList text

/-- Every digit in its place, as in `100000000000000000000.0`. A tie goes away from zero. -/
def positional (x : Binary64) : String :=
  if x.isNaN then "NaN"
  else if !x.isFinite then withSignText x "inf".toList
  else
    let (n, e) := x.shortest .away
    withSignText x (positionalDigits (Nat.toDigits 10 n) e)

/-- Positional while the first digit's place is between `10 ^ -5` and `10 ^ 15`, and with an
exponent beyond, as in `1e+16`. A tie goes to the even digit. -/
def compact (x : Binary64) : String :=
  if x.isNaN then "NaN"
  else if !x.isFinite then withSignText x "inf".toList
  else
    let (n, e) := x.shortest .toEven
    let digits := Nat.toDigits 10 n
    let place := e + digits.length - 1
    withSignText x
      (if n = 0 || (-5 ≤ place && place ≤ 15) then positionalDigits digits e
       else scientificDigits digits e)

end Binary64

end TrafficIntent
