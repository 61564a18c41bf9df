/-!
Moments in universal time and their text to the second, as in `2024-02-29T12:00:00Z`.

The calendar is the Gregorian one, extended both ways. Days are counted from the first of March of
the year 0, so that a leap day is the last of its year and four centuries form one period.
-/

namespace TrafficIntent

/-- Seconds since the start of 1970, and nanoseconds into the second. A second longer than one
second, with nanoseconds from `10 ^ 9` on, is a leap second. -/
structure Timestamp where
  seconds : Int
  nanoseconds : Nat
  deriving DecidableEq

namespace Timestamp

/-- The start of 1970. -/
def epoch : Timestamp := ⟨0, 0⟩

structure Date where
  year : Int
  month : Nat
  day : Nat
  deriving DecidableEq

/-- The date of a day counted from the start of 1970. In a year that starts with March, month `m`
starts on day `(153 * m + 2) / 5`. -/
def Date.ofDay (n : Int) : Date :=
  let n := n + 719468
  let day := (n % 146097).toNat
  let year := (day - day / 1460 + day / 36524 - day / 146096) / 365
  let day := day - (365 * year + year / 4 - year / 100)
  let month := (5 * day + 2) / 153
  { year := n / 146097 * 400 + year + (if month < 10 then 0 else 1)
    month := if month < 10 then month + 3 else month - 9
    day := day - (153 * month + 2) / 5 + 1 }

/-- Decimal digits, filled up with zeros to a width. -/
private def padded (width n : Nat) : List Char :=
  let ds := Nat.toDigits 10 n
  List.replicate (width - ds.length) '0' ++ ds

/-- Years of four digits stand without a sign, all others with one. -/
private def yearText (y : Int) : List Char :=
  if 0 ≤ y ∧ y ≤ 9999 then padded 4 y.toNat
  else (if y < 0 then '-' else '+') :: padded 4 y.natAbs

/-- A leap second is second 60 of its minute. -/
def text (t : Timestamp) : String :=
  let date := Date.ofDay (t.seconds / 86400)
  let second := (t.seconds % 86400).toNat
  let leap := if 1000000000 ≤ t.nanoseconds then 1 else 0
  String.ofList <|
    yearText date.year ++ '-' :: padded 2 date.month ++ '-' :: padded 2 date.day ++ 'T' ::
      padded 2 (second / 3600) ++ ':' :: padded 2 (second / 60 % 60) ++ ':' ::
      padded 2 (second % 60 + leap) ++ ['Z']

end Timestamp

end TrafficIntent
