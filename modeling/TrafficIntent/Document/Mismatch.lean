import TrafficIntent.Binary64.Text
import TrafficIntent.Text.Quoted

namespace TrafficIntent

/-- What stands where something else was wanted. Whole numbers beyond 64 bits are named apart. -/
inductive Found where
  | null
  | bool (b : Bool)
  | integer (n : Int)
  | wide (n : Int) (signed : Bool)
  | real (x : Binary64)
  | string (s : String)
  | sequence
  | map
  deriving DecidableEq

inductive Mismatch where
  | type (found : Found) (expected : String)
  | value (found : Found) (expected : String)
  | length (n : Nat) (expected : String)
  | variant (name : String) (known : List String)
  | missing (field : String)
  | duplicate (field : String)
  deriving DecidableEq

/-- The words in which the formats differ. -/
structure Wording where
  null : String
  real : Binary64 → String

/-- JSON names its own null and writes large and small numbers with an exponent. -/
def Wording.json : Wording := ⟨"null", Binary64.compact⟩

/-- YAML has several spellings of the empty value and writes every digit of a number. -/
def Wording.yaml : Wording := ⟨"unit value", Binary64.positional⟩

private def inTicks (s : String) : String := "`" ++ s ++ "`"

def Found.describe (w : Wording) : Found → String
  | null => w.null
  | bool b => "boolean " ++ inTicks (if b then "true" else "false")
  | integer n => "integer " ++ inTicks (toString n)
  | wide n signed =>
    "integer " ++ inTicks (toString n) ++ (if signed then " as i128" else " as u128")
  | real x => "floating point " ++ inTicks (w.real x)
  | string s => "string " ++ Text.quoted s
  | sequence => "sequence"
  | map => "map"

/-- The known names of a choice, in a phrase. -/
def oneOf : List String → String
  | [] => "there are no variants"
  | [a] => "expected " ++ inTicks a
  | [a, b] => "expected " ++ inTicks a ++ " or " ++ inTicks b
  | names => "expected one of " ++ ", ".intercalate (names.map inTicks)

def Mismatch.message (w : Wording) : Mismatch → String
  | type found expected => "invalid type: " ++ found.describe w ++ ", expected " ++ expected
  | value found expected => "invalid value: " ++ found.describe w ++ ", expected " ++ expected
  | length n expected => "invalid length " ++ toString n ++ ", expected " ++ expected
  | variant name known => "unknown variant " ++ inTicks name ++ ", " ++ oneOf known
  | missing field => "missing field " ++ inTicks field
  | duplicate field => "duplicate field " ++ inTicks field

end TrafficIntent
