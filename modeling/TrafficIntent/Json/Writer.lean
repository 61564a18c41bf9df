import TrafficIntent.Binary64.Text
import TrafficIntent.Json

namespace TrafficIntent.Json

/-- A digit of a control character's number, which is below 32. -/
private def hexDigit (n : Nat) : Char := Nat.digitChar n

/-- Quotes, backslashes and control characters are escaped, by a short form where there is one. -/
def escaped (c : Char) : List Char :=
  match c with
  | '\x22' => ['\\', '\x22']
  | '\\' => ['\\', '\\']
  | '\x08' => ['\\', 'b']
  | '\x0c' => ['\\', 'f']
  | '\n' => ['\\', 'n']
  | '\r' => ['\\', 'r']
  | '\t' => ['\\', 't']
  | c =>
    if c < ' ' then
      ['\\', 'u', '0', '0', hexDigit (c.toNat / 16), hexDigit (c.toNat % 16)]
    else [c]

def stringText (s : String) : List Char := '\x22' :: s.toList.flatMap escaped ++ ['\x22']

def numberText : Number → List Char
  | .integer n => (toString n).toList
  | .real x => x.compact.toList

def newline (level : Nat) : List Char := '\n' :: List.replicate (2 * level) ' '

mutual

/-- The text of a tree whose first line starts at some level. -/
def pretty (level : Nat) : Json → List Char
  | null => "null".toList
  | bool true => "true".toList
  | bool false => "false".toList
  | number n => numberText n
  | string s => stringText s
  | array [] => ['[', ']']
  | array (j :: js) =>
    '[' :: newline (level + 1) ++ pretty (level + 1) j ++ prettyItems (level + 1) js ++
      newline level ++ [']']
  | object [] => ['{', '}']
  | object ((k, j) :: ms) =>
    '{' :: newline (level + 1) ++ stringText k ++ ':' :: ' ' :: pretty (level + 1) j ++
      prettyMembers (level + 1) ms ++ newline level ++ ['}']

/-- Further elements, each after a comma on a line of its own. -/
def prettyItems (level : Nat) : List Json → List Char
  | [] => []
  | j :: js => ',' :: newline level ++ pretty level j ++ prettyItems level js

def prettyMembers (level : Nat) : List (String × Json) → List Char
  | [] => []
  | (k, j) :: ms =>
    ',' :: newline level ++ stringText k ++ ':' :: ' ' :: pretty level j ++ prettyMembers level ms

end

/-- A tree's text over several lines, without a line break at the end. -/
def text (j : Json) : String := String.ofList (pretty 0 j)

end TrafficIntent.Json
