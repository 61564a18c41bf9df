import TrafficIntent.Json.Writer
import TrafficIntent.Yaml.Quoting

/-!
Writing trees as YAML text, one entry or item to a line. Maps within maps are indented by two
columns, and lists within maps not at all.
-/

namespace TrafficIntent.Yaml

/-- Ends the line, unless a line break has just been written. -/
def endLine (cs : List Char) : List Char :=
  if (cs.getLast?.map (isBreak .v11)).getD false then cs else cs ++ ['\n']

def margin (n : Nat) : List Char := List.replicate n ' '

/-- Whether a key can stand before its colon on one line: it has no line break and at most 128
bytes. -/
def isSimpleKey (k : String) : Bool :=
  !(Layout.ofText k.toList).multiline && k.utf8ByteSize ≤ 128

/-- A key up to its colon. -/
def keyText (column : Nat) (k : String) : List Char :=
  if isSimpleKey k then scalarText (column + 2) k ++ [':']
  else '?' :: ' ' :: endLine (scalarText (column + 2) k) ++ margin column ++ [':']

/-- What stands between a colon and the value, and the column of the value. A list or map has lines
of its own, except after a key that is not simple. -/
def valueStart (column : Nat) (simple : Bool) (j : Json) : List Char × Nat :=
  match simple, j with
  | true, .object (_ :: _) => ('\n' :: margin (column + 2), column + 2)
  | true, .array (_ :: _) => ('\n' :: margin column, column)
  | _, _ => ([' '], column + 2)

mutual

/-- A tree that starts at a column of the current line, to the end of its last line. -/
def block (column : Nat) : Json → List Char
  | .null => "null\n".toList
  | .bool true => "true\n".toList
  | .bool false => "false\n".toList
  | .number n => Json.numberText n ++ ['\n']
  | .string s => endLine (scalarText column s)
  | .array [] => "[]\n".toList
  | .array (j :: js) => '-' :: ' ' :: block (column + 2) j ++ furtherItems column js
  | .object [] => "\x7b\x7d\n".toList
  | .object ((k, j) :: ms) =>
    let start := valueStart column (isSimpleKey k) j
    keyText column k ++ start.1 ++ block start.2 j ++ furtherEntries column ms

def furtherItems (column : Nat) : List Json → List Char
  | [] => []
  | j :: js => margin column ++ '-' :: ' ' :: block (column + 2) j ++ furtherItems column js

def furtherEntries (column : Nat) : List (String × Json) → List Char
  | [] => []
  | (k, j) :: ms =>
    let start := valueStart column (isSimpleKey k) j
    margin column ++ keyText column k ++ start.1 ++ block start.2 j ++ furtherEntries column ms

end

/-- The text of a tree, as a document of its own. The lines of a text that is the whole document are
indented as well. -/
def text (j : Json) : String :=
  String.ofList <| match j with
    | .string s => endLine (scalarText 2 s)
    | j => block 0 j

end TrafficIntent.Yaml
