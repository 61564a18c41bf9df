import TrafficIntent.Yaml.Edition

namespace TrafficIntent.Yaml

/-- A place in a text. Everything is counted from zero and, bytes apart, in characters. -/
structure Mark where
  index : Nat
  /-- The bytes before the place. -/
  offset : Nat
  line : Nat
  column : Nat
  deriving DecidableEq

namespace Mark

def start : Mark := ⟨0, 0, 0, 0⟩

/-- Past a character of a line. -/
def past (m : Mark) (c : Char) : Mark :=
  ⟨m.index + 1, m.offset + c.utf8Size, m.line, m.column + 1⟩

/-- To the start of the line after a break. -/
def nextLine (m : Mark) : Mark := { m with line := m.line + 1, column := 0 }

/-- How far into the text a place is: the older edition counts bytes, the newer one characters. -/
def reach (e : Edition) (m : Mark) : Nat :=
  match e with
  | .v11 => m.offset
  | .v12 => m.index

end Mark

inductive Style where
  | plain
  | singleQuoted
  | doubleQuoted
  | literal
  | folded
  deriving DecidableEq

inductive Token where
  | versionDirective (major minor : Nat)
  | tagDirective (handle origin : String)
  | documentStart
  | documentEnd
  | blockSequenceStart
  | blockMappingStart
  | blockEnd
  | flowSequenceStart
  | flowSequenceEnd
  | flowMappingStart
  | flowMappingEnd
  | blockEntry
  | flowEntry
  | key
  | value
  | reference (name : String)
  | anchor (name : String)
  | tag (handle suffix : String)
  | scalar (style : Style) (text : String)
  | streamEnd
  deriving DecidableEq

/-- A token and where it stands. -/
structure Lexeme where
  token : Token
  start : Mark
  finish : Mark
  deriving DecidableEq

end TrafficIntent.Yaml
