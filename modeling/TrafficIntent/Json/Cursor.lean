import TrafficIntent.Document.Mismatch

/-!
Where a reader of JSON text stands, what it may find wrong there, and the steps that it takes. Lines
count from one; columns count the bytes before a place on its line.
-/

namespace TrafficIntent.Json

structure Position where
  line : Nat
  column : Nat
  deriving DecidableEq

namespace Position

def past (p : Position) (c : Char) : Position :=
  if c = '\n' then ⟨p.line + 1, 0⟩ else ⟨p.line, p.column + c.utf8Size⟩

/-- Past the first byte of a character only. -/
def pastByte (p : Position) (c : Char) : Position :=
  if c = '\n' then ⟨p.line + 1, 0⟩ else ⟨p.line, p.column + 1⟩

def pastAll (p : Position) (cs : List Char) : Position := cs.foldl past p

/-- Past as many bytes of a text, which may end within a character. -/
def pastBytes (p : Position) : Nat → List Char → Position
  | 0, _ => p
  | _ + 1, [] => p
  | n + 1, c :: cs =>
    if c.utf8Size ≤ n + 1 then (p.past c).pastBytes (n + 1 - c.utf8Size) cs
    else ⟨p.line, p.column + n + 1⟩
termination_by structural _ cs => cs

end Position

/-- What breaks the rules of the notation. -/
inductive Malformed where
  | valueCut
  | listCut
  | objectCut
  | stringCut
  | noValue
  | noWord
  | noColon
  | noListSeparator
  | noObjectSeparator
  | keyNotText
  | trailingComma
  | trailingText
  | badNumber
  | numberTooLarge
  | badEscape
  | controlCharacter
  | loneSurrogate
  | surrogateCut
  | tooDeep
  deriving DecidableEq

def Malformed.message : Malformed → String
  | valueCut => "EOF while parsing a value"
  | listCut => "EOF while parsing a list"
  | objectCut => "EOF while parsing an object"
  | stringCut => "EOF while parsing a string"
  | noValue => "expected value"
  | noWord => "expected ident"
  | noColon => "expected `:`"
  | noListSeparator => "expected `,` or `]`"
  | noObjectSeparator => "expected `,` or `\x7d`"
  | keyNotText => "key must be a string"
  | trailingComma => "trailing comma"
  | trailingText => "trailing characters"
  | badNumber => "invalid number"
  | numberTooLarge => "number out of range"
  | badEscape => "invalid escape"
  | controlCharacter => "control character (\\u0000-\\u001F) found while parsing a string"
  | loneSurrogate => "lone leading surrogate in hex escape"
  | surrogateCut => "unexpected end of hex escape"
  | tooDeep => "recursion limit exceeded"

inductive Cause where
  | malformed (m : Malformed)
  | mismatch (m : Mismatch)
  deriving DecidableEq

def Cause.message : Cause → String
  | malformed m => m.message
  | mismatch m => m.message .json

/-- What is wrong with a text, and where. -/
structure Fault where
  cause : Cause
  position : Position
  deriving DecidableEq

def Fault.message (f : Fault) : String :=
  f.cause.message ++ " at line " ++ toString f.position.line ++ " column " ++
    toString f.position.column

/-- The rest of a text and where it starts. -/
structure Cursor where
  rest : List Char
  position : Position

def Cursor.ofText (s : String) : Cursor := ⟨s.toList, ⟨1, 0⟩⟩

/-- A reader of text: it moves the cursor, or finds a fault. -/
abbrev Scan := StateT Cursor (Except Fault)

namespace Scan

def failAt {α : Type} (p : Position) (m : Malformed) : Scan α := throw ⟨.malformed m, p⟩

/-- A fault where the reader stands. -/
def failHere {α : Type} (m : Malformed) : Scan α := do failAt (← get).position m

/-- A fault in the character ahead, reported past its first byte. -/
def failAhead {α : Type} (m : Malformed) : Scan α := do
  let k ← get
  match k.rest with
  | [] => failAt k.position m
  | c :: _ => failAt (k.position.pastByte c) m

/-- A mismatch found where the reader stands. -/
def mismatch {α : Type} (m : Mismatch) : Scan α := do throw ⟨.mismatch m, (← get).position⟩

/-- The character ahead. -/
def ahead : Scan (Option Char) := do return (← get).rest.head?

/-- Passes as many characters. -/
def pass (n : Nat) : Scan Unit :=
  modify fun k => ⟨k.rest.drop n, k.position.pastAll (k.rest.take n)⟩

/-- Passes all characters of a kind that are ahead, and gives them. -/
def passWhile (p : Char → Bool) : Scan (List Char) := do
  let cs := (← get).rest.takeWhile p
  pass cs.length
  return cs

def isSpace (c : Char) : Bool := c == ' ' || c == '\n' || c == '\t' || c == '\r'

/-- Passes white space and gives the character ahead. -/
def passSpace : Scan (Option Char) := do
  let _ ← passWhile isSpace
  ahead

/-- Passes the rest of a word whose first letter has been recognized. -/
def word : List Char → Scan Unit
  | [] => return
  | c :: cs => do
    match ← ahead with
    | none => failHere .valueCut
    | some d =>
      if d = c then
        pass 1
        word cs
      else failAhead .noWord

/-- How many steps suffice to read what is left, if each takes at least one character. -/
def budget : Scan Nat := do return (← get).rest.length + 1

end Scan

end TrafficIntent.Json
