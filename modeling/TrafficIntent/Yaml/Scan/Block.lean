import TrafficIntent.Yaml.Scan.Folding
import TrafficIntent.Yaml.Scan.State

/-!
Scanning block scalars: all lines that are indented as much as the first one. A header says what
becomes of the line breaks at the end, and it may give the indentation.
-/

namespace TrafficIntent.Yaml.Scan

/-- What becomes of the line breaks at the end: none of them stays, one, or all. -/
inductive Chomping where
  | strip
  | clip
  | keep
  deriving DecidableEq

def chomping? (c : Char) : Option Chomping :=
  if c == '+' then some .keep else if c == '-' then some .strip else none

def chompingAhead : Scan (Option Chomping) := do
  let c := chomping? (← ahead 0)
  if c.isSome then skip
  return c

/-- The columns that a header adds to the indentation; 0 if it does not say. -/
def incrementAhead : Scan Nat := do
  let c ← ahead 0
  if !c.isDigit then return 0
  if c == '0' then failure
  skip
  return c.toNat - '0'.toNat

/-- A header, with its parts in either order. -/
def blockHeader : Scan (Chomping × Nat) := do
  match ← chompingAhead with
  | some chomping => return (chomping, ← incrementAhead)
  | none =>
    let increment ← incrementAhead
    if increment = 0 then return (.clip, 0)
    return ((← chompingAhead).getD .clip, increment)

/-- Empty lines, and the spaces before the next line that is not empty, up to the indentation if it
is known. Gives the line breaks and the greatest column reached. -/
def blockGap (e : Edition) (indent : Option Nat) :
    Nat → List Char → Nat → Scan (List Char × Nat)
  | 0, breaks, widest => return (breaks, widest)
  | fuel + 1, breaks, widest => do
    let s ← get
    let spaces := (s.rest.takeWhile (· == ' ')).length
    skipMany <| match indent with
      | some n => min spaces (n - s.mark.column)
      | none => spaces
    let s ← get
    let widest := max widest s.mark.column
    let inside := match indent with
      | some n => decide (s.mark.column < n)
      | none => true
    if e = .v11 && inside && s.ahead 0 == '\t' then failure
    if isBreak e (s.ahead 0) then
      let b ← passBreak
      blockGap e indent fuel (breaks ++ b) widest
    else return (breaks, widest)

/-- The indentation that the first line sets, at least one column more than what is around it. At
the top of a document the newer edition asks for none. -/
def blockIndent (e : Edition) (outer : Int) (widest : Nat) : Nat :=
  let n := max widest (outer + 1).toNat
  if e = .v11 then max n 1 else n

/-- The lines of the scalar. Lines that start with a blank are not folded. Where lines need no
indentation the mark after a document ends the scalar, and the one before a document is a line of
it. -/
def blockLines (e : Edition) (literal : Bool) (indent : Nat) :
    Nat → Bool → Folding → Scan Folding
  | 0, _, f => return f
  | fuel + 1, afterBlank, f => do
    let s ← get
    if s.mark.column != indent || s.ahead 0 == endChar then return f
    if e = .v12 && indent == 0 && s.atDocumentEnd e then return f
    let blank := isBlank (s.ahead 0)
    let gap :=
      if !literal && f.first == ['\n'] && !afterBlank && !blank then f.folded
      else f.first ++ f.further
    let line ← passLine e
    let f := Folding.append ⟨gap.reverse ++ f.reversed, [], [], []⟩ line
    if (← ahead 0) == endChar then return f
    let first ← passBreak
    let (further, _) ← blockGap e (some indent) (s.rest.length + 1) [] 0
    blockLines e literal indent fuel blank { f with first := first, further := further }

/-- The text of a scalar of the newer edition that has no lines at the end of a text: the line break
after the header, or those after it if all are kept. -/
def emptyBlock (chomping : Chomping) (sameLine : Bool) (first further : List Char) :
    List Char :=
  match chomping with
  | .strip => []
  | .clip => if sameLine then [] else first
  | .keep => if sameLine then [] else if further.isEmpty then first else further

def blockScalar (e : Edition) (literal : Bool) : Scan Token := do
  let start ← mark
  let fuel := (← get).rest.length + 1
  let style : Style := if literal then .literal else .folded
  skip
  if e = .v12 then unindentOnes
  let (chomping, increment) ← blockHeader
  match e with
  | .v11 => passComment e
  | .v12 => let _ ← passBlanks true
  if !isBreakOrEnd e (← ahead 0) then failure
  let first ← if isBreak e (← ahead 0) then passBreak else pure []
  let outer := (← get).indent
  if e = .v12 && (← ahead 0) == '\t' then failure
  let given := if increment = 0 then none else some ((max outer 0).toNat + increment)
  let (breaks, widest) ← blockGap e given fuel [] 0
  let indent := given.getD (blockIndent e outer widest)
  let s ← get
  if e = .v12 && s.ahead 0 == endChar then
    let text := emptyBlock chomping (s.mark.line == start.line) first breaks
    return .scalar style (String.ofList text)
  if e = .v12 && decide (s.mark.column < indent) && decide (outer < s.mark.column) then failure
  let f ← blockLines e literal indent fuel false ⟨[], [], [], breaks⟩
  let s ← get
  let closing :=
    if e = .v12 && s.ahead 0 == endChar && decide (max indent 1 ≤ s.mark.column) then ['\n'] else []
  return .scalar style <| String.ofList <| f.text ++ match chomping with
    | .strip => []
    | .clip => f.first ++ closing
    | .keep => f.first ++ closing ++ f.further

/-- Fetches a block scalar. A key may follow it. -/
def fetchBlockScalar (e : Edition) (literal : Bool) : Scan Unit := do
  match e with
  | .v11 => dropCandidate
  | .v12 => saveCandidate e
  allowKey true
  let start ← mark
  emit (← blockScalar e literal) start

end TrafficIntent.Yaml.Scan
