import TrafficIntent.Yaml.Token

/-!
What a scanner of YAML text knows, and its single steps. A key of a map is recognized by the colon
after it, so a token that may start a key is remembered until its colon comes or can come no more;
the key's own token is then put before it.
-/

namespace TrafficIntent.Yaml

/-- A token that may turn out to start a key. -/
structure KeyCandidate where
  possible : Bool
  /-- Nothing but a key can stand where the token stands. -/
  required : Bool
  /-- How many tokens are before it. -/
  number : Nat
  mark : Mark
  deriving DecidableEq

def KeyCandidate.none : KeyCandidate := ⟨false, false, 0, .start⟩

/-- A level of indentation that has been left for a deeper one. -/
structure Level where
  column : Int
  /-- Whether the deeper level belongs to a list or map, and its end is a token. -/
  isBlock : Bool
  deriving DecidableEq

structure State where
  rest : List Char
  mark : Mark
  /-- Only blanks have been passed on this line. -/
  atLineStart : Bool
  tokens : Array Lexeme
  /-- One candidate for each level of brackets, the innermost first. -/
  candidates : List KeyCandidate
  keyAllowed : Bool
  /-- The column of the innermost block; -1 outside of all blocks. -/
  indent : Int
  levels : List Level
  flowDepth : Nat
  /-- Whether a map between brackets has been entered. Only the end of a map of a single pair takes
  it back. -/
  inFlowMapping : Bool
  /-- Whether a map of a single pair is open within a list between brackets. There is at most one,
  also where lists stand within lists. -/
  pairOpen : Bool
  /-- Where a colon counts as an indicator whatever follows it. -/
  adjacentValueAt : Nat

/-- A step of the scanner; `none` where the text breaks the rules. -/
abbrev Scan := StateT State Option

def State.ofText (s : String) : State :=
  { rest := s.toList
    mark := .start
    atLineStart := true
    tokens := #[]
    candidates := [.none]
    keyAllowed := true
    indent := -1
    levels := []
    flowDepth := 0
    inFlowMapping := false
    pairOpen := false
    adjacentValueAt := 0 }

namespace State

def ahead (s : State) (n : Nat) : Char := s.rest.getD n endChar

/-- Past one character of a line. -/
def skip (s : State) : State :=
  match s.rest with
  | [] => s
  | c :: cs =>
    { s with
      rest := cs
      mark := s.mark.past c
      atLineStart := s.atLineStart && isBlank c }

def skipMany : Nat → State → State
  | 0, s => s
  | n + 1, s => skipMany n s.skip

/-- Past a line break, which may be of two characters. -/
def skipBreak (s : State) : State :=
  match s.rest with
  | '\r' :: '\n' :: cs =>
    { s with rest := cs, mark := ((s.mark.past '\r').past '\n').nextLine, atLineStart := true }
  | c :: cs => { s with rest := cs, mark := (s.mark.past c).nextLine, atLineStart := true }
  | [] => s

/-- Whether a character stands ahead three times at the start of a line, and by itself. -/
def atTriple (e : Edition) (c : Char) (s : State) : Bool :=
  s.mark.column == 0 && s.ahead 0 == c && s.ahead 1 == c && s.ahead 2 == c &&
    isBlankOrEnd e (s.ahead 3)

/-- The mark before a document. -/
def atDocumentStart (e : Edition) (s : State) : Bool := s.atTriple e '-'

/-- The mark after a document. -/
def atDocumentEnd (e : Edition) (s : State) : Bool := s.atTriple e '.'

def atDocumentMark (e : Edition) (s : State) : Bool := s.atDocumentStart e || s.atDocumentEnd e

end State

namespace Scan

/-- The character ahead, after as many others. -/
def ahead (n : Nat) : Scan Char := do return (← get).ahead n

def mark : Scan Mark := do return (← get).mark

def inFlow : Scan Bool := do return (← get).flowDepth != 0

def skip : Scan Unit := modify State.skip

def skipMany (n : Nat) : Scan Unit := modify (State.skipMany n)

/-- Passes the characters of a kind that are ahead, and gives them. -/
def passWhile (p : Char → Bool) : Scan (List Char) := do
  let cs := (← get).rest.takeWhile p
  skipMany cs.length
  return cs

/-- Passes what is left of a line. -/
def passLine (e : Edition) : Scan (List Char) := passWhile fun c => !isBreakOrEnd e c

/-- Passes a line break and gives what it stands for: most are read as the one of a single
character. -/
def passBreak : Scan (List Char) := do
  let c ← ahead 0
  modify State.skipBreak
  return if c == '\u2028' || c == '\u2029' then [c] else ['\n']

/-- Passes blanks and a comment. -/
def passComment (e : Edition) : Scan Unit := do
  let _ ← passWhile isBlank
  if (← ahead 0) == '#' then
    let _ ← passLine e

/-- Passes the blanks to the end of a line, and a comment that a blank separates from what is before
it. Gives whether there were tabs and whether there were spaces. -/
def passBlanks (tabs : Bool) : Scan (Bool × Bool) := do
  let cs ← passWhile fun c => c == ' ' || (tabs && c == '\t')
  if (← ahead 0) == '#' then
    if cs.isEmpty then failure
    let _ ← passLine .v12
  return (cs.contains '\t', cs.contains ' ')

/-- Puts a token at the end. It ends where the scanner stands. -/
def emit (t : Token) (start : Mark) : Scan Unit :=
  modify fun s => { s with tokens := s.tokens.push ⟨t, start, s.mark⟩ }

/-- Puts a token before a candidate. -/
def emitBefore (k : KeyCandidate) (t : Token) : Scan Unit :=
  modify fun s => { s with tokens := s.tokens.insertIdxIfInBounds k.number ⟨t, k.mark, k.mark⟩ }

def allowKey (b : Bool) : Scan Unit := modify fun s => { s with keyAllowed := b }

def candidate : Scan KeyCandidate := do return (← get).candidates.headD .none

def setCandidate (k : KeyCandidate) : Scan Unit :=
  modify fun s => { s with candidates := k :: s.candidates.tail }

/-- Gives the candidate up; one that has to be a key cannot be given up. -/
def dropCandidate : Scan Unit := do
  let k ← candidate
  if k.possible && k.required then failure
  setCandidate { k with possible := false }

/-- What comes next is a candidate, where keys are allowed. -/
def saveCandidate (e : Edition) : Scan Unit := do
  let s ← get
  if s.keyAllowed then
    if e = .v11 then dropCandidate
    let required := s.flowDepth == 0 && s.indent == s.mark.column &&
      (s.levels.head?.map (·.isBlock)).getD true
    setCandidate ⟨true, required, s.tokens.size, s.mark⟩

/-- A key stands on one line with its colon, which is at most 1024 bytes or characters after its
start; the newer edition asks this outside of brackets only. -/
def dropStale (e : Edition) : Scan Unit := do
  let s ← get
  let isStale (k : KeyCandidate) : Bool :=
    k.possible && (k.mark.line < s.mark.line || k.mark.reach e + 1024 < s.mark.reach e)
  if e = .v11 || s.flowDepth == 0 then
    if s.candidates.any fun k => isStale k && k.required then failure
    set { s with
      candidates :=
        s.candidates.map fun k => if isStale k then { k with possible := false } else k }

/-- Leaves the blocks that are indented more than a column. Within brackets indentation does not
count. -/
def closeBlocks (column : Int) : Scan Unit := do
  let s ← get
  if s.flowDepth == 0 then close s.levels
where
  close : List Level → Scan Unit
    | [] => return
    | l :: ls => do
      let s ← get
      if column < s.indent then
        set { s with indent := l.column, levels := ls }
        if l.isBlock then emit .blockEnd s.mark
        close ls

/-- Enters a block at a column, unless the scanner is in it already. Its token goes before the
candidate, if one is given. -/
def openBlock (column : Nat) (k : Option KeyCandidate) (t : Token) : Scan Unit := do
  if !(← inFlow) then
    let s ← get
    if s.indent ≤ column then
      match s.levels with
      | ⟨outer, false⟩ :: ls => set { s with indent := outer, levels := ls }
      | _ => pure ()
    let s ← get
    if s.indent < column then
      set { s with indent := column, levels := ⟨s.indent, true⟩ :: s.levels }
      match k with
      | some k => emitBefore k t
      | none => emit t s.mark

/-- What follows an indicator of a block has to be indented by one more column, until it turns out
to be a block of its own. -/
def indentOne : Scan Unit := do
  let s ← get
  if s.flowDepth == 0 && (s.levels.head?.map (·.isBlock)).getD false then
    set { s with indent := s.indent + 1, levels := ⟨s.indent, false⟩ :: s.levels }

/-- Takes back the columns that no block has been opened for. -/
def unindentOnes : Scan Unit :=
  modify fun s => take s s.levels
where
  take (s : State) : List Level → State
    | ⟨outer, false⟩ :: ls => take { s with indent := outer, levels := ls } ls
    | _ => s

/-- The end of a map of a single pair within a list. -/
def closePair : Scan Unit := do
  let s ← get
  if s.pairOpen then
    set { s with inFlowMapping := false, pairOpen := false }
    emit .flowMappingEnd s.mark

end Scan

end TrafficIntent.Yaml
