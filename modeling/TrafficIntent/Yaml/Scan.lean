import TrafficIntent.Yaml.Scan.Block
import TrafficIntent.Yaml.Scan.Indicator
import TrafficIntent.Yaml.Scan.Plain
import TrafficIntent.Yaml.Scan.Quoted
import TrafficIntent.Yaml.Scan.Tag

namespace TrafficIntent.Yaml

namespace Scan

/-- To the start of the next token: past blanks, comments and empty lines, and in the older edition
past a byte order mark at the start of a line. A tab does not indent, so where indentation counts it
may stand only on an empty line. -/
def toNextToken (e : Edition) : Nat → Scan Unit
  | 0 => return
  | fuel + 1 => do
    let s ← get
    let flow ← inFlow
    let c := s.ahead 0
    if e = .v11 && s.mark.column == 0 && c == byteOrderMark then
      skip
      toNextToken e fuel
    else if c == '\t' && e = .v12 && !s.levels.isEmpty && s.atLineStart &&
        decide ((s.mark.column : Int) < s.indent) then
      let _ ← passBlanks true
      if !isBreakOrEnd e (← ahead 0) then failure
      toNextToken e fuel
    else if c == ' ' || (c == '\t' && (e = .v12 || flow || !s.keyAllowed)) then
      skip
      toNextToken e fuel
    else if isBreak e c then
      let _ ← passBreak
      if !flow then allowKey true
      toNextToken e fuel
    else if c == '#' then
      let _ ← passLine e
      toNextToken e fuel
    else return

/-- The end of the text: all blocks end, on a line of their own. -/
def fetchEnd : Scan Unit := do
  modify fun s =>
    if s.mark.column = 0 then s else { s with mark := s.mark.nextLine }
  if (← get).candidates.any fun k => k.possible && k.required then failure
  closeBlocks (-1)
  allowKey false
  emit .streamEnd (← mark)

def fetchDocumentMark (token : Token) : Scan Unit := do
  closeBlocks (-1)
  dropCandidate
  allowKey false
  let start ← mark
  skipMany 3
  emit token start

/-- Nothing but a comment may follow the mark at the end of a document in the newer edition. -/
def fetchDocumentEnd (e : Edition) : Scan Unit := do
  fetchDocumentMark .documentEnd
  if e = .v12 then
    let _ ← passBlanks true
    if !isBreakOrEnd e (← ahead 0) then failure

/-- A scalar between quotes. Between brackets a colon right after it is an indicator in the newer
edition. -/
def fetchQuoted (e : Edition) (single : Bool) : Scan Unit := do
  saveCandidate e
  allowKey false
  let start ← mark
  let token ← quotedScalar e single
  if e = .v12 then
    toNextToken e ((← get).rest.length + 1)
    modify fun s => { s with adjacentValueAt := s.mark.index }
  emit token start

/-- Whether a colon is ahead that is followed by a value. -/
def atValue (e : Edition) (s : State) : Bool :=
  let next := s.ahead 1
  s.ahead 0 == ':' && (isBlankOrEnd e next || (s.flowDepth != 0 && match e with
    | .v11 => true
    | .v12 => isFlow next || s.mark.index == s.adjacentValueAt))

/-- Whether a plain scalar may start here. -/
def atPlain (e : Edition) (s : State) : Bool :=
  let c := s.ahead 0
  let next := s.ahead 1
  match e with
  | .v11 =>
    !(isBlankOrEnd e c || ['-', '?', ':', ',', '[', ']', '{', '}', '#', '&', '*', '!', '|', '>',
        '\x27', '\x22', '%', '@', '\x60'].contains c) ||
      (c == '-' && !isBlank next) ||
      (s.flowDepth == 0 && (c == '?' || c == ':') && !isBlankOrEnd e next)
  | .v12 => !(['%', '@', '\x60'].contains c)

/-- Fetches the token ahead. -/
def fetchToken (e : Edition) : Scan Unit := do
  let s ← get
  let c := s.ahead 0
  let next := s.ahead 1
  let flow := s.flowDepth != 0
  if c == '[' then fetchFlowStart e .flowSequenceStart
  else if c == '{' then fetchFlowStart e .flowMappingStart
  else if c == ']' then fetchFlowEnd e .flowSequenceEnd
  else if c == '}' then fetchFlowEnd e .flowMappingEnd
  else if c == ',' then fetchFlowEntry e
  else if c == '-' && isBlankOrEnd e next then fetchBlockEntry e
  else if c == '?' && (isBlankOrEnd e next || (e = .v11 && flow)) then fetchKey e
  else if atValue e s then fetchValue e
  else if c == '*' then fetchAnchor e .reference
  else if c == '&' then fetchAnchor e .anchor
  else if c == '!' then fetchTag e
  else if c == '|' && !flow then fetchBlockScalar e true
  else if c == '>' && !flow then fetchBlockScalar e false
  else if c == '\x27' then fetchQuoted e true
  else if c == '\x22' then fetchQuoted e false
  else if atPlain e s then fetchPlain e
  else failure

/-- Fetches tokens up to the end of the text. -/
def fetchAll (e : Edition) : Nat → Scan Unit
  | 0 => failure
  | fuel + 1 => do
    toNextToken e ((← get).rest.length + 1)
    dropStale e
    let column := (← mark).column
    closeBlocks column
    let s ← get
    if s.ahead 0 == endChar then fetchEnd
    else
      if column == 0 && s.ahead 0 == '%' then fetchDirective e
      else if s.atDocumentStart e then fetchDocumentMark .documentStart
      else if s.atDocumentEnd e then fetchDocumentEnd e
      else
        if e = .v12 && decide ((column : Int) < s.indent) then failure
        fetchToken e
      fetchAll e fuel

end Scan

/-- The tokens of a text, or `none` if it breaks the rules. -/
def tokens? (e : Edition) (text : String) : Option (List Lexeme) :=
  let s := State.ofText text
  if e = .v11 && !(s.rest.all isAdmitted) then none
  else ((Scan.fetchAll e (s.rest.length + 1)).run s).map fun r => r.2.tokens.toList

end TrafficIntent.Yaml
