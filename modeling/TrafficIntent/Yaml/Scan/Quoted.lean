import TrafficIntent.Yaml.Scan.Folding
import TrafficIntent.Yaml.Scan.State

namespace TrafficIntent.Yaml.Scan

/-- The character of an escape of a single letter. -/
def escape? (c : Char) : Option Char :=
  match c with
  | '0' => some '\x00'
  | 'a' => some '\x07'
  | 'b' => some '\x08'
  | 't' => some '\t'
  | '\t' => some '\t'
  | 'n' => some '\n'
  | 'v' => some '\x0b'
  | 'f' => some '\x0c'
  | 'r' => some '\r'
  | 'e' => some '\x1b'
  | ' ' => some ' '
  | '\x22' => some '\x22'
  | '/' => some '/'
  | '\\' => some '\\'
  | 'N' => some '\x85'
  | '_' => some '\xa0'
  | 'L' => some '\u2028'
  | 'P' => some '\u2029'
  | _ => none

/-- How many digits the number of an escape has. -/
def escapeDigits? (c : Char) : Option Nat :=
  match c with
  | 'x' => some 2
  | 'u' => some 4
  | 'U' => some 8
  | _ => none

/-- The character of an escape, whose backslash is ahead. -/
def escaped : Scan Char := do
  let c ← ahead 1
  match escape? c, escapeDigits? c with
  | some c, _ =>
    skipMany 2
    return c
  | none, some n =>
    skipMany 2
    let ds := (← get).rest.take n
    match (hexNumber? ds).bind char? with
    | some c =>
      if ds.length < n then failure
      skipMany n
      return c
    | none => failure
  | none, none => failure

/-- A run of characters without blanks, up to the closing quote. Gives whether it ended with an
escaped line break. -/
def quotedWord (e : Edition) (single : Bool) : Nat → Folding → Scan (Folding × Bool)
  | 0, f => return (f, false)
  | fuel + 1, f => do
    let c ← ahead 0
    if isBlankOrEnd e c then return (f, false)
    else if single then
      if c == '\x27' then
        if (← ahead 1) == '\x27' then
          skipMany 2
          quotedWord e single fuel (f.push c)
        else return (f, false)
      else
        skip
        quotedWord e single fuel (f.push c)
    else if c == '\x22' then return (f, false)
    else if c == '\\' then
      if isBreak e (← ahead 1) then
        skip
        let _ ← passBreak
        return (f, true)
      else
        let d ← escaped
        quotedWord e single fuel (f.push d)
    else
      skip
      quotedWord e single fuel (f.push c)

/-- Blanks and line breaks between words. Gives whether a line break has been read. -/
def quotedGap (e : Edition) : Nat → Bool → Folding → Scan (Folding × Bool)
  | 0, broken, f => return (f, broken)
  | fuel + 1, broken, f => do
    let c ← ahead 0
    if isBlank c then
      if broken && e = .v12 && c == '\t' && decide (((← mark).column : Int) < (← get).indent) then
        failure
      skip
      quotedGap e fuel broken (f.blank broken c)
    else if isBreak e c then
      let b ← passBreak
      quotedGap e fuel true (f.lineBreak broken b)
    else return (f, broken)

/-- The words of a scalar and what is between them, up to the closing quote. -/
def quotedText (e : Edition) (single : Bool) : Nat → Folding → Scan (List Char)
  | 0, _ => failure
  | fuel + 1, f => do
    let s ← get
    if s.atDocumentMark e || s.ahead 0 == endChar then failure
    if e = .v12 && decide ((s.mark.column : Int) < s.indent) then failure
    let (f, escapedBreak) ← quotedWord e single (s.rest.length + 1) f
    if (← ahead 0) == (if single then '\x27' else '\x22') then return f.text
    else
      let (f, broken) ← quotedGap e (s.rest.length + 1) escapedBreak f
      quotedText e single fuel (f.join broken)

/-- What may follow a scalar between quotes in the newer edition. -/
def quotedEnd (start : Mark) : Scan Unit := do
  let _ ← passBlanks true
  let c ← ahead 0
  let flow ← inFlow
  let fits := isBreakOrEnd .v12 c || (flow && [',', '}', ']', ':'].contains c) ||
    (!flow && c == ':' && start.line == (← mark).line)
  if !fits then failure

def quotedScalar (e : Edition) (single : Bool) : Scan Token := do
  let start ← mark
  skip
  let text ← quotedText e single ((← get).rest.length + 1) .empty
  skip
  if e = .v12 then quotedEnd start
  return .scalar (if single then .singleQuoted else .doubleQuoted) (String.ofList text)

end TrafficIntent.Yaml.Scan
