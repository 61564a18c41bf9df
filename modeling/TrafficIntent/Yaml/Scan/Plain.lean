import TrafficIntent.Yaml.Scan.Folding
import TrafficIntent.Yaml.Scan.State

/-!
Scanning plain scalars, which have no mark of their own: they end before a comment, before the colon
after a key, between brackets at punctuation, and where a line is not indented enough.
-/

namespace TrafficIntent.Yaml.Scan

/-- Whether a plain scalar ends before the character ahead. -/
def plainEnds (e : Edition) (flow : Bool) (c next : Char) : Bool :=
  isBlankOrEnd e c || (flow && isFlow c) ||
    (c == ':' && (isBlankOrEnd e next || (e = .v12 && flow && isFlow next)))

/-- A run of characters without blanks. Between brackets the older edition refuses a colon right
before punctuation. -/
def plainWord (e : Edition) (flow : Bool) : Nat → Folding → Scan Folding
  | 0, f => return f
  | fuel + 1, f => do
    let c ← ahead 0
    let next ← ahead 1
    if e = .v11 && flow && c == ':' && (next == '?' || isFlow next) then failure
    if plainEnds e flow c next then return f
    else
      skip
      plainWord e flow fuel (f.push c)

/-- Blanks and line breaks between words. A tab does not indent: the older edition refuses it, the
newer one unless nothing else than a comment is on the line. After such a comment the next line
break counts as a first one. -/
def plainGap (e : Edition) (indent : Int) : Nat → Bool → Folding → Scan (Folding × Bool)
  | 0, broken, f => return (f, broken)
  | fuel + 1, broken, f => do
    let c ← ahead 0
    if isBlank c then
      if broken && c == '\t' && decide (((← mark).column : Int) < indent) then
        if e = .v11 then failure
        let _ ← passBlanks true
        if !isBreakOrEnd e (← ahead 0) then failure
        plainGap e indent fuel (← get).atLineStart f
      else
        skip
        plainGap e indent fuel broken (f.blank broken c)
    else if isBreak e c then
      let b ← passBreak
      plainGap e indent fuel true (f.lineBreak broken b)
    else return (f, broken)

/-- The words of a scalar and what is between them. Gives whether the scanner has gone on to another
line. -/
def plainText (e : Edition) (indent : Int) : Nat → Bool → Folding → Scan (List Char × Bool)
  | 0, broken, f => return (f.text, broken)
  | fuel + 1, broken, f => do
    let s ← get
    let flow ← inFlow
    let c := s.ahead 0
    if s.atDocumentMark e || c == '#' then return (f.text, broken)
    if e = .v12 && flow && c == '-' && isFlow (s.ahead 1) then failure
    let starts := !plainEnds e flow c (s.ahead 1)
    let n := s.rest.length + 1
    let word ← plainWord e flow n (if starts then f.join broken else f)
    let broken := broken && !starts
    let c ← ahead 0
    if isBlank c || isBreak e c then
      let (f, broken) ← plainGap e indent n broken word
      if !flow && decide (((← mark).column : Int) < indent) then return (f.text, broken)
      plainText e indent fuel broken f
    else return (word.text, broken)

/-- Fetches a plain scalar. A key may follow it on another line only. -/
def fetchPlain (e : Edition) : Scan Unit := do
  saveCandidate e
  allowKey false
  if e = .v12 then unindentOnes
  let s ← get
  let indent := s.indent + 1
  if e = .v12 && s.flowDepth != 0 && decide ((s.mark.column : Int) < indent) then failure
  let (text, broken) ← plainText e indent (s.rest.length + 1) false .empty
  if broken then allowKey true
  emit (.scalar .plain (String.ofList text)) s.mark

end TrafficIntent.Yaml.Scan
