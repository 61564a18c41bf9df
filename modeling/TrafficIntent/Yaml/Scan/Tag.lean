import TrafficIntent.Yaml.Scan.State

namespace TrafficIntent.Yaml.Scan

/-- The bytes of as many escapes, each of a percent sign and two digits. -/
def escapedBytes : Nat → Scan (List Nat)
  | 0 => return []
  | n + 1 => do
    if (← ahead 0) != '%' then failure
    match hexNumber? [← ahead 1, ← ahead 2] with
    | none => failure
    | some b =>
      skipMany 3
      return b :: (← escapedBytes n)

/-- How many bytes a character has whose first one is given. -/
private def byteCount? (first : Nat) : Option Nat :=
  if first < 0x80 then some 1
  else if first < 0xC0 then none
  else if first < 0xE0 then some 2
  else if first < 0xF0 then some 3
  else if first < 0xF8 then some 4
  else none

/-- The character that bytes stand for in the older edition. Bytes that encode none make a character
that no known tag has. -/
private def decoded (bytes : List Nat) : Char :=
  match String.fromUTF8? ⟨(bytes.map UInt8.ofNat).toArray⟩ with
  | some s => s.toList.headD '\ufffd'
  | none => '\ufffd'

/-- A character written by its bytes. The newer edition takes the bytes for the digits of its
number. -/
def escapedTagChar (e : Edition) : Scan Char := do
  match (hexNumber? [← ahead 1, ← ahead 2]).bind byteCount? with
  | none => failure
  | some n =>
    let bytes ← escapedBytes n
    if (bytes.drop 1).any fun b => b < 0x80 || 0xC0 ≤ b then failure
    match e with
    | .v11 => return decoded bytes
    | .v12 =>
      match char? (bytes.foldl (fun n b => 256 * n + b) 0) with
      | some c => return c
      | none => failure

/-- The characters of a tag that are ahead. -/
def tagChars (e : Edition) (verbatim : Bool) : Nat → Scan (List Char)
  | 0 => return []
  | fuel + 1 => do
    let c ← ahead 0
    if !isTagChar e verbatim c then return []
    else if c == '%' then
      let c ← escapedTagChar e
      return c :: (← tagChars e verbatim fuel)
    else
      skip
      return c :: (← tagChars e verbatim fuel)

def tagText (e : Edition) (verbatim : Bool) : Scan (List Char) := do
  tagChars e verbatim (← get).rest.length

/-- The handle of a tag: a word between exclamation marks, of which the second may be missing where
no directive declares it. -/
def tagHandle (inDirective : Bool) : Scan (List Char) := do
  if (← ahead 0) != '!' then failure
  skip
  let word ← passWhile isWord
  if (← ahead 0) == '!' then
    skip
    return '!' :: word ++ ['!']
  else
    if inDirective && !word.isEmpty then failure
    return '!' :: word

/-- A tag's handle and suffix. A tag without a handle of its own has the primary one; the tag of a
single exclamation mark has none. -/
def tagParts (e : Edition) : Scan (List Char × List Char) := do
  if (← ahead 1) == '<' then
    skipMany 2
    let suffix ← tagText e true
    if e = .v11 && suffix.isEmpty then failure
    if (← ahead 0) != '>' then failure
    skip
    return ([], suffix)
  else
    let handle ← tagHandle false
    let suffix ← tagText e false
    if 2 ≤ handle.length && handle.getLast? == some '!' then
      if suffix.isEmpty then failure
      return (handle, suffix)
    else
      let suffix := handle.drop 1 ++ suffix
      return if suffix.isEmpty then ([], ['!']) else (['!'], suffix)

def fetchTag (e : Edition) : Scan Unit := do
  saveCandidate e
  allowKey false
  let start ← mark
  let (handle, suffix) ← tagParts e
  let c ← ahead 0
  let flowEnd := (← inFlow) && (match e with
    | .v11 => c == ','
    | .v12 => isFlow c)
  if !(isBlankOrEnd e c || flowEnd) then failure
  emit (.tag (String.ofList handle) (String.ofList suffix)) start

/-- An anchor gives the node after it a name; an alias stands for the node of its name. -/
def fetchAnchor (e : Edition) (token : String → Token) : Scan Unit := do
  saveCandidate e
  allowKey false
  let start ← mark
  skip
  let name ← passWhile (isAnchorChar e)
  if name.isEmpty then failure
  if e = .v11 && !isAnchorEnd (← ahead 0) then failure
  emit (token (String.ofList name)) start

/-- A number of at most nine digits. -/
def versionNumber : Scan Nat := do
  let ds ← passWhile Char.isDigit
  if ds.isEmpty || 9 < ds.length then failure
  match (String.ofList ds).toNat? with
  | some n => return n
  | none => failure

def versionDirective : Scan Token := do
  let _ ← passWhile isBlank
  let major ← versionNumber
  if (← ahead 0) != '.' then failure
  skip
  return .versionDirective major (← versionNumber)

/-- What a directive puts for a handle. In the newer edition it may start with an exclamation mark,
or else with a character that a tag may have. -/
def tagOrigin (e : Edition) : Scan (List Char) := do
  match e with
  | .v11 =>
    let cs ← tagText e true
    if cs.isEmpty then failure
    return cs
  | .v12 =>
    let c ← ahead 0
    if !(c == '!' || isTagChar e false c) then failure
    tagText e true

def tagDirective (e : Edition) : Scan Token := do
  let _ ← passWhile isBlank
  let handle ← tagHandle true
  if e = .v11 && !isBlank (← ahead 0) then failure
  let _ ← passWhile isBlank
  let origin ← tagOrigin e
  if !isBlankOrEnd e (← ahead 0) then failure
  return .tagDirective (String.ofList handle) (String.ofList origin)

/-- A directive has a line of its own. The newer edition passes over directives that it does not
know, and takes them for one that declares nothing. -/
def fetchDirective (e : Edition) : Scan Unit := do
  closeBlocks (-1)
  dropCandidate
  allowKey false
  let start ← mark
  skip
  let name ← passWhile isWord
  if name.isEmpty || !isBlankOrEnd e (← ahead 0) then failure
  let token ←
    if name = "YAML".toList then versionDirective
    else if name = "TAG".toList then tagDirective e
    else do
      if e = .v11 then failure
      let _ ← passLine e
      pure (.tagDirective "" "")
  match e with
  | .v11 => passComment e
  | .v12 => let _ ← passBlanks true
  if !isBreakOrEnd e (← ahead 0) then failure
  if isBreak e (← ahead 0) then
    let _ ← passBreak
  emit token start

end TrafficIntent.Yaml.Scan
