import TrafficIntent.Yaml.Scan

namespace TrafficIntent.Yaml

/-- A tag, with what its handle stands for and the rest of it. -/
structure Tag where
  origin : String
  suffix : String
  deriving DecidableEq

def Tag.text (t : Tag) : String := t.origin ++ t.suffix

/-- What may stand before the content of a node. Anchors are of type `α`; in a text they are names.
-/
structure Properties (α : Type) where
  anchor : Option α
  tag : Option Tag
  deriving DecidableEq

/-- A node. An alias stands for a node with its anchor. -/
inductive Node (α : Type) where
  | scalar (properties : Properties α) (mark : Mark) (style : Style) (text : String)
  | sequence (properties : Properties α) (mark : Mark) (items : List (Node α))
  | mapping (properties : Properties α) (mark : Mark) (entries : List (Node α × Node α))
  | reference (mark : Mark) (anchor : α)

def Properties.none {α : Type} : Properties α := ⟨.none, .none⟩

/-- The origin of the tags of the core types. -/
def coreOrigin : String := "tag:yaml.org,2002:"

def Node.mark {α : Type} : Node α → Mark
  | scalar _ m _ _ => m
  | sequence _ m _ => m
  | mapping _ m _ => m
  | reference m _ => m

/-- The edition of a text, and the handles that directives declare in a document of it. -/
structure Grammar where
  edition : Edition
  handles : List (String × String)

namespace Grammar

/-- What a handle stands for. Handles with a word have to be declared. -/
def origin? (g : Grammar) (handle : String) : Option String :=
  (g.handles ++ [("", ""), ("!", "!"), ("!!", coreOrigin)]).lookup handle

/-- A node of which nothing is written. -/
def missing (g : Grammar) (m : Mark) : Node String :=
  .scalar .none m .plain (match g.edition with
    | .v11 => ""
    | .v12 => "~")

end Grammar

/-- Reads nodes off a list of tokens; `none` where they do not fit the grammar. -/
abbrev Parse := StateT (List Lexeme) Option

namespace Parse

def ahead : Parse Lexeme := do return (← get).headD ⟨.streamEnd, .start, .start⟩

def token : Parse Token := do return (← ahead).token

def skip : Parse Unit := modify List.tail

/-- Passes a token if it is the one ahead. -/
def accept (t : Token) : Parse Bool := do
  if (← token) = t then
    skip
    return true
  else return false

def expect (t : Token) : Parse Unit := do
  if !(← accept t) then failure

def tagAhead (g : Grammar) : Parse (Option Tag) := do
  match ← token with
  | .tag handle suffix =>
    skip
    match g.origin? handle with
    | some origin => return some ⟨origin, suffix⟩
    | none => failure
  | _ => return none

def anchorAhead : Parse (Option String) := do
  match ← token with
  | .anchor name =>
    skip
    return some name
  | _ => return none

/-- An anchor and a tag, in either order. -/
def properties (g : Grammar) : Parse (Properties String) := do
  match ← anchorAhead with
  | some name => return ⟨some name, ← tagAhead g⟩
  | none =>
    match ← tagAhead g with
    | some tag => return ⟨← anchorAhead, some tag⟩
    | none => return .none

mutual

/-- A node. Only some places admit blocks, and only a value of a map a list that is not indented. -/
def node (g : Grammar) : Nat → Bool → Bool → Parse (Node String)
  | 0, _, _ => failure
  | fuel + 1, block, unindented => do
    let start := (← ahead).start
    match ← token with
    | .reference name =>
      skip
      return .reference start name
    | _ =>
      let p ← properties g
      match ← token with
      | .scalar style text =>
        skip
        return .scalar p start style text
      | .flowSequenceStart =>
        skip
        return .sequence p start (← flowItems g fuel true)
      | .flowMappingStart =>
        skip
        return .mapping p start (← flowEntries g fuel true)
      | t =>
        if t = .blockEntry && unindented then
          return .sequence p start (← unindentedItems g fuel)
        else if t = .blockSequenceStart && block then
          skip
          return .sequence p start (← blockItems g fuel)
        else if t = .blockMappingStart && block then
          skip
          return .mapping p start (← blockEntries g fuel)
        else if p = .none then failure
        else return .scalar p start .plain ""

/-- The node after an indicator, or a missing one where a token of another part is ahead. -/
def nodeUnless (g : Grammar) : Nat → List Token → Mark → Bool → Bool → Parse (Node String)
  | 0, _, _, _, _ => failure
  | fuel + 1, ends, m, block, unindented => do
    if ends.contains (← token) then return g.missing m
    else node g fuel block unindented

def blockItems (g : Grammar) : Nat → Parse (List (Node String))
  | 0 => failure
  | fuel + 1 => do
    let m := (← ahead).finish
    if ← accept .blockEnd then return []
    else
      expect .blockEntry
      let item ← nodeUnless g fuel [.blockEntry, .blockEnd] m true false
      return item :: (← blockItems g fuel)

def unindentedItems (g : Grammar) : Nat → Parse (List (Node String))
  | 0 => failure
  | fuel + 1 => do
    let m := (← ahead).finish
    if ← accept .blockEntry then
      let item ← nodeUnless g fuel [.blockEntry, .key, .value, .blockEnd] m true false
      return item :: (← unindentedItems g fuel)
    else return []

/-- Entries of a map in a block. In the newer edition an entry may start with its value. -/
def blockEntries (g : Grammar) : Nat → Parse (List (Node String × Node String))
  | 0 => failure
  | fuel + 1 => do
    let l ← ahead
    if ← accept .blockEnd then return []
    else
      let key ←
        if ← accept .key then
          nodeUnless g fuel [.key, .value, .blockEnd] l.finish true true
        else if l.token = .value && g.edition = .v12 then pure (g.missing l.start)
        else failure
      let l ← ahead
      let value ←
        if ← accept .value then
          nodeUnless g fuel [.key, .value, .blockEnd] l.finish true true
        else pure (g.missing l.start)
      return (key, value) :: (← blockEntries g fuel)

/-- Items between brackets. An entry with a key is a map of a single pair. -/
def flowItems (g : Grammar) : Nat → Bool → Parse (List (Node String))
  | 0, _ => failure
  | fuel + 1, first => do
    if ← accept .flowSequenceEnd then return []
    else
      if !first then expect .flowEntry
      let l ← ahead
      if ← accept .flowSequenceEnd then return []
      else
        let item ←
          if ← accept .key then
            pure (.mapping .none l.start [← flowPair g fuel])
          else node g fuel false false
        return item :: (← flowItems g fuel false)

/-- The pair of a map of a single one. Where the key is missing the token ahead is passed over. -/
def flowPair (g : Grammar) : Nat → Parse (Node String × Node String)
  | 0 => failure
  | fuel + 1 => do
    let l ← ahead
    let key ←
      if [.value, .flowEntry, .flowSequenceEnd].contains l.token then do
        skip
        pure (g.missing l.start)
      else node g fuel false false
    if ← accept .value then
      let value ← nodeUnless g fuel [.flowEntry, .flowSequenceEnd] (← ahead).start false false
      return (key, value)
    else return (key, g.missing (← ahead).start)

/-- Entries of a map between brackets. In the newer edition an entry may start with its value. -/
def flowEntries (g : Grammar) : Nat → Bool → Parse (List (Node String × Node String))
  | 0, _ => failure
  | fuel + 1, first => do
    if ← accept .flowMappingEnd then return []
    else
      if !first then expect .flowEntry
      if ← accept .flowMappingEnd then return []
      else
        let l ← ahead
        let entry ←
          if ← accept .key then do
            let key ← nodeUnless g fuel [.value, .flowEntry, .flowMappingEnd] (← ahead).start
              false false
            pure (key, ← flowValue g fuel)
          else if l.token = .value && g.edition = .v12 then
            pure (g.missing l.start, ← flowValue g fuel)
          else do
            let key ← node g fuel false false
            pure (key, g.missing (← ahead).start)
        return entry :: (← flowEntries g fuel false)

def flowValue (g : Grammar) : Nat → Parse (Node String)
  | 0 => failure
  | fuel + 1 => do
    if ← accept .value then
      nodeUnless g fuel [.flowEntry, .flowMappingEnd] (← ahead).start false false
    else return g.missing (← ahead).start

end

def isDirective : Token → Bool
  | .versionDirective _ _ => true
  | .tagDirective _ _ => true
  | _ => false

/-- The directives before a document. The older edition knows two versions and refuses to declare a
handle twice; in the newer one only the last directive counts. -/
def directives (e : Edition) : Nat → Bool → List (String × String) → Parse (List (String × String))
  | 0, _, _ => failure
  | fuel + 1, versioned, handles => do
    match ← token with
    | .versionDirective major minor =>
      if versioned then failure
      if e = .v11 && !(major == 1 && (minor == 1 || minor == 2)) then failure
      skip
      directives e fuel true (if e = .v11 then handles else [])
    | .tagDirective handle origin =>
      if e = .v11 && (handles.lookup handle).isSome then failure
      skip
      directives e fuel versioned ((handle, origin) :: if e = .v11 then handles else [])
    | _ => return handles

/-- A document that starts with its mark; there may be nothing in it. -/
def explicitDocument (e : Edition) (fuel : Nat) : Parse (Node String) := do
  let g : Grammar := ⟨e, ← directives e fuel false []⟩
  expect .documentStart
  let l ← ahead
  if isDirective l.token || [.documentStart, .documentEnd, .streamEnd].contains l.token then
    return g.missing l.start
  else node g fuel true false

/-- The documents of a text. The first one may start without a mark, and in the newer edition any
one after the mark of an end; marks of an end without a document are passed over, at the start of a
text in the newer edition only. -/
def documents (e : Edition) (fuel : Nat) : Nat → Bool → Bool → Parse (List (Node String))
  | 0, _, _ => failure
  | n + 1, first, implicit => do
    if e = .v12 || !first then
      modify (List.dropWhile (·.token = .documentEnd))
    let t ← token
    if t = .streamEnd then return []
    else
      let document ←
        if implicit && !isDirective t && t != .documentStart then node ⟨e, []⟩ fuel true false
        else explicitDocument e fuel
      let ended ← accept .documentEnd
      if e = .v12 && !ended && isDirective (← token) then failure
      return document :: (← documents e fuel n false (e = .v12 && ended))

end Parse

/-- The documents of a text, or `none` if it is malformed. -/
def documents? (e : Edition) (text : String) : Option (List (Node String)) := do
  let lexemes ← tokens? e text
  let n := lexemes.length + 1
  return (← (Parse.documents e (4 * n) n true true).run lexemes).1

end TrafficIntent.Yaml
