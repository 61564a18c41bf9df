import TrafficIntent.Yaml.Scan.State

namespace TrafficIntent.Yaml.Scan

/-- A bracket that opens a list or map. It may itself start a key. -/
def fetchFlowStart (e : Edition) (token : Token) : Scan Unit := do
  saveCandidate e
  let start ← mark
  if e = .v12 then
    indentOne
    if (← get).flowDepth = 255 then failure
  modify fun s => { s with
    flowDepth := s.flowDepth + 1
    candidates := .none :: s.candidates
    keyAllowed := true }
  skip
  if token = .flowMappingStart then modify fun s => { s with inFlowMapping := true }
  if e = .v12 then
    let _ ← passBlanks true
  emit token start

def fetchFlowEnd (e : Edition) (token : Token) : Scan Unit := do
  dropCandidate
  modify fun s =>
    if s.flowDepth = 0 then s
    else { s with flowDepth := s.flowDepth - 1, candidates := s.candidates.tail }
  allowKey false
  if e = .v12 then closePair
  let start ← mark
  skip
  if e = .v12 then
    let _ ← passBlanks true
    if ← inFlow then modify fun s => { s with adjacentValueAt := s.mark.index }
  emit token start

def fetchFlowEntry (e : Edition) : Scan Unit := do
  dropCandidate
  allowKey true
  if e = .v12 then closePair
  let start ← mark
  skip
  if e = .v12 then
    let _ ← passBlanks true
  emit .flowEntry start

/-- Whether an anchor or tag at the start of a line stands before a dash at the start of one. -/
def looseProperty (s : State) : Bool :=
  s.mark.column == 0 && -1 < s.indent &&
    match s.tokens.back? with
    | some ⟨.anchor _, start, _⟩ => start.column == 0
    | some ⟨.tag _ _, start, _⟩ => start.column == 0
    | _ => false

/-- A dash. Between brackets the older edition leaves it to the grammar to refuse it. -/
def fetchBlockEntry (e : Edition) : Scan Unit := do
  let flow ← inFlow
  let start ← mark
  if e = .v12 && flow then failure
  if !flow && !(← get).keyAllowed then failure
  match e with
  | .v11 =>
    openBlock start.column none .blockSequenceStart
    dropCandidate
    allowKey true
    skip
    emit .blockEntry start
  | .v12 =>
    if looseProperty (← get) then failure
    skip
    openBlock start.column none .blockSequenceStart
    let (tabs, _) ← passBlanks true
    if tabs && (← ahead 0) == '-' && isBlankOrEnd e (← ahead 1) then failure
    let _ ← passBlanks false
    if isBreak e (← ahead 0) || isFlow (← ahead 0) then indentOne
    dropCandidate
    allowKey true
    emit .blockEntry start

/-- Spaces, line breaks and comments, of which there has to be a space or line break. -/
def passSeparation : Nat → Bool → Scan Unit
  | 0, passed => if passed then return else failure
  | fuel + 1, passed => do
    let c ← ahead 0
    if c == ' ' then
      skip
      passSeparation fuel true
    else if isBreak .v12 c then
      let _ ← passBreak
      if !(← inFlow) then allowKey true
      passSeparation fuel true
    else if c == '#' then
      let _ ← passLine .v12
      passSeparation fuel passed
    else if passed then return
    else failure

/-- A question mark before a key. -/
def fetchKey (e : Edition) : Scan Unit := do
  let flow ← inFlow
  let start ← mark
  if !flow then
    if !(← get).keyAllowed then failure
    openBlock start.column none .blockMappingStart
  else modify fun s => { s with inFlowMapping := true }
  dropCandidate
  allowKey !flow
  skip
  if e = .v12 then
    passSeparation ((← get).rest.length + 1) false
    if (← ahead 0) == '\t' then failure
  emit .key start

/-- A colon before a value. If what is before it may be a key, it is one; within a list between
brackets the two make a map of a single pair. -/
def fetchValue (e : Edition) : Scan Unit := do
  let k ← candidate
  let start ← mark
  let flow ← inFlow
  let s ← get
  let pair := e = .v12 && flow && !s.inFlowMapping
  set { s with pairOpen := pair }
  skip
  let finish ← mark
  if e = .v12 && (← ahead 0) == '\t' then
    let (_, spaces) ← passBlanks true
    let c ← ahead 0
    if !spaces && isWord c then failure
  if k.possible then
    emitBefore k .key
    if pair then
      if k.mark.line < start.line then failure
      emitBefore k .flowMappingStart
    openBlock k.mark.column (some k) .blockMappingStart
    if e = .v12 then indentOne
    setCandidate { k with possible := false }
    allowKey false
  else
    if pair then emit .flowMappingStart start
    if !flow then
      if !(← get).keyAllowed then failure
      openBlock start.column none .blockMappingStart
    if e = .v12 then indentOne
    allowKey !flow
  modify fun s => { s with tokens := s.tokens.push ⟨.value, start, finish⟩ }

end TrafficIntent.Yaml.Scan
