import Mathlib.Data.List.InsertIdx
import TrafficIntent.Proofs.Yaml.Steps

namespace TrafficIntent.Yaml

/-- The column of the innermost of some blocks; -1 outside of all blocks. -/
def innermost : List Nat → Int
  | [] => -1
  | c :: _ => c

@[simp] theorem innermost_cons (c : Nat) (cs : List Nat) : innermost (c :: cs) = c := rfl

/-- What has been left for each of the blocks. -/
def levelsOf : List Nat → List Level
  | [] => []
  | _ :: cs => ⟨innermost cs, true⟩ :: levelsOf cs

/-- The blocks are these, the innermost first. After an indicator one more column may be asked
for. -/
def Inside (indent : Int) (levels : List Level) (cs : List Nat) : Prop :=
  indent = innermost cs ∧ levels = levelsOf cs ∨
    cs ≠ [] ∧ indent = innermost cs + 1 ∧ levels = ⟨innermost cs, false⟩ :: levelsOf cs

theorem Inside.exact (cs : List Nat) : Inside (innermost cs) (levelsOf cs) cs := .inl ⟨rfl, rfl⟩

theorem Inside.le {i : Int} {ls : List Level} {cs : List Nat} (h : Inside i ls cs) :
    innermost cs ≤ i := by
  cases h with
  | inl h => omega
  | inr h => omega

theorem Inside.le_succ {i : Int} {ls : List Level} {cs : List Nat} (h : Inside i ls cs) :
    i ≤ innermost cs + 1 := by
  cases h with
  | inl h => omega
  | inr h => omega

namespace State

/-- The state within other blocks. -/
def within (s : State) (indent : Int) (levels : List Level) : State :=
  { s with indent := indent, levels := levels }

/-- The state with other tokens. -/
def holding (s : State) (ts : Array Lexeme) : State := { s with tokens := ts }

/-- The state with other candidates. -/
def remembering (s : State) (ks : List KeyCandidate) : State := { s with candidates := ks }

theorem within_self {s : State} {i : Int} {ls : List Level} (hi : s.indent = i)
    (hl : s.levels = ls) : s.within i ls = s := by
  subst hi
  subst hl
  rfl

/-- The tokens so far, without their places. -/
def shown (s : State) : List Token := s.tokens.toList.map Lexeme.token

theorem shown_push (s : State) (t : Token) (start : Mark) :
    (s.push t start).shown = s.shown ++ [t] := by
  simp [shown, push]

/-- The state with a token before a candidate. -/
def insert (s : State) (k : KeyCandidate) (t : Token) : State :=
  { s with tokens := s.tokens.insertIdxIfInBounds k.number ⟨t, k.mark, k.mark⟩ }

private theorem insertIdx_append {α : Type} (xs ys : List α) (a : α) :
    (xs ++ ys).insertIdx xs.length a = xs ++ a :: ys := by
  induction xs with
  | nil => rfl
  | cons x xs ih => rw [List.cons_append, List.length_cons, List.insertIdx_succ_cons, ih]; rfl

theorem shown_insert {s : State} {k : KeyCandidate} {before after : List Token}
    (h : s.shown = before ++ after) (hk : k.number = before.length) (t : Token) :
    (s.insert k t).shown = before ++ t :: after := by
  have size : s.tokens.size = before.length + after.length := by
    have length := congrArg List.length h
    simpa [shown] using length
  have inBounds : k.number ≤ s.tokens.size := by omega
  have list : (s.insert k t).tokens.toList =
      s.tokens.toList.insertIdx k.number ⟨t, k.mark, k.mark⟩ := by
    simp [insert, Array.insertIdxIfInBounds, inBounds]
  have mapped : (s.insert k t).shown = s.shown.insertIdx k.number t := by
    rw [shown, list, List.map_insertIdx]
    rfl
  rw [mapped, h, hk, insertIdx_append]

/-- No key can come of the candidate: it is on an earlier line, and need not be one. -/
def Idle (s : State) : Prop :=
  ∃ k, s.candidates = [k] ∧
    (k.possible = true → k.required = false ∧ k.mark.line < s.mark.line)

theorem Idle.later {s t : State} (h : s.Idle) (same : t.candidates = s.candidates)
    (line : s.mark.line ≤ t.mark.line) : t.Idle := by
  obtain ⟨k, candidates, idle⟩ := h
  refine ⟨k, same.trans candidates, fun possible => ⟨(idle possible).1, ?_⟩⟩
  exact Nat.lt_of_lt_of_le (idle possible).2 line

/-- A token that need not be a key is given up as one with its line. -/
theorem idle_of_saved {s t : State} {k : KeyCandidate} (candidates : t.candidates = [k])
    (free : k.possible = true → k.required = false ∧ k.mark.line = s.mark.line)
    (line : s.mark.line < t.mark.line) : t.Idle := by
  refine ⟨k, candidates, fun possible => ⟨(free possible).1, ?_⟩⟩
  rw [(free possible).2]
  exact line

/-- Where the scanner stands between the tokens of blocks. -/
structure At (s : State) (text : List Char) (column : Nat) (shown : List Token)
    (cs : List Nat) : Prop where
  rest : s.rest = text
  column : s.mark.column = column
  shown : s.shown = shown
  inside : Inside s.indent s.levels cs
  flowDepth : s.flowDepth = 0
  pairOpen : s.pairOpen = false
  idle : s.Idle

/-- Blanks and line breaks that are passed change nothing but the place. -/
theorem At.passed {s t : State} {text body : List Char} {m n : Nat} {shown : List Token}
    {cs : List Nat} (h : s.At text m shown cs)
    (same : t = { s with
      rest := body, mark := t.mark, atLineStart := t.atLineStart, keyAllowed := t.keyAllowed })
    (column : t.mark.column = n) (line : s.mark.line ≤ t.mark.line) : t.At body n shown cs :=
  { rest := by rw [same]
    column := column
    shown := by rw [same]; exact h.shown
    inside := by rw [same]; exact h.inside
    flowDepth := by rw [same]; exact h.flowDepth
    pairOpen := by rw [same]; exact h.pairOpen
    idle := h.idle.later (by rw [same]) line }

/-- The scanner is about to fetch a token. -/
structure Ready (s : State) (text : List Char) (column : Nat) (shown : List Token)
    (cs : List Nat) : Prop extends s.At text column shown cs where
  opens : Scan.Opens text
  indented : s.indent ≤ s.mark.column
  settled : ∀ k ∈ s.candidates, k.possible = false

/-- A colon is ahead, and the last token is a candidate that the colon makes a key. -/
structure AtColon (s : State) (text : List Char) (start width : Nat) (shown : List Token)
    (token : Token) (cs : List Nat) : Prop where
  rest : s.rest = ':' :: text
  column : s.mark.column = start + width
  candidate : ∃ k, s.candidates = [k] ∧ k.possible = true ∧ k.number = shown.length ∧
    k.mark.column = start ∧ k.mark.line = s.mark.line ∧ s.mark.index = k.mark.index + width
  shown : s.shown = shown ++ [token]
  inside : Inside s.indent s.levels cs
  indented : s.indent ≤ start
  flowDepth : s.flowDepth = 0

end State

namespace Scan

variable {s t : State}

theorem run_close_stop {m : Int} (h : s.indent ≤ m) (ls : List Level) :
    (closeBlocks.close m ls).run s = some ((), s) := by
  cases ls with
  | nil => rfl
  | cons l ls =>
    have stay : ¬m < s.indent := by omega
    unfold closeBlocks.close
    rw [run_get_bind, if_neg stay]
    rfl

/-- Blocks that are indented more than a column end, each with a token. -/
theorem run_close_blocks {m : Int} (ps cs : List Nat) (hi : s.indent = innermost (ps ++ cs))
    (hl : s.levels = levelsOf (ps ++ cs)) (hp : ∀ p ∈ ps, m < p) (hm : innermost cs ≤ m) :
    ∃ ts, (closeBlocks.close m (levelsOf (ps ++ cs))).run s =
        some ((), (s.within (innermost cs) (levelsOf cs)).holding ts) ∧
      ts.toList.map Lexeme.token = s.shown ++ ps.map fun _ => .blockEnd := by
  induction ps generalizing s with
  | nil =>
    have top : s.indent = innermost cs := hi
    refine ⟨s.tokens, ?_, by simp [State.shown]⟩
    have same : s.levels = levelsOf cs := hl
    rw [List.nil_append, run_close_stop (by omega), State.within_self top same]
    rfl
  | cons p ps ih =>
    have deeper : m < s.indent := by
      rw [hi]
      exact hp p List.mem_cons_self
    let left := s.within (innermost (ps ++ cs)) (levelsOf (ps ++ cs))
    let next := left.push .blockEnd left.mark
    obtain ⟨ts, run, shown⟩ :=
      ih (s := next) rfl rfl (fun q hq => hp q (List.mem_cons_of_mem _ hq))
    refine ⟨ts, ?_, ?_⟩
    · show (closeBlocks.close m (⟨innermost (ps ++ cs), true⟩ :: levelsOf (ps ++ cs))).run s = _
      unfold closeBlocks.close
      rw [run_get_bind, if_pos deeper, run_set_bind]
      show (emit .blockEnd left.mark >>= fun _ =>
        closeBlocks.close m (levelsOf (ps ++ cs))).run left = _
      rw [run_bind (run_emit _ _ _), run]
      rfl
    · rw [shown, State.shown_push]
      simp [left, State.shown, State.within]

theorem run_closeBlocks {m : Int} (ps cs : List Nat) (hi : Inside s.indent s.levels (ps ++ cs))
    (hf : s.flowDepth = 0) (hp : ∀ p ∈ ps, m < p) (hm : innermost cs ≤ m) :
    ∃ i ls ts, (closeBlocks m).run s = some ((), (s.within i ls).holding ts) ∧
      Inside i ls cs ∧ i ≤ m ∧
      ts.toList.map Lexeme.token = s.shown ++ ps.map fun _ => .blockEnd := by
  have opened : (closeBlocks m).run s = (closeBlocks.close m s.levels).run s := by
    unfold closeBlocks
    rw [run_get_bind, hf]
    rfl
  rw [opened]
  cases hi with
  | inl hi =>
    obtain ⟨ts, run, shown⟩ := run_close_blocks ps cs hi.1 hi.2 hp hm
    refine ⟨_, _, ts, ?_, Inside.exact cs, hm, shown⟩
    rw [hi.2, run]
  | inr hi =>
    obtain ⟨block, hi, hl⟩ := hi
    by_cases deeper : m < s.indent
    · -- the column asked for after an indicator goes first, without a token
      let left := s.within (innermost (ps ++ cs)) (levelsOf (ps ++ cs))
      obtain ⟨ts, run, shown⟩ := run_close_blocks (s := left) ps cs rfl rfl hp hm
      refine ⟨_, _, ts, ?_, Inside.exact cs, hm, shown⟩
      rw [hl]
      unfold closeBlocks.close
      rw [run_get_bind, if_pos deeper, run_set_bind]
      show (closeBlocks.close m (levelsOf (ps ++ cs))).run left = _
      rw [run]
      rfl
    · have none : ps = [] := by
        cases ps with
        | nil => rfl
        | cons p ps =>
          have close := hp p List.mem_cons_self
          have top : innermost (p :: ps ++ cs) = p := rfl
          omega
      subst none
      refine ⟨s.indent, s.levels, s.tokens, run_close_stop (by omega) _, .inr ⟨block, hi, hl⟩,
        by omega, by simp [State.shown]⟩

theorem run_indentOne {cs : List Nat} (hi : Inside s.indent s.levels cs) (hf : s.flowDepth = 0) :
    ∃ i ls, indentOne.run s = some ((), s.within i ls) ∧ Inside i ls cs ∧
      (cs ≠ [] → i = innermost cs + 1) := by
  unfold indentOne
  rw [run_get_bind]
  cases hi with
  | inl hi =>
    cases cs with
    | nil =>
      have outside : (s.levels.head?.map (·.isBlock)).getD false = false := by
        rw [hi.2]
        rfl
      refine ⟨s.indent, s.levels, ?_, .inl hi, by simp⟩
      rw [outside, Bool.and_false]
      rfl
    | cons c cs =>
      have block : (s.levels.head?.map (·.isBlock)).getD false = true := by
        rw [hi.2]
        rfl
      refine ⟨s.indent + 1, ⟨s.indent, false⟩ :: s.levels, ?_, ?_, fun _ => by rw [hi.1]⟩
      · rw [block, show (s.flowDepth == 0) = true by simp [hf]]
        rfl
      · exact .inr ⟨by simp, by rw [hi.1], by rw [hi.1, hi.2]⟩
  | inr hi =>
    have column : (s.levels.head?.map (·.isBlock)).getD false = false := by
      rw [hi.2.2]
      rfl
    refine ⟨s.indent, s.levels, ?_, .inr hi, fun _ => hi.2.1⟩
    rw [column, Bool.and_false]
    rfl

private theorem take_blocks (s : State) (cs : List Nat) :
    unindentOnes.take s (levelsOf cs) = s := by
  cases cs <;> rfl

theorem run_unindentOnes {cs : List Nat} (hi : Inside s.indent s.levels cs) :
    unindentOnes.run s = some ((), s.within (innermost cs) (levelsOf cs)) := by
  show some ((), unindentOnes.take s s.levels) = _
  cases hi with
  | inl hi =>
    rw [hi.2, take_blocks, State.within_self hi.1 hi.2]
  | inr hi =>
    rw [hi.2.2, unindentOnes.take, take_blocks]
    rfl

theorem run_emitBefore (k : KeyCandidate) (token : Token) :
    (emitBefore k token).run s = some ((), s.insert k token) := rfl

theorem run_setCandidate (k : KeyCandidate) :
    (setCandidate k).run s = some ((), s.remembering (k :: s.candidates.tail)) := rfl

/-- A candidate is remembered where keys are allowed. -/
theorem run_saveCandidate {k : KeyCandidate} (hc : s.candidates = [k]) :
    ∃ l, (saveCandidate .v12).run s = some ((), s.remembering [l]) ∧
      (s.keyAllowed = false → l = k) ∧
      (s.keyAllowed = true → l.possible = true ∧ l.number = s.tokens.size ∧ l.mark = s.mark ∧
        (l.required = true → s.indent = s.mark.column)) := by
  cases allowed : s.keyAllowed with
  | false =>
    refine ⟨k, ?_, fun _ => rfl, by simp⟩
    unfold saveCandidate
    rw [run_get_bind, allowed, ← hc]
    rfl
  | true =>
    let required := s.flowDepth == 0 && s.indent == s.mark.column &&
      (s.levels.head?.map (·.isBlock)).getD true
    refine ⟨⟨true, required, s.tokens.size, s.mark⟩, ?_, by simp, fun _ => ⟨rfl, rfl, rfl, ?_⟩⟩
    · unfold saveCandidate
      rw [run_get_bind, allowed]
      show some ((), s.remembering (_ :: s.candidates.tail)) = _
      rw [hc]
      rfl
    · intro h
      simp only [required, Bool.and_eq_true, beq_iff_eq] at h
      exact h.1.2

/-- Where keys are allowed, the token ahead is remembered as a candidate. -/
theorem exists_savedKey {text : List Char} {column : Nat} {shown : List Token} {cs : List Nat}
    (h : s.Ready text column shown cs) (hk : s.keyAllowed = true) :
    ∃ k : KeyCandidate, (saveCandidate .v12).run s = some ((), s.remembering [k]) ∧
      k.possible = true ∧ k.number = shown.length ∧ k.mark = s.mark := by
  obtain ⟨k, hc, -⟩ := h.idle
  obtain ⟨l, saved, -, new⟩ := run_saveCandidate hc
  obtain ⟨possible, number, mark, -⟩ := new hk
  have size : s.tokens.size = shown.length := by
    rw [← h.shown]
    simp [State.shown]
  exact ⟨l, saved, possible, number.trans size, mark⟩

/-- Giving up what is no candidate changes nothing. -/
theorem run_dropCandidate {k : KeyCandidate} {ks : List KeyCandidate} (hc : s.candidates = k :: ks)
    (hp : k.possible = false) : dropCandidate.run s = some ((), s) := by
  have head : s.candidates.headD .none = k := by rw [hc]; rfl
  have same : ({ k with possible := false } : KeyCandidate) = k := by rw [← hp]
  have kept : s.remembering ({ k with possible := false } :: s.candidates.tail) = s := by
    rw [same, hc, List.tail_cons, ← hc]
    rfl
  unfold dropCandidate
  rw [run_bind (run_candidate s), head, hp]
  show (setCandidate { k with possible := false }).run s = _
  rw [run_setCandidate, kept]

/-- A token that has to be no key is remembered as a candidate that need not become one. -/
theorem exists_saved {text : List Char} {column : Nat} {shown : List Token} {cs : List Nat}
    (h : s.Ready text column shown cs) (hk : s.keyAllowed = true → s.indent < s.mark.column) :
    ∃ k : KeyCandidate, (saveCandidate .v12).run s = some ((), s.remembering [k]) ∧
      (k.possible = true → k.required = false ∧ k.mark.line = s.mark.line) := by
  obtain ⟨k, hc, -⟩ := h.idle
  obtain ⟨l, saved, old, new⟩ := run_saveCandidate hc
  refine ⟨l, saved, ?_⟩
  intro possible
  cases allowed : s.keyAllowed with
  | false =>
    have settled := h.settled k (by simp [hc])
    rw [old allowed, settled] at possible
    contradiction
  | true =>
    obtain ⟨-, -, mark, required⟩ := new allowed
    have deeper := hk allowed
    refine ⟨?_, by rw [mark]⟩
    cases needed : l.required with
    | false => rfl
    | true => have := required needed; omega

/-- A block is opened at a column, unless the scanner is in one at this column. The column asked for
after an indicator is taken back. -/
theorem run_openBlock {column : Nat} {cs : List Nat} (hi : Inside s.indent s.levels cs)
    (hf : s.flowDepth = 0) (hc : s.indent ≤ column) (k : Option KeyCandidate) (token : Token) :
    (openBlock column k token).run s =
      some ((), if innermost cs < column then
        match k with
        | some k => (s.within column (levelsOf (column :: cs))).insert k token
        | none => (s.within column (levelsOf (column :: cs))).push token s.mark
      else s) := by
  have flow : (s.flowDepth != 0) = false := by simp [hf]
  unfold openBlock
  rw [run_bind (run_inFlow s), flow]
  simp only [Bool.not_false, if_true]
  rw [run_get_bind, if_pos hc]
  cases hi with
  | inl exact =>
    have block : ∀ outer ls, s.levels ≠ ⟨outer, false⟩ :: ls := by
      intro outer ls
      rw [exact.2]
      cases cs <;> simp [levelsOf]
    split
    next outer ls h => exact absurd h (block outer ls)
    next =>
      rw [run_get_bind, exact.1, exact.2]
      by_cases deeper : innermost cs < column
      · rw [if_pos deeper, if_pos deeper]
        cases k <;> rfl
      · rw [if_neg deeper, if_neg deeper]
        rfl
  | inr asked =>
    obtain ⟨-, indent, levels⟩ := asked
    have deeper : innermost cs < column := by omega
    rw [levels]
    dsimp only
    rw [run_set_bind, run_get_bind, if_pos deeper]
    dsimp only
    rw [if_pos deeper]
    cases k <;> rfl

/-- Whether a candidate is too far back to become a key. -/
def stale (s : State) (k : KeyCandidate) : Bool :=
  k.possible && (k.mark.line < s.mark.line || k.mark.index + 1024 < s.mark.index)

private theorem stale_of_impossible {k : KeyCandidate} (h : k.possible = false) :
    stale s k = false := by
  unfold stale
  rw [h]
  rfl

private theorem run_dropStale (hf : s.flowDepth = 0)
    (hr : ∀ k ∈ s.candidates, (stale s k && k.required) = false) :
    (dropStale .v12).run s = some ((), s.remembering (s.candidates.map fun k =>
      if stale s k then { k with possible := false } else k)) := by
  let given := s.remembering (s.candidates.map fun k =>
    if stale s k then { k with possible := false } else k)
  have none : (s.candidates.any fun k => stale s k && k.required) = false := by
    rw [List.any_eq_false]
    intro k hk
    simp [hr k hk]
  have block : (s.flowDepth == 0) = true := by simp [hf]
  unfold dropStale
  rw [run_get_bind]
  show (if (false || s.flowDepth == 0) = true then
    (if (s.candidates.any fun k => stale s k && k.required) = true then
      failure >>= fun _ => set given else set given)
    else pure () : Scan Unit).run s = _
  rw [block, none]
  rfl

theorem run_dropStale_keep (hf : s.flowDepth = 0) (h : ∀ k ∈ s.candidates, stale s k = false) :
    (dropStale .v12).run s = some ((), s) := by
  have same : (s.candidates.map fun k =>
      if stale s k then { k with possible := false } else k) = s.candidates := by
    rw [List.map_congr_left (g := id), List.map_id]
    intro k hk
    simp [h k hk]
  rw [run_dropStale hf (fun k hk => by rw [h k hk]; rfl), same]
  rfl

/-- An idle candidate is given up when it is left behind. -/
theorem run_dropStale_idle (h : s.Idle) (hf : s.flowDepth = 0) :
    ∃ k : KeyCandidate, (dropStale .v12).run s = some ((), s.remembering [k]) ∧
      k.possible = false := by
  obtain ⟨k, hk, idle⟩ := h
  have free : ∀ l ∈ s.candidates, (stale s l && l.required) = false := by
    intro l hl
    have same : l = k := by simpa [hk] using hl
    subst same
    cases possible : l.possible with
    | false => rw [stale_of_impossible possible]; rfl
    | true => rw [(idle possible).1, Bool.and_false]
  rw [run_dropStale hf free, hk]
  refine ⟨_, rfl, ?_⟩
  cases possible : k.possible with
  | false => simp [stale_of_impossible possible, possible]
  | true =>
    have old : stale s k = true := by simp [stale, possible, (idle possible).2]
    simp [old]

/-- What is done before a token is fetched; gives the column where it starts. -/
def settle : Scan Nat := do
  toNextToken .v12 ((← get).rest.length + 1)
  dropStale .v12
  let column := (← mark).column
  closeBlocks column
  return column

/-- The token ahead, and those after it. -/
def fetchOn (column fuel : Nat) : Scan Unit := do
  let s ← get
  if s.ahead 0 == endChar then fetchEnd
  else
    if column == 0 && s.ahead 0 == '%' then fetchDirective .v12
    else if s.atDocumentStart .v12 then fetchDocumentMark .documentStart
    else if s.atDocumentEnd .v12 then fetchDocumentEnd .v12
    else
      if decide ((column : Int) < s.indent) then failure
      fetchToken .v12
    fetchAll .v12 fuel

theorem fetchAll_succ (fuel : Nat) :
    fetchAll .v12 (fuel + 1) = settle >>= fun column => fetchOn column fuel := by
  unfold fetchAll settle fetchOn
  simp only [bind_assoc, pure_bind]
  rfl

/-- Reading goes on from the second state as from the first, with tokens fetched on the way. -/
def Fetches (e : Edition) (s t : State) : Prop :=
  ∀ fuel, s.rest.length < fuel → ∃ left, t.rest.length < left ∧
    (fetchAll e fuel).run s = (fetchAll e left).run t

theorem Fetches.refl (e : Edition) (s : State) : Fetches e s s := fun fuel hf => ⟨fuel, hf, rfl⟩

theorem Fetches.trans {e : Edition} {s t u : State} (h : Fetches e s t) (k : Fetches e t u) :
    Fetches e s u := by
  intro fuel hf
  obtain ⟨left, hl, first⟩ := h fuel hf
  obtain ⟨rest, hr, second⟩ := k left hl
  exact ⟨rest, hr, first.trans second⟩

/-- The blanks before a token may be passed at once. -/
theorem fetches_toNextToken (h : (toNextToken .v12 (s.rest.length + 1)).run s = some ((), t))
    (ho : Opens t.rest) (hl : t.rest.length ≤ s.rest.length) : Fetches .v12 s t := by
  intro fuel hf
  obtain ⟨fuel, rfl⟩ : ∃ k, fuel = k + 1 := ⟨fuel - 1, by omega⟩
  refine ⟨fuel + 1, by omega, ?_⟩
  have same : settle.run s = settle.run t := by
    unfold settle
    rw [run_get_bind, run_get_bind, run_bind h, run_bind (run_toNextToken_opens ho _)]
  rw [fetchAll_succ, StateT.run_bind, StateT.run_bind, same]

/-- A line break and the spaces of the next line may be passed at once. -/
theorem fetches_nextLine (n : Nat) {text : List Char}
    (h : s.rest = '\n' :: (List.replicate n ' ' ++ text)) (ho : Opens text)
    (hf : s.flowDepth = 0) : Fetches .v12 s ((s.onNextLine n text).allow true) := by
  apply fetches_toNextToken (run_toNextToken_line n h ho hf) ho
  rw [h]
  show text.length ≤ _
  simp
  omega

/-- Nothing is done before a token within a line. -/
theorem run_settle_same (ho : Opens s.rest) (hf : s.flowDepth = 0) (hi : s.indent ≤ s.mark.column)
    (hk : ∀ k ∈ s.candidates, stale s k = false) : settle.run s = some (s.mark.column, s) := by
  have none : (closeBlocks s.mark.column).run s = some ((), s) := by
    unfold closeBlocks
    rw [run_get_bind, hf]
    exact run_close_stop hi _
  unfold settle
  rw [run_get_bind, run_bind (run_toNextToken_opens ho _), run_bind (run_dropStale_keep hf hk),
    run_bind (run_mark s), run_bind none]
  rfl

theorem run_settle_ready {text : List Char} {column : Nat} {shown : List Token} {cs : List Nat}
    (h : s.Ready text column shown cs) : settle.run s = some (s.mark.column, s) :=
  run_settle_same (h.rest ▸ h.opens) h.flowDepth h.indented
    fun k hk => stale_of_impossible (h.settled k hk)

/-- At the start of a line that is indented as much as the blocks that go on, the deeper ones
end. -/
theorem fetches_settle {text : List Char} {m : Nat} {shown : List Token} {ps cs : List Nat}
    (h : s.At text m shown (ps ++ cs)) (ho : Opens text) (hp : ∀ p ∈ ps, m < p)
    (hm : innermost cs ≤ m) :
    ∃ t, Fetches .v12 s t ∧ t.Ready text m (shown ++ ps.map fun _ => .blockEnd) cs ∧
      t.keyAllowed = s.keyAllowed := by
  have opens : Opens s.rest := h.rest ▸ ho
  obtain ⟨k, drop, possible⟩ := run_dropStale_idle h.idle h.flowDepth
  let u := s.remembering [k]
  have column : (u.mark.column : Int) = m := by rw [← h.column]; rfl
  obtain ⟨i, ls, ts, close, inside, indented, tokens⟩ :=
    run_closeBlocks (s := u) ps cs h.inside h.flowDepth
      (fun p hp' => by have := hp p hp'; omega) (column ▸ hm)
  let t := (u.within i ls).holding ts
  have ready : t.Ready text m (shown ++ ps.map fun _ => .blockEnd) cs :=
    { rest := h.rest
      column := h.column
      shown := by rw [← h.shown]; exact tokens
      inside := inside
      flowDepth := h.flowDepth
      pairOpen := h.pairOpen
      idle := ⟨k, rfl, fun hk => by simp [possible] at hk⟩
      opens := ho
      indented := indented
      settled := by simpa [t, u, State.holding, State.within, State.remembering] using possible }
  refine ⟨t, ?_, ready, rfl⟩
  intro fuel hf
  obtain ⟨fuel, rfl⟩ : ∃ k, fuel = k + 1 := ⟨fuel - 1, by omega⟩
  have settled : settle.run s = settle.run t := by
    have column : t.mark.column = s.mark.column := rfl
    rw [run_settle_ready ready, column]
    unfold settle
    rw [run_get_bind, run_bind (run_toNextToken_opens opens _), run_bind drop,
      run_bind (run_mark _), run_bind close]
    rfl
  exact ⟨fuel + 1, hf, by rw [fetchAll_succ, StateT.run_bind, StateT.run_bind, settled]⟩

theorem atDocumentMark_of_column {e : Edition} (h : s.mark.column ≠ 0) :
    s.atDocumentMark e = false := by
  simp [State.atDocumentMark, State.atDocumentStart, State.atDocumentEnd, State.atTriple, h]

theorem atDocumentMark_of_head {e : Edition} {c : Char} {text : List Char} (h : s.rest = c :: text)
    (hd : c ≠ '-') (he : c ≠ '.') : s.atDocumentMark e = false := by
  simp [State.atDocumentMark, State.atDocumentStart, State.atDocumentEnd, State.atTriple,
    State.ahead_of_rest h, hd, he]

/-- The token ahead is fetched, unless it is about the whole document. -/
theorem fetches_token {text : List Char} {c : Char} (settled : settle.run s = some (s.mark.column, s))
    (h : s.rest = c :: text) (hc : c ≠ endChar) (hd : c ≠ '%')
    (hm : s.atDocumentMark .v12 = false) (hi : s.indent ≤ s.mark.column)
    (run : (fetchToken .v12).run s = some ((), t))
    (shorter : t.rest.length ≤ text.length) : Fetches .v12 s t := by
  intro fuel hf
  obtain ⟨fuel, rfl⟩ : ∃ k, fuel = k + 1 := ⟨fuel - 1, by omega⟩
  have length : s.rest.length = text.length + 1 := by rw [h]; rfl
  have indented : ¬(s.mark.column : Int) < s.indent := by omega
  simp only [State.atDocumentMark, Bool.or_eq_false_iff] at hm
  refine ⟨fuel, by omega, ?_⟩
  rw [fetchAll_succ, run_bind settled]
  unfold fetchOn
  rw [run_get_bind, State.ahead_of_rest h]
  simp only [beq_false_of_ne hc, beq_false_of_ne hd, hm.1, hm.2, indented, Bool.and_false,
    Bool.false_eq_true, if_false, decide_false]
  rw [run_bind run]

end Scan

end TrafficIntent.Yaml
