import TrafficIntent.Proofs.Yaml.Keys
import TrafficIntent.Proofs.Yaml.Styles

namespace TrafficIntent.Yaml

open Scan

/-- Of two lines that are the same, the blanks and the rest are the same. -/
theorem margin_inj {m n : Nat} {v w : List Char} (hv : Opens v) (hw : Opens w)
    (h : List.replicate m ' ' ++ v = List.replicate n ' ' ++ w) : m = n ∧ v = w := by
  induction m generalizing n with
  | zero =>
    cases n with
    | zero => exact ⟨rfl, h⟩
    | succ n =>
      have same : v = ' ' :: (List.replicate n ' ' ++ w) := h
      exact absurd rfl (hv.head (c := ' ') (by simp [same])).1
  | succ m ih =>
    cases n with
    | zero =>
      have same : w = ' ' :: (List.replicate m ' ' ++ v) := h.symm
      exact absurd rfl (hw.head (c := ' ') (by simp [same])).1
    | succ n =>
      obtain ⟨rfl, same⟩ := ih (List.cons.inj h).2
      exact ⟨rfl, same⟩

/-- The text goes on with a line that is indented by at most so many columns. -/
def GoesOn (limit : Int) (text : List Char) : Prop :=
  ∃ m body, text = List.replicate m ' ' ++ body ∧ Opens body ∧ (m : Int) ≤ limit

theorem GoesOn.mono {i j : Int} {text : List Char} (h : GoesOn i text) (hij : i ≤ j) :
    GoesOn j text := by
  obtain ⟨m, body, same, opens, hm⟩ := h
  exact ⟨m, body, same, opens, by omega⟩

theorem goesOn_margin (c : Nat) {body : List Char} (h : Opens body) :
    GoesOn c (List.replicate c ' ' ++ body) :=
  ⟨c, body, rfl, h, Int.le_refl _⟩

namespace State

/-- The scanner is past the blanks of the next line. Deeper blocks have not ended yet, but the
tokens of their ends are counted as if they had. -/
def Ended (s : State) (text : List Char) (shown : List Token) (cs : List Nat) : Prop :=
  ∃ m body ps before, text = List.replicate m ' ' ++ body ∧ Opens body ∧
    s.At body m before (ps ++ cs) ∧ before ++ ps.map (fun _ => .blockEnd) = shown ∧
    (∀ p ∈ ps, innermost cs < p) ∧ s.keyAllowed = true

theorem At.ended {s : State} {m : Nat} {body : List Char} {shown : List Token} {cs : List Nat}
    (h : s.At body m shown cs) (ho : Opens body) (hk : s.keyAllowed = true) :
    s.Ended (List.replicate m ' ' ++ body) shown cs :=
  ⟨m, body, [], shown, rfl, ho, h, by simp, by simp, hk⟩

/-- With a block the ones within it end. -/
theorem Ended.close {s : State} {text : List Char} {shown : List Token} {c : Nat} {cs : List Nat}
    (h : s.Ended text shown (c :: cs)) (inner : innermost cs < c) :
    s.Ended text (shown ++ [.blockEnd]) cs := by
  obtain ⟨m, body, ps, before, same, opens, at', tokens, deeper, allowed⟩ := h
  refine ⟨m, body, ps ++ [c], before, same, opens, by simpa using at', ?_, ?_, allowed⟩
  · rw [← tokens]
    simp
  · intro p hp
    cases List.mem_append.1 hp with
    | inl below =>
      have := deeper p below
      have top : innermost (c :: cs) = c := rfl
      omega
    | inr last =>
      have same : p = c := by simpa using last
      omega

end State

namespace Scan

variable {s t : State} {text : List Char} {shown : List Token} {cs : List Nat}

/-- On a line with the column of a block it goes on, and the ones within it end. -/
theorem fetches_ended {c : Nat} (h : s.Ended (List.replicate c ' ' ++ text) shown (c :: cs))
    (ho : Opens text) :
    ∃ t, Fetches .v12 s t ∧ t.Ready text c shown (c :: cs) ∧ t.keyAllowed = true := by
  obtain ⟨m, body, ps, before, same, opens, at', tokens, deeper, allowed⟩ := h
  obtain ⟨rfl, rfl⟩ := margin_inj ho opens same
  obtain ⟨t, fetched, ready, kept⟩ := fetches_settle at' ho
    (fun p hp => by have := deeper p hp; simp only [innermost] at this; omega) (Int.le_refl _)
  rw [tokens] at ready
  exact ⟨t, fetched, ready, by rw [kept, allowed]⟩

/-- Blanks before a value on the same line. -/
theorem fetches_space {m : Nat} (h : s.At (' ' :: text) m shown cs) (ho : Opens text)
    (hm : innermost cs ≤ m) :
    ∃ t, Fetches .v12 s t ∧ t.Ready text (m + 1) shown cs ∧ t.keyAllowed = s.keyAllowed := by
  let u := s.after [' '] text
  have spaces : (toNextToken .v12 (s.rest.length + 1)).run s = some ((), u) := by
    apply run_toNextToken_spaces 1 h.rest ho
    rw [h.rest]
    simp
  have passed : Fetches .v12 s u := by
    apply fetches_toNextToken spaces ho
    rw [h.rest]
    exact Nat.le_succ _
  have at' : u.At text (m + 1) shown ([] ++ cs) := by
    apply h.passed rfl
    · rw [State.after_column, h.column]
      rfl
    · exact Nat.le_of_eq (s.after_line [' '] text).symm
  obtain ⟨t, fetched, ready, kept⟩ := fetches_settle at' ho (by simp) (by omega)
  refine ⟨t, passed.trans fetched, ?_, kept⟩
  simpa using ready

/-- The rest of a line with nothing on it, and the blanks of the next one. -/
theorem fetches_line {m n : Nat} (h : s.At ('\n' :: (List.replicate n ' ' ++ text)) m shown cs)
    (ho : Opens text) (hn : innermost cs ≤ n) :
    ∃ t, Fetches .v12 s t ∧ t.Ready text n shown cs ∧ t.keyAllowed = true := by
  let u := (s.onNextLine n text).allow true
  have passed : Fetches .v12 s u := fetches_nextLine n h.rest ho h.flowDepth
  have at' : u.At text n shown ([] ++ cs) := by
    refine h.passed (t := u) rfl (s.onNextLine_column n text) ?_
    show s.mark.line ≤ (s.onNextLine n text).mark.line
    rw [State.onNextLine_line]
    exact Nat.le_succ _
  obtain ⟨t, fetched, ready, kept⟩ := fetches_settle at' ho (by simp) (by omega)
  refine ⟨t, passed.trans fetched, ?_, kept⟩
  simpa using ready

/-- Whether a token is an anchor or a tag. -/
def isProperty : Token → Bool
  | .anchor _ => true
  | .tag _ _ => true
  | _ => false

private theorem looseProperty_of_shown {shown : List Token} (h : s.shown = shown)
    (hs : ∀ x ∈ shown, isProperty x = false) : looseProperty s = false := by
  have last : ∀ l ∈ s.tokens.back?, isProperty l.token = false := by
    intro l hl
    apply hs
    rw [← h]
    have mem : l ∈ s.tokens.toList := by
      rw [Array.back?_eq_getElem?] at hl
      exact Array.mem_toList_iff.2 (Array.mem_of_getElem? hl)
    exact List.mem_map_of_mem mem
  unfold looseProperty
  cases back : s.tokens.back? with
  | none => simp
  | some l =>
    have bare := last l (by rw [back]; rfl)
    obtain ⟨token, start, finish⟩ := l
    cases token <;> simp [isProperty] at bare ⊢

/-- One more column is asked for, or not; the blocks are the same. -/
private theorem exists_indented {β : Type} (asked : Bool) (next : Scan β)
    (hi : Inside s.indent s.levels cs) (hf : s.flowDepth = 0) :
    ∃ i ls, Inside i ls cs ∧
      (if asked = true then indentOne >>= fun _ => next else next).run s =
        next.run (s.within i ls) := by
  obtain ⟨i, ls, indented, inside, -⟩ := run_indentOne hi hf
  by_cases bracket : asked = true
  · exact ⟨i, ls, inside, by rw [if_pos bracket, run_bind indented]⟩
  · exact ⟨s.indent, s.levels, hi, by rw [if_neg bracket, State.within_self rfl rfl]⟩

/-- The dash and the space after it are passed; what follows has to be indented by one more column
if it starts with a bracket. -/
private theorem run_fetchBlockEntry {c : Nat} {k : KeyCandidate}
    (h : s.Ready ('-' :: ' ' :: text) c shown (c :: cs)) (ho : Opens text)
    (hk : s.keyAllowed = true) (hs : ∀ x ∈ shown, isProperty x = false)
    (candidates : s.candidates = [k]) (settled : k.possible = false) :
    ∃ i ls, Inside i ls (c :: cs) ∧ (fetchBlockEntry .v12).run s = some ((),
      ((((s.after ['-'] (' ' :: text)).after [' '] text).within i ls).allow true).push .blockEntry
        s.mark) := by
  let s1 := s.after ['-'] (' ' :: text)
  let s2 := s1.after [' '] text
  have opened : (openBlock c none .blockSequenceStart).run s1 = some ((), s1) := by
    have top : innermost (c :: cs) = c := rfl
    have indented := h.indented
    rw [h.column] at indented
    rw [run_openBlock (s := s1) h.inside h.flowDepth (show s.indent ≤ c by omega),
      if_neg (by omega)]
  have first : ∀ d ∈ text.head?, d ≠ ' ' ∧ d ≠ '\t' ∧ d ≠ '#' := by
    intro d hd
    obtain ⟨space, tab, -, -, comment⟩ := ho.head hd
    exact ⟨space, tab, comment⟩
  have blanks : (passBlanks true).run s1 = some ((false, true), s2) :=
    run_passBlanks (s := s1) (w := [' ']) true rfl (by simp) first
  have more : (passBlanks false).run s2 = some ((false, false), s2) :=
    run_passBlanks_none false first
  have flow : (s.flowDepth != 0) = false := by simp [h.flowDepth]
  have loose : looseProperty s = false := looseProperty_of_shown h.shown hs
  have inside : Inside s2.indent s2.levels (c :: cs) := h.inside
  let asked := isBreak .v12 (s2.ahead 0) || isFlow (s2.ahead 0)
  let last : Scan Unit := dropCandidate >>= fun _ => allowKey true >>= fun _ =>
    emit .blockEntry s.mark
  obtain ⟨i, ls, inside', run⟩ := exists_indented asked last inside h.flowDepth
  refine ⟨i, ls, inside', ?_⟩
  unfold fetchBlockEntry
  rw [run_bind (run_inFlow s), run_bind (run_mark s), flow, h.column]
  simp only [decide_true, Bool.and_false, Bool.false_eq_true, if_false]
  rw [run_get_bind, hk]
  simp only [Bool.not_true, Bool.and_false, Bool.false_eq_true, if_false]
  rw [run_get_bind, loose]
  show (skip >>= _).run s = _
  rw [run_bind (run_skip h.rest)]
  show (openBlock c none .blockSequenceStart >>= _).run s1 = _
  rw [run_bind opened]
  show (passBlanks true >>= _).run s1 = _
  rw [run_bind blanks, run_bind (run_ahead s2 0), run_bind (run_ahead s2 1)]
  show (passBlanks false >>= _).run s2 = _
  rw [run_bind more, run_bind (run_ahead s2 0), run_bind (run_ahead s2 0)]
  show (if asked = true then indentOne >>= fun _ => last else last).run s2 = _
  rw [run]
  show (dropCandidate >>= _).run (s2.within i ls) = _
  rw [run_bind (run_dropCandidate (s := s2.within i ls) candidates settled)]
  rfl

/-- A dash at the column of a block is an entry of a list that is not indented. -/
theorem fetches_dash {c : Nat} (h : s.Ready ('-' :: ' ' :: text) c shown (c :: cs))
    (ho : Opens text) (hk : s.keyAllowed = true) (hs : ∀ x ∈ shown, isProperty x = false) :
    ∃ t, Fetches .v12 s t ∧ t.Ready text (c + 2) (shown ++ [.blockEntry]) (c :: cs) ∧
      t.keyAllowed = true := by
  obtain ⟨k, candidates, -⟩ := h.idle
  have settled := h.settled k (by simp [candidates])
  obtain ⟨i, ls, inside, run⟩ := run_fetchBlockEntry h ho hk hs candidates settled
  let s2 := (s.after ['-'] (' ' :: text)).after [' '] text
  let t := ((s2.within i ls).allow true).push .blockEntry s.mark
  have fetched : (fetchToken .v12).run s = some ((), t) := by
    have entry : (fetchToken .v12).run s = (fetchBlockEntry .v12).run s := by
      unfold fetchToken
      rw [run_get_bind, State.ahead_of_rest h.rest, State.ahead_one_of_rest h.rest]
      rfl
    rw [entry, run]
  have noMark : s.atDocumentMark .v12 = false := by
    simp [State.atDocumentMark, State.atDocumentStart, State.atDocumentEnd, State.atTriple,
      State.ahead_of_rest h.rest, State.ahead_one_of_rest h.rest]
  have mark : t.mark.column = c + 2 := by
    show s2.mark.column = c + 2
    rw [State.after_column, State.after_column, h.column]
    rfl
  refine ⟨t, ?_, ?_, rfl⟩
  · apply fetches_token (run_settle_ready h) h.rest (by decide) (by decide) noMark
      h.indented fetched
    exact Nat.le_succ _
  · exact
      { rest := rfl
        column := mark
        shown := by rw [State.shown_push, ← h.shown]; rfl
        inside := inside
        flowDepth := h.flowDepth
        pairOpen := h.pairOpen
        idle := ⟨k, candidates, fun possible => by rw [settled] at possible; contradiction⟩
        opens := ho
        indented := by
          show i ≤ t.mark.column
          rw [mark]
          have top := inside.le_succ
          rw [innermost_cons] at top
          omega
        settled := by
          intro l hl
          have same : l = k := by
            have there : l ∈ s.candidates := hl
            simpa [candidates] using there
          rw [same]
          exact settled }

end Scan

end TrafficIntent.Yaml
