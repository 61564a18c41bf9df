import TrafficIntent.Proofs.Yaml.Columns
import TrafficIntent.Proofs.Yaml.PlainText
import TrafficIntent.Yaml.Quoting

namespace TrafficIntent.Yaml

/-- A text whose blanks are spaces between words, with no mark of a comment or of a key among them. -/
def Flows : List Char → Prop
  | [] => True
  | c :: cs =>
    (if c = ' ' then cs.headD '#' ≠ '#'
      else isBlankOrEnd .v12 c = false ∧ (c = ':' → isBlankOrEnd .v12 (cs.headD ' ') = false)) ∧
    Flows cs

/-- A text that can stand plainly. -/
structure IsPlain (cs : List Char) : Prop where
  starts : cs.headD ' ' ≠ ' '
  bare : isIndicator (cs.headD ' ') = false
  free : cs.headD ' ' = '-' ∨ cs.headD ' ' = '?' → isBlankOrEnd .v12 (cs.tail.headD ' ') = false
  unmarked : ['-', '-', '-'].isPrefixOf cs = false ∧ ['.', '.', '.'].isPrefixOf cs = false
  flows : Flows cs

theorem Flows.append {w v : List Char} (h : Flows (w ++ v)) : Flows v := by
  induction w with
  | nil => exact h
  | cons c w ih => exact ih h.2

/-- The first character of a plain scalar, and what is after it. -/
theorem IsPlain.chars {cs : List Char} (h : IsPlain cs) :
    ∃ c d, cs = c :: d ∧ c ≠ ' ' ∧ isBlankOrEnd .v12 c = false ∧
      (c = ':' → isBlankOrEnd .v12 (d.headD ' ') = false) := by
  obtain ⟨starts, -, -, -, flows⟩ := h
  cases cs with
  | nil => simp at starts
  | cons c d =>
    have other : c ≠ ' ' := starts
    have step := flows.1
    rw [if_neg other] at step
    exact ⟨c, d, rfl, other, step.1, step.2⟩

theorem IsPlain.opens {cs : List Char} (h : IsPlain cs) (tail : List Char) :
    Scan.Opens (cs ++ tail) := by
  obtain ⟨c, d, rfl, -, hb, -⟩ := h.chars
  have comment : c ≠ '#' := by
    intro same
    have bare : isIndicator c = false := h.bare
    rw [same] at bare
    contradiction
  simp only [isBlankOrEnd, isBreakOrEnd, Bool.or_eq_false_iff] at hb
  show Scan.isStart c = true
  simp [Scan.isStart, hb, comment]

namespace Scan

variable {s t : State}

private theorem plainEnds_eq (c next : Char) :
    plainEnds .v12 false c next =
      (isBlankOrEnd .v12 c || (c == ':' && isBlankOrEnd .v12 next)) := by
  simp [plainEnds]

private theorem run_plainGap_spaces (indent : Int) {n : Nat} {v : List Char}
    (h : s.rest = List.replicate n ' ' ++ v)
    (hv : (isBlank (v.headD endChar) || isBreak .v12 (v.headD endChar)) = false) {fuel : Nat}
    (hf : n < fuel) (f : Folding) (broken : Bool) :
    (plainGap .v12 indent fuel broken f).run s =
      some (({ f with blanks := f.blanks ++ if broken then [] else List.replicate n ' ' }, broken),
        s.after (List.replicate n ' ') v) := by
  induction n generalizing s fuel f with
  | zero =>
    obtain ⟨fuel, rfl⟩ : ∃ k, fuel = k + 1 := ⟨fuel - 1, by omega⟩
    have left : s.rest = v := h
    rw [← left, ← State.ahead_zero, Bool.or_eq_false_iff] at hv
    rw [run_plainGap_stop indent hv.1 hv.2, ← left]
    cases broken <;> simp [State.after_nil]
  | succ n ih =>
    obtain ⟨fuel, rfl⟩ : ∃ k, fuel = k + 1 := ⟨fuel - 1, by omega⟩
    have head : s.rest = ' ' :: (List.replicate n ' ' ++ v) := h
    have next : (s.after [' '] (List.replicate n ' ' ++ v)).rest = List.replicate n ' ' ++ v := rfl
    rw [run_plainGap_blank indent head rfl (.inl rfl), ih next (by omega), State.after_after]
    cases broken <;> simp [Folding.blank, List.replicate_succ]

private theorem run_plainGap_line (indent : Int) {n : Nat} {v : List Char}
    (h : s.rest = '\n' :: (List.replicate n ' ' ++ v)) (hv : Opens v) {fuel : Nat}
    (hf : n + 1 < fuel) (f : Folding) :
    ∃ g : Folding, (plainGap .v12 indent fuel false f).run s =
        some ((g, true), s.onNextLine n v) ∧
      g.text = f.text := by
  obtain ⟨fuel, rfl⟩ : ∃ k, fuel = k + 1 := ⟨fuel - 1, by omega⟩
  let line := s.onNextLine 0 (List.replicate n ' ' ++ v)
  have next : line.rest = List.replicate n ' ' ++ v := rfl
  have ends : (isBlank (v.headD endChar) || isBreak .v12 (v.headD endChar)) = false := by
    rw [hv.not_blank, hv.not_break]
    rfl
  refine ⟨{ f.lineBreak false ['\n'] with blanks := [] ++ [] }, ?_, rfl⟩
  have first := State.ahead_of_rest h
  rw [run_plainGap_break indent (by rw [first]; rfl) (by rw [first]; rfl) (run_passBreak h)]
  show (plainGap .v12 indent fuel true _).run line = _
  rw [run_plainGap_spaces indent next ends (by omega), State.onNextLine_after, Nat.zero_add]
  rfl

private theorem word_of_flows {w v : List Char} (h : Flows (w ++ v)) (hw : ∀ c ∈ w, c ≠ ' ')
    (tail : List Char) : IsWord .v12 false (v ++ tail) w := by
  induction w with
  | nil => trivial
  | cons c w ih =>
    have here : isBlankOrEnd .v12 c = false ∧
        (c = ':' → isBlankOrEnd .v12 ((w ++ v).headD ' ') = false) := by
      have step := h.1
      rwa [if_neg (hw c List.mem_cons_self)] at step
    refine ⟨?_, ih h.2 fun d hd => hw d (List.mem_cons_of_mem _ hd)⟩
    rw [plainEnds_eq, here.1, Bool.false_or, Bool.and_eq_false_iff]
    by_cases colon : c = ':'
    · right
      have next := here.2 colon
      rw [← List.append_assoc]
      cases hn : w ++ v with
      | nil => simp [hn, isBlankOrEnd, isBlank] at next
      | cons d ds =>
        rw [hn] at next
        exact next
    · left
      simpa using colon

private theorem start_of_flows {v tail : List Char} (h : Flows v) (hv : v.headD ' ' ≠ ' ') :
    (isBlank ((v ++ tail).headD endChar) || isBreak .v12 ((v ++ tail).headD endChar)) = false := by
  cases v with
  | nil => simp at hv
  | cons d v =>
    have other : d ≠ ' ' := hv
    have step := h.1
    rw [if_neg other] at step
    have here := step.1
    simp only [isBlankOrEnd, isBreakOrEnd, Bool.or_eq_false_iff] at here
    show (isBlank d || isBreak .v12 d) = false
    rw [here.1, here.2.1]
    rfl

private theorem run_afterWord_gap {indent : Int} {n : Nat} {v : List Char}
    (h : s.rest = ' ' :: List.replicate n ' ' ++ v)
    (hv : (isBlank (v.headD endChar) || isBreak .v12 (v.headD endChar)) = false)
    (hi : indent ≤ s.mark.column + 1) {m : Nat} (hm : n + 1 < m) (fuel : Nat) (word : Folding) :
    (afterWord .v12 false indent fuel m word).run s =
      (plainText .v12 indent fuel false
        { word with blanks := word.blanks ++ List.replicate (n + 1) ' ' }).run
        (s.after (List.replicate (n + 1) ' ') v) := by
  have gap : s.rest = List.replicate (n + 1) ' ' ++ v := h
  have passed := run_plainGap_spaces indent gap hv hm word false
  have stays : ¬((s.after (List.replicate (n + 1) ' ') v).mark.column : Int) < indent := by
    rw [State.after_column, List.length_replicate]
    omega
  unfold afterWord
  rw [run_bind (run_ahead _ _), State.ahead_of_rest h]
  show (plainGap .v12 indent m false word >>= _).run s = _
  rw [run_bind passed, run_bind (run_mark _)]
  simp only [stays, decide_false, Bool.and_false, Bool.false_eq_true, if_false]

/-- After a word and a gap the text goes on with another word, which starts no comment. -/
private theorem next_of_flows {w v : List Char} {n : Nat}
    (h : Flows (w ++ (List.replicate (n + 1) ' ' ++ v))) (hv : v.head? ≠ some ' ') :
    Flows v ∧ v.headD '#' ≠ '#' ∧ v.headD ' ' ≠ ' ' := by
  have split : w ++ (List.replicate (n + 1) ' ' ++ v) =
      w ++ List.replicate n ' ' ++ ' ' :: v := by
    rw [List.replicate_succ']
    simp
  rw [split] at h
  have gapped : Flows (' ' :: v) := h.append
  have comment : v.headD '#' ≠ '#' := by
    have step := gapped.1
    rwa [if_pos rfl] at step
  refine ⟨gapped.2, comment, ?_⟩
  cases v with
  | nil => simp at comment
  | cons d v => simpa using hv

/-- A text is read up to its last word, and then what is after it. -/
private theorem run_plainText {indent : Int} {cs tail : List Char} (h : s.rest = cs ++ tail)
    (hf : s.flowDepth = 0) (hm : s.atDocumentMark .v12 = false) (hs : cs.headD ' ' ≠ ' ')
    (hc : cs.headD '#' ≠ '#') (hcs : Flows cs)
    (ht : plainEnds .v12 false (tail.headD endChar) (tail.tail.headD endChar) = true)
    (hi : indent ≤ s.mark.column + 1) {fuel : Nat} (hl : cs.length < fuel) (f : Folding) :
    ∃ left n word, tail.length < n ∧ Folding.text word = f.text ++ f.blanks ++ cs ∧
      (plainText .v12 indent fuel false f).run s =
        (afterWord .v12 false indent left n word).run (s.after cs tail) := by
  induction hk : cs.length using Nat.strongRecOn generalizing s cs fuel f with
  | ind k ih =>
    obtain ⟨w, n, v, hw, plain, hz, hv⟩ := exists_split ' ' cs
    obtain ⟨fuel, rfl⟩ : ∃ k, fuel = k + 1 := ⟨fuel - 1, by omega⟩
    have flow : (s.flowDepth != 0) = false := by simp [hf]
    cases w with
    | nil =>
      cases n with
      | zero => simp [hw, hz rfl] at hs
      | succ n => simp [hw, List.replicate_succ] at hs
    | cons c w =>
      have notComment : c ≠ '#' := by
        rw [hw] at hc
        exact hc
      have word := word_of_flows (hw ▸ hcs) plain tail
      have head : s.rest = c :: w ++ (List.replicate n ' ' ++ v ++ tail) := by
        rw [h, hw]
        simp
      cases n with
      | zero =>
        have none := hz rfl
        subst none
        have same : cs = c :: w := by simpa using hw
        refine ⟨fuel, s.rest.length + 1, (f.join false).append (c :: w), ?_, ?_, ?_⟩
        · rw [h, List.length_append]
          omega
        · simp [Folding.text, Folding.append, Folding.join, same]
        · rw [run_plainText_word head flow hm notComment word ht (by simp) (by simp), same]
          rfl
      | succ n =>
        -- the gap ends on the same line, and the next word starts where this one may
        obtain ⟨rest, comment, blank⟩ := next_of_flows (w := c :: w) (hw ▸ hcs) hv
        let gap := List.replicate (n + 1) ' '
        let s1 := s.after (c :: w) (gap ++ v ++ tail)
        let s2 := s1.after gap (v ++ tail)
        let first := (f.join false).append (c :: w)
        have after1 : s1.rest = ' ' :: List.replicate n ' ' ++ (v ++ tail) :=
          List.append_assoc gap v tail
        have column1 : s1.mark.column = s.mark.column + (c :: w).length :=
          State.after_column ..
        have column2 : s2.mark.column = s1.mark.column + gap.length := State.after_column ..
        have size : gap.length = n + 1 := List.length_replicate
        have length : cs.length = (c :: w).length + (n + 1) + v.length := by
          rw [hw]
          simp
          omega
        have enough : n + 1 < s.rest.length + 1 := by
          rw [h, List.length_append, length]
          omega
        obtain ⟨left, m, last, hm', text, run⟩ := ih v.length (by omega)
          (show s2.rest = v ++ tail from rfl) hf (atDocumentMark_of_column (by omega)) blank comment
          rest (by omega)
          (show v.length < fuel by omega) { first with blanks := first.blanks ++ gap } rfl
        refine ⟨left, m, last, hm', ?_, ?_⟩
        · rw [text, hw]
          simp [first, gap, Folding.text, Folding.append, Folding.join]
        · rw [run_plainText_word head flow hm notComment word rfl (by simp) (by simp),
            run_afterWord_gap after1 (start_of_flows rest blank) (by omega) enough, run,
            State.after_after, State.after_after, hw]

private theorem not_triple {c : Char} {cs tail : List Char} (hc : c ≠ endChar)
    (hs : s.rest = cs ++ tail) (hp : [c, c, c].isPrefixOf cs = false) (hcs : cs ≠ [])
    (ht : tail.headD ' ' ≠ c) : s.atTriple .v12 c = false := by
  have stop : tail.headD endChar ≠ c := by
    cases tail with
    | nil => exact fun same => hc same.symm
    | cons d tail => exact ht
  have three : s.ahead 0 = c → s.ahead 1 = c → s.ahead 2 ≠ c := by
    unfold State.ahead
    rw [hs]
    match cs, hcs with
    | [a], _ =>
      intro _ second
      cases tail <;> simp_all
    | [a, b], _ =>
      intro _ _ third
      cases tail <;> simp_all
    | a :: b :: d :: cs, _ =>
      intro first second third
      simp at first second third
      simp [first, second, third] at hp
  unfold State.atTriple
  by_cases first : s.ahead 0 = c
  · by_cases second : s.ahead 1 = c
    · simp [three first second]
    · simp [second]
  · simp [first]

theorem notMark_of_isPlain {cs tail : List Char} (h : IsPlain cs) (hs : s.rest = cs ++ tail)
    (ht : tail.headD ' ' ≠ '-' ∧ tail.headD ' ' ≠ '.') : s.atDocumentMark .v12 = false := by
  obtain ⟨c, d, hcs, -⟩ := h.chars
  have some : cs ≠ [] := by simp [hcs]
  have dashes := not_triple (by decide) hs h.unmarked.1 some ht.1
  have dots := not_triple (by decide) hs h.unmarked.2 some ht.2
  simp [State.atDocumentMark, State.atDocumentStart, State.atDocumentEnd, dashes, dots]

private theorem fetchToken_plain {cs tail : List Char} (h : IsPlain cs) (hs : s.rest = cs ++ tail)
    (hf : s.flowDepth = 0) : (fetchToken .v12).run s = (fetchPlain .v12).run s := by
  obtain ⟨c, d, rfl, space, fine, colon⟩ := h.chars
  have head : s.rest = c :: (d ++ tail) := hs
  have bare : isIndicator c = false := h.bare
  simp only [isIndicator, List.contains_eq_mem, decide_eq_false_iff_not, List.mem_cons,
    not_or] at bare
  obtain ⟨n, second, next⟩ : ∃ n, s.ahead 1 = n ∧
      (isBlankOrEnd .v12 (d.headD ' ') = false → isBlankOrEnd .v12 n = false) := by
    refine ⟨_, State.ahead_one_of_rest head, ?_⟩
    intro hd
    cases d with
    | nil => simp [isBlankOrEnd, isBlank] at hd
    | cons e d => exact hd
  have value : atValue .v12 s = false := by
    unfold atValue
    rw [State.ahead_of_rest head, second, hf]
    by_cases key : c = ':'
    · simp [next (colon key)]
    · simp [key]
  have dash : (c == '-' && isBlankOrEnd .v12 n) = false := by
    by_cases same : c = '-'
    · rw [next (h.free (.inl same)), Bool.and_false]
    · simp [same]
  have query : (c == '?' && isBlankOrEnd .v12 n) = false := by
    by_cases same : c = '?'
    · rw [next (h.free (.inr same)), Bool.and_false]
    · simp [same]
  have plain : atPlain .v12 s = true := by
    unfold atPlain
    rw [State.ahead_of_rest head]
    simp [bare]
  unfold fetchToken
  rw [run_get_bind, State.ahead_of_rest head, second]
  simp only [dash, value, plain]
  simp [bare, query]

private theorem run_afterWord_line {indent : Int} {n : Nat} {v : List Char}
    (h : s.rest = '\n' :: (List.replicate n ' ' ++ v)) (hv : Opens v) (hi : (n : Int) < indent)
    {m : Nat} (hm : n + 1 < m) (fuel : Nat) (word : Folding) :
    (afterWord .v12 false indent fuel m word).run s = some ((word.text, true), s.onNextLine n v) := by
  obtain ⟨g, passed, same⟩ := run_plainGap_line indent h hv hm word
  have leaves : ((s.onNextLine n v).mark.column : Int) < indent := by
    rw [State.onNextLine_column]
    exact hi
  unfold afterWord
  rw [run_bind (run_ahead _ _), State.ahead_of_rest h]
  show (plainGap .v12 indent m false word >>= _).run s = _
  rw [run_bind passed, run_bind (run_mark _)]
  simp only [leaves, decide_true]
  rw [same]
  rfl

private theorem run_afterWord_colon {indent : Int} {v : List Char} (h : s.rest = ':' :: v)
    (fuel m : Nat) (word : Folding) :
    (afterWord .v12 false indent fuel m word).run s = some ((word.text, false), s) := by
  unfold afterWord
  rw [run_bind (run_ahead _ _), State.ahead_of_rest h]
  rfl

private theorem run_fetchPlain {k : KeyCandidate} {blocks : List Nat} {text : List Char}
    {broken : Bool} (saved : (saveCandidate .v12).run s = some ((), s.remembering [k]))
    (hi : Inside s.indent s.levels blocks) (hf : s.flowDepth = 0)
    (run : (plainText .v12 (innermost blocks + 1) (s.rest.length + 1) false .empty).run
      (((s.remembering [k]).allow false).within (innermost blocks) (levelsOf blocks)) =
        some ((text, broken), t)) :
    (fetchPlain .v12).run s =
      some ((), (if broken then t.allow true else t).push (.scalar .plain (String.ofList text))
        s.mark) := by
  let u := (s.remembering [k]).allow false
  have inside : Inside u.indent u.levels blocks := hi
  have block : (((u.within (innermost blocks) (levelsOf blocks)).flowDepth) != 0) = false := by
    show (s.flowDepth != 0) = false
    simp [hf]
  unfold fetchPlain
  rw [run_bind saved, run_bind (run_allowKey _ _)]
  show (unindentOnes >>= _).run u = _
  rw [run_bind (run_unindentOnes inside), run_get_bind, block]
  simp only [Bool.and_false, Bool.false_and, Bool.false_eq_true, if_false]
  show (plainText .v12 (innermost blocks + 1) (s.rest.length + 1) false .empty >>= _).run
    (u.within (innermost blocks) (levelsOf blocks)) = _
  rw [run_bind run]
  cases broken <;> rfl

/-- A plain scalar is fetched by the character it starts with. -/
private theorem fetches_fetchPlain {cs tail : List Char} {column : Nat} {shown : List Token}
    {blocks : List Nat} (h : s.Ready (cs ++ tail) column shown blocks) (hp : IsPlain cs)
    (ht : tail.headD ' ' ≠ '-' ∧ tail.headD ' ' ≠ '.')
    (run : (fetchPlain .v12).run s = some ((), t)) (shorter : t.rest.length ≤ tail.length) :
    Fetches .v12 s t := by
  obtain ⟨c, d, rfl, -, fine, -⟩ := hp.chars
  have notEnd : c ≠ endChar := by
    intro same
    rw [same] at fine
    contradiction
  have notDirective : c ≠ '%' := by
    intro same
    have bare : isIndicator c = false := hp.bare
    rw [same] at bare
    contradiction
  apply fetches_token (run_settle_ready h) h.rest notEnd notDirective
    (notMark_of_isPlain hp h.rest ht) h.indented
  · rw [fetchToken_plain hp h.rest h.flowDepth, run]
  · show t.rest.length ≤ (d ++ tail).length
    rw [List.length_append]
    omega

/-- The text of a plain scalar is read, up to what is after it. -/
private theorem exists_run_plainText {cs tail : List Char} {column : Nat} {shown : List Token}
    {blocks : List Nat} (h : s.Ready (cs ++ tail) column shown blocks) (hp : IsPlain cs)
    (ht : plainEnds .v12 false (tail.headD endChar) (tail.tail.headD endChar) = true)
    (hd : tail.headD ' ' ≠ '-' ∧ tail.headD ' ' ≠ '.') (k : KeyCandidate) :
    ∃ left n word, tail.length < n ∧ Folding.text word = cs ∧
      (plainText .v12 (innermost blocks + 1) (s.rest.length + 1) false .empty).run
          (((s.remembering [k]).allow false).within (innermost blocks) (levelsOf blocks)) =
        (afterWord .v12 false (innermost blocks + 1) left n word).run
          ((((s.remembering [k]).allow false).within (innermost blocks) (levelsOf blocks)).after
            cs tail) := by
  let u := ((s.remembering [k]).allow false).within (innermost blocks) (levelsOf blocks)
  obtain ⟨c, d, hcs, -⟩ := hp.chars
  have comment : cs.headD '#' ≠ '#' := by
    intro same
    have bare := hp.bare
    rw [hcs] at same bare
    have hash : c = '#' := same
    rw [hash] at bare
    contradiction
  have column : innermost blocks + 1 ≤ (u.mark.column : Int) + 1 := by
    have deep := h.inside.le
    have indented := h.indented
    show innermost blocks + 1 ≤ (s.mark.column : Int) + 1
    omega
  have size : cs.length < s.rest.length + 1 := by
    rw [h.rest, List.length_append]
    omega
  exact run_plainText (s := u) h.rest h.flowDepth (notMark_of_isPlain hp h.rest hd) hp.starts
    comment hp.flows ht column size .empty

/-- A plain value is read with the line break after it and the spaces of the next line. -/
theorem fetches_plain {cs body : List Char} {column m : Nat} {shown : List Token}
    {blocks : List Nat}
    (h : s.Ready (cs ++ '\n' :: (List.replicate m ' ' ++ body)) column shown blocks)
    (hp : IsPlain cs) (ho : Opens body) (hm : (m : Int) ≤ innermost blocks)
    (hk : s.keyAllowed = true → s.indent < s.mark.column) :
    ∃ t, Fetches .v12 s t ∧ t.At body m (shown ++ [.scalar .plain (String.ofList cs)]) blocks ∧
      t.keyAllowed = true := by
  let tail := '\n' :: (List.replicate m ' ' ++ body)
  obtain ⟨k, saved, idle⟩ := exists_saved h hk
  let u := ((s.remembering [k]).allow false).within (innermost blocks) (levelsOf blocks)
  let line := (u.after cs tail).onNextLine m body
  obtain ⟨left, n, word, hn, text, run⟩ := exists_run_plainText h hp rfl (by simp) k
  have read : (plainText .v12 (innermost blocks + 1) (s.rest.length + 1) false .empty).run u =
      some ((cs, true), line) := by
    rw [run, run_afterWord_line rfl ho (by omega) (by simp at hn; omega), text]
  let t := (line.allow true).push (.scalar .plain (String.ofList cs)) s.mark
  refine ⟨t, ?_, ?_, rfl⟩
  · apply fetches_fetchPlain h hp (by simp) (run_fetchPlain saved h.inside h.flowDepth read)
    show body.length ≤ _
    simp
    omega
  · exact
      { rest := rfl
        column := State.onNextLine_column (u.after cs tail) m body
        shown := by rw [State.shown_push, ← h.shown]; rfl
        inside := Inside.exact blocks
        flowDepth := h.flowDepth
        pairOpen := h.pairOpen
        idle := by
          apply State.idle_of_saved rfl idle
          show s.mark.line < line.mark.line
          rw [State.onNextLine_line, State.after_line]
          exact Nat.lt_succ_self _ }

/-- A plain key is read up to its colon, and remembered. -/
theorem fetches_plainKey {cs tail : List Char} {column : Nat} {shown : List Token}
    {blocks : List Nat} (h : s.Ready (cs ++ ':' :: tail) column shown blocks) (hp : IsPlain cs)
    (ht : isBlankOrEnd .v12 (tail.headD endChar) = true) (hk : s.keyAllowed = true) :
    ∃ u, Fetches .v12 s u ∧
      u.AtColon tail column cs.length shown (.scalar .plain (String.ofList cs)) blocks := by
  obtain ⟨k, saved, possible, number, mark⟩ := exists_savedKey h hk
  let u := ((s.remembering [k]).allow false).within (innermost blocks) (levelsOf blocks)
  have ends : plainEnds .v12 false ':' (tail.headD endChar) = true := by
    rw [plainEnds_eq, ht]
    rfl
  obtain ⟨left, n, word, hn, text, run⟩ := exists_run_plainText h hp ends (by simp) k
  have read : (plainText .v12 (innermost blocks + 1) (s.rest.length + 1) false .empty).run u =
      some ((cs, false), u.after cs (':' :: tail)) := by
    rw [run, run_afterWord_colon rfl, text]
  let t := (u.after cs (':' :: tail)).push (.scalar .plain (String.ofList cs)) s.mark
  have start := h.column
  have moved : t.mark = s.mark.passing cs := rfl
  refine ⟨t, ?_, ?_⟩
  · exact fetches_fetchPlain h hp (by simp) (run_fetchPlain saved h.inside h.flowDepth read)
      (Nat.le_refl _)
  · exact
      { rest := rfl
        column := by rw [moved, Mark.passing_column, start]
        shown := by rw [State.shown_push, ← h.shown]; rfl
        inside := Inside.exact blocks
        indented := by
          have deep := h.inside.le
          have indented := h.indented
          show innermost blocks ≤ (column : Int)
          omega
        flowDepth := h.flowDepth
        candidate := by
          refine ⟨k, rfl, possible, number, by rw [mark, start], ?_, ?_⟩
          · rw [moved, mark, Mark.passing_line]
          · rw [moved, mark, Mark.passing_index] }

end Scan

end TrafficIntent.Yaml
