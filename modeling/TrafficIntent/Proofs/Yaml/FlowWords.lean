import TrafficIntent.Proofs.Yaml.Flow
import TrafficIntent.Proofs.Yaml.PlainText
import TrafficIntent.Proofs.Yaml.Resolution

namespace TrafficIntent.Yaml

/-- Letters and digits, with a minus sign before them or not. -/
def IsBare (w : List Char) : Prop :=
  ∃ v, (w = v ∨ w = '-' :: v) ∧ v ≠ [] ∧ ∀ c ∈ v, c.isAlphanum = true

namespace Scan

open Json (Gap)

variable {s : State} {w text tail gap : List Char} {shown : List Token} {d : Nat}

/-- White space and the characters that mean something to the scanner. -/
private def marks : List Char :=
  [' ', '\t', '\n', '\r', '\x85', '\u2028', '\u2029', endChar, byteOrderMark, ',', '[', ']', '{',
    '}', ':', '-', '?', '#', '&', '*', '!', '|', '>', '\x27', '\x22', '%', '@', '\x60', '.']

private theorem ne_of_isAlphanum {c : Char} (letter : c.isAlphanum = true) : c ∉ marks := by
  intro member
  have none : (marks.all fun x => !x.isAlphanum) = true := by decide
  have other := List.all_eq_true.1 none c member
  rw [letter] at other
  contradiction

/-- Nothing in a plain scalar ends it or is a mark there. -/
private theorem inside_of_isBare (bare : IsBare w) :
    ∀ c ∈ w, ∀ next, plainEnds .v11 true c next = false ∧ (c == ':') = false := by
  have letter {c : Char} (hc : c.isAlphanum = true) (next : Char) :
      plainEnds .v11 true c next = false ∧ (c == ':') = false := by
    have away := ne_of_isAlphanum hc
    simp only [marks, List.mem_cons, not_or] at away
    simp [plainEnds, isBlankOrEnd, isBlank, isBreakOrEnd, isBreak, isFlow, away]
  obtain ⟨v, rfl | rfl, -, letters⟩ := bare
  · exact fun c hc => letter (letters c hc)
  · intro c hc
    cases List.mem_cons.1 hc with
    | inl minus => rw [minus]; exact fun _ => ⟨rfl, rfl⟩
    | inr other => exact letter (letters c other)

/-- A bare word starts with a letter or digit, or with one after a minus sign. -/
private theorem exists_bareLetter (bare : IsBare w) :
    ∃ c v, (w = c :: v ∨ w = '-' :: c :: v) ∧ c ∉ marks := by
  obtain ⟨v, word, some, letters⟩ := bare
  obtain ⟨c, v, rfl⟩ := List.exists_cons_of_ne_nil some
  exact ⟨c, v, word, ne_of_isAlphanum (letters c List.mem_cons_self)⟩

private theorem exists_bareStart (bare : IsBare w) :
    ∃ c cs, w = c :: cs ∧ ∀ text, Starts c (cs ++ text) := by
  obtain ⟨c, v, word, away⟩ := exists_bareLetter bare
  simp only [marks, List.mem_cons, not_or] at away
  obtain rfl | rfl := word
  · refine ⟨c, v, rfl, fun text => ⟨?_, by simp [away], by simp [away], by simp [away]⟩⟩
    simp [isOpening, isBlank, isBreak, away]
  · exact ⟨'-', c :: v, rfl, fun text => ⟨by decide, by decide, by decide, by simp [away]⟩⟩

/-- A plain scalar starts with none of the marks that other tokens start with. -/
private theorem fetchToken_bare (h : s.rest = w ++ tail) (bare : IsBare w) :
    (fetchToken .v11).run s = (fetchPlain .v11).run s := by
  obtain ⟨c, v, word, away⟩ := exists_bareLetter bare
  simp only [marks, List.mem_cons, not_or] at away
  obtain rfl | rfl := word
  · have first : s.ahead 0 = c := State.ahead_of_rest h
    unfold fetchToken
    rw [run_get_bind]
    simp [first, atValue, atPlain, isBlankOrEnd, isBlank, isBreakOrEnd, isBreak, away]
  · have first : s.ahead 0 = '-' := State.ahead_of_rest h
    have second : s.ahead 1 = c := State.ahead_one_of_rest h
    unfold fetchToken
    rw [run_get_bind]
    simp [first, second, atValue, atPlain, isBlankOrEnd, isBlank, isBreakOrEnd, isBreak, away]

private theorem isWord_of_inside (rest : List Char)
    (inside : ∀ x ∈ w, ∀ next, plainEnds .v11 true x next = false ∧ (x == ':') = false) :
    IsWord .v11 true rest w := by
  induction w with
  | nil => trivial
  | cons x w ih =>
    exact ⟨(inside x List.mem_cons_self _).1, ih fun y hy => inside y (List.mem_cons_of_mem _ hy)⟩

/-- White space after a word adds nothing to its text. -/
private theorem run_bareGap (h : s.Between (gap ++ tail) shown d) (space : Gap gap)
    (opening : isOpening (tail.headD endChar) = true) {fuel : Nat} (enough : gap.length < fuel)
    (broken : Bool) (f : Folding) :
    ∃ g b t, (plainGap .v11 0 fuel broken f).run s = some ((g, b), t) ∧ g.text = f.text ∧
      t.Between tail shown d := by
  induction hn : gap.length using Nat.strongRecOn generalizing s gap fuel broken f with
  | ind n ih =>
    obtain ⟨fuel, rfl⟩ : ∃ k, fuel = k + 1 := ⟨fuel - 1, by omega⟩
    cases gap with
    | nil =>
      have left : s.ahead 0 = tail.headD endChar := by
        rw [State.ahead_zero, h.rest]
        rfl
      obtain ⟨notSpace, notTab, notBreak, -, -⟩ := isOpening_ne opening
      refine ⟨f, broken, s, run_plainGap_stop 0 ?_ (by rwa [left]) fuel broken f, rfl, h⟩
      rw [left, isBlank, beq_false_of_ne notSpace, beq_false_of_ne notTab, Bool.or_false]
    | cons c gap =>
      have head : s.rest = c :: (gap ++ tail) := h.rest
      have enough : gap.length < fuel := Nat.lt_of_succ_lt_succ enough
      rw [List.length_cons] at hn
      cases gapAt_kind (gapAt_succ (d := 0) space) with
      | inl blank =>
        have isBlank' : isBlank c = true := by
          obtain rfl | ⟨rfl, -⟩ := blank <;> rfl
        have moved : (s.after [c] (gap ++ tail)).Between (gap ++ tail) shown d :=
          between_moved h _ _ _ s.keyAllowed
        obtain ⟨g, b, t, run, same, between⟩ := ih gap.length (by omega) moved
          (fun x hx => space x (List.mem_cons_of_mem _ hx)) enough broken (f.blank broken c) rfl
        refine ⟨g, b, t, ?_, same.trans ?_, between⟩
        · -- tabs are refused only where something is indented
          rw [run_plainGap_blank 0 head isBlank' (.inr (by omega)), run]
        · cases broken <;> rfl
      | inr line =>
        obtain ⟨gap', m, skipped, short, inside⟩ := exists_skipBreak head line opening
        have kinds : isBlank (s.ahead 0) = false ∧ isBreak .v11 (s.ahead 0) = true := by
          rw [State.ahead_of_rest head]
          obtain rfl | rfl := line <;> decide
        have moved : s.skipBreak.Between (gap' ++ tail) shown d := by
          rw [skipped]
          exact between_moved h _ _ _ s.keyAllowed
        obtain ⟨b, passed⟩ : ∃ b, passBreak.run s = some (b, s.skipBreak) := ⟨_, rfl⟩
        obtain ⟨g, b', t, run, same, between⟩ := ih gap'.length (by omega) moved
          (fun x hx => space x (List.mem_cons_of_mem _ (inside x hx)))
          (Nat.lt_of_le_of_lt short enough) true (f.lineBreak broken b) rfl
        refine ⟨g, b', t, ?_, same.trans ?_, between⟩
        · rw [run_plainGap_break 0 kinds.1 kinds.2 passed, run]
        · cases broken <;> rfl

/-- What may come after a plain scalar and the white space behind it. -/
private theorem stops_of_mem {c : Char} (stop : c ∈ [',', ']', '}']) :
    isFlow c = true ∧ isBlank c = false ∧ isBreak .v11 c = false ∧ (c == '#') = false ∧
      isOpening c = true ∧ ∀ text, Starts c text := by
  simp only [List.mem_cons, List.not_mem_nil, or_false] at stop
  obtain rfl | rfl | rfl := stop <;>
    exact ⟨rfl, rfl, rfl, rfl, rfl, fun _ => ⟨rfl, by decide, by decide, nofun⟩⟩

private theorem ends_behind (text : List Char) {c : Char} (space : Gap gap) (stop : c ∈ [',', ']', '}']) :
    (∀ next, plainEnds .v11 true ((gap ++ c :: text).headD endChar) next = true) ∧
      (gap ++ c :: text).headD endChar ≠ ':' := by
  cases gap with
  | nil =>
    have flow := (stops_of_mem stop).1
    refine ⟨fun next => by simp [plainEnds, flow], ?_⟩
    rintro rfl
    exact absurd stop (by decide)
  | cons y gap =>
    have white : (∀ next, plainEnds .v11 true y next = true) ∧ y ≠ ':' := by
      rcases gapAt_kind (gapAt_succ (d := 0) space) with (rfl | ⟨rfl, -⟩) | rfl | rfl <;>
        exact ⟨fun _ => rfl, by decide⟩
    exact white

/-- Where a comma or bracket is ahead a plain scalar takes nothing more in. -/
private theorem run_bareText_stop {c : Char} (h : s.Between (c :: text) shown (d + 1))
    (stop : c ∈ [',', ']', '}']) (fuel : Nat) (broken : Bool) (f : Folding) :
    (plainText .v11 0 fuel broken f).run s = some ((f.text, broken), s) := by
  cases fuel with
  | zero => rfl
  | succ fuel =>
    obtain ⟨-, notBlank, notBreak, comment, -, start⟩ := stops_of_mem stop
    obtain ⟨noStart, noEnd⟩ := (start text).unmarked h.rest
    have deep : (s.flowDepth != 0) = true := by rw [h.flowDepth]; rfl
    obtain ⟨ends, other⟩ : (∀ next, plainEnds .v11 true c next = true) ∧ c ≠ ':' :=
      ends_behind text Json.gap_nil stop
    have none : (plainWord .v11 true (s.rest.length + 1) f).run s = some (f, s) := by
      have read := run_plainWord (s := s) (w := []) h.rest trivial (ends _)
        (fun _ _ => ⟨by simp, other⟩) (Nat.succ_pos s.rest.length) f
      rwa [← h.rest, State.after_nil] at read
    unfold plainText
    rw [run_get_bind, run_bind (run_inFlow s), State.ahead_of_rest h.rest, State.atDocumentMark,
      noStart, noEnd, deep]
    simp only [comment, reduceCtorEq, decide_false, Bool.false_and, Bool.or_false,
      Bool.false_eq_true, if_false, ends, Bool.not_true, Bool.not_false, Bool.and_true]
    rw [run_bind none, run_bind (run_ahead s 0), State.ahead_of_rest h.rest, notBlank, notBreak]
    rfl

private theorem run_bareText {c : Char} (h : s.Between (w ++ (gap ++ c :: text)) shown (d + 1))
    (bare : IsBare w) (space : Gap gap) (stop : c ∈ [',', ']', '}']) (fuel : Nat) :
    ∃ b t, (plainText .v11 0 (fuel + 1) false .empty).run s = some ((w, b), t) ∧
      t.Between (c :: text) shown (d + 1) := by
  have inside := inside_of_isBare bare
  obtain ⟨x, xs, rfl, start⟩ := exists_bareStart bare
  obtain ⟨-, notBlank, notBreak, -, opening, -⟩ := stops_of_mem stop
  obtain ⟨noStart, noEnd⟩ := (start (gap ++ c :: text)).unmarked h.rest
  have noMark : s.atDocumentMark .v11 = false := by rw [State.atDocumentMark, noStart, noEnd]; rfl
  have comment : x ≠ '#' := (isOpening_ne (start text).opening).2.2.2.1
  have deep : (s.flowDepth != 0) = true := by rw [h.flowDepth]; rfl
  obtain ⟨ends, other⟩ := ends_behind text space stop
  let s1 := s.after (x :: xs) (gap ++ c :: text)
  let f := (Folding.empty.join false).append (x :: xs)
  have same : f.text = x :: xs := by
    simp [f, Folding.text, Folding.append, Folding.join, Folding.empty]
  have between : s1.Between (gap ++ c :: text) shown (d + 1) :=
    between_moved h _ _ _ s.keyAllowed
  have noColon : ':' ∉ x :: xs := fun there => absurd (inside ':' there endChar).2 (by simp)
  rw [run_plainText_word h.rest deep noMark comment (isWord_of_inside _ inside) (ends _)
    (fun _ _ => ⟨noColon, other⟩) (by simp)]
  show ∃ b t, (afterWord .v11 true 0 fuel (s.rest.length + 1) f).run s1 = _ ∧ _
  unfold afterWord
  rw [run_bind (run_ahead s1 0)]
  cases gap with
  | nil =>
    refine ⟨false, s1, ?_, between⟩
    have next : s1.ahead 0 = c := State.ahead_of_rest rfl
    rw [next, notBlank, notBreak, ← same]
    rfl
  | cons y gap =>
    have white : (isBlank y || isBreak .v11 y) = true := by
      rcases gapAt_kind (gapAt_succ (d := 0) space) with (rfl | ⟨rfl, -⟩) | rfl | rfl <;> rfl
    have room : (y :: gap).length < s.rest.length + 1 := by
      simp only [h.rest, List.length_cons, List.length_append]
      omega
    have next : s1.ahead 0 = y := State.ahead_of_rest rfl
    obtain ⟨g, b, t, passed, text', there⟩ := run_bareGap between space opening room false f
    refine ⟨b, t, ?_, there⟩
    rw [next, white, if_pos rfl, run_bind passed]
    simp only [run_bind (run_mark t)]
    rw [← same, ← text']
    exact run_bareText_stop there stop fuel b g

/-- A plain scalar is fetched together with the white space after it. -/
theorem fetches_flowPlain {before : List Char} {c : Char}
    (h : s.Between (before ++ (w ++ (gap ++ c :: text))) shown (d + 1)) (space : Gap before)
    (bare : IsBare w) (behind : Gap gap) (stop : c ∈ [',', ']', '}']) :
    ∃ t, Fetches .v11 s t ∧
      t.Between (c :: text) (shown ++ [.scalar .plain (String.ofList w)]) (d + 1) := by
  obtain ⟨x, xs, rfl, start⟩ := exists_bareStart bare
  apply fetches_flowToken h (gapAt_succ space) (start _)
  intro u between _ _
  obtain ⟨ks, saved, between', -⟩ := run_saveCandidate_between between
  let v := (u.remembering ks).allow false
  have ready : v.Between (x :: xs ++ (gap ++ c :: text)) shown (d + 1) :=
    between_allow between' false
  obtain ⟨b, t, read, there⟩ := run_bareText ready bare behind stop v.rest.length
  have indent : v.indent + 1 = 0 := by
    have none : v.indent = -1 := between.indent
    rw [none]
    rfl
  let t' := if b then t.allow true else t
  have there' : t'.Between (c :: text) shown (d + 1) := by
    cases b with
    | true => exact between_allow there true
    | false => exact there
  refine ⟨t'.push (.scalar .plain (String.ofList (x :: xs))) u.mark, ?_, ?_,
    between_push there' _ _⟩
  · rw [fetchToken_bare between.rest bare]
    unfold fetchPlain
    rw [run_bind saved, run_bind (run_allowKey _ _)]
    simp only [reduceCtorEq, decide_false, Bool.false_and, if_false, Bool.false_eq_true]
    rw [run_get_bind, indent, run_bind read]
    cases b <;> rfl
  · have left : (t'.push (.scalar .plain (String.ofList (x :: xs))) u.mark).rest = c :: text :=
      there'.rest
    show _ ≤ (xs ++ (gap ++ c :: text)).length
    rw [left, List.length_append, List.length_append]
    omega

end Scan

end TrafficIntent.Yaml
