import TrafficIntent.Proofs.Yaml.Columns

namespace TrafficIntent.Yaml.Scan

variable {s : State} {e : Edition} {single : Bool} {ps : List (Char × List Char)}
  {rest : List Char}

/-- The quote at both ends of a scalar. -/
def quote (single : Bool) : Char := if single then '\x27' else '\x22'

/-- Between quotes, the characters on the right are read as the one on the left. They start with no
blank. -/
structure IsPiece (e : Edition) (single : Bool) (p : Char × List Char) : Prop where
  starts : isBlankOrEnd e (p.2.headD ' ') = false
  reads : ∀ (s : State) (rest : List Char) (fuel : Nat) (f : Folding), s.rest = p.2 ++ rest →
    (quotedWord e single (fuel + 1) f).run s =
      (quotedWord e single fuel (f.push p.1)).run (s.after p.2 rest)

/-- All of a text but its spaces is read piece by piece. -/
def ArePieces (e : Edition) (single : Bool) (ps : List (Char × List Char)) : Prop :=
  ∀ p ∈ ps, p ≠ (' ', [' ']) → IsPiece e single p

/-- A word between quotes ends before these characters. -/
def Stops (e : Edition) (single : Bool) (rest : List Char) : Prop :=
  ∀ (s : State) (fuel : Nat) (f : Folding), s.rest = rest →
    (quotedWord e single (fuel + 1) f).run s = some ((f, false), s)

private theorem stops_space (e : Edition) (single : Bool) (rest : List Char) :
    Stops e single (' ' :: rest) := by
  intro s fuel f h
  unfold quotedWord
  rw [run_bind (run_ahead s 0), State.ahead_of_rest h]
  rfl

/-- A word ends before the closing quote; between single quotes the quote must not be doubled. -/
theorem stops_quote (e : Edition) (single : Bool)
    (hr : single = true → rest.headD ' ' ≠ '\x27') : Stops e single (quote single :: rest) := by
  intro s fuel f h
  have fine : isBlankOrEnd e (quote single) = false := by
    cases e <;> cases single <;> rfl
  unfold quotedWord
  rw [run_bind (run_ahead s 0), State.ahead_of_rest h, fine]
  cases single with
  | true =>
    have other : (rest.headD endChar == '\x27') = false := by
      rw [beq_eq_false_iff_ne]
      cases rest with
      | nil => decide
      | cons c rest => exact hr rfl
    show (ahead 1 >>= _).run s = _
    rw [run_bind (run_ahead s 1), State.ahead_one_of_rest h, other]
    rfl
  | false => rfl

private theorem run_quotedWord (h : s.rest = ps.flatMap Prod.snd ++ rest)
    (hp : ∀ p ∈ ps, IsPiece e single p) (hr : Stops e single rest) {fuel : Nat}
    (hf : ps.length < fuel) (f : Folding) :
    (quotedWord e single fuel f).run s =
      some ((f.append (ps.map Prod.fst), false), s.after (ps.flatMap Prod.snd) rest) := by
  induction ps generalizing s fuel f with
  | nil =>
    obtain ⟨fuel, rfl⟩ : ∃ k, fuel = k + 1 := ⟨fuel - 1, by simp at hf; omega⟩
    have left : s.rest = rest := h
    rw [hr s fuel f left, ← left]
    show some ((f, false), s) = some ((f.append [], false), s.after [] s.rest)
    rw [State.after_nil]
    rfl
  | cons p ps ih =>
    obtain ⟨fuel, rfl⟩ : ∃ k, fuel = k + 1 := ⟨fuel - 1, by simp at hf; omega⟩
    have head : s.rest = p.2 ++ (ps.flatMap Prod.snd ++ rest) := by
      rw [h, List.flatMap_cons, List.append_assoc]
    have next : (s.after p.2 (ps.flatMap Prod.snd ++ rest)).rest =
        ps.flatMap Prod.snd ++ rest := rfl
    rw [(hp p List.mem_cons_self).reads s _ fuel f head,
      ih next (fun q hq => hp q (List.mem_cons_of_mem _ hq)) (by simp at hf; omega),
      State.after_after, List.flatMap_cons]
    simp [Folding.append, Folding.push]

private theorem run_quotedGap {n : Nat} (h : s.rest = List.replicate n ' ' ++ rest)
    (hr : isBlankOrEnd e (rest.headD endChar) = false) {fuel : Nat} (hf : n < fuel)
    (f : Folding) :
    (quotedGap e fuel false f).run s =
      some (({ f with blanks := f.blanks ++ List.replicate n ' ' }, false),
        s.after (List.replicate n ' ') rest) := by
  induction n generalizing s fuel f with
  | zero =>
    obtain ⟨fuel, rfl⟩ : ∃ k, fuel = k + 1 := ⟨fuel - 1, by omega⟩
    have left : s.rest = rest := h
    simp only [isBlankOrEnd, isBreakOrEnd, Bool.or_eq_false_iff] at hr
    unfold quotedGap
    rw [run_bind (run_ahead s 0), State.ahead_zero, left]
    simp only [hr.1, hr.2.1]
    show some ((f, false), s) = _
    rw [← left]
    simp [State.after_nil]
  | succ n ih =>
    obtain ⟨fuel, rfl⟩ : ∃ k, fuel = k + 1 := ⟨fuel - 1, by omega⟩
    have head : s.rest = ' ' :: (List.replicate n ' ' ++ rest) := h
    have next : (s.after [' '] (List.replicate n ' ' ++ rest)).rest =
        List.replicate n ' ' ++ rest := rfl
    unfold quotedGap
    rw [run_bind (run_ahead s 0), State.ahead_of_rest head]
    show (mark >>= fun _ => get >>= fun _ =>
      skip >>= fun _ => quotedGap e fuel false (f.blank false ' ')).run s = _
    rw [run_bind (run_mark s), run_get_bind, run_bind (run_skip head), ih next (by omega),
      State.after_after]
    simp [Folding.blank, List.replicate_succ]

private theorem flatMap_spaces (n : Nat) :
    (List.replicate n (' ', [' '])).flatMap Prod.snd = List.replicate n ' ' := by
  induction n with
  | zero => rfl
  | succ n ih => rw [List.replicate_succ, List.flatMap_cons, ih]; rfl

private theorem exists_start {p : Char × List Char} (hp : p ≠ (' ', [' ']) → IsPiece e single p) :
    ∃ c cs, p.2 = c :: cs ∧ c ≠ endChar ∧ (p ≠ (' ', [' ']) → isBlankOrEnd e c = false) := by
  by_cases space : p = (' ', [' '])
  · exact ⟨' ', [], by rw [space], by decide, fun other => absurd space other⟩
  · have start := (hp space).starts
    cases hw : p.2 with
    | nil => simp [hw, isBlankOrEnd, isBlank] at start
    | cons c cs =>
      rw [hw] at start
      refine ⟨c, cs, rfl, ?_, fun _ => start⟩
      rintro rfl
      have ended : isBlankOrEnd e endChar = true := by
        cases e <;> rfl
      rw [List.headD_cons, ended] at start
      contradiction

private theorem head_of_pieces (hp : ArePieces e single ps) (tail : List Char) :
    (ps.flatMap Prod.snd ++ quote single :: tail).headD endChar ≠ endChar ∧
      (ps.head? ≠ some (' ', [' ']) →
        isBlankOrEnd e ((ps.flatMap Prod.snd ++ quote single :: tail).headD endChar) = false) := by
  cases ps with
  | nil =>
    refine ⟨?_, fun _ => ?_⟩
    · show quote single ≠ endChar
      cases single <;> decide
    · show isBlankOrEnd e (quote single) = false
      cases e <;> cases single <;> rfl
  | cons p ps =>
    obtain ⟨c, cs, same, there, fine⟩ := exists_start (hp p List.mem_cons_self)
    rw [List.flatMap_cons, same]
    exact ⟨there, fun other => fine (by simpa using other)⟩

theorem length_le_pieces (hp : ArePieces e single ps) :
    ps.length ≤ (ps.flatMap Prod.snd).length := by
  induction ps with
  | nil => exact Nat.le_refl _
  | cons p ps ih =>
    have others := ih fun q hq => hp q (List.mem_cons_of_mem _ hq)
    obtain ⟨c, cs, same, -⟩ := exists_start (hp p List.mem_cons_self)
    rw [List.flatMap_cons, same, List.length_append, List.length_cons, List.length_cons]
    omega

/-- What is read after a word between quotes. -/
private def afterQuoted (e : Edition) (single : Bool) (fuel n : Nat) (word : Folding) :
    Scan (List Char) := do
  if (← ahead 0) == quote single then return word.text
  else
    let (f, broken) ← quotedGap e n false word
    quotedText e single fuel (f.join broken)

private theorem run_quotedText_word (h : s.rest = ps.flatMap Prod.snd ++ rest)
    (hp : ∀ p ∈ ps, IsPiece e single p) (hr : Stops e single rest) (notEnd : s.ahead 0 ≠ endChar)
    (hm : s.mark.column ≠ 0) (hi : e = .v12 → s.indent ≤ s.mark.column)
    (room : ps.length < s.rest.length + 1) (fuel : Nat) (f : Folding) :
    (quotedText e single (fuel + 1) f).run s =
      (afterQuoted e single fuel (s.rest.length + 1) (f.append (ps.map Prod.fst))).run
        (s.after (ps.flatMap Prod.snd) rest) := by
  have inside : ¬(e = .v12 ∧ (s.mark.column : Int) < s.indent) := by
    rintro ⟨newer, outside⟩
    have := hi newer
    omega
  unfold quotedText
  rw [run_get_bind, atDocumentMark_of_column hm, beq_false_of_ne notEnd]
  simp only [Bool.or_false, Bool.false_eq_true, if_false, Bool.and_eq_true, decide_eq_true_eq,
    inside]
  rw [run_bind (run_quotedWord h hp hr room f)]
  rfl

private theorem run_afterQuoted_quote {tail : List Char} (h : s.rest = quote single :: tail)
    (fuel n : Nat) (word : Folding) :
    (afterQuoted e single fuel n word).run s = some (word.text, s) := by
  unfold afterQuoted
  rw [run_bind (run_ahead s 0), State.ahead_of_rest h, beq_self_eq_true]
  rfl

private theorem run_afterQuoted_gap (single : Bool) {n m : Nat}
    (h : s.rest = List.replicate (n + 1) ' ' ++ rest)
    (hr : isBlankOrEnd e (rest.headD endChar) = false) (hm : n + 1 < m) (fuel : Nat)
    {word : Folding} (hb : word.blanks = []) :
    (afterQuoted e single fuel m word).run s =
      (quotedText e single fuel
        (({ word with blanks := List.replicate (n + 1) ' ' } : Folding).join false)).run
        (s.after (List.replicate (n + 1) ' ') rest) := by
  have head : s.rest = ' ' :: (List.replicate n ' ' ++ rest) := h
  have other : (' ' == quote single) = false := by
    cases single <;> rfl
  unfold afterQuoted
  rw [run_bind (run_ahead s 0), State.ahead_of_rest head, other, if_neg (by simp),
    run_bind (run_quotedGap h hr hm word), hb, List.nil_append]

/-- The text between quotes is read up to the closing one, words and spaces in turn. -/
theorem run_quotedText {tail : List Char}
    (h : s.rest = ps.flatMap Prod.snd ++ quote single :: tail) (hp : ArePieces e single ps)
    (ht : Stops e single (quote single :: tail)) (hm : s.mark.column ≠ 0)
    (hi : e = .v12 → s.indent ≤ s.mark.column) {fuel : Nat} (hl : ps.length < fuel) (f : Folding)
    (hb : f.blanks = []) :
    (quotedText e single fuel f).run s =
      some (f.text ++ ps.map Prod.fst, s.after (ps.flatMap Prod.snd) (quote single :: tail)) := by
  induction hk : ps.length using Nat.strongRecOn generalizing s ps fuel f with
  | ind k ih =>
    obtain ⟨w, n, v, rfl, words, none, next⟩ := exists_split (' ', [' ']) ps
    obtain ⟨fuel, rfl⟩ : ∃ k, fuel = k + 1 := ⟨fuel - 1, by omega⟩
    have room := length_le_pieces hp
    have notEnd : s.ahead 0 ≠ endChar := by
      rw [State.ahead_zero, h]
      exact (head_of_pieces hp tail).1
    have word : ∀ p ∈ w, IsPiece e single p := fun p hpw => hp p (by simp [hpw]) (words p hpw)
    have later : ArePieces e single v := fun p hpv => hp p (by simp [hpv])
    have split : s.rest = w.flatMap Prod.snd ++
        (List.replicate n ' ' ++ (v.flatMap Prod.snd ++ quote single :: tail)) := by
      rw [h, List.flatMap_append, List.flatMap_append, flatMap_spaces]
      simp
    have length : s.rest.length = ((w ++ (List.replicate n (' ', [' ']) ++ v)).flatMap
        Prod.snd).length + (quote single :: tail).length := by
      rw [h, List.length_append]
    simp only [List.length_append, List.length_replicate] at hk hl room
    cases n with
    | zero =>
      obtain rfl := none rfl
      rw [run_quotedText_word split word ht notEnd hm hi (by omega), run_afterQuoted_quote rfl]
      simp [Folding.text, Folding.append]
    | succ n =>
      let gap := List.replicate (n + 1) ' '
      let s1 := s.after (w.flatMap Prod.snd) (gap ++ (v.flatMap Prod.snd ++ quote single :: tail))
      let s2 := s1.after gap (v.flatMap Prod.snd ++ quote single :: tail)
      have moved : s2.mark.column = s.mark.column + (w.flatMap Prod.snd).length + gap.length := by
        rw [State.after_column, State.after_column]
      have inside : e = .v12 → s.indent ≤ s2.mark.column := fun newer => by
        have := hi newer
        omega
      have gapped := run_afterQuoted_gap single (s := s1) (m := s.rest.length + 1) rfl
        ((head_of_pieces later tail).2 next) (by omega) fuel
        (show (f.append (w.map Prod.fst)).blanks = [] from hb)
      rw [run_quotedText_word split word (stops_space e single _) notEnd hm hi (by omega), gapped,
        ih v.length (by omega) (s := s2) rfl later (by omega) inside (by omega) _ rfl rfl,
        State.after_after, State.after_after]
      simp [gap, Folding.text, Folding.append, Folding.join, List.flatMap_append, flatMap_spaces]

/-- The style of a scalar between quotes. -/
def quotedStyle (single : Bool) : Style := if single then .singleQuoted else .doubleQuoted

theorem fetchToken_quoted {text : List Char} (h : s.rest = quote single :: text) :
    (fetchToken e).run s = (fetchQuoted e single).run s := by
  have value : atValue e s = false := by
    unfold atValue
    rw [State.ahead_of_rest h]
    cases single <;> rfl
  unfold fetchToken
  rw [run_get_bind, State.ahead_of_rest h, value]
  cases single <;> cases (s.flowDepth != 0) <;> simp [quote]

/-- A scalar is read from its first quote to its last one, if the newer edition has nothing against
what is after it. -/
theorem run_quotedScalar {tail : List Char}
    (h : s.rest = quote single :: (ps.flatMap Prod.snd ++ quote single :: tail))
    (hp : ArePieces e single ps) (ht : Stops e single (quote single :: tail))
    (hi : e = .v12 → s.indent ≤ s.mark.column)
    (ended : let t := s.after (quote single :: (ps.flatMap Prod.snd ++ [quote single])) tail
      e = .v12 → (quotedEnd s.mark).run t = some ((), t)) :
    (quotedScalar e single).run s =
      some (.scalar (quotedStyle single) (String.ofList (ps.map Prod.fst)),
        s.after (quote single :: (ps.flatMap Prod.snd ++ [quote single])) tail) := by
  let s1 := s.after [quote single] (ps.flatMap Prod.snd ++ quote single :: tail)
  let s2 := s1.after (ps.flatMap Prod.snd) (quote single :: tail)
  let s3 := s2.after [quote single] tail
  have passed : s3 = s.after (quote single :: (ps.flatMap Prod.snd ++ [quote single])) tail := by
    show ((s.after [quote single] _).after (ps.flatMap Prod.snd) _).after [quote single] tail = _
    rw [State.after_after, State.after_after]
    rfl
  rw [← passed] at ended ⊢
  have column : s1.mark.column = s.mark.column + 1 := State.after_column ..
  have length : ps.length < s1.rest.length + 1 := by
    have least := length_le_pieces hp
    show ps.length < (ps.flatMap Prod.snd ++ quote single :: tail).length + 1
    rw [List.length_append]
    omega
  have inside : e = .v12 → s.indent ≤ s1.mark.column := fun newer => by
    have := hi newer
    omega
  have text : (quotedText e single (s1.rest.length + 1) .empty).run s1 =
      some (ps.map Prod.fst, s2) :=
    run_quotedText (s := s1) rfl hp ht (by omega) inside length .empty rfl
  unfold quotedScalar
  rw [run_bind (run_mark s), run_bind (run_skip h), run_get_bind]
  show (quotedText e single (s1.rest.length + 1) .empty >>= _).run s1 = _
  rw [run_bind text, run_bind (run_skip (s := s2) rfl)]
  cases e with
  | v11 => rfl
  | v12 =>
    show (quotedEnd s.mark >>= _).run s3 = _
    rw [run_bind (ended rfl)]
    rfl

end TrafficIntent.Yaml.Scan
