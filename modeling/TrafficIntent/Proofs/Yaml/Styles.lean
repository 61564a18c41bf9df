import TrafficIntent.Proofs.Yaml.Escapes
import TrafficIntent.Proofs.Yaml.LiteralScalar

namespace TrafficIntent.Yaml

theorem isBlankOrEnd_of_isWritable {c : Char} (h : isWritable c = true) (space : c ≠ ' ')
    (line : c ≠ '\n') : isBlankOrEnd .v12 c = false := by
  have tab : c ≠ '\t' := by rintro rfl; simp [isWritable] at h
  have feed : c ≠ '\r' := by rintro rfl; simp [isWritable] at h
  have nul : c ≠ '\x00' := by rintro rfl; simp [isWritable] at h
  simp [isBlankOrEnd, isBlank, isBreakOrEnd, isBreak, endChar, *]

theorem isGap_of_isBlankOrEnd {c : Char} (h : isBlankOrEnd .v12 c = true) : isGap c = true := by
  simp [isBlankOrEnd, isBreakOrEnd, isBreak, isGap] at h ⊢
  grind

theorem hasPair_cons {p q : Char → Bool} {c : Char} {cs : List Char}
    (h : hasPair p q (c :: cs) = false) :
    hasPair p q cs = false ∧ ∀ d ∈ cs.head?, p c = true → q d = false := by
  cases cs with
  | nil => exact ⟨rfl, by simp⟩
  | cons d cs =>
    rw [hasPair, Bool.or_eq_false_iff] at h
    refine ⟨h.2, ?_⟩
    intro e he pc
    have same : d = e := by simpa using he
    subst same
    have both := h.1
    rw [pc, Bool.true_and] at both
    exact both

theorem hasPair_of_never {p q : Char → Bool} {cs : List Char}
    (h : ∀ c ∈ cs, ∀ d ∈ cs, (p c && q d) = false) : hasPair p q cs = false := by
  induction cs with
  | nil => rfl
  | cons c cs ih =>
    have later := ih fun x hx y hy => h x (List.mem_cons_of_mem _ hx) y (List.mem_cons_of_mem _ hy)
    cases cs with
    | nil => rfl
    | cons d cs =>
      rw [hasPair, h c List.mem_cons_self d (by simp), later]
      rfl

private theorem flows_of_pairs {cs : List Char} (writable : ∀ c ∈ cs, isWritable c = true)
    (lines : ∀ c ∈ cs, c ≠ '\n') (keys : hasPair (· == ':') isGap cs = false)
    (comments : hasPair isGap (· == '#') cs = false) (last : cs.getLast? ≠ some ':')
    (trailing : cs.getLast? ≠ some ' ') : Flows cs := by
  induction cs with
  | nil => trivial
  | cons c cs ih =>
    obtain ⟨keys, key⟩ := hasPair_cons keys
    obtain ⟨comments, comment⟩ := hasPair_cons comments
    have fine := writable c List.mem_cons_self
    refine ⟨?_, ?_⟩
    · by_cases space : c = ' '
      · subst space
        rw [if_pos rfl]
        cases cs with
        | nil => simp at trailing
        | cons d cs =>
          have other := comment d rfl rfl
          simpa using other
      · rw [if_neg space]
        refine ⟨isBlankOrEnd_of_isWritable fine space (lines c List.mem_cons_self), ?_⟩
        intro colon
        subst colon
        cases cs with
        | nil => simp at last
        | cons d cs =>
          have other := key d rfl rfl
          cases blank : isBlankOrEnd .v12 d with
          | false => exact blank
          | true => rw [isGap_of_isBlankOrEnd blank] at other; contradiction
    · cases cs with
      | nil => trivial
      | cons d cs =>
        rw [List.getLast?_cons_cons] at last trailing
        exact ih (fun e he => writable e (List.mem_cons_of_mem _ he))
          (fun e he => lines e (List.mem_cons_of_mem _ he)) keys comments last trailing

/-- A text of the plain style can stand plainly. -/
theorem isPlain_of_layout {cs : List Char} (hne : cs ≠ []) (h : (Layout.ofText cs).plain = true) :
    IsPlain cs := by
  obtain ⟨c, ds, rfl⟩ := List.exists_cons_of_ne_nil hne
  simp only [Layout.ofText, Bool.not_eq_true', Bool.or_eq_false_iff, hasIndicator] at h
  obtain ⟨⟨⟨⟨⟨⟨first, final⟩, -⟩, -⟩, -, special⟩, multiline⟩, marks, comments⟩ := h
  obtain ⟨⟨⟨⟨⟨bare, free⟩, dashes⟩, dots⟩, keys⟩, last⟩ := marks
  have lines : ∀ e ∈ c :: ds, e ≠ '\n' := by
    intro e he line
    have other := List.any_eq_false.1 multiline e he
    rw [line] at other
    exact other rfl
  have writable : ∀ e ∈ c :: ds, isWritable e = true := by
    intro e he
    have fine := List.any_eq_false.1 special e he
    simpa using fine
  have start : c ≠ ' ' := by simpa using first
  refine ⟨start, bare, ?_, ⟨dashes, dots⟩, flows_of_pairs writable lines keys comments ?_ ?_⟩
  · intro mark
    have marked : (c == '?' || c == '-') = true := by
      cases mark with
      | inl dash => rw [show c = '-' from dash]; rfl
      | inr query => rw [show c = '?' from query]; rfl
    rw [marked, Bool.true_and] at free
    cases ds with
    | nil => simp at free
    | cons d ds =>
      have other : isGap d = false := free
      cases blank : isBlankOrEnd .v12 d with
      | false => exact blank
      | true => rw [isGap_of_isBlankOrEnd blank] at other; contradiction
  · simpa using last
  · intro space
    rw [space] at final
    contradiction

/-- The four styles, each with what it asks for. -/
theorem style_cases (s : String) :
    (styleOf s = .plain ∧ '\n' ∉ s.toList ∧ (Layout.ofText s.toList).plain = true ∧
        isAmbiguous s = false) ∨
      (styleOf s = .singleQuoted ∧ '\n' ∉ s.toList ∧
        (Layout.ofText s.toList).singleQuoted = true) ∨
      styleOf s = .doubleQuoted ∨
      (styleOf s = .literal ∧ '\n' ∈ s.toList ∧ (Layout.ofText s.toList).block = true) := by
  unfold styleOf
  simp only [List.contains_eq_mem, decide_eq_true_eq]
  by_cases lines : '\n' ∈ s.toList
  · rw [if_pos lines]
    by_cases block : (Layout.ofText s.toList).block = true
    · simp [lines, block]
    · simp [block]
  · rw [if_neg lines]
    by_cases plain : ((Layout.ofText s.toList).plain && !isAmbiguous s) = true
    · rw [if_pos plain]
      simp only [Bool.and_eq_true, Bool.not_eq_true'] at plain
      exact .inl ⟨rfl, lines, plain⟩
    · rw [if_neg plain]
      by_cases quoted : (Layout.ofText s.toList).singleQuoted = true
      · simp [lines, quoted]
      · simp [quoted]

/-- A text that can be written on one line without escapes is. -/
theorem style_of_line {s : String}
    (h : ∀ c ∈ s.toList, isWritable c = true ∧ isLineBreak c = false) :
    styleOf s = .plain ∨ styleOf s = .singleQuoted := by
  have line : '\n' ∉ s.toList := by
    intro there
    have other := (h _ there).2
    contradiction
  have quoted : (Layout.ofText s.toList).singleQuoted = true := by
    have writable : (s.toList.any fun c => !isWritable c) = false := by
      rw [List.any_eq_false]
      intro c hc
      simp [(h c hc).1]
    have first : hasPair isLineBreak (· == ' ') s.toList = false := by
      apply hasPair_of_never
      intro c hc d _
      rw [(h c hc).2, Bool.false_and]
    have second : hasPair (· == ' ') isLineBreak s.toList = false := by
      apply hasPair_of_never
      intro c _ d hd
      rw [(h d hd).2, Bool.and_false]
    simp [Layout.ofText, writable, first, second]
  unfold styleOf
  simp only [List.contains_eq_mem, decide_eq_true_eq, if_neg line, quoted, if_true]
  split <;> simp

/-- A plain text is no number, and nothing else besides a text, to the writer. -/
theorem found_of_plain {s : String} (h : styleOf s = .plain) :
    isZeroFilled s = false ∧ plainFound s = .string s := by
  have cases := style_cases s
  simp only [h, reduceCtorEq, false_and, or_false, true_and] at cases
  obtain ⟨-, -, unambiguous⟩ := cases
  simpa [isAmbiguous] using unambiguous

theorem isPlain_of_style {s : String} (h : styleOf s = .plain) : IsPlain s.toList := by
  have cases := style_cases s
  simp only [h, reduceCtorEq, false_and, or_false, true_and] at cases
  obtain ⟨-, plain, unambiguous⟩ := cases
  refine isPlain_of_layout ?_ plain
  intro none
  have empty : s = "" := by simpa using none
  rw [empty] at unambiguous
  exact absurd unambiguous (by simp [isAmbiguous, plainFound])

theorem noBreak_of_plain {s : String} (h : styleOf s = .plain) :
    ∀ c ∈ s.toList, isLineBreak c = false := by
  have cases := style_cases s
  simp only [h, reduceCtorEq, false_and, or_false, true_and] at cases
  obtain ⟨-, plain, -⟩ := cases
  simp only [Layout.ofText, Bool.not_eq_true', Bool.or_eq_false_iff] at plain
  intro c hc
  have other := List.any_eq_false.1 plain.1.2 c hc
  simpa using other

/-- The characters that a text is read as: lines that only the older edition knows stay indented
between single quotes. -/
def readChars (n : Nat) (s : String) : List Char :=
  match styleOf s with
  | .singleQuoted =>
    indented n false s.toList ++
      if (s.toList.getLast?.map isLineBreak).getD false then spaces n else []
  | _ => s.toList

private theorem isWritable_of_special {cs : List Char}
    (h : (cs.any fun c => !isWritable c) = false) : ∀ c ∈ cs, isWritable c = true := by
  intro c hc
  have fine := List.any_eq_false.1 h c hc
  simpa using fine

theorem isWritable_of_singleQuoted {s : String} (h : styleOf s = .singleQuoted) :
    ∀ c ∈ s.toList, isWritable c = true ∧ c ≠ '\n' := by
  have cases := style_cases s
  simp only [h, reduceCtorEq, false_and, false_or, or_false, true_and] at cases
  obtain ⟨lines, layout⟩ := cases
  simp only [Layout.ofText, Bool.not_eq_true', Bool.or_eq_false_iff] at layout
  intro c hc
  exact ⟨isWritable_of_special layout.2.2 c hc, fun line => lines (line ▸ hc)⟩

theorem isWritable_of_literal {s : String} (h : styleOf s = .literal) :
    (∀ c ∈ s.toList, isWritable c = true) ∧ s.toList ≠ [] := by
  have cases := style_cases s
  simp only [h, reduceCtorEq, false_and, false_or, true_and] at cases
  obtain ⟨lines, layout⟩ := cases
  simp only [Layout.ofText, Bool.not_eq_true', Bool.or_eq_false_iff] at layout
  exact ⟨isWritable_of_special layout.2.2, List.ne_nil_of_mem lines⟩

theorem mem_indented {n : Nat} {start : Bool} {cs : List Char} {d : Char}
    (h : d ∈ indented n start cs) : d = ' ' ∨ d ∈ cs := by
  induction cs generalizing start with
  | nil => exact .inr h
  | cons c cs ih =>
    rw [indented] at h
    split at h
    · cases List.mem_cons.1 h with
      | inl same => exact .inr (by simp [same])
      | inr later => exact (ih later).imp_right (List.mem_cons_of_mem _)
    · split at h
      · cases List.mem_append.1 h with
        | inl margin => exact .inl (List.eq_of_mem_replicate margin)
        | inr line =>
          cases List.mem_cons.1 line with
          | inl same => exact .inr (by simp [same])
          | inr later => exact (ih later).imp_right (List.mem_cons_of_mem _)
      · cases List.mem_cons.1 h with
        | inl same => exact .inr (by simp [same])
        | inr later => exact (ih later).imp_right (List.mem_cons_of_mem _)

private theorem doubled_spaces (n : Nat) : (spaces n).flatMap Scan.doubled = spaces n := by
  unfold spaces
  induction n with
  | zero => rfl
  | succ n ih => rw [List.replicate_succ, List.flatMap_cons, ih]; rfl

private theorem length_le_indented (n : Nat) (start : Bool) (cs : List Char) :
    cs.length ≤ (indented n start cs).length := by
  induction cs generalizing start with
  | nil => exact Nat.le_refl _
  | cons c cs ih =>
    have step := ih true
    have step' := ih false
    rw [indented]
    split
    · simp; omega
    · split <;> simp <;> omega

/-- Lines are indented before quotes are doubled as well as after it. -/
theorem indented_doubled (n : Nat) (start : Bool) (cs : List Char) :
    indented n start (cs.flatMap Scan.doubled) = (indented n start cs).flatMap Scan.doubled := by
  induction cs generalizing start with
  | nil => rfl
  | cons c cs ih =>
    rw [List.flatMap_cons, indented]
    by_cases apostrophe : c = '\x27'
    · subst apostrophe
      have twice : Scan.doubled '\x27' = ['\x27', '\x27'] := rfl
      have brk : isLineBreak '\x27' = false := rfl
      rw [twice, brk]
      cases start <;> simp [indented, brk, ih, doubled_spaces, twice]
    · have once : Scan.doubled c = [c] := by simp [Scan.doubled, apostrophe]
      rw [once]
      cases brk : isLineBreak c <;> cases start <;> simp [indented, brk, ih, doubled_spaces, once]

/-- A text between single quotes. -/
theorem scalarText_singleQuoted {s : String} (n : Nat) (h : styleOf s = .singleQuoted) :
    scalarText n s =
      Scan.quote true :: ((readChars n s).flatMap Scan.doubled ++ [Scan.quote true]) := by
  unfold scalarText readChars
  rw [h]
  show '\x27' :: indented n false (s.toList.flatMap Scan.doubled) ++ _ ++ ['\x27'] = _
  simp only [List.flatMap_append, ← indented_doubled]
  cases (s.toList.getLast?.map isLineBreak).getD false with
  | false => simp [Scan.quote]
  | true => simp [Scan.quote, doubled_spaces]

theorem isBlankOrEnd_of_readChars {s : String} {n : Nat} (h : styleOf s = .singleQuoted) {d : Char}
    (hd : d ∈ readChars n s) (space : d ≠ ' ') : isBlankOrEnd .v12 d = false := by
  unfold readChars at hd
  rw [h] at hd
  have there : d ∈ s.toList := by
    cases List.mem_append.1 hd with
    | inl lines =>
      cases mem_indented lines with
      | inl blank => contradiction
      | inr there => exact there
    | inr tail =>
      split at tail
      · exact absurd (List.eq_of_mem_replicate tail) space
      · contradiction
  obtain ⟨writable, line⟩ := isWritable_of_singleQuoted h d there
  exact isBlankOrEnd_of_isWritable writable space line

theorem scalarText_doubleQuoted {s : String} (n : Nat) (h : styleOf s = .doubleQuoted) :
    scalarText n s =
      Scan.quote false :: ((readChars n s).flatMap escapedChar ++ [Scan.quote false]) := by
  unfold scalarText readChars
  rw [h]
  rfl

private theorem noBreak_of_length {n : Nat} (hn : n ≠ 0) {start : Bool} {cs : List Char}
    (hne : cs ≠ []) (last : (cs.getLast?.map isLineBreak).getD false = false)
    (length : (indented n start cs).length ≤ cs.length) :
    start = false ∧ ∀ c ∈ cs, isLineBreak c = false := by
  induction cs generalizing start with
  | nil => contradiction
  | cons c cs ih =>
    have grows (b : Bool) : cs.length ≤ (indented n b cs).length := length_le_indented n b cs
    rw [indented] at length
    cases brk : isLineBreak c with
    | true =>
      exfalso
      rw [if_pos brk, List.length_cons, List.length_cons] at length
      cases cs with
      | nil =>
        have same : isLineBreak c = false := last
        rw [brk] at same
        contradiction
      | cons d cs =>
        rw [List.getLast?_cons_cons] at last
        have shorter : (indented n true (d :: cs)).length ≤ (d :: cs).length := by omega
        have started := (ih (by simp) last shorter).1
        contradiction
    | false =>
      rw [if_neg (by simp [brk])] at length
      cases start with
      | true =>
        exfalso
        have more := grows false
        simp [spaces] at length
        omega
      | false =>
        refine ⟨rfl, ?_⟩
        simp only [Bool.false_eq_true, if_false, List.length_cons] at length
        intro d hd
        cases List.mem_cons.1 hd with
        | inl same => rw [same]; exact brk
        | inr later =>
          have rest : cs ≠ [] := List.ne_nil_of_mem later
          obtain ⟨e, es, rfl⟩ := List.exists_cons_of_ne_nil rest
          rw [List.getLast?_cons_cons] at last
          have shorter : (indented n false (e :: es)).length ≤ (e :: es).length := by omega
          exact (ih (by simp) last shorter).2 d later

private theorem indented_noBreak {n : Nat} {cs : List Char}
    (h : ∀ c ∈ cs, isLineBreak c = false) : indented n false cs = cs := by
  induction cs with
  | nil => rfl
  | cons c cs ih =>
    rw [indented, h c List.mem_cons_self, ih (fun d hd => h d (List.mem_cons_of_mem _ hd))]
    rfl

/-- Between single quotes a text stays the same if it has no line breaks. -/
theorem readChars_eq_iff {s : String} {n : Nat} (hn : n ≠ 0) (h : styleOf s = .singleQuoted) :
    readChars n s = s.toList ↔ ∀ c ∈ s.toList, isLineBreak c = false := by
  unfold readChars
  rw [h]
  show indented n false s.toList ++ _ = _ ↔ _
  constructor
  · intro same c hc
    have grows := length_le_indented n false s.toList
    have length := congrArg List.length same
    rw [List.length_append] at length
    cases last : (s.toList.getLast?.map isLineBreak).getD false with
    | true =>
      rw [last] at length
      simp [spaces] at length
      omega
    | false =>
      have shorter : (indented n false s.toList).length ≤ s.toList.length := by omega
      exact (noBreak_of_length hn (List.ne_nil_of_mem hc) last shorter).2 c hc
  · intro none
    have last : (s.toList.getLast?.map isLineBreak).getD false = false := by
      cases ending : s.toList.getLast? with
      | none => rfl
      | some c => exact none c (List.mem_of_getLast? ending)
    rw [indented_noBreak none, last]
    simp

theorem readChars_of_style {s : String} {n : Nat} (h : styleOf s ≠ .singleQuoted) :
    readChars n s = s.toList := by
  unfold readChars
  split
  next quoted => contradiction
  next => rfl

theorem written_plain {s : String} (n : Nat) (h : styleOf s = .plain) :
    endLine (scalarText n s) = s.toList ++ ['\n'] := by
  have same : scalarText n s = s.toList := by
    unfold scalarText
    rw [h]
  obtain ⟨c, cs, hs, -⟩ := (isPlain_of_style h).chars
  obtain ⟨d, last⟩ : ∃ d, s.toList.getLast? = some d := by
    rw [hs]
    exact ⟨_, List.getLast?_cons⟩
  rw [same]
  exact Scan.endLine_of_last last (noBreak_of_plain h d (List.mem_of_getLast? last))

theorem written_quoted {s : String} {n : Nat} {q : Char} {body : List Char}
    (h : scalarText n s = q :: (body ++ [q])) (hq : isLineBreak q = false) :
    endLine (scalarText n s) = q :: (body ++ [q, '\n']) := by
  have last : (q :: (body ++ [q])).getLast? = some q := by
    rw [← List.cons_append, List.getLast?_append]
    rfl
  rw [h, Scan.endLine_of_last last hq]
  simp

theorem written_literal {s : String} (n : Nat) (h : styleOf s = .literal) :
    scalarText n s = blockHeaderOf s.toList ++ '\n' :: indented n true s.toList := by
  unfold scalarText
  rw [h]

end TrafficIntent.Yaml
