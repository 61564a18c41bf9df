import TrafficIntent.Proofs.Yaml.Escapes
import TrafficIntent.Proofs.Yaml.FlowTokens

namespace TrafficIntent.Yaml.Scan

open Json (Gap SpellsChar)

variable {s : State} {text gap : List Char} {shown : List Token} {d : Nat}

theorem hexDigit?_eq (c : Char) : Json.hexDigit? c = hexValue? c := by
  unfold Json.hexDigit? hexValue?
  simp only [Char.isDigit, Bool.and_eq_true, decide_eq_true_eq]
  rfl

theorem hexNumber?_of_quad {a b c e : Char} {n : Nat} (digits : Json.hexQuad? a b c e = some n) :
    hexNumber? [a, b, c, e] = some n := by
  simp only [Json.hexQuad?, hexDigit?_eq, Option.bind_eq_bind, Option.bind_eq_some_iff] at digits
  obtain ⟨w, hw, x, hx, y, hy, z, hz, sum⟩ := digits
  have same := Option.some.inj sum
  simp [hexNumber?, hw, hx, hy, hz]
  omega

theorem char?_toNat (c : Char) : char? c.toNat = some c := by
  have valid : c.toNat.isValidChar := c.valid
  rw [char?, if_pos valid, Char.ofNat_toNat]

/-- A character stands for itself, or the escapes of JSON for it are escapes here as well. -/
theorem isEscapeOf_spelled {c : Char} {w : List Char} (spelled : SpellsChar c w) :
    Json.isPlain c = true ∧ w = [c] ∨
      ∃ l ds, w = '\\' :: l :: ds ∧ isBreak .v11 l = false ∧ isEscapeOf c w = true := by
  cases spelled with
  | plain shown => exact .inl ⟨shown, rfl⟩
  | short escape =>
    right
    refine ⟨_, _, rfl, ?_⟩
    unfold Json.shortEscape? at escape
    split at escape <;>
      first
      | contradiction
      | obtain rfl := Option.some.inj escape
        exact ⟨rfl, rfl⟩
  | @quad x y z e digits =>
    right
    refine ⟨_, _, rfl, rfl, ?_⟩
    have number := hexNumber?_of_quad digits
    have char : (some c.toNat).bind char? = some c := char?_toNat c
    show ([x, y, z, e].length == 4 && (hexNumber? [x, y, z, e]).bind char? == some c) = true
    rw [number, char, beq_self_eq_true]
    rfl

private theorem isPlain_apart {c : Char} (shown : Json.isPlain c = true) (other : c ≠ ' ') :
    isBlankOrEnd .v11 c = false ∧ c ≠ '\x22' ∧ c ≠ '\\' := by
  have away {x : Char} (hidden : Json.isPlain x = false) : (c == x) = false :=
    beq_false_of_ne (Json.isPlain_ne shown hidden)
  refine ⟨?_, Json.isPlain_ne shown (by decide), Json.isPlain_ne shown (by decide)⟩
  simp only [isBlankOrEnd, isBlank, isBreakOrEnd, isBreak, endChar, beq_false_of_ne other,
    away (x := '\t') (by decide), away (x := '\n') (by decide), away (x := '\r') (by decide),
    away (x := '\x85') (by decide), away (x := '\u2028') (by decide),
    away (x := '\u2029') (by decide), away (x := '\x00') (by decide)]
  rfl

/-- A character is read as what its spelling stands for, unless it is a space as it is. -/
private theorem arePieces_of_spelled {ps : List (Char × List Char)}
    (spelled : ∀ p ∈ ps, SpellsChar p.1 p.2) : ArePieces .v11 false ps := by
  rintro ⟨c, w⟩ hp other
  have chars : SpellsChar c w := spelled _ hp
  obtain ⟨shown, rfl⟩ | ⟨l, ds, rfl, letter, escape⟩ := isEscapeOf_spelled chars
  · obtain ⟨start, quote, backslash⟩ := isPlain_apart shown fun same => other (by rw [same])
    exact isPiece_self start quote backslash
  · exact isPiece_escape escape letter

private theorem run_quotedScalar_spelled {k : String} {v rest : List Char}
    (h : s.rest = '\x22' :: (v ++ '\x22' :: rest)) (spelled : Json.SpellsText k v) :
    (quotedScalar .v11 false).run s =
      some (.scalar .doubleQuoted k, s.after ('\x22' :: (v ++ ['\x22'])) rest) := by
  obtain ⟨ps, chars, text, rfl⟩ := spelled
  have quoted : s.rest = quote false :: (ps.flatMap Prod.snd ++ quote false :: rest) := h
  have read := run_quotedScalar quoted (arePieces_of_spelled chars) (stops_quote _ _ (by simp))
    (by simp) (by simp)
  rwa [← text, String.ofList_toList] at read

/-- The token that has just been fetched may start a key; it came after other tokens and is of some
characters. -/
def State.MayBeKey (s : State) (before : List Token) (w : List Char) : Prop :=
  ∃ k ks, s.candidates = k :: ks ∧ k.possible = true ∧ k.number = before.length ∧
    k.mark.line = s.mark.line ∧ s.mark = k.mark.passing w

/-- A text is fetched, and is a candidate where keys are allowed. -/
theorem fetches_flowText {k : String} {v : List Char}
    (h : s.Between (gap ++ '\x22' :: (v ++ '\x22' :: text)) shown (d + 1)) (space : Gap gap)
    (spelled : Json.SpellsText k v) :
    ∃ t, Fetches .v11 s t ∧ t.Between text (shown ++ [.scalar .doubleQuoted k]) (d + 1) ∧
      (s.keyAllowed = true → State.MayBeKey t shown ('\x22' :: (v ++ ['\x22']))) := by
  apply fetches_flowToken h (gapAt_succ space) (starts_of_indicator (by decide) _)
  intro u between allowed _
  obtain ⟨ks, saved, between', key⟩ := run_saveCandidate_between between
  let x := (u.remembering ks).allow false
  let w := '\x22' :: (v ++ ['\x22'])
  have quoted : u.rest = quote false :: (v ++ '\x22' :: text) := between.rest
  refine ⟨(x.after w text).push (.scalar .doubleQuoted k) u.mark, ?_, ?_, ?_, ?_⟩
  · rw [fetchToken_quoted quoted]
    unfold fetchQuoted
    rw [run_bind saved, run_bind (run_allowKey _ _), run_bind (run_mark _)]
    show (quotedScalar .v11 false >>= _).run x = _
    rw [run_bind (run_quotedScalar_spelled (s := x) between.rest spelled)]
    rfl
  · show text.length ≤ _
    simp
    omega
  · apply between_push
    exact between_moved between' text _ _ false
  · intro allowedS
    obtain ⟨ls, same⟩ := key ((allowed (by omega)).trans allowedS)
    refine ⟨_, ls, same, rfl, rfl, ?_, rfl⟩
    exact (Mark.passing_line u.mark w).symm

/-- A key is fetched with its colon. -/
theorem fetches_flowKey {k : String} {key : List Char}
    (h : s.Between (gap ++ (key ++ ':' :: text)) shown (d + 1)) (space : Gap gap)
    (spelled : Json.SpellsKey k key) (allowed : s.keyAllowed = true) :
    ∃ t, Fetches .v11 s t ∧
      t.Between text (shown ++ [.key, .scalar .doubleQuoted k, .value]) (d + 1) := by
  obtain ⟨v, blanks, chars, blank, rfl, near⟩ := spelled
  have there : s.Between (gap ++ '\x22' :: (v ++ '\x22' :: (blanks ++ ':' :: text))) shown
      (d + 1) := by simpa using h
  obtain ⟨t, name, between, candidate⟩ := fetches_flowText there space chars
  obtain ⟨c, ks, candidates, possible, number, line, mark⟩ := candidate allowed
  have near' : (t.mark.passing blanks).offset ≤ c.mark.offset + 1024 := by
    rw [mark, ← Mark.passing_append, Mark.passing_offset]
    simpa using near
  obtain ⟨u, colon, between'⟩ := fetches_flowColon between blank candidates possible number line near'
  exact ⟨u, name.trans colon, between'⟩

end TrafficIntent.Yaml.Scan
