import TrafficIntent.Proofs.Yaml.FlowTrees

namespace TrafficIntent.Yaml

open Json (Gap Leads Spells SpellsItems SpellsMembers)

/-- Nothing in a text that the older edition refuses. -/
def Admitted (w : List Char) : Prop := ∀ c ∈ w, isAdmitted c = true

theorem admitted_append {u v : List Char} : Admitted (u ++ v) ↔ Admitted u ∧ Admitted v :=
  List.forall_mem_append

theorem admitted_cons {c : Char} {v : List Char} :
    Admitted (c :: v) ↔ isAdmitted c = true ∧ Admitted v :=
  List.forall_mem_cons

theorem isAdmitted_of_low {c : Char} (low : 0x20 ≤ c.toNat) (high : c.toNat ≤ 0x7E) :
    isAdmitted c = true := by
  simp [isAdmitted, low, high]

theorem isAdmitted_of_isAlphanum {c : Char} (letter : c.isAlphanum = true) :
    isAdmitted c = true := by
  rw [Char.isAlphanum, Bool.or_eq_true] at letter
  cases letter with
  | inl letter =>
    have bounds := toNat_of_isAlpha letter
    exact isAdmitted_of_low (by omega) (by omega)
  | inr digit =>
    have bounds := toNat_of_isDigit digit
    exact isAdmitted_of_low (by omega) (by omega)

theorem isAdmitted_of_hexDigit? {c : Char} {n : Nat} (digit : Json.hexDigit? c = some n) :
    isAdmitted c = true := by
  have within {a b : Char} (low : 0x20 ≤ a.toNat) (high : b.toNat ≤ 0x7E) (h : a ≤ c ∧ c ≤ b) :
      isAdmitted c = true :=
    isAdmitted_of_low (Nat.le_trans low (UInt32.le_iff_toNat_le.1 h.1))
      (Nat.le_trans (UInt32.le_iff_toNat_le.1 h.2) high)
  unfold Json.hexDigit? at digit
  split at digit
  next decimal => exact within (by decide) (by decide) decimal
  split at digit
  next small => exact within (by decide) (by decide) small
  split at digit
  next large => exact within (by decide) (by decide) large
  contradiction

theorem isAdmitted_of_isPlain {c : Char} (shown : Json.isPlain c = true) : isAdmitted c = true := by
  simp only [Json.isPlain, Bool.and_eq_true, Bool.or_eq_true, decide_eq_true_eq, Bool.not_eq_true',
    List.contains_eq_mem, decide_eq_false_iff_not, List.mem_cons, not_or] at shown
  obtain ⟨range, -, -, -, -, first, second, -⟩ := shown
  cases range with
  | inl ascii => exact isAdmitted_of_low ascii.1 ascii.2
  | inr high =>
    have apart : c.toNat ≠ 0xFFFE ∧ c.toNat ≠ 0xFFFF :=
      ⟨fun same => first (Char.toNat_inj.1 same), fun same => second (Char.toNat_inj.1 same)⟩
    simp only [isAdmitted, Bool.or_eq_true, Bool.and_eq_true, decide_eq_true_eq]
    omega

theorem admitted_of_gap {w : List Char} (gap : Gap w) : Admitted w := by
  intro c hc
  have space := gap c hc
  simp only [Json.Scan.isSpace, Bool.or_eq_true, beq_iff_eq] at space
  rcases space with ((rfl | rfl) | rfl) | rfl <;> rfl

theorem admitted_of_spellsChar {c : Char} {w : List Char} (spelled : Json.SpellsChar c w) :
    Admitted w := by
  cases spelled with
  | plain shown => exact admitted_cons.2 ⟨isAdmitted_of_isPlain shown, nofun⟩
  | short escape =>
    unfold Json.shortEscape? at escape
    split at escape <;>
      first
      | contradiction
      | exact admitted_cons.2 ⟨rfl, admitted_cons.2 ⟨rfl, nofun⟩⟩
  | quad digits =>
    simp only [Json.hexQuad?, Option.bind_eq_bind, Option.bind_eq_some_iff] at digits
    obtain ⟨w, hw, x, hx, y, hy, z, hz, -⟩ := digits
    have hex {c : Char} {n : Nat} (digit : Json.hexDigit? c = some n) {v : List Char}
        (others : Admitted v) : Admitted (c :: v) :=
      admitted_cons.2 ⟨isAdmitted_of_hexDigit? digit, others⟩
    exact admitted_cons.2 ⟨rfl, admitted_cons.2 ⟨rfl, hex hw (hex hx (hex hy (hex hz nofun)))⟩⟩

theorem admitted_of_spellsText {k : String} {v : List Char} (spelled : Json.SpellsText k v) :
    Admitted v := by
  obtain ⟨ps, chars, -, rfl⟩ := spelled
  intro c hc
  obtain ⟨p, hp, member⟩ := List.mem_flatMap.1 hc
  exact admitted_of_spellsChar (chars p hp) c member

theorem admitted_of_isBare {w : List Char} (bare : IsBare w) : Admitted w := by
  obtain ⟨v, rfl | rfl, -, letters⟩ := bare
  · exact fun c hc => isAdmitted_of_isAlphanum (letters c hc)
  · exact admitted_cons.2 ⟨rfl, fun c hc => isAdmitted_of_isAlphanum (letters c hc)⟩

theorem admitted_of_lead {first : Bool} {lead : List Char} (leads : Leads first lead) :
    Admitted lead := by
  cases first with
  | true => exact admitted_of_gap leads
  | false =>
    obtain ⟨u, v, gap, gap', rfl⟩ := leads
    exact admitted_append.2 ⟨admitted_of_gap gap, admitted_cons.2 ⟨rfl, admitted_of_gap gap'⟩⟩

theorem admitted_of_key {k : String} {key : List Char} (spelled : Json.SpellsKey k key) :
    Admitted key := by
  obtain ⟨v, blanks, chars, blank, rfl, -⟩ := spelled
  have gap := admitted_of_gap (Json.gap_of_blanks blank)
  exact admitted_cons.2
    ⟨rfl, admitted_append.2 ⟨admitted_of_spellsText chars, admitted_cons.2 ⟨rfl, gap⟩⟩⟩

mutual

theorem admitted_of_spells (j : Json) {w : List Char} (spelled : Spells j w) : Admitted w := by
  match j with
  | .null | .bool _ | .number _ => exact admitted_of_isBare (Scan.isBare_of_spells spelled rfl).1
  | .string k =>
    obtain ⟨v, chars, rfl⟩ := spelled
    exact admitted_cons.2
      ⟨rfl, admitted_append.2 ⟨admitted_of_spellsText chars, admitted_cons.2 ⟨rfl, nofun⟩⟩⟩
  | .array js =>
    obtain ⟨v, items, rfl⟩ := spelled
    exact admitted_cons.2
      ⟨rfl, admitted_append.2 ⟨admitted_of_items js items, admitted_cons.2 ⟨rfl, nofun⟩⟩⟩
  | .object ms =>
    obtain ⟨v, members, rfl⟩ := spelled
    exact admitted_cons.2
      ⟨rfl, admitted_append.2 ⟨admitted_of_members ms members, admitted_cons.2 ⟨rfl, nofun⟩⟩⟩

theorem admitted_of_items (js : List Json) {first : Bool} {w : List Char}
    (spelled : SpellsItems first js w) : Admitted w := by
  match js with
  | [] => exact admitted_of_gap spelled
  | j :: js =>
    obtain ⟨lead, v, r, leads, value, others, rfl⟩ := spelled
    exact admitted_append.2 ⟨admitted_of_lead leads,
      admitted_append.2 ⟨admitted_of_spells j value, admitted_of_items js others⟩⟩

theorem admitted_of_members (ms : List (String × Json)) {first : Bool} {w : List Char}
    (spelled : SpellsMembers first ms w) : Admitted w := by
  match ms with
  | [] => exact admitted_of_gap spelled
  | (k, j) :: ms =>
    obtain ⟨lead, key, gap, v, r, leads, name, space, value, others, rfl⟩ := spelled
    have rest := admitted_append.2 ⟨admitted_of_spells j value, admitted_of_members ms others⟩
    exact admitted_append.2 ⟨admitted_of_lead leads, admitted_append.2 ⟨admitted_of_key name,
      admitted_cons.2 ⟨rfl, admitted_append.2 ⟨admitted_of_gap space, rest⟩⟩⟩⟩

end

namespace Scan

variable {s : State} {shown : List Token}

/-- At the end of the text nothing is left to be closed. -/
theorem run_fetchEnd (h : s.Between [] shown 0) :
    ∃ t, fetchEnd.run s = some ((), t) ∧ t.shown = shown ++ [.streamEnd] := by
  let u := if s.mark.column = 0 then s else { s with mark := s.mark.nextLine }
  have between : u.Between [] shown 0 := by
    by_cases start : s.mark.column = 0
    · rwa [show u = s from if_pos start]
    · rw [show u = { s with mark := s.mark.nextLine } from if_neg start, ← h.rest]
      exact between_moved h _ _ s.atLineStart s.keyAllowed
  have none : (u.candidates.any fun k => k.possible && k.required) = false := by
    rw [List.any_eq_false]
    intro k hk
    simp [between.free k hk]
  refine ⟨(u.allow false).push .streamEnd u.mark, ?_, ?_⟩
  · unfold fetchEnd
    have moved : (if s.mark.column = 0 then s else { s with mark := s.mark.nextLine }) = u := rfl
    rw [run_modify_bind, moved, run_get_bind, none]
    simp only [Bool.false_eq_true, if_false]
    rw [run_bind (run_closeBlocks_between between (-1))]
    rfl
  · rw [State.shown_push]
    exact congrArg (· ++ [Token.streamEnd]) between.shown

theorem fetches_flowEnd {gap : List Char} (h : s.Between gap shown 0) (space : GapAt 0 gap)
    {fuel : Nat} (enough : gap.length < fuel) :
    ∃ t, (fetchAll .v11 fuel).run s = some ((), t) ∧ t.shown = shown ++ [.streamEnd] := by
  obtain ⟨fuel, rfl⟩ : ∃ k, fuel = k + 1 := ⟨fuel - 1, by omega⟩
  have last : s.Between (gap ++ []) shown 0 := by rwa [List.append_nil]
  obtain ⟨u, between, -, -, settled⟩ := exists_settled last space rfl
  obtain ⟨t, ended, shown'⟩ := run_fetchEnd between
  have none : u.ahead 0 = endChar := by
    rw [State.ahead_zero, between.rest]
    rfl
  refine ⟨t, ?_, shown'⟩
  rw [settled fuel, none]
  exact ended

end Scan

/-- The tokens of a text that spells an object. -/
theorem exists_tokens {ms : List (String × Json)} {w before behind : List Char} {text : String}
    (chars : text.toList = before ++ (w ++ behind)) (spelled : Spells (.object ms) w)
    (space : GapAt 0 before) (space' : GapAt 0 behind) :
    ∃ lexemes, tokens? .v11 text = some lexemes ∧
      lexemes.map Lexeme.token = flowTokens (.object ms) ++ [.streamEnd] := by
  have admitted : (State.ofText text).rest.all isAdmitted = true := by
    have all : Admitted text.toList := by
      rw [chars]
      exact admitted_append.2 ⟨admitted_of_gap space.1,
        admitted_append.2 ⟨admitted_of_spells _ spelled, admitted_of_gap space'.1⟩⟩
    exact List.all_eq_true.2 all
  obtain ⟨v, members, rfl⟩ := spelled
  let s := State.ofText text
  have start : s.Between (before ++ '{' :: (v ++ '}' :: behind)) [] 0 :=
    { rest := chars.trans (by simp)
      shown := rfl
      flowDepth := rfl
      indent := rfl
      levels := rfl
      free := by simp [s, State.ofText, KeyCandidate.none]
      count := rfl }
  obtain ⟨t, goes, between⟩ := Scan.exists_goesBracketed true start space
    fun allowed inside => Scan.comes_members ms members inside Json.gap_nil fun _ => allowed
  obtain ⟨left, enough, run⟩ := goes (s.rest.length + 1) (Nat.lt_succ_self _)
  obtain ⟨u, fetched, shown⟩ := Scan.fetches_flowEnd between space' (between.rest ▸ enough)
  refine ⟨u.tokens.toList, ?_, ?_⟩
  · unfold tokens?
    simp only [admitted]
    show ((Scan.fetchAll .v11 (s.rest.length + 1)).run s).map _ = _
    rw [run, fetched]
    rfl
  · exact shown

end TrafficIntent.Yaml
