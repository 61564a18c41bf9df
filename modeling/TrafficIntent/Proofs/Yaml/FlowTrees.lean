import TrafficIntent.Proofs.Yaml.FlowScalars
import TrafficIntent.Proofs.Yaml.FlowWords

namespace TrafficIntent.Yaml

open Json (Gap Leads Spells SpellsItems SpellsMembers gap_append)

/-- What stands before an item or entry between brackets. -/
def separator (first : Bool) : List Token := if first then [] else [.flowEntry]

mutual

def flowTokens : Json → List Token
  | .null => [.scalar .plain "null"]
  | .bool true => [.scalar .plain "true"]
  | .bool false => [.scalar .plain "false"]
  | .number n => [.scalar .plain (String.ofList (Json.numberText n))]
  | .string s => [.scalar .doubleQuoted s]
  | .array js => .flowSequenceStart :: (flowItemTokens true js ++ [.flowSequenceEnd])
  | .object ms => .flowMappingStart :: (flowMemberTokens true ms ++ [.flowMappingEnd])

def flowItemTokens : Bool → List Json → List Token
  | _, [] => []
  | first, j :: js => separator first ++ (flowTokens j ++ flowItemTokens false js)

def flowMemberTokens : Bool → List (String × Json) → List Token
  | _, [] => []
  | first, (k, j) :: ms => separator first ++
      (.key :: .scalar .doubleQuoted k :: .value :: (flowTokens j ++ flowMemberTokens false ms))

end

namespace Scan

variable {s : State} {before text w : List Char} {shown : List Token} {d : Nat}

theorem isBare_toDigits (n : Nat) :
    Nat.toDigits 10 n ≠ [] ∧ ∀ c ∈ Nat.toDigits 10 n, c.isAlphanum = true :=
  ⟨Nat.toDigits_ne_nil, fun _ hc =>
    isAlphanum_of_isDigit (Json.Scan.isDigit_of_mem_toDigits hc)⟩

/-- Whether a tree is written without brackets and quotes. -/
def isBareTree : Json → Bool
  | .null => true
  | .bool _ => true
  | .number _ => true
  | _ => false

theorem isBare_of_spells {j : Json} (spelled : Spells j w) (bare : isBareTree j = true) :
    IsBare w ∧ flowTokens j = [.scalar .plain (String.ofList w)] := by
  match j with
  | .null | .bool true | .bool false =>
    obtain rfl : w = _ := spelled
    exact ⟨⟨_, .inl rfl, by simp, List.all_eq_true.1 (by decide)⟩, rfl⟩
  | .number (.real _) => exact spelled.elim
  | .number (.integer (.ofNat n)) =>
    obtain ⟨-, rfl⟩ := spelled
    obtain ⟨some, digits⟩ := isBare_toDigits n
    exact ⟨⟨_, .inl (Json.Scan.numberText_ofNat n), some, digits⟩, rfl⟩
  | .number (.integer (.negSucc n)) =>
    obtain ⟨-, rfl⟩ := spelled
    obtain ⟨some, digits⟩ := isBare_toDigits (n + 1)
    exact ⟨⟨_, .inr (Json.Scan.numberText_negSucc n), some, digits⟩, rfl⟩

/-- Reading goes on to where, past some white space, a text is ahead. -/
def Comes (s : State) (text : List Char) (shown : List Token) (d : Nat) : Prop :=
  ∃ t gap, Fetches .v11 s t ∧ Gap gap ∧ t.Between (gap ++ text) shown d

theorem Comes.trans {t : State} (first : Fetches .v11 s t) (later : Comes t text shown d) :
    Comes s text shown d := by
  obtain ⟨u, gap, second, space, between⟩ := later
  exact ⟨u, gap, first.trans second, space, between⟩

/-- A comma that comes before an item or entry. -/
theorem exists_goesLead {first : Bool} {lead : List Char} (leads : Leads first lead)
    (h : s.Between (before ++ (lead ++ text)) shown (d + 1)) (space : Gap before) :
    ∃ t gap, Fetches .v11 s t ∧ Gap gap ∧
      t.Between (gap ++ text) (shown ++ separator first) (d + 1) ∧
      ((first = true → s.keyAllowed = true) → t.keyAllowed = true) := by
  cases first with
  | true =>
    refine ⟨s, before ++ lead, .refl _ s, gap_append space leads, ?_, fun allowed => allowed rfl⟩
    simpa [separator] using h
  | false =>
    obtain ⟨u, v, gap, gap', rfl⟩ := leads
    have comma : s.Between ((before ++ u) ++ ',' :: (v ++ text)) shown (d + 1) := by simpa using h
    obtain ⟨t, goes, between, key⟩ := fetches_comma comma (gap_append space gap)
    exact ⟨t, v, goes, gap', between, fun _ => key⟩

/-- What is behind an item: white space, and then a comma or the end. The white space may be any. -/
theorem exists_behindItem {js : List Json} {v : List Char} (spelled : SpellsItems false js v)
    (text : List Char) : ∃ u c cs, Gap u ∧ c ∈ [',', ']', '}'] ∧ v ++ ']' :: text = u ++ c :: cs ∧
      ∀ g, Gap g → ∃ v', SpellsItems false js v' ∧ g ++ c :: cs = v' ++ ']' :: text := by
  cases js with
  | nil => exact ⟨v, ']', text, spelled, by decide, rfl, fun g gap => ⟨g, gap, rfl⟩⟩
  | cons j js =>
    obtain ⟨lead, x, r, ⟨u, y, gap, gap', rfl⟩, value, others, rfl⟩ := spelled
    refine ⟨u, ',', y ++ (x ++ (r ++ ']' :: text)), gap, by decide, by simp, ?_⟩
    intro g space
    exact ⟨(g ++ ',' :: y) ++ (x ++ r), ⟨_, x, r, ⟨g, y, space, gap', rfl⟩, value, others, rfl⟩,
      by simp⟩

theorem exists_behindMember {ms : List (String × Json)} {v : List Char}
    (spelled : SpellsMembers false ms v) (text : List Char) :
    ∃ u c cs, Gap u ∧ c ∈ [',', ']', '}'] ∧ v ++ '}' :: text = u ++ c :: cs ∧
      ∀ g, Gap g → ∃ v', SpellsMembers false ms v' ∧ g ++ c :: cs = v' ++ '}' :: text := by
  cases ms with
  | nil => exact ⟨v, '}', text, spelled, by decide, rfl, fun g gap => ⟨g, gap, rfl⟩⟩
  | cons m ms =>
    obtain ⟨lead, key, colon, x, r, ⟨u, y, gap, gap', rfl⟩, name, space', value, others, rfl⟩ :=
      spelled
    refine ⟨u, ',', y ++ (key ++ ':' :: (colon ++ (x ++ (r ++ '}' :: text)))), gap, by decide,
      by simp, ?_⟩
    intro g space
    exact ⟨(g ++ ',' :: y) ++ (key ++ ':' :: (colon ++ (x ++ r))),
      ⟨_, key, colon, x, r, ⟨g, y, space, gap', rfl⟩, name, space', value, others, rfl⟩, by simp⟩

/-- What is between two brackets is read, and then the second one. -/
theorem exists_goesBracketed (map : Bool) {core : List Token}
    (h : s.Between (before ++ (opening map).1 :: (w ++ (closing map).1 :: text)) shown d)
    (space : GapAt d before)
    (inside : ∀ {t : State}, t.keyAllowed = true →
      t.Between ([] ++ (w ++ (closing map).1 :: text)) (shown ++ [(opening map).2]) (d + 1) →
      Comes t ((closing map).1 :: text) (shown ++ [(opening map).2] ++ core) (d + 1)) :
    ∃ t, Fetches .v11 s t ∧
      t.Between text (shown ++ (opening map).2 :: (core ++ [(closing map).2])) d := by
  obtain ⟨t, opened, between, allowed⟩ := fetches_flowOpening map h space
  obtain ⟨u, gap, read, gap', between'⟩ := inside allowed between
  obtain ⟨v, closed, between''⟩ := fetches_flowClosing map between' gap'
  refine ⟨v, (opened.trans read).trans closed, ?_⟩
  simpa using between''

mutual

/-- A value is read with the white space behind it or up to there. -/
theorem comes_value (j : Json) {s : State} {before w behind text : List Char} {c : Char}
    {shown : List Token} {d : Nat} (spelled : Spells j w)
    (h : s.Between (before ++ (w ++ (behind ++ c :: text))) shown (d + 1)) (space : Gap before)
    (space' : Gap behind) (stop : c ∈ [',', ']', '}']) :
    Comes s (c :: text) (shown ++ flowTokens j) (d + 1) := by
  match j with
  | .null | .bool _ | .number _ =>
    obtain ⟨bare, tokens⟩ := isBare_of_spells spelled rfl
    obtain ⟨t, goes, between⟩ := fetches_flowPlain h space bare space' stop
    rw [tokens]
    exact ⟨t, [], goes, Json.gap_nil, between⟩
  | .string k =>
    obtain ⟨v, chars, rfl⟩ := spelled
    obtain ⟨t, goes, between, -⟩ := fetches_flowText (by simpa using h) space chars
    exact ⟨t, behind, goes, space', between⟩
  | .array js =>
    obtain ⟨v, items, rfl⟩ := spelled
    have list : s.Between (before ++ '[' :: (v ++ ']' :: (behind ++ c :: text))) shown (d + 1) := by
      simpa using h
    obtain ⟨t, goes, between⟩ := exists_goesBracketed false list (gapAt_succ space)
      fun _ inside => comes_items js items inside Json.gap_nil
    exact ⟨t, behind, goes, space', between⟩
  | .object ms =>
    obtain ⟨v, members, rfl⟩ := spelled
    have map : s.Between (before ++ '{' :: (v ++ '}' :: (behind ++ c :: text))) shown (d + 1) := by
      simpa using h
    obtain ⟨t, goes, between⟩ := exists_goesBracketed true map (gapAt_succ space)
      fun allowed inside => comes_members ms members inside Json.gap_nil fun _ => allowed
    exact ⟨t, behind, goes, space', between⟩

theorem comes_items (js : List Json) {s : State} {first : Bool} {before w text : List Char}
    {shown : List Token} {d : Nat} (spelled : SpellsItems first js w)
    (h : s.Between (before ++ (w ++ ']' :: text)) shown (d + 1)) (space : Gap before) :
    Comes s (']' :: text) (shown ++ flowItemTokens first js) (d + 1) := by
  match js with
  | [] =>
    exact ⟨s, before ++ w, .refl _ s, gap_append space spelled, by simpa [flowItemTokens] using h⟩
  | j :: js =>
    obtain ⟨lead, v, r, leads, value, others, rfl⟩ := spelled
    obtain ⟨u, c, cs, gap, stop, behind, any⟩ := exists_behindItem others text
    have there : s.Between (before ++ (lead ++ (v ++ (r ++ ']' :: text)))) shown (d + 1) := by
      simpa using h
    rw [behind] at there
    obtain ⟨t, gap', goes, space', between, -⟩ := exists_goesLead leads there space
    obtain ⟨y, left, goes', gap'', between'⟩ := comes_value j value between space' gap stop
    obtain ⟨r', others', same⟩ := any left gap''
    rw [same] at between'
    have rest := comes_items js others' (show y.Between ([] ++ _) _ _ from between') Json.gap_nil
    refine Comes.trans (goes.trans goes') ?_
    simpa [flowItemTokens] using rest

theorem comes_members (ms : List (String × Json)) {s : State} {first : Bool}
    {before w text : List Char} {shown : List Token} {d : Nat}
    (spelled : SpellsMembers first ms w)
    (h : s.Between (before ++ (w ++ '}' :: text)) shown (d + 1)) (space : Gap before)
    (allowed : first = true → s.keyAllowed = true) :
    Comes s ('}' :: text) (shown ++ flowMemberTokens first ms) (d + 1) := by
  match ms with
  | [] =>
    exact ⟨s, before ++ w, .refl _ s, gap_append space spelled, by simpa [flowMemberTokens] using h⟩
  | (k, j) :: ms =>
    obtain ⟨lead, key, colon, v, r, leads, name, space', value, others, rfl⟩ := spelled
    obtain ⟨u, c, cs, gap, stop, behind, any⟩ := exists_behindMember others text
    have there : s.Between
        (before ++ (lead ++ (key ++ ':' :: (colon ++ (v ++ (r ++ '}' :: text)))))) shown (d + 1) := by
      simpa using h
    rw [behind] at there
    obtain ⟨t, gap', goes, space'', between, key'⟩ := exists_goesLead leads there space
    obtain ⟨x, goes', between'⟩ := fetches_flowKey between space'' name (key' allowed)
    obtain ⟨y, left, goes'', gap'', between''⟩ := comes_value j value between' space' gap stop
    obtain ⟨r', others', same⟩ := any left gap''
    rw [same] at between''
    have rest := comes_members ms others' (show y.Between ([] ++ _) _ _ from between'')
      Json.gap_nil nofun
    refine Comes.trans ((goes.trans goes').trans goes'') ?_
    simpa [flowMemberTokens] using rest

end

end Scan

end TrafficIntent.Yaml
