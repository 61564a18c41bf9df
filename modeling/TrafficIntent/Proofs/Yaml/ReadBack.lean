import TrafficIntent.Proofs.Json.Members
import TrafficIntent.Proofs.Yaml.Nodes

namespace TrafficIntent

namespace Json

mutual

/-- The texts in a tree; keys are not among them. -/
def textsIn : Json → List String
  | .string s => [s]
  | .array js => textsInItems js
  | .object ms => textsInMembers ms
  | _ => []

def textsInItems : List Json → List String
  | [] => []
  | j :: js => textsIn j ++ textsInItems js

def textsInMembers : List (String × Json) → List String
  | [] => []
  | (_, j) :: ms => textsIn j ++ textsInMembers ms

end

end Json

namespace Yaml

open Json (textsIn textsInItems textsInMembers)

/-- A text is read back if it is written between double quotes, or if it has another style and what
this style asks for. -/
def ReadsBack (s : String) : Prop :=
  match styleOf s with
  | .plain => (Value.ofPlain s).tree = .ok (.string s)
  | .singleQuoted => ∀ c ∈ s.toList, isLineBreak c = false
  | .literal => KeepsLines true s.toList
  | _ => True

/-- A text of one line is read back if it is where it stands plainly. -/
theorem readsBack_of_line {s : String} (line : ∀ c ∈ s.toList, isLineBreak c = false)
    (plain : styleOf s = .plain → (Value.ofPlain s).tree = .ok (.string s)) : ReadsBack s := by
  unfold ReadsBack
  obtain style | ⟨style, -⟩ | style | ⟨style, there, -⟩ := style_cases s
  · rw [style.1]
    exact plain style.1
  · rw [style]
    exact line
  · rw [style]
    trivial
  · have other := line _ there
    contradiction

theorem tree_text_iff {s : String} {n : Nat} (hn : n ≠ 0)
    (lines : Keeps s) :
    (Value.ofScalar none (styleOf s) (String.ofList (readChars n s))).tree = .ok (.string s) ↔
      ReadsBack s := by
  have text (style : Style) (other : style ≠ .plain) (cs : List Char) :
      (Value.ofScalar none style (String.ofList cs)).tree = .ok (.string s) ↔ cs = s.toList := by
    have value : Value.ofScalar none style (String.ofList cs) = .string (String.ofList cs) := by
      unfold Value.ofScalar
      rw [if_pos other]
    rw [value, Value.tree]
    constructor
    · intro same
      have same : String.ofList cs = s := by simpa using same
      rw [← same, String.toList_ofList]
    · intro same
      rw [same, String.ofList_toList]
  unfold ReadsBack
  cases style_cases s with
  | inl plain =>
    rw [readChars_of_style (by simp [plain.1]), plain.1, String.ofList_toList]
    exact Iff.rfl
  | inr others =>
    cases others with
    | inl quoted =>
      rw [quoted.1, text _ (by simp), readChars_eq_iff hn quoted.1]
    | inr others =>
      cases others with
      | inl style =>
        rw [readChars_of_style (by simp [style]), style, text _ (by simp)]
        simp
      | inr literal =>
        rw [readChars_of_style (by simp [literal.1]), literal.1, text _ (by simp)]
        simpa using lines literal.1

private theorem tree_number {n : Int} (hn : 0 ≤ n ∧ n < 65536) :
    (Value.ofPlain (String.ofList (Json.numberText (.integer n)))).tree =
      .ok (.number (.integer n)) := by
  obtain ⟨k, rfl⟩ := Int.eq_ofNat_of_zero_le hn.1
  rw [Json.Scan.numberText_ofNat, ofPlain_toDigits (by omega), Value.tree]
  rfl

theorem trees_cons_iff (v : Value) (vs : List Value) (j : Json) (js : List Json) :
    Value.trees (v :: vs) = .ok (j :: js) ↔ v.tree = .ok j ∧ Value.trees vs = .ok js := by
  rw [Value.trees]
  cases v.tree with
  | error e => simp [bind, Except.bind]
  | ok i =>
    cases Value.trees vs with
    | error e => simp [bind, Except.bind]
    | ok is => simp [bind, Except.bind, pure, Except.pure]

theorem members_cons_iff (k : String) (v : Value) (vs : List (Value × Value)) (j : Json)
    (ms : List (String × Json)) :
    Value.members ((.string k, v) :: vs) = .ok ((k, j) :: ms) ↔
      v.tree = .ok j ∧ Value.members vs = .ok ms := by
  rw [Value.members]
  show (v.tree >>= fun j => Value.members vs >>= fun es => pure ((k, j) :: es)) = _ ↔ _
  cases v.tree with
  | error e => simp [bind, Except.bind]
  | ok i =>
    cases Value.members vs with
    | error e => simp [bind, Except.bind]
    | ok is => simp [bind, Except.bind, pure, Except.pure]

theorem members_fst {n : Nat} {ms l : List (String × Json)}
    (h : Value.members (memberValues n ms) = .ok l) : l.map Prod.fst = ms.map Prod.fst := by
  induction ms generalizing l with
  | nil =>
    have none : [] = l := by simpa [memberValues, Value.members] using h
    rw [← none, List.map_nil]
  | cons m ms ih =>
    obtain ⟨k, j⟩ := m
    rw [memberValues, Value.members] at h
    change ((valueOf (valueColumn n j) j).tree >>= fun i =>
      Value.members (memberValues n ms) >>= fun es => pure ((k, i) :: es)) = _ at h
    cases value : (valueOf (valueColumn n j) j).tree with
    | error e => rw [value] at h; contradiction
    | ok i =>
      cases rest : Value.members (memberValues n ms) with
      | error e => rw [value, rest] at h; contradiction
      | ok es =>
        rw [value, rest] at h
        have same : (k, i) :: es = l := by simpa [bind, Except.bind, pure, Except.pure] using h
        rw [← same, List.map_cons, ih rest, List.map_cons]

mutual

/-- A tree is read back if its texts are. -/
theorem tree_valueOf_iff (n : Nat) (j : Json) (hj : IsRegular Keeps j)
    (hn : ∀ s, j = .string s → n ≠ 0) :
    (valueOf n j).tree = .ok j.sorted ↔ ∀ s ∈ textsIn j, ReadsBack s := by
  match j with
  | .null => exact hj.elim
  | .bool _ => exact hj.elim
  | .number (.real _) => exact hj.elim
  | .number (.integer k) =>
    rw [valueOf, tree_number hj]
    simp [textsIn, Json.sorted]
  | .string s =>
    rw [valueOf, show (Json.string s).sorted = .string s from rfl, tree_text_iff (hn s rfl) hj]
    simp [textsIn]
  | .array js =>
    have items := trees_itemValues_iff n js hj
    rw [valueOf, Json.sorted, Value.tree, textsIn, ← items]
    cases Value.trees (itemValues n js) with
    | error e => simp [bind, Except.bind]
    | ok is => simp [bind, Except.bind, pure, Except.pure]
  | .object ms =>
    have members := members_memberValues_iff n ms hj.2
    rw [valueOf, Json.sorted, Value.tree, textsIn, ← members]
    cases read : Value.members (memberValues n ms) with
    | error e => simp [bind, Except.bind]
    | ok l =>
      have keys : l.map Prod.fst = (Json.sortedMembers ms).map Prod.fst := by
        rw [members_fst read, Json.sortedMembers_fst]
      have distinct : (l.map Prod.fst).Nodup := by
        rw [members_fst read]
        exact hj.1
      constructor
      · intro same
        have same : Json.inKeyOrder l = Json.inKeyOrder (Json.sortedMembers ms) := by
          simpa [bind, Except.bind, pure, Except.pure] using same
        rw [Json.inKeyOrder_inj distinct keys same]
      · intro same
        have same : l = Json.sortedMembers ms := by simpa using same
        rw [same]
        rfl

theorem trees_itemValues_iff (n : Nat) (js : List Json) (hj : RegularItems Keeps js) :
    Value.trees (itemValues n js) = .ok (Json.sortedItems js) ↔
      ∀ s ∈ textsInItems js, ReadsBack s := by
  match js with
  | [] =>
    rw [itemValues, Value.trees]
    simp [textsInItems, Json.sortedItems]
  | j :: js =>
    rw [itemValues, Json.sortedItems, trees_cons_iff, tree_valueOf_iff (n + 2) j hj.2.1 (by simp),
      trees_itemValues_iff n js hj.2.2, textsInItems]
    simp [or_imp, forall_and]

theorem members_memberValues_iff (n : Nat) (ms : List (String × Json)) (hm : RegularMembers Keeps ms) :
    Value.members (memberValues n ms) = .ok (Json.sortedMembers ms) ↔
      ∀ s ∈ textsInMembers ms, ReadsBack s := by
  match ms with
  | [] =>
    rw [memberValues, Value.members]
    simp [textsInMembers, Json.sortedMembers]
  | (k, j) :: ms =>
    have column : ∀ s, j = .string s → valueColumn n j ≠ 0 := by
      intro s same
      rw [same]
      simp [valueColumn]
    rw [memberValues, Json.sortedMembers, members_cons_iff,
      tree_valueOf_iff (valueColumn n j) j hm.2.1 column, members_memberValues_iff n ms hm.2.2,
      textsInMembers]
    simp [or_imp, forall_and]

end

end Yaml

end TrafficIntent
