import TrafficIntent.Proofs.Json.Steps

/-!
The text of a tree is read back as the tree. Binary numbers are left out here, since they are read
with rounding; whole numbers have to be of 64 bits, and the tree no deeper than its reader goes.
-/

namespace TrafficIntent.Json

mutual

/-- Trees of at most as many levels of lists and objects, whose numbers are whole and of 64 bits. -/
def IsExact : Nat → Json → Prop
  | _, .number (.integer n) => -2 ^ 63 ≤ n ∧ n < 2 ^ 64
  | _, .number (.real _) => False
  | d, .array js => 0 < d ∧ ExactItems (d - 1) js
  | d, .object ms => 0 < d ∧ ExactMembers (d - 1) ms
  | _, _ => True

def ExactItems : Nat → List Json → Prop
  | _, [] => True
  | d, j :: js => IsExact d j ∧ ExactItems d js

def ExactMembers : Nat → List (String × Json) → Prop
  | _, [] => True
  | d, (_, j) :: ms => IsExact d j ∧ ExactMembers d ms

end

namespace Scan

variable {α : Type} {w cs : List Char}

theorem takes_elementAhead_first (blank : ∀ c ∈ w, isSpace c = true) {c : Char}
    (shown : isSpace c = false) (other : c ≠ ']') :
    Takes (elementAhead true) (w ++ c :: cs) true (c :: cs) := by
  refine (takes_passSpace blank (by simpa using shown)).bind ?_
  rw [List.head?_cons]
  split
  next none => contradiction
  next bracket => exact absurd (Option.some.inj bracket) other
  next => exact takes_pure true

theorem takes_elementAhead_next (blank : ∀ c ∈ w, isSpace c = true) {c : Char}
    (shown : isSpace c = false) (other : c ≠ ']') :
    Takes (elementAhead false) (',' :: (w ++ c :: cs)) true (c :: cs) := by
  refine (takes_passSpace (w := []) (by simp) (by simp [isSpace])).bind ?_
  refine (takes_pass 1).bind ?_
  refine (takes_passSpace blank (by simpa using shown)).bind ?_
  rw [List.head?_cons]
  split
  next bracket => exact absurd (Option.some.inj bracket) other
  next => exact takes_pure true
  next none => contradiction

theorem takes_elementAhead_end (blank : ∀ c ∈ w, isSpace c = true) (first : Bool) :
    Takes (elementAhead first) (w ++ ']' :: cs) false (']' :: cs) :=
  (takes_passSpace blank (by simp [isSpace])).bind (takes_pure false)

theorem takes_nameAhead_first (blank : ∀ c ∈ w, isSpace c = true) :
    Takes (nameAhead true) (w ++ '\x22' :: cs) true ('\x22' :: cs) :=
  (takes_passSpace blank (by simp [isSpace])).bind (takes_pure true)

theorem takes_nameAhead_next (blank : ∀ c ∈ w, isSpace c = true) :
    Takes (nameAhead false) (',' :: (w ++ '\x22' :: cs)) true ('\x22' :: cs) := by
  refine (takes_passSpace (w := []) (by simp) (by simp [isSpace])).bind ?_
  refine (takes_pass 1).bind ?_
  exact (takes_passSpace blank (by simp [isSpace])).bind (takes_pure true)

theorem takes_nameAhead_end (blank : ∀ c ∈ w, isSpace c = true) (first : Bool) :
    Takes (nameAhead first) (w ++ '}' :: cs) false ('}' :: cs) :=
  (takes_passSpace blank (by simp [isSpace])).bind (takes_pure false)

theorem takes_colon : Takes colon (':' :: cs) () cs :=
  (takes_passSpace (w := []) (by simp) (by simp [isSpace])).bind (takes_pass 1)

theorem takes_tree_of_leaf (d : Nat) (blank : ∀ c ∈ w, isSpace c = true) {c : Char} {j : Json}
    {rest : List Char} (shown : isSpace c = false) (list : c ≠ '[') (object : c ≠ '{')
    (leaf : Takes tree.leaf (c :: cs) j rest) : Takes (tree d) (w ++ c :: cs) j rest := by
  have start : Takes passSpace (w ++ c :: cs) (some c) (c :: cs) :=
    takes_passSpace blank (by simpa using shown)
  cases d <;>
  · refine start.bind ?_
    split
    next bracket => exact absurd (Option.some.inj bracket) list
    next brace => exact absurd (Option.some.inj brace) object
    next => exact leaf

theorem takes_leaf_string (s : String) :
    Takes tree.leaf (stringText s ++ cs) (.string s) cs := by
  show Takes _ ('\x22' :: (s.toList.flatMap escaped ++ ['\x22']) ++ cs) _ _
  rw [List.cons_append, List.append_assoc]
  exact takes_ahead.bind ((takes_pass 1).bind ((takes_stringRest s).bind (takes_pure _)))

theorem takes_leaf_digits {n : Nat} (small : n < 2 ^ 64) (ends : Ends cs) :
    Takes tree.leaf (Nat.toDigits 10 n ++ cs) (.int n) cs := by
  obtain ⟨c, ds, digits, digit⟩ := exists_digits n
  have start : (Nat.toDigits 10 n ++ cs).head? = some c := by rw [digits]; rfl
  refine takes_ahead.bind ?_
  rw [start]
  split
  case h_7 d _ _ _ _ _ same =>
    obtain rfl := Option.some.inj same
    rw [if_pos digit]
    exact (takes_number_digits small ends).bind (takes_pure _)
  case h_1 none => contradiction
  all_goals
    next same =>
      obtain rfl := Option.some.inj same
      contradiction

theorem takes_leaf_negative {n : Nat} (pos : 0 < n) (small : n ≤ 2 ^ 63) (ends : Ends cs) :
    Takes tree.leaf ('-' :: (Nat.toDigits 10 n ++ cs)) (.int (-n)) cs :=
  takes_ahead.bind <| (takes_pass 1).bind <|
    (takes_number_pos true pos small ends).bind (takes_pure _)

theorem takes_tree_array {d : Nat} {js : List Json} {rest : List Char}
    (blank : ∀ c ∈ w, isSpace c = true)
    (items : Takes (elements (tree d) (cs.length + 1) true) cs js (']' :: rest)) :
    Takes (tree (d + 1)) (w ++ '[' :: cs) (.array js) rest := by
  refine (takes_passSpace blank (by simp [isSpace])).bind ?_
  refine (takes_pass 1).bind (takes_budget.bind ?_)
  exact items.bind ((takes_pass 1).bind (takes_pure _))

theorem takes_tree_object {d : Nat} {ms : List (String × Json)} {rest : List Char}
    (blank : ∀ c ∈ w, isSpace c = true)
    (members : Takes (treeMembers (tree d) (cs.length + 1) true) cs ms rest) :
    Takes (tree (d + 1)) (w ++ '{' :: cs) (.object (inKeyOrder ms)) rest := by
  refine (takes_passSpace blank (by simp [isSpace])).bind ?_
  refine (takes_pass 1).bind (takes_budget.bind ?_)
  exact members.bind (takes_pure _)

theorem numberText_negSucc (n : Nat) :
    numberText (.integer (.negSucc n)) = '-' :: Nat.toDigits 10 (n + 1) := by
  show ("-" ++ Nat.repr (n + 1)).toList = _
  rw [String.toList_append, Nat.toList_repr]
  rfl

theorem isSpace_of_mem_newline {level : Nat} : ∀ c ∈ newline level, isSpace c = true := by
  simp [newline, isSpace]

private theorem shown_of_isDigit {c : Char} (h : c.isDigit = true) :
    isSpace c = false ∧ c ≠ '[' ∧ c ≠ '{' ∧ c ≠ ']' := by
  refine ⟨?_, ?_, ?_, ?_⟩
  · rw [Bool.eq_false_iff]
    intro space
    simp only [isSpace, Bool.or_eq_true, beq_iff_eq] at space
    rcases space with ((rfl | rfl) | rfl) | rfl <;> contradiction
  all_goals
    rintro rfl
    contradiction

theorem takes_tree_number (d : Nat) {n : Int} (exact : IsExact d (.number (.integer n)))
    (blank : ∀ c ∈ w, isSpace c = true) (ends : Ends cs) :
    Takes (tree d) (w ++ (numberText (.integer n) ++ cs)) (.int n) cs := by
  cases n with
  | ofNat n =>
    obtain ⟨c, ds, digits, digit⟩ := exists_digits n
    have shown := shown_of_isDigit digit
    have bound : (n : Int) < 2 ^ 64 := exact.2
    have leaf := takes_leaf_digits (show n < 2 ^ 64 by omega) ends
    rw [Int.ofNat_eq_natCast, numberText_ofNat]
    rw [digits] at leaf ⊢
    exact takes_tree_of_leaf d blank shown.1 shown.2.1 shown.2.2.1 leaf
  | negSucc n =>
    have bound := exact.1
    have small : n + 1 ≤ 2 ^ 63 := by omega
    rw [numberText_negSucc]
    exact takes_tree_of_leaf d blank rfl (by decide) (by decide)
      (takes_leaf_negative (Nat.succ_pos n) small ends)

/-- A text starts with what is no space and ends no list. -/
theorem exists_pretty (level : Nat) {d : Nat} {j : Json} (exact : IsExact d j) :
    ∃ c cs, pretty level j = c :: cs ∧ isSpace c = false ∧ c ≠ ']' := by
  match j with
  | .null => exact ⟨_, _, rfl, rfl, by decide⟩
  | .bool true => exact ⟨_, _, rfl, rfl, by decide⟩
  | .bool false => exact ⟨_, _, rfl, rfl, by decide⟩
  | .number (.integer (.ofNat n)) =>
    obtain ⟨c, ds, digits, digit⟩ := exists_digits n
    have shown := shown_of_isDigit digit
    exact ⟨c, ds, (numberText_ofNat n).trans digits, shown.1, shown.2.2.2⟩
  | .number (.integer (.negSucc n)) => exact ⟨_, _, numberText_negSucc n, rfl, by decide⟩
  | .number (.real _) => exact absurd exact (by simp [IsExact])
  | .string s => exact ⟨_, _, rfl, rfl, by decide⟩
  | .array [] => exact ⟨_, _, rfl, rfl, by decide⟩
  | .array (_ :: _) => exact ⟨_, _, rfl, rfl, by decide⟩
  | .object [] => exact ⟨_, _, rfl, rfl, by decide⟩
  | .object (_ :: _) => exact ⟨_, _, rfl, rfl, by decide⟩

/-- What follows an element: a comma, or white space and the end of its list. -/
theorem ends_separated {level : Nat} (more : List Char)
    (h : more = [] ∨ more.head? = some ',') : Ends (more ++ (newline level ++ cs)) := by
  have some' : (more ++ (newline level ++ cs)).head? = some ',' ∨
      (more ++ (newline level ++ cs)).head? = some '\n' := by
    cases h with
    | inl none => rw [none]; exact .inr rfl
    | inr comma => rw [List.head?_append, comma]; exact .inl rfl
  intro d hd
  rcases some' with first | first
  all_goals
    rw [first] at hd
    obtain rfl := Option.some.inj hd
    decide

theorem ends_items (level inner : Nat) (js : List Json) :
    Ends (prettyItems inner js ++ (newline level ++ ']' :: cs)) :=
  ends_separated _ (by cases js <;> simp [prettyItems])

theorem ends_members (level inner : Nat) (ms : List (String × Json)) :
    Ends (prettyMembers inner ms ++ (newline level ++ '}' :: cs)) :=
  ends_separated _ (by cases ms <;> simp [prettyMembers])

theorem length_le_prettyItems (level : Nat) (js : List Json) :
    js.length ≤ (prettyItems level js).length := by
  induction js with
  | nil => simp
  | cons j js ih =>
    simp only [prettyItems, List.length_cons, List.length_append]
    omega

theorem length_le_prettyMembers (level : Nat) (ms : List (String × Json)) :
    ms.length ≤ (prettyMembers level ms).length := by
  induction ms with
  | nil => simp
  | cons m ms ih =>
    simp only [prettyMembers, List.length_cons, List.length_append]
    omega

mutual

/-- A tree's text is read as the tree, wherever it starts on its line. -/
theorem takes_tree (level d : Nat) (j : Json) (exact : IsExact d j) {w rest : List Char}
    (blank : ∀ c ∈ w, isSpace c = true) (ends : Ends rest) :
    Takes (tree d) (w ++ (pretty level j ++ rest)) j.sorted rest := by
  match j with
  | .null =>
    refine takes_tree_of_leaf d blank rfl (by decide) (by decide) ?_
    exact takes_ahead.bind ((takes_pass 1).bind ((takes_word _).bind (takes_pure _)))
  | .bool true =>
    refine takes_tree_of_leaf d blank rfl (by decide) (by decide) ?_
    exact takes_ahead.bind ((takes_pass 1).bind ((takes_word _).bind (takes_pure _)))
  | .bool false =>
    refine takes_tree_of_leaf d blank rfl (by decide) (by decide) ?_
    exact takes_ahead.bind ((takes_pass 1).bind ((takes_word _).bind (takes_pure _)))
  | .string s =>
    exact takes_tree_of_leaf d blank rfl (by decide) (by decide) (takes_leaf_string s)
  | .number (.real _) => exact absurd exact (by simp [IsExact])
  | .number (.integer n) => exact takes_tree_number d exact blank ends
  | .array [] =>
    obtain ⟨e, rfl⟩ : ∃ e, d = e + 1 := ⟨d - 1, by have := exact.1; omega⟩
    show Takes _ (w ++ '[' :: ']' :: rest) _ _
    refine takes_tree_array blank ?_
    exact (takes_elementAhead_end (w := []) (by simp) true).bind (takes_pure [])
  | .array (i :: is) =>
    obtain ⟨e, rfl⟩ : ∃ e, d = e + 1 := ⟨d - 1, by have := exact.1; omega⟩
    obtain ⟨-, first, others⟩ := exact
    obtain ⟨c, ds, start, shown, other⟩ := exists_pretty (level + 1) first
    have after : Ends (prettyItems (level + 1) is ++ (newline level ++ ']' :: rest)) :=
      ends_items level (level + 1) is
    have item := takes_tree (level + 1) e i first (w := []) (by simp) after
    rw [List.nil_append, start] at item
    simp only [pretty, start, List.cons_append, List.append_assoc, List.nil_append] at item ⊢
    refine takes_tree_array blank ?_
    refine (takes_elementAhead_first isSpace_of_mem_newline shown other).bind (item.bind ?_)
    refine (takes_elements level (level + 1) e is others _ ?_ rest).bind (takes_pure _)
    have length := length_le_prettyItems (level + 1) is
    simp only [List.length_append, List.length_cons]
    omega
  | .object [] =>
    obtain ⟨e, rfl⟩ : ∃ e, d = e + 1 := ⟨d - 1, by have := exact.1; omega⟩
    show Takes _ (w ++ '{' :: '}' :: rest) _ _
    refine takes_tree_object blank ?_
    exact (takes_nameAhead_end (w := []) (by simp) true).bind ((takes_pass 1).bind (takes_pure []))
  | .object ((k, i) :: ms) =>
    obtain ⟨e, rfl⟩ : ∃ e, d = e + 1 := ⟨d - 1, by have := exact.1; omega⟩
    obtain ⟨-, first, others⟩ := exact
    have after : Ends (prettyMembers (level + 1) ms ++ (newline level ++ '}' :: rest)) :=
      ends_members level (level + 1) ms
    have value := takes_tree (level + 1) e i first (w := [' ']) (by simp [isSpace]) after
    simp only [pretty, stringText, List.cons_append, List.append_assoc, List.nil_append] at value ⊢
    refine takes_tree_object blank ?_
    refine (takes_nameAhead_first isSpace_of_mem_newline).bind ((takes_pass 1).bind ?_)
    refine (takes_stringRest k).bind (takes_colon.bind (value.bind ?_))
    refine (takes_treeMembers level (level + 1) e ms others _ ?_ rest).bind (takes_pure _)
    have length := length_le_prettyMembers (level + 1) ms
    simp only [List.length_append, List.length_cons]
    omega

theorem takes_elements (level inner d : Nat) (js : List Json) (exact : ExactItems d js)
    (fuel : Nat) (enough : js.length < fuel) (rest : List Char) :
    Takes (elements (tree d) fuel false) (prettyItems inner js ++ (newline level ++ ']' :: rest))
      (sortedItems js) (']' :: rest) := by
  obtain ⟨fuel, rfl⟩ := Nat.exists_eq_add_of_lt enough
  match js with
  | [] => exact (takes_elementAhead_end isSpace_of_mem_newline false).bind (takes_pure [])
  | j :: js =>
    obtain ⟨c, ds, start, shown, other⟩ := exists_pretty inner exact.1
    have after : Ends (prettyItems inner js ++ (newline level ++ ']' :: rest)) :=
      ends_items level inner js
    have item := takes_tree inner d j exact.1 (w := []) (by simp) after
    have more := takes_elements level inner d js exact.2 (js.length + 1 + fuel) (by omega) rest
    rw [List.nil_append, start] at item
    simp only [prettyItems, start, List.cons_append, List.append_assoc] at item ⊢
    exact (takes_elementAhead_next isSpace_of_mem_newline shown other).bind
      (item.bind (more.bind (takes_pure _)))

theorem takes_treeMembers (level inner d : Nat) (ms : List (String × Json))
    (exact : ExactMembers d ms) (fuel : Nat) (enough : ms.length < fuel) (rest : List Char) :
    Takes (treeMembers (tree d) fuel false)
      (prettyMembers inner ms ++ (newline level ++ '}' :: rest)) (sortedMembers ms) rest := by
  obtain ⟨fuel, rfl⟩ := Nat.exists_eq_add_of_lt enough
  match ms with
  | [] =>
    exact (takes_nameAhead_end isSpace_of_mem_newline false).bind
      ((takes_pass 1).bind (takes_pure []))
  | (k, j) :: ms =>
    have after : Ends (prettyMembers inner ms ++ (newline level ++ '}' :: rest)) :=
      ends_members level inner ms
    have value := takes_tree inner d j exact.1 (w := [' ']) (by simp [isSpace]) after
    have more := takes_treeMembers level inner d ms exact.2 (ms.length + 1 + fuel) (by omega) rest
    simp only [prettyMembers, stringText, List.cons_append, List.append_assoc,
      List.nil_append] at value ⊢
    refine (takes_nameAhead_next isSpace_of_mem_newline).bind ((takes_pass 1).bind ?_)
    exact (takes_stringRest k).bind (takes_colon.bind (value.bind (more.bind (takes_pure _))))

end

theorem Takes.run {whole : Scan α} {s : String} {a : α} (taken : Takes whole s.toList a []) :
    (StateT.run whole (Cursor.ofText s)).map (·.1) = .ok a := by
  obtain ⟨p, run⟩ := taken ⟨1, 0⟩
  exact congrArg (Except.map Prod.fst) run

/-- A text is read as a value if the value takes all of it but white space at the end. -/
theorem readText_of_takes {read : Scan α} {s : String} {a : α} {w : List Char}
    (all : Takes read s.toList a w) (space : ∀ c ∈ w, isSpace c = true) :
    readText read s = .ok a := by
  have ended : Takes passSpace (w ++ []) none [] := takes_passSpace space (by simp)
  rw [List.append_nil] at ended
  exact Takes.run (all.bind (ended.bind (takes_pure a)))

end Scan

/-- The text of a tree is read back as the tree, with the members of objects in key order. -/
theorem parse_text {j : Json} (exact : IsExact 127 j) : parse (text j) = .ok j.sorted := by
  have read : Scan.Takes (Scan.tree 127) (pretty 0 j ++ []) j.sorted [] :=
    Scan.takes_tree 0 127 j exact (w := []) (by simp) (by simp [Scan.Ends])
  rw [List.append_nil] at read
  refine Scan.readText_of_takes (w := []) ?_ (by simp)
  rw [text, String.toList_ofList]
  exact read

end TrafficIntent.Json
