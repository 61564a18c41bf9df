/-!
Maps from text keys, listed in strictly increasing key order. A key's order is that of its
characters, and a map has exactly one listing, so equal maps are equal as data.
-/

namespace TrafficIntent

/-- Puts a key where its order wants it; a key that is there already gets the new value. -/
def putEntry {α : Type} (k : String) (v : α) : List (String × α) → List (String × α)
  | [] => [(k, v)]
  | e :: rest =>
    if k < e.1 then (k, v) :: e :: rest
    else if k = e.1 then (k, v) :: rest
    else e :: putEntry k v rest

theorem mem_putEntry {α : Type} {k : String} {v : α} {l : List (String × α)} {e : String × α}
    (h : e ∈ putEntry k v l) : e = (k, v) ∨ e ∈ l := by
  induction l with
  | nil => simpa [putEntry] using h
  | cons a l ih =>
    simp only [putEntry] at h
    split at h
    · simpa using h
    · split at h
      · rcases List.mem_cons.1 h with h | h
        · exact .inl h
        · exact .inr (List.mem_cons_of_mem _ h)
      · rcases List.mem_cons.1 h with h | h
        · exact .inr (h ▸ List.mem_cons_self)
        · exact (ih h).imp_right (List.mem_cons_of_mem _)

theorem pairwise_putEntry {α : Type} (k : String) (v : α) {l : List (String × α)}
    (h : l.Pairwise (fun a b => a.1 < b.1)) :
    (putEntry k v l).Pairwise (fun a b => a.1 < b.1) := by
  induction l with
  | nil => simp [putEntry]
  | cons a l ih =>
    obtain ⟨ha, hl⟩ := List.pairwise_cons.1 h
    simp only [putEntry]
    split
    next hk =>
      refine List.pairwise_cons.2 ⟨fun b hb => ?_, h⟩
      rcases List.mem_cons.1 hb with rfl | hb
      · exact hk
      · exact String.lt_trans hk (ha b hb)
    next hk =>
      split
      next he => exact List.pairwise_cons.2 ⟨fun b hb => by simpa [he] using ha b hb, hl⟩
      next he =>
        refine List.pairwise_cons.2 ⟨fun b hb => ?_, ih hl⟩
        rcases mem_putEntry hb with rfl | hb
        · exact String.not_le.1 fun hle => he (String.le_antisymm hle (String.not_lt.1 hk))
        · exact ha b hb

/-- A finite map from text keys. -/
structure KeyMap (α : Type) where
  entries : List (String × α)
  sorted : entries.Pairwise (fun a b => a.1 < b.1)
  deriving DecidableEq

namespace KeyMap

variable {α : Type}

def empty : KeyMap α := ⟨[], .nil⟩

instance : EmptyCollection (KeyMap α) := ⟨empty⟩
instance : Inhabited (KeyMap α) := ⟨empty⟩

def isEmpty (m : KeyMap α) : Bool := m.entries.isEmpty

def insert (m : KeyMap α) (k : String) (v : α) : KeyMap α :=
  ⟨putEntry k v m.entries, pairwise_putEntry k v m.sorted⟩

def erase (m : KeyMap α) (k : String) : KeyMap α :=
  ⟨m.entries.filter (fun e => e.1 != k), m.sorted.filter _⟩

def get? (m : KeyMap α) (k : String) : Option α :=
  (m.entries.find? (fun e => e.1 == k)).map (·.2)

def singleton (k : String) (v : α) : KeyMap α := empty.insert k v

private theorem find?_cons (e : String × α) (es : List (String × α)) (k : String) :
    ((e :: es).find? (fun e => e.1 == k)).map (·.2) =
      if e.1 = k then some e.2 else (es.find? (fun e => e.1 == k)).map (·.2) := by
  by_cases h : e.1 = k <;> simp [h]

@[simp] theorem get?_empty (k : String) : (empty : KeyMap α).get? k = none := rfl

/-- A key that is put has the new value, and all others keep theirs. -/
theorem get?_insert (m : KeyMap α) (k l : String) (v : α) :
    (m.insert k v).get? l = if l = k then some v else m.get? l := by
  show ((putEntry k v m.entries).find? (fun e => e.1 == l)).map (·.2) =
    if l = k then some v else (m.entries.find? (fun e => e.1 == l)).map (·.2)
  induction m.entries with
  | nil => by_cases h : k = l <;> simp [putEntry, h, Ne.symm]
  | cons e es ih =>
    simp only [putEntry]
    split
    next => simp only [find?_cons, eq_comm]
    next =>
      split
      next he =>
        simp only [find?_cons, ← he, eq_comm (a := l)]
        split <;> rfl
      next he =>
        simp only [find?_cons, ih]
        by_cases h : e.1 = l
        · have hk : l ≠ k := fun hl => he (by rw [← hl, h])
          simp [h, hk]
        · simp [h]

/-- A key that is erased has no value, and all others keep theirs. -/
theorem get?_erase (m : KeyMap α) (k l : String) :
    (m.erase k).get? l = if l = k then none else m.get? l := by
  show ((m.entries.filter (fun e => e.1 != k)).find? (fun e => e.1 == l)).map (·.2) =
    if l = k then none else (m.entries.find? (fun e => e.1 == l)).map (·.2)
  induction m.entries with
  | nil => simp
  | cons e es ih =>
    by_cases he : e.1 = k
    · rw [List.filter_cons_of_neg (by simp [he]), ih, find?_cons, he]
      by_cases h : l = k
      · simp [h]
      · simp [h, Ne.symm h]
    · rw [List.filter_cons_of_pos (by simp [he]), find?_cons, find?_cons, ih]
      by_cases h : e.1 = l
      · have hk : l ≠ k := fun hl => he (by rw [h, hl])
        simp [h, hk]
      · simp [h]

/-- Later entries replace earlier ones of the same key. -/
def ofList (l : List (String × α)) : KeyMap α :=
  l.foldl (fun m e => m.insert e.1 e.2) empty

end KeyMap

/-- Labels and annotations of a resource: texts by key. -/
abbrev Labels := KeyMap String

end TrafficIntent
