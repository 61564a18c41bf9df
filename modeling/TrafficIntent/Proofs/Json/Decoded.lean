import Mathlib.Data.List.Forall2
import TrafficIntent.Json.Tree

namespace TrafficIntent.Json.Decoder

variable {α β σ : Type} {j : Json}

theorem exists_of_bind {ε : Type} {x : Except ε α} {f : α → Except ε β} {b : β}
    (h : x >>= f = .ok b) : ∃ a, x = .ok a ∧ f a = .ok b := by
  cases x with
  | error e => contradiction
  | ok a => exact ⟨a, rfl, h⟩

theorem exists_of_map {ε : Type} {x : Except ε α} {f : α → β} {b : β} (h : x.map f = .ok b) :
    ∃ a, x = .ok a ∧ f a = b := by
  cases x with
  | error e => contradiction
  | ok a => exact ⟨a, rfl, Except.ok.inj h⟩

theorem eq_of_string {s : String} (read : string j = .ok s) : j = .string s := by
  unfold string at read
  split at read
  next => rw [Except.ok.inj read]
  next => contradiction

theorem eq_of_port {p : UInt16} (read : port j = .ok p) :
    ∃ k : Nat, j = .number (.integer k) ∧ k < 65536 ∧ p = UInt16.ofNat k := by
  unfold port at read
  split at read
  next n =>
    split at read
    next bounds =>
      refine ⟨n.toNat, ?_, by omega, (Except.ok.inj read).symm⟩
      rw [Int.toNat_of_nonneg bounds.1]
    next => contradiction
  next => contradiction

theorem forall₂_of_items {d : Decoder α} {js : List Json} {as : List α}
    (read : items d js = .ok as) : List.Forall₂ (fun j a => d j = .ok a) js as := by
  induction js generalizing as with
  | nil =>
    obtain rfl := Except.ok.inj read
    exact .nil
  | cons j js ih =>
    rw [items] at read
    obtain ⟨a, first, read⟩ := exists_of_bind read
    obtain ⟨rest, others, read⟩ := exists_of_bind read
    obtain rfl := Except.ok.inj read
    exact .cons first (ih others)

theorem eq_of_list {d : Decoder α} {as : List α} (read : list d j = .ok as) :
    ∃ js, j = .array js ∧ List.Forall₂ (fun j a => d j = .ok a) js as := by
  unfold list at read
  split at read
  next js => exact ⟨js, rfl, forall₂_of_items read⟩
  next => contradiction

theorem eq_of_optional {d : Decoder α} {o : Option α} (read : optional d j = .ok o) :
    j = .null ∧ o = none ∨ j ≠ .null ∧ ∃ a, d j = .ok a ∧ o = some a := by
  unfold optional at read
  split at read
  next => exact .inl ⟨rfl, (Except.ok.inj read).symm⟩
  next there =>
    obtain ⟨a, value, rfl⟩ := exists_of_map read
    exact .inr ⟨there, a, value, rfl⟩

variable {r : Record Decoder σ} {ms : List (String × Json)} {seen : List String} {s x : σ}

theorem complete_of_members (taken : members r [] seen s = .ok x) :
    r.missing? seen = none ∧ s = x := by
  rw [members] at taken
  split at taken
  next => contradiction
  next complete => exact ⟨complete, Except.ok.inj taken⟩

/-- A member is passed over, or read by a field that no member was for before. -/
theorem member_of_members {k : String} (taken : members r ((k, j) :: ms) seen s = .ok x) :
    r.field? k = none ∧ members r ms seen s = .ok x ∨
      ∃ f set, r.field? k = some f ∧ seen.contains f.name = false ∧ f.read j = .ok set ∧
        members r ms (f.name :: seen) (set s) = .ok x := by
  rw [members] at taken
  split at taken
  next unknown => exact .inl ⟨unknown, taken⟩
  next f field =>
    split at taken
    next => contradiction
    next new =>
      obtain ⟨set, read, others⟩ := exists_of_bind taken
      exact .inr ⟨f, set, field, Bool.eq_false_iff.2 new, read, others⟩

end TrafficIntent.Json.Decoder
