import Mathlib.Data.List.Basic

/-!
# Machinery/Sweep — visiting the slots that are present, one after the other

A sweep goes through slots in their order and stops at each one that is present; slots may appear
behind it and ahead of it while it is under way.  Its position is the slot it is at, or `none` when
it is past the last.  What a sweep establishes is a property of the present slots it has *passed*.
-/

namespace Machinery

/-- The first slot from `k` on, below `n`, that is present. -/
def nextFrom (present : ℕ → Bool) (n k : ℕ) : Option ℕ := (List.range' k (n - k)).find? present

/-- The slots behind a sweep. -/
def Passed : Option ℕ → ℕ → Prop
  | some k, t => t < k
  | none, _ => True

instance : ∀ (pos : Option ℕ) (t : ℕ), Decidable (Passed pos t)
  | some k, t => inferInstanceAs (Decidable (t < k))
  | none, _ => inferInstanceAs (Decidable True)

variable {present : ℕ → Bool} {n k t : ℕ}

theorem nextFrom_eq_some (h : nextFrom present n k = some t) :
    k ≤ t ∧ t < n ∧ present t = true ∧ ∀ i, k ≤ i → i < t → present i = false := by
  obtain ⟨hp, hmem, hbefore⟩ := List.find?_range'_eq_some.mp h
  rw [List.mem_range'_1] at hmem
  refine ⟨hmem.1, by omega, hp, fun i hk hi => ?_⟩
  simpa using hbefore i hk hi

theorem nextFrom_eq_none (h : nextFrom present n k = none) :
    ∀ i, k ≤ i → i < n → present i = false := by
  intro i hk hi
  have hmem : i ∈ List.range' k (n - k) := List.mem_range'_1.mpr ⟨hk, by omega⟩
  simpa using List.find?_eq_none.mp h i hmem

/-- What a sweep has passed when it goes on: what it had passed, or the slot it was at. -/
theorem lt_of_passed_nextFrom (hp : present t = true) (ht : t < n)
    (h : Passed (nextFrom present n k) t) : t < k := by
  by_contra hk
  have hle : k ≤ t := by omega
  cases hnext : nextFrom present n k with
  | none =>
    have habsent := nextFrom_eq_none hnext t hle ht
    simp [hp] at habsent
  | some j =>
    rw [hnext] at h
    have habsent := (nextFrom_eq_some hnext).2.2.2 t hle h
    simp [hp] at habsent

/-- A sweep that starts has passed no slot that is present. -/
theorem not_passed_nextFrom_zero (hp : present t = true) (ht : t < n) :
    ¬ Passed (nextFrom present n 0) t := fun h =>
  Nat.not_lt_zero t (lt_of_passed_nextFrom hp ht h)

/-- A sweep does not go back. -/
theorem passed_nextFrom (h : t < k) : Passed (nextFrom present n k) t := by
  cases hnext : nextFrom present n k with
  | none => trivial
  | some j => exact Nat.lt_of_lt_of_le h (nextFrom_eq_some hnext).1

/-- What is in a slot after one has been changed. -/
theorem mem_update {α : Type} {f : ℕ → Option α} {o : Option α} {a : α} :
    a ∈ Function.update f k o t ↔ t = k ∧ a ∈ o ∨ t ≠ k ∧ a ∈ f t := by
  by_cases htk : t = k
  · simp [htk]
  · simp [htk]

end Machinery
