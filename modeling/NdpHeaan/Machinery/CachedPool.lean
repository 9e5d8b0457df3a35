import Mathlib.Data.Set.Basic
import Mathlib.Logic.Function.Basic
import Mathlib.Logic.Function.Iterate

/-!
# Machinery/CachedPool — a pool of objects with a cache for each user

Objects are taken from a user's cache, or from the pool behind it, and are given back to the cache
as long as it has room.  What is idle is what lies in one of them; taking removes the object taken
from the idle ones, giving adds it, and nothing else changes.
-/

namespace Machinery

variable {κ α : Type*} [DecidableEq κ]

section Family

variable {k : κ} {l : List α} {b : α}

/-- Replacing one list of a family replaces its members. -/
theorem exists_mem_update_iff {f : κ → List α} :
    (∃ j, b ∈ Function.update f k l j) ↔ b ∈ l ∨ ∃ j, j ≠ k ∧ b ∈ f j := by
  constructor
  · rintro ⟨j, hj⟩
    by_cases h : j = k
    · subst h
      rw [Function.update_self] at hj
      exact Or.inl hj
    · rw [Function.update_of_ne h] at hj
      exact Or.inr ⟨j, h, hj⟩
  · rintro (h | ⟨j, hne, hj⟩)
    · exact ⟨k, by rwa [Function.update_self]⟩
    · exact ⟨j, by rwa [Function.update_of_ne hne]⟩

theorem exists_mem_iff (f : κ → List α) (k : κ) :
    (∃ j, b ∈ f j) ↔ b ∈ f k ∨ ∃ j, j ≠ k ∧ b ∈ f j := by
  rw [← exists_mem_update_iff, Function.update_eq_self]

end Family

/-- A pool, and the caches in front of it. -/
structure CachedPool (κ α : Type*) where
  cache : κ → List α
  pool : List α

namespace CachedPool

/-- The objects that nobody holds. -/
def Idle (p : CachedPool κ α) (a : α) : Prop := (∃ k, a ∈ p.cache k) ∨ a ∈ p.pool

/-- The objects outside. -/
def held (p : CachedPool κ α) : Set α := {a | ¬ p.Idle a}

/-- Take an object; the pool is open to users with an empty cache, unless it is `closed`. -/
def take (closed : Bool) (k : κ) (p : CachedPool κ α) : Option (α × CachedPool κ α) :=
  match p.cache k with
  | a :: l => some (a, { p with cache := Function.update p.cache k l })
  | [] =>
    if closed then none else
    match p.pool with
    | a :: l => some (a, { p with pool := l })
    | [] => none

/-- Take so many objects. -/
def takeMany (closed : Bool) (k : κ) : ℕ → CachedPool κ α → Option (List α × CachedPool κ α)
  | 0, p => some ([], p)
  | n + 1, p => (p.take closed k).bind fun q =>
    (takeMany closed k n q.2).map fun t => (q.1 :: t.1, t.2)

/-- Give an object back; a cache has room for `size`. -/
def give (size : ℕ) (k : κ) (a : α) (p : CachedPool κ α) : CachedPool κ α :=
  if (p.cache k).length < size then
    { p with cache := Function.update p.cache k (a :: p.cache k) }
  else
    { p with pool := a :: p.pool }

variable {closed : Bool} {k : κ} {n size : ℕ} {p p' : CachedPool κ α} {a b : α} {l : List α}

/-- **Taking** removes the object taken. -/
theorem idle_take (h : p.take closed k = some (a, p')) : p.Idle b ↔ b = a ∨ p'.Idle b := by
  unfold take at h
  split at h
  · rename_i c l hc
    obtain ⟨rfl, rfl⟩ := Prod.mk.inj (Option.some.inj h)
    rw [Idle, Idle, exists_mem_update_iff, exists_mem_iff p.cache k, hc, List.mem_cons]
    simp only [or_assoc]
  · split at h
    · cases h
    split at h
    · rename_i c l hp
      obtain ⟨rfl, rfl⟩ := Prod.mk.inj (Option.some.inj h)
      rw [Idle, Idle, hp, List.mem_cons]
      simp only [or_left_comm]
    · cases h

/-- …**taking many** all of them. -/
theorem idle_takeMany : ∀ {n : ℕ} {p p' : CachedPool κ α} {l : List α},
    p.takeMany closed k n = some (l, p') → (p.Idle b ↔ b ∈ l ∨ p'.Idle b)
  | 0, _, _, _, h => by
      obtain ⟨rfl, rfl⟩ := Prod.mk.inj (Option.some.inj h)
      simp
  | n + 1, _, _, _, h => by
      obtain ⟨⟨a, q⟩, htake, hrest⟩ := Option.bind_eq_some_iff.mp h
      obtain ⟨⟨l', q'⟩, hmany, heq⟩ := Option.map_eq_some_iff.mp hrest
      obtain ⟨rfl, rfl⟩ := Prod.mk.inj heq
      rw [idle_take htake, idle_takeMany hmany, or_assoc.symm, List.mem_cons]

theorem length_takeMany : ∀ {n : ℕ} {p p' : CachedPool κ α} {l : List α},
    p.takeMany closed k n = some (l, p') → l.length = n
  | 0, _, _, _, h => by
      obtain ⟨rfl, -⟩ := Prod.mk.inj (Option.some.inj h)
      rfl
  | n + 1, _, _, _, h => by
      obtain ⟨⟨a, q⟩, -, hrest⟩ := Option.bind_eq_some_iff.mp h
      obtain ⟨⟨l', q'⟩, hmany, heq⟩ := Option.map_eq_some_iff.mp hrest
      obtain ⟨rfl, -⟩ := Prod.mk.inj heq
      rw [List.length_cons, length_takeMany hmany]

/-- **Giving** adds the object given. -/
theorem idle_give : (p.give size k a).Idle b ↔ b = a ∨ p.Idle b := by
  unfold give
  split
  · rw [Idle, Idle, exists_mem_update_iff, exists_mem_iff p.cache k, List.mem_cons]
    simp only [or_assoc]
  · rw [Idle, Idle, List.mem_cons]
    simp only [or_left_comm]

end CachedPool

end Machinery
