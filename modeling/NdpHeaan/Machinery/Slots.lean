import Mathlib.Data.List.Basic
import Mathlib.Data.List.Perm.Basic
import Mathlib.Logic.Function.Basic

/-!
# Machinery/Slots — an array of slots that is filled from the front

A program that keeps objects in an array with a count keeps a list: the first cells in use, the
others empty.  Each way of changing the array is one of the list: at the end (`push`, `pop`), in the
middle with the last object moved into the gap (`set`), or all at once (`clear`).
-/

namespace Machinery

variable {α : Type*} {f : ℕ → Option α} {l : List α} {a z : α} {i : ℕ}

/-- **An array holds a list**: its elements in front, and nothing behind. -/
def Holds (f : ℕ → Option α) (l : List α) : Prop := ∀ i, f i = l[i]?

namespace Holds

theorem nil : Holds (fun _ => none) ([] : List α) := fun _ => rfl

theorem push (h : Holds f l) (a : α) : Holds (Function.update f l.length (some a)) (l ++ [a]) := by
  intro i
  rcases Nat.lt_trichotomy i l.length with hlt | rfl | hgt
  · rw [Function.update_of_ne (Nat.ne_of_lt hlt), h, List.getElem?_append_left hlt]
  · simp
  · rw [Function.update_of_ne (Nat.ne_of_gt hgt), h, List.getElem?_eq_none (by omega),
      List.getElem?_eq_none (by simp; omega)]

theorem pop (h : Holds f (l ++ [a])) : Holds (Function.update f l.length none) l := by
  intro i
  rcases Nat.lt_trichotomy i l.length with hlt | rfl | hgt
  · rw [Function.update_of_ne (Nat.ne_of_lt hlt), h, List.getElem?_append_left hlt]
  · simp
  · rw [Function.update_of_ne (Nat.ne_of_gt hgt), h, List.getElem?_eq_none (by simp; omega),
      List.getElem?_eq_none (by omega)]

/-- The last object is moved into a gap. -/
theorem set (h : Holds f (l ++ [z])) (hi : i < l.length) :
    Holds (Function.update (Function.update f i (some z)) l.length none) (l.set i z) := by
  have hset : Holds (Function.update f i (some z)) (l.set i z ++ [z]) := by
    intro j
    by_cases hj : j = i
    · subst hj
      rw [Function.update_self, List.getElem?_append_left (by simpa using hi)]
      simp [hi]
    · rw [Function.update_of_ne hj, h]
      by_cases hlt : j < l.length
      · rw [List.getElem?_append_left hlt, List.getElem?_append_left (by simpa using hlt),
          List.getElem?_set_ne (Ne.symm hj)]
      · rw [List.getElem?_append_right (by omega), List.getElem?_append_right (by simp; omega),
          List.length_set]
  have hpop := hset.pop
  rwa [List.length_set] at hpop

/-- One cell after the other is emptied. -/
theorem clear (h : Holds f l) : ∀ n, (List.range n).foldl (fun f i => Function.update f i none) f
    = fun i => if i < n then none else l[i]?
  | 0 => funext fun i => by simpa using h i
  | n + 1 => by
      rw [List.range_succ, List.foldl_append, clear h n, List.foldl_cons, List.foldl_nil]
      funext i
      by_cases hi : i = n
      · simp [hi]
      · rw [Function.update_of_ne hi]
        have hiff : i < n + 1 ↔ i < n := by omega
        simp only [hiff]

end Holds

/-- What is taken out of a list by moving the last element into its place. -/
theorem cons_set_perm (h : (l ++ [z])[i]? = some a) : (a :: l.set i z).Perm (l ++ [z]) := by
  by_cases hi : i < l.length
  · have ha : l[i] = a := by
      rwa [List.getElem?_append_left hi, List.getElem?_eq_getElem hi, Option.some.injEq] at h
    rw [List.set_eq_take_append_cons_drop, if_pos hi]
    calc List.Perm (a :: (l.take i ++ z :: l.drop (i + 1)))
          (l.take i ++ a :: (z :: l.drop (i + 1))) :=
          List.perm_middle.symm
      List.Perm _ (l.take i ++ a :: (l.drop (i + 1) ++ [z])) :=
          ((List.perm_append_singleton z _).symm.cons a).append_left _
      List.Perm _ (l ++ [z]) := by
          rw [← List.cons_append, ← List.append_assoc, ← ha, ← List.drop_eq_getElem_cons hi,
            List.take_append_drop]
  · have hlen := (List.getElem?_eq_some_iff.mp h).1
    obtain rfl : i = l.length := by
      rw [List.length_append, List.length_singleton] at hlen
      omega
    obtain rfl : z = a := by simpa using h
    rw [List.set_eq_of_length_le (Nat.le_refl _)]
    exact (List.perm_append_singleton z l).symm

end Machinery
