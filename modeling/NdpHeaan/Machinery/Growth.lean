import Mathlib.Algebra.Ring.Nat
import Mathlib.Data.Nat.Log

/-!
# Machinery/Growth — a buffer that doubles once

A buffer of initial capacity `c` that is doubled *once* whenever it is found too small holds what is
put into it only as long as no single addition outgrows the doubling.  As long as that is so, its
capacity is a function of its contents alone: the least `c * 2 ^ k` that holds them.
-/

namespace Machinery

/-- Double once, if the need exceeds the capacity. -/
def grow (capacity need : ℕ) : ℕ := if capacity < need then 2 * capacity else capacity

/-- The least `c * 2 ^ k` that is at least `n`. -/
def grown (c n : ℕ) : ℕ := c * 2 ^ Nat.clog 2 ((n + (c - 1)) / c)

variable {c n m k : ℕ}

theorem clog_div_le_iff (hc : 0 < c) : Nat.clog 2 ((n + (c - 1)) / c) ≤ k ↔ n ≤ c * 2 ^ k := by
  rw [Nat.clog_le_iff_le_pow Nat.one_lt_two, ← Nat.lt_add_one_iff, Nat.div_lt_iff_lt_mul hc,
    Nat.add_mul, Nat.one_mul, Nat.mul_comm]
  omega

theorem le_grown (hc : 0 < c) : n ≤ grown c n := (clog_div_le_iff hc).mp (Nat.le_refl _)

theorem base_le_grown (c n : ℕ) : c ≤ grown c n := Nat.le_mul_of_pos_right c (Nat.two_pow_pos _)

theorem grown_zero (hc : 0 < c) : grown c 0 = c := by
  have hk : Nat.clog 2 ((0 + (c - 1)) / c) = 0 :=
    Nat.le_zero.mp ((clog_div_le_iff hc).mpr (Nat.zero_le _))
  rw [grown, hk, Nat.pow_zero, Nat.mul_one]

/-- **Doubling once is enough** for an addition that fits the doubled buffer, and leaves the least
capacity that holds everything. -/
theorem grow_grown (hc : 0 < c) (h : n + m ≤ 2 * grown c n) :
    grow (grown c n) (n + m) = grown c (n + m) := by
  have hdouble : ∀ k, 2 * (c * 2 ^ k) = c * 2 ^ (k + 1) := fun k => by
    rw [Nat.pow_succ, Nat.mul_comm (2 ^ k) 2, Nat.mul_left_comm]
  unfold grow grown at *
  split
  · rename_i hlt
    have hle := (clog_div_le_iff hc).mpr (hdouble _ ▸ h)
    have hge := mt (clog_div_le_iff hc).mp (Nat.not_le.mpr hlt)
    rw [hdouble, Nat.le_antisymm hle (Nat.not_le.mp hge)]
  · rename_i hle
    congr 2
    refine Nat.le_antisymm (Nat.clog_mono_right 2 (Nat.div_le_div_right (by omega))) ?_
    exact (clog_div_le_iff hc).mpr (Nat.not_lt.mp hle)

end Machinery
