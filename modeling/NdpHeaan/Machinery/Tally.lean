import Mathlib.Data.Int.Notation
import Mathlib.Data.List.Nodup
import Mathlib.Logic.Function.Basic

/-!
# Machinery/Tally — counting the members of a set by their state

A program that asks often how many of its objects are in a state keeps one counter for each state,
and moves a unit from one to another when an object changes.  As long as every change goes through
`shift`, the counters are the `census` of the objects.
-/

namespace Machinery

variable {ι σ : Type*} [DecidableEq σ] {members : List ι} {state : ι → σ} {i : ι} {b c : σ}

/-- How many of the members are in a state. -/
def census (members : List ι) (state : ι → σ) (c : σ) : ℤ := members.countP fun i => state i = c

/-- A unit goes from one counter to another. -/
def shift (count : σ → ℤ) (a b : σ) : σ → ℤ := fun c =>
  count c - (if a = c then 1 else 0) + if b = c then 1 else 0

@[simp] theorem shift_self (count : σ → ℤ) (a : σ) : shift count a a = count := by
  funext c
  exact Int.sub_add_cancel ..

/-- What is counted in between does not matter. -/
@[simp] theorem shift_shift (count : σ → ℤ) (a b c : σ) :
    shift (shift count a b) b c = shift count a c := by
  funext d
  unfold shift
  omega

theorem census_perm {members' : List ι} (h : members.Perm members') :
    census members state c = census members' state c := congrArg Nat.cast (h.countP_eq _)

section Update

variable [DecidableEq ι]

/-- One member, and the others. -/
theorem census_erase (hi : i ∈ members) :
    census members state c = census (members.erase i) state c + if state i = c then 1 else 0 := by
  rw [census_perm (List.perm_cons_erase hi), census, census, List.countP_cons, Int.natCast_add]
  split_ifs <;> simp_all

/-- The others do not count what becomes of a member. -/
theorem census_update_of_notMem (hi : i ∉ members) :
    census members (Function.update state i b) c = census members state c := by
  refine congrArg Nat.cast (List.countP_congr fun j hj => ?_)
  have hji : j ≠ i := fun he => hi (he ▸ hj)
  rw [Function.update_of_ne hji]

/-- **The counters are moved when a member changes its state.** -/
theorem shift_census (hnodup : members.Nodup) (hi : i ∈ members) :
    shift (census members state) (state i) b = census members (Function.update state i b) := by
  funext c
  have hnot : i ∉ members.erase i := fun hmem => (hnodup.mem_erase_iff.mp hmem).1 rfl
  rw [shift, census_erase hi, census_erase hi, census_update_of_notMem hnot, Function.update_self,
    Int.add_sub_cancel]

end Update

end Machinery
