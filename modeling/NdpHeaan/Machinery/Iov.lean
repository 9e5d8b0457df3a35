import Mathlib.Data.List.Basic
import Mathlib.Data.List.Flatten

/-!
# Machinery/Iov — scatter-gather lists

A scatter-gather list is a list of buffers, and what it holds is its flattening.  A buffer copied
into it goes front to back, as far as either of the two goes; the lengths of the entries never
change, so two lists of one shape are equal as soon as their contents are.
-/

namespace Machinery

variable {α : Type*}

/-- The list after a buffer has been copied into it. -/
def fillIov : List α → List (List α) → List (List α)
  | _, [] => []
  | bs, v :: vs => (bs.take v.length ++ v.drop bs.length) :: fillIov (bs.drop v.length) vs

/-- The list with every cell set. -/
def setIov (a : α) (l : List (List α)) : List (List α) := l.map fun v => v.map fun _ => a

theorem map_length_fillIov : ∀ (bs : List α) (l : List (List α)),
    (fillIov bs l).map List.length = l.map List.length
  | _, [] => rfl
  | bs, v :: vs => by
      rw [fillIov, List.map_cons, map_length_fillIov, List.map_cons, List.length_append,
        List.length_take, List.length_drop]
      congr 1
      omega

@[simp] theorem map_length_setIov (a : α) (l : List (List α)) :
    (setIov a l).map List.length = l.map List.length := by
  simp [setIov, Function.comp_def]

/-- Lists of one shape have the same number of entries. -/
theorem length_eq_of_shape {l l' : List (List α)} (h : l.map List.length = l'.map List.length) :
    l.length = l'.length := by
  simpa only [List.length_map] using congrArg List.length h

/-- **The contents of a filled list**: what fits of the buffer, then what was there. -/
theorem flatten_fillIov : ∀ (bs : List α) (l : List (List α)),
    (fillIov bs l).flatten = bs.take l.flatten.length ++ l.flatten.drop bs.length
  | _, [] => by simp [fillIov]
  | bs, v :: vs => by
      rw [fillIov, List.flatten_cons, flatten_fillIov, List.flatten_cons, List.length_append,
        List.length_drop, List.drop_append, List.take_add, List.append_assoc, List.append_assoc]
      congr 1
      rcases Nat.le_total bs.length v.length with h | h
      · -- the buffer ends in this entry
        simp [List.drop_eq_nil_of_le h, Nat.sub_eq_zero_of_le h]
      · simp [List.drop_eq_nil_of_le h]

@[simp] theorem flatten_setIov (a : α) (l : List (List α)) :
    (setIov a l).flatten = List.replicate l.flatten.length a := by
  rw [setIov, ← List.map_flatten, List.map_const']

/-- A list with every cell set has nothing left but its shape. -/
theorem setIov_congr (a : α) {l l' : List (List α)} (h : l.map List.length = l'.map List.length) :
    setIov a l = setIov a l' := by
  have hset : ∀ l : List (List α), setIov a l = (l.map List.length).map (List.replicate · a) :=
    fun l => by simp [setIov, List.map_const', Function.comp_def]
  rw [hset, hset, h]

/-- Filling it pads the buffer. -/
theorem flatten_fillIov_setIov (a : α) (bs : List α) (l : List (List α)) :
    (fillIov bs (setIov a l)).flatten
      = (bs ++ List.replicate l.flatten.length a).take l.flatten.length := by
  rw [flatten_fillIov, flatten_setIov, List.length_replicate, List.take_append, List.drop_replicate,
    List.take_replicate]
  congr 2
  omega

/-! ## Reading

A cursor on the list is what is left of it. -/

/-- Up to `n` cells from a cursor, and the cursor behind them. -/
def readIov : ℕ → List (List α) → List α × List (List α)
  | _, [] => ([], [])
  | n, v :: vs =>
    if n ≤ v.length then (v.take n, v.drop n :: vs)
    else ((v ++ (readIov (n - v.length) vs).1), (readIov (n - v.length) vs).2)

theorem readIov_fst : ∀ (n : ℕ) (l : List (List α)), (readIov n l).1 = l.flatten.take n
  | _, [] => by simp [readIov]
  | n, v :: vs => by
      rw [readIov, List.flatten_cons]
      split_ifs with h
      · rw [List.take_append_of_le_length h]
      · rw [readIov_fst, List.take_append, List.take_of_length_le (by omega : v.length ≤ n)]

theorem flatten_readIov_snd : ∀ (n : ℕ) (l : List (List α)),
    (readIov n l).2.flatten = l.flatten.drop n
  | _, [] => by simp [readIov]
  | n, v :: vs => by
      rw [readIov, List.flatten_cons]
      split_ifs with h
      · rw [List.flatten_cons, List.drop_append_of_le_length h]
      · rw [flatten_readIov_snd, List.drop_append, List.drop_eq_nil_of_le (by omega : v.length ≤ n),
          List.nil_append]

/-- The pieces behind the first `n` cells, in so many slots. -/
def skipIov : ℕ → ℕ → List (List α) → List (List α)
  | _, _, [] => []
  | 0, _, _ => []
  | slots + 1, n, v :: vs =>
    if v.length ≤ n then skipIov (slots + 1) (n - v.length) vs
    else v.drop n :: skipIov slots 0 vs

theorem flatten_skipIov : ∀ {slots : ℕ} (n : ℕ) {l : List (List α)}, l.length ≤ slots →
    (skipIov slots n l).flatten = l.flatten.drop n
  | _, n, [], _ => by simp [skipIov]
  | 0, _, _ :: _, h => absurd h (Nat.not_succ_le_zero _)
  | slots + 1, n, v :: vs, h => by
      have hvs : vs.length ≤ slots := Nat.succ_le_succ_iff.mp h
      rw [skipIov, List.flatten_cons]
      split_ifs with hv
      · rw [flatten_skipIov _ (Nat.le_succ_of_le hvs), List.drop_append,
          List.drop_eq_nil_of_le hv, List.nil_append]
      · rw [List.flatten_cons, flatten_skipIov 0 hvs, List.drop_zero,
          List.drop_append_of_le_length (Nat.le_of_not_ge hv)]

/-- What is put into a row of places piece by piece. -/
theorem zip_append_right {β : Type*} : ∀ {x : List α} {as : List β} (bs : List β),
    as.length ≤ x.length → x.zip (as ++ bs) = x.zip as ++ (x.drop as.length).zip bs
  | _, [], _, _ => by simp
  | [], _ :: _, _, h => absurd h (Nat.not_succ_le_zero _)
  | _ :: _, _ :: _, bs, h => by simp [zip_append_right bs (Nat.succ_le_succ_iff.mp h)]

end Machinery
