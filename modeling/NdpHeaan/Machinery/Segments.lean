import Mathlib.Algebra.Ring.Nat
import Mathlib.Data.List.Basic
import Mathlib.Data.List.Range
import Mathlib.Algebra.BigOperators.Group.List.Basic
import Mathlib.Tactic.Common

/-!
# Machinery/Segments — scatter and gather between stores of cells

A store is a function `ℕ → β`.  A `Seg` is a run of consecutive cells, a `Copy` moves a run of cells
from one store to another.  `gather` packs a list of segments one behind the other, `scatter`
unpacks them again; `Progress` says how far a set of copies has got *when they are performed in an
arbitrary order*, and `Progress.apply` is the one step every such schedule takes.
-/

namespace Machinery

variable {β : Type*}

/-- A run of consecutive cells. -/
structure Seg where
  /-- The first cell. -/
  start : ℕ
  /-- The number of cells. -/
  len : ℕ
  deriving DecidableEq, Repr

namespace Seg

/-- The cells of a segment. -/
def Mem (s : Seg) (k : ℕ) : Prop := s.start ≤ k ∧ k < s.start + s.len

instance (s : Seg) (k : ℕ) : Decidable (s.Mem k) := inferInstanceAs (Decidable (_ ∧ _))

/-- Two segments without a common cell. -/
def Disj (s t : Seg) : Prop := ∀ k, s.Mem k → ¬ t.Mem k

theorem Disj.symm {s t : Seg} (h : s.Disj t) : t.Disj s := fun k ht hs => h k hs ht

/-- A segment of the first `size` cells. -/
def Within (s : Seg) (size : ℕ) : Prop := ∀ k, s.Mem k → k < size

theorem within_of_le {s : Seg} {size : ℕ} (h : s.start + s.len ≤ size) : s.Within size :=
  fun _ hk => Nat.lt_of_lt_of_le hk.2 h

/-- A segment with a cell in it ends where its last cell does. -/
theorem Within.le {s : Seg} {size : ℕ} (h : s.Within size) (hpos : 0 < s.len) :
    s.start + s.len ≤ size := by
  have hlast := h (s.start + s.len - 1) ⟨by omega, by omega⟩
  omega

/-- What a store holds in a segment. -/
def read (f : ℕ → β) (s : Seg) : List β := (List.range' s.start s.len).map f

@[simp] theorem length_read (f : ℕ → β) (s : Seg) : (s.read f).length = s.len := by simp [read]

end Seg

/-- The number of cells of a list of segments. -/
def total (l : List Seg) : ℕ := (l.map Seg.len).sum

@[simp] theorem total_nil : total [] = 0 := rfl

@[simp] theorem total_cons (s : Seg) (l : List Seg) : total (s :: l) = s.len + total l := by
  simp [total]

/-- What a store holds in a list of segments, one behind the other. -/
def readAll (f : ℕ → β) (l : List Seg) : List β := l.flatMap (Seg.read f)

@[simp] theorem readAll_nil (f : ℕ → β) : readAll f [] = [] := rfl

@[simp] theorem readAll_cons (f : ℕ → β) (s : Seg) (l : List Seg) :
    readAll f (s :: l) = s.read f ++ readAll f l := rfl

@[simp] theorem length_readAll (f : ℕ → β) (l : List Seg) :
    (readAll f l).length = total l := by
  induction l with
  | nil => rfl
  | cons s l ih => simp [ih]

/-- The `j`-th cell of a list of segments, counted through them. -/
def cellAt : List Seg → ℕ → Option ℕ
  | [], _ => none
  | s :: l, j => if j < s.len then some (s.start + j) else cellAt l (j - s.len)

/-- **Reading all segments reads the cells in order.** -/
theorem getElem?_readAll (f : ℕ → β) : ∀ (l : List Seg) (j : ℕ),
    (readAll f l)[j]? = (cellAt l j).map f
  | [], _ => rfl
  | s :: l, j => by
      rw [readAll_cons, cellAt]
      split
      · rename_i hj
        rw [List.getElem?_append_left (by simpa using hj)]
        simp [Seg.read, hj]
      · rename_i hj
        rw [List.getElem?_append_right (by simpa using hj), Seg.length_read]
        exact getElem?_readAll f l _

/-! ## Copies -/

/-- A copy of `len` cells, from `src` on in one store to `dst` on in another. -/
structure Copy where
  /-- The first cell read. -/
  src : ℕ
  /-- The first cell written. -/
  dst : ℕ
  /-- The number of cells. -/
  len : ℕ
  deriving DecidableEq, Repr

namespace Copy

/-- The cells a copy writes. -/
def target (c : Copy) : Seg := ⟨c.dst, c.len⟩

/-- The written store. -/
def apply (c : Copy) (f g : ℕ → β) : ℕ → β :=
  fun k => if c.target.Mem k then f (c.src + (k - c.dst)) else g k

/-- Two copies that write no common cell. -/
def Apart (c d : Copy) : Prop := c.target.Disj d.target

instance : Std.Symm Apart := ⟨fun _ _ => Seg.Disj.symm⟩

/-- The copy's cells hold what they were copied from. -/
def Done (c : Copy) (f g : ℕ → β) : Prop := ∀ j < c.len, g (c.dst + j) = f (c.src + j)

theorem apply_of_not_mem {c : Copy} (f g : ℕ → β) {k : ℕ} (h : ¬ c.target.Mem k) :
    c.apply f g k = g k := if_neg h

/-- **A performed copy is done.** -/
theorem done_apply (c : Copy) (f g : ℕ → β) : c.Done f (c.apply f g) := by
  intro j hj
  have hmem : c.target.Mem (c.dst + j) := ⟨Nat.le_add_right _ _, Nat.add_lt_add_left hj _⟩
  rw [apply, if_pos hmem, Nat.add_sub_cancel_left]

/-- A done copy reads like its source. -/
theorem Done.read_eq {c : Copy} {f g : ℕ → β} (h : c.Done f g) :
    Seg.read g c.target = Seg.read f ⟨c.src, c.len⟩ := by
  refine List.ext_getElem (by simp [target]) fun j h1 h2 => ?_
  simpa [Seg.read, target] using h j (by simpa [target] using h1)

/-- A done copy stays done while others write elsewhere. -/
theorem Done.apply_disj {c d : Copy} {f g : ℕ → β} (h : d.Done f g)
    (hcd : d.Apart c) : d.Done f (c.apply f g) := by
  intro j hj
  have hmem : d.target.Mem (d.dst + j) := ⟨Nat.le_add_right _ _, Nat.add_lt_add_left hj _⟩
  rw [apply_of_not_mem f g (hcd _ hmem)]
  exact h j hj

end Copy

/-! ## Packing and unpacking -/

/-- Pack segments one behind the other, from cell `b` on. -/
def gather : ℕ → List Seg → List Copy
  | _, [] => []
  | b, s :: l => ⟨s.start, b, s.len⟩ :: gather (b + s.len) l

/-- Unpack a run of cells that starts at `b` into segments. -/
def scatter : ℕ → List Seg → List Copy
  | _, [] => []
  | b, s :: l => ⟨b, s.start, s.len⟩ :: scatter (b + s.len) l

theorem le_dst_of_mem_gather : ∀ {b : ℕ} {l : List Seg} {c : Copy}, c ∈ gather b l → b ≤ c.dst
  | b, s :: l, c, h => by
      rcases List.mem_cons.mp h with rfl | h
      · exact Nat.le_refl _
      · have := le_dst_of_mem_gather h
        omega

/-- **Packed segments do not overlap.** -/
theorem pairwise_gather : ∀ (b : ℕ) (l : List Seg), (gather b l).Pairwise Copy.Apart
  | _, [] => List.Pairwise.nil
  | b, s :: l => by
      refine List.pairwise_cons.mpr ⟨fun d hd k hk hk' => ?_, pairwise_gather (b + s.len) l⟩
      have hle := le_dst_of_mem_gather hd
      have h1 : k < b + s.len := hk.2
      have h2 : d.dst ≤ k := hk'.1
      omega

/-- **Once every copy of a packing is done, the packed cells read like the segments.** -/
theorem read_gather {f g : ℕ → β} : ∀ {b : ℕ} {l : List Seg}, (∀ c ∈ gather b l, c.Done f g) →
    Seg.read g ⟨b, total l⟩ = readAll f l
  | _, [], _ => rfl
  | b, s :: l, h => by
      have hhead : Copy.Done ⟨s.start, b, s.len⟩ f g := h _ (List.mem_cons_self ..)
      have htail : Seg.read g ⟨b + s.len, total l⟩ = readAll f l :=
        read_gather fun c hc => h c (List.mem_cons_of_mem _ hc)
      have hseg : (List.range' b s.len).map g = s.read f := hhead.read_eq
      rw [readAll_cons, ← htail, ← hseg, Seg.read, Seg.read, total_cons, ← List.map_append,
        List.range'_append_1]

theorem map_target_scatter : ∀ (b : ℕ) (l : List Seg), (scatter b l).map Copy.target = l
  | _, [] => rfl
  | b, s :: l => by rw [scatter, List.map_cons, map_target_scatter (b + s.len) l]; rfl

/-- Unpacked segments do not overlap when the segments do not. -/
theorem pairwise_scatter {b : ℕ} {l : List Seg} (h : l.Pairwise Seg.Disj) :
    (scatter b l).Pairwise Copy.Apart := by
  rw [← map_target_scatter b l] at h
  exact (List.pairwise_map (f := Copy.target)).mp h

/-- The `k`-th unpacked segment comes from behind the ones before it. -/
theorem getElem?_scatter : ∀ (b : ℕ) (l : List Seg) (k : ℕ),
    (scatter b l)[k]? = l[k]?.map fun s => ⟨b + total (l.take k), s.start, s.len⟩
  | _, [], k => by simp [scatter]
  | b, s :: l, 0 => by simp [scatter]
  | b, s :: l, k + 1 => by
      have ih := getElem?_scatter (b + s.len) l k
      simp only [scatter, List.getElem?_cons_succ, ih, List.take_succ_cons, total_cons]
      refine congrArg (fun g => Option.map g l[k]?) (funext fun t => ?_)
      rw [Nat.add_assoc]

/-- An unpacked run is as long as the segments. -/
theorem src_add_len_le_of_mem_scatter : ∀ {b : ℕ} {l : List Seg} {c : Copy}, c ∈ scatter b l →
    c.src + c.len ≤ b + total l
  | b, s :: l, c, h => by
      rw [total_cons]
      rcases List.mem_cons.mp h with rfl | h
      · dsimp only
        omega
      · have := src_add_len_le_of_mem_scatter h
        omega

/-- Once every copy of an unpacking is done, a cell of the segments holds its place in the run. -/
theorem eq_of_scatter_done {f g : ℕ → β} : ∀ {b : ℕ} {l : List Seg} {j a : ℕ},
    (∀ c ∈ scatter b l, c.Done f g) → cellAt l j = some a → g a = f (b + j)
  | b, s :: l, j, a, h, ha => by
      rw [cellAt] at ha
      split at ha
      · rename_i hj
        obtain rfl := Option.some.inj ha
        exact h _ (List.mem_cons_self ..) j hj
      · rename_i hj
        have ih := eq_of_scatter_done (fun c hc => h c (List.mem_cons_of_mem _ hc)) ha
        rw [ih]
        congr 1
        omega

/-! ## Copies in an arbitrary order -/

/-- **How far a list of copies has got**: a copy is still pending or done, and the cells no copy
writes are as they were. -/
structure Progress (cs : List Copy) (pend : Copy → Prop) (f g₀ g : ℕ → β) : Prop where
  /-- A copy that is not pending is done. -/
  done : ∀ c ∈ cs, pend c ∨ c.Done f g
  /-- Other cells are untouched. -/
  frame : ∀ k, (∀ c ∈ cs, ¬ c.target.Mem k) → g k = g₀ k

namespace Progress

variable {cs : List Copy} {pend pend' : Copy → Prop} {f g₀ g : ℕ → β}

/-- Nothing done yet. -/
theorem start (h : ∀ c ∈ cs, pend c) : Progress cs pend f g₀ g₀ :=
  ⟨fun c hc => Or.inl (h c hc), fun _ _ => rfl⟩

theorem mono (h : Progress cs pend f g₀ g) (hp : ∀ c ∈ cs, pend c → pend' c) :
    Progress cs pend' f g₀ g :=
  ⟨fun c hc => (h.done c hc).imp_left (hp c hc), h.frame⟩

/-- **Performing any one copy makes progress**, whichever it is: the others write elsewhere. -/
theorem apply (h : Progress cs pend f g₀ g)
    (hd : cs.Pairwise Copy.Apart) {c : Copy} (hc : c ∈ cs)
    (hp : ∀ d ∈ cs, pend d → pend' d ∨ d = c) : Progress cs pend' f g₀ (c.apply f g) := by
  refine ⟨fun d hdm => ?_, fun k hk => ?_⟩
  · by_cases hdc : d = c
    · exact Or.inr (hdc ▸ c.done_apply f g)
    · rcases h.done d hdm with hpd | hdone
      · exact Or.inl ((hp d hdm hpd).resolve_right hdc)
      · exact Or.inr (hdone.apply_disj (hd.forall hdm hc hdc))
  · rw [Copy.apply_of_not_mem f g (hk c hc)]
    exact h.frame k hk

/-- With nothing pending every copy is done. -/
theorem all_done (h : Progress cs pend f g₀ g) (hp : ∀ c ∈ cs, ¬ pend c) :
    ∀ c ∈ cs, c.Done f g :=
  fun c hc => (h.done c hc).resolve_left (hp c hc)

end Progress

/-! ## One run -/

/-- **A run made up of segments**, by what their ends say: the run begins and ends with one of them,
all lie inside it, and a segment that stops short of the end is followed without a gap. -/
structure RunOf (r : Seg) (l : List Seg) : Prop where
  empty : l = [] → r.len = 0
  first : l ≠ [] → ∃ s ∈ l, s.start = r.start
  last : l ≠ [] → ∃ s ∈ l, s.start + s.len = r.start + r.len
  inside : ∀ s ∈ l, r.start ≤ s.start ∧ s.start + s.len ≤ r.start + r.len
  linked : ∀ s ∈ l, s.start + s.len = r.start + r.len ∨ ∃ t ∈ l, t.Mem (s.start + s.len)

/-- From a segment that begins before a cell of the run, links lead to one that holds the cell. -/
theorem RunOf.exists_mem {r : Seg} {l : List Seg} (h : RunOf r l) {k : ℕ}
    (hk : k < r.start + r.len) : ∀ n, ∀ s ∈ l, s.start ≤ k → r.start + r.len ≤ s.start + s.len + n →
      ∃ t ∈ l, t.Mem k
  | 0, s, hs, hle, hn => ⟨s, hs, hle, by omega⟩
  | n + 1, s, hs, hle, hn => by
      by_cases hlt : k < s.start + s.len
      · exact ⟨s, hs, hle, hlt⟩
      · rcases h.linked s hs with heq | ⟨t, ht, htm⟩
        · omega
        · have h1 := htm.1
          have h2 := htm.2
          exact h.exists_mem hk n t ht (by omega) (by omega)

/-- **Nonempty segments have exactly the cells of a run when they make it up.** -/
theorem runOf_iff {r : Seg} {l : List Seg} (hpos : ∀ s ∈ l, 0 < s.len) :
    (∀ k, r.Mem k ↔ ∃ s ∈ l, s.Mem k) ↔ RunOf r l := by
  constructor
  · intro h
    have hin : ∀ s ∈ l, r.start ≤ s.start ∧ s.start + s.len ≤ r.start + r.len := fun s hs => by
      have hlen := hpos s hs
      have hfst := (h s.start).mpr ⟨s, hs, Nat.le_refl _, by omega⟩
      have hlst := (h (s.start + s.len - 1)).mpr ⟨s, hs, by omega, by omega⟩
      have := hfst.1
      have := hlst.2
      omega
    have hlen : l ≠ [] → 0 < r.len := fun hne => by
      obtain ⟨s, hs⟩ := List.exists_mem_of_ne_nil l hne
      have := hin s hs
      have := hpos s hs
      omega
    refine ⟨fun hnil => ?_, fun hne => ?_, fun hne => ?_, hin, fun s hs => ?_⟩
    · by_contra hne
      obtain ⟨s, hs, -⟩ := (h r.start).mp ⟨Nat.le_refl _, by omega⟩
      rw [hnil] at hs
      cases hs
    · have := hlen hne
      obtain ⟨s, hs, hmem⟩ := (h r.start).mp ⟨Nat.le_refl _, by omega⟩
      exact ⟨s, hs, Nat.le_antisymm hmem.1 (hin s hs).1⟩
    · have := hlen hne
      obtain ⟨s, hs, hmem⟩ := (h (r.start + r.len - 1)).mp ⟨by omega, by omega⟩
      have := hmem.2
      have := (hin s hs).2
      exact ⟨s, hs, by omega⟩
    · rcases Nat.eq_or_lt_of_le (hin s hs).2 with heq | hlt
      · exact Or.inl heq
      · have := (hin s hs).1
        exact Or.inr ((h _).mp ⟨by omega, hlt⟩)
  · intro h k
    constructor
    · intro hk
      have hne : l ≠ [] := fun hnil => by
        have := h.empty hnil
        have h1 := hk.1
        have h2 := hk.2
        omega
      obtain ⟨s, hs, hstart⟩ := h.first hne
      have := hk.1
      exact h.exists_mem hk.2 r.len s hs (by omega) (by omega)
    · rintro ⟨s, hs, hmem⟩
      have hin := h.inside s hs
      have h1 := hmem.1
      have h2 := hmem.2
      exact ⟨by omega, by omega⟩

end Machinery
