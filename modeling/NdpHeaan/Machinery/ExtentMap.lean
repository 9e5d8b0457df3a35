import NdpHeaan.Machinery.Segments

/-!
# Machinery/ExtentMap — address spaces pieced together from runs of a store

A `Piece` maps a run of positions to a run of cells of a store and carries a tag; an extent map is a
list of pieces in order of position.  Two readings of the same list compete: by *position*
(`lookup`), and by *concatenation* (`cellAt` over the pieces' segments).  They agree exactly where
the pieces leave no gap.
-/

namespace Machinery

variable {τ : Type*}

/-- A run of positions, mapped to a run of cells. -/
structure Piece (τ : Type*) where
  /-- The first position. -/
  pos : ℕ
  /-- The cell it is mapped to. -/
  base : ℕ
  /-- The number of positions. -/
  len : ℕ
  /-- What is known about the run. -/
  tag : τ

namespace Piece

/-- The position behind a piece. -/
def stop (p : Piece τ) : ℕ := p.pos + p.len

/-- The cells of a piece. -/
def seg (p : Piece τ) : Seg := ⟨p.base, p.len⟩

@[simp] theorem seg_len (p : Piece τ) : p.seg.len = p.len := rfl

/-- The positions of a piece. -/
def Mem (p : Piece τ) (k : ℕ) : Prop := p.pos ≤ k ∧ k < p.stop

instance (p : Piece τ) (k : ℕ) : Decidable (p.Mem k) := inferInstanceAs (Decidable (_ ∧ _))

end Piece

/-- The cell and the tag at a position. -/
def lookup : List (Piece τ) → ℕ → Option (ℕ × τ)
  | [], _ => none
  | p :: l, k => if p.Mem k then some (p.base + (k - p.pos), p.tag) else lookup l k

/-- The position behind the last piece, `b` where there is none. -/
def stopOf : ℕ → List (Piece τ) → ℕ
  | b, [] => b
  | _, p :: l => stopOf p.stop l

/-- Pieces in order of position, from `b` on, none of them empty. -/
def Ordered : ℕ → List (Piece τ) → Prop
  | _, [] => True
  | b, p :: l => b ≤ p.pos ∧ 0 < p.len ∧ Ordered p.stop l

/-- Pieces without a gap, from `b` on. -/
def Tiles : ℕ → List (Piece τ) → Prop
  | _, [] => True
  | b, p :: l => p.pos = b ∧ Tiles p.stop l

instance : ∀ (b : ℕ) (l : List (Piece τ)), Decidable (Ordered b l)
  | _, [] => inferInstanceAs (Decidable True)
  | _, p :: l =>
    have := instDecidableOrdered p.stop l
    inferInstanceAs (Decidable (_ ∧ _ ∧ _))

instance : ∀ (b : ℕ) (l : List (Piece τ)), Decidable (Tiles b l)
  | _, [] => inferInstanceAs (Decidable True)
  | _, p :: l =>
    have := instDecidableTiles p.stop l
    inferInstanceAs (Decidable (_ ∧ _))

/-! ## Order -/

theorem Ordered.le_stopOf : ∀ {b : ℕ} {l : List (Piece τ)}, Ordered b l → b ≤ stopOf b l
  | _, [], _ => Nat.le_refl _
  | b, p :: l, ⟨hb, _, hl⟩ => by
      have := hl.le_stopOf
      rw [stopOf]
      rw [Piece.stop] at this ⊢
      omega

theorem Ordered.take : ∀ {b : ℕ} {l : List (Piece τ)} (n : ℕ), Ordered b l → Ordered b (l.take n)
  | _, [], _, _ => by rw [List.take_nil]; trivial
  | _, _ :: _, 0, _ => trivial
  | _, _ :: _, n + 1, ⟨hb, hp, hl⟩ => ⟨hb, hp, hl.take n⟩

/-- Cutting pieces off cuts positions off. -/
theorem Ordered.stopOf_take_lt : ∀ {b : ℕ} {l : List (Piece τ)} {n : ℕ}, Ordered b l →
    n < l.length → stopOf b (l.take n) < stopOf b l
  | b, p :: l, 0, ⟨hb, hp, hl⟩, _ => by
      have := hl.le_stopOf
      rw [List.take_zero, stopOf, stopOf]
      rw [Piece.stop] at this ⊢
      omega
  | _, _ :: _, n + 1, ⟨_, _, hl⟩, hn => hl.stopOf_take_lt (Nat.lt_of_succ_lt_succ hn)

/-- No position before the first piece is mapped. -/
theorem Ordered.lookup_eq_none : ∀ {b : ℕ} {l : List (Piece τ)} {k : ℕ}, Ordered b l → k < b →
    lookup l k = none
  | _, [], _, _, _ => rfl
  | b, p :: l, k, ⟨hb, _, hl⟩, hk => by
      have hmem : ¬ p.Mem k := fun h => by have := h.1; omega
      rw [lookup, if_neg hmem]
      exact hl.lookup_eq_none (by rw [Piece.stop]; omega)

theorem lookup_append : ∀ (l l' : List (Piece τ)) (k : ℕ),
    lookup (l ++ l') k = (lookup l k).or (lookup l' k)
  | [], _, _ => rfl
  | p :: l, l', k => by
      rw [List.cons_append, lookup, lookup]
      split
      · rfl
      · exact lookup_append l l' k

theorem Ordered.drop : ∀ {b : ℕ} {l : List (Piece τ)} (n : ℕ), Ordered b l →
    Ordered (stopOf b (l.take n)) (l.drop n)
  | _, [], _, _ => by rw [List.drop_nil]; trivial
  | _, _ :: _, 0, h => h
  | _, _ :: _, n + 1, ⟨_, _, hl⟩ => hl.drop n

/-- **Before its end, a list of first pieces decides.** -/
theorem Ordered.lookup_take {b : ℕ} {l : List (Piece τ)} (h : Ordered b l) {n k : ℕ}
    (hk : k < stopOf b (l.take n)) : lookup (l.take n) k = lookup l k := by
  conv_rhs => rw [← List.take_append_drop n l, lookup_append, (h.drop n).lookup_eq_none hk]
  exact (Option.or_none ..).symm

/-! ## Gaps -/

/-- The pieces hold no more cells than there are positions… -/
theorem Ordered.total_le : ∀ {b : ℕ} {l : List (Piece τ)}, Ordered b l →
    b + total (l.map Piece.seg) ≤ stopOf b l
  | _, [], _ => Nat.le_refl _
  | b, p :: l, ⟨hb, _, hl⟩ => by
      have := hl.total_le
      rw [List.map_cons, total_cons, stopOf, Piece.seg_len]
      rw [Piece.stop] at this ⊢
      omega

/-- …and as many only if there is no gap. -/
theorem Ordered.tiles_of_total : ∀ {b : ℕ} {l : List (Piece τ)}, Ordered b l →
    stopOf b l ≤ b + total (l.map Piece.seg) → Tiles b l
  | _, [], _, _ => trivial
  | b, p :: l, ⟨hb, _, hl⟩, h => by
      have hle := hl.total_le
      rw [List.map_cons, total_cons, stopOf, Piece.seg_len] at h
      refine ⟨?_, hl.tiles_of_total ?_⟩
      · rw [Piece.stop] at hle h
        omega
      · rw [Piece.stop] at h ⊢
        omega

theorem Tiles.total_eq : ∀ {b : ℕ} {l : List (Piece τ)}, Tiles b l →
    b + total (l.map Piece.seg) = stopOf b l
  | _, [], _ => rfl
  | b, p :: l, ⟨hb, hl⟩ => by
      have := hl.total_eq
      rw [List.map_cons, total_cons, stopOf, Piece.seg_len]
      rw [Piece.stop] at this ⊢
      omega

/-- Pieces that leave no position unmapped up to `c` leave no gap there: **position and
concatenation agree**. -/
theorem Ordered.cellAt_eq_lookup : ∀ {b c : ℕ} {l : List (Piece τ)}, Ordered b l →
    (∀ k, b ≤ k → k < c → lookup l k ≠ none) → ∀ k, b ≤ k → k < c →
      cellAt (l.map Piece.seg) (k - b) = (lookup l k).map Prod.fst
  | b, c, [], _, hcov, k, h1, h2 => absurd rfl (hcov k h1 h2)
  | b, c, p :: l, ⟨hb, hp, hl⟩, hcov, k, h1, h2 => by
      have hpos : p.pos = b := by
        by_contra hne
        refine hcov b (Nat.le_refl b) (by omega) ?_
        exact Ordered.lookup_eq_none (b := p.pos) ⟨Nat.le_refl _, hp, hl⟩ (by omega)
      rw [List.map_cons, cellAt, lookup]
      by_cases hk : k < p.stop
      · have hmem : p.Mem k := ⟨by omega, hk⟩
        have hlt : k - b < p.seg.len := by
          rw [Piece.stop] at hk
          rw [Piece.seg_len]
          omega
        rw [if_pos hmem, if_pos hlt, hpos]
        rfl
      · have hmem : ¬ p.Mem k := fun h => hk h.2
        have hge : ¬ k - b < p.seg.len := by
          rw [Piece.stop] at hk
          rw [Piece.seg_len]
          omega
        have hsub : k - b - p.seg.len = k - p.stop := by
          rw [Piece.stop, Piece.seg_len]
          omega
        rw [if_neg hmem, if_neg hge, hsub]
        refine hl.cellAt_eq_lookup (c := c) (fun j h3 h4 => ?_) k (by omega) h2
        have hj := hcov j (by rw [Piece.stop] at h3; omega) h4
        rwa [lookup, if_neg fun h => by have := h.2; omega] at hj

/-- Tiles leave no position unmapped. -/
theorem Tiles.lookup_ne_none : ∀ {b : ℕ} {l : List (Piece τ)}, Tiles b l → ∀ k, b ≤ k →
    k < stopOf b l → lookup l k ≠ none
  | b, [], _, k, h1, h2 => by rw [stopOf] at h2; omega
  | b, p :: l, ⟨hb, hl⟩, k, h1, h2 => by
      rw [lookup]
      split
      · exact Option.some_ne_none _
      · rename_i hmem
        refine hl.lookup_ne_none k ?_ h2
        by_contra hlt
        exact hmem ⟨by omega, by omega⟩

/-- A mapped position lies in a piece. -/
theorem exists_of_lookup : ∀ {l : List (Piece τ)} {k a : ℕ} {t : τ}, lookup l k = some (a, t) →
    ∃ p ∈ l, p.Mem k ∧ p.tag = t ∧ a = p.base + (k - p.pos)
  | p :: l, k, a, t, h => by
      rw [lookup] at h
      split at h
      · rename_i hmem
        obtain ⟨rfl, rfl⟩ := Prod.mk.inj (Option.some.inj h)
        exact ⟨p, List.mem_cons_self .., hmem, rfl, rfl⟩
      · obtain ⟨q, hq, h⟩ := exists_of_lookup h
        exact ⟨q, List.mem_cons_of_mem _ hq, h⟩

theorem Ordered.pos_of_mem : ∀ {b : ℕ} {l : List (Piece τ)}, Ordered b l → ∀ p ∈ l,
    b ≤ p.pos ∧ 0 < p.len
  | b, q :: l, ⟨hb, hq, hl⟩, p, hp => by
      rcases List.mem_cons.mp hp with rfl | hp
      · exact ⟨hb, hq⟩
      · have h := hl.pos_of_mem p hp
        rw [Piece.stop] at h
        omega

/-- In an ordered map, the positions of a piece are its own. -/
theorem Ordered.lookup_of_mem : ∀ {b : ℕ} {l : List (Piece τ)}, Ordered b l → ∀ p ∈ l,
    ∀ k, p.Mem k → lookup l k = some (p.base + (k - p.pos), p.tag)
  | b, q :: l, ⟨hb, hq, hl⟩, p, hp, k, hk => by
      rcases List.mem_cons.mp hp with rfl | hp
      · rw [lookup, if_pos hk]
      · have hge := (hl.pos_of_mem p hp).1
        have hnot : ¬ q.Mem k := fun h => by
          have h1 := h.2
          have h2 := hk.1
          omega
        rw [lookup, if_neg hnot]
        exact hl.lookup_of_mem p hp k hk

/-! ## Counting pieces -/

/-- Pieces that begin before a position they leave nothing unmapped below are as many as it takes to
reach it. -/
theorem Ordered.le_stopOf_take_iff : ∀ {b c : ℕ} {l : List (Piece τ)} (n : ℕ), Ordered b l →
    (∀ k, b ≤ k → k < c → lookup l k ≠ none) →
      (c ≤ stopOf b (l.take n) ↔ l.countP (fun p => p.pos < c) ≤ n)
  | b, c, [], n, _, hcov => by
      have hle : c ≤ b := Nat.le_of_not_lt fun h => hcov b (Nat.le_refl b) h rfl
      simpa [stopOf] using hle
  | b, c, p :: l, 0, ⟨hb, hp, hl⟩, hcov => by
      rw [List.take_zero, stopOf, Nat.le_zero, List.countP_eq_zero]
      constructor
      · intro hle q hq
        have hord : Ordered b (p :: l) := ⟨hb, hp, hl⟩
        have := (hord.pos_of_mem q hq).1
        simp only [decide_eq_true_eq]
        omega
      · intro h
        by_contra hlt
        have hord : Ordered p.pos (p :: l) := ⟨Nat.le_refl _, hp, hl⟩
        have hpos := h p (List.mem_cons_self ..)
        simp only [decide_eq_true_eq] at hpos
        exact hcov b (Nat.le_refl b) (by omega) (hord.lookup_eq_none (by omega))
  | b, c, p :: l, n + 1, ⟨hb, hp, hl⟩, hcov => by
      have hstop : p.stop = p.pos + p.len := rfl
      have ih := hl.le_stopOf_take_iff (c := c) n fun k h1 h2 => by
        have hk := hcov k (by omega) h2
        rwa [lookup, if_neg fun h => by have := h.2; omega] at hk
      rw [List.take_succ_cons, stopOf, ih, List.countP_cons]
      by_cases hpc : p.pos < c
      · simp [hpc]
      · have hzero : l.countP (fun p => p.pos < c) = 0 := List.countP_eq_zero.mpr fun q hq => by
          have := (hl.pos_of_mem q hq).1
          simp only [decide_eq_true_eq]
          omega
        simp [hpc, hzero]

theorem Ordered.nodup : ∀ {b : ℕ} {l : List (Piece τ)}, Ordered b l → l.Nodup
  | _, [], _ => List.nodup_nil
  | _, p :: _, ⟨_, hp, hl⟩ => List.nodup_cons.mpr ⟨fun h => by
      have h1 : p.stop ≤ p.pos := (hl.pos_of_mem p h).1
      rw [Piece.stop] at h1
      omega, hl.nodup⟩

/-- Two pieces of an ordered map with a common position are one. -/
theorem Ordered.eq_of_mem : ∀ {b : ℕ} {l : List (Piece τ)}, Ordered b l → ∀ p ∈ l, ∀ q ∈ l,
    ∀ k, p.Mem k → q.Mem k → p = q
  | _, r :: _, ⟨_, _, hl⟩, p, hp, q, hq, k, hpk, hqk => by
      have hafter : ∀ s : Piece τ, s.Mem k → r.Mem k → ¬ r.stop ≤ s.pos := fun s h1 h2 => by
        have := h1.1
        have := h2.2
        omega
      rcases List.mem_cons.mp hp with rfl | hp'
      · rcases List.mem_cons.mp hq with rfl | hq'
        · rfl
        · exact absurd (hl.pos_of_mem q hq').1 (hafter q hqk hpk)
      · rcases List.mem_cons.mp hq with rfl | hq'
        · exact absurd (hl.pos_of_mem p hp').1 (hafter p hpk hqk)
        · exact hl.eq_of_mem p hp' q hq' k hpk hqk

end Machinery
