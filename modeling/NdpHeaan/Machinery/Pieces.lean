import NdpHeaan.Machinery.Segments

/-!
# Machinery/Pieces — cutting a scatter-gather list into pieces

A cursor on a list of segments names one of them and a place in it.  Pieces are cut off from the
cursor on, each of one segment; the last piece can be put back, as a whole or in part
(`Pieces.drop_last`, `Pieces.shorten`).  Whatever was cut off and put back, the pieces hold the
cells between the two ends of the cursor (`Pieces.readAll`).
-/

namespace Machinery

/-- A place in a list of segments. -/
structure Cursor where
  /-- Which segment. -/
  pos : ℕ
  /-- The cells of it that are behind. -/
  off : ℕ
  deriving DecidableEq, Repr

namespace Cursor

/-- The number of cells behind. -/
def cells (l : List Seg) (p : Cursor) : ℕ := total (l.take p.pos) + p.off

/-- The cursor behind `n` more cells of the segment it is in. -/
def advance (v : Seg) (n : ℕ) (p : Cursor) : Cursor :=
  if n < v.len - p.off then ⟨p.pos, p.off + n⟩ else ⟨p.pos + 1, 0⟩

/-- The cursor before the last `n` cells. -/
def back (l : List Seg) (n : ℕ) (p : Cursor) : Cursor :=
  if p.off = 0 then ⟨p.pos - 1, ((l[p.pos - 1]?).map Seg.len).getD 0 - n⟩
  else ⟨p.pos, p.off - n⟩

/-- The cursor is in a segment, or behind the last one. -/
def Valid (l : List Seg) (p : Cursor) : Prop :=
  (∃ v, l[p.pos]? = some v ∧ p.off < v.len) ∨ p = ⟨l.length, 0⟩

end Cursor

/-- The segment that the `n`-th cell is in, and its place there. -/
def seek : List Seg → ℕ → Cursor
  | [], n => ⟨0, n⟩
  | v :: l, n =>
    if n < v.len then ⟨0, n⟩ else ⟨(seek l (n - v.len)).pos + 1, (seek l (n - v.len)).off⟩

variable {β : Type*} {l : List Seg} {p q : Cursor} {ps : List Seg} {v x : Seg} {n t : ℕ}

@[simp] theorem total_append (l l' : List Seg) : total (l ++ l') = total l + total l' := by
  simp [total]

@[simp] theorem readAll_append (f : ℕ → β) (l l' : List Seg) :
    readAll f (l ++ l') = readAll f l ++ readAll f l' :=
  List.flatMap_append ..

theorem cells_seek : ∀ (l : List Seg) (n : ℕ), (seek l n).cells l = n
  | [], n => by simp [seek, Cursor.cells, total]
  | v :: l, n => by
      rw [seek]
      split
      · simp [Cursor.cells, total]
      · have hrest := cells_seek l (n - v.len)
        simp only [Cursor.cells, List.take_succ_cons, total_cons] at hrest ⊢
        omega

theorem valid_seek : ∀ {l : List Seg} {n : ℕ}, n ≤ total l → (seek l n).Valid l
  | [], n, h => .inr (by rw [seek, Nat.le_zero.mp h]; rfl)
  | v :: l, n, h => by
      rw [seek]
      split
      · rename_i hn
        exact .inl ⟨v, rfl, hn⟩
      · rcases valid_seek (l := l) (n := n - v.len) (by rw [total_cons] at h; omega) with
          ⟨w, hw, hlt⟩ | heq
        · exact .inl ⟨w, hw, hlt⟩
        · rw [heq]
          exact .inr rfl

/-- **Pieces cut off a list**, from a cursor to another. -/
inductive Pieces (l : List Seg) (p : Cursor) : List Seg → Cursor → Prop
  | nil : Pieces l p [] p
  | snoc {ps : List Seg} {q : Cursor} {v : Seg} {n : ℕ} (h : Pieces l p ps q)
      (hv : l[q.pos]? = some v) (hoff : q.off < v.len) (hpos : 0 < n) (hn : n ≤ v.len - q.off) :
      Pieces l p (ps ++ [⟨v.start + q.off, n⟩]) (q.advance v n)

section Cells

variable (hv : l[p.pos]? = some v) (hoff : p.off < v.len)
include hv hoff

theorem Cursor.cells_advance (hn : n ≤ v.len - p.off) :
    (p.advance v n).cells l = p.cells l + n := by
  unfold Cursor.advance Cursor.cells
  split
  · exact (Nat.add_assoc ..).symm
  · have htake : l.take (p.pos + 1) = l.take p.pos ++ [v] := by
      rw [List.take_add_one, hv]
      rfl
    simp only [htake, total_append, total_cons, total_nil]
    omega

theorem Cursor.back_advance (hpos : 0 < n) (hn : n ≤ v.len - p.off) (ht : t ≤ n) :
    (p.advance v n).back l t = ⟨p.pos, p.off + (n - t)⟩ := by
  unfold Cursor.advance Cursor.back
  split
  · rw [if_neg (by simp; omega)]
    simp only [Cursor.mk.injEq, true_and]
    omega
  · rw [if_pos rfl]
    simp only [Nat.add_sub_cancel, hv, Option.map_some, Option.getD_some, Cursor.mk.injEq, true_and]
    omega

/-- Putting a part of a piece back is cutting off a shorter one. -/
theorem Cursor.back_advance_of_lt (hpos : 0 < n) (hn : n ≤ v.len - p.off) (ht : 0 < t)
    (hlt : t < n) :
    (p.advance v n).back l t = p.advance v (n - t) := by
  rw [Cursor.back_advance hv hoff hpos hn (Nat.le_of_lt hlt)]
  unfold Cursor.advance
  rw [if_pos (by omega)]

/-- The cells behind a cursor, as far as its segment goes. -/
theorem take_drop_readAll (f : ℕ → β) (hn : n ≤ v.len - p.off) :
    ((readAll f l).drop (p.cells l)).take n = Seg.read f ⟨v.start + p.off, n⟩ := by
  obtain ⟨hlt, hget⟩ := List.getElem?_eq_some_iff.mp hv
  have hl : l = l.take p.pos ++ v :: l.drop (p.pos + 1) := by
    rw [← hget, List.getElem_cons_drop, List.take_append_drop]
  have hread : readAll f l =
      readAll f (l.take p.pos) ++ (v.read f ++ readAll f (l.drop (p.pos + 1))) := by
    conv_lhs => rw [hl]
    rw [readAll_append, readAll_cons]
  have hlen : (readAll f (l.take p.pos)).length = total (l.take p.pos) := length_readAll ..
  rw [hread, Cursor.cells, ← List.drop_drop, ← hlen, List.drop_left]
  have hfit : n ≤ ((v.read f).drop p.off).length := by
    rw [List.length_drop, Seg.length_read]
    exact hn
  rw [List.drop_append_of_le_length (by rw [Seg.length_read]; omega),
    List.take_append_of_le_length hfit]
  unfold Seg.read
  rw [← List.map_drop, ← List.map_take, List.drop_range', Nat.mul_one,
    List.take_range'_of_length_ge hn]

end Cells

/-! ## What pieces hold -/

theorem Pieces.cells (h : Pieces l p ps q) : q.cells l = p.cells l + total ps := by
  induction h with
  | nil => rfl
  | snoc h hv hoff hpos hn ih =>
    simp only [Cursor.cells_advance hv hoff hn, ih, total_append, total_cons, total_nil,
      Nat.add_zero, Nat.add_assoc]

/-- **The pieces hold the cells between the two ends of the cursor.** -/
theorem Pieces.readAll (h : Pieces l p ps q) (f : ℕ → β) :
    Machinery.readAll f ps = ((Machinery.readAll f l).drop (p.cells l)).take (total ps) := by
  induction h with
  | nil => rfl
  | snoc h hv hoff hpos hn ih =>
    rw [readAll_append, ih, readAll_cons, readAll_nil, List.append_nil, total_append, total_cons,
      total_nil, Nat.add_zero, List.take_add, List.drop_drop, ← h.cells,
      take_drop_readAll hv hoff f hn]

theorem Pieces.eq_of_nil (h : Pieces l p [] q) : q = p := by
  generalize hnil : ([] : List Seg) = xs at h
  cases h with
  | nil => rfl
  | snoc => simp at hnil

/-- Pieces, and pieces cut off behind them. -/
theorem Pieces.append {r : Cursor} {ps' : List Seg} (h : Pieces l p ps q) (h' : Pieces l q ps' r) :
    Pieces l p (ps ++ ps') r := by
  induction h' with
  | nil => exact (List.append_nil ps).symm ▸ h
  | snoc _ hv hoff hpos hn ih =>
    rw [← List.append_assoc]
    exact ih.snoc hv hoff hpos hn

theorem Pieces.len_pos (h : Pieces l p ps q) : ∀ x ∈ ps, 0 < x.len := by
  induction h with
  | nil => exact fun x hx => by cases hx
  | snoc h hv hoff hpos hn ih =>
    intro x hx
    rcases List.mem_append.mp hx with hx | hx
    · exact ih x hx
    · rw [List.mem_singleton.mp hx]
      exact hpos

/-- How the last piece was cut off. -/
theorem Pieces.last (h : Pieces l p (ps ++ [x]) q) : ∃ r v n, Pieces l p ps r ∧
    l[r.pos]? = some v ∧ r.off < v.len ∧ 0 < n ∧ n ≤ v.len - r.off ∧ x = ⟨v.start + r.off, n⟩ ∧
    q = r.advance v n := by
  generalize hxs : ps ++ [x] = xs at h
  cases h with
  | nil => simp at hxs
  | snoc h hv hoff hpos hn =>
    obtain ⟨rfl, hx⟩ := List.append_inj' hxs rfl
    exact ⟨_, _, _, h, hv, hoff, hpos, hn, List.singleton_inj.mp hx, rfl⟩

/-- The last piece is put back. -/
theorem Pieces.drop_last (h : Pieces l p (ps ++ [x]) q) : Pieces l p ps (q.back l x.len) := by
  obtain ⟨r, v, n, hr, hv, hoff, hpos, hn, rfl, rfl⟩ := h.last
  have hback : (r.advance v n).back l n = r := by
    rw [Cursor.back_advance hv hoff hpos hn (Nat.le_refl n), Nat.sub_self]
    rfl
  rw [hback]
  exact hr

/-- A part of the last piece is put back. -/
theorem Pieces.shorten (h : Pieces l p (ps ++ [x]) q) (ht : 0 < t) (hlt : t < x.len) :
    Pieces l p (ps ++ [⟨x.start, x.len - t⟩]) (q.back l t) := by
  obtain ⟨r, v, n, hr, hv, hoff, hpos, hn, rfl, rfl⟩ := h.last
  have hlt : t < n := hlt
  rw [Cursor.back_advance_of_lt hv hoff hpos hn ht hlt]
  have hshort : n - t ≤ v.len - r.off := by omega
  exact hr.snoc hv hoff (Nat.sub_pos_of_lt hlt) hshort

theorem Cursor.Valid.advance (hpos : ∀ v ∈ l, 0 < v.len) (hv : l[p.pos]? = some v)
    (hoff : p.off < v.len) (n : ℕ) : (p.advance v n).Valid l := by
  unfold Cursor.advance
  split
  · exact .inl ⟨v, hv, by dsimp only; omega⟩
  · by_cases hend : p.pos + 1 < l.length
    · exact .inl ⟨l[p.pos + 1], List.getElem?_eq_getElem hend, hpos _ (List.getElem_mem hend)⟩
    · have hlt := (List.getElem?_eq_some_iff.mp hv).1
      exact .inr (by rw [show p.pos + 1 = l.length by omega])

/-- The cursor stays in the list, where no segment is empty. -/
theorem Pieces.valid (h : Pieces l p ps q) (hpos : ∀ v ∈ l, 0 < v.len) (hp : p.Valid l) :
    q.Valid l := by
  induction h with
  | nil => exact hp
  | snoc h hv hoff _ hn ih => exact .advance hpos hv hoff _

end Machinery
