import NdpHeaan.Bdev.Split

/-!
# Bdev/SplitChild — one child of an I/O that is split

A child takes buffers from the cursor on, as far as its blocks, its entries and the buffers go
(`gatherIov_spec`), and gives bytes back until it has whole blocks (`trimIov_spec`).  So it has the
buffers of its blocks, or would be smaller than one block (`cut_spec`), and it keeps to the limits:
it is not split itself (`not_rwShouldSplit`, `not_shouldSplit_of_chunk`).
-/

open Machinery

namespace NdpHeaan

/-! ## Entries of an array -/

section Slices

variable {arr arr' : ℕ → Seg} {slot n : ℕ}

@[simp] theorem length_slice : (slice arr slot n).length = n := by simp [slice]

theorem slice_succ : slice arr slot (n + 1) = arr slot :: slice arr (slot + 1) n := by
  rw [slice, List.range'_succ]
  rfl

theorem slice_concat : slice arr slot (n + 1) = slice arr slot n ++ [arr (slot + n)] := by
  rw [slice, List.range'_concat, Nat.one_mul, List.map_append]
  rfl

theorem slice_congr (h : ∀ j, slot ≤ j → j < slot + n → arr j = arr' j) :
    slice arr slot n = slice arr' slot n := by
  refine List.map_congr_left fun j hj => ?_
  obtain ⟨hle, hlt⟩ := List.mem_range'_1.mp hj
  exact h j hle hlt

end Slices

/-! ## Taking buffers -/

/-- What `gatherIov` does. -/
structure Takes (iovs : List Seg) (maxSeg left bytes : ℕ) (p : Cursor) (arr : ℕ → Seg) (slot : ℕ)
    (g : Gathered) : Prop where
  pieces : Pieces iovs p (slice g.childIov slot g.iovcnt) g.cursor
  bytes : g.bytes + total (slice g.childIov slot g.iovcnt) = bytes
  frame : ∀ j, j < slot → g.childIov j = arr j
  cnt : g.iovcnt ≤ left
  size : ∀ x ∈ slice g.childIov slot g.iovcnt, x.len ≤ maxSeg
  stops : g.bytes = 0 ∨ g.iovcnt = left ∨ iovs.length ≤ g.cursor.pos

/-- Nothing is taken. -/
theorem takes_none {iovs : List Seg} {maxSeg left bytes slot : ℕ} {p : Cursor} {arr : ℕ → Seg}
    (h : bytes = 0 ∨ 0 = left ∨ iovs.length ≤ p.pos) :
    Takes iovs maxSeg left bytes p arr slot ⟨bytes, p, arr, 0⟩ where
  pieces := .nil
  bytes := rfl
  frame _ _ := rfl
  cnt := Nat.zero_le _
  size _ hx := (List.not_mem_nil hx).elim
  stops := h

theorem gatherIov_spec {iovs : List Seg} {maxSeg : ℕ}
    (hlens : ∀ v ∈ iovs, 0 < v.len ∧ v.len < 2 ^ 32) (hmax : 0 < maxSeg) :
    ∀ (left bytes : ℕ) (p : Cursor) (arr : ℕ → Seg) (slot : ℕ), p.Valid iovs →
      Takes iovs maxSeg left bytes p arr slot (gatherIov iovs maxSeg left bytes p arr slot)
  | 0, _, _, _, _, _ => takes_none (.inr (.inl rfl))
  | left + 1, bytes, p, arr, slot, hp => by
      rw [gatherIov]
      split
      · rename_i hbytes
        exact takes_none (.inl hbytes)
      rename_i hbytes
      rcases hp with ⟨v, hv, hoff⟩ | hend
      · -- one piece of the segment, and the rest
        have hlong := (hlens v (List.mem_of_getElem? hv)).2
        have hmod : (v.len - p.off) % 2 ^ 32 = v.len - p.off := Nat.mod_eq_of_lt (by omega)
        rw [hv]
        dsimp only
        rw [hmod]
        generalize hlen : min (min (v.len - p.off) maxSeg) bytes = len
        have hpos : 0 < len := by omega
        have hfit : len ≤ v.len - p.off := by omega
        have hvalid : (p.advance v len).Valid iovs :=
          .advance (fun w hw => (hlens w hw).1) hv hoff len
        have hrest := gatherIov_spec hlens hmax left (bytes - len) _
          (Function.update arr slot ⟨v.start + p.off, len⟩) (slot + 1) hvalid
        generalize gatherIov iovs maxSeg left (bytes - len) (p.advance v len)
          (Function.update arr slot ⟨v.start + p.off, len⟩) (slot + 1) = g at hrest
        have hfirst : g.childIov slot = ⟨v.start + p.off, len⟩ := by
          rw [hrest.frame slot (Nat.lt_succ_self slot), Function.update_self]
        have hslice : slice g.childIov slot (g.iovcnt + 1) =
            ⟨v.start + p.off, len⟩ :: slice g.childIov (slot + 1) g.iovcnt := by
          rw [slice_succ, hfirst]
        constructor
        case pieces =>
          rw [hslice]
          exact (Pieces.nil.snoc hv hoff hpos hfit).append hrest.pieces
        case bytes =>
          have hsum := hrest.bytes
          rw [hslice, total_cons]
          dsimp only
          omega
        case frame =>
          intro j hj
          rw [hrest.frame j (Nat.lt_succ_of_lt hj), Function.update_of_ne (Nat.ne_of_lt hj)]
        case cnt => exact Nat.succ_le_succ hrest.cnt
        case size =>
          intro x hx
          rw [hslice] at hx
          rcases List.mem_cons.mp hx with rfl | hx
          · show len ≤ maxSeg
            omega
          · exact hrest.size x hx
        case stops =>
          exact hrest.stops.imp_right (Or.imp_left (congrArg (· + 1)))
      · have hnone : iovs[p.pos]? = none := by
          rw [hend]
          exact List.getElem?_eq_none (Nat.le_refl _)
        rw [hnone]
        exact takes_none (.inr (.inr (by rw [hend])))

/-! ## Giving bytes back -/

/-- What `trimIov` does to the pieces of a child. -/
structure GivesBack (iovs : List Seg) (p : Cursor) (arr : ℕ → Seg) (slot bytes : ℕ)
    (segs : List Seg) (t : Trimmed) : Prop where
  frame : ∀ j, j < slot → t.childIov j = arr j
  gone : t.gone = true ↔ bytes = total segs
  pieces : t.gone = false → Pieces iovs p (slice t.childIov slot t.iovcnt) t.cursor
  bytes : t.gone = false → total (slice t.childIov slot t.iovcnt) + bytes = total segs
  cnt : t.iovcnt ≤ segs.length
  size : t.gone = false → ∀ x ∈ slice t.childIov slot t.iovcnt, ∃ y ∈ segs, x.len ≤ y.len

theorem trimIov_spec {iovs : List Seg} {p : Cursor} {slot : ℕ} {segs : List Seg} {bytes : ℕ}
    {q : Cursor} {arr : ℕ → Seg} (hpieces : Pieces iovs p segs q)
    (hslice : slice arr slot segs.length = segs) (hne : segs ≠ []) (hbytes : bytes ≤ total segs) :
    GivesBack iovs p arr slot bytes segs
      (trimIov iovs segs.length bytes (slot + segs.length - 1) q arr) := by
  -- from the last piece on
  induction segs using List.reverseRecOn generalizing bytes q arr with
  | nil => exact absurd rfl hne
  | append_singleton ps x ih =>
    have hlength : (ps ++ [x]).length = ps.length + 1 := List.length_append
    have htotal : total (ps ++ [x]) = total ps + x.len := by
      rw [total_append, total_cons, total_nil, Nat.add_zero]
    have hxpos : 0 < x.len := hpieces.len_pos x (List.mem_append_right _ (.head _))
    rw [hlength] at hslice ⊢
    obtain ⟨hps, hx⟩ := List.append_inj' (slice_concat.symm.trans hslice) rfl
    have hx : arr (slot + ps.length) = x := List.singleton_inj.mp hx
    rw [show slot + (ps.length + 1) - 1 = slot + ps.length from rfl, trimIov, hx]
    split
    · -- nothing to give back
      rename_i hzero
      constructor
      case frame => exact fun _ _ => rfl
      case gone => exact iff_of_false Bool.noConfusion (by omega)
      case pieces => exact fun _ => hslice ▸ hpieces
      case bytes => exact fun _ => by rw [hslice, hzero]; rfl
      case cnt => exact hlength ▸ Nat.le_refl _
      case size => exact fun _ y hy => ⟨y, hslice ▸ hy, Nat.le_refl _⟩
    rename_i hzero
    dsimp only
    -- what is written to the entry of the last piece
    have hframe : ∀ (y : Seg) (j : ℕ), j < slot + ps.length →
        Function.update arr (slot + ps.length) y j = arr j := fun y j hj =>
      Function.update_of_ne (Nat.ne_of_lt hj) ..
    have hinit : ∀ y : Seg, slice (Function.update arr (slot + ps.length) y) slot ps.length = ps :=
      fun y => (slice_congr fun j _ hj => hframe y j hj).trans hps
    split
    · rename_i hall
      have hlen : min bytes x.len = x.len := by omega
      rw [hlen]
      split
      · -- it was the only piece
        rename_i hone
        obtain rfl := List.length_eq_zero_iff.mp hone
        rw [total_nil, Nat.zero_add] at htotal
        constructor
        case frame => exact fun j hj => hframe _ j (Nat.lt_of_lt_of_le hj (Nat.le_add_right ..))
        case gone => exact iff_of_true rfl (by omega)
        case pieces => exact fun hgone => Bool.noConfusion hgone
        case bytes => exact fun hgone => Bool.noConfusion hgone
        case cnt => exact Nat.zero_le _
        case size => exact fun hgone => Bool.noConfusion hgone
      · rename_i hmore
        have hne' : ps ≠ [] := fun hnil => hmore (List.length_eq_zero_iff.mpr hnil)
        have hless : bytes - x.len ≤ total ps := by omega
        have hrest := ih hpieces.drop_last (hinit ⟨x.start, x.len - x.len⟩) hne' hless
        constructor
        case frame =>
          intro j hj
          rw [hrest.frame j hj, hframe _ j (Nat.lt_of_lt_of_le hj (Nat.le_add_right ..))]
        case gone =>
          rw [hrest.gone]
          omega
        case pieces => exact hrest.pieces
        case bytes =>
          intro hgone
          have hsum := hrest.bytes hgone
          omega
        case cnt => exact Nat.le_trans hrest.cnt (by omega)
        case size =>
          intro hgone y hy
          obtain ⟨z, hz, hle⟩ := hrest.size hgone y hy
          exact ⟨z, List.mem_append_left _ hz, hle⟩
    · rename_i hpart
      have hlen : min bytes x.len = bytes := by omega
      rw [hlen]
      have hslice' : slice (Function.update arr (slot + ps.length) ⟨x.start, x.len - bytes⟩) slot
          (ps.length + 1) = ps ++ [⟨x.start, x.len - bytes⟩] := by
        rw [slice_concat, hinit, Function.update_self]
      constructor
      case frame => exact fun j hj => hframe _ j (Nat.lt_of_lt_of_le hj (Nat.le_add_right ..))
      case gone => exact iff_of_false Bool.noConfusion (by omega)
      case pieces =>
        rw [hslice']
        exact fun _ => hpieces.shorten (Nat.pos_of_ne_zero hzero) (by omega)
      case bytes =>
        intro _
        rw [hslice', total_append, total_cons, total_nil]
        dsimp only
        omega
      case cnt => exact hlength ▸ Nat.le_refl _
      case size =>
        intro _ y hy
        rw [hslice'] at hy
        rcases List.mem_append.mp hy with hy | hy
        · exact ⟨y, List.mem_append_left _ hy, Nat.le_refl _⟩
        · rw [List.mem_singleton.mp hy]
          exact ⟨x, List.mem_append_right _ (.head _), Nat.sub_le ..⟩

/-! ## A child of whole blocks -/

/-- What is asked of a read or a write: buffers that are not empty, that hold its blocks and less
than 2³² bytes. -/
structure RwOk (lim : SplitLimits) (io : RwIo) : Prop where
  blocklen : 0 < lim.blocklen
  boundary : 0 < lim.ioBoundary io uint32Max
  lens : ∀ v ∈ io.iovs, 0 < v.len
  fits : io.num * lim.blocklen ≤ total io.iovs
  small : total io.iovs < 2 ^ 32

/-- A child with the buffers of its blocks. -/
structure CutOk (lim : SplitLimits) (io : RwIo) (p : Cursor) (slot blocks taken : ℕ) (t : Trimmed)
    (num : ℕ) : Prop where
  pieces : Pieces io.iovs p (slice t.childIov slot t.iovcnt) t.cursor
  bytes : total (slice t.childIov slot t.iovcnt) = num * lim.blocklen
  pos : 0 < num
  le : num ≤ blocks
  cnt : t.iovcnt ≤ taken
  size : ∀ x ∈ slice t.childIov slot t.iovcnt, x.len ≤ orUnlimited lim.maxSegmentSize

section Children

variable {lim : SplitLimits} {io : RwIo} {blocks slot : ℕ} {p : Cursor} {arr : ℕ → Seg}

theorem len_le_total : ∀ {l : List Seg} {v : Seg}, v ∈ l → v.len ≤ total l
  | w :: l, v, hv => by
      rw [total_cons]
      rcases List.mem_cons.mp hv with rfl | hv
      · exact Nat.le_add_right ..
      · exact Nat.le_trans (len_le_total hv) (Nat.le_add_left ..)

theorem orUnlimited_pos (n : ℕ) : 0 < orUnlimited n := by
  unfold orUnlimited uint32Max
  split
  · decide
  · omega

theorem maxChildIovcnt_pos (lim : SplitLimits) : 0 < lim.maxChildIovcnt := by
  unfold SplitLimits.maxChildIovcnt numChildIov
  split
  · decide
  · omega

theorem RwOk.takes (hok : RwOk lim io) (hp : p.Valid io.iovs)
    (hroom : p.cells io.iovs + blocks * lim.blocklen ≤ total io.iovs) :
    Takes io.iovs (orUnlimited lim.maxSegmentSize) (min (numChildIov - slot) lim.maxChildIovcnt)
      (blocks * lim.blocklen) p arr slot (lim.gather io blocks slot p arr) := by
  have hsmall := hok.small
  have hmod : blocks * lim.blocklen % 2 ^ 32 = blocks * lim.blocklen := Nat.mod_eq_of_lt (by omega)
  unfold SplitLimits.gather
  rw [hmod]
  refine gatherIov_spec (fun v hv => ⟨hok.lens v hv, ?_⟩) (orUnlimited_pos _) _ _ _ _ _ hp
  exact Nat.lt_of_le_of_lt (len_le_total hv) hsmall

/-- The buffers do not run out. -/
theorem Takes.progress {maxSeg left bytes : ℕ} {g : Gathered} {iovs : List Seg}
    (h : Takes iovs maxSeg left bytes p arr slot g) (hbytes : 0 < bytes) (hleft : 0 < left)
    (hp : p.Valid iovs) (hroom : p.cells iovs + bytes ≤ total iovs) : 0 < g.iovcnt := by
  refine Nat.pos_of_ne_zero fun hzero => ?_
  have hpieces := h.pieces
  have hsum := h.bytes
  rw [hzero] at hpieces hsum
  have hcursor := hpieces.cells
  have hnil : slice g.childIov slot 0 = [] := rfl
  rw [hnil, total_nil, Nat.add_zero] at hsum hcursor
  rcases h.stops with h0 | hcnt | hend
  · omega
  · omega
  · -- the cursor would be behind the last segment
    rw [hnil] at hpieces
    rw [hpieces.eq_of_nil] at hend
    rcases hp with ⟨v, hv, -⟩ | hlast
    · exact absurd (List.getElem?_eq_some_iff.mp hv).1 (Nat.not_lt.mpr hend)
    · rw [hlast, Cursor.cells, List.take_length] at hroom
      omega

/-- **The cut of a child.** -/
theorem cut_spec {g : Gathered} (hok : RwOk lim io)
    (htakes : Takes io.iovs (orUnlimited lim.maxSegmentSize)
      (min (numChildIov - slot) lim.maxChildIovcnt) (blocks * lim.blocklen) p arr slot g)
    (hpos : 0 < g.iovcnt) :
    (∀ j < slot, (lim.cut io blocks slot g).1.childIov j = arr j) ∧
    ((lim.cut io blocks slot g).1.gone = true ∧ g.bytes ≠ 0 ∧
        total (slice g.childIov slot g.iovcnt) < lim.blocklen ∨
      (lim.cut io blocks slot g).1.gone = false ∧
        CutOk lim io p slot blocks g.iovcnt (lim.cut io blocks slot g).1
          (lim.cut io blocks slot g).2) := by
  have hbl := hok.blocklen
  have hsum := htakes.bytes
  have hdiv := Nat.div_add_mod g.bytes lim.blocklen
  have hne : slice g.childIov slot g.iovcnt ≠ [] := by
    rw [← List.length_pos_iff, length_slice]
    exact hpos
  have htotal : 0 < total (slice g.childIov slot g.iovcnt) := by
    obtain ⟨x, hx⟩ := List.exists_mem_of_ne_nil _ hne
    exact Nat.lt_of_lt_of_le (htakes.pieces.len_pos x hx) (len_le_total hx)
  -- so fewer blocks are missing than were asked for
  have hlt : g.bytes / lim.blocklen < blocks :=
    Nat.div_lt_of_lt_mul (by rw [Nat.mul_comm]; omega)
  obtain ⟨d, hd⟩ := Nat.exists_eq_add_of_lt hlt
  have hexpand : blocks * lim.blocklen =
      lim.blocklen * (g.bytes / lim.blocklen) + d * lim.blocklen + lim.blocklen := by
    rw [hd, Nat.add_mul, Nat.add_mul, Nat.one_mul, Nat.mul_comm (g.bytes / lim.blocklen)]
  unfold SplitLimits.cut
  split
  · -- whole blocks were taken
    rename_i hwhole
    have hnum : blocks - g.bytes / lim.blocklen = d + 1 := by omega
    refine ⟨htakes.frame, .inr ⟨rfl, htakes.pieces, ?_, by omega, Nat.sub_le .., Nat.le_refl _,
      htakes.size⟩⟩
    rw [hnum, Nat.add_mul, Nat.one_mul]
    dsimp only
    omega
  · rename_i hpart
    have hmod := Nat.mod_lt g.bytes hbl
    have hback : lim.blocklen - g.bytes % lim.blocklen ≤
        total (slice g.childIov slot g.iovcnt) := by omega
    have hslice : slice g.childIov slot (slice g.childIov slot g.iovcnt).length =
        slice g.childIov slot g.iovcnt := by rw [length_slice]
    have hgives := trimIov_spec htakes.pieces hslice hne hback
    rw [length_slice] at hgives
    dsimp only
    generalize trimIov io.iovs g.iovcnt (lim.blocklen - g.bytes % lim.blocklen)
      (slot + g.iovcnt - 1) g.cursor g.childIov = t at hgives
    have hround : g.bytes + (lim.blocklen - g.bytes % lim.blocklen) =
        lim.blocklen * (g.bytes / lim.blocklen + 1) := by
      rw [Nat.mul_add, Nat.mul_one]
      omega
    have hnum :
        blocks - (g.bytes + (lim.blocklen - g.bytes % lim.blocklen)) / lim.blocklen = d := by
      rw [hround, Nat.mul_div_cancel_left _ hbl]
      omega
    refine ⟨fun j hj => (hgives.frame j hj).trans (htakes.frame j hj), ?_⟩
    rw [hnum]
    cases hgone : t.gone with
    | true =>
      have hall := hgives.gone.mp hgone
      refine .inl ⟨rfl, fun hzero => hpart (by rw [hzero, Nat.zero_mod]), ?_⟩
      omega
    | false =>
      have hleft := hgives.bytes hgone
      refine .inr ⟨rfl, hgives.pieces hgone, by omega, ?_,
        hnum ▸ Nat.sub_le .., ?_, fun x hx => ?_⟩
      · refine Nat.pos_of_ne_zero fun hzero => ?_
        rw [hzero, Nat.zero_mul] at hexpand
        have hnot := hgives.gone.not.mp (by rw [hgone]; exact Bool.noConfusion)
        omega
      · have hcnt := hgives.cnt
        rwa [length_slice] at hcnt
      · obtain ⟨y, hy, hle⟩ := hgives.size hgone x hx
        exact Nat.le_trans hle (htakes.size y hy)

/-! ## A child is not split -/

theorem stripe_eq_div (boundary block : ℕ) :
    SplitLimits.stripe boundary block = block / boundary := by
  unfold SplitLimits.stripe
  split
  · rename_i hpow
    obtain ⟨k, rfl⟩ := (Nat.and_sub_one_eq_zero_iff_isPowerOfTwo hpow.1).mp hpow.2
    rw [Nat.log2_two_pow, Nat.shiftRight_eq_div_pow]
  · rfl

/-- Blocks before the next boundary are in one stripe. -/
theorem stripe_eq_of_le {boundary offset num n : ℕ}
    (hnext : toNextBoundary offset boundary = some n) (hpos : 0 < num) (hle : num ≤ n) :
    (offset + num - 1) / boundary = offset / boundary := by
  unfold toNextBoundary at hnext
  split at hnext
  · cases hnext
  · rename_i hne
    obtain rfl := Option.some.inj hnext
    have hmod := Nat.mod_lt offset (Nat.pos_of_ne_zero hne)
    have hdiv := Nat.div_add_mod offset boundary
    have hsplit :
        offset + num - 1 = offset % boundary + num - 1 + boundary * (offset / boundary) := by
      omega
    rw [hsplit, Nat.add_mul_div_left _ _ (Nat.pos_of_ne_zero hne), Nat.div_eq_of_lt (by omega),
      Nat.zero_add]

/-- A boundary is the same one to `bdev_rw_should_split` and to `_bdev_rw_split`. -/
theorem ioBoundary_eq {n : ℕ} (h : lim.ioBoundary io 0 ≠ 0) :
    lim.ioBoundary io n = lim.ioBoundary io 0 := by
  unfold SplitLimits.ioBoundary at h ⊢
  split
  · rfl
  · rename_i hwrite
    rw [if_neg hwrite] at h
    split
    · rfl
    · rename_i hopt
      exact absurd (if_neg hopt) h

theorem not_rwShouldSplit {c : RwIo} {s : SplitSt} (hnext : lim.nextBlocks io s = some blocks)
    (htype : c.type = io.type) (hoff : c.offset = s.current) (hpos : 0 < c.num)
    (hle : c.num ≤ blocks) (hend : c.offset + c.num ≤ 2 ^ 64)
    (hcnt : c.iovs.length ≤ lim.maxChildIovcnt)
    (hsize : ∀ x ∈ c.iovs, x.len ≤ orUnlimited lim.maxSegmentSize) :
    lim.bdevRwShouldSplit c = false := by
  obtain ⟨n, hn, rfl⟩ := Option.map_eq_some_iff.mp hnext
  have hb : lim.ioBoundary c 0 = lim.ioBoundary io 0 := by
    unfold SplitLimits.ioBoundary
    rw [htype]
  unfold SplitLimits.bdevRwShouldSplit
  simp only [hb, Bool.or_eq_false_iff, Bool.and_eq_false_iff, bne_eq_false_iff_eq,
    decide_eq_false_iff_not, Nat.not_lt, stripe_eq_div]
  refine ⟨⟨⟨?_, ?_⟩, ?_⟩, ?_⟩
  · by_cases hzero : lim.ioBoundary io 0 = 0
    · exact .inl hzero
    · right
      rw [ioBoundary_eq hzero] at hn
      have hlast : (c.offset + c.num + 2 ^ 64 - 1) % 2 ^ 64 = c.offset + c.num - 1 := by omega
      rw [hlast, hoff, stripe_eq_of_le hn hpos (by omega)]
  · refine or_iff_not_imp_left.mpr fun hne => Nat.le_trans hcnt ?_
    rw [SplitLimits.maxChildIovcnt, if_neg hne]
    exact Nat.min_le_left ..
  · refine or_iff_not_imp_left.mpr fun hne => ?_
    rw [List.any_eq_false]
    intro x hx
    have hlen := hsize x hx
    rw [orUnlimited, if_neg hne] at hlen
    simpa using hlen
  · refine or_iff_not_imp_left.mpr fun hne => ?_
    rw [orUnlimited, if_neg hne] at hle
    omega
theorem not_shouldSplit_of_rw {c : RwIo} (htype : c.type = .read ∨ c.type = .write)
    (h : lim.bdevRwShouldSplit c = false) : lim.bdevIoShouldSplit c = false := by
  unfold SplitLimits.bdevIoShouldSplit
  rcases htype with hread | hwrite
  · rw [hread]
    exact h
  · rw [hwrite]
    exact h

/-- The blocks that a child without buffers may have. -/
def SplitLimits.chunkMax (lim : SplitLimits) : BdevIoType → ℕ
  | .unmap => lim.maxUnmap * lim.maxUnmapSegments % 2 ^ 32
  | .writeZeroes => lim.maxWriteZeroes
  | .copy => lim.maxCopy
  | _ => 0

theorem not_unmapShouldSplit {c : RwIo}
    (hle : c.num ≤ lim.maxUnmap * lim.maxUnmapSegments % 2 ^ 32) :
    lim.bdevUnmapShouldSplit c = false := by
  unfold SplitLimits.bdevUnmapShouldSplit
  split
  · rfl
  · rename_i hne
    have hfit : c.num ≤ lim.maxUnmap * lim.maxUnmapSegments := Nat.le_trans hle (Nat.mod_le ..)
    have hpos : 0 < lim.maxUnmap := Nat.pos_of_ne_zero fun h => hne (.inl h)
    have hsegs : (c.num + lim.maxUnmap - 1) / lim.maxUnmap ≤ lim.maxUnmapSegments := by
      refine Nat.le_of_lt_succ (Nat.div_lt_of_lt_mul ?_)
      rw [Nat.succ_eq_add_one, Nat.mul_add, Nat.mul_one]
      omega
    exact decide_eq_false (Nat.not_lt.mpr (Nat.le_trans (Nat.mod_le ..) hsegs))

theorem not_shouldSplit_of_chunk {c : RwIo} (hpos : 0 < c.num) (hle : c.num ≤ lim.chunkMax c.type) :
    lim.bdevIoShouldSplit c = false := by
  unfold SplitLimits.bdevIoShouldSplit
  unfold SplitLimits.chunkMax at hle
  split at hle
  · rename_i htype
    rw [htype]
    exact not_unmapShouldSplit hle
  · rename_i htype
    rw [htype]
    show lim.bdevWriteZeroesShouldSplit c = false
    unfold SplitLimits.bdevWriteZeroesShouldSplit
    split
    · rfl
    · exact decide_eq_false (Nat.not_lt.mpr hle)
  · rename_i htype
    rw [htype]
    exact Bool.and_eq_false_imp.mpr fun _ => decide_eq_false (Nat.not_lt.mpr hle)
  · omega

/-! ## The first child of a round -/

/-- Two buffers are enough for a block: none is smaller, and none has to be taken in smaller parts.
-/
structure Roomy (lim : SplitLimits) (io : RwIo) : Prop where
  two : 2 ≤ lim.maxChildIovcnt
  lens : ∀ v ∈ io.iovs, lim.blocklen ≤ v.len
  size : lim.blocklen ≤ orUnlimited lim.maxSegmentSize

theorem gatherIov_block {iovs : List Seg} {maxSeg bl : ℕ}
    (hlens : ∀ v ∈ iovs, 0 < v.len ∧ v.len < 2 ^ 32) (hmax : 0 < maxSeg) (hsize : bl ≤ maxSeg)
    (hlong : ∀ v ∈ iovs, bl ≤ v.len) :
    ∀ (left bytes : ℕ) (p : Cursor) (arr : ℕ → Seg) (slot : ℕ), p.Valid iovs →
      p.cells iovs + bytes ≤ total iovs → (p.off = 0 ∧ 0 < left ∨ 2 ≤ left) →
      min bl bytes ≤ total (slice (gatherIov iovs maxSeg left bytes p arr slot).childIov slot
        (gatherIov iovs maxSeg left bytes p arr slot).iovcnt)
  | 0, _, _, _, _, _, _, hleft => by omega
  | left + 1, bytes, p, arr, slot, hp, hroom, hleft => by
      rw [gatherIov]
      split
      · omega
      rename_i hbytes
      rcases hp with ⟨v, hv, hoff⟩ | hend
      · have hmem := List.mem_of_getElem? hv
        have hmod : (v.len - p.off) % 2 ^ 32 = v.len - p.off :=
          Nat.mod_eq_of_lt (by have := (hlens v hmem).2; omega)
        rw [hv]
        dsimp only
        rw [hmod]
        generalize hlen : min (min (v.len - p.off) maxSeg) bytes = len
        have hfit : len ≤ v.len - p.off := by omega
        have hvalid : (p.advance v len).Valid iovs :=
          .advance (fun w hw => (hlens w hw).1) hv hoff len
        have hrest := gatherIov_spec hlens hmax left (bytes - len) _
          (Function.update arr slot ⟨v.start + p.off, len⟩) (slot + 1) hvalid
        have hmore := gatherIov_block hlens hmax hsize hlong left (bytes - len) _
          (Function.update arr slot ⟨v.start + p.off, len⟩) (slot + 1) hvalid
        rw [slice_succ, total_cons, hrest.frame slot (Nat.lt_succ_self slot), Function.update_self]
        dsimp only
        by_cases hshort : len < bl ∧ len < bytes
        · -- the rest of a buffer: the next one has a block
          have hall : len = v.len - p.off := by omega
          have hnext : p.advance v len = ⟨p.pos + 1, 0⟩ := if_neg (by omega)
          have hcells := Cursor.cells_advance hv hoff hfit
          have hpart : p.off ≠ 0 := by
            have := hlong v hmem
            omega
          have := hmore (by omega) (.inl ⟨by rw [hnext], by omega⟩)
          omega
        · omega
      · rw [hend, Cursor.cells, List.take_length] at hroom
        omega

/-- **The first child has a block.** -/
theorem Roomy.not_gone (h : Roomy lim io) (arr : ℕ → Seg) (hok : RwOk lim io) (hp : p.Valid io.iovs)
    (hroom : p.cells io.iovs + blocks * lim.blocklen ≤ total io.iovs) (hblocks : 0 < blocks) :
    (lim.cut io blocks 0 (lim.gather io blocks 0 p arr)).1.gone = false := by
  have hsmall := hok.small
  have htwo : 2 ≤ min (numChildIov - 0) lim.maxChildIovcnt := by
    have := h.two
    unfold numChildIov
    omega
  have htakes : Takes _ _ _ _ p arr 0 _ := hok.takes hp hroom
  have hpos : 0 < blocks * lim.blocklen := Nat.mul_pos hblocks hok.blocklen
  have hiov := htakes.progress hpos (by omega) hp hroom
  rcases (cut_spec hok htakes hiov).2 with ⟨-, hleft, hless⟩ | ⟨hgone, -⟩
  · exfalso
    have hmod : blocks * lim.blocklen % 2 ^ 32 = blocks * lim.blocklen :=
      Nat.mod_eq_of_lt (by omega)
    have hblock : min lim.blocklen (blocks * lim.blocklen) ≤
        total (slice (lim.gather io blocks 0 p arr).childIov 0
          (lim.gather io blocks 0 p arr).iovcnt) := by
      unfold SplitLimits.gather
      rw [hmod]
      refine gatherIov_block (fun v hv => ⟨hok.lens v hv, ?_⟩) (orUnlimited_pos _) h.size h.lens _ _
        _ _ _ hp hroom (.inr htwo)
      exact Nat.lt_of_le_of_lt (len_le_total hv) hsmall
    have hsum := htakes.bytes
    omega
  · exact hgone

end Children

end NdpHeaan
