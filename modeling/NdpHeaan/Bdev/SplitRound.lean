import NdpHeaan.Bdev.SplitChild

/-!
# Bdev/SplitRound — a round of children

A split function submits children for the blocks that are left, one after the other, until it has no
entries or no memory for the next one.  `Round` says all that it may do: every child covers the
blocks that come next, and the entries of the children before it stay as they are.  All four split
functions are rounds (`splitOn_round`).
-/

open Machinery

namespace NdpHeaan

/-- Reads and writes come with buffers. -/
def RwIo.Buffered (io : RwIo) : Prop := io.type = .read ∨ io.type = .write

instance (io : RwIo) : Decidable io.Buffered := inferInstanceAs (Decidable (_ ∨ _))

/-- The bytes of the buffers that belong to a block. -/
def SplitLimits.bufBytes (lim : SplitLimits) (io : RwIo) : ℕ :=
  if io.Buffered then lim.blocklen else 0

/-- **A child for the blocks from `cur` on**: it has their buffers, their metadata and the blocks
that they are copied from, and the bdev takes it as it is. -/
structure ChildFor (lim : SplitLimits) (io : RwIo) (cur : ℕ) (c : ChildIo) : Prop where
  type : c.io.type = io.type
  offset : c.io.offset = cur
  pos : 0 < c.io.num
  whole : lim.bdevIoShouldSplit c.io = false
  bytes : total c.io.iovs = c.io.num * lim.bufBytes io
  buffers : readAll id c.io.iovs =
    ((readAll id io.iovs).drop ((cur - io.offset) * lim.bufBytes io)).take
      (c.io.num * lim.bufBytes io)
  mdBuf : c.io.mdBuf =
    if io.Buffered then io.mdBuf.map (· + (cur - io.offset) * lim.mdSize) else none
  src : io.type = .copy → c.io.src = io.src + (cur - io.offset)

/-- An array holds the `iovs` of children. -/
def IovHolds (arr : ℕ → Seg) (cs : List ChildIo) : Prop :=
  ∀ c ∈ cs, slice arr c.slot c.io.iovs.length = c.io.iovs

/-- What is asked of an I/O that is split. -/
structure SplitOk (lim : SplitLimits) (io : RwIo) : Prop where
  pos : 0 < io.num
  fits : io.offset + io.num ≤ 2 ^ 64
  kind : io.Buffered ∧ RwOk lim io ∨ ¬ io.Buffered ∧ 0 < lim.chunkMax io.type

section Rounds

variable (lim : SplitLimits) (io : RwIo) (rcs : ℕ → SubmitRc)

/-- The child was submitted; its entries, and those of others, are in `arr`. -/
def SplitSt.added (s : SplitSt) (arr : ℕ → Seg) (c : ChildIo) : SplitSt :=
  { s with
    childIov := arr
    current := s.current + c.io.num
    remaining := s.remaining - c.io.num
    children := s.children ++ [c]
    log := s.log ++ [c] }

/-- **What a round may do.** -/
inductive Round : SplitSt → SplitSt → Prop
  | add {s s' : SplitSt} {arr : ℕ → Seg} {c : ChildIo} (hcov : ChildFor lim io s.current c)
      (hle : c.io.num ≤ s.remaining) (hold : IovHolds arr (s.children ++ [c]))
      (rest : Round (s.added arr c) s') : Round s s'
  /-- The rest is for a later round. -/
  | pause {s : SplitSt} {arr : ℕ → Seg} (hne : s.children ≠ []) (hold : IovHolds arr s.children) :
      Round s { s with childIov := arr }
  | wait {s : SplitSt} {arr : ℕ → Seg} (hnil : s.children = []) (hpos : 0 < s.remaining)
      (hrc : rcs 0 = .nomem) : Round s { s with childIov := arr, waiting := true }
  /-- The I/O is completed. -/
  | refused {s : SplitSt} {arr : ℕ → Seg} (hnil : s.children = [])
      (hwhy : (∃ k, rcs k = .error) ∨ io.Buffered ∧ ¬ Roomy lim io) :
      Round s { s with childIov := arr, failed := true, callbacks := s.callbacks ++ [false] }
  /-- The I/O fails when its children are done. -/
  | doomed {s : SplitSt} {arr : ℕ → Seg} (hne : s.children ≠ []) (hold : IovHolds arr s.children)
      (hrc : ∃ k, rcs k = .error) : Round s { s with childIov := arr, failed := true }

end Rounds

section Children

variable {lim : SplitLimits} {io : RwIo} {rcs : ℕ → SubmitRc} {s s' : SplitSt} {c : ChildIo}
  {arr : ℕ → Seg} {blocks slot k : ℕ} {p : Cursor}

/-- The next child of a round, whatever its submission returns. -/
theorem Round.submit (hcov : ChildFor lim io s.current c) (hle : c.io.num ≤ s.remaining)
    (hold : IovHolds arr (s.children ++ [c])) (hfirst : s.children = [] → k = 0)
    (hrest : rcs k = .ok → Round lim io rcs (s.added arr c) s')
    (hs' : rcs k ≠ .ok → s' = { s with childIov := arr }.bdevIoSplitSubmit c (rcs k)) :
    Round lim io rcs s s' := by
  have hkept : IovHolds arr s.children := fun d hd => hold d (List.mem_append_left _ hd)
  cases hrc : rcs k with
  | ok => exact .add hcov hle hold (hrest hrc)
  | nomem =>
    rw [hs' (by rw [hrc]; exact SubmitRc.noConfusion), hrc]
    unfold SplitSt.bdevIoSplitSubmit
    dsimp only
    split
    · rename_i hnil
      exact .wait hnil (Nat.lt_of_lt_of_le hcov.pos hle) (hfirst hnil ▸ hrc)
    · rename_i hne
      exact .pause hne hkept
  | error =>
    rw [hs' (by rw [hrc]; exact SubmitRc.noConfusion), hrc]
    unfold SplitSt.bdevIoSplitSubmit SplitSt.fail
    dsimp only
    split
    · rename_i hnil
      exact .refused hnil (.inl ⟨k, hrc⟩)
    · rename_i hne
      exact .doomed hne hkept ⟨k, hrc⟩

/-! ## Reads and writes -/

/-- Where the loop of `_bdev_rw_split` is. -/
structure LoopAt (lim : SplitLimits) (io : RwIo) (k slot : ℕ) (p : Cursor) (s : SplitSt) :
    Prop where
  valid : p.Valid io.iovs
  cells : p.cells io.iovs = (s.current - io.offset) * lim.blocklen
  start : io.offset ≤ s.current
  stop : s.current + s.remaining = io.offset + io.num
  hold : IovHolds s.childIov s.children
  below : ∀ c ∈ s.children, c.slot + c.io.iovs.length ≤ slot
  first : s.children = [] → k = 0 ∧ slot = 0 ∧ 0 < s.remaining

/-- Entries from `slot` on are no one's. -/
theorem LoopAt.holds (h : LoopAt lim io k slot p s) (hframe : ∀ j < slot, arr j = s.childIov j) :
    IovHolds arr s.children := by
  intro c hc
  rw [← h.hold c hc]
  simp only [length_slice]
  refine slice_congr fun j _ hj => hframe j ?_
  have := h.below c hc
  omega

/-- The buffers are for all blocks that are left. -/
theorem LoopAt.room (h : LoopAt lim io k slot p s) (hok : RwOk lim io)
    (hle : blocks ≤ s.remaining) :
    p.cells io.iovs + blocks * lim.blocklen ≤ total io.iovs := by
  have hstart := h.start
  have hstop := h.stop
  rw [h.cells, ← Nat.add_mul]
  exact Nat.le_trans (Nat.mul_le_mul_right _ (by omega)) hok.fits

/-- A loop that stops has submitted a child. -/
theorem LoopAt.children_ne_nil (h : LoopAt lim io k slot p s) (hok : RwOk lim io)
    (hstop : s.remaining = 0 ∨ io.iovs.length ≤ p.pos ∨ numChildIov ≤ slot) : s.children ≠ [] := by
  intro hnil
  obtain ⟨-, hslot, hpos⟩ := h.first hnil
  rcases hstop with hzero | hend | hfull
  · omega
  · -- the cursor is behind all buffers, but they are for more blocks
    have hroom := h.room hok (Nat.le_refl _)
    have hrest := Nat.mul_pos hpos hok.blocklen
    rcases h.valid with ⟨v, hv, -⟩ | hlast
    · exact absurd (List.getElem?_eq_some_iff.mp hv).1 (Nat.not_lt.mpr hend)
    · rw [hlast, Cursor.cells, List.take_length] at hroom
      omega
  · rw [hslot] at hfull
    cases hfull

theorem RwOk.nextBlocks (hok : RwOk lim io) (hpos : 0 < s.remaining) :
    ∃ blocks, lim.nextBlocks io s = some blocks ∧ 0 < blocks ∧ blocks ≤ s.remaining := by
  have hb := hok.boundary
  have hmod := Nat.mod_lt s.current hb
  have hmax := orUnlimited_pos lim.maxRwSize
  unfold SplitLimits.nextBlocks toNextBoundary
  rw [if_neg (Nat.ne_of_gt hb)]
  exact ⟨_, rfl, by dsimp only; omega, by dsimp only; omega⟩

/-- **A child of whole blocks covers them.** -/
theorem CutOk.covers {taken num : ℕ} {t : Trimmed} (h : CutOk lim io p slot blocks taken t num)
    (hat : LoopAt lim io k slot p s) (hbuf : io.Buffered) (hfits : io.offset + io.num ≤ 2 ^ 64)
    (hnext : lim.nextBlocks io s = some blocks) (hle : blocks ≤ s.remaining)
    (hcnt : taken ≤ lim.maxChildIovcnt) :
    ChildFor lim io s.current
      ({ s with childIov := t.childIov }.child io slot t.iovcnt num
        (io.mdBuf.map (· + (s.current - io.offset) * lim.mdSize))) := by
  have hbytes : lim.bufBytes io = lim.blocklen := if_pos hbuf
  have hstop := hat.stop
  have hnum := h.le
  constructor
  case type => rfl
  case offset => rfl
  case pos => exact h.pos
  case whole =>
    refine not_shouldSplit_of_rw hbuf (not_rwShouldSplit hnext rfl rfl h.pos h.le ?_ ?_ h.size)
    · show s.current + num ≤ 2 ^ 64
      omega
    · show (slice t.childIov slot t.iovcnt).length ≤ lim.maxChildIovcnt
      rw [length_slice]
      exact Nat.le_trans h.cnt hcnt
  case bytes => rw [hbytes]; exact h.bytes
  case buffers =>
    rw [hbytes, ← hat.cells]
    show readAll id (slice t.childIov slot t.iovcnt) = _
    rw [h.pieces.readAll id, h.bytes]
    rfl
  case mdBuf => rw [if_pos hbuf]; rfl
  case src => exact fun hcopy => if_pos hcopy

/-- The loop behind a child. -/
theorem CutOk.loopAt {taken num : ℕ} {t : Trimmed} (h : CutOk lim io p slot blocks taken t num)
    (hat : LoopAt lim io k slot p s) (hok : RwOk lim io) (hle : blocks ≤ s.remaining)
    (hc : c = { s with childIov := t.childIov }.child io slot t.iovcnt num
      (io.mdBuf.map (· + (s.current - io.offset) * lim.mdSize)))
    (hold : IovHolds t.childIov (s.children ++ [c])) :
    LoopAt lim io (k + 1) (slot + taken) t.cursor (s.added t.childIov c) := by
  have hstart := hat.start
  have hstop := hat.stop
  have hnum := h.le
  have hcnum : c.io.num = num := by rw [hc]; rfl
  constructor
  case valid => exact h.pieces.valid hok.lens hat.valid
  case cells =>
    rw [h.pieces.cells, hat.cells, h.bytes, ← Nat.add_mul]
    unfold SplitSt.added
    dsimp only
    rw [hcnum]
    congr 1
    omega
  case start => exact Nat.le_trans hstart (Nat.le_add_right ..)
  case stop =>
    unfold SplitSt.added
    dsimp only
    omega
  case hold => exact hold
  case below =>
    intro d hd
    rcases List.mem_append.mp hd with hd | hd
    · exact Nat.le_trans (hat.below d hd) (Nat.le_add_right ..)
    · rw [List.mem_singleton.mp hd, hc]
      show slot + (slice t.childIov slot t.iovcnt).length ≤ slot + taken
      rw [length_slice]
      exact Nat.add_le_add_left h.cnt slot
  case first => exact fun hnil => absurd hnil (List.concat_ne_nil _ _)

/-- **The loop of `_bdev_rw_split` is a round.** -/
theorem bdevRwSplitLoop_round (hok : RwOk lim io) (hbuf : io.Buffered)
    (hfits : io.offset + io.num ≤ 2 ^ 64) :
    ∀ (fuel k slot : ℕ) (p : Cursor) (s : SplitSt), LoopAt lim io k slot p s → s.remaining ≤ fuel →
      ∃ s', bdevRwSplitLoop lim io rcs fuel k slot p s = some s' ∧ Round lim io rcs s s'
  | 0, _, _, _, s, hat, hfuel =>
      ⟨s, rfl, .pause (hat.children_ne_nil hok (.inl (Nat.le_zero.mp hfuel))) hat.hold⟩
  | fuel + 1, k, slot, p, s, hat, hfuel => by
      rw [bdevRwSplitLoop]
      split
      · rename_i hstop
        exact ⟨s, rfl, .pause (hat.children_ne_nil hok hstop) hat.hold⟩
      rename_i hgo
      obtain ⟨hleft, hbufs, hentries⟩ : s.remaining ≠ 0 ∧ ¬ io.iovs.length ≤ p.pos ∧
          ¬ numChildIov ≤ slot := by
        refine ⟨?_, ?_, ?_⟩ <;> intro h <;> exact hgo (by simp [h])
      obtain ⟨blocks, hnext, hblocks, hle⟩ := hok.nextBlocks (Nat.pos_of_ne_zero hleft)
      have hroom := hat.room hok hle
      have htakes : Takes _ _ _ _ p s.childIov slot _ := hok.takes hat.valid hroom
      have hentry : 0 < min (numChildIov - slot) lim.maxChildIovcnt := by
        have := maxChildIovcnt_pos lim
        omega
      have hiov := htakes.progress (Nat.mul_pos hblocks hok.blocklen) hentry hat.valid hroom
      obtain ⟨hframe, hcut⟩ := cut_spec hok htakes hiov
      have hgone := fun h : Roomy lim io => fun hslot : slot = 0 =>
        hslot ▸ h.not_gone s.childIov hok hat.valid hroom hblocks
      have hcnt : (lim.gather io blocks slot p s.childIov).iovcnt ≤ lim.maxChildIovcnt :=
        Nat.le_trans htakes.cnt (Nat.min_le_right ..)
      rw [hnext, Option.bind_eq_bind, Option.bind_some]
      dsimp only
      generalize lim.gather io blocks slot p s.childIov = g at *
      generalize lim.cut io blocks slot g = cut at *
      obtain ⟨t, num⟩ := cut
      dsimp only at *
      have hkept := hat.holds hframe
      rcases hcut with ⟨hg, -, -⟩ | ⟨hg, hcut⟩
      · rw [if_pos hg]
        refine ⟨_, rfl, ?_⟩
        split
        · rename_i hnil
          rw [SplitSt.fail, if_pos hnil]
          refine .refused hnil (.inr ⟨hbuf, fun hroomy => ?_⟩)
          rw [hgone hroomy (hat.first hnil).2.1] at hg
          cases hg
        · rename_i hne
          exact .pause hne hkept
      · have hno : ¬ t.gone = true := by rw [hg]; exact Bool.noConfusion
        rw [if_neg hno]
        have hcov := hcut.covers hat hbuf hfits hnext hle hcnt
        generalize hc : ({ s with childIov := t.childIov } : SplitSt).child io slot t.iovcnt num
          (io.mdBuf.map (· + (s.current - io.offset) * lim.mdSize)) = c at *
        have hown : slice t.childIov c.slot c.io.iovs.length = c.io.iovs := by
          rw [← hc]
          show slice t.childIov slot (slice t.childIov slot t.iovcnt).length = _
          rw [length_slice]
          rfl
        have hhold : IovHolds t.childIov (s.children ++ [c]) := by
          intro d hd
          rcases List.mem_append.mp hd with hd | hd
          · exact hkept d hd
          · rw [List.mem_singleton.mp hd]
            exact hown
        have hnum : c.io.num ≤ s.remaining := by
          rw [← hc]
          exact Nat.le_trans hcut.le hle
        have hnext := hcut.loopAt hat hok hle hc.symm hhold
        have hfuel' : (s.added t.childIov c).remaining ≤ fuel := by
          have := hcov.pos
          show s.remaining - c.io.num ≤ fuel
          omega
        split
        · rename_i hrc
          obtain ⟨s', hs', hround⟩ := bdevRwSplitLoop_round hok hbuf hfits fuel _ _ _ _ hnext hfuel'
          rw [hrc]
          exact ⟨s', hs', .add hcov hnum hhold hround⟩
        · rename_i hrc
          refine ⟨_, rfl, .submit hcov hnum hhold (fun hnil => (hat.first hnil).1) (fun h => ?_)
            fun _ => rfl⟩
          exact absurd h hrc

/-- What every round begins with. -/
structure RoundReady (io : RwIo) (s : SplitSt) : Prop where
  nil : s.children = []
  pos : 0 < s.remaining
  start : io.offset ≤ s.current
  stop : s.current + s.remaining = io.offset + io.num

variable (rcs) in
theorem bdevRwSplit_round (hok : RwOk lim io) (hbuf : io.Buffered)
    (hfits : io.offset + io.num ≤ 2 ^ 64) (hs : RoundReady io s) :
    ∃ s', bdevRwSplit lim io rcs s = some s' ∧ Round lim io rcs s s' := by
  have hstart := hs.start
  have hstop := hs.stop
  have hin : (s.current - io.offset) * lim.blocklen ≤ total io.iovs :=
    Nat.le_trans (Nat.mul_le_mul_right _ (by omega)) hok.fits
  have hmod : (s.current - io.offset) * lim.blocklen % 2 ^ 32 =
      (s.current - io.offset) * lim.blocklen := Nat.mod_eq_of_lt (Nat.lt_of_le_of_lt hin hok.small)
  have hnone : ∀ c, c ∉ s.children := fun c => hs.nil ▸ List.not_mem_nil
  unfold bdevRwSplit
  rw [hmod]
  refine bdevRwSplitLoop_round hok hbuf hfits _ _ _ _ _ ?_ (Nat.le_add_right ..)
  exact ⟨valid_seek hin, cells_seek .., hs.start, hs.stop, fun c hc => absurd hc (hnone c),
    fun c hc => absurd hc (hnone c), fun _ => ⟨rfl, rfl, hs.pos⟩⟩

/-! ## Blocks without buffers -/

theorem chunk_covers (hbuf : ¬ io.Buffered) (hmax : 0 < lim.chunkMax io.type)
    (hpos : 0 < s.remaining) :
    ChildFor lim io s.current (s.child io 0 0 (min s.remaining (lim.chunkMax io.type)) none) := by
  have hnum : 0 < min s.remaining (lim.chunkMax io.type) := by omega
  have hbytes : lim.bufBytes io = 0 := if_neg hbuf
  constructor
  case type => rfl
  case offset => rfl
  case pos => exact hnum
  case whole => exact not_shouldSplit_of_chunk hnum (Nat.min_le_right ..)
  case bytes => rw [hbytes]; rfl
  case buffers => rw [hbytes]; rfl
  case mdBuf => rw [if_neg hbuf]; rfl
  case src => exact fun hcopy => if_pos hcopy

variable (rcs) in
/-- **The loop of the other split functions is a round.** -/
theorem chunkSplit_round (hbuf : ¬ io.Buffered) (hmax : 0 < lim.chunkMax io.type) :
    ∀ (left k : ℕ) (s : SplitSt), IovHolds s.childIov s.children →
      (s.children = [] → k = 0 ∧ 0 < s.remaining ∧ 0 < left) →
      Round lim io rcs s (chunkSplit io rcs (lim.chunkMax io.type) left k s)
  | 0, _, _, hold, hfirst =>
      .pause (fun hnil => absurd (hfirst hnil).2.2 (Nat.lt_irrefl 0)) hold
  | left + 1, k, s, hold, hfirst => by
      rw [chunkSplit]
      split
      · rename_i hzero
        exact .pause (fun hnil => Nat.ne_of_gt (hfirst hnil).2.1 hzero) hold
      rename_i hpos
      have hcov := chunk_covers hbuf hmax (Nat.pos_of_ne_zero hpos)
      have hhold : IovHolds s.childIov
          (s.children ++ [s.child io 0 0 (min s.remaining (lim.chunkMax io.type)) none]) := by
        intro d hd
        rcases List.mem_append.mp hd with hd | hd
        · exact hold d hd
        · rw [List.mem_singleton.mp hd]
          rfl
      refine .submit hcov (Nat.min_le_left ..) hhold (fun hnil => (hfirst hnil).1) (fun hrc => ?_)
        fun hrc => ?_
      · dsimp only
        rw [if_pos hrc, hrc]
        exact chunkSplit_round hbuf hmax left (k + 1) _ hhold fun hnil =>
          absurd hnil (List.concat_ne_nil _ _)
      · dsimp only
        rw [if_neg hrc]

/-- **Every split function is a round.** -/
theorem splitOn_round (hok : SplitOk lim io) (rcs : ℕ → SubmitRc) (hs : RoundReady io s) :
    ∃ s', splitOn lim io rcs s = some s' ∧ Round lim io rcs s s' := by
  rcases hok.kind with ⟨hbuf, hrw⟩ | ⟨hbuf, hmax⟩
  · have hround := bdevRwSplit_round rcs hrw hbuf hok.fits hs
    unfold splitOn
    rcases hbuf with htype | htype
    · rw [htype]
      exact hround
    · rw [htype]
      exact hround
  · have hold : IovHolds s.childIov s.children := fun c hc => absurd (hs.nil ▸ hc) List.not_mem_nil
    have hround := chunkSplit_round rcs hbuf hmax maxChildrenReqs 0 s hold fun _ =>
      ⟨rfl, hs.pos, by decide⟩
    refine ⟨_, ?_, hround⟩
    unfold splitOn
    cases htype : io.type <;> first
      | rfl
      | (rw [htype] at hmax; exact absurd hmax (Nat.lt_irrefl 0))

theorem Round.of_splitOn (hok : SplitOk lim io) (hs : RoundReady io s)
    (h : splitOn lim io rcs s = some s') : Round lim io rcs s s' := by
  obtain ⟨t, ht, hround⟩ := splitOn_round hok rcs hs
  obtain rfl := Option.some.inj (ht.symm.trans h)
  exact hround

end Children

end NdpHeaan
