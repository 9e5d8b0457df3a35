import NdpHeaan.Machinery.Run
import NdpHeaan.Target.DataIo

/-!
# Target/Unmap — Dataset Management, range by range

A deallocate command lists up to 256 ranges of blocks in its data.  The handler reads them one after
the other through a cursor on the iovecs and submits an unmap for each.  A submission that finds no
`bdev_io` puts the command on the io-wait queue, and the loop starts again from there:

    i = range_index, range_index + 1, …        the loop goes on where it was
    cursor = 0, 16, …                          …and reads the ranges from the first one

So a retry behind the first range unmaps the wrong blocks, unless they happen to be the same.
-/

open Machinery

namespace NdpHeaan

/-! ## The model -/

/-- `struct spdk_nvme_dsm_range`, less its attributes. -/
structure DsmRange where
  length : UInt32
  startingLba : UInt64
  deriving DecidableEq, Repr

/-- A range, from its 16 bytes. -/
def DsmRange.ofBytes (bs : List UInt8) : DsmRange :=
  ⟨.ofNat (leWord bs 4 4), .ofNat (leWord bs 8 8)⟩

/-- `struct spdk_nvme_status`, less the bits no handler of this command writes. -/
structure NvmeStatus where
  sct : UInt8
  sc : UInt8
  deriving DecidableEq, Repr

/-- `SPDK_NVME_SCT_GENERIC`, `SPDK_NVME_SC_SUCCESS`. -/
def NvmeStatus.success : NvmeStatus := ⟨0, 0⟩

/-- What the command does to the outside. -/
inductive UnmapEffect
  /-- `calloc` of the `nvmf_bdev_ctrlr_unmap`. -/
  | alloc
  | allocFailed
  | free
  /-- A callback is entered with a context that has been freed. -/
  | useAfterFree
  /-- `spdk_bdev_unmap_blocks`, with its return code. -/
  | submit (range : DsmRange) (rc : ℤ)
  /-- "invalid unmap size". -/
  | overLimit (range : DsmRange)
  /-- `nvmf_bdev_ctrlr_unmap_cpl`, with the status of the unmap. -/
  | callback (status : NvmeStatus)
  /-- The request is completed with a status. -/
  | complete (status : NvmeStatus)
  deriving DecidableEq, Repr

/-- A state of the command. -/
structure UnmapSt where
  /-- The request has reached the handler. -/
  started : Bool := false
  /-- The context is allocated. -/
  live : Bool := false
  /-- `unmap_ctx->count`. -/
  count : ℕ := 0
  /-- `unmap_ctx->range_index`. -/
  rangeIndex : ℕ := 0
  /-- `response->status`. -/
  rsp : NvmeStatus := .success
  /-- The unmaps in flight. -/
  inflight : ℕ := 0
  /-- The request is on the io-wait queue. -/
  waiting : Bool := false
  /-- What was done to the outside, oldest first. -/
  trace : List UnmapEffect := []
  deriving DecidableEq, Repr

/-! ### What the loop does to a range -/

/-- An unmap is accepted. -/
def UnmapSt.accept (s : UnmapSt) (range : DsmRange) : UnmapSt :=
  { s with
    count := s.count + 1
    rangeIndex := s.rangeIndex + 1
    inflight := s.inflight + 1
    trace := s.trace ++ [.submit range 0] }

/-- There is no `bdev_io`: `unmap_ctx->count` is left with one more until the retry. -/
def UnmapSt.queueIo (s : UnmapSt) (range : DsmRange) (rc : ℤ) : UnmapSt :=
  { s with count := s.count + 1, waiting := true, trace := s.trace ++ [.submit range rc] }

/-- An unmap is rejected. -/
def UnmapSt.reject (s : UnmapSt) (range : DsmRange) (rc : ℤ) : UnmapSt :=
  { s with rsp := { s.rsp with sc := 0x06 }, trace := s.trace ++ [.submit range rc] }

/-- A range is larger than the subsystem allows. -/
def UnmapSt.refuse (s : UnmapSt) (range : DsmRange) : UnmapSt :=
  { s with rsp := ⟨0, 0x02⟩, trace := s.trace ++ [.overLimit range] }

/-- A fresh context. -/
def UnmapSt.begin (s : UnmapSt) : UnmapSt :=
  { s with
    live := true
    count := 0
    rangeIndex := 0
    rsp := .success
    trace := s.trace ++ [.alloc] }

/-- "dequeued". -/
def UnmapSt.dequeue (s : UnmapSt) : UnmapSt := { s with count := s.count - 1 }

/-- How the loop is left. -/
inductive UnmapLoopEnd
  /-- By its condition or by `break`. -/
  | left
  | queued
  | overLimit
  deriving DecidableEq, Repr

section Handlers

variable (d : Bdev) (maxDiscardSizeKib : UInt64) (r : DataReq)

/-- A range exceeds `max_discard_size_kib`. -/
def overMaxDiscard (range : DsmRange) : Bool :=
  maxDiscardSizeKib > 0 &&
    range.length.toUInt64 > (maxDiscardSizeKib <<< 10) / d.blocklen.toUInt64

/-- `cmd->cdw10_bits.dsm.nr + 1`. -/
def DataReq.dsmNr : ℕ := (r.cdw10 &&& 0xFF).toNat + 1

/-- `cmd->cdw11_bits.dsm.ad`. -/
def DataReq.dsmAd : Bool := r.cdw11.toNat.testBit 2

/-- The loop over the ranges, from a cursor on the iovecs; `rc j` answers the `j`-th submission of
this call. -/
def unmapLoop (rc : ℕ → ℤ) : ℕ → List (List UInt8) → ℕ → UnmapSt → UnmapSt × UnmapLoopEnd
  | 0, _, _, s => (s, .left)
  | todo + 1, ix, j, s =>
    let range := DsmRange.ofBytes (readIov 16 ix).1
    if overMaxDiscard d maxDiscardSizeKib range then
      (s.refuse range, .overLimit)
    else if rc j = 0 then
      unmapLoop rc todo (readIov 16 ix).2 (j + 1) (s.accept range)
    else if rc j = -ENOMEM then
      (s.queueIo range (rc j), .queued)
    else
      (s.reject range (rc j), .left)

/-- `nvmf_bdev_ctrlr_unmap`, once it has a context.  The cursor is set to the first range. -/
def unmapSubmit (rc : ℕ → ℤ) (s : UnmapSt) : UnmapSt × ExecStatus :=
  match unmapLoop d maxDiscardSizeKib rc (r.dsmNr - s.rangeIndex) r.iov 0 s with
  | (s, .overLimit) => (s, .complete)
  | (s, .queued) => (s, .asynchronous)
  | (s, .left) =>
    if s.count = 0 then
      ({ s with live := false, trace := s.trace ++ [.free] }, .complete)
    else
      (s, .asynchronous)

/-- **`nvmf_bdev_ctrlr_unmap`**: without a context, where `calloc` may fail, or with the one it was
queued with. -/
def nvmfBdevCtrlrUnmap (unmapCtx : Option Bool) (rc : ℕ → ℤ) (s : UnmapSt) : UnmapSt × ExecStatus :=
  if r.dsmNr * 16 > r.length.toNat then
    ({ s with rsp := { s.rsp with sc := 0x0f } }, .complete) else
  match unmapCtx with
  | some false =>
    ({ s with rsp := { s.rsp with sc := 0x06 }, trace := s.trace ++ [.allocFailed] }, .complete)
  | some true => unmapSubmit d maxDiscardSizeKib r rc s.begin
  | none => unmapSubmit d maxDiscardSizeKib r rc s.dequeue

/-- **`nvmf_bdev_ctrlr_dsm_cmd`.** -/
def nvmfBdevCtrlrDsmCmd (allocOk : Bool) (rc : ℕ → ℤ) (s : UnmapSt) : UnmapSt × ExecStatus :=
  if r.dsmAd then nvmfBdevCtrlrUnmap d maxDiscardSizeKib r (some allocOk) rc s
  else ({ s with rsp := .success }, .complete)

/-- **`nvmf_bdev_ctrlr_unmap_cpl`.** -/
def nvmfBdevCtrlrUnmapCpl (status : NvmeStatus) (s : UnmapSt) : UnmapSt :=
  let s := { s with
    count := s.count - 1
    rsp := if s.rsp = .success then status else s.rsp
    trace := s.trace ++ [.callback status] }
  if s.count = 0 then
    { s with live := false, trace := s.trace ++ [.complete s.rsp, .free] }
  else s

/-- The caller of the handler completes the request where the return value says so. -/
def UnmapSt.answer (s : UnmapSt) : ExecStatus → UnmapSt
  | .complete => { s with trace := s.trace ++ [.complete s.rsp] }
  | .asynchronous => s

/-- What the reactor does next, with the answers of the bdev layer. -/
inductive UnmapLabel
  | exec (allocOk : Bool) (rc : ℕ → ℤ)
  /-- The io-wait queue calls `nvmf_bdev_ctrlr_unmap_resubmit`. -/
  | retry (rc : ℕ → ℤ)
  /-- An unmap completes. -/
  | unmapped (status : NvmeStatus)

/-- One step of the reactor.  `nvmf_bdev_ctrlr_unmap_resubmit` does not look at the return value of
the handler. -/
def unmapStep (s : UnmapSt) : UnmapLabel → Option UnmapSt
  | .exec allocOk rc =>
    if s.started then none else
    let res := nvmfBdevCtrlrDsmCmd d maxDiscardSizeKib r allocOk rc { s with started := true }
    some (res.1.answer res.2)
  | .retry rc =>
    if s.waiting then
      let s := { s with waiting := false }
      if s.live then some (nvmfBdevCtrlrUnmap d maxDiscardSizeKib r none rc s).1
      else some { s with trace := s.trace ++ [.useAfterFree] }
    else none
  | .unmapped status =>
    if 0 < s.inflight then
      let s := { s with inflight := s.inflight - 1 }
      if s.live then some (nvmfBdevCtrlrUnmapCpl status s)
      else some { s with trace := s.trace ++ [.useAfterFree] }
    else none

/-- **Dataset Management as a system.** -/
def unmapSys : Sys UnmapSt UnmapLabel := ⟨{}, unmapStep d maxDiscardSizeKib r⟩

end Handlers

/-! ## The loop, on the list of ranges -/

/-- The first ranges in some bytes. -/
def rangesIn : ℕ → List UInt8 → List DsmRange
  | 0, _ => []
  | n + 1, bs => .ofBytes (bs.take 16) :: rangesIn n (bs.drop 16)

/-- **The ranges of a command**, in the order of its data. -/
def DataReq.dsmRanges (r : DataReq) : List DsmRange := rangesIn r.dsmNr r.iov.flatten

@[simp] theorem length_rangesIn : ∀ (n : ℕ) (bs : List UInt8), (rangesIn n bs).length = n
  | 0, _ => rfl
  | n + 1, bs => by rw [rangesIn, List.length_cons, length_rangesIn]

theorem take_rangesIn : ∀ {k n : ℕ} (bs : List UInt8), k ≤ n →
    (rangesIn n bs).take k = rangesIn k bs
  | 0, _, _, _ => rfl
  | k + 1, n + 1, bs, h => by
      rw [rangesIn, List.take_succ_cons, take_rangesIn _ (Nat.le_of_succ_le_succ h), rangesIn]

/-- The unmaps that are accepted, one after the other. -/
def UnmapSt.acceptAll (s : UnmapSt) (ranges : List DsmRange) : UnmapSt := ranges.foldl .accept s

/-- Ranges that are all accepted. -/
structure Accepts (tooLong : DsmRange → Bool) (rc : ℕ → ℤ) (ranges : List DsmRange) : Prop where
  fits : ∀ range ∈ ranges, tooLong range = false
  rc_eq : ∀ i < ranges.length, rc i = 0

/-- **How a loop over ranges ends**: it accepts some of them, and is through, or comes to one that
is over the limit, finds no `bdev_io` or is rejected. -/
inductive LoopEnds (tooLong : DsmRange → Bool) (rc : ℕ → ℤ) (s : UnmapSt) (ranges : List DsmRange) :
    UnmapSt × UnmapLoopEnd → Prop
  | through (h : Accepts tooLong rc ranges) :
      LoopEnds tooLong rc s ranges (s.acceptAll ranges, .left)
  | refused {ys : List DsmRange} {x : DsmRange} (h : Accepts tooLong rc ys)
      (hx : ys ++ [x] <+: ranges) (hover : tooLong x = true) :
      LoopEnds tooLong rc s ranges ((s.acceptAll ys).refuse x, .overLimit)
  | queued {ys : List DsmRange} {x : DsmRange} (h : Accepts tooLong rc ys)
      (hx : ys ++ [x] <+: ranges) (hover : tooLong x = false) (hrc : rc ys.length = -ENOMEM) :
      LoopEnds tooLong rc s ranges ((s.acceptAll ys).queueIo x (-ENOMEM), .queued)
  | rejected {ys : List DsmRange} {x : DsmRange} (h : Accepts tooLong rc ys)
      (hx : ys ++ [x] <+: ranges) (hover : tooLong x = false) (hzero : rc ys.length ≠ 0)
      (hrc : rc ys.length ≠ -ENOMEM) :
      LoopEnds tooLong rc s ranges ((s.acceptAll ys).reject x (rc ys.length), .left)

section Loop

variable {tooLong : DsmRange → Bool} {rc : ℕ → ℤ} {s : UnmapSt} {x : DsmRange}
  {ranges : List DsmRange}

theorem Accepts.nil : Accepts tooLong rc [] := ⟨by simp, by simp⟩

theorem Accepts.cons (hover : tooLong x = false) (hrc : rc 0 = 0)
    (h : Accepts tooLong (fun i => rc (i + 1)) ranges) : Accepts tooLong rc (x :: ranges) := by
  refine ⟨by simpa [hover] using h.fits, ?_⟩
  rintro (_ | i) hi
  · exact hrc
  · exact h.rc_eq i (by simpa using hi)

/-- One more range in front. -/
theorem LoopEnds.cons {res : UnmapSt × UnmapLoopEnd} (hover : tooLong x = false) (hrc : rc 0 = 0)
    (h : LoopEnds tooLong (fun i => rc (i + 1)) (s.accept x) ranges res) :
    LoopEnds tooLong rc s (x :: ranges) res := by
  cases h with
  | through hall => exact .through (hall.cons hover hrc)
  | refused hall hpre hx =>
    exact .refused (hall.cons hover hrc) ((List.prefix_cons_inj x).mpr hpre) hx
  | queued hall hpre hx hmem =>
    exact .queued (hall.cons hover hrc) ((List.prefix_cons_inj x).mpr hpre) hx hmem
  | rejected hall hpre hx hzero hmem =>
    exact .rejected (hall.cons hover hrc) ((List.prefix_cons_inj x).mpr hpre) hx hzero hmem

/-- **The loop of the handler**, on the ranges its cursor reads. -/
theorem unmapLoop_ends (d : Bdev) (maxDiscardSizeKib : UInt64) (rc : ℕ → ℤ) : ∀ (todo : ℕ)
    (ix : List (List UInt8)) (j : ℕ) (s : UnmapSt),
    LoopEnds (overMaxDiscard d maxDiscardSizeKib) (fun i => rc (j + i)) s
      (rangesIn todo ix.flatten) (unmapLoop d maxDiscardSizeKib rc todo ix j s)
  | 0, _, _, _ => .through .nil
  | todo + 1, ix, j, s => by
      rw [unmapLoop, rangesIn, ← readIov_fst, ← flatten_readIov_snd]
      set x := DsmRange.ofBytes (readIov 16 ix).1
      split_ifs with hover hzero hmem
      · exact .refused .nil (by simp) hover
      · refine .cons (by simpa using hover) hzero ?_
        simpa only [Nat.add_assoc, Nat.add_comm 1] using
          unmapLoop_ends d maxDiscardSizeKib rc todo (readIov 16 ix).2 (j + 1) (s.accept x)
      · rw [hmem]
        exact .queued .nil (by simp) (by simpa using hover) hmem
      · exact .rejected .nil (by simp) (by simpa using hover) hzero hmem

end Loop

/-! ## The statement -/

/-- The range of an unmap that was accepted. -/
def UnmapEffect.accepted? : UnmapEffect → Option DsmRange
  | .submit range rc => if rc = 0 then some range else none
  | _ => none

/-- The range of an unmap that was refused for good: rejected, or over the limit. -/
def UnmapEffect.refused? : UnmapEffect → Option DsmRange
  | .submit range rc => if rc ≠ 0 ∧ rc ≠ -ENOMEM then some range else none
  | .overLimit range => some range
  | _ => none

/-- The accepted unmaps, oldest first. -/
def UnmapSt.accepted (s : UnmapSt) : List DsmRange := s.trace.filterMap UnmapEffect.accepted?

def UnmapSt.refused (s : UnmapSt) : List DsmRange := s.trace.filterMap UnmapEffect.refused?

/-- **What is unmapped is what the host listed**: its ranges in order, each once, up to the last one
or up to one that was refused. -/
structure ExactlyListed (ranges : List DsmRange) (s : UnmapSt) : Prop where
  accepted : s.accepted <+: ranges
  ended : s.started = true → s.waiting = false →
    s.accepted = ranges ∨ .allocFailed ∈ s.trace ∨
      ∃ range ∈ s.refused, s.accepted ++ [range] <+: ranges

/-- A retry in step: what is left of the ranges are the first ranges again.  Before the first range
is accepted every retry is. -/
def RetryInStep (r : DataReq) (s : UnmapSt) : UnmapLabel → Prop
  | .retry _ => r.dsmRanges.drop s.rangeIndex <+: r.dsmRanges
  | _ => True

/-! ## A run in step -/

section Fields

variable {s : UnmapSt} {x : DsmRange} {ranges : List DsmRange} {rc : ℤ}

theorem acceptAll_eq : ∀ (ranges : List DsmRange) (s : UnmapSt), s.acceptAll ranges = { s with
    count := s.count + ranges.length
    rangeIndex := s.rangeIndex + ranges.length
    inflight := s.inflight + ranges.length
    trace := s.trace ++ ranges.map (.submit · 0) }
  | [], s => by simp [UnmapSt.acceptAll]
  | x :: ranges, s => by
      rw [UnmapSt.acceptAll, List.foldl_cons, ← UnmapSt.acceptAll, acceptAll_eq]
      simp [UnmapSt.accept, Nat.add_assoc, Nat.add_comm 1]

@[simp] theorem accepted_acceptAll : (s.acceptAll ranges).accepted = s.accepted ++ ranges := by
  simp [UnmapSt.accepted, acceptAll_eq, Function.comp_def, UnmapEffect.accepted?]

@[simp] theorem accepted_refuse : (s.refuse x).accepted = s.accepted := by
  simp [UnmapSt.accepted, UnmapSt.refuse, UnmapEffect.accepted?]

@[simp] theorem accepted_queueIo : (s.queueIo x (-ENOMEM)).accepted = s.accepted := by
  simp [UnmapSt.accepted, UnmapSt.queueIo, UnmapEffect.accepted?, ENOMEM]

theorem accepted_reject (hrc : rc ≠ 0) : (s.reject x rc).accepted = s.accepted := by
  simp [UnmapSt.accepted, UnmapSt.reject, UnmapEffect.accepted?, hrc]

theorem mem_refused_refuse : x ∈ (s.refuse x).refused := by
  simp [UnmapSt.refused, UnmapSt.refuse, UnmapEffect.refused?]

theorem mem_refused_reject (hzero : rc ≠ 0) (hrc : rc ≠ -ENOMEM) : x ∈ (s.reject x rc).refused := by
  simp [UnmapSt.refused, UnmapSt.reject, UnmapEffect.refused?, hzero, hrc]

end Fields

/-! ## The reference count -/

/-- **The reference count**: one for each unmap in flight and one for a queued retry, for as long as
the context is there. -/
structure Counted (r : DataReq) (s : UnmapSt) : Prop where
  live : s.live = true → s.count = s.inflight + s.waiting.toNat
  dead : s.live = false → s.inflight = 0 ∧ s.waiting = false
  sized : s.live = true → r.dsmNr * 16 ≤ r.length.toNat
  fresh : s.started = false → s.live = false ∧ s.trace = []

/-- **The steps of a command** whose context is there while it is needed. -/
inductive UnmapMoves (d : Bdev) (maxDiscardSizeKib : UInt64) (r : DataReq) (s : UnmapSt) :
    UnmapLabel → UnmapSt → Prop
  /-- Nothing is submitted. -/
  | early {allocOk : Bool} {rc : ℕ → ℤ} {rsp : NvmeStatus} {es : List UnmapEffect}
      (hnew : s.started = false) (hes : es = [] ∨ es = [.allocFailed])
      (hrsp : r.dsmAd = true → rsp ≠ .success)
      (hfailed : r.dsmAd = true → r.dsmNr * 16 ≤ r.length.toNat → es = [.allocFailed]) :
      UnmapMoves d maxDiscardSizeKib r s (.exec allocOk rc)
        { s with started := true, rsp, trace := s.trace ++ es ++ [.complete rsp] }
  | start {rc : ℕ → ℤ} (hnew : s.started = false) (hsized : r.dsmNr * 16 ≤ r.length.toNat) :
      UnmapMoves d maxDiscardSizeKib r s (.exec true rc)
        ((unmapSubmit d maxDiscardSizeKib r rc { s with started := true }.begin).1.answer
          (unmapSubmit d maxDiscardSizeKib r rc { s with started := true }.begin).2)
  | retry {rc : ℕ → ℤ} (hw : s.waiting = true) (hlive : s.live = true) :
      UnmapMoves d maxDiscardSizeKib r s (.retry rc)
        (unmapSubmit d maxDiscardSizeKib r rc { s with waiting := false }.dequeue).1
  | unmapped {status : NvmeStatus} (hpos : 0 < s.inflight) (hlive : s.live = true) :
      UnmapMoves d maxDiscardSizeKib r s (.unmapped status)
        (nvmfBdevCtrlrUnmapCpl status { s with inflight := s.inflight - 1 })

section Counted

variable {d : Bdev} {maxDiscardSizeKib : UInt64} {r : DataReq} {rc : ℕ → ℤ} {s s' : UnmapSt}
  {tooLong : DsmRange → Bool} {ranges : List DsmRange} {l : UnmapLabel}

theorem counted_init : Counted r {} :=
  ⟨nofun, fun _ => ⟨rfl, rfl⟩, nofun, fun _ => ⟨rfl, rfl⟩⟩

/-- The handler returns before it has allocated anything. -/
theorem UnmapMoves.short {allocOk : Bool} {rsp : NvmeStatus} (hnew : s.started = false)
    (hrsp : r.dsmAd = true → rsp ≠ .success)
    (hlen : r.dsmAd = true → ¬ r.dsmNr * 16 ≤ r.length.toNat) :
    UnmapMoves d maxDiscardSizeKib r s (.exec allocOk rc)
      { s with started := true, rsp, trace := s.trace ++ [.complete rsp] } := by
  have hmove : UnmapMoves d maxDiscardSizeKib r s (.exec allocOk rc)
      { s with started := true, rsp, trace := s.trace ++ [] ++ [.complete rsp] } :=
    .early hnew (.inl rfl) hrsp fun had h => absurd h (hlen had)
  rwa [List.append_nil] at hmove

/-- **Inversion of a step.** -/
theorem Counted.moves (h : Counted r s) (hs : unmapStep d maxDiscardSizeKib r s l = some s') :
    UnmapMoves d maxDiscardSizeKib r s l s' := by
  cases l with
  | exec allocOk rc =>
    simp only [unmapStep] at hs
    split_ifs at hs with hstarted
    rw [Bool.not_eq_true] at hstarted
    obtain rfl := Option.some.inj hs
    unfold nvmfBdevCtrlrDsmCmd
    split_ifs with had
    · unfold nvmfBdevCtrlrUnmap
      split_ifs with hlen
      · exact .short hstarted (by simp [NvmeStatus.success]) fun _ h => by omega
      · cases allocOk with
        | false =>
          exact .early hstarted (.inr rfl) (by simp [NvmeStatus.success]) fun _ _ => rfl
        | true => exact .start hstarted (by omega)
    · exact .short hstarted (fun h => absurd h had) fun h => absurd h had
  | retry rc =>
    simp only [unmapStep] at hs
    split_ifs at hs with hw hlive
    · obtain rfl := Option.some.inj hs
      have hlen := h.sized hlive
      unfold nvmfBdevCtrlrUnmap
      rw [if_neg (by omega)]
      exact .retry hw hlive
    · have hdead := h.dead (by simpa using hlive)
      rw [hw] at hdead
      exact absurd hdead.2 (by decide)
  | unmapped status =>
    simp only [unmapStep] at hs
    split_ifs at hs with hpos hlive
    · obtain rfl := Option.some.inj hs
      exact .unmapped hpos hlive
    · have hdead := h.dead (by simpa using hlive)
      omega

/-- The loop counts what it submits. -/
theorem LoopEnds.count_eq {res : UnmapSt × UnmapLoopEnd} (h : LoopEnds tooLong rc s ranges res)
    (hcount : s.count = s.inflight) (hw : s.waiting = false) :
    res.1.count = res.1.inflight + res.1.waiting.toNat := by
  cases h <;>
    simp [acceptAll_eq, UnmapSt.refuse, UnmapSt.queueIo, UnmapSt.reject, hcount, hw]

theorem LoopEnds.live_eq {res : UnmapSt × UnmapLoopEnd} (h : LoopEnds tooLong rc s ranges res) :
    res.1.live = s.live := by
  cases h <;> simp [acceptAll_eq, UnmapSt.refuse, UnmapSt.queueIo, UnmapSt.reject]

theorem LoopEnds.started_eq {res : UnmapSt × UnmapLoopEnd} (h : LoopEnds tooLong rc s ranges res) :
    res.1.started = s.started := by
  cases h <;> simp [acceptAll_eq, UnmapSt.refuse, UnmapSt.queueIo, UnmapSt.reject]

/-- **Inversion of a call that has a context**: the loop, and then the context is freed where
nothing is left to wait for. -/
theorem unmapSubmit_cases (d : Bdev) (maxDiscardSizeKib : UInt64) (r : DataReq) (rc : ℕ → ℤ)
    (s : UnmapSt) : ∃ t e,
    LoopEnds (overMaxDiscard d maxDiscardSizeKib) rc s
      (rangesIn (r.dsmNr - s.rangeIndex) r.iov.flatten) (t, e) ∧
    (e = .overLimit ∧ unmapSubmit d maxDiscardSizeKib r rc s = (t, .complete) ∨
      e = .queued ∧ unmapSubmit d maxDiscardSizeKib r rc s = (t, .asynchronous) ∨
      e = .left ∧ t.count = 0 ∧ unmapSubmit d maxDiscardSizeKib r rc s
        = ({ t with live := false, trace := t.trace ++ [.free] }, .complete) ∨
      e = .left ∧ t.count ≠ 0 ∧ unmapSubmit d maxDiscardSizeKib r rc s = (t, .asynchronous)) := by
  have hends := unmapLoop_ends d maxDiscardSizeKib rc (r.dsmNr - s.rangeIndex) r.iov 0 s
  simp only [Nat.zero_add] at hends
  unfold unmapSubmit
  cases hres : unmapLoop d maxDiscardSizeKib rc (r.dsmNr - s.rangeIndex) r.iov 0 s with
  | mk t e =>
    rw [hres] at hends
    refine ⟨t, e, hends, ?_⟩
    cases e with
    | overLimit => exact .inl ⟨rfl, rfl⟩
    | queued => exact .inr (.inl ⟨rfl, rfl⟩)
    | left =>
      right; right
      by_cases hcount : t.count = 0
      · exact .inl ⟨rfl, hcount, by simp [hcount]⟩
      · exact .inr ⟨rfl, hcount, by simp [hcount]⟩

/-- A started command with its context. -/
theorem Counted.of_live (hs : s.started = true) (hlive : s.live = true)
    (hsized : r.dsmNr * 16 ≤ r.length.toNat)
    (hcount : s.count = s.inflight + s.waiting.toNat) : Counted r s :=
  ⟨fun _ => hcount, fun h => absurd (hlive.symm.trans h) (by decide), fun _ => hsized,
    fun h => absurd (hs.symm.trans h) (by decide)⟩

/-- …and one without. -/
theorem Counted.of_dead (hs : s.started = true) (hlive : s.live = false)
    (hidle : s.inflight = 0 ∧ s.waiting = false) : Counted r s :=
  ⟨fun h => absurd (hlive.symm.trans h) (by decide), fun _ => hidle,
    fun h => absurd (hlive.symm.trans h) (by decide), fun h => absurd (hs.symm.trans h) (by decide)⟩

/-- A count of zero: nothing is left. -/
theorem idle_of_count {i c : ℕ} {w : Bool} (hcount : c = i + w.toNat) (hzero : c = 0) :
    i = 0 ∧ w = false := by
  cases w with
  | false => exact ⟨by simpa using hcount.symm.trans hzero, rfl⟩
  | true => simp [hzero] at hcount

theorem Counted.submit (hs : s.started = true) (hlive : s.live = true)
    (hsized : r.dsmNr * 16 ≤ r.length.toNat) (hcount : s.count = s.inflight)
    (hw : s.waiting = false) :
    Counted r (unmapSubmit d maxDiscardSizeKib r rc s).1 ∧
      (unmapSubmit d maxDiscardSizeKib r rc s).1.started = true := by
  obtain ⟨t, e, hends, hcases⟩ := unmapSubmit_cases d maxDiscardSizeKib r rc s
  have hs' : t.started = true := hends.started_eq.trans hs
  have hcount' : t.count = t.inflight + t.waiting.toNat := hends.count_eq hcount hw
  have hcounted : Counted r t := .of_live hs' (hends.live_eq.trans hlive) hsized hcount'
  rcases hcases with ⟨-, heq⟩ | ⟨-, heq⟩ | ⟨-, hzero, heq⟩ | ⟨-, -, heq⟩
  · rw [heq]
    exact ⟨hcounted, hs'⟩
  · rw [heq]
    exact ⟨hcounted, hs'⟩
  · rw [heq]
    exact ⟨.of_dead hs' rfl (idle_of_count hcount' hzero), hs'⟩
  · rw [heq]
    exact ⟨hcounted, hs'⟩

/-- What is logged does not count. -/
theorem Counted.answer (h : Counted r s) (hs : s.started = true) (e : ExecStatus) :
    Counted r (s.answer e) := by
  cases e with
  | complete => exact ⟨h.live, h.dead, h.sized, fun h => absurd (hs.symm.trans h) (by decide)⟩
  | asynchronous => exact h

/-- Until it has started, a command holds nothing. -/
theorem Counted.started (h : Counted r s) (hlive : s.live = true) : s.started = true := by
  by_contra hn
  exact absurd (hlive.symm.trans (h.fresh (by simpa using hn)).1) (by decide)

/-- **Every step counts.** -/
theorem Counted.step (h : Counted r s) (hs : UnmapMoves d maxDiscardSizeKib r s l s') :
    Counted r s' := by
  cases hs with
  | early hnew hes hrsp hfailed =>
    have hlive := (h.fresh hnew).1
    exact .of_dead rfl hlive (h.dead hlive)
  | @start rc hnew hsized =>
    obtain ⟨hidle, hw⟩ := h.dead (h.fresh hnew).1
    have hsub := @Counted.submit d maxDiscardSizeKib r rc { s with started := true }.begin rfl rfl
      hsized hidle.symm hw
    exact hsub.1.answer hsub.2 _
  | @retry rc hw hlive =>
    have hcount := h.live hlive
    rw [hw, Bool.toNat_true] at hcount
    have hcount' : s.count - 1 = s.inflight := by omega
    exact (@Counted.submit d maxDiscardSizeKib r rc { s with waiting := false }.dequeue
      (h.started hlive) hlive (h.sized hlive) hcount' rfl).1
  | unmapped hpos hlive =>
    have hcount := h.live hlive
    have hcount' : s.count - 1 = s.inflight - 1 + s.waiting.toNat := by omega
    unfold nvmfBdevCtrlrUnmapCpl
    by_cases hzero : s.count - 1 = 0
    · rw [if_pos hzero]
      exact .of_dead (h.started hlive) rfl (idle_of_count hcount' hzero)
    · rw [if_neg hzero]
      exact .of_live (h.started hlive) hlive (h.sized hlive) hcount'

/-- **No run uses a context that is not there.** -/
theorem counted_of_reach {P : UnmapSt → UnmapLabel → Prop}
    (h : (unmapSys d maxDiscardSizeKib r).Reach P s) : Counted r s :=
  h.invariant counted_init fun _ _ _ hI _ hs => hI.step (hI.moves hs)

end Counted

/-! ## Runs in step -/

/-- **The invariant of runs in step.** -/
structure Listed (tooLong : DsmRange → Bool) (ranges : List DsmRange) (s : UnmapSt) : Prop
    extends ExactlyListed ranges s where
  fits : ∀ range ∈ s.accepted, tooLong range = false
  /-- A queued command is at the range behind the accepted ones. -/
  index : s.waiting = true → s.rangeIndex = s.accepted.length ∧
    ∃ range, s.accepted ++ [range] <+: ranges ∧ tooLong range = false

section Listed

variable {d : Bdev} {maxDiscardSizeKib : UInt64} {r : DataReq} {rc : ℕ → ℤ} {s s' : UnmapSt}
  {tooLong : DsmRange → Bool} {ranges xs : List DsmRange} {l : UnmapLabel}

theorem listed_init : Listed tooLong ranges {} := ⟨⟨List.nil_prefix, nofun⟩, nofun, nofun⟩

/-- **A loop from the range behind the accepted ones.** -/
theorem Listed.loop {res : UnmapSt × UnmapLoopEnd} (hw : s.waiting = false)
    (hfits : ∀ range ∈ s.accepted, tooLong range = false)
    (hindex : s.rangeIndex = s.accepted.length) (hall : s.accepted ++ xs = ranges)
    (h : LoopEnds tooLong rc s xs res) : Listed tooLong ranges res.1 := by
  have hok : ∀ {ys : List DsmRange}, Accepts tooLong rc ys → ∀ range ∈ s.accepted ++ ys,
      tooLong range = false := fun hys range hr =>
    (List.mem_append.mp hr).elim (hfits range) (hys.fits range)
  have hpre : ∀ {ys : List DsmRange}, ys <+: xs → s.accepted ++ ys <+: ranges := fun hys =>
    hall ▸ (List.prefix_append_right_inj _).mpr hys
  have hnext : ∀ {ys : List DsmRange} {x : DsmRange}, ys ++ [x] <+: xs →
      s.accepted ++ ys ++ [x] <+: ranges := fun hx => by
    rw [List.append_assoc]
    exact hpre hx
  cases h with
  | through hys =>
    refine ⟨⟨?_, fun _ _ => .inl ?_⟩, ?_, fun h => ?_⟩
    · simpa using hpre (List.prefix_refl xs)
    · simpa using hall
    · simpa using hok hys
    · simp [acceptAll_eq, hw] at h
  | @refused ys x hys hx hover =>
    refine ⟨⟨?_, fun _ _ => .inr (.inr ⟨x, mem_refused_refuse, ?_⟩)⟩, ?_, fun h => ?_⟩
    · simpa using hpre ((List.prefix_append ys [x]).trans hx)
    · simpa using hnext hx
    · simpa using hok hys
    · simp [acceptAll_eq, UnmapSt.refuse, hw] at h
  | @queued ys x hys hx hover hmem =>
    refine ⟨⟨?_, fun _ h => ?_⟩, ?_, fun _ => ⟨?_, x, ?_, hover⟩⟩
    · simpa using hpre ((List.prefix_append ys [x]).trans hx)
    · simp [UnmapSt.queueIo] at h
    · simpa using hok hys
    · rw [accepted_queueIo, accepted_acceptAll, List.length_append, ← hindex]
      simp [UnmapSt.queueIo, acceptAll_eq]
    · simpa using hnext hx
  | @rejected ys x hys hx hover hzero hmem =>
    refine ⟨⟨?_, fun _ _ => .inr (.inr ⟨x, mem_refused_reject hzero hmem, ?_⟩)⟩, ?_, fun h => ?_⟩
    · simpa [accepted_reject hzero] using hpre ((List.prefix_append ys [x]).trans hx)
    · simpa [accepted_reject hzero] using hnext hx
    · simpa [accepted_reject hzero] using hok hys
    · simp [acceptAll_eq, UnmapSt.reject, hw] at h

/-- What submits nothing keeps it. -/
theorem Listed.log (h : Listed tooLong ranges s) (es : List UnmapEffect)
    (hes : es.filterMap UnmapEffect.accepted? = []) (hs : s'.started = s.started)
    (hw : s'.waiting = s.waiting) (hindex : s'.rangeIndex = s.rangeIndex)
    (htrace : s'.trace = s.trace ++ es) : Listed tooLong ranges s' := by
  have hacc : s'.accepted = s.accepted := by
    rw [UnmapSt.accepted, htrace, List.filterMap_append, hes, List.append_nil, UnmapSt.accepted]
  have hmem : ∀ range ∈ s.refused, range ∈ s'.refused := fun range hr => by
    rw [UnmapSt.refused, htrace, List.filterMap_append]
    exact List.mem_append_left _ hr
  refine ⟨⟨hacc ▸ h.accepted, fun hs' hw' => ?_⟩, hacc ▸ h.fits, fun hw' => ?_⟩
  · rw [hacc, htrace]
    refine (h.ended (hs ▸ hs') (hw ▸ hw')).imp_right (Or.imp (List.mem_append_left _) ?_)
    rintro ⟨range, hr, hpre⟩
    exact ⟨range, hmem range hr, hpre⟩
  · rw [hacc, hindex]
    exact h.index (hw ▸ hw')

/-- A call of the handler that has a context. -/
theorem Listed.submit (hw : s.waiting = false)
    (hfits : ∀ range ∈ s.accepted, overMaxDiscard d maxDiscardSizeKib range = false)
    (hindex : s.rangeIndex = s.accepted.length)
    (hall : s.accepted ++ rangesIn (r.dsmNr - s.rangeIndex) r.iov.flatten = r.dsmRanges) :
    Listed (overMaxDiscard d maxDiscardSizeKib) r.dsmRanges
      (unmapSubmit d maxDiscardSizeKib r rc s).1 := by
  obtain ⟨t, e, hends, hcases⟩ := unmapSubmit_cases d maxDiscardSizeKib r rc s
  have hloop := Listed.loop hw hfits hindex hall hends
  rcases hcases with ⟨-, heq⟩ | ⟨-, heq⟩ | ⟨-, hzero, heq⟩ | ⟨-, -, heq⟩
  · rwa [heq]
  · rwa [heq]
  · rw [heq]
    exact hloop.log [.free] rfl rfl rfl rfl rfl
  · rwa [heq]

/-- In step, the ranges a retry reads are those behind the accepted ones. -/
theorem append_rangesIn_of_inStep {range : DsmRange} (hpre : s.accepted ++ [range] <+: r.dsmRanges)
    (hindex : s.rangeIndex = s.accepted.length)
    (hstep : r.dsmRanges.drop s.rangeIndex <+: r.dsmRanges) :
    s.accepted ++ rangesIn (r.dsmNr - s.rangeIndex) r.iov.flatten = r.dsmRanges := by
  have haccepted : s.accepted = r.dsmRanges.take s.rangeIndex := by
    rw [hindex]
    exact List.prefix_iff_eq_take.mp ((List.prefix_append ..).trans hpre)
  have hdrop : rangesIn (r.dsmNr - s.rangeIndex) r.iov.flatten
      = r.dsmRanges.drop s.rangeIndex := by
    rw [List.prefix_iff_eq_take.mp hstep, List.length_drop, DataReq.dsmRanges, length_rangesIn,
      take_rangesIn _ (Nat.sub_le ..)]
  rw [hdrop, haccepted, List.take_append_drop]

/-- **A step in step keeps it.** -/
theorem Listed.step (h : Listed (overMaxDiscard d maxDiscardSizeKib) r.dsmRanges s)
    (hcounted : Counted r s) (had : r.dsmAd = true) (hlen : r.dsmNr * 16 ≤ r.length.toNat)
    (hstep : RetryInStep r s l) (hs : UnmapMoves d maxDiscardSizeKib r s l s') :
    Listed (overMaxDiscard d maxDiscardSizeKib) r.dsmRanges s' := by
  cases hs with
  | @early allocOk rc rsp es hnew hes hrsp hfailed =>
    obtain ⟨hlive, htrace⟩ := hcounted.fresh hnew
    rw [hfailed had hlen, htrace]
    refine ⟨⟨List.nil_prefix, fun _ _ => .inr (.inl (List.mem_cons_self ..))⟩, nofun, fun hw => ?_⟩
    exact absurd ((hcounted.dead hlive).2.symm.trans hw) (by decide)
  | @start rc hnew hsized =>
    obtain ⟨hlive, htrace⟩ := hcounted.fresh hnew
    have haccepted : { s with started := true }.begin.accepted = [] := by
      rw [UnmapSt.accepted, UnmapSt.begin, htrace]
      rfl
    have hsub := @Listed.submit d maxDiscardSizeKib r rc { s with started := true }.begin
      (hcounted.dead hlive).2 (by simp [haccepted]) (by rw [haccepted]; rfl)
      (by rw [haccepted, List.nil_append]; rfl)
    generalize unmapSubmit d maxDiscardSizeKib r rc { s with started := true }.begin = res at hsub ⊢
    obtain ⟨t, e⟩ := res
    cases e with
    | complete => exact hsub.log [.complete t.rsp] rfl rfl rfl rfl rfl
    | asynchronous => exact hsub
  | @retry rc hw hlive =>
    obtain ⟨hindex, range, hpre, -⟩ := h.index hw
    exact @Listed.submit d maxDiscardSizeKib r rc { s with waiting := false }.dequeue rfl h.fits
      hindex (append_rangesIn_of_inStep (s := s) hpre hindex hstep)
  | @unmapped status hpos hlive =>
    unfold nvmfBdevCtrlrUnmapCpl
    by_cases hzero : s.count - 1 = 0
    · rw [if_pos hzero]
      exact h.log [.callback status, .complete _, .free] rfl rfl rfl rfl
        (List.append_assoc ..)
    · rw [if_neg hzero]
      exact h.log [.callback status] rfl rfl rfl rfl rfl

/-- **A run in step unmaps what was listed.** -/
theorem listed_of_reach (had : r.dsmAd = true) (hlen : r.dsmNr * 16 ≤ r.length.toNat)
    (h : (unmapSys d maxDiscardSizeKib r).Reach (RetryInStep r) s) :
    Listed (overMaxDiscard d maxDiscardSizeKib) r.dsmRanges s :=
  h.invariant_of_reach listed_init fun _ _ _ hr hI hP hs =>
    hI.step (counted_of_reach hr) had hlen hP ((counted_of_reach hr).moves hs)

/-! ## When what is unmapped is what was listed -/

variable (d maxDiscardSizeKib r)

/-- No retry can do harm: the ranges are all the same, or the first or the second is over the limit,
so that no retry is behind the first range. -/
def RetriesHarmless : Prop :=
  (∀ x ∈ r.dsmRanges, ∀ y ∈ r.dsmRanges, x = y) ∨
    ∃ x ∈ r.dsmRanges.take 2, overMaxDiscard d maxDiscardSizeKib x = true

variable {d maxDiscardSizeKib r}

theorem Listed.inStep (h : Listed (overMaxDiscard d maxDiscardSizeKib) r.dsmRanges s)
    (hsame : RetriesHarmless d maxDiscardSizeKib r)
    (hs : UnmapMoves d maxDiscardSizeKib r s l s') : RetryInStep r s l := by
  cases hs with
  | early => trivial
  | start => trivial
  | unmapped => trivial
  | retry hw hlive =>
    obtain ⟨hindex, range, hpre, hover⟩ := h.index hw
    change r.dsmRanges.drop s.rangeIndex <+: r.dsmRanges
    rcases hsame with hall | ⟨x, hx, hxover⟩
    · refine List.prefix_iff_eq_take.mpr (List.ext_getElem (by simp) fun i hi hi' => ?_)
      exact hall _ (List.mem_of_mem_drop (List.getElem_mem hi)) _
        (List.mem_of_mem_take (List.getElem_mem hi'))
    · -- behind an accepted range, neither of the first two is over the limit
      have hzero : s.rangeIndex = 0 := by
        by_contra hpos
        have htwo : (r.dsmRanges.take 2).length ≤ (s.accepted ++ [range]).length := by
          rw [List.length_take, List.length_append, List.length_singleton, ← hindex]
          omega
        have hmem := (List.prefix_of_prefix_length_le (List.take_prefix ..) hpre htwo).subset hx
        have hfits : overMaxDiscard d maxDiscardSizeKib x = false := by
          rcases List.mem_append.mp hmem with hmem | hmem
          · exact h.fits x hmem
          · rwa [List.mem_singleton.mp hmem]
        exact absurd (hxover.symm.trans hfits) (by decide)
      have hdrop : r.dsmRanges.drop s.rangeIndex = r.dsmRanges := by rw [hzero, List.drop_zero]
      exact hdrop.symm ▸ List.prefix_refl _

/-- A list that is its own front, moved by one, is constant. -/
theorem eq_of_take_cons_eq : ∀ {a : DsmRange} {l : List DsmRange}, (a :: l).take l.length = l →
    ∀ y ∈ l, y = a
  | a, b :: l, h, y, hy => by
      obtain ⟨rfl, h⟩ := List.cons.inj h
      rcases List.mem_cons.mp hy with rfl | hy
      · rfl
      · exact eq_of_take_cons_eq h y hy

/-- One range is accepted, and then there is no `bdev_io`. -/
def acceptOne (j : ℕ) : ℤ := if j = 0 then 0 else -ENOMEM

/-- A command of two or more ranges is queued behind the first one. -/
theorem exists_queued (had : r.dsmAd = true) (hlen : r.dsmNr * 16 ≤ r.length.toNat)
    {a b : DsmRange} (hpre : [a, b] <+: r.dsmRanges)
    (hfits : ∀ x ∈ r.dsmRanges.take 2, overMaxDiscard d maxDiscardSizeKib x = false) :
    ∃ s, unmapStep d maxDiscardSizeKib r {} (.exec true acceptOne) = some s ∧ s.waiting = true ∧
      s.live = true ∧ s.rangeIndex = 1 ∧ s.accepted = [a] := by
  have hcall : unmapStep d maxDiscardSizeKib r {} (.exec true acceptOne)
      = some ((unmapSubmit d maxDiscardSizeKib r acceptOne
        { started := true : UnmapSt }.begin).1.answer
        (unmapSubmit d maxDiscardSizeKib r acceptOne { started := true : UnmapSt }.begin).2) := by
    simp [unmapStep, nvmfBdevCtrlrDsmCmd, had, nvmfBdevCtrlrUnmap, Nat.not_lt.mpr hlen]
  obtain ⟨t, e, hends, hcases⟩ := unmapSubmit_cases d maxDiscardSizeKib r acceptOne
    { started := true : UnmapSt }.begin
  have htwo : 2 ≤ r.dsmRanges.length := hpre.length_le
  -- only the first range is accepted
  have hone : ∀ {ys : List DsmRange}, Accepts (overMaxDiscard d maxDiscardSizeKib) acceptOne ys →
      ys.length ≤ 1 := fun hys => by
    by_contra hlt
    exact absurd (hys.rc_eq 1 (by omega)) (by decide)
  rw [hcall]
  cases hends with
  | through hys => exact absurd (hone hys) (Nat.not_le.mpr htwo)
  | @refused ys x hys hx hover =>
    have hlength : (ys ++ [x]).length ≤ (r.dsmRanges.take 2).length := by
      have := hone hys
      rw [List.length_append, List.length_singleton, List.length_take]
      omega
    have hmem : x ∈ r.dsmRanges.take 2 :=
      (List.prefix_of_prefix_length_le hx (List.take_prefix ..) hlength).subset (by simp)
    exact absurd (hover.symm.trans (hfits x hmem)) (by decide)
  | @queued ys x hys hx hover hmem =>
    have hlength : ys.length = 1 := by
      have hpos : ys.length ≠ 0 := fun hzero => by
        rw [hzero] at hmem
        exact absurd hmem (by decide)
      have := hone hys
      omega
    obtain ⟨y, rfl⟩ := List.length_eq_one_iff.mp hlength
    obtain rfl : y = a := by
      have hfirst := List.prefix_of_prefix_length_le hx hpre (by simp)
      simpa using (List.cons_prefix_cons.mp hfirst).1
    rcases hcases with ⟨he, -⟩ | ⟨-, heq⟩ | ⟨he, -⟩ | ⟨he, -⟩
    · cases he
    · rw [heq]
      exact ⟨_, rfl, rfl, rfl, rfl, rfl⟩
    · cases he
    · cases he
  | rejected hys hx hover hzero hmem =>
    unfold acceptOne at hzero hmem
    split_ifs at hzero hmem
    · exact absurd rfl hzero
    · exact absurd rfl hmem

/-- A retry that goes through: it accepts the first ranges once more. -/
theorem exists_retried (hlen : r.dsmNr * 16 ≤ r.length.toNat) (hw : s.waiting = true)
    (hlive : s.live = true) : ∃ s' ys,
      unmapStep d maxDiscardSizeKib r s (.retry fun _ => 0) = some s' ∧
      s'.accepted = s.accepted ++ ys ∧
      (ys = r.dsmRanges.take (r.dsmNr - s.rangeIndex) ∨
        ∃ x, ys ++ [x] <+: r.dsmRanges ∧ overMaxDiscard d maxDiscardSizeKib x = true ∧
          ∀ y ∈ ys, overMaxDiscard d maxDiscardSizeKib y = false) := by
  have hcall : unmapStep d maxDiscardSizeKib r s (.retry fun _ => 0)
      = some (unmapSubmit d maxDiscardSizeKib r (fun _ => 0)
        { s with waiting := false }.dequeue).1 := by
    simp [unmapStep, hw, hlive, nvmfBdevCtrlrUnmap, Nat.not_lt.mpr hlen]
  obtain ⟨t, e, hends, hcases⟩ := unmapSubmit_cases d maxDiscardSizeKib r (fun _ => 0)
    { s with waiting := false }.dequeue
  have hread : rangesIn (r.dsmNr - { s with waiting := false }.dequeue.rangeIndex) r.iov.flatten
      = r.dsmRanges.take (r.dsmNr - s.rangeIndex) := (take_rangesIn _ (Nat.sub_le ..)).symm
  rw [hread] at hends
  have haccepted : (unmapSubmit d maxDiscardSizeKib r (fun _ => 0)
      { s with waiting := false }.dequeue).1.accepted = t.accepted := by
    rcases hcases with ⟨-, heq⟩ | ⟨-, heq⟩ | ⟨-, -, heq⟩ | ⟨-, -, heq⟩
    · rw [heq]
    · rw [heq]
    · rw [heq, UnmapSt.accepted, List.filterMap_append]
      exact List.append_nil _
    · rw [heq]
  rw [hcall]
  cases hends with
  | through hys => exact ⟨_, _, rfl, haccepted.trans accepted_acceptAll, .inl rfl⟩
  | refused hys hx hover =>
    exact ⟨_, _, rfl, haccepted.trans (accepted_refuse.trans accepted_acceptAll),
      .inr ⟨_, hx.trans (List.take_prefix ..), hover, hys.fits⟩⟩
  | queued hys hx hover hmem => exact absurd hmem (by decide)
  | rejected hys hx hover hzero hmem => exact absurd rfl hzero

/-- A command that is exact whatever the bdev layer answers. -/
theorem retriesHarmless_of_exact (had : r.dsmAd = true) (hlen : r.dsmNr * 16 ≤ r.length.toNat)
    (hall : ∀ s, (unmapSys d maxDiscardSizeKib r).Reach (fun _ _ => True) s →
      ExactlyListed r.dsmRanges s) : RetriesHarmless d maxDiscardSizeKib r := by
  by_cases hover : ∃ x ∈ r.dsmRanges.take 2, overMaxDiscard d maxDiscardSizeKib x = true
  · exact .inr hover
  refine .inl ?_
  have hfits : ∀ x ∈ r.dsmRanges.take 2, overMaxDiscard d maxDiscardSizeKib x = false :=
    fun x hx => Bool.eq_false_iff.mpr fun h => hover ⟨x, hx, h⟩
  have hnr : r.dsmRanges.length = r.dsmNr := length_rangesIn ..
  match hranges : r.dsmRanges with
  | [] => simp
  | [a] => simp
  | a :: b :: rest =>
    have hpre : [a, b] <+: r.dsmRanges := ⟨rest, hranges.symm⟩
    obtain ⟨s, hexec, hw, hlive, hindex, hs⟩ := exists_queued had hlen hpre hfits
    obtain ⟨s', ys, hretry, hs', hys⟩ :=
      @exists_retried d maxDiscardSizeKib r s hlen hw hlive
    have hqueued : (unmapSys d maxDiscardSizeKib r).step {} (.exec true acceptOne) = some s := hexec
    have hretried : (unmapSys d maxDiscardSizeKib r).step s (.retry fun _ => 0) = some s' := hretry
    have hexact := (hall s' (.step (.step .init trivial hqueued) trivial hretried)).accepted
    rw [hs', hs, List.singleton_append] at hexact
    rcases hys with rfl | ⟨x, hx, hxover, hok⟩
    · -- the first ranges, moved by one, are the ranges
      have heq := hexact.eq_of_length (by
        rw [List.length_cons, List.length_take, hindex, hnr, DataReq.dsmNr]
        omega)
      rw [hindex, ← hnr, hranges] at heq
      have hsame := eq_of_take_cons_eq (List.cons.inj heq).2
      have hfirst : ∀ y ∈ a :: b :: rest, y = a := fun y hy =>
        (List.mem_cons.mp hy).elim id (hsame y)
      exact fun x hx y hy => (hfirst x hx).trans (hfirst y hy).symm
    · -- a range over the limit is read, and was accepted
      have heq : a :: ys = ys ++ [x] :=
        (List.prefix_of_prefix_length_le hexact hx (by simp)).eq_of_length (by simp)
      have hmem : x ∈ a :: ys := heq ▸ List.mem_append_right ys (List.mem_singleton_self x)
      have hxfits : overMaxDiscard d maxDiscardSizeKib x = false := by
        rcases List.mem_cons.mp hmem with rfl | hmem
        · exact hfits x (by rw [hranges]; simp)
        · exact hok x hmem
      exact absurd (hxover.symm.trans hxfits) (by decide)

/-- **A deallocate command unmaps exactly the ranges the host listed in every run whose retries are
in step; and it does in every run at all exactly when its retries can do no harm.** -/
theorem unmap_exactlyListed (had : r.dsmAd = true) (hlen : r.dsmNr * 16 ≤ r.length.toNat) :
    (∀ s, (unmapSys d maxDiscardSizeKib r).Reach (RetryInStep r) s → ExactlyListed r.dsmRanges s) ∧
    ((∀ s, (unmapSys d maxDiscardSizeKib r).Reach (fun _ _ => True) s →
        ExactlyListed r.dsmRanges s) ↔ RetriesHarmless d maxDiscardSizeKib r) := by
  refine ⟨fun s hs => (listed_of_reach had hlen hs).toExactlyListed,
    retriesHarmless_of_exact had hlen, fun hsame s hs => ?_⟩
  have hlisted : Listed (overMaxDiscard d maxDiscardSizeKib) r.dsmRanges s :=
    hs.invariant_of_reach listed_init fun _ _ _ hr hI _ hstep =>
      have hcounted := counted_of_reach hr
      have hmoves := hcounted.moves hstep
      hI.step hcounted had hlen (hI.inStep hsame hmoves) hmoves
  exact hlisted.toExactlyListed

end Listed

/-- A device of 64 blocks of 512 bytes. -/
def Bdev.dsmSample : Bdev := ⟨64, 512, 1, Bdev.sample.blocklen_pos⟩

/-- A deallocate command of two ranges of one block each, from two bytes of their addresses. -/
def DataReq.dsmPair (lba lba' : UInt8) : DataReq :=
  ⟨1, 4, 0, 0, 32, [[0, 0, 0, 0, 1, 0], [0, 0, lba, 0, 0, 0, 0, 0, 0, 0, 0, 0, 0, 0, 1, 0, 0, 0],
    [lba', 0, 0, 0, 0, 0, 0, 0]], rfl⟩

/-- The same range twice: a retry does no harm. -/
theorem unmap_exactlyListed_sample : ∃ s,
    (unmapSys .dsmSample 0 (.dsmPair 7 7)).run {}
      [.exec true acceptOne, .retry fun _ => 0] = some s ∧
    s.accepted = [⟨1, 7⟩, ⟨1, 7⟩] ∧ ExactlyListed (DataReq.dsmPair 7 7).dsmRanges s := by
  refine ⟨_, rfl, by decide, ?_⟩
  have hlisted := @unmap_exactlyListed .dsmSample 0 (.dsmPair 7 7) (by decide) (by decide)
  exact hlisted.2.mpr (.inl (by decide)) _
    (.of_run [.exec true acceptOne, .retry fun _ => 0] (fun _ _ _ => trivial) .init rfl)

/-- **A retry behind the first range unmaps it again**, and the second range never. -/
theorem unmap_wrong_range : ∃ s,
    (unmapSys .dsmSample 0 (.dsmPair 7 9)).run {}
      [.exec true acceptOne, .retry fun _ => 0] = some s ∧
    (DataReq.dsmPair 7 9).dsmRanges = [⟨1, 7⟩, ⟨1, 9⟩] ∧ s.accepted = [⟨1, 7⟩, ⟨1, 7⟩] ∧
    ¬ ExactlyListed (DataReq.dsmPair 7 9).dsmRanges s :=
  ⟨_, rfl, by decide, by decide, fun h => absurd h.accepted (by decide)⟩

end NdpHeaan
