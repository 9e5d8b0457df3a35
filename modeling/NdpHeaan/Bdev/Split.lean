import NdpHeaan.Machinery.Pieces
import NdpHeaan.Bdev.RangeLock

/-!
# Bdev/Split — I/O that is too large for a bdev

A bdev may limit the blocks of an I/O, the number and the size of its buffers, and the stripe it may
lie in.  An I/O outside these limits is split: children are submitted for its blocks from the first
on, as many as the 32 entries of `child_iov` allow, and when all of them are done the next ones are.
A child is cut to whole blocks, so buffers that were taken for it may have to be given back in part.
A child may find no `bdev_io`, be refused or fail.
-/

open Machinery

namespace NdpHeaan

/-- What the submission of a child returns: 0, `-ENOMEM` or another error. -/
inductive SubmitRc
  | ok
  | nomem
  | error
  deriving DecidableEq, Repr

/-! ## The limits -/

/-- What a bdev says about the I/O it takes; 0 is no limit. -/
structure SplitLimits where
  blocklen : ℕ
  /-- `spdk_bdev_get_md_size`. -/
  mdSize : ℕ := 0
  maxSegmentSize : ℕ := 0
  maxRwSize : ℕ := 0
  maxNumSegments : ℕ := 0
  splitOnWriteUnit : Bool := false
  writeUnitSize : ℕ := 1
  splitOnOptimalIoBoundary : Bool := false
  optimalIoBoundary : ℕ := 0
  maxUnmap : ℕ := 0
  maxUnmapSegments : ℕ := 0
  maxWriteZeroes : ℕ := 0
  maxCopy : ℕ := 0

/-- The parameters of an I/O.  An entry of `iovs` is a run of memory; its length is below 2³². -/
structure RwIo where
  type : BdevIoType
  offset : ℕ
  num : ℕ
  iovs : List Seg := []
  mdBuf : Option ℕ := none
  /-- `copy.src_offset_blocks`. -/
  src : ℕ := 0

/-- `UINT32_MAX`. -/
def uint32Max : ℕ := 2 ^ 32 - 1

/-- `SPDK_BDEV_IO_NUM_CHILD_IOV`. -/
def numChildIov : ℕ := 32

namespace SplitLimits

variable (lim : SplitLimits) (io : RwIo)

/-- The boundary that an I/O may not cross, with a value for none. -/
def ioBoundary (none : ℕ) : ℕ :=
  if io.type = .write ∧ lim.splitOnWriteUnit = true then lim.writeUnitSize
  else if lim.splitOnOptimalIoBoundary then lim.optimalIoBoundary
  else none

/-- The stripe of a block; the test is that of `spdk_u32_is_pow2`. -/
def stripe (boundary block : ℕ) : ℕ :=
  -- "Avoid expensive div operations if possible."
  if boundary ≠ 0 ∧ boundary &&& (boundary - 1) = 0 then block >>> boundary.log2
  else block / boundary

/-- **`bdev_rw_should_split`.** -/
def bdevRwShouldSplit : Bool :=
  let boundary := lim.ioBoundary io 0
  (boundary != 0 &&
      stripe boundary io.offset != stripe boundary ((io.offset + io.num + 2 ^ 64 - 1) % 2 ^ 64)) ||
    (lim.maxNumSegments != 0 && decide (lim.maxNumSegments < io.iovs.length)) ||
    (lim.maxSegmentSize != 0 && io.iovs.any fun v => lim.maxSegmentSize < v.len) ||
    (lim.maxRwSize != 0 && decide (lim.maxRwSize < io.num))

/-- **`bdev_unmap_should_split`**; the number of segments is a 32-bit variable. -/
def bdevUnmapShouldSplit : Bool :=
  if lim.maxUnmap = 0 ∨ lim.maxUnmapSegments = 0 then false
  else lim.maxUnmapSegments < (io.num + lim.maxUnmap - 1) / lim.maxUnmap % 2 ^ 32

/-- **`bdev_write_zeroes_should_split`.** -/
def bdevWriteZeroesShouldSplit : Bool :=
  if lim.maxWriteZeroes = 0 then false else lim.maxWriteZeroes < io.num

/-- **`bdev_copy_should_split`.** -/
def bdevCopyShouldSplit : Bool := lim.maxCopy != 0 && lim.maxCopy < io.num

/-- **`bdev_io_should_split`.** -/
def bdevIoShouldSplit : Bool :=
  match io.type with
  | .read | .write => lim.bdevRwShouldSplit io
  | .unmap => lim.bdevUnmapShouldSplit io
  | .writeZeroes => lim.bdevWriteZeroesShouldSplit io
  | .copy => lim.bdevCopyShouldSplit io
  | _ => false

end SplitLimits

/-- **`_to_next_boundary`**; there is no remainder by 0. -/
def toNextBoundary (offset boundary : ℕ) : Option ℕ :=
  if boundary = 0 then none else some (boundary - offset % boundary)

/-! ## Children -/

/-- A child and the entry of `child_iov` that its own `iovs` begin with. -/
structure ChildIo where
  io : RwIo
  slot : ℕ

/-- The state of an I/O that is split. -/
structure SplitSt where
  /-- `split_current_offset_blocks`. -/
  current : ℕ
  /-- `split_remaining_num_blocks`. -/
  remaining : ℕ
  childIov : ℕ → Seg
  /-- `internal.status` is FAILED, and not SUCCESS. -/
  failed : Bool := false
  /-- The children that are not done; `split_outstanding` is their number. -/
  children : List ChildIo := []
  /-- In the queue for a `bdev_io`. -/
  waiting : Bool := false
  /-- The callbacks that were made. -/
  callbacks : List Bool := []
  begun : Bool := false
  /-- All children that were submitted, and those that are done with their status. -/
  log : List ChildIo := []
  finished : List (ChildIo × Bool) := []

/-- The entries of an array from one on. -/
def slice (arr : ℕ → Seg) (slot cnt : ℕ) : List Seg := (List.range' slot cnt).map arr

namespace SplitSt

variable (lim : SplitLimits) (io : RwIo) (s : SplitSt)

/-- The I/O fails; it is completed if no child is left. -/
def fail : SplitSt :=
  if s.children = [] then { s with failed := true, callbacks := s.callbacks ++ [false] }
  else { s with failed := true }

/-- The child for the next `num` blocks, with `iovcnt` entries of `child_iov`. -/
def child (slot iovcnt num : ℕ) (mdBuf : Option ℕ) : ChildIo where
  io :=
    { type := io.type
      offset := s.current
      num
      iovs := slice s.childIov slot iovcnt
      mdBuf
      src := if io.type = .copy then io.src + (s.current - io.offset) else 0 }
  slot

/-- **`bdev_io_split_submit`**, with what the submission of the child returns. -/
def bdevIoSplitSubmit (c : ChildIo) : SubmitRc → SplitSt
  | .ok =>
    { s with
      current := s.current + c.io.num
      remaining := s.remaining - c.io.num
      children := s.children ++ [c]
      log := s.log ++ [c] }
  -- "No I/O is outstanding. Hence we should wait here."
  | .nomem => if s.children = [] then { s with waiting := true } else s
  | .error => s.fail

end SplitSt

/-! ## Reads and writes -/

/-- What the inner loop of `_bdev_rw_split` leaves. -/
structure Gathered where
  /-- `to_next_boundary_bytes`. -/
  bytes : ℕ
  /-- `parent_iovpos` and `parent_iov_offset`. -/
  cursor : Cursor
  childIov : ℕ → Seg
  iovcnt : ℕ

/-- **The inner loop**: buffers are taken for a child, into so many entries from `slot` on. -/
def gatherIov (iovs : List Seg) (maxSegmentSize : ℕ) : ℕ → ℕ → Cursor → (ℕ → Seg) → ℕ → Gathered
  | 0, bytes, p, arr, _ => ⟨bytes, p, arr, 0⟩
  | left + 1, bytes, p, arr, slot =>
    if bytes = 0 then ⟨bytes, p, arr, 0⟩
    else
      match iovs[p.pos]? with
      | none => ⟨bytes, p, arr, 0⟩
      | some v =>
        let len := min (min ((v.len - p.off) % 2 ^ 32) maxSegmentSize) bytes
        let g := gatherIov iovs maxSegmentSize left (bytes - len) (p.advance v len)
          (Function.update arr slot ⟨v.start + p.off, len⟩) (slot + 1)
        { g with iovcnt := g.iovcnt + 1 }

/-- What is left of a child that was cut to whole blocks. -/
structure Trimmed where
  iovcnt : ℕ
  cursor : Cursor
  childIov : ℕ → Seg
  /-- "If the child IO is less than a block size just return." -/
  gone : Bool := false

/-- **The loop that gives bytes back**, from the entry `i` on downwards. -/
def trimIov (iovs : List Seg) : ℕ → ℕ → ℕ → Cursor → (ℕ → Seg) → Trimmed
  | 0, _, _, p, arr => { iovcnt := 0, cursor := p, childIov := arr }
  | n + 1, bytes, i, p, arr =>
    if bytes = 0 then { iovcnt := n + 1, cursor := p, childIov := arr }
    else
      let len := min bytes (arr i).len
      let arr' := Function.update arr i ⟨(arr i).start, (arr i).len - len⟩
      if (arr i).len - len = 0 then
        if n = 0 then { iovcnt := 0, cursor := p, childIov := arr', gone := true }
        else trimIov iovs n (bytes - len) (i - 1) (p.back iovs len) arr'
      -- nothing is left to give back
      else { iovcnt := n + 1, cursor := p.back iovs len, childIov := arr' }

section Rw

variable (lim : SplitLimits) (io : RwIo)

/-- `max_child_iovcnt`. -/
def SplitLimits.maxChildIovcnt : ℕ :=
  if lim.maxNumSegments = 0 then numChildIov else min lim.maxNumSegments numChildIov

/-- `max_segment_size`, `max_size`. -/
def orUnlimited (n : ℕ) : ℕ := if n = 0 then uint32Max else n

/-- The blocks that the next child may have. -/
def SplitLimits.nextBlocks (s : SplitSt) : Option ℕ :=
  (toNextBoundary s.current (lim.ioBoundary io uint32Max)).map fun n =>
    min (orUnlimited lim.maxRwSize) (min s.remaining n)

/-- The buffers for a child of so many blocks, in the entries from `slot` on. -/
def SplitLimits.gather (blocks slot : ℕ) (p : Cursor) (arr : ℕ → Seg) : Gathered :=
  gatherIov io.iovs (orUnlimited lim.maxSegmentSize) (min (numChildIov - slot) lim.maxChildIovcnt)
    (blocks * lim.blocklen % 2 ^ 32) p arr slot

/-- The child is cut to whole blocks; their number is less by those that it has no buffers for. -/
def SplitLimits.cut (blocks slot : ℕ) (g : Gathered) : Trimmed × ℕ :=
  if g.bytes % lim.blocklen = 0 then
    ({ iovcnt := g.iovcnt, cursor := g.cursor, childIov := g.childIov },
      blocks - g.bytes / lim.blocklen)
  else
    let back := lim.blocklen - g.bytes % lim.blocklen
    (trimIov io.iovs g.iovcnt back (slot + g.iovcnt - 1) g.cursor g.childIov,
      blocks - (g.bytes + back) / lim.blocklen)

/-- **The outer loop of `_bdev_rw_split`.**  The `k`-th child is answered by `rcs k`. -/
def bdevRwSplitLoop (rcs : ℕ → SubmitRc) : ℕ → ℕ → ℕ → Cursor → SplitSt → Option SplitSt
  | 0, _, _, _, s => some s
  | fuel + 1, k, slot, p, s =>
    if s.remaining = 0 ∨ io.iovs.length ≤ p.pos ∨ numChildIov ≤ slot then some s
    else do
      let blocks ← lim.nextBlocks io s
      let mdBuf := io.mdBuf.map (· + (s.current - io.offset) * lim.mdSize)
      let g := lim.gather io blocks slot p s.childIov
      let cut := lim.cut io blocks slot g
      let s := { s with childIov := cut.1.childIov }
      -- "If the first child IO of any split round is less than a block size, an error exit."
      if cut.1.gone then some (if s.children = [] then s.fail else s)
      else
        let s' := s.bdevIoSplitSubmit (s.child io slot cut.1.iovcnt cut.2 mdBuf) (rcs k)
        -- entries that were given back are not used for the next child
        if rcs k = .ok then bdevRwSplitLoop rcs fuel (k + 1) (slot + g.iovcnt) cut.1.cursor s'
        else some s'

/-- **`_bdev_rw_split`.** -/
def bdevRwSplit (rcs : ℕ → SubmitRc) (s : SplitSt) : Option SplitSt :=
  bdevRwSplitLoop lim io rcs (s.remaining + numChildIov) 0 0
    (seek io.iovs ((s.current - io.offset) * lim.blocklen % 2 ^ 32)) s

/-! ## Blocks without buffers -/

/-- The loop of the other split functions: children of at most `max` blocks. -/
def chunkSplit (rcs : ℕ → SubmitRc) (max : ℕ) : ℕ → ℕ → SplitSt → SplitSt
  | 0, _, s => s
  | left + 1, k, s =>
    if s.remaining = 0 then s
    else
      let s' := s.bdevIoSplitSubmit (s.child io 0 0 (min s.remaining max) none) (rcs k)
      if rcs k = .ok then chunkSplit rcs max left (k + 1) s' else s'

/-- `SPDK_BDEV_MAX_CHILDREN_UNMAP_WRITE_ZEROES_REQS`, `SPDK_BDEV_MAX_CHILDREN_COPY_REQS`. -/
def maxChildrenReqs : ℕ := 8

/-- **`bdev_unmap_split`**; the product of the two limits is one of 32-bit numbers. -/
def bdevUnmapSplit (rcs : ℕ → SubmitRc) (s : SplitSt) : SplitSt :=
  chunkSplit io rcs (lim.maxUnmap * lim.maxUnmapSegments % 2 ^ 32) maxChildrenReqs 0 s

/-- **`bdev_write_zeroes_split`.** -/
def bdevWriteZeroesSplit (rcs : ℕ → SubmitRc) (s : SplitSt) : SplitSt :=
  chunkSplit io rcs lim.maxWriteZeroes maxChildrenReqs 0 s

/-- **`bdev_copy_split`.** -/
def bdevCopySplit (rcs : ℕ → SubmitRc) (s : SplitSt) : SplitSt :=
  chunkSplit io rcs lim.maxCopy maxChildrenReqs 0 s

/-! ## Runs -/

/-- The split function of a type. -/
def splitOn (rcs : ℕ → SubmitRc) (s : SplitSt) : Option SplitSt :=
  match io.type with
  | .read | .write => bdevRwSplit lim io rcs s
  | .unmap => some (bdevUnmapSplit lim io rcs s)
  | .writeZeroes => some (bdevWriteZeroesSplit lim io rcs s)
  | .copy => some (bdevCopySplit lim io rcs s)
  | _ => none

/-- A child is done, with a status. -/
def SplitSt.childDone (s : SplitSt) (i : ℕ) (c : ChildIo) (success : Bool) : SplitSt :=
  let s := { s with children := s.children.eraseIdx i, finished := s.finished ++ [(c, success)] }
  if success then s
  -- "If any child I/O failed, stop further splitting process."
  else { s with failed := true, current := s.current + s.remaining, remaining := 0 }

/-- **`bdev_io_split_done`**, of an I/O without an accel sequence and without bounce buffers.  With
either, a success is not the end there: `bdev_io_exec_sequence` or
`_bdev_io_push_bounce_data_buffer` comes before the callback, and may still fail. -/
def bdevIoSplitDone (i : ℕ) (success : Bool) (rcs : ℕ → SubmitRc) (s : SplitSt) :
    Option SplitSt := do
  let c ← s.children[i]?
  let s := s.childDone i c success
  if s.children ≠ [] then some s
  else if s.remaining = 0 then some { s with callbacks := s.callbacks ++ [!s.failed] }
  else splitOn lim io rcs s

/-- What happens. -/
inductive SplitLabel
  /-- `bdev_io_split`. -/
  | begin (rcs : ℕ → SubmitRc)
  /-- A child is done. -/
  | done (i : ℕ) (success : Bool) (rcs : ℕ → SubmitRc)
  /-- The I/O has got to the head of the queue for a `bdev_io`. -/
  | retry (rcs : ℕ → SubmitRc)

/-- **One step.** -/
def splitStep (s : SplitSt) : SplitLabel → Option SplitSt
  | .begin rcs => if s.begun then none else splitOn lim io rcs { s with begun := true }
  | .done i success rcs => bdevIoSplitDone lim io i success rcs s
  | .retry rcs => if s.waiting then splitOn lim io rcs { s with waiting := false } else none

/-- **An I/O that is split**, whatever is in `child_iov` before. -/
def splitSys (arr : ℕ → Seg) : Sys SplitSt SplitLabel where
  init := { current := io.offset, remaining := io.num, childIov := arr }
  step := splitStep lim io

end Rw

end NdpHeaan
