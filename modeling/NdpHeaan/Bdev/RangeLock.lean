import NdpHeaan.Machinery.Run
import NdpHeaan.Machinery.Segments
import NdpHeaan.Machinery.Sweep

/-!
# Bdev/RangeLock — block ranges locked across the channels of a bdev

A bdev without an atomic compare-and-write locks the range of blocks first.  The lock is taken on
one channel after the other: each thread that has a channel gets a message, adds a copy of the range
to its own list and waits until no I/O in its hands is in the way; from then on it holds back what
would be.  When the last thread is done the lock is granted, and only I/O of the locking channel
with the lock's own context passes.  Unlocking goes through the channels again, and what was held
back is submitted anew.

A lock that overlaps a locked range waits in a second list.  Locks on one bdev are taken and given
back concurrently, channels come and go meanwhile, and every message may be late.
-/

open Machinery

namespace NdpHeaan

/-! ## Ranges and I/O -/

/-- `enum spdk_bdev_io_type`. -/
inductive BdevIoType
  | read
  | write
  | unmap
  | customEcho
  | flush
  | reset
  | nvmeAdmin
  | nvmeIo
  | nvmeIoMd
  | writeZeroes
  | zcopy
  | getZoneInfo
  | zoneManagement
  | zoneAppend
  | compare
  | compareAndWrite
  | abort
  | seekHole
  | seekData
  | copy
  | nvmeIovMd
  deriving DecidableEq, Repr

/-- A `struct spdk_bdev_io`: the blocks it is for (`offset_blocks`, `num_blocks`), its `caller_ctx`
and the contents of the blocks it writes. -/
structure BdevIo (β : Type) where
  type : BdevIoType
  seg : Seg
  ctx : ℕ
  data : List β := []

/-- A `struct lba_range` in the list of a channel.  A channel is named by its thread. -/
structure LbaRange where
  seg : Seg
  quiesce : Bool := false
  /-- `locked_ctx`. -/
  ctx : ℕ
  /-- `owner_ch`, which is set when the lock is granted. -/
  owner : Option ℕ := none
  deriving DecidableEq, Repr

/-- **`bdev_lba_range_overlapped`**; the ranges lie on the bdev, so the sums do not wrap. -/
def bdevLbaRangeOverlapped (r s : Seg) : Bool :=
  if r.len = 0 ∨ s.len = 0 then false
  else if r.start + r.len ≤ s.start then false
  else if s.start + s.len ≤ r.start then false
  else true

section Ranges

variable {β : Type} (t : ℕ) (io : BdevIo β) (r : LbaRange)

/-- The I/O overlaps the range and is not one of the lock's own. -/
def LbaRange.blocks : Bool :=
  bdevLbaRangeOverlapped r.seg io.seg && !(r.owner == some t && r.ctx == io.ctx)

/-- **`bdev_io_range_is_locked`**, for an I/O on the channel of the thread `t`. -/
def bdevIoRangeIsLocked : Bool :=
  match io.type with
  -- "just assume worst-case and that it overlaps a locked range"
  | .nvmeIo | .nvmeIoMd => true
  | .read => r.quiesce && r.blocks t io
  | .write | .unmap | .writeZeroes | .zcopy | .copy => r.blocks t io
  | _ => false

end Ranges

/-- What a lock keeps of a `struct spdk_bdev_channel`: its `locked_ranges`, `io_submitted` and
`io_locked`. -/
structure BdevChannel (β : Type) where
  lockedRanges : List LbaRange := []
  submitted : List (BdevIo β) := []
  held : List (BdevIo β) := []

namespace BdevChannel

variable {β : Type} (t : ℕ) (ch : BdevChannel β)

/-- **`bdev_io_submit`**, up to the submission to the device. -/
def bdevIoSubmit (io : BdevIo β) : BdevChannel β :=
  if ch.lockedRanges.any (bdevIoRangeIsLocked t io) then { ch with held := ch.held ++ [io] }
  else { ch with submitted := ch.submitted ++ [io] }

/-- The copy of a range is removed and the I/O that was held back is submitted again. -/
def unlockRange (seg : Seg) (c : ℕ) : BdevChannel β :=
  ch.held.foldl (bdevIoSubmit t)
    { ch with
      lockedRanges := ch.lockedRanges.eraseP fun r => r.seg == seg && r.ctx == c
      held := [] }

/-- The lock is granted to this channel: the `owner_ch` of its copy is set. -/
def own (c : ℕ) : BdevChannel β :=
  { ch with lockedRanges := ch.lockedRanges.map fun r =>
      if r.ctx = c then { r with owner := some t } else r }

end BdevChannel

/-! ## Locks -/

/-- How far a lock is.  A position is that of a `spdk_for_each_channel`: the thread whose message is
on its way, or `none` when the completion is. -/
inductive LockPhase
  /-- In `pending_locked_ranges`. -/
  | pending
  /-- In `locked_ranges`; the message that starts the locking is on its way. -/
  | started
  | locking (pos : Option ℕ)
  /-- The thread has its copy and waits for I/O in its hands. -/
  | checking (cur : ℕ)
  | granted
  | unlocking (pos : Option ℕ)
  /-- A copy could not be allocated; the completion is on its way. -/
  | failed
  /-- The copies are removed again. -/
  | failing (pos : Option ℕ)
  deriving DecidableEq, Repr

/-- A `struct locked_lba_range_ctx`. -/
structure LockCtx where
  seg : Seg
  /-- `range.owner_ch`, which is `NULL` for `spdk_bdev_quiesce` and for it alone. -/
  owner : Option ℕ
  /-- `owner_range` is not `NULL`. -/
  ownerRange : Bool := false
  phase : LockPhase
  deriving DecidableEq, Repr

/-- The copy that `bdev_lock_lba_range_get_channel` makes of the range of `c`. -/
def LockCtx.copy (x : LockCtx) (c : ℕ) : LbaRange :=
  { seg := x.seg, quiesce := x.owner.isNone, ctx := c }

/-- A bdev with its channels.  A lock is named by its `locked_ctx`. -/
structure LockState (β : Type) where
  chan : ℕ → Option (BdevChannel β)
  ctx : ℕ → Option LockCtx
  /-- `internal.locked_ranges`. -/
  locked : List ℕ
  /-- `internal.pending_locked_ranges`. -/
  pending : List ℕ

namespace LockState

variable {β : Type} (n : ℕ) (s : LockState β)

/-- The next thread with a channel; there are `n` threads. -/
def next (k : ℕ) : Option ℕ := nextFrom (fun t => (s.chan t).isSome) n k

def setCtx (c : ℕ) (x : LockCtx) : LockState β :=
  { s with ctx := Function.update s.ctx c (some x) }

def setChan (t : ℕ) (ch : BdevChannel β) : LockState β :=
  { s with chan := Function.update s.chan t (some ch) }

@[simp] theorem setCtx_setCtx (c : ℕ) (x y : LockCtx) :
    (s.setCtx c x).setCtx c y = s.setCtx c y := by
  simp [setCtx]

@[simp] theorem setChan_setChan (t : ℕ) (ch ch' : BdevChannel β) :
    (s.setChan t ch).setChan t ch' = s.setChan t ch' := by
  simp [setChan]

variable {s} in
theorem setCtx_self {c : ℕ} {x : LockCtx} (h : s.ctx c = some x) : s.setCtx c x = s := by
  simp [setCtx, ← h]

variable {s} in
theorem setChan_self {t : ℕ} {ch : BdevChannel β} (h : s.chan t = some ch) :
    s.setChan t ch = s := by
  simp [setChan, ← h]

/-- A lock overlaps a range. -/
def Overlaps (seg : Seg) (d : ℕ) : Prop :=
  ∃ y ∈ s.ctx d, bdevLbaRangeOverlapped seg y.seg = true

instance (seg : Seg) (d : ℕ) : Decidable (s.Overlaps seg d) :=
  match h : s.ctx d with
  | none => isFalse (by rintro ⟨y, hy, -⟩; simp [h] at hy)
  | some y => decidable_of_iff (bdevLbaRangeOverlapped seg y.seg = true) (by simp [Overlaps, h])

/-- **`bdev_lba_range_overlaps_tailq`**, of `locked_ranges`. -/
def overlapsTailq (seg : Seg) : Bool := s.locked.any fun d => s.Overlaps seg d

/-- **`_bdev_lock_lba_range`**, with `bdev_lock_lba_range_ctx` for a range that is free. -/
def bdevLockLbaRange (c : ℕ) (seg : Seg) (owner : Option ℕ) : LockState β :=
  if s.overlapsTailq seg then
    { s.setCtx c { seg, owner, phase := .pending } with pending := s.pending ++ [c] }
  else
    { s.setCtx c { seg, owner, phase := .locking (s.next n 0) } with locked := s.locked ++ [c] }

/-- **`bdev_lock_lba_range_check_io`**, on the channel `ch` of the thread `t`. -/
def bdevLockLbaRangeCheckIo (c : ℕ) (x : LockCtx) (t : ℕ) (ch : BdevChannel β) : LockState β :=
  if ch.submitted.any fun io => bdevIoRangeIsLocked t io (x.copy c) then
    s.setCtx c { x with phase := .checking t }
  else s.setCtx c { x with phase := .locking (s.next n (t + 1)) }

/-- **`bdev_lock_lba_range_get_channel`**; `ok` is whether the copy is allocated. -/
def bdevLockLbaRangeGetChannel (c : ℕ) (x : LockCtx) (t : ℕ) (ch : BdevChannel β) (ok : Bool) :
    LockState β :=
  -- "This range already exists on this channel, so don't add it again."
  if ch.lockedRanges.any fun r => r.seg == x.seg && r.ctx == c then
    s.setCtx c { x with phase := .locking (s.next n (t + 1)) }
  else if ok = false then s.setCtx c { x with phase := .failed }
  else
    let ch := { ch with lockedRanges := ch.lockedRanges ++ [x.copy c] }
    let x := { x with ownerRange := x.ownerRange || x.owner == some t }
    (s.setChan t ch).bdevLockLbaRangeCheckIo n c x t ch

/-- **`bdev_lock_lba_range_cb`**, without an error. -/
def bdevLockLbaRangeCb (c : ℕ) (x : LockCtx) : LockState β :=
  let s := s.setCtx c { x with phase := .granted }
  if x.ownerRange then
    { s with chan := fun t => if x.owner = some t then (s.chan t).map (·.own t c) else s.chan t }
  else s

/-- **`_bdev_unlock_lba_range`**: the first range that matches is unlocked. -/
def bdevUnlockRange (seg : Seg) (c : ℕ) : LockState β :=
  match s.locked.find? fun d => (s.ctx d).any fun y =>
      y.seg == seg && (y.owner.isNone || d == c) with
  | none => s
  | some d =>
    match s.ctx d with
    | none => s
    | some y => { s.setCtx d { y with phase := .unlocking (s.next n 0) } with
        locked := s.locked.erase d }

/-- **`bdev_unlock_lba_range`** for a lock of a channel, which has to have its copy with its
`owner_ch`, and `_spdk_bdev_quiesce` for one that has none. -/
def bdevUnlockLbaRange (c : ℕ) (x : LockCtx) : LockState β :=
  match x.owner with
  | none => s.bdevUnlockRange n x.seg c
  | some t =>
    if (s.chan t).any fun ch => ch.lockedRanges.any fun r =>
        r.seg == x.seg && (r.owner == some t && r.ctx == c) then
      s.bdevUnlockRange n x.seg c
    else s

/-- A step of the walk through `pending_locked_ranges` in `bdev_unlock_lba_range_cb`. -/
def startPending (seg : Seg) (p : ℕ) : LockState β :=
  match s.ctx p with
  | none => s
  | some y =>
    if bdevLbaRangeOverlapped y.seg seg && !s.overlapsTailq y.seg then
      { s.setCtx p { y with phase := .started } with
        pending := s.pending.erase p
        locked := s.locked ++ [p] }
    else s

/-- **`bdev_unlock_lba_range_cb`**: locks that waited for this one are started, and its context is
freed. -/
def bdevUnlockLbaRangeCb (c : ℕ) (x : LockCtx) : LockState β :=
  let s := s.pending.foldl (fun s p => s.startPending x.seg p) s
  { s with ctx := Function.update s.ctx c none }

/-- The copies of the locked ranges in a new channel. -/
def inherited : List LbaRange := s.locked.filterMap fun d => (s.ctx d).map fun y =>
  { seg := y.seg, ctx := d }

end LockState

/-! ## Runs -/

/-- What happens to the bdev. -/
inductive LockLabel (β : Type)
  /-- `bdev_lock_lba_range` or `spdk_bdev_quiesce_range` with the context `c`. -/
  | lock (c : ℕ) (seg : Seg) (owner : Option ℕ)
  /-- `bdev_lock_lba_range_ctx_msg`. -/
  | start (c : ℕ)
  /-- The message of a lock gets to a thread. -/
  | visit (c : ℕ) (ok : Bool)
  /-- The poller of a thread that waits for I/O. -/
  | poll (c : ℕ)
  /-- The completion of a `spdk_for_each_channel` gets to its thread. -/
  | complete (c : ℕ)
  /-- The holder of a lock gives it back. -/
  | unlock (c : ℕ)
  /-- A thread submits an I/O. -/
  | submit (t : ℕ) (io : BdevIo β)
  /-- An I/O is completed, which nothing keeps it from: it is one that was not split.  A split one
  is in `io_submitted` until its last child is done, and a lock that waits for it holds back the
  children that come. -/
  | finish (t k : ℕ)
  /-- `bdev_channel_create`. -/
  | create (t : ℕ)
  /-- `bdev_channel_destroy`. -/
  | destroy (t : ℕ)

section Steps

variable {β : Type} (n : ℕ) (s : LockState β)

/-- The message of a `spdk_for_each_channel` gets to the thread `t`: a thread without a channel is
passed over. -/
def lockVisit (c : ℕ) (x : LockCtx) (ok : Bool) : Option (LockState β) :=
  match x.phase with
  | .locking (some t) =>
    match s.chan t with
    | none => some (s.setCtx c { x with phase := .locking (s.next n (t + 1)) })
    | some ch => some (s.bdevLockLbaRangeGetChannel n c x t ch ok)
  | .unlocking (some t) =>
    let s' := s.setCtx c { x with phase := .unlocking (s.next n (t + 1)) }
    some ((s.chan t).elim s' fun ch => s'.setChan t (ch.unlockRange t x.seg c))
  | .failing (some t) =>
    let s' := s.setCtx c { x with phase := .failing (s.next n (t + 1)) }
    some ((s.chan t).elim s' fun ch => s'.setChan t (ch.unlockRange t x.seg c))
  | _ => none

/-- The completion of a `spdk_for_each_channel`.  `bdev_lock_error_cleanup_cb` frees the context and
leaves it in `locked_ranges`. -/
def lockComplete (c : ℕ) (x : LockCtx) : Option (LockState β) :=
  match x.phase with
  | .locking none => some (s.bdevLockLbaRangeCb c x)
  | .unlocking none => some (s.bdevUnlockLbaRangeCb c x)
  | .failed => some (s.setCtx c { x with phase := .failing (s.next n 0) })
  | .failing none => some { s with ctx := Function.update s.ctx c none }
  | _ => none

/-- **One step.**  A context is that of one lock at a time. -/
def lockStep : LockLabel β → Option (LockState β)
  | .lock c seg owner =>
    if s.ctx c = none ∧ ∀ t ∈ owner, (s.chan t).isSome then some (s.bdevLockLbaRange n c seg owner)
    else none
  | .start c => do
    let x ← s.ctx c
    if x.phase = .started then some (s.setCtx c { x with phase := .locking (s.next n 0) }) else none
  | .visit c ok => do
    let x ← s.ctx c
    lockVisit n s c x ok
  | .poll c => do
    let x ← s.ctx c
    match x.phase with
    | .checking t => (s.chan t).map fun ch => s.bdevLockLbaRangeCheckIo n c x t ch
    | _ => none
  | .complete c => do
    let x ← s.ctx c
    lockComplete n s c x
  | .unlock c => do
    let x ← s.ctx c
    if x.phase = .granted then some (s.bdevUnlockLbaRange n c x) else none
  | .submit t io => do
    let ch ← s.chan t
    some (s.setChan t (ch.bdevIoSubmit t io))
  | .finish t k => do
    let ch ← s.chan t
    if k < ch.submitted.length then
      some (s.setChan t { ch with submitted := ch.submitted.eraseIdx k })
    else none
  | .create t =>
    if t < n ∧ s.chan t = none then some (s.setChan t { lockedRanges := s.inherited }) else none
  | .destroy t => do
    let ch ← s.chan t
    if ch.submitted = [] ∧ ch.held = [] then
      some { s with chan := Function.update s.chan t none }
    else none

/-- What the callers of the locks keep to: a range is not empty, and the channel of a lock is not
destroyed while the lock is there, nor is one whose thread waits for I/O.  Copies are allocated. -/
def LockSafe : LockLabel β → Prop
  | .lock _ seg _ => 0 < seg.len
  | .visit _ ok => ok = true
  | .destroy t => ∀ c, ∀ x ∈ s.ctx c, x.owner ≠ some t ∧ x.phase ≠ .checking t
  | _ => True

end Steps

/-- **A bdev with `n` threads**, none of which has a channel yet. -/
def lockSys (β : Type) (n : ℕ) : Sys (LockState β) (LockLabel β) where
  init := ⟨fun _ => none, fun _ => none, [], []⟩
  step := lockStep n

end NdpHeaan
