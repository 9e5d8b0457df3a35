import Mathlib.Data.Nat.Digits.Defs
import NdpHeaan.Machinery.Iov
import NdpHeaan.Target.BdevLayer

/-!
# Target/DataIo — requests with data, and the handlers that pass it to the device

A handler hands the iovecs of its request to one bdev data operation, with a range of blocks taken
from the command.  READ, WRITE and COMPARE share one body; the fused COMPARE and WRITE passes the
iovecs of two requests at once.  The near-data commands log what they do to the outside in
`CmdEffect`, over whatever they allocate.
-/

open Machinery

namespace NdpHeaan

/-! ## Requests and data operations -/

/-- What a handler reads of a request with data. -/
structure DataReq where
  cdw10 : UInt32
  cdw11 : UInt32
  cdw12 : UInt32
  cdw13 : UInt32
  /-- `req->length`. -/
  length : UInt32
  /-- What `req->iov[0 .. iovcnt)` holds. -/
  iov : List (List UInt8)
  /-- The transport shares the SGL length out over the entries. -/
  length_eq : iov.flatten.length = length.toNat

/-- One iovec of a block of zeros. -/
theorem length_zeroBlock :
    [List.replicate 512 (0 : UInt8)].flatten.length = (512 : UInt32).toNat := by
  rw [List.flatten_singleton, List.length_replicate]
  rfl

/-- The little-endian word in some bytes; what is missing is zero. -/
def leWord (bs : List UInt8) (offset size : ℕ) : ℕ :=
  Nat.ofDigits 256 (((bs.drop offset).take size).map UInt8.toNat)

/-- The bdev operations that are handed iovecs. -/
inductive DataOpKind
  /-- `spdk_bdev_readv_blocks_ext`. -/
  | readv
  /-- `spdk_bdev_writev_blocks_ext`. -/
  | writev
  /-- `spdk_bdev_comparev_blocks`. -/
  | comparev
  /-- `spdk_bdev_comparev_and_writev_blocks`. -/
  | comparevAndWritev
  deriving DecidableEq, Repr

/-- A call of one of them. -/
structure DataOp where
  kind : DataOpKind
  offsetBlocks : UInt64
  numBlocks : UInt64
  /-- The total length of each list of iovecs it is handed. -/
  iovLens : List ℕ
  deriving DecidableEq, Repr

/-- The blocks of an operation. -/
def DataOp.blocks (op : DataOp) : Seg := ⟨op.offsetBlocks.toNat, op.numBlocks.toNat⟩

/-- The blocks of an operation fit the buffers it is handed. -/
def DataOp.Fits (d : Bdev) (op : DataOp) : Prop :=
  ∀ n ∈ op.iovLens, op.numBlocks.toNat * d.blocklen.toNat ≤ n

/-- The bdev layer answers an operation with this code, with or without an I/O for it.  Of a
descriptor opened for writing, it asks the same of a read, a write and a compare. -/
def DataOp.Answers (d : Bdev) (op : DataOp) (rc : ℤ) : Prop :=
  ∃ ioOk, rc = match op.kind with
    | .comparevAndWritev => spdkBdevComparevAndWritevBlocks d op.offsetBlocks op.numBlocks ioOk
    | _ => spdkBdevReadvBlocksExt d op.offsetBlocks op.numBlocks ioOk

/-- An operation may be accepted exactly when its blocks are on the device, and are few enough to be
compared and written in one go. -/
theorem DataOp.answers_zero_iff {d : Bdev} {op : DataOp} : op.Answers d 0 ↔
    op.offsetBlocks.toNat + op.numBlocks.toNat ≤ d.blockcnt.toNat ∧
      (op.kind = .comparevAndWritev → op.numBlocks.toNat ≤ d.acwu.toNat) := by
  unfold Answers
  split
  · rename_i hkind
    simp only [eq_comm (a := (0 : ℤ)), comparevAndWritev_eq_zero_iff, hkind, forall_const,
      exists_and_left, exists_eq, and_true]
  · rename_i hkind
    simp only [eq_comm (a := (0 : ℤ)), spdkBdevReadvBlocksExt, bdevSubmitBlocks_eq_zero_iff,
      exists_and_left, exists_eq, and_true]
    exact ⟨fun h => ⟨h, fun hk => absurd hk hkind⟩, And.left⟩

/-- A read of the request's blocks into its own iovecs. -/
def DataReq.readvOp (r : DataReq) (offsetBlocks numBlocks : UInt64) : DataOp :=
  ⟨.readv, offsetBlocks, numBlocks, [r.iov.flatten.length]⟩

/-- What the device holds in a range of blocks. -/
def Bdev.readBlocks (d : Bdev) (disk : ℕ → UInt8) (offsetBlocks numBlocks : UInt64) : List UInt8 :=
  Seg.read disk ⟨offsetBlocks.toNat * d.blocklen.toNat, numBlocks.toNat * d.blocklen.toNat⟩

/-- A handler's return value. -/
inductive ExecStatus
  | complete
  | asynchronous
  deriving DecidableEq, Repr

/-! ## READ, WRITE and COMPARE -/

/-- What a handler has done by the time it returns. -/
structure RwEnd where
  /-- The data operation it called, with its return code. -/
  calls : List (DataOp × ℤ) := []
  /-- `rsp->status.sc`, where it writes one. -/
  sc : Option Sc := none
  /-- The requests it leaves to the io-wait queue. -/
  queued : ℕ := 0
  status : ExecStatus
  deriving DecidableEq, Repr

/-- A return with `…_EXEC_STATUS_COMPLETE`. -/
def RwEnd.reject (sc : Sc) : RwEnd := { sc := some sc, status := .complete }

/-- The tail of these handlers, where `-ENOMEM` queues so many requests. -/
def submitOp (op : DataOp) (waiting : ℕ) (rc : ℤ) : RwEnd :=
  if rc ≠ 0 then
    if rc = -ENOMEM then
      { calls := [(op, rc)], queued := waiting, status := .asynchronous }
    else
      { calls := [(op, rc)], sc := some .internalDeviceError, status := .complete }
  else
    { calls := [(op, rc)], status := .asynchronous }

@[simp] theorem calls_submitOp (op : DataOp) (waiting : ℕ) (rc : ℤ) :
    (submitOp op waiting rc).calls = [(op, rc)] := by
  unfold submitOp
  split
  · split <;> rfl
  · rfl

section Rw

variable (d : Bdev) (r : DataReq)

/-- `nvmf_bdev_ctrlr_get_rw_params`: `start_lba`. -/
def DataReq.rwStartLba : UInt64 := r.cdw10.toUInt64 ||| (r.cdw11.toUInt64 <<< 32)

/-- `nvmf_bdev_ctrlr_get_rw_params`: `num_blocks`, which is 0's based. -/
def DataReq.rwNumBlocks : UInt64 := (r.cdw12 &&& 0xFFFF).toUInt64 + 1

/-- The body the three share. -/
def rwCmd (kind : DataOpKind) (rc : ℤ) : RwEnd :=
  if !nvmfBdevCtrlrLbaInRange d.blockcnt r.rwStartLba r.rwNumBlocks then
    .reject .lbaOutOfRange else
  if r.rwNumBlocks * d.blocklen.toUInt64 > r.length.toUInt64 then
    .reject .dataSglLengthInvalid else
  submitOp ⟨kind, r.rwStartLba, r.rwNumBlocks, [r.iov.flatten.length]⟩ 1 rc

/-- **`nvmf_bdev_ctrlr_read_cmd`.** -/
def nvmfBdevCtrlrReadCmd (rc : ℤ) : RwEnd := rwCmd d r .readv rc

/-- **`nvmf_bdev_ctrlr_write_cmd`.** -/
def nvmfBdevCtrlrWriteCmd (rc : ℤ) : RwEnd := rwCmd d r .writev rc

/-- **`nvmf_bdev_ctrlr_compare_cmd`.** -/
def nvmfBdevCtrlrCompareCmd (rc : ℤ) : RwEnd := rwCmd d r .comparev rc

/-- **`nvmf_bdev_ctrlr_compare_and_write_cmd`**: only the length of the second request is held
against the blocks. -/
def nvmfBdevCtrlrCompareAndWriteCmd (cmpReq writeReq : DataReq) (rc : ℤ) : RwEnd :=
  if writeReq.rwStartLba ≠ cmpReq.rwStartLba ∨ writeReq.rwNumBlocks ≠ cmpReq.rwNumBlocks then
    .reject .invalidField else
  if !nvmfBdevCtrlrLbaInRange d.blockcnt writeReq.rwStartLba writeReq.rwNumBlocks then
    .reject .lbaOutOfRange else
  if writeReq.rwNumBlocks * d.blocklen.toUInt64 > writeReq.length.toUInt64 then
    .reject .dataSglLengthInvalid else
  submitOp ⟨.comparevAndWritev, writeReq.rwStartLba, writeReq.rwNumBlocks,
    [cmpReq.iov.flatten.length, writeReq.iov.flatten.length]⟩ 2 rc

variable {d r}

/-- A 16-bit number of blocks, counted from one. -/
theorem DataReq.toNat_rwNumBlocks_le : r.rwNumBlocks.toNat ≤ 2 ^ 16 := by
  have hand : (r.cdw12 &&& 0xFFFF).toNat ≤ 0xFFFF := by
    rw [UInt32.toNat_and]
    exact Nat.and_le_right
  rw [rwNumBlocks, UInt64.toNat_add, UInt32.toNat_toUInt64]
  change ((r.cdw12 &&& 0xFFFF).toNat + 1) % 2 ^ 64 ≤ 2 ^ 16
  omega

/-- **The length check is the check on natural numbers**: sixteen and thirty-two bits do not wrap
in a 64-bit product. -/
theorem length_check_iff : r.rwNumBlocks * d.blocklen.toUInt64 > r.length.toUInt64 ↔
    r.iov.flatten.length < r.rwNumBlocks.toNat * d.blocklen.toNat := by
  have hblocks := r.toNat_rwNumBlocks_le
  have hlen := d.blocklen.toNat_lt
  have hlt : r.rwNumBlocks.toNat * d.blocklen.toNat < 2 ^ 64 := by
    calc r.rwNumBlocks.toNat * d.blocklen.toNat
        ≤ 2 ^ 16 * d.blocklen.toNat := Nat.mul_le_mul_right _ hblocks
      _ < 2 ^ 64 := by omega
  rw [gt_iff_lt, UInt64.lt_iff_toNat_lt, UInt64.toNat_mul, UInt32.toNat_toUInt64,
    UInt32.toNat_toUInt64, Nat.mod_eq_of_lt hlt, r.length_eq]

/-- **Inversion of the shared body**: what is called is in range, and fits. -/
theorem mem_calls_rwCmd {kind : DataOpKind} {rc rc' : ℤ} {op : DataOp}
    (h : (op, rc') ∈ (rwCmd d r kind rc).calls) : op.Fits d := by
  unfold rwCmd at h
  split at h
  · cases h
  split at h
  · cases h
  rename_i hfits
  rw [length_check_iff, Nat.not_lt] at hfits
  rw [calls_submitOp, List.mem_singleton] at h
  cases h
  intro n hn
  rw [List.mem_singleton.mp hn]
  exact hfits

/-- **Inversion of the fused command**: the checks its call has passed. -/
theorem mem_calls_compareAndWrite {cmpReq writeReq : DataReq} {op : DataOp} {rc rc' : ℤ} :
    (op, rc') ∈ (nvmfBdevCtrlrCompareAndWriteCmd d cmpReq writeReq rc).calls ↔
      (writeReq.rwStartLba = cmpReq.rwStartLba ∧ writeReq.rwNumBlocks = cmpReq.rwNumBlocks) ∧
      nvmfBdevCtrlrLbaInRange d.blockcnt writeReq.rwStartLba writeReq.rwNumBlocks = true ∧
      writeReq.rwNumBlocks.toNat * d.blocklen.toNat ≤ writeReq.iov.flatten.length ∧
      op = ⟨.comparevAndWritev, writeReq.rwStartLba, writeReq.rwNumBlocks,
        [cmpReq.iov.flatten.length, writeReq.iov.flatten.length]⟩ ∧ rc' = rc := by
  unfold nvmfBdevCtrlrCompareAndWriteCmd
  split
  · rename_i h
    refine ⟨nofun, fun h' => ?_⟩
    exact absurd h'.1 (by rwa [← not_and_or] at h)
  rename_i hsame
  rw [not_or, not_not, not_not] at hsame
  split
  · rename_i h
    exact ⟨nofun, fun h' => absurd h'.2.1 (by simpa using h)⟩
  rename_i hrange
  split
  · rename_i h
    exact ⟨nofun, fun h' => absurd (length_check_iff.mp h) (Nat.not_lt.mpr h'.2.2.1)⟩
  rename_i hfits
  rw [length_check_iff, Nat.not_lt] at hfits
  rw [calls_submitOp, List.mem_singleton, Prod.mk.injEq]
  exact ⟨fun h => ⟨hsame, by simpa using hrange, hfits, h⟩, fun h => h.2.2.2⟩

end Rw

/-! ## Logs of the near-data commands -/

/-- What a near-data command does to the outside, where it allocates objects `O`. -/
inductive CmdEffect (O : Type)
  | alloc (o : O)
  /-- An allocation returned `NULL`. -/
  | allocFailed (o : O)
  | free (o : O)
  /-- `response->status.sc = …`. -/
  | rspSc (sc : Sc)
  /-- `spdk_nvmf_request_complete`, or a return with `…_EXEC_STATUS_COMPLETE`. -/
  | complete
  /-- A data operation, with its return code. -/
  | submit (op : DataOp) (rc : ℤ)
  /-- A callback is entered. -/
  | callback (success : Bool)
  /-- `spdk_bdev_free_io` of the I/O the callback was entered with. -/
  | freeIo
  deriving DecidableEq, Repr

section CmdLogs

variable {O : Type}

/-- The codes a log completes the request with, where the response code was `sc` before. -/
def CmdEffect.statuses (sc : Sc) : List (CmdEffect O) → List Sc
  | [] => []
  | e :: t => match e with
    | .rspSc sc' => statuses sc' t
    | .complete => sc :: statuses sc t
    | _ => statuses sc t

/-- Something went wrong: an allocation, a submission or an I/O. -/
def CmdEffect.Failed (t : List (CmdEffect O)) : Prop :=
  (∃ o, .allocFailed o ∈ t) ∨ (∃ op rc, .submit op rc ∈ t ∧ rc ≠ 0) ∨ .callback false ∈ t

end CmdLogs

end NdpHeaan
