import Mathlib.Data.UInt
import NdpHeaan.Machinery.Segments

/-!
# Target/Device — block devices, byte extents and the status of a command

`spdk/lib/nvmf/ctrlr_bdev.c` sees a namespace through the two numbers `spdk_bdev_get_num_blocks` and
`spdk_bdev_get_block_size`, and checks a range of blocks with `nvmf_bdev_ctrlr_lba_in_range`.  The
near-data commands pass *byte* extents, so the check is made on quotients by the block size.
-/

open Machinery

namespace NdpHeaan

/-- A block device as the NVMe-oF layer sees it. -/
structure Bdev where
  /-- `spdk_bdev_get_num_blocks`. -/
  blockcnt : UInt64
  /-- `spdk_bdev_get_block_size`. -/
  blocklen : UInt32
  /-- `bdev->acwu`: the most blocks that are compared and written in one go. -/
  acwu : UInt16
  /-- A device has a block size. -/
  blocklen_pos : 0 < blocklen.toNat

/-- A device of 64 blocks of 512 bytes; one is compared and written, as `bdev_register` has it where
the module does not say. -/
def Bdev.sample : Bdev := ⟨64, 512, 1, by decide⟩

/-- Two consecutive words of an extent list: a byte offset on the device and a byte count. -/
structure Extent where
  /-- `input_0_ext[2 * iter]` and its siblings. -/
  offset : UInt64
  /-- `input_0_ext[2 * iter + 1]` and its siblings. -/
  length : UInt64
  deriving DecidableEq, Repr

/-- The device bytes of an extent. -/
def Extent.seg (e : Extent) : Seg := ⟨e.offset.toNat, e.length.toNat⟩

@[simp] theorem Extent.seg_len (e : Extent) : e.seg.len = e.length.toNat := rfl

/-- `nvmf_bdev_ctrlr_lba_in_range`: 64-bit sums, so the second test catches the wrap-around. -/
def nvmfBdevCtrlrLbaInRange (bdevNumBlocks ioStartLba ioNumBlocks : UInt64) : Bool :=
  if ioStartLba + ioNumBlocks > bdevNumBlocks ∨ ioStartLba + ioNumBlocks < ioStartLba then
    false
  else
    true

/-- **The range check is the check on natural numbers** — the wrapped sum never gets through. -/
theorem lbaInRange_iff (n a b : UInt64) :
    nvmfBdevCtrlrLbaInRange n a b = true ↔ a.toNat + b.toNat ≤ n.toNat := by
  have hn := n.toNat_lt
  have ha := a.toNat_lt
  have hb := b.toNat_lt
  simp only [nvmfBdevCtrlrLbaInRange, gt_iff_lt, UInt64.lt_iff_toNat_lt, UInt64.toNat_add,
    ite_eq_right_iff, Bool.false_eq_true, imp_false, not_or, not_lt]
  omega

/-- The check the `0xE0` parser makes of an extent: byte offset and length, each divided by the
block size. -/
def Bdev.extentInRange (d : Bdev) (e : Extent) : Bool :=
  nvmfBdevCtrlrLbaInRange d.blockcnt (e.offset / d.blocklen.toUInt64)
    (e.length / d.blocklen.toUInt64)

theorem Bdev.extentInRange_iff (d : Bdev) (e : Extent) :
    d.extentInRange e = true ↔
      e.offset.toNat / d.blocklen.toNat + e.length.toNat / d.blocklen.toNat ≤ d.blockcnt.toNat := by
  rw [extentInRange, lbaInRange_iff, UInt64.toNat_div, UInt64.toNat_div, UInt32.toNat_toUInt64]

/-- An extent that lies on the device passes the check. -/
theorem Bdev.extentInRange_of_le (d : Bdev) (e : Extent)
    (h : e.offset.toNat + e.length.toNat ≤ d.blockcnt.toNat * d.blocklen.toNat) :
    d.extentInRange e = true := by
  rw [d.extentInRange_iff]
  calc e.offset.toNat / d.blocklen.toNat + e.length.toNat / d.blocklen.toNat
      ≤ (e.offset.toNat + e.length.toNat) / d.blocklen.toNat := Nat.div_add_div_le_add_div
    _ ≤ d.blockcnt.toNat * d.blocklen.toNat / d.blocklen.toNat := Nat.div_le_div_right h
    _ = d.blockcnt.toNat := Nat.mul_div_cancel _ d.blocklen_pos

/-- The 64-bit sum of the lengths is the number of bytes, up to the wrap. -/
theorem sum_length_eq : ∀ (es : List Extent),
    (es.map Extent.length).sum = UInt64.ofNat (total (es.map Extent.seg))
  | [] => rfl
  | e :: es => by
      rw [List.map_cons, List.sum_cons, List.map_cons, total_cons, Extent.seg_len,
        sum_length_eq es, UInt64.ofNat_add, UInt64.ofNat_toNat]

theorem toNat_ofNat_total {l : List Seg} (h : total l < 2 ^ 64) :
    (UInt64.ofNat (total l)).toNat = total l := UInt64.toNat_ofNat_of_lt' h

/-! ## Completion status -/

/-- The status code types the modelled handlers write. -/
inductive Sct
  /-- `SPDK_NVME_SCT_GENERIC`. -/
  | generic
  /-- `SPDK_NVME_SCT_PATH`. -/
  | path
  deriving DecidableEq, Repr

/-- The status codes the modelled handlers write. -/
inductive Sc
  | success
  | invalidOpcode
  | invalidField
  | internalDeviceError
  | commandSequenceError
  | invalidNamespaceOrFormat
  | dataSglLengthInvalid
  | abortedMissingFused
  | lbaOutOfRange
  | reservationConflict
  | asymmetricAccessInaccessible
  | asymmetricAccessPersistentLoss
  | asymmetricAccessTransition
  | internalPathError
  deriving DecidableEq, Repr

end NdpHeaan
