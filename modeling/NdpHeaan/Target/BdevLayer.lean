import NdpHeaan.Target.Device

/-!
# Target/BdevLayer — the checks of the bdev layer

A handler's submission passes the bdev layer's own checks (`spdk/lib/bdev/bdev.c`) before an I/O
exists.  Byte ranges are first converted to blocks — by a shift where the block size is a power of
two, by a division otherwise, with the remainders ORed together as the verdict — and block ranges
must lie on the device.  Nothing looks at the length of the buffers.
-/

namespace NdpHeaan

/-- The return codes of a submission. -/
def EINVAL : ℤ := 22

def ENOMEM : ℤ := 12

def EBADF : ℤ := 9

/-- `spdk_u32_is_pow2`. -/
def spdkU32IsPow2 (x : UInt32) : Bool :=
  if x = 0 then false else x &&& (x - 1) == 0

/-- What `bdev_bytes_to_blocks` returns and stores through its pointers. -/
structure BytesToBlocks where
  /-- Zero for a range of whole blocks. -/
  rest : UInt64
  offsetBlocks : UInt64
  numBlocks : UInt64

/-- **`bdev_bytes_to_blocks`**, with `spdk_u32log2` as the shift count of a power of two. -/
def bdevBytesToBlocks (d : Bdev) (offsetBytes numBytes : UInt64) : BytesToBlocks :=
  if spdkU32IsPow2 d.blocklen then
    let shiftCnt := UInt64.ofNat (Nat.log2 d.blocklen.toNat)
    let offsetBlocks := offsetBytes >>> shiftCnt
    let numBlocks := numBytes >>> shiftCnt
    { rest := (offsetBytes - (offsetBlocks <<< shiftCnt)) ||| (numBytes - (numBlocks <<< shiftCnt))
      offsetBlocks := offsetBlocks
      numBlocks := numBlocks }
  else
    { rest := (offsetBytes % d.blocklen.toUInt64) ||| (numBytes % d.blocklen.toUInt64)
      offsetBlocks := offsetBytes / d.blocklen.toUInt64
      numBlocks := numBytes / d.blocklen.toUInt64 }

/-- `bdev_io_valid_blocks`. -/
def bdevIoValidBlocks (d : Bdev) (offsetBlocks numBlocks : UInt64) : Bool :=
  if offsetBlocks + numBlocks < offsetBlocks then false else
  if offsetBlocks + numBlocks > d.blockcnt then false else
  true

/-- The tail every submission shares: the range check, then a `bdev_io` from the pool (`ioOk` says
whether there is one). -/
def bdevSubmitBlocks (d : Bdev) (offsetBlocks numBlocks : UInt64) (ioOk : Bool) : ℤ :=
  if !bdevIoValidBlocks d offsetBlocks numBlocks then -EINVAL else
  if !ioOk then -ENOMEM else 0

/-- `spdk_bdev_readv_blocks_ext`, without separate metadata. -/
def spdkBdevReadvBlocksExt (d : Bdev) (offsetBlocks numBlocks : UInt64) (ioOk : Bool) : ℤ :=
  bdevSubmitBlocks d offsetBlocks numBlocks ioOk

/-- **`spdk_bdev_comparev_and_writev_blocks`**, on a descriptor opened for writing; `ioOk` also says
whether there is memory for the lock of the range, where one is taken. -/
def spdkBdevComparevAndWritevBlocks (d : Bdev) (offsetBlocks numBlocks : UInt64) (ioOk : Bool) :
    ℤ :=
  if !bdevIoValidBlocks d offsetBlocks numBlocks then -EINVAL else
  if numBlocks > d.acwu.toUInt64 then -EINVAL else
  if !ioOk then -ENOMEM else 0

/-- **`spdk_bdev_read`.** -/
def spdkBdevRead (d : Bdev) (offset nbytes : UInt64) (ioOk : Bool) : ℤ :=
  let b := bdevBytesToBlocks d offset nbytes
  if b.rest ≠ 0 then -EINVAL else bdevSubmitBlocks d b.offsetBlocks b.numBlocks ioOk

/-- **`spdk_bdev_write`**, on a descriptor opened for writing or not. -/
def spdkBdevWrite (d : Bdev) (write : Bool) (offset nbytes : UInt64) (ioOk : Bool) : ℤ :=
  let b := bdevBytesToBlocks d offset nbytes
  if b.rest ≠ 0 then -EINVAL else
  if !write then -EBADF else bdevSubmitBlocks d b.offsetBlocks b.numBlocks ioOk

/-! ## Whole blocks -/

/-- An extent of whole blocks of the device. -/
def Bdev.Aligned (d : Bdev) (e : Extent) : Prop :=
  d.blocklen.toNat ∣ e.offset.toNat ∧ d.blocklen.toNat ∣ e.length.toNat

instance (d : Bdev) (e : Extent) : Decidable (d.Aligned e) := inferInstanceAs (Decidable (_ ∧ _))

/-- The test on the bits finds the powers of two. -/
theorem toNat_of_isPow2 {x : UInt32} (h : spdkU32IsPow2 x = true) :
    x.toNat = 2 ^ Nat.log2 x.toNat ∧ Nat.log2 x.toNat < 64 := by
  unfold spdkU32IsPow2 at h
  split at h
  · cases h
  rename_i h0
  have hpos : x.toNat ≠ 0 := fun hx => h0 (UInt32.toNat_inj.mp hx)
  have hle : (1 : UInt32) ≤ x := UInt32.le_iff_toNat_le.mpr (Nat.one_le_iff_ne_zero.mpr hpos)
  have hand : x.toNat &&& (x.toNat - 1) = 0 := by
    have h := congrArg UInt32.toNat (beq_iff_eq.mp h)
    rwa [UInt32.toNat_and, UInt32.toNat_sub_of_le _ _ hle] at h
  obtain ⟨k, hk⟩ := (Nat.and_sub_one_eq_zero_iff_isPowerOfTwo hpos).mp hand
  have hlog : Nat.log2 x.toNat = k := by rw [hk, Nat.log2_two_pow]
  refine ⟨by rw [hlog, hk], ?_⟩
  have hlt : 2 ^ k < 2 ^ 64 := by
    rw [← hk]
    exact Nat.lt_of_lt_of_le x.toNat_lt (by decide)
  rw [hlog]
  exact (Nat.pow_lt_pow_iff_right (by decide)).mp hlt

section Shift

variable {k : ℕ}

/-- Shifting right divides… -/
theorem toNat_shiftRight_ofNat (hk : k < 64) (a : UInt64) :
    (a >>> UInt64.ofNat k).toNat = a.toNat / 2 ^ k := by
  have hlt : k < 2 ^ 64 := Nat.lt_trans hk (by decide)
  rw [UInt64.toNat_shiftRight, UInt64.toNat_ofNat_of_lt' hlt, Nat.mod_eq_of_lt hk,
    Nat.shiftRight_eq_div_pow]

/-- …and shifting back loses the remainder. -/
theorem sub_shift_eq_zero_iff (hk : k < 64) (a : UInt64) :
    a - (a >>> UInt64.ofNat k <<< UInt64.ofNat k) = 0 ↔ 2 ^ k ∣ a.toNat := by
  have hlt : k < 2 ^ 64 := Nat.lt_trans hk (by decide)
  have hmul : a.toNat / 2 ^ k * 2 ^ k ≤ a.toNat := Nat.div_mul_le_self _ _
  have hback : (a >>> UInt64.ofNat k <<< UInt64.ofNat k).toNat = a.toNat / 2 ^ k * 2 ^ k := by
    rw [UInt64.toNat_shiftLeft, toNat_shiftRight_ofNat hk, UInt64.toNat_ofNat_of_lt' hlt,
      Nat.mod_eq_of_lt hk, Nat.shiftLeft_eq]
    exact Nat.mod_eq_of_lt (Nat.lt_of_le_of_lt hmul a.toNat_lt)
  rw [← UInt64.toNat_inj, UInt64.toNat_sub_of_le _ _ (UInt64.le_iff_toNat_le.mpr (hback ▸ hmul)),
    hback, Nat.dvd_iff_div_mul_eq]
  change a.toNat - a.toNat / 2 ^ k * 2 ^ k = 0 ↔ _
  omega

end Shift

section Convert

variable (d : Bdev) (e : Extent)

/-- **The verdict of the conversion**, on either branch: whole blocks. -/
theorem bytesToBlocks_rest_iff :
    (bdevBytesToBlocks d e.offset e.length).rest = 0 ↔ d.Aligned e := by
  unfold bdevBytesToBlocks Bdev.Aligned
  split
  · rename_i h
    obtain ⟨hpow, hlt⟩ := toNat_of_isPow2 h
    rw [UInt64.or_eq_zero_iff, sub_shift_eq_zero_iff hlt, sub_shift_eq_zero_iff hlt, ← hpow]
  · rw [UInt64.or_eq_zero_iff, ← UInt64.toNat_inj, ← UInt64.toNat_inj, UInt64.toNat_mod,
      UInt64.toNat_mod, UInt32.toNat_toUInt64, Nat.dvd_iff_mod_eq_zero, Nat.dvd_iff_mod_eq_zero]
    rfl

/-- …and the blocks are the quotients the handlers check. -/
theorem bytesToBlocks_blocks :
    (bdevBytesToBlocks d e.offset e.length).offsetBlocks = e.offset / d.blocklen.toUInt64 ∧
      (bdevBytesToBlocks d e.offset e.length).numBlocks = e.length / d.blocklen.toUInt64 := by
  unfold bdevBytesToBlocks
  split
  · rename_i h
    obtain ⟨hpow, hlt⟩ := toNat_of_isPow2 h
    have hdiv : ∀ a : UInt64,
        a >>> UInt64.ofNat (Nat.log2 d.blocklen.toNat) = a / d.blocklen.toUInt64 := fun a => by
      rw [← UInt64.toNat_inj, toNat_shiftRight_ofNat hlt, UInt64.toNat_div,
        UInt32.toNat_toUInt64, ← hpow]
    exact ⟨hdiv _, hdiv _⟩
  · exact ⟨rfl, rfl⟩

end Convert

/-! ## What the layer accepts -/

/-- The two range checks are the same. -/
theorem bdevIoValidBlocks_eq (d : Bdev) (a n : UInt64) :
    bdevIoValidBlocks d a n = nvmfBdevCtrlrLbaInRange d.blockcnt a n := by
  unfold bdevIoValidBlocks nvmfBdevCtrlrLbaInRange
  split
  · rename_i h
    rw [if_pos (Or.inr h)]
  · rename_i h
    by_cases h' : a + n > d.blockcnt
    · rw [if_pos h', if_pos (Or.inl h')]
    · rw [if_neg h', if_neg (not_or.mpr ⟨h', h⟩)]

theorem bdevIoValidBlocks_iff (d : Bdev) (a n : UInt64) :
    bdevIoValidBlocks d a n = true ↔ a.toNat + n.toNat ≤ d.blockcnt.toNat := by
  rw [bdevIoValidBlocks_eq, lbaInRange_iff]

/-- A submission is accepted when its blocks are on the device and there is an I/O for it. -/
theorem bdevSubmitBlocks_eq_zero_iff (d : Bdev) (a n : UInt64) (ioOk : Bool) :
    bdevSubmitBlocks d a n ioOk = 0 ↔ a.toNat + n.toNat ≤ d.blockcnt.toNat ∧ ioOk = true := by
  rw [← bdevIoValidBlocks_iff, bdevSubmitBlocks]
  cases bdevIoValidBlocks d a n <;> cases ioOk <;> simp [EINVAL, ENOMEM]

/-- …and a compare and write when it has no more than `acwu` of them, too. -/
theorem comparevAndWritev_eq_zero_iff (d : Bdev) (a n : UInt64) (ioOk : Bool) :
    spdkBdevComparevAndWritevBlocks d a n ioOk = 0 ↔
      (a.toNat + n.toNat ≤ d.blockcnt.toNat ∧ n.toNat ≤ d.acwu.toNat) ∧ ioOk = true := by
  have hacwu : n > d.acwu.toUInt64 ↔ ¬ n.toNat ≤ d.acwu.toNat := by
    rw [gt_iff_lt, UInt64.lt_iff_toNat_lt, UInt16.toNat_toUInt64, Nat.not_le]
  rw [← bdevIoValidBlocks_iff, spdkBdevComparevAndWritevBlocks, if_congr hacwu rfl rfl]
  by_cases h : n.toNat ≤ d.acwu.toNat <;> cases bdevIoValidBlocks d a n <;> cases ioOk <;>
    simp [h, EINVAL, ENOMEM]

end NdpHeaan
