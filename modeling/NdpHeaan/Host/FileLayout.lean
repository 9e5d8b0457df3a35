import NdpHeaan.Machinery.ExtentMap
import Mathlib.Tactic.Common

/-!
# Host/FileLayout — what `get_file_layout` says about a file

`nvme-cli/nvme.c` asks the file system for the extents of a file (`FS_IOC_FIEMAP`) and copies the
answer: logical offsets are dropped, flags are dropped, and at most `MAX_EXTENTS` extents are asked
for.  A file is an extent map with a size; its bytes are read by *position*, holes and unwritten
extents as zeros.  The layout is used by *concatenation*.  The two agree exactly on files without
gaps, unwritten data, a tail behind the last extent, or too many extents.
-/

open Machinery

namespace NdpHeaan

/-! ## Files -/

/-- `struct fiemap_extent`; of its flags only `FIEMAP_EXTENT_UNWRITTEN` bears on the contents. -/
structure FiemapExtent where
  feLogical : UInt64
  fePhysical : UInt64
  feLength : UInt64
  unwritten : Bool
  deriving DecidableEq, Repr

/-- An extent as a piece of an address space. -/
def FiemapExtent.piece (e : FiemapExtent) : Piece Bool :=
  ⟨e.feLogical.toNat, e.fePhysical.toNat, e.feLength.toNat, e.unwritten⟩

/-- The extent map of a file. -/
structure FileMap where
  extents : List FiemapExtent
  /-- Extents come in order of logical offset and do not overlap in the file. -/
  ordered : Ordered 0 (extents.map FiemapExtent.piece)
  /-- File offsets are 64-bit numbers. -/
  stop_lt : stopOf 0 (extents.map FiemapExtent.piece) < 2 ^ 64

namespace FileMap

variable (m : FileMap)

def pieces : List (Piece Bool) := m.extents.map FiemapExtent.piece

theorem ordered_pieces : Ordered 0 m.pieces := m.ordered

theorem length_pieces : m.pieces.length = m.extents.length := List.length_map _

/-- The file offset behind the last extent. -/
def stop : ℕ := stopOf 0 m.pieces

/-- What a read of the file yields at an offset: zeros in holes and unwritten extents. -/
def byte (disk : ℕ → UInt8) (k : ℕ) : UInt8 :=
  match lookup m.pieces k with
  | some (a, false) => disk a
  | _ => 0

/-- `FS_IOC_FIEMAP` from offset 0 on, with room for so many extents. -/
def fsIocFiemap (fmExtentCount : ℕ) : List FiemapExtent := m.extents.take fmExtentCount

end FileMap

/-- A file. -/
structure File where
  map : FileMap
  /-- Its size in bytes. -/
  size : ℕ

/-- The contents of a file. -/
def File.contents (f : File) (disk : ℕ → UInt8) : List UInt8 :=
  (List.range f.size).map (f.map.byte disk)

/-! ## Layouts -/

/-- `MAX_EXTENTS`. -/
def maxExtents : ℕ := 1024

/-- `extent_info_t`. -/
structure ExtentInfo where
  logicalOffset : UInt64
  physicalOffset : UInt64
  length : UInt64
  lbaStart : UInt64
  lbaCount : UInt64
  deriving DecidableEq, Repr

/-- The body of the copying loop: `lba_start` and `lba_count` are in bytes. -/
def FiemapExtent.info (e : FiemapExtent) : ExtentInfo :=
  ⟨e.feLogical, e.fePhysical, e.feLength, e.fePhysical, e.feLength⟩

/-- `file_layout_t`, without the file's name; `extent_count` is the length of the list. -/
structure FileLayout where
  startOffset : UInt64
  totalLength : UInt64
  extents : List ExtentInfo
  /-- The array has `MAX_EXTENTS` entries. -/
  length_le : extents.length ≤ maxExtents

/-- The device bytes a layout names. -/
def ExtentInfo.seg (x : ExtentInfo) : Seg := ⟨x.lbaStart.toNat, x.lbaCount.toNat⟩

def FileLayout.segs (l : FileLayout) : List Seg := l.extents.map ExtentInfo.seg

/-- **`get_file_layout`**, for a file that `open` and the `ioctl` may refuse.  `fm_start` is zero
and stays so. -/
def getFileLayout (m : FileMap) (opens ioctls : Bool) : Option FileLayout :=
  if !opens then none else
  if !ioctls then none else
  let fm := m.fsIocFiemap maxExtents
  some
    { startOffset := 0
      totalLength := fm.foldl (fun t e => t + e.feLength) 0
      extents := fm.map FiemapExtent.info
      length_le := (List.length_map _).trans_le (List.length_take_le _ _) }

/-- Where both calls succeed, there is a layout. -/
theorem getFileLayout_eq_none {m : FileMap} {opens ioctls : Bool} :
    getFileLayout m opens ioctls = none ↔ opens = false ∨ ioctls = false := by
  unfold getFileLayout
  cases opens <;> cases ioctls <;> simp

theorem length_getFileLayout {m : FileMap} {opens ioctls : Bool} {l : FileLayout}
    (h : getFileLayout m opens ioctls = some l) :
    l.extents.length = min maxExtents m.extents.length := by
  unfold getFileLayout at h
  split_ifs at h
  obtain rfl := Option.some.inj h
  exact (List.length_map _).trans List.length_take

/-- The layout names the first extents, in order. -/
theorem segs_getFileLayout {m : FileMap} {opens ioctls : Bool} {l : FileLayout}
    (h : getFileLayout m opens ioctls = some l) :
    l.segs = (m.pieces.take maxExtents).map Piece.seg := by
  unfold getFileLayout at h
  split_ifs at h
  obtain rfl := Option.some.inj h
  rw [FileMap.pieces, ← List.map_take]
  simp only [FileLayout.segs, FileMap.fsIocFiemap, List.map_map]
  rfl

/-- The accumulated `total_length` is the 64-bit sum. -/
theorem toNat_foldl_length : ∀ (l : List FiemapExtent) (t : UInt64),
    t.toNat + total (l.map fun e => e.piece.seg) < 2 ^ 64 →
      (l.foldl (fun t e => t + e.feLength) t).toNat
        = t.toNat + total (l.map fun e => e.piece.seg)
  | [], t, _ => rfl
  | e :: l, t, h => by
      have hlen : e.piece.seg.len = e.feLength.toNat := rfl
      rw [List.map_cons, total_cons, hlen] at h ⊢
      have hadd : (t + e.feLength).toNat = t.toNat + e.feLength.toNat := by
        rw [UInt64.toNat_add]
        exact Nat.mod_eq_of_lt (by omega)
      rw [List.foldl_cons, toNat_foldl_length l _ (by omega), hadd]
      omega

/-- `total_length` is the number of bytes named. -/
theorem totalLength_getFileLayout {m : FileMap} {opens ioctls : Bool} {l : FileLayout}
    (h : getFileLayout m opens ioctls = some l) : l.totalLength.toNat = total l.segs := by
  have hsegs := segs_getFileLayout h
  have hle := (m.ordered_pieces.take maxExtents).total_le
  have hstop : stopOf 0 (m.pieces.take maxExtents) < 2 ^ 64 := by
    rcases Nat.lt_or_ge maxExtents m.pieces.length with hlt | hge
    · exact (m.ordered_pieces.stopOf_take_lt hlt).trans m.stop_lt
    · rw [List.take_of_length_le hge]
      exact m.stop_lt
  have hmap : (m.fsIocFiemap maxExtents).map (fun e => e.piece.seg)
      = (m.pieces.take maxExtents).map Piece.seg := by
    rw [FileMap.pieces, ← List.map_take, List.map_map]
    rfl
  unfold getFileLayout at h
  split_ifs at h
  obtain rfl := Option.some.inj h
  dsimp only
  rw [toNat_foldl_length _ _ (by rw [hmap]; exact (Nat.lt_of_le_of_lt hle hstop)), hmap, hsegs]
  exact Nat.zero_add _

/-! ## When a layout describes its file -/

/-- **A layout describes a file**: whatever the device holds, the bytes it names are the file's
contents, padded up to the end of the last extent, and `total_length` counts them. -/
def Describes (f : File) (l : FileLayout) : Prop :=
  ∀ disk, (∃ pad, readAll disk l.segs = f.contents disk ++ pad) ∧
    (readAll disk l.segs).length = f.map.stop ∧
    l.totalLength.toNat = (readAll disk l.segs).length

/-- A file that is one run of written extents: few enough, without a gap from offset 0 on, with no
unwritten extent below its size, and no hole behind the last extent. -/
structure File.OneRun (f : File) : Prop where
  few : f.map.extents.length ≤ maxExtents
  tiles : Tiles 0 f.map.pieces
  written : ∀ e ∈ f.map.extents, e.unwritten = true → f.size ≤ e.feLogical.toNat
  size_le : f.size ≤ f.map.stop

variable {f : File} {opens ioctls : Bool} {l : FileLayout}

/-- Below the size of such a file, every offset is mapped and written. -/
theorem File.OneRun.lookup_written (h : f.OneRun) {k : ℕ} (hk : k < f.size) :
    ∃ a, lookup f.map.pieces k = some (a, false) := by
  have hne := h.tiles.lookup_ne_none k (Nat.zero_le k) (hk.trans_le h.size_le)
  obtain ⟨⟨a, t⟩, hat⟩ := Option.ne_none_iff_exists'.mp hne
  obtain ⟨p, hp, hmem, htag, -⟩ := exists_of_lookup hat
  obtain ⟨e, he, rfl⟩ := List.mem_map.mp hp
  refine ⟨a, ?_⟩
  cases t with
  | false => exact hat
  | true =>
    have h1 := h.written e he htag
    have h2 : e.feLogical.toNat ≤ k := hmem.1
    omega

/-- **…so its layout describes it.** -/
theorem File.OneRun.describes (h : f.OneRun) (hl : getFileLayout f.map opens ioctls = some l) :
    Describes f l := by
  have hsegs : l.segs = f.map.pieces.map Piece.seg := by
    rw [segs_getFileLayout hl, List.take_of_length_le (f.map.length_pieces.trans_le h.few)]
  have htotal : total l.segs = f.map.stop := by
    rw [hsegs, FileMap.stop, ← h.tiles.total_eq, Nat.zero_add]
  intro disk
  refine ⟨⟨(readAll disk l.segs).drop f.size, ?_⟩, ?_, ?_⟩
  · have htake : (readAll disk l.segs).take f.size = f.contents disk := by
      refine List.ext_getElem? fun k => ?_
      by_cases hk : k < f.size
      · obtain ⟨a, ha⟩ := h.lookup_written hk
        have hcell := f.map.ordered_pieces.cellAt_eq_lookup (c := f.map.stop)
          (fun k _ => h.tiles.lookup_ne_none k (Nat.zero_le k)) k (Nat.zero_le k)
          (hk.trans_le h.size_le)
        rw [Nat.sub_zero] at hcell
        have hbyte : f.map.byte disk k = disk a := by rw [FileMap.byte, ha]
        rw [List.getElem?_take_of_lt hk, getElem?_readAll, hsegs, hcell.trans (congrArg _ ha),
          File.contents, List.getElem?_map, List.getElem?_range hk]
        exact congrArg some hbyte.symm
      · rw [List.getElem?_eq_none (by simp; omega), List.getElem?_eq_none]
        simpa [File.contents] using hk
    rw [← htake, List.take_append_drop]
  · rw [length_readAll, htotal]
  · rw [length_readAll, totalLength_getFileLayout hl]

/-- A layout that names as many bytes as the file is long leaves out no extent and no gap. -/
theorem oneRun_of_length (hl : getFileLayout f.map opens ioctls = some l)
    (h : total l.segs = f.map.stop) :
    f.map.extents.length ≤ maxExtents ∧ Tiles 0 f.map.pieces := by
  rw [segs_getFileLayout hl] at h
  have hle := (f.map.ordered_pieces.take maxExtents).total_le
  have hfew : f.map.extents.length ≤ maxExtents := by
    by_contra hgt
    have hlt := f.map.ordered_pieces.stopOf_take_lt (n := maxExtents)
      (f.map.length_pieces ▸ Nat.lt_of_not_le hgt)
    rw [FileMap.stop] at h
    omega
  refine ⟨hfew, f.map.ordered_pieces.tiles_of_total ?_⟩
  rw [List.take_of_length_le (f.map.length_pieces.trans_le hfew)] at h
  rw [FileMap.stop] at h
  omega

/-- A described file has no unwritten extent below its size: on a device of ones, the layout would
name ones where the file reads as zeros. -/
theorem Describes.written (h : Describes f l) {e : FiemapExtent} (he : e ∈ f.map.extents)
    (hun : e.unwritten = true) : f.size ≤ e.feLogical.toNat := by
  by_contra hlt
  have hpiece : e.piece ∈ f.map.pieces := List.mem_map_of_mem he
  have hpos : 0 < e.piece.len := (f.map.ordered_pieces.pos_of_mem _ hpiece).2
  have hmem : e.piece.Mem e.feLogical.toNat := by
    refine ⟨Nat.le_refl _, ?_⟩
    rw [Piece.stop]
    exact Nat.lt_add_of_pos_right hpos
  have hlook := f.map.ordered_pieces.lookup_of_mem _ hpiece _ hmem
  have hzero : (f.contents fun _ => 1)[e.feLogical.toNat]? = some 0 := by
    rw [File.contents, List.getElem?_map, List.getElem?_range (Nat.lt_of_not_le hlt),
      Option.map_some, FileMap.byte, hlook]
    rw [show e.piece.tag = true from hun]
  obtain ⟨⟨pad, hpad⟩, -, -⟩ := h fun _ => 1
  have hone : (readAll (fun _ => 1) l.segs)[e.feLogical.toNat]? ≠ some (0 : UInt8) := by
    rw [getElem?_readAll]
    cases cellAt l.segs e.feLogical.toNat <;> simp
  rw [hpad, List.getElem?_append_left (List.getElem?_eq_some_iff.mp hzero).1] at hone
  exact hone hzero

/-- **`get_file_layout` describes the file exactly when** it is refused, or the file is one run of
written extents. -/
theorem getFileLayout_describes_iff (f : File) (opens ioctls : Bool) :
    (∀ l, getFileLayout f.map opens ioctls = some l → Describes f l) ↔
      opens = false ∨ ioctls = false ∨ f.OneRun := by
  cases hl : getFileLayout f.map opens ioctls with
  | none =>
    have := getFileLayout_eq_none.mp hl
    simp only [reduceCtorEq, false_imp_iff, implies_true, true_iff]
    exact this.imp_right Or.inl
  | some l =>
    have hne : ¬ (opens = false ∨ ioctls = false) := fun h => by
      rw [getFileLayout_eq_none.mpr h] at hl
      cases hl
    constructor
    · intro h
      have hd : Describes f l := h l rfl
      obtain ⟨⟨pad, hpad⟩, hlen, -⟩ := hd fun _ => 1
      rw [length_readAll] at hlen
      obtain ⟨hfew, htiles⟩ := oneRun_of_length hl hlen
      refine Or.inr (Or.inr ⟨hfew, htiles, fun e he hun => hd.written he hun, ?_⟩)
      have := congrArg List.length hpad
      rw [length_readAll, List.length_append, hlen, File.contents, List.length_map,
        List.length_range] at this
      omega
    · intro h l' hl'
      obtain rfl := Option.some.inj hl'
      have hrun : f.OneRun := by
        rcases h with h | h | h
        · exact absurd (Or.inl h) hne
        · exact absurd (Or.inr h) hne
        · exact h
      exact hrun.describes hl

/-- A file with a hole: its layout names 8192 bytes, and the file has 12288. -/
theorem getFileLayout_not_describes_hole :
    ∃ f l, getFileLayout f.map true true = some l ∧ ¬ Describes f l := by
  refine ⟨⟨⟨[⟨0, 0, 4096, false⟩, ⟨8192, 4096, 4096, false⟩], by decide, by decide⟩, 12288⟩, _, rfl,
    fun h => ?_⟩
  have hlen := (h fun _ => 1).2.1
  rw [length_readAll] at hlen
  exact absurd hlen (by decide)

end NdpHeaan
