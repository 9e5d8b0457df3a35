import NdpHeaan.Host.Passthru
import Mathlib.Data.List.Perm.Basic

/-!
# Host/TargetFile — is the result of a HEaaN add visible in the target file?

The host makes room for the result with `fallocate`, asks for the extents of the target, and lets
the device write into them.  The file system learns nothing of that write: what it has flagged
unwritten keeps reading as zeros, and extents behind the first `MAX_EXTENTS` are never written.  So
the result shows exactly in a file that already had written extents, few enough, all the way.
-/

open Machinery

namespace NdpHeaan

/-! ## `fallocate` -/

/-- **`fallocate(fd, 0, 0, len)`**: what is mapped stays mapped, written extents stay as they are,
the range is mapped, and what was not mapped before is unwritten.  Unwritten extents may be merged,
and may reach beyond the range. -/
structure Fallocated (before : FileMap) (len : ℕ) (after : FileMap) : Prop where
  written : ∀ e ∈ before.extents, e.unwritten = false → e ∈ after.extents
  keep : ∀ k v, lookup before.pieces k = some v → lookup after.pieces k = some v
  alloc : ∀ k < len, lookup after.pieces k ≠ none
  fresh : ∀ k a t, lookup before.pieces k = none → lookup after.pieces k = some (a, t) → t = true

/-- Every byte below `len` is in a written extent. -/
def FileMap.WrittenBelow (m : FileMap) (len : ℕ) : Prop :=
  ∀ k < len, ∃ a, lookup m.pieces k = some (a, false)

/-- The number of extents that begin below `len`. -/
def FileMap.extentsBelow (m : FileMap) (len : ℕ) : ℕ := m.pieces.countP fun p => p.pos < len

namespace Fallocated

variable {before after : FileMap} {len : ℕ}

theorem mem_pieces (h : Fallocated before len after) {p : Piece Bool} (hp : p ∈ before.pieces)
    (ht : p.tag = false) : p ∈ after.pieces := by
  obtain ⟨e, he, rfl⟩ := List.mem_map.mp hp
  exact List.mem_map_of_mem (h.written e he ht)

theorem writtenBelow_iff (h : Fallocated before len after) :
    after.WrittenBelow len ↔ before.WrittenBelow len := by
  constructor
  · intro hw k hk
    obtain ⟨a, ha⟩ := hw k hk
    cases hb : lookup before.pieces k with
    | none => exact absurd (h.fresh k a false hb ha) Bool.false_ne_true
    | some v =>
      obtain rfl := Option.some.inj ((h.keep k v hb).symm.trans ha)
      exact ⟨a, rfl⟩
  · intro hw k hk
    obtain ⟨a, ha⟩ := hw k hk
    exact ⟨a, h.keep k _ ha⟩

/-- Below a range that was written all along, the extents are the ones there were. -/
theorem mem_iff (h : Fallocated before len after) (hw : before.WrittenBelow len) (p : Piece Bool)
    (hp : p.pos < len) : p ∈ before.pieces ↔ p ∈ after.pieces := by
  obtain ⟨a, ha⟩ := hw p.pos hp
  constructor
  · intro hmem
    have hfirst : p.Mem p.pos :=
      ⟨Nat.le_refl _, Nat.lt_add_of_pos_right (before.ordered_pieces.pos_of_mem p hmem).2⟩
    have hlook := before.ordered_pieces.lookup_of_mem p hmem p.pos hfirst
    exact h.mem_pieces hmem (Prod.mk.inj (Option.some.inj (hlook.symm.trans ha))).2
  · intro hmem
    have hfirst : p.Mem p.pos :=
      ⟨Nat.le_refl _, Nat.lt_add_of_pos_right (after.ordered_pieces.pos_of_mem p hmem).2⟩
    obtain ⟨q, hq, hqmem, hqtag, -⟩ := exists_of_lookup ha
    have heq : q = p := after.ordered_pieces.eq_of_mem q (h.mem_pieces hq hqtag) p hmem p.pos
      hqmem hfirst
    exact heq ▸ hq

theorem extentsBelow_eq (h : Fallocated before len after) (hw : before.WrittenBelow len) :
    after.extentsBelow len = before.extentsBelow len := by
  rw [FileMap.extentsBelow, FileMap.extentsBelow, List.countP_eq_length_filter,
    List.countP_eq_length_filter]
  refine List.Perm.length_eq ((List.perm_ext_iff_of_nodup (after.ordered_pieces.nodup.filter _)
    (before.ordered_pieces.nodup.filter _)).mpr fun p => ?_)
  rw [List.mem_filter, List.mem_filter, and_congr_left_iff]
  intro hp
  exact (h.mem_iff hw p (by simpa using hp)).symm

end Fallocated

/-! ## Seeing the result -/

/-- A call of `passthru` for a HEaaN add on a target file, with the file's map before and after
`fallocate`. -/
structure TargetCall where
  call : HeaanCall
  before : FileMap
  after : FileMap
  opens : Bool
  ioctls : Bool
  /-- The range is the total length of input 0. -/
  fallocated : ∀ l0, call.input0 = some l0 → call.fallocateOk = true →
    Fallocated before l0.totalLength.toNat after
  /-- The layout is the one of the fallocated file. -/
  target : call.target = getFileLayout after opens ioctls

/-- The device stores a result into a list of extents, one behind the other, and nothing else. -/
structure Stored (result : ℕ → UInt8) (l : List Seg) (disk disk' : ℕ → UInt8) : Prop where
  done : ∀ c ∈ scatter 0 l, c.Done result disk'
  frame : ∀ a, (∀ s ∈ l, ¬ s.Mem a) → disk' a = disk a

/-- **The result is visible**: if the command is sent, and the device stores a result into the
extents it lists, the target file reads as that result, up to the total length of input 0. -/
def ResultVisible (t : TargetCall) : Prop :=
  ∀ l0 lt cdw11 cdw12 cdw13 u64data, t.call.input0 = some l0 → t.call.target = some lt →
    (passthruHeaan t.call).2 = .sent cdw11 cdw12 cdw13 u64data →
      ∀ result disk disk', Stored result lt.segs disk disk' →
        ∀ k < l0.totalLength.toNat, t.after.byte disk' k = result k

section Map

variable {m : FileMap} {opens ioctls : Bool} {l : FileLayout} {len : ℕ}

theorem FileMap.WrittenBelow.lookup_ne_none (h : m.WrittenBelow len) (k : ℕ) (_ : 0 ≤ k)
    (hk : k < len) : lookup m.pieces k ≠ none := by
  obtain ⟨a, ha⟩ := h k hk
  rw [ha]
  exact Option.some_ne_none _

/-- Written extents that the layout lists read back what is stored into them. -/
theorem FileMap.WrittenBelow.byte_eq (h : m.WrittenBelow len)
    (hl : getFileLayout m opens ioctls = some l) (hfew : m.extentsBelow len ≤ maxExtents)
    {result disk disk' : ℕ → UInt8} (hs : Stored result l.segs disk disk') {k : ℕ} (hk : k < len) :
    m.byte disk' k = result k := by
  have hreach : len ≤ stopOf 0 (m.pieces.take maxExtents) :=
    (m.ordered_pieces.le_stopOf_take_iff maxExtents h.lookup_ne_none).mpr hfew
  have htake : ∀ k < len, lookup (m.pieces.take maxExtents) k = lookup m.pieces k :=
    fun k hk => m.ordered_pieces.lookup_take (hk.trans_le hreach)
  obtain ⟨a, ha⟩ := h k hk
  have hcell : cellAt l.segs k = some a := by
    have := (m.ordered_pieces.take maxExtents).cellAt_eq_lookup (c := len)
      (fun j h0 hj => by rw [htake j hj]; exact h.lookup_ne_none j h0 hj) k (Nat.zero_le k) hk
    rw [Nat.sub_zero] at this
    rw [segs_getFileLayout hl, this, htake k hk, ha]
    rfl
  rw [FileMap.byte, ha]
  have := eq_of_scatter_done hs.done hcell
  rwa [Nat.zero_add] at this

/-- An extent that is not written hides a result of ones. -/
theorem FileMap.writtenBelow_of_byte {s : List Seg}
    (h : ∀ result disk disk', Stored result s disk disk' → ∀ k < len, m.byte disk' k = result k) :
    m.WrittenBelow len := by
  intro k hk
  have hone := h (fun _ => 1) (fun _ => 1) (fun _ => 1) ⟨fun _ _ _ _ => rfl, fun _ _ => rfl⟩ k hk
  rw [FileMap.byte] at hone
  split at hone
  · rename_i a ha
    exact ⟨a, ha⟩
  · exact absurd hone (by decide)

/-- A byte behind the listed extents is not stored at all. -/
theorem FileMap.le_stopOf_of_byte (hl : getFileLayout m opens ioctls = some l)
    (h : ∀ result disk disk', Stored result l.segs disk disk' →
      ∀ k < len, m.byte disk' k = result k) :
    len ≤ stopOf 0 (m.pieces.take maxExtents) := by
  by_contra hlt
  have htotal : total l.segs ≤ stopOf 0 (m.pieces.take maxExtents) := by
    have := (m.ordered_pieces.take maxExtents).total_le
    rw [segs_getFileLayout hl]
    omega
  generalize hk : stopOf 0 (m.pieces.take maxExtents) = k at htotal hlt
  -- a result of zeros but for this byte, on a device of zeros
  let result : ℕ → UInt8 := fun j => if j < k then 0 else 1
  have hstored : Stored result l.segs (fun _ => 0) (fun _ => 0) := by
    refine ⟨fun c hc j hj => ?_, fun _ _ => rfl⟩
    have hend := src_add_len_le_of_mem_scatter hc
    exact (if_pos (by omega)).symm
  have hbyte := h result _ _ hstored k (by omega)
  have hzero : m.byte (fun _ => 0) k = 0 := by
    rw [FileMap.byte]
    split <;> rfl
  rw [hzero] at hbyte
  exact absurd (hbyte.trans (if_neg (Nat.lt_irrefl k))) (by decide)

end Map

/-- **The result is visible exactly when** nothing is sent, or the target already had written
extents up to the total length of input 0, and no more of them than a layout lists. -/
theorem resultVisible_iff (t : TargetCall) :
    ResultVisible t ↔
      ∀ l0 l1 lt, t.call.Encodes l0 l1 lt → t.call.dryRun = false →
        t.before.WrittenBelow l0.totalLength.toNat ∧
          t.before.extentsBelow l0.totalLength.toNat ≤ maxExtents := by
  constructor
  · intro h l0 l1 lt henc hdry
    have hsent : (passthruHeaan t.call).2 = .sent (.ofNat l0.extents.length)
        (.ofNat l1.extents.length) (.ofNat lt.extents.length) (t.call.encode l0 l1 lt).u64data := by
      rw [henc.passthru_eq, HeaanCall.send, hdry]
      rfl
    have hbyte := h l0 lt _ _ _ _ henc.input0 henc.target hsent
    have hl : getFileLayout t.after t.opens t.ioctls = some lt := t.target.symm.trans henc.target
    have hfalloc := t.fallocated l0 henc.input0 henc.fallocateOk
    have hafter := FileMap.writtenBelow_of_byte hbyte
    have hbefore := hfalloc.writtenBelow_iff.mp hafter
    refine ⟨hbefore, hfalloc.extentsBelow_eq hbefore ▸ ?_⟩
    exact (t.after.ordered_pieces.le_stopOf_take_iff maxExtents hafter.lookup_ne_none).mp
      (FileMap.le_stopOf_of_byte hl hbyte)
  · intro h l0 lt cdw11 cdw12 cdw13 u64data h0 ht hsent result disk disk' hstored k hk
    rcases passthruHeaan_cases t.call with ⟨err, -, heq⟩ | ⟨l0', l1, lt', henc, heq⟩
    · rw [heq] at hsent
      cases hsent
    · obtain rfl := Option.some.inj (henc.input0.symm.trans h0)
      obtain rfl := Option.some.inj (henc.target.symm.trans ht)
      have hdry : t.call.dryRun = false := by
        by_contra hdry
        rw [heq, HeaanCall.send, if_pos (by simpa using hdry)] at hsent
        cases hsent
      obtain ⟨hbefore, hfew⟩ := h _ _ _ henc hdry
      have hfalloc := t.fallocated _ h0 henc.fallocateOk
      rw [← hfalloc.extentsBelow_eq hbefore] at hfew
      exact (hfalloc.writtenBelow_iff.mpr hbefore).byte_eq (t.target.symm.trans ht) hfew hstored hk

/-- A map of one 4096-byte extent from offset 0 on. -/
def FileMap.oneExtent (physical : UInt64) (unwritten : Bool) : FileMap where
  extents := [⟨0, physical, 4096, unwritten⟩]
  ordered := ⟨Nat.le_refl _, show 0 < (4096 : UInt64).toNat by decide, trivial⟩
  stop_lt := by
    show 0 + 4096 < 2 ^ 64
    decide

/-- What `fallocate` makes of an absent file. -/
theorem fallocated_absent (physical : UInt64) :
    Fallocated ⟨[], trivial, by decide⟩ 4096 (.oneExtent physical true) where
  written := fun _ he => absurd he (List.not_mem_nil)
  keep := fun _ _ h => absurd h (Option.some_ne_none _).symm
  alloc := fun k hk => by
    have hmem : (FiemapExtent.piece ⟨0, physical, 4096, true⟩).Mem k :=
      ⟨Nat.zero_le k, by simpa [Piece.stop, FiemapExtent.piece] using hk⟩
    rw [FileMap.pieces, FileMap.oneExtent, List.map_singleton, lookup, if_pos hmem]
    exact Option.some_ne_none _
  fresh := fun k a t _ h => by
    obtain ⟨p, hp, -, rfl, -⟩ := exists_of_lookup h
    obtain rfl := List.mem_singleton.mp hp
    rfl

/-- A target that does not exist yet: the command is sent, and the file reads as zeros. -/
theorem result_hidden_absent :
    ∃ t : TargetCall, t.before.extents = [] ∧ ¬ ResultVisible t := by
  obtain ⟨l0, hl0, hlen⟩ : ∃ l, getFileLayout (.oneExtent 0 false) true true = some l ∧
      l.totalLength.toNat = 4096 := ⟨_, rfl, by decide⟩
  obtain ⟨lt, hlt⟩ : ∃ l, getFileLayout (.oneExtent 8192 true) true true = some l := ⟨_, rfl⟩
  let c : HeaanCall := ⟨true, some l0, some l0, true, some lt, true, 0, fun _ => 0, false⟩
  have henc : c.Encodes l0 l0 lt := ⟨rfl, rfl, rfl, rfl, rfl, rfl⟩
  refine ⟨⟨c, ⟨[], trivial, by decide⟩, .oneExtent 8192 true, true, true, fun l hl _ => ?_,
    hlt.symm⟩, rfl, fun h => ?_⟩
  · obtain rfl := Option.some.inj hl
    rw [hlen]
    exact fallocated_absent 8192
  · have hbyte := h l0 lt _ _ _ _ rfl rfl (congrArg Prod.snd henc.passthru_eq)
    obtain ⟨a, ha⟩ := FileMap.writtenBelow_of_byte hbyte 0 (hlen ▸ by decide)
    cases ha

end NdpHeaan
