import NdpHeaan.Host.Passthru
import NdpHeaan.Target.HeaanAdd

/-!
# Wire/HeaanPayload — does the target read what the host wrote?

The payload of a HEaaN add has no tags and no lengths: three lists are read through one cursor, and
only the three command dwords say where a list ends.  The two cursors stay in step, for every number
of extents.  Two things are lost all the same: the start offsets of the inputs, which the handler
parses into locals and never copies into the context, and sizes of `2 ^ 64` bytes and more.
-/

open Machinery

namespace NdpHeaan

/-- The extents of a layout, as the target names them. -/
def FileLayout.exts (l : FileLayout) : List Extent :=
  l.extents.map fun x => ⟨x.lbaStart, x.lbaCount⟩

theorem FileLayout.segs_eq (l : FileLayout) : l.segs = l.exts.map Extent.seg := by
  rw [segs, exts, List.map_map]
  rfl

/-- The request a target receives: the host's buffer in one piece, and whatever memory lies behind
it. -/
def HeaanReq.received (bdev : Bdev) (cdw11 cdw12 cdw13 : UInt32) (u64data behind : ℕ → UInt64) :
    HeaanReq where
  bdev := bdev
  cdw11 := cdw11
  cdw12 := cdw12
  cdw13 := cdw13
  iov := [⟨true, heaanDataLen⟩]
  iov_lt := by decide
  u64data := fun k => if k < heaanDataLen / 8 then u64data k else behind k

/-- **The target understands the host**: it parses the same start offsets and the same extents, in
the same order; its context has the sums of the lengths and, for each input, the start offset that
`readCiphertextFromMem` is passed. -/
structure Understands (r : HeaanReq) (l0 l1 lt : FileLayout) (p : Parsed) : Prop where
  parse : (heaanParse r).2 = .parsed p
  input0StartOffset : p.input0StartOffset = l0.startOffset
  input0Ext : p.input0Ext = l0.exts
  input1StartOffset : p.input1StartOffset = l1.startOffset
  input1Ext : p.input1Ext = l1.exts
  targetStartOffset : p.targetStartOffset = lt.startOffset
  targetExt : p.targetExt = lt.exts
  ctxTargetExt : ∀ al, (r.ctxParsed al p).targetExt = lt.exts
  ctxInput0TotalSize : ∀ al, (r.ctxParsed al p).input0TotalSize.toNat = total l0.segs
  ctxInput1TotalSize : ∀ al, (r.ctxParsed al p).input1TotalSize.toNat = total l1.segs
  ctxInput0StartOffset : ∀ al, (r.ctxParsed al p).input0StartOffset = l0.startOffset
  ctxInput1StartOffset : ∀ al, (r.ctxParsed al p).input1StartOffset = l1.startOffset

/-! ## Reading back what was stored -/

theorem extsAt_of_holdsWords {u : ℕ → UInt64} : ∀ {b : ℕ} {xs : List ExtentInfo},
    HoldsWords u b (xs.flatMap fun x => [x.lbaStart, x.lbaCount]) →
      extsAt u b xs.length = xs.map fun x => ⟨x.lbaStart, x.lbaCount⟩
  | _, [], _ => rfl
  | b, x :: xs, h => by
      rw [List.flatMap_cons, List.cons_append, List.cons_append, List.nil_append, holdsWords_cons,
        holdsWords_cons] at h
      obtain ⟨h0, h1, h⟩ := h
      rw [List.length_cons, extsAt, h0, h1, List.map_cons, extsAt_of_holdsWords h]

/-- A file's words read back as its start offset and its extents. -/
theorem FileLayout.read_words {u : ℕ → UInt64} {b : ℕ} {l : FileLayout}
    (h : HoldsWords u b l.words) :
    u b = l.startOffset ∧ extsAt u (b + 1) l.extents.length = l.exts := by
  obtain ⟨h0, h⟩ := holdsWords_cons.mp h
  exact ⟨h0, extsAt_of_holdsWords h⟩

section Received

variable {c : HeaanCall} {l0 l1 lt : FileLayout} {d : Bdev} {behind : ℕ → UInt64}

/-- The request of three encoded layouts. -/
def HeaanCall.request (c : HeaanCall) (l0 l1 lt : FileLayout) (d : Bdev) (behind : ℕ → UInt64) :
    HeaanReq :=
  .received d (.ofNat l0.extents.length) (.ofNat l1.extents.length) (.ofNat lt.extents.length)
    (c.encode l0 l1 lt).u64data behind

theorem toNat_extent_count (l : FileLayout) :
    (UInt32.ofNat l.extents.length).toNat = l.extents.length := by
  have := l.length_le
  unfold maxExtents at this
  exact UInt32.toNat_ofNat_of_lt' (by rw [UInt32.size]; omega)

/-- The lists the payload's memory holds are the host's. -/
theorem HeaanCall.request_lists
    (hfit : 3 + 2 * (l0.extents.length + l1.extents.length + lt.extents.length)
      ≤ heaanDataLen / 8) :
    (c.request l0 l1 lt d behind).parsed =
      { input0StartOffset := l0.startOffset
        input0Ext := l0.exts
        input0Size := (l0.exts.map Extent.length).sum
        input1StartOffset := l1.startOffset
        input1Ext := l1.exts
        input1Size := (l1.exts.map Extent.length).sum
        targetStartOffset := lt.startOffset
        targetExt := lt.exts
        targetSize := (lt.exts.map Extent.length).sum } := by
  have hwords : HoldsWords (c.request l0 l1 lt d behind).u64data 0
      (l0.words ++ l1.words ++ lt.words) := by
    intro i hi
    have hlt : 0 + i < heaanDataLen / 8 := by
      rw [length_payload] at hi
      omega
    exact (if_pos hlt).trans ((c.encode_spec l0 l1 lt).2 i hi)
  rw [holdsWords_append, holdsWords_append, List.length_append, l0.length_words,
    l1.length_words] at hwords
  obtain ⟨⟨hw0, hw1⟩, hwt⟩ := hwords
  obtain ⟨ho0, he0⟩ := FileLayout.read_words hw0
  obtain ⟨ho1, he1⟩ := FileLayout.read_words hw1
  obtain ⟨hot, het⟩ := FileLayout.read_words hwt
  have hn0 : (c.request l0 l1 lt d behind).cdw11.toNat = l0.extents.length := toNat_extent_count l0
  have hn1 : (c.request l0 l1 lt d behind).cdw12.toNat = l1.extents.length := toNat_extent_count l1
  have hnt : (c.request l0 l1 lt d behind).cdw13.toNat = lt.extents.length := toNat_extent_count lt
  have hb1 : 0 + (1 + 2 * l0.extents.length) = 1 + 2 * l0.extents.length := Nat.zero_add _
  have hb1' : 0 + (1 + 2 * l0.extents.length) + 1 = 2 + 2 * l0.extents.length := by omega
  have hbt : 0 + (1 + 2 * l0.extents.length + (1 + 2 * l1.extents.length))
      = 2 + 2 * l0.extents.length + 2 * l1.extents.length := by omega
  have hbt' : 0 + (1 + 2 * l0.extents.length + (1 + 2 * l1.extents.length)) + 1
      = 3 + 2 * l0.extents.length + 2 * l1.extents.length := by omega
  rw [hb1'] at he1
  rw [hb1] at ho1
  rw [hbt'] at het
  rw [hbt] at hot
  simp only [HeaanReq.parsed, HeaanReq.input0List, HeaanReq.input1List, HeaanReq.targetList, hn0,
    hn1, hnt, ho0, he0, ho1, he1, hot, het]

/-- Extents on the device pass the target's range check, so the payload parses to them. -/
theorem HeaanCall.request_parse
    (hfit : 3 + 2 * (l0.extents.length + l1.extents.length + lt.extents.length)
      ≤ heaanDataLen / 8)
    (hdev : ∀ x ∈ l0.extents ++ l1.extents ++ lt.extents,
      x.lbaStart.toNat + x.lbaCount.toNat ≤ d.blockcnt.toNat * d.blocklen.toNat) :
    (heaanParse (c.request l0 l1 lt d behind)).2
      = .parsed (c.request l0 l1 lt d behind).parsed := by
  have hlists := @HeaanCall.request_lists c l0 l1 lt d behind hfit
  have hall : ∀ l : FileLayout, (∀ x ∈ l.extents, x ∈ l0.extents ++ l1.extents ++ lt.extents) →
      l.exts.all (c.request l0 l1 lt d behind).bdev.extentInRange = true := by
    intro l hl
    refine List.all_eq_true.mpr fun e he => ?_
    obtain ⟨x, hx, rfl⟩ := List.mem_map.mp he
    exact Bdev.extentInRange_of_le _ _ (hdev x (hl x hx))
  refine heaanParse_of_all ?_ ?_ ?_ ?_
  · rw [show (c.request l0 l1 lt d behind).input0List = l0.exts from
      congrArg Parsed.input0Ext hlists]
    exact hall l0 fun x hx => by simp [hx]
  · rw [show (c.request l0 l1 lt d behind).input1List = l1.exts from
      congrArg Parsed.input1Ext hlists]
    exact hall l1 fun x hx => by simp [hx]
  · rw [show (c.request l0 l1 lt d behind).targetList = lt.exts from
      congrArg Parsed.targetExt hlists]
    exact hall lt fun x hx => by simp [hx]
  · have hn0 := toNat_extent_count l0
    have hn1 := toNat_extent_count l1
    have hnt := toNat_extent_count lt
    change 3 + 2 * ((UInt32.ofNat l0.extents.length).toNat +
      (UInt32.ofNat l1.extents.length).toNat + (UInt32.ofNat lt.extents.length).toNat) < 2 ^ 32
    unfold heaanDataLen at hfit
    omega

end Received

/-- The context's size is the number of bytes exactly when that is a 64-bit number. -/
theorem toNat_sum_length_iff (es : List Extent) :
    (es.map Extent.length).sum.toNat = total (es.map Extent.seg) ↔
      total (es.map Extent.seg) < 2 ^ 64 := by
  constructor
  · intro h
    rw [← h]
    exact UInt64.toNat_lt _
  · intro h
    rw [sum_length_eq, toNat_ofNat_total h]

/-- What `passthru` sends is the request of the layouts it has encoded. -/
theorem HeaanCall.Encodes.received_eq {c : HeaanCall} {l0 l1 lt : FileLayout}
    (h : c.Encodes l0 l1 lt) {cdw11 cdw12 cdw13 : UInt32} {u64data : ℕ → UInt64}
    (hsent : (passthruHeaan c).2 = .sent cdw11 cdw12 cdw13 u64data) (d : Bdev)
    (behind : ℕ → UInt64) :
    HeaanReq.received d cdw11 cdw12 cdw13 u64data behind = c.request l0 l1 lt d behind := by
  rw [h.passthru_eq, send] at hsent
  split at hsent
  · cases hsent
  · obtain ⟨rfl, rfl, rfl, rfl⟩ := PassthruEnd.sent.inj hsent
    rfl

/-- **Host and target agree exactly when** both inputs start at offset 0 of their first block and
have less than `2 ^ 64` bytes — for all that `passthru` sends of layouts that fit into the payload,
and every device their extents lie on. -/
theorem understands_iff (c : HeaanCall) (l0 l1 lt : FileLayout) (d : Bdev) (behind : ℕ → UInt64)
    {cdw11 cdw12 cdw13 : UInt32} {u64data : ℕ → UInt64} (henc : c.Encodes l0 l1 lt)
    (hsent : (passthruHeaan c).2 = .sent cdw11 cdw12 cdw13 u64data)
    (hfit : 3 + 2 * (l0.extents.length + l1.extents.length + lt.extents.length)
      ≤ heaanDataLen / 8)
    (hdev : ∀ x ∈ l0.extents ++ l1.extents ++ lt.extents,
      x.lbaStart.toNat + x.lbaCount.toNat ≤ d.blockcnt.toNat * d.blocklen.toNat) :
    (∃ p, Understands (.received d cdw11 cdw12 cdw13 u64data behind) l0 l1 lt p) ↔
      l0.startOffset = 0 ∧ l1.startOffset = 0 ∧ total l0.segs < 2 ^ 64 ∧
        total l1.segs < 2 ^ 64 := by
  rw [henc.received_eq hsent]
  have hparse := @HeaanCall.request_parse c l0 l1 lt d behind hfit hdev
  rw [c.request_lists hfit] at hparse
  rw [l0.segs_eq, l1.segs_eq]
  constructor
  · rintro ⟨p, h⟩
    obtain rfl := ParseEnd.parsed.inj (h.parse.symm.trans hparse)
    refine ⟨(h.ctxInput0StartOffset Alloc.ok).symm, (h.ctxInput1StartOffset Alloc.ok).symm, ?_, ?_⟩
    · rw [← toNat_sum_length_iff, ← l0.segs_eq]
      exact h.ctxInput0TotalSize Alloc.ok
    · rw [← toNat_sum_length_iff, ← l1.segs_eq]
      exact h.ctxInput1TotalSize Alloc.ok
  · rintro ⟨h0, h1, hs0, hs1⟩
    refine ⟨_, hparse, rfl, rfl, rfl, rfl, rfl, rfl, fun _ => rfl, fun _ => ?_, fun _ => ?_,
      fun _ => h0.symm, fun _ => h1.symm⟩
    · rw [l0.segs_eq]
      exact (toNat_sum_length_iff _).mpr hs0
    · rw [l1.segs_eq]
      exact (toNat_sum_length_iff _).mpr hs1

/-- A file of one 512-byte extent that starts so many bytes into its first block. -/
def FileLayout.single (startOffset lbaStart : UInt64) : FileLayout :=
  ⟨startOffset, 512, [⟨0, lbaStart, 512, lbaStart, 512⟩], Nat.le_of_ble_eq_true rfl⟩

/-- Two inputs and a target of one block each, the first with this start offset. -/
def HeaanCall.ofStartOffset (startOffset : UInt64) : HeaanCall where
  input0 := some (.single startOffset 0)
  input1 := some (.single 0 512)
  target := some (.single 0 1024)

/-- On a device of 64 blocks, what is sent is understood. -/
theorem understands_sample : ∃ cdw11 cdw12 cdw13 u64data p,
    (passthruHeaan (.ofStartOffset 0)).2 = .sent cdw11 cdw12 cdw13 u64data ∧
      Understands (.received .sample cdw11 cdw12 cdw13 u64data fun _ => 0)
        (.single 0 0) (.single 0 512) (.single 0 1024) p := by
  obtain ⟨p, hp⟩ := (understands_iff (.ofStartOffset 0) (.single 0 0) (.single 0 512)
    (.single 0 1024) .sample (fun _ => 0) ⟨rfl, rfl, rfl, rfl, rfl, rfl⟩ rfl (by decide)
    (by decide)).mpr ⟨rfl, rfl, by decide +kernel, by decide +kernel⟩
  exact ⟨_, _, _, _, p, rfl, hp⟩

/-- An input that starts one byte into its first block: the context has start offset zero. -/
theorem not_understands_startOffset : ∃ cdw11 cdw12 cdw13 u64data,
    (passthruHeaan (.ofStartOffset 1)).2 = .sent cdw11 cdw12 cdw13 u64data ∧
      ¬ ∃ p, Understands (.received .sample cdw11 cdw12 cdw13 u64data fun _ => 0)
        (.single 1 0) (.single 0 512) (.single 0 1024) p := by
  refine ⟨_, _, _, _, rfl, ?_⟩
  rintro ⟨p, h⟩
  have hoffset : (0 : UInt64) = 1 := h.ctxInput0StartOffset Alloc.ok
  exact absurd hoffset (by decide)

end NdpHeaan
