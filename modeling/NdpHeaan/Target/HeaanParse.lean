import NdpHeaan.Target.Device

/-!
# Target/HeaanParse — the payload parser of HEaaN add

`nvmf_bdev_ctrlr_custom_heaan_cipadd_cmd` reads three extent lists through one cursor `bufnum`:

    start₀ (off len)^cdw11  start₁ (off len)^cdw12  startₜ (off len)^cdw13

The words come from `iov[0].iov_base`, whatever `iov[0].iov_len` is.  So the payload is modelled as
the *memory* from that address on, a total function on word indices, and the parser records the
indices it reads.
-/

namespace NdpHeaan

/-- One entry of `req->iov`. -/
structure Iovec where
  /-- `iov_base` is not `NULL`. -/
  base : Bool
  /-- `iov_len`, in bytes. -/
  len : ℕ
  deriving DecidableEq, Repr

/-- `NVMF_REQ_MAX_BUFFERS`, that is `SPDK_NVMF_MAX_SGL_ENTRIES * 2 + 1`. -/
def nvmfReqMaxBuffers : ℕ := 16 * 2 + 1

/-- What HEaaN add reads of its request and of the device it is addressed to. -/
structure HeaanReq where
  /-- The namespace's device. -/
  bdev : Bdev
  /-- `cdw11`: the extents of the first input. -/
  cdw11 : UInt32
  /-- `cdw12`: the extents of the second input. -/
  cdw12 : UInt32
  /-- `cdw13`: the extents of the target. -/
  cdw13 : UInt32
  /-- `req->iov[0 .. iovcnt)`. -/
  iov : List Iovec
  /-- The entries share out a 32-bit SGL length. -/
  iov_lt : ∀ v ∈ iov, v.len < 2 ^ 32
  /-- The memory from `iov[0].iov_base` on, in 64-bit words. -/
  u64data : ℕ → UInt64

namespace HeaanReq

/-- `req->iov[0].iov_len`. -/
def iovLen (r : HeaanReq) : ℕ := (r.iov.head?.map Iovec.len).getD 0

/-- `req->iov[0].iov_base != NULL`. -/
def iovBase (r : HeaanReq) : Bool := (r.iov.head?.map Iovec.base).getD false

theorem iovLen_lt (r : HeaanReq) : r.iovLen < 2 ^ 32 := by
  unfold iovLen
  cases h : r.iov with
  | nil => decide
  | cons v vs => exact r.iov_lt v (by simp [h])

/-- The data buffer validity check: `total_data_len` is a 32-bit product. -/
def noData (r : HeaanReq) : Bool :=
  r.iovLen * nvmfReqMaxBuffers % 2 ^ 32 == 0 || r.iov.length == 0 || !r.iovBase

end HeaanReq

/-- A request with one data buffer, on a device of 512-byte blocks. -/
def HeaanReq.sample (blockcnt : UInt64) (len n0 n1 nt : UInt32) (words : List UInt64) :
    HeaanReq where
  bdev := ⟨blockcnt, 512, 1, Bdev.sample.blocklen_pos⟩
  cdw11 := n0
  cdw12 := n1
  cdw13 := nt
  iov := [⟨true, len.toNat⟩]
  iov_lt := by
    intro v hv
    obtain rfl := List.mem_singleton.mp hv
    exact len.toNat_lt
  u64data := fun k => words.getD k 0

/-! ## The three extent loops -/

/-- The locals of an extent loop, and the word indices read so far. -/
structure Scan where
  /-- The cursor. -/
  bufnum : UInt32 := 0
  /-- Every `u64data[k]` evaluated, in order. -/
  reads : List ℕ := []
  /-- The extent array filled so far. -/
  exts : List Extent := []
  /-- The running `size`. -/
  size : UInt64 := 0
  /-- `false` once the loop has left through the "end of media" return. -/
  inRange : Bool := true

/-- The extent at a cursor. -/
def extAt (u64data : ℕ → UInt64) (b : UInt32) : Extent :=
  ⟨u64data b.toNat, u64data (b + 1).toNat⟩

/-- One extent loop: the range check reads two words, the body reads them again. -/
def extentLoop (d : Bdev) (u64data : ℕ → UInt64) : ℕ → Scan → Scan
  | 0, s => s
  | n + 1, s =>
    let b := s.bufnum
    let e := extAt u64data b
    if d.extentInRange e then
      extentLoop d u64data n
        { bufnum := b + 2
          reads := s.reads ++
            [b.toNat, (b + 1).toNat, b.toNat, (b + 1).toNat, (b + 1).toNat]
          exts := s.exts ++ [e]
          size := s.size + e.length
          inRange := true }
    else
      { s with reads := s.reads ++ [b.toNat, (b + 1).toNat], inRange := false }

/-- A start offset is one word; the loop behind it starts on an empty array. -/
def Scan.startOffset (s : Scan) : Scan :=
  { bufnum := s.bufnum + 1, reads := s.reads ++ [s.bufnum.toNat] }

/-- What a payload without an out-of-range extent parses to. -/
structure Parsed where
  input0StartOffset : UInt64
  input0Ext : List Extent
  input0Size : UInt64
  input1StartOffset : UInt64
  input1Ext : List Extent
  input1Size : UInt64
  targetStartOffset : UInt64
  targetExt : List Extent
  targetSize : UInt64
  deriving DecidableEq, Repr

/-- How the parser ends. -/
inductive ParseEnd
  /-- All three lists were in range. -/
  | parsed (p : Parsed)
  /-- "end of media", with this many target extents already stored in `ctx->target_ext`. -/
  | endOfMedia (stored : ℕ)
  deriving DecidableEq, Repr

namespace HeaanReq

/-- The loop over the first input's extents. -/
def scan0 (r : HeaanReq) : Scan :=
  extentLoop r.bdev r.u64data r.cdw11.toNat ({} : Scan).startOffset

/-- The loop over the second input's extents. -/
def scan1 (r : HeaanReq) : Scan :=
  extentLoop r.bdev r.u64data r.cdw12.toNat r.scan0.startOffset

/-- The loop over the target's extents. -/
def scanT (r : HeaanReq) : Scan :=
  extentLoop r.bdev r.u64data r.cdw13.toNat r.scan1.startOffset

end HeaanReq

/-- The parser: the word indices it read, and how it ended. -/
def heaanParse (r : HeaanReq) : List ℕ × ParseEnd :=
  if !r.scan0.inRange then (r.scan0.reads, .endOfMedia 0) else
  if !r.scan1.inRange then (r.scan1.reads, .endOfMedia 0) else
  if !r.scanT.inRange then (r.scanT.reads, .endOfMedia r.scanT.exts.length) else
  (r.scanT.reads, .parsed
    { input0StartOffset := r.u64data 0
      input0Ext := r.scan0.exts
      input0Size := r.scan0.size
      input1StartOffset := r.u64data r.scan0.bufnum.toNat
      input1Ext := r.scan1.exts
      input1Size := r.scan1.size
      targetStartOffset := r.u64data r.scan1.bufnum.toNat
      targetExt := r.scanT.exts
      targetSize := r.scanT.size })

/-- The payload words the handler reads: none where the buffer check rejects the command first. -/
def heaanReads (r : HeaanReq) : List ℕ := if r.noData then [] else (heaanParse r).1

/-! ## What a loop computes

Stated on natural-number positions; the 32-bit cursor agrees with them as long as it does not
wrap. -/

/-- `n` extents from word `b` on. -/
def extsAt (u64data : ℕ → UInt64) : ℕ → ℕ → List Extent
  | _, 0 => []
  | b, n + 1 => ⟨u64data b, u64data (b + 1)⟩ :: extsAt u64data (b + 2) n

@[simp] theorem length_extsAt (u64data : ℕ → UInt64) :
    ∀ b n, (extsAt u64data b n).length = n
  | _, 0 => rfl
  | b, n + 1 => by rw [extsAt, List.length_cons, length_extsAt u64data (b + 2) n]

/-- The number of words an extent loop looks at: two for each extent, up to and including the first
one out of range. -/
def extentWords (d : Bdev) (u64data : ℕ → UInt64) : ℕ → ℕ → ℕ
  | _, 0 => 0
  | b, n + 1 =>
    if d.extentInRange ⟨u64data b, u64data (b + 1)⟩ then 2 + extentWords d u64data (b + 2) n else 2

variable {d : Bdev} {u64data : ℕ → UInt64}

theorem extentWords_of_all : ∀ {b n : ℕ},
    (extsAt u64data b n).all d.extentInRange = true → extentWords d u64data b n = 2 * n
  | _, 0, _ => rfl
  | b, n + 1, h => by
      rw [extsAt, List.all_cons, Bool.and_eq_true] at h
      rw [extentWords, if_pos h.1, extentWords_of_all h.2]
      omega

theorem toNat_extAt_succ {b : UInt32} (hb : b.toNat + 1 < 2 ^ 32) :
    (b + 1).toNat = b.toNat + 1 := by
  rw [UInt32.toNat_add, UInt32.toNat_one, Nat.mod_eq_of_lt hb]

/-- Below the wrap, the cursor's extent is the one at its position. -/
theorem extAt_eq {b : UInt32} (hb : b.toNat + 1 < 2 ^ 32) :
    extAt u64data b = ⟨u64data b.toNat, u64data (b.toNat + 1)⟩ := by
  rw [extAt, toNat_extAt_succ hb]

theorem toNat_add_two {b : UInt32} (hb : b.toNat + 2 < 2 ^ 32) : (b + 2).toNat = b.toNat + 2 := by
  rw [UInt32.toNat_add]
  exact Nat.mod_eq_of_lt hb

/-- **The specification of an extent loop**, from a scan `s` to a scan `t`. -/
structure Scanned (d : Bdev) (u64data : ℕ → UInt64) (n : ℕ) (s t : Scan) : Prop where
  /-- The loop runs through exactly when all its extents are in range. -/
  inRange : t.inRange = (extsAt u64data s.bufnum.toNat n).all d.extentInRange
  /-- It looks at no word behind the ones it needs. -/
  reads : ∀ k ∈ t.reads,
    k ∈ s.reads ∨ k < s.bufnum.toNat + extentWords d u64data s.bufnum.toNat n
  /-- The cursor then stands behind the list. -/
  bufnum : t.inRange = true → t.bufnum.toNat = s.bufnum.toNat + 2 * n
  /-- The array holds the list, in order. -/
  exts : t.inRange = true → t.exts = s.exts ++ extsAt u64data s.bufnum.toNat n
  /-- The size is the 64-bit sum of the lengths. -/
  size : t.inRange = true →
    t.size = s.size + ((extsAt u64data s.bufnum.toNat n).map Extent.length).sum

/-- **An extent loop meets its specification** as long as the cursor does not wrap. -/
theorem scanned_extentLoop : ∀ (n : ℕ) (s : Scan), s.inRange = true →
    s.bufnum.toNat + extentWords d u64data s.bufnum.toNat n < 2 ^ 32 →
      Scanned d u64data n s (extentLoop d u64data n s)
  | 0, s, hs, _ => by
      refine ⟨hs, fun k hk => Or.inl hk, fun _ => rfl, fun _ => ?_, fun _ => ?_⟩
      · simp [extentLoop, extsAt]
      · simp [extentLoop, extsAt]
  | n + 1, s, hs, hw => by
      have hb : s.bufnum.toNat + 2 < 2 ^ 32 := by
        rw [extentWords] at hw
        split at hw <;> omega
      have he : extAt u64data s.bufnum = _ := extAt_eq (Nat.lt_of_succ_lt hb)
      have hsucc := toNat_extAt_succ (Nat.lt_of_succ_lt hb)
      rw [extentLoop]
      simp only [he]
      by_cases hr : d.extentInRange ⟨u64data s.bufnum.toNat, u64data (s.bufnum.toNat + 1)⟩ = true
      · rw [if_pos hr]
        rw [extentWords, if_pos hr] at hw
        have htwo := toNat_add_two hb
        have ih := scanned_extentLoop n
          { bufnum := s.bufnum + 2
            reads := s.reads ++ [s.bufnum.toNat, (s.bufnum + 1).toNat, s.bufnum.toNat,
              (s.bufnum + 1).toNat, (s.bufnum + 1).toNat]
            exts := s.exts ++ [⟨u64data s.bufnum.toNat, u64data (s.bufnum.toNat + 1)⟩]
            size := s.size + u64data (s.bufnum.toNat + 1)
            inRange := true } rfl (by rw [htwo]; omega)
        obtain ⟨hir, hreads, hbuf, hexts, hsize⟩ := ih
        simp only [htwo] at hir hreads hbuf hexts hsize
        refine ⟨?_, fun k hk => ?_, fun h => ?_, fun h => ?_, fun h => ?_⟩
        · rw [hir, extsAt, List.all_cons, hr, Bool.true_and]
        · rw [extentWords, if_pos hr]
          rcases hreads k hk with hk | hk
          · simp only [List.mem_append, List.mem_cons, List.not_mem_nil, or_false, hsucc] at hk
            rcases hk with hk | hk
            · exact Or.inl hk
            · exact Or.inr (by omega)
          · exact Or.inr (by omega)
        · rw [hbuf h]
          omega
        · rw [hexts h, extsAt, List.append_assoc, List.singleton_append]
        · rw [hsize h, extsAt, List.map_cons, List.sum_cons, UInt64.add_assoc]
      · rw [if_neg hr]
        refine ⟨?_, fun k hk => ?_, fun h => ?_, fun h => ?_, fun h => ?_⟩
        · rw [extsAt, List.all_cons, Bool.eq_false_iff.mpr hr, Bool.false_and]
        · rw [extentWords, if_neg hr]
          simp only [List.mem_append, List.mem_cons, List.not_mem_nil, or_false, hsucc] at hk
          rcases hk with hk | hk
          · exact Or.inl hk
          · exact Or.inr (by omega)
        · exact absurd h Bool.false_ne_true
        · exact absurd h Bool.false_ne_true
        · exact absurd h Bool.false_ne_true

/-- A loop that runs through has filled its array, wrapped cursor or not. -/
theorem length_exts_extentLoop : ∀ (n : ℕ) (s : Scan), (extentLoop d u64data n s).inRange = true →
    (extentLoop d u64data n s).exts.length = s.exts.length + n
  | 0, _, _ => rfl
  | n + 1, s, h => by
      rw [extentLoop] at h ⊢
      split at h
      · rename_i hr
        rw [if_pos hr, length_exts_extentLoop n _ h, List.length_append, List.length_singleton]
        omega
      · exact absurd h Bool.false_ne_true

/-- A loop stores only extents that pass the range check, wrapped cursor or not. -/
theorem extentInRange_of_mem_extentLoop : ∀ (n : ℕ) (s : Scan) {e : Extent},
    e ∈ (extentLoop d u64data n s).exts → e ∈ s.exts ∨ d.extentInRange e = true
  | 0, _, _, h => Or.inl h
  | n + 1, s, e, h => by
      rw [extentLoop] at h
      split at h
      · rename_i hr
        refine (extentInRange_of_mem_extentLoop n _ h).elim (fun h => ?_) Or.inr
        refine (List.mem_append.mp h).imp_right fun h => ?_
        obtain rfl := List.mem_singleton.mp h
        exact hr
      · exact Or.inl h

/-- A loop forgets no read. -/
theorem mem_reads_extentLoop : ∀ (n : ℕ) (s : Scan) {k : ℕ}, k ∈ s.reads →
    k ∈ (extentLoop d u64data n s).reads
  | 0, _, _, h => h
  | n + 1, s, k, h => by
      rw [extentLoop]
      split
      · exact mem_reads_extentLoop n _ (List.mem_append_left _ h)
      · exact List.mem_append_left _ h

/-- **A loop reads every word it needs**, up to the wrap of the cursor. -/
theorem mem_reads_of_lt : ∀ (n : ℕ) (s : Scan) {k : ℕ}, s.bufnum.toNat ≤ k →
    k < s.bufnum.toNat + extentWords d u64data s.bufnum.toNat n → k < 2 ^ 32 →
      k ∈ (extentLoop d u64data n s).reads
  | 0, s, k, h1, h2, _ => by
      rw [extentWords] at h2
      omega
  | n + 1, s, k, h1, h2, h3 => by
      have hfirst : ∀ l : List ℕ, k < s.bufnum.toNat + 2 →
          k ∈ s.reads ++ s.bufnum.toNat :: (s.bufnum + 1).toNat :: l := by
        intro l hk
        rcases Nat.lt_or_ge s.bufnum.toNat k with hlt | hge
        · obtain rfl : k = s.bufnum.toNat + 1 := by omega
          rw [toNat_extAt_succ h3]
          simp
        · obtain rfl : k = s.bufnum.toNat := by omega
          simp
      rw [extentLoop]
      by_cases hk : k < s.bufnum.toNat + 2
      · -- the words of this extent are read by the range check, whatever it says
        split
        · exact mem_reads_extentLoop n _ (hfirst _ hk)
        · exact hfirst _ hk
      · have hb : s.bufnum.toNat + 2 < 2 ^ 32 := by omega
        rw [extentWords, ← extAt_eq (Nat.lt_of_succ_lt hb)] at h2
        split
        · rename_i hr
          rw [if_pos hr] at h2
          refine mem_reads_of_lt n _ ?_ ?_ h3
          · simp only [toNat_add_two hb]
            omega
          · simp only [toNat_add_two hb]
            omega
        · rename_i hr
          rw [if_neg hr] at h2
          omega

/-! ## What the parser computes -/

namespace HeaanReq

variable (r : HeaanReq)

/-- The first input's extent list, as the payload's memory has it. -/
def input0List : List Extent := extsAt r.u64data 1 r.cdw11.toNat

/-- The second input's extent list. -/
def input1List : List Extent := extsAt r.u64data (2 + 2 * r.cdw11.toNat) r.cdw12.toNat

/-- The target's extent list. -/
def targetList : List Extent :=
  extsAt r.u64data (3 + 2 * r.cdw11.toNat + 2 * r.cdw12.toNat) r.cdw13.toNat

/-- The words of the three lists and their start offsets. -/
def payloadWords : ℕ := 3 + 2 * (r.cdw11.toNat + r.cdw12.toNat + r.cdw13.toNat)

/-- The words up to the end of the lists, or up to the first extent that is out of range. -/
def wordsNeeded : ℕ :=
  if !r.input0List.all r.bdev.extentInRange then
    1 + extentWords r.bdev r.u64data 1 r.cdw11.toNat
  else if !r.input1List.all r.bdev.extentInRange then
    2 + 2 * r.cdw11.toNat +
      extentWords r.bdev r.u64data (2 + 2 * r.cdw11.toNat) r.cdw12.toNat
  else
    3 + 2 * r.cdw11.toNat + 2 * r.cdw12.toNat +
      extentWords r.bdev r.u64data (3 + 2 * r.cdw11.toNat + 2 * r.cdw12.toNat) r.cdw13.toNat

variable {r}

/-- The loop behind a start offset at word `b` looks at the list from word `b + 1` on. -/
theorem scanned_startOffset {s : Scan} {b n : ℕ} (hs : s.bufnum.toNat = b)
    (hw : b + 1 + extentWords d u64data (b + 1) n < 2 ^ 32) :
    s.startOffset.bufnum.toNat = b + 1 ∧
      Scanned d u64data n s.startOffset (extentLoop d u64data n s.startOffset) := by
  have hb : s.startOffset.bufnum.toNat = b + 1 := by
    rw [Scan.startOffset, toNat_extAt_succ (by omega), hs]
  exact ⟨hb, scanned_extentLoop _ _ rfl (by rw [hb]; exact hw)⟩

theorem scan0_scanned (hw : 1 + extentWords r.bdev r.u64data 1 r.cdw11.toNat < 2 ^ 32) :
    Scanned r.bdev r.u64data r.cdw11.toNat ({} : Scan).startOffset r.scan0 :=
  (scanned_startOffset (s := {}) (b := 0) rfl (by simpa using hw)).2

/-- The first list read through: where the cursor stands, and what was read. -/
theorem scan0_of_all (hall : r.input0List.all r.bdev.extentInRange = true)
    (hw : 1 + 2 * r.cdw11.toNat < 2 ^ 32) :
    r.scan0.inRange = true ∧ r.scan0.bufnum.toNat = 1 + 2 * r.cdw11.toNat ∧
      r.scan0.exts = r.input0List ∧ r.scan0.size = (r.input0List.map Extent.length).sum := by
  have hs := scan0_scanned (r := r) (by rw [extentWords_of_all hall]; exact hw)
  have hir : r.scan0.inRange = true := hs.inRange.trans hall
  refine ⟨hir, hs.bufnum hir, hs.exts hir, ?_⟩
  rw [hs.size hir]
  exact UInt64.zero_add _

theorem scan1_scanned (hall : r.input0List.all r.bdev.extentInRange = true)
    (hw : 2 + 2 * r.cdw11.toNat +
      extentWords r.bdev r.u64data (2 + 2 * r.cdw11.toNat) r.cdw12.toNat < 2 ^ 32) :
    r.scan0.startOffset.bufnum.toNat = 2 + 2 * r.cdw11.toNat ∧
      Scanned r.bdev r.u64data r.cdw12.toNat r.scan0.startOffset r.scan1 := by
  have hb := (scan0_of_all hall (by omega)).2.1
  rw [show 2 + 2 * r.cdw11.toNat = 1 + 2 * r.cdw11.toNat + 1 by omega] at hw ⊢
  exact scanned_startOffset hb hw

/-- The second list read through. -/
theorem scan1_of_all (hall0 : r.input0List.all r.bdev.extentInRange = true)
    (hall1 : r.input1List.all r.bdev.extentInRange = true)
    (hw : 2 + 2 * r.cdw11.toNat + 2 * r.cdw12.toNat < 2 ^ 32) :
    r.scan1.inRange = true ∧
      r.scan1.bufnum.toNat = 2 + 2 * r.cdw11.toNat + 2 * r.cdw12.toNat ∧
      r.scan1.exts = r.input1List ∧ r.scan1.size = (r.input1List.map Extent.length).sum := by
  obtain ⟨hb, hs⟩ := scan1_scanned hall0 (by rw [extentWords_of_all hall1]; exact hw)
  obtain ⟨hir, -, hbuf, hexts, hsize⟩ := hs
  rw [hb] at hir hbuf hexts hsize
  have htrue : r.scan1.inRange = true := hir.trans hall1
  refine ⟨htrue, hbuf htrue, hexts htrue, ?_⟩
  rw [hsize htrue]
  exact UInt64.zero_add _

theorem scanT_scanned (hall0 : r.input0List.all r.bdev.extentInRange = true)
    (hall1 : r.input1List.all r.bdev.extentInRange = true)
    (hw : 3 + 2 * r.cdw11.toNat + 2 * r.cdw12.toNat +
      extentWords r.bdev r.u64data (3 + 2 * r.cdw11.toNat + 2 * r.cdw12.toNat) r.cdw13.toNat
        < 2 ^ 32) :
    r.scan1.startOffset.bufnum.toNat = 3 + 2 * r.cdw11.toNat + 2 * r.cdw12.toNat ∧
      Scanned r.bdev r.u64data r.cdw13.toNat r.scan1.startOffset r.scanT := by
  have hb := (scan1_of_all hall0 hall1 (by omega)).2.1
  rw [show 3 + 2 * r.cdw11.toNat + 2 * r.cdw12.toNat
    = 2 + 2 * r.cdw11.toNat + 2 * r.cdw12.toNat + 1 by omega] at hw ⊢
  exact scanned_startOffset hb hw

/-- The target's list read through. -/
theorem scanT_of_all (hall0 : r.input0List.all r.bdev.extentInRange = true)
    (hall1 : r.input1List.all r.bdev.extentInRange = true)
    (hallT : r.targetList.all r.bdev.extentInRange = true)
    (hw : r.payloadWords < 2 ^ 32) :
    r.scanT.inRange = true ∧ r.scanT.exts = r.targetList ∧
      r.scanT.size = (r.targetList.map Extent.length).sum := by
  rw [payloadWords] at hw
  obtain ⟨hb, hs⟩ := scanT_scanned hall0 hall1 (by rw [extentWords_of_all hallT]; omega)
  obtain ⟨hir, -, hbuf, hexts, hsize⟩ := hs
  rw [hb] at hir hbuf hexts hsize
  have htrue : r.scanT.inRange = true := hir.trans hallT
  refine ⟨htrue, hexts htrue, ?_⟩
  rw [hsize htrue]
  exact UInt64.zero_add _

end HeaanReq

/-- What the payload says: start offsets, extents in order, and the 64-bit sums of the lengths. -/
def HeaanReq.parsed (r : HeaanReq) : Parsed where
  input0StartOffset := r.u64data 0
  input0Ext := r.input0List
  input0Size := (r.input0List.map Extent.length).sum
  input1StartOffset := r.u64data (1 + 2 * r.cdw11.toNat)
  input1Ext := r.input1List
  input1Size := (r.input1List.map Extent.length).sum
  targetStartOffset := r.u64data (2 + 2 * r.cdw11.toNat + 2 * r.cdw12.toNat)
  targetExt := r.targetList
  targetSize := (r.targetList.map Extent.length).sum

/-- **A payload in range parses to what it says.** -/
theorem heaanParse_of_all {r : HeaanReq} (hall0 : r.input0List.all r.bdev.extentInRange = true)
    (hall1 : r.input1List.all r.bdev.extentInRange = true)
    (hallT : r.targetList.all r.bdev.extentInRange = true)
    (hw : r.payloadWords < 2 ^ 32) : (heaanParse r).2 = .parsed r.parsed := by
  have hw' := hw
  rw [HeaanReq.payloadWords] at hw'
  obtain ⟨hir0, hbuf0, hexts0, hsize0⟩ := HeaanReq.scan0_of_all hall0 (by omega)
  obtain ⟨hir1, hbuf1, hexts1, hsize1⟩ := HeaanReq.scan1_of_all hall0 hall1 (by omega)
  obtain ⟨hirT, hextsT, hsizeT⟩ := HeaanReq.scanT_of_all hall0 hall1 hallT hw
  simp only [heaanParse, HeaanReq.parsed, hir0, hir1, hirT, hbuf0, hbuf1, hexts0, hexts1, hextsT,
    hsize0, hsize1, hsizeT, Bool.not_true, Bool.false_eq_true, if_false]

/-- A parsed payload has as many extents as the command says. -/
theorem length_of_parsed {r : HeaanReq} {p : Parsed} (h : (heaanParse r).2 = .parsed p) :
    p.input0Ext.length = r.cdw11.toNat ∧ p.input1Ext.length = r.cdw12.toNat ∧
      p.targetExt.length = r.cdw13.toNat := by
  unfold heaanParse at h
  split_ifs at h with h0 h1 hT
  obtain rfl := ParseEnd.parsed.inj h
  simp only [Bool.not_eq_true, Bool.not_eq_false'] at h0 h1 hT
  refine ⟨?_, ?_, ?_⟩
  · rw [HeaanReq.scan0, length_exts_extentLoop _ _ h0]
    exact Nat.zero_add _
  · rw [HeaanReq.scan1, length_exts_extentLoop _ _ h1]
    exact Nat.zero_add _
  · rw [HeaanReq.scanT, length_exts_extentLoop _ _ hT]
    exact Nat.zero_add _

/-- …all of which passed the range check. -/
theorem extentInRange_of_parsed {r : HeaanReq} {p : Parsed} (h : (heaanParse r).2 = .parsed p) :
    ∀ e ∈ p.input0Ext ++ p.input1Ext ++ p.targetExt, r.bdev.extentInRange e = true := by
  unfold heaanParse at h
  split_ifs at h with h0 h1 hT
  obtain rfl := ParseEnd.parsed.inj h
  have hloop : ∀ (n : ℕ) (s : Scan) (e : Extent),
      e ∈ (extentLoop r.bdev r.u64data n s.startOffset).exts → r.bdev.extentInRange e = true :=
    fun n s e he => (extentInRange_of_mem_extentLoop n _ he).elim (fun h => by cases h) id
  intro e he
  rcases List.mem_append.mp he with he | he
  · exact (List.mem_append.mp he).elim (hloop _ _ e) (hloop _ _ e)
  · exact hloop _ _ e he

/-! ## Which words the parser reads

Nothing of `iov[0].iov_len` enters the loops, so the parser reads exactly the words it needs:
`HeaanReq.wordsNeeded`, from word 0 on. -/

namespace HeaanReq

variable {r : HeaanReq}

theorem mem_startOffset_reads {s : Scan} {k : ℕ} :
    k ∈ s.startOffset.reads ↔ k ∈ s.reads ∨ k = s.bufnum.toNat := by
  rw [Scan.startOffset, List.mem_append, List.mem_singleton]

theorem mem_scan1_of_scan0 {k : ℕ} (h : k ∈ r.scan0.startOffset.reads) : k ∈ r.scan1.reads :=
  mem_reads_extentLoop _ _ h

theorem mem_scanT_of_scan1 {k : ℕ} (h : k ∈ r.scan1.startOffset.reads) : k ∈ r.scanT.reads :=
  mem_reads_extentLoop _ _ h

/-- The reads of the first loop are among the parser's. -/
theorem mem_parse_of_scan0 {k : ℕ} (h : k ∈ r.scan0.reads) : k ∈ (heaanParse r).1 := by
  have h1 : k ∈ r.scan1.reads := mem_scan1_of_scan0 (mem_startOffset_reads.mpr (Or.inl h))
  have hT : k ∈ r.scanT.reads := mem_scanT_of_scan1 (mem_startOffset_reads.mpr (Or.inl h1))
  unfold heaanParse
  split_ifs <;> assumption

/-- …and those of the second, if it is entered. -/
theorem mem_parse_of_scan1 (h0 : r.scan0.inRange = true) {k : ℕ} (h : k ∈ r.scan1.reads) :
    k ∈ (heaanParse r).1 := by
  have hT : k ∈ r.scanT.reads := mem_scanT_of_scan1 (mem_startOffset_reads.mpr (Or.inl h))
  unfold heaanParse
  rw [h0]
  simp only [Bool.not_true, Bool.false_eq_true, if_false]
  split_ifs <;> assumption

/-- …and those of the third. -/
theorem mem_parse_of_scanT (h0 : r.scan0.inRange = true) (h1 : r.scan1.inRange = true) {k : ℕ}
    (h : k ∈ r.scanT.reads) : k ∈ (heaanParse r).1 := by
  unfold heaanParse
  rw [h0, h1]
  simp only [Bool.not_true, Bool.false_eq_true, if_false]
  split_ifs <;> assumption

/-- The reads of the first loop stay inside the words it needs. -/
theorem lt_of_mem_scan0 (hw : 1 + extentWords r.bdev r.u64data 1 r.cdw11.toNat < 2 ^ 32) {k : ℕ}
    (h : k ∈ r.scan0.reads) : k < 1 + extentWords r.bdev r.u64data 1 r.cdw11.toNat := by
  rcases (scan0_scanned hw).reads k h with hk | hk
  · rcases mem_startOffset_reads.mp hk with hk | rfl
    · simp at hk
    · exact Nat.lt_add_right _ Nat.zero_lt_one
  · exact hk

/-- …and those of the second. -/
theorem lt_of_mem_scan1 (hall : r.input0List.all r.bdev.extentInRange = true)
    (hw : 2 + 2 * r.cdw11.toNat +
      extentWords r.bdev r.u64data (2 + 2 * r.cdw11.toNat) r.cdw12.toNat < 2 ^ 32) {k : ℕ}
    (h : k ∈ r.scan1.reads) : k < 2 + 2 * r.cdw11.toNat +
      extentWords r.bdev r.u64data (2 + 2 * r.cdw11.toNat) r.cdw12.toNat := by
  obtain ⟨hb, hs⟩ := scan1_scanned hall hw
  have hw0 := extentWords_of_all hall
  have hbuf := (scan0_of_all hall (by omega)).2.1
  rcases hs.reads k h with hk | hk
  · rcases mem_startOffset_reads.mp hk with hk | rfl
    · have := lt_of_mem_scan0 (by omega) hk
      omega
    · omega
  · rwa [hb] at hk

/-- …and those of the third. -/
theorem lt_of_mem_scanT (hall0 : r.input0List.all r.bdev.extentInRange = true)
    (hall1 : r.input1List.all r.bdev.extentInRange = true)
    (hw : 3 + 2 * r.cdw11.toNat + 2 * r.cdw12.toNat +
      extentWords r.bdev r.u64data (3 + 2 * r.cdw11.toNat + 2 * r.cdw12.toNat) r.cdw13.toNat
        < 2 ^ 32) {k : ℕ}
    (h : k ∈ r.scanT.reads) : k < 3 + 2 * r.cdw11.toNat + 2 * r.cdw12.toNat +
      extentWords r.bdev r.u64data (3 + 2 * r.cdw11.toNat + 2 * r.cdw12.toNat) r.cdw13.toNat := by
  obtain ⟨hb, hs⟩ := scanT_scanned hall0 hall1 hw
  have hw1 := extentWords_of_all hall1
  have hbuf := (scan1_of_all hall0 hall1 (by omega)).2.1
  rcases hs.reads k h with hk | hk
  · rcases mem_startOffset_reads.mp hk with hk | rfl
    · have := lt_of_mem_scan1 hall0 (by omega) hk
      omega
    · omega
  · rwa [hb] at hk

/-- **The parser reads no word behind the ones it needs**, short of a wrap of the cursor. -/
theorem lt_wordsNeeded_of_mem (hw : r.wordsNeeded < 2 ^ 32) {k : ℕ} (h : k ∈ (heaanParse r).1) :
    k < r.wordsNeeded := by
  unfold wordsNeeded at hw ⊢
  by_cases hall0 : r.input0List.all r.bdev.extentInRange = true
  · rw [hall0] at hw ⊢
    simp only [Bool.not_true, Bool.false_eq_true, if_false] at hw ⊢
    by_cases hall1 : r.input1List.all r.bdev.extentInRange = true
    · rw [hall1] at hw ⊢
      simp only [Bool.not_true, Bool.false_eq_true, if_false] at hw ⊢
      have hir0 := (scan0_of_all hall0 (by omega)).1
      have hir1 := (scan1_of_all hall0 hall1 (by omega)).1
      refine lt_of_mem_scanT hall0 hall1 hw ?_
      simp only [heaanParse, hir0, hir1, Bool.not_true, Bool.false_eq_true, if_false] at h
      split_ifs at h <;> exact h
    · rw [Bool.eq_false_iff.mpr hall1] at hw ⊢
      simp only [Bool.not_false, if_true] at hw ⊢
      have hir0 := (scan0_of_all hall0 (by omega)).1
      obtain ⟨hb, hs⟩ := scan1_scanned hall0 hw
      have hir1 : r.scan1.inRange = false := by
        rw [hs.inRange, hb]
        exact Bool.eq_false_iff.mpr hall1
      refine lt_of_mem_scan1 hall0 hw ?_
      simpa [heaanParse, hir0, hir1] using h
  · rw [Bool.eq_false_iff.mpr hall0] at hw ⊢
    simp only [Bool.not_false, if_true] at hw ⊢
    have hir0 : r.scan0.inRange = false :=
      (scan0_scanned hw).inRange.trans (Bool.eq_false_iff.mpr hall0)
    refine lt_of_mem_scan0 hw ?_
    simpa [heaanParse, hir0] using h

/-- **The parser reads every word it needs**, up to the wrap of the cursor. -/
theorem mem_of_lt_wordsNeeded {k : ℕ} (h : k < r.wordsNeeded) (hk : k < 2 ^ 32) :
    k ∈ (heaanParse r).1 := by
  have hfirst : k < 1 + extentWords r.bdev r.u64data 1 r.cdw11.toNat → k ∈ (heaanParse r).1 := by
    intro hlt
    refine mem_parse_of_scan0 ?_
    rcases Nat.eq_zero_or_pos k with rfl | hpos
    · exact mem_reads_extentLoop _ _ (by simp [Scan.startOffset])
    · exact mem_reads_of_lt _ _ hpos hlt hk
  unfold wordsNeeded at h
  by_cases hall0 : r.input0List.all r.bdev.extentInRange = true
  swap
  · rw [Bool.eq_false_iff.mpr hall0] at h
    exact hfirst (by simpa using h)
  rw [hall0] at h
  simp only [Bool.not_true, Bool.false_eq_true, if_false] at h
  have hw0 := extentWords_of_all hall0
  by_cases hlt0 : k < 1 + 2 * r.cdw11.toNat
  · exact hfirst (by omega)
  -- from here on the first loop has run through without wrapping
  obtain ⟨hir0, hbuf0, -, -⟩ := scan0_of_all hall0 (by omega)
  have hsecond : k < 2 + 2 * r.cdw11.toNat +
      extentWords r.bdev r.u64data (2 + 2 * r.cdw11.toNat) r.cdw12.toNat →
        k ∈ (heaanParse r).1 := by
    intro hlt
    refine mem_parse_of_scan1 hir0 ?_
    rcases Nat.eq_or_lt_of_le (Nat.le_of_not_lt hlt0) with heq | hgt
    · exact mem_scan1_of_scan0 (mem_startOffset_reads.mpr (Or.inr (by omega)))
    · have hb : r.scan0.startOffset.bufnum.toNat = 2 + 2 * r.cdw11.toNat := by
        rw [Scan.startOffset, toNat_extAt_succ (by omega), hbuf0]
        omega
      exact mem_reads_of_lt _ _ (by rw [hb]; omega) (by rw [hb]; exact hlt) hk
  by_cases hall1 : r.input1List.all r.bdev.extentInRange = true
  swap
  · rw [Bool.eq_false_iff.mpr hall1] at h
    exact hsecond (by simpa using h)
  rw [hall1] at h
  simp only [Bool.not_true, Bool.false_eq_true, if_false] at h
  have hw1 := extentWords_of_all hall1
  by_cases hlt1 : k < 2 + 2 * r.cdw11.toNat + 2 * r.cdw12.toNat
  · exact hsecond (by omega)
  obtain ⟨hir1, hbuf1, -, -⟩ := scan1_of_all hall0 hall1 (by omega)
  refine mem_parse_of_scanT hir0 hir1 ?_
  rcases Nat.eq_or_lt_of_le (Nat.le_of_not_lt hlt1) with heq | hgt
  · exact mem_scanT_of_scan1 (mem_startOffset_reads.mpr (Or.inr (by omega)))
  · have hb : r.scan1.startOffset.bufnum.toNat = 3 + 2 * r.cdw11.toNat + 2 * r.cdw12.toNat := by
      rw [Scan.startOffset, toNat_extAt_succ (by omega), hbuf1]
      omega
    exact mem_reads_of_lt _ _ (by rw [hb]; omega) (by rw [hb]; exact h) hk

end HeaanReq

/-- The parser stays inside the first buffer: a read of word `k` ends at byte `8 * (k + 1)`. -/
def ReadsInside (r : HeaanReq) : Prop := ∀ k ∈ heaanReads r, 8 * (k + 1) ≤ r.iovLen

/-- **The parser stays inside the first buffer exactly when** the buffer check rejects the command,
or the buffer holds every word up to the end of the lists or the first out-of-range extent. -/
theorem readsInside_iff (r : HeaanReq) :
    ReadsInside r ↔ r.noData = true ∨ 8 * r.wordsNeeded ≤ r.iovLen := by
  unfold ReadsInside heaanReads
  have hlen := r.iovLen_lt
  by_cases hnd : r.noData = true
  · simp [hnd]
  · simp only [hnd, if_false, false_or, Bool.false_eq_true]
    constructor
    · intro h
      by_contra hlt
      -- the first word that does not fit is needed, hence read
      have hmem := HeaanReq.mem_of_lt_wordsNeeded (r := r) (k := r.iovLen / 8) (by omega) (by omega)
      have := h _ hmem
      omega
    · intro h k hk
      have := HeaanReq.lt_wordsNeeded_of_mem (by omega) hk
      omega

/-- An 8-byte buffer and three empty lists: the second start offset is read from behind it. -/
theorem not_readsInside_sample : ¬ ReadsInside (.sample 64 8 0 0 0 []) := by
  intro h
  exact absurd (h 1 (by decide)) (by decide)

end NdpHeaan
