import NdpHeaan.Target.HeaanSafe

/-!
# Target/HeaanAlloc — what HEaaN add does when an allocation fails

The handler makes up to five allocations: the context, the copy of the target extents, and a DMA
buffer for each file.  None is checked.  Without the context the handler goes through a `NULL`
pointer, without a buffer it submits its reads all the same, and `ctx->target_ext` is freed nowhere
(`targetExt_never_freed`), so a command that got it loses it however it ends.

What is left (`heaan_survives_iff`) are the commands that fail to get `ctx->target_ext` and are
rejected before the first store to it.
-/

open Machinery

namespace NdpHeaan

/-! ## What surviving means -/

/-- Whether an allocation succeeds. -/
def Alloc.grants (al : Alloc) : Obj → Bool
  | .ctx => al.ctx
  | .targetExt => al.targetExt
  | .buf b => al.buf b

/-- The allocations of a command: the buffers only where the payload is in range. -/
def HeaanReq.allocates (r : HeaanReq) : Obj → Bool
  | .ctx | .targetExt => true
  | .buf _ =>
    match (heaanParse r).2 with
    | .parsed _ => !r.noData
    | .endOfMedia _ => false

/-- One of the allocations fails. -/
def HeaanReq.AllocFails (r : HeaanReq) (al : Alloc) : Prop :=
  ∃ o, r.allocates o = true ∧ al.grants o = false

/-- Everything allocated has been freed, once. -/
def FreedOnce (t : List Effect) : Prop :=
  ∀ o, .alloc o ∈ t → t.count (.free o) = 1

/-- **A log that survives a failed allocation.** -/
structure Survives (t : List Effect) : Prop where
  /-- The command is completed exactly once, with an error. -/
  answered : ∃ sc, sc ≠ .success ∧ completions .success t = [sc]
  /-- No I/O is issued. -/
  noIo : ∀ io rc, .submit io rc ∉ t
  /-- No `NULL` pointer is dereferenced… -/
  noDeref : .nullDeref ∉ t
  /-- …or passed to the library. -/
  noNullRead : ∀ b size offset, .readCiphertext b none size offset ∉ t
  noNullWrite : ∀ len, .writeCiphertext false len ∉ t
  freed : FreedOnce t

/-- Runs in which the handler's allocations end as `al` says. -/
def AllocatesAs (al : Alloc) (_ : St) : Label → Prop
  | .exec al' _ => al' = al
  | .deliver _ _ _ => True

/-- **A command survives its allocations**: if one fails, every state behind the handler's call has
a log as above; if none does, everything is freed once the command has completed. -/
def SurvivesAllocs (r : HeaanReq) (lib : HeaanLib) (disk : ℕ → UInt8) (al : Alloc) : Prop :=
  ∀ s, (heaanSys r lib disk).Reach (AllocatesAs al) s → s.handler ≠ .idle →
    (r.AllocFails al → Survives s.trace) ∧
    (¬ r.AllocFails al → .complete ∈ s.trace → FreedOnce s.trace)

/-! ## The parser's verdict, wrapped cursor or not -/

/-- The extents a loop comes to from a cursor on. -/
def extsFrom (u64data : ℕ → UInt64) : UInt32 → ℕ → List Extent
  | _, 0 => []
  | b, n + 1 => extAt u64data b :: extsFrom u64data (b + 2) n

section Loop

variable {d : Bdev} {u64data : ℕ → UInt64}

theorem inRange_extentLoop : ∀ (n : ℕ) (s : Scan), s.inRange = true →
    (extentLoop d u64data n s).inRange = (extsFrom u64data s.bufnum n).all d.extentInRange
  | 0, _, hs => hs
  | n + 1, s, hs => by
      rw [extentLoop, extsFrom, List.all_cons]
      by_cases he : d.extentInRange (extAt u64data s.bufnum) = true
      · rw [if_pos he, inRange_extentLoop n _ rfl, he, Bool.true_and]
      · rw [if_neg he, Bool.eq_false_iff.mpr he, Bool.false_and]

theorem bufnum_extentLoop : ∀ (n : ℕ) (s : Scan), (extentLoop d u64data n s).inRange = true →
    (extentLoop d u64data n s).bufnum = s.bufnum + 2 * UInt32.ofNat n
  | 0, s, _ => by
      rw [extentLoop]
      simp
  | n + 1, s, h => by
      rw [extentLoop] at h ⊢
      split at h
      · rename_i he
        rw [if_pos he, bufnum_extentLoop n _ h, UInt32.ofNat_add, UInt32.mul_add]
        change s.bufnum + 2 + 2 * UInt32.ofNat n = s.bufnum + (2 * UInt32.ofNat n + 2)
        rw [UInt32.add_assoc, UInt32.add_comm 2]
      · cases h

/-- A loop drops no extent it has stored. -/
theorem length_exts_le_extentLoop : ∀ (n : ℕ) (s : Scan),
    s.exts.length ≤ (extentLoop d u64data n s).exts.length
  | 0, _ => Nat.le_refl _
  | n + 1, s => by
      rw [extentLoop]
      split
      · refine Nat.le_trans ?_ (length_exts_le_extentLoop n _)
        rw [List.length_append]
        exact Nat.le_add_right ..
      · exact Nat.le_refl _

/-- A loop that is left early has stored nothing exactly when its first extent is out of range. -/
theorem length_exts_eq_zero_iff {n : ℕ} {s : Scan} (hexts : s.exts = []) (hs : s.inRange = true)
    (h : (extentLoop d u64data n s).inRange = false) :
    (extentLoop d u64data n s).exts.length = 0 ↔
      ((extsFrom u64data s.bufnum n).take 1).all d.extentInRange = false := by
  cases n with
  | zero =>
    rw [extentLoop, hs] at h
    cases h
  | succ n =>
    rw [extsFrom, List.take_succ_cons, List.take_zero, List.all_cons, List.all_nil, Bool.and_true,
      extentLoop]
    split
    · rename_i he
      refine iff_of_false (fun hlen => ?_) (fun hf => Bool.false_ne_true (hf.symm.trans he))
      have hle := Nat.le_trans (length_exts_le_extentLoop (d := d) n _) (Nat.le_of_eq hlen)
      rw [List.length_append] at hle
      exact Nat.not_succ_le_zero _ (Nat.le_trans (Nat.le_add_left ..) hle)
    · rename_i he
      rw [hexts]
      exact iff_of_true rfl (Bool.eq_false_iff.mpr he)

end Loop

namespace HeaanReq

variable (r : HeaanReq)

/-- The extents the parser comes to in the first input's list… -/
def exts0 : List Extent := extsFrom r.u64data 1 r.cdw11.toNat

/-- …in the second input's… -/
def exts1 : List Extent := extsFrom r.u64data (2 + 2 * r.cdw11) r.cdw12.toNat

/-- …and in the target's. -/
def extsT : List Extent := extsFrom r.u64data (3 + 2 * r.cdw11 + 2 * r.cdw12) r.cdw13.toNat

/-- The extents checked before the first store to `ctx->target_ext`. -/
def extsBeforeStore : List Extent := r.exts0 ++ r.exts1 ++ r.extsT.take 1

variable {r}

theorem scan0_inRange : r.scan0.inRange = r.exts0.all r.bdev.extentInRange :=
  inRange_extentLoop _ _ rfl

theorem scan1_bufnum (h0 : r.scan0.inRange = true) :
    r.scan0.startOffset.bufnum = 2 + 2 * r.cdw11 := by
  rw [Scan.startOffset, scan0, bufnum_extentLoop _ _ h0, UInt32.ofNat_toNat]
  change 1 + 2 * r.cdw11 + 1 = 1 + 1 + 2 * r.cdw11
  rw [UInt32.add_comm, UInt32.add_assoc]

theorem scan1_inRange (h0 : r.scan0.inRange = true) :
    r.scan1.inRange = r.exts1.all r.bdev.extentInRange := by
  rw [exts1, ← scan1_bufnum h0]
  exact inRange_extentLoop _ _ rfl

theorem scanT_bufnum (h0 : r.scan0.inRange = true) (h1 : r.scan1.inRange = true) :
    r.scan1.startOffset.bufnum = 3 + 2 * r.cdw11 + 2 * r.cdw12 := by
  rw [Scan.startOffset, scan1, bufnum_extentLoop _ _ h1, UInt32.ofNat_toNat, scan1_bufnum h0]
  change 2 + 2 * r.cdw11 + 2 * r.cdw12 + 1 = 1 + 2 + 2 * r.cdw11 + 2 * r.cdw12
  rw [UInt32.add_comm, UInt32.add_assoc 1 2, UInt32.add_assoc 1]

theorem scanT_inRange (h0 : r.scan0.inRange = true) (h1 : r.scan1.inRange = true) :
    r.scanT.inRange = r.extsT.all r.bdev.extentInRange := by
  rw [extsT, ← scanT_bufnum h0 h1]
  exact inRange_extentLoop _ _ rfl

/-- **The parser's verdict**: out of range before the first store, out of range behind it, or
parsed. -/
theorem heaanParse_cases (r : HeaanReq) :
    (r.extsBeforeStore.all r.bdev.extentInRange = false ∧ (heaanParse r).2 = .endOfMedia 0) ∨
    (r.extsBeforeStore.all r.bdev.extentInRange = true ∧
      r.extsT.all r.bdev.extentInRange = false ∧
      ∃ n, n ≠ 0 ∧ (heaanParse r).2 = .endOfMedia n) ∨
    (r.extsBeforeStore.all r.bdev.extentInRange = true ∧
      r.extsT.all r.bdev.extentInRange = true ∧ ∃ p, (heaanParse r).2 = .parsed p) := by
  have hall : r.extsBeforeStore.all r.bdev.extentInRange
      = (r.exts0.all r.bdev.extentInRange && r.exts1.all r.bdev.extentInRange &&
        (r.extsT.take 1).all r.bdev.extentInRange) := by
    rw [extsBeforeStore, List.all_append, List.all_append]
  rw [hall, ← scan0_inRange, heaanParse]
  cases h0 : r.scan0.inRange with
  | false => exact Or.inl ⟨rfl, rfl⟩
  | true =>
    rw [← scan1_inRange h0]
    cases h1 : r.scan1.inRange with
    | false => exact Or.inl ⟨rfl, rfl⟩
    | true =>
      rw [← scanT_inRange h0 h1]
      cases hT : r.scanT.inRange with
      | false =>
        -- the target's loop was left early: the first extent decides whether it has stored any
        have hlen : r.scanT.exts.length = 0 ↔ _ := length_exts_eq_zero_iff rfl rfl hT
        rw [scanT_bufnum h0 h1] at hlen
        cases hf : (r.extsT.take 1).all r.bdev.extentInRange with
        | false =>
          refine Or.inl ⟨rfl, ?_⟩
          change ParseEnd.endOfMedia r.scanT.exts.length = _
          rw [hlen.mpr hf]
        | true =>
          have hne : r.scanT.exts.length ≠ 0 := fun h =>
            Bool.false_ne_true ((hlen.mp h).symm.trans hf)
          exact Or.inr (Or.inl ⟨rfl, rfl, _, hne, rfl⟩)
      | true =>
        have hfirst : (r.extsT.take 1).all r.bdev.extentInRange = true := by
          rw [scanT_inRange h0 h1, List.all_eq_true] at hT
          exact List.all_eq_true.mpr fun e he => hT e (List.mem_of_mem_take he)
        rw [hfirst]
        exact Or.inr (Or.inr ⟨rfl, rfl, _, rfl⟩)

end HeaanReq

/-! ## `ctx->target_ext` is never freed -/

section NeverFreed

variable {r : HeaanReq} {lib : HeaanLib} {al : Alloc} {rc : ℕ → ℤ} {s s' : St}

@[simp] theorem free_targetExt_notMem_dmaFree (s : St) (b : Buf) :
    Effect.free .targetExt ∉ s.dmaFree b := fun h => by cases St.mem_dmaFree h

/-- Neither does the handler free it… -/
theorem free_targetExt_of_exec
    (h : .free .targetExt ∈ (nvmfBdevCtrlrCustomHeaanCipaddCmd r al rc s).trace) :
    .free .targetExt ∈ s.trace := by
  have halloc : .free .targetExt ∈ (r.allocated al s).trace → .free .targetExt ∈ s.trace :=
    fun h => (HeaanReq.mem_allocated h).elim id fun ⟨_, h⟩ => by cases h
  rcases exec_cases r al rc s with heq | heq | ⟨sc, -, heq⟩ | ⟨p, -, -, heq⟩
  · rw [heq] at h
    simpa [St.crash] using h
  · rw [heq] at h
    refine halloc ?_
    simpa [St.crash] using h
  · rw [heq] at h
    refine halloc ?_
    simpa [St.reject] using h
  · have hbuffers : .free .targetExt ∉ al.buffers := fun h => by
      obtain ⟨_, h⟩ := Alloc.mem_buffers h
      cases h
    have hreads : .free .targetExt ∉ (submitReads rc 0 p.reads).effects := fun h => by
      obtain ⟨_, -, _, h⟩ := mem_submitReads h
      cases h
    rw [heq, execParsed] at h
    refine halloc ?_
    split at h
    · simpa [hbuffers, hreads] using h
    · simpa [hbuffers, hreads] using h

/-- …nor does a callback. -/
theorem free_targetExt_of_runCallback {io : Io} {success : Bool}
    (h : .free .targetExt ∈ (runCallback lib rc io success s).trace) :
    .free .targetExt ∈ s.trace := by
  have hcount : .free .targetExt ∈ (countDown io success s).trace → .free .targetExt ∈ s.trace := by
    rw [countDown_trace]
    cases success <;> simp
  unfold runCallback at h
  split at h
  · rcases fillComplete_cases lib rc io success s with ⟨-, heq⟩ | ⟨-, heq⟩ | ⟨-, heq⟩
    · exact hcount (heq ▸ h)
    · rw [heq, fillDone] at h
      refine hcount ?_
      split at h
      · simpa [addFailed, readInputs] using h
      · have hwrites : ∀ ios, .free .targetExt ∉ (submitWrites rc 0 ios).effects := fun ios h => by
          obtain ⟨_, -, _, h⟩ := mem_submitWrites h
          cases h
        simpa [hwrites, readInputs] using h
    · rw [heq] at h
      refine hcount ?_
      simpa [fillFailed] using h
  · rcases writeComplete_cases io success s with ⟨-, heq⟩ | ⟨-, heq⟩ | ⟨-, heq⟩
    · exact hcount (heq ▸ h)
    · rw [heq] at h
      refine hcount ?_
      simpa [writeDone] using h
    · rw [heq] at h
      refine hcount ?_
      simpa [writeFailed] using h

/-- **No run of any command frees the copy of the target extents.** -/
theorem targetExt_never_freed {disk : ℕ → UInt8} {P : St → Label → Prop}
    (h : (heaanSys r lib disk).Reach P s) : .free .targetExt ∉ s.trace := by
  refine h.invariant (I := fun s => .free .targetExt ∉ s.trace) (by simp [heaanSys]) ?_
  intro s l s' ih _ hstep
  rcases heaanStep_cases hstep with ⟨al, rc, -, -, rfl⟩ | ⟨k, success, rc, io, -, -, rfl⟩
  · exact fun h => ih (free_targetExt_of_exec h)
  · intro h
    have hfree := free_targetExt_of_runCallback h
    rw [(delivered_eq s k io success).1] at hfree
    exact ih hfree

end NeverFreed

/-! ## Which commands survive -/

/-- The command is rejected before the first store to `ctx->target_ext`. -/
def HeaanReq.StoresNothing (r : HeaanReq) : Prop :=
  r.noData = true ∨ r.extsBeforeStore.all r.bdev.extentInRange = false

/-- The command passes its checks with no extent to read, and so never completes. -/
def HeaanReq.ReadsNothing (r : HeaanReq) : Prop :=
  r.noData = false ∧ r.cdw11 = 0 ∧ r.cdw12 = 0 ∧ r.extsT.all r.bdev.extentInRange = true

section Survive

variable {r : HeaanReq} {lib : HeaanLib} {disk : ℕ → UInt8} {al : Alloc} {s : St}

/-- The handler may be called with any return codes. -/
theorem reach_exec (r : HeaanReq) (lib : HeaanLib) (disk : ℕ → UInt8) (al : Alloc) (rc : ℕ → ℤ) :
    (heaanSys r lib disk).Reach (AllocatesAs al)
      (nvmfBdevCtrlrCustomHeaanCipaddCmd r al rc { disk := disk }) :=
  .step (l := .exec al rc) .init rfl rfl

/-- A command that leaves nothing in flight is over when the handler returns. -/
theorem eq_exec_of_settled
    (hquiet : ∀ rc, (nvmfBdevCtrlrCustomHeaanCipaddCmd r al rc { disk := disk }).inflight = [])
    (h : (heaanSys r lib disk).Reach (AllocatesAs al) s) (hcalled : s.handler ≠ .idle) :
    ∃ rc, s = nvmfBdevCtrlrCustomHeaanCipaddCmd r al rc { disk := disk } := by
  have hall : s = { disk := disk } ∨
      ∃ rc, s = nvmfBdevCtrlrCustomHeaanCipaddCmd r al rc { disk := disk } := by
    refine h.invariant (I := fun s => s = { disk := disk } ∨
      ∃ rc, s = nvmfBdevCtrlrCustomHeaanCipaddCmd r al rc { disk := disk }) (Or.inl rfl) ?_
    intro s l s' ih hl hstep
    rcases heaanStep_cases hstep with ⟨al', rc, rfl, hidle, rfl⟩ | ⟨k, _, _, io, -, hio, -⟩
    · obtain rfl : al' = al := hl
      rcases ih with rfl | ⟨_, rfl⟩
      · exact Or.inr ⟨rc, rfl⟩
      · exact absurd hidle handler_exec_ne_idle
    · rcases ih with rfl | ⟨rc, rfl⟩
      · cases hio
      · rw [hquiet rc] at hio
        cases hio
  refine hall.resolve_left fun h => ?_
  rw [h] at hcalled
  exact hcalled rfl

/-- A rejected payload ends the command in the handler, unless a store to a missing
`ctx->target_ext` does. -/
theorem exec_of_rejected (hctx : al.ctx = true)
    (h : r.noData = true ∨
      ∃ n, (heaanParse r).2 = .endOfMedia n ∧ (al.targetExt = true ∨ n = 0)) :
    ∃ sc, sc ≠ .success ∧ ∀ rc s,
      nvmfBdevCtrlrCustomHeaanCipaddCmd r al rc s = (r.allocated al s).reject sc := by
  cases hnd : r.noData with
  | true =>
    refine ⟨.internalDeviceError, by decide, fun rc s => ?_⟩
    simp only [nvmfBdevCtrlrCustomHeaanCipaddCmd, hctx, hnd, Bool.not_true, Bool.false_eq_true,
      if_false, if_true]
  | false =>
    obtain ⟨n, hp, hstore⟩ := h.resolve_left (by rw [hnd]; exact Bool.false_ne_true)
    have hguard : (!al.targetExt && n != 0) = false := by
      rcases hstore with h | h <;> simp [h]
    refine ⟨.lbaOutOfRange, by decide, fun rc s => ?_⟩
    simp only [nvmfBdevCtrlrCustomHeaanCipaddCmd, hctx, hnd, hp, hguard, Bool.not_true,
      Bool.false_eq_true, if_false]

/-- A store to a missing `ctx->target_ext` ends the handler. -/
theorem exec_of_missing {n : ℕ} (hctx : al.ctx = true) (htarget : al.targetExt = false)
    (hnd : r.noData = false) (hn : n ≠ 0)
    (hp : (heaanParse r).2 = .endOfMedia n ∨
      ∃ p, (heaanParse r).2 = .parsed p ∧ p.targetExt.length = n) (rc : ℕ → ℤ) (s : St) :
    nvmfBdevCtrlrCustomHeaanCipaddCmd r al rc s = (r.allocated al s).crash := by
  rcases hp with hp | ⟨p, hp, rfl⟩
  · simp [nvmfBdevCtrlrCustomHeaanCipaddCmd, hctx, htarget, hnd, hp, hn]
  · have hne := List.length_eq_zero_iff.not.mp hn
    simp [nvmfBdevCtrlrCustomHeaanCipaddCmd, hctx, htarget, hnd, hp, hne]

/-- Where no store goes wrong, a parsed command gets to the read loops. -/
theorem exec_of_stored {p : Parsed} (hctx : al.ctx = true) (hnd : r.noData = false)
    (hp : (heaanParse r).2 = .parsed p) (hstore : al.targetExt = true ∨ p.targetExt.length = 0)
    (rc : ℕ → ℤ) (s : St) :
    nvmfBdevCtrlrCustomHeaanCipaddCmd r al rc s = execParsed r al rc p (r.allocated al s) := by
  have hguard : (!al.targetExt && p.targetExt.length != 0) = false := by
    rcases hstore with h | h <;> simp [h]
  simp only [nvmfBdevCtrlrCustomHeaanCipaddCmd, hctx, hnd, hp, hguard, Bool.not_true,
    Bool.false_eq_true, if_false]

/-- **A command rejected without the copy of the target extents survives**: the context is all it
got, and it gives it back. -/
theorem survives_of_storesNothing (hctx : al.ctx = true) (htarget : al.targetExt = false)
    (h : r.StoresNothing) : SurvivesAllocs r lib disk al := by
  obtain ⟨sc, hsc, hexec⟩ := exec_of_rejected hctx <| h.imp_right fun hall => by
    rcases HeaanReq.heaanParse_cases r with ⟨-, hp⟩ | ⟨ht, -⟩ | ⟨ht, -⟩
    · exact ⟨0, hp, Or.inr rfl⟩
    · exact absurd (hall.symm.trans ht) Bool.false_ne_true
    · exact absurd (hall.symm.trans ht) Bool.false_ne_true
  intro s hs hcalled
  obtain ⟨rc, rfl⟩ := eq_exec_of_settled (fun rc => by rw [hexec]; rfl) hs hcalled
  have htrace : (nvmfBdevCtrlrCustomHeaanCipaddCmd r al rc { disk := disk }).trace
      = [.alloc .ctx, .free .ctx, .rspSct .generic, .rspSc sc, .complete] := by
    simp [hexec, St.reject, HeaanReq.allocated, htarget, St.emit]
  rw [htrace]
  have hfreed : FreedOnce [.alloc .ctx, .free .ctx, .rspSct .generic, .rspSc sc, .complete] := by
    intro o ho
    obtain rfl : o = .ctx := by simpa using ho
    simp
  refine ⟨fun _ => ⟨⟨sc, hsc, rfl⟩, ?_, ?_, ?_, ?_, hfreed⟩, fun _ _ => hfreed⟩
  · simp
  · simp
  · simp
  · simp

/-- Without an extent to read, the handler returns with nothing in flight and nothing answered. -/
theorem exec_of_no_reads {p : Parsed} (hctx : al.ctx = true) (hnd : r.noData = false)
    (hp : (heaanParse r).2 = .parsed p) (hreads : p.reads = [])
    (hstore : al.targetExt = true ∨ p.targetExt.length = 0) (rc : ℕ → ℤ) (s : St) :
    (nvmfBdevCtrlrCustomHeaanCipaddCmd r al rc s).inflight = [] ∧
      (nvmfBdevCtrlrCustomHeaanCipaddCmd r al rc s).trace
        = (r.allocated al s).trace ++ al.buffers := by
  have hnone : submitReads rc 0 p.reads = ⟨p.reads, [], false⟩ := by
    rw [hreads]
    rfl
  rw [exec_of_stored hctx hnd hp hstore, execParsed_of_accepted hnone]
  exact ⟨hreads, List.append_nil _⟩

/-- Allocating is not completing. -/
theorem complete_notMem_allocated (r : HeaanReq) (al : Alloc) (disk : ℕ → UInt8) :
    .complete ∉ (r.allocated al { disk := disk }).trace ++ al.buffers := by
  intro h
  rcases List.mem_append.mp h with h | h
  · rcases HeaanReq.mem_allocated h with h | ⟨_, h⟩ <;> cases h
  · obtain ⟨_, h⟩ := Alloc.mem_buffers h
    cases h

/-- **A command without an extent to read** has nothing to answer for: it never completes. -/
theorem survives_of_readsNothing (hal : ∀ o, al.grants o = true) (h : r.ReadsNothing) :
    SurvivesAllocs r lib disk al := by
  obtain ⟨hnd, h0, h1, hT⟩ := h
  have hstore : r.extsBeforeStore.all r.bdev.extentInRange = true := by
    have h0' : r.exts0 = [] := by
      rw [HeaanReq.exts0, h0]
      rfl
    have h1' : r.exts1 = [] := by
      rw [HeaanReq.exts1, h1]
      rfl
    rw [HeaanReq.extsBeforeStore, h0', h1', List.nil_append, List.nil_append]
    rw [List.all_eq_true] at hT ⊢
    exact fun e he => hT e (List.mem_of_mem_take he)
  obtain ⟨p, hp⟩ : ∃ p, (heaanParse r).2 = .parsed p := by
    rcases HeaanReq.heaanParse_cases r with ⟨hf, -⟩ | ⟨-, hf, -⟩ | ⟨-, -, hp⟩
    · exact absurd (hf.symm.trans hstore) Bool.false_ne_true
    · exact absurd (hf.symm.trans hT) Bool.false_ne_true
    · exact hp
  have hreads : p.reads = [] := by
    rw [← List.length_eq_zero_iff, Parsed.length_reads hp, h0, h1]
    rfl
  have hexec := exec_of_no_reads (hal .ctx) hnd hp hreads (Or.inl (hal .targetExt))
  intro s hs hcalled
  obtain ⟨rc, rfl⟩ := eq_exec_of_settled (fun rc => (hexec rc _).1) hs hcalled
  refine ⟨?_, fun _ hdone => ?_⟩
  · rintro ⟨o, -, ho⟩
    exact absurd (ho.symm.trans (hal o)) Bool.false_ne_true
  · rw [(hexec rc _).2] at hdone
    exact absurd hdone (complete_notMem_allocated r al disk)

/-- A command that got the copy of the target extents and completes does not survive. -/
theorem not_freedOnce_of_targetExt {P : St → Label → Prop}
    (h : (heaanSys r lib disk).Reach P s) (halloc : .alloc .targetExt ∈ s.trace) :
    ¬ FreedOnce s.trace := fun hfreed => by
  have hcount := hfreed _ halloc
  rw [List.count_eq_zero.mpr (targetExt_never_freed h)] at hcount
  cases hcount

/-- With its first read rejected for want of memory, a command has submitted it and is over. -/
theorem execParsed_of_refused (r : HeaanReq) (al : Alloc) {p : Parsed} (hreads : p.reads ≠ [])
    (s : St) :
    (∃ io, .submit io (-12) ∈ (execParsed r al (fun _ => -12) p s).trace) ∧
      .complete ∈ (execParsed r al (fun _ => -12) p s).trace ∧
      ∀ e ∈ s.trace, e ∈ (execParsed r al (fun _ => -12) p s).trace := by
  obtain ⟨io, ios, hios⟩ := List.exists_cons_of_ne_nil hreads
  have hsub : submitReads (fun _ => -12) 0 p.reads = ⟨[], [.submit io (-12)], true⟩ := by
    rw [hios, submitReads, if_pos (by decide)]
  simp only [execParsed, hsub, if_true, St.emit]
  refine ⟨⟨io, by simp⟩, by simp, fun e he => ?_⟩
  simp [he]

/-- Without the copy of the target extents, a command survives only if it is rejected in time. -/
theorem storesNothing_of_survives (hctx : al.ctx = true) (htarget : al.targetExt = false)
    (h : SurvivesAllocs r lib disk al) : r.StoresNothing := by
  have hsurv : ∀ rc, Survives (nvmfBdevCtrlrCustomHeaanCipaddCmd r al rc { disk := disk }).trace :=
    fun rc => (h _ (reach_exec r lib disk al rc) handler_exec_ne_idle).1 ⟨.targetExt, rfl, htarget⟩
  cases hnd : r.noData with
  | true => exact Or.inl hnd
  | false =>
    have hcrash : ∀ n, n ≠ 0 → ¬ ((heaanParse r).2 = .endOfMedia n ∨
        ∃ p, (heaanParse r).2 = .parsed p ∧ p.targetExt.length = n) := fun n hn hp => by
      have hnull := (hsurv 0).noDeref
      rw [exec_of_missing hctx htarget hnd hn hp] at hnull
      simp [St.crash] at hnull
    rcases HeaanReq.heaanParse_cases r with ⟨hall, -⟩ | ⟨-, -, n, hn, hp⟩ | ⟨-, -, p, hp⟩
    · exact Or.inr hall
    · exact absurd (Or.inl hp) (hcrash n hn)
    · have hstored : p.targetExt.length = 0 :=
        not_not.mp fun hne => hcrash _ hne (Or.inr ⟨p, hp, rfl⟩)
      by_cases hreads : p.reads = []
      · -- nothing is in flight and nothing has been answered
        obtain ⟨sc, -, hsc⟩ := (hsurv 0).answered
        rw [(exec_of_no_reads hctx hnd hp hreads (Or.inr hstored) 0 _).2,
          completions_of_incomplete (complete_notMem_allocated r al disk)] at hsc
        cases hsc
      · obtain ⟨⟨io, hio⟩, -⟩ := execParsed_of_refused r al hreads
          (r.allocated al { disk := disk })
        rw [← exec_of_stored hctx hnd hp (Or.inr hstored)] at hio
        exact absurd hio ((hsurv _).noIo io (-12))

/-- With it, a command survives only if nothing else fails and it never completes. -/
theorem readsNothing_of_survives (hctx : al.ctx = true) (htarget : al.targetExt = true)
    (h : SurvivesAllocs r lib disk al) : (∀ o, al.grants o = true) ∧ r.ReadsNothing := by
  have hgot : .alloc .targetExt ∈ (r.allocated al { disk := disk }).trace := by
    simp [HeaanReq.allocated, htarget]
  have hleak : ∀ rc,
      .alloc .targetExt ∈ (nvmfBdevCtrlrCustomHeaanCipaddCmd r al rc { disk := disk }).trace →
      ¬ r.AllocFails al ∧
        .complete ∉ (nvmfBdevCtrlrCustomHeaanCipaddCmd r al rc { disk := disk }).trace := by
    intro rc hmem
    have hreach := reach_exec r lib disk al rc
    obtain ⟨hfail, hdone⟩ := h _ hreach handler_exec_ne_idle
    have hnot := not_freedOnce_of_targetExt hreach hmem
    have hok : ¬ r.AllocFails al := fun hf => hnot (hfail hf).freed
    exact ⟨hok, fun hc => hnot (hdone hok hc)⟩
  have hparsed : ¬ (r.noData = true ∨
      ∃ n, (heaanParse r).2 = .endOfMedia n ∧ (al.targetExt = true ∨ n = 0)) := fun hrej => by
    obtain ⟨sc, -, hexec⟩ := exec_of_rejected hctx hrej
    refine (hleak 0 ?_).2 ?_ <;> rw [hexec]
    · exact List.mem_append_left _ hgot
    · simp [St.reject]
  obtain ⟨hnd, hrange⟩ := not_or.mp hparsed
  have hnd : r.noData = false := Bool.eq_false_iff.mpr hnd
  rcases HeaanReq.heaanParse_cases r with ⟨-, hp⟩ | ⟨-, -, n, -, hp⟩ | ⟨-, hT, p, hp⟩
  · exact absurd ⟨0, hp, Or.inr rfl⟩ hrange
  · exact absurd ⟨n, hp, Or.inl htarget⟩ hrange
  · have hexec := exec_of_stored hctx hnd hp (Or.inl htarget)
    have hreads : p.reads = [] := not_not.mp fun hne => by
      obtain ⟨-, hdone, hmem⟩ := execParsed_of_refused r al hne
        (r.allocated al { disk := disk })
      rw [← hexec] at hdone hmem
      exact (hleak _ (hmem _ hgot)).2 hdone
    have hlen := Parsed.length_reads hp
    rw [hreads, List.length_nil] at hlen
    refine ⟨fun o => ?_, hnd, ?_, ?_, hT⟩
    · have hall : r.allocates o = true := by
        cases o <;> simp [HeaanReq.allocates, hp, hnd]
      have hok := (hleak 0 (by
        rw [(exec_of_no_reads hctx hnd hp hreads (Or.inl htarget) 0 _).2]
        exact List.mem_append_left _ hgot)).1
      cases hgrant : al.grants o with
      | false => exact absurd ⟨o, hall, hgrant⟩ hok
      | true => rfl
    · exact UInt32.toNat_inj.mp (by rw [UInt32.toNat_zero]; omega)
    · exact UInt32.toNat_inj.mp (by rw [UInt32.toNat_zero]; omega)

/-- **Which commands survive their allocations.** -/
theorem heaan_survives_iff (r : HeaanReq) (lib : HeaanLib) (disk : ℕ → UInt8) (al : Alloc) :
    SurvivesAllocs r lib disk al ↔
      (al.ctx = true ∧ al.targetExt = false ∧ r.StoresNothing) ∨
      ((∀ o, al.grants o = true) ∧ r.ReadsNothing) := by
  refine ⟨fun h => ?_, ?_⟩
  · cases hctx : al.ctx with
    | false =>
      have hnull := ((h _ (reach_exec r lib disk al 0) handler_exec_ne_idle).1
        ⟨.ctx, rfl, hctx⟩).noDeref
      simp [nvmfBdevCtrlrCustomHeaanCipaddCmd, hctx, St.crash] at hnull
    | true =>
      cases htarget : al.targetExt with
      | false => exact Or.inl ⟨rfl, rfl, storesNothing_of_survives hctx htarget h⟩
      | true => exact Or.inr (readsNothing_of_survives hctx htarget h)
  · rintro (⟨hctx, htarget, hr⟩ | ⟨hal, hr⟩)
    · exact survives_of_storesNothing hctx htarget hr
    · exact survives_of_readsNothing hal hr

/-- **Nothing is checked and one thing is never freed**: a command whose context is not granted goes
through a `NULL` pointer, and one that gets everything and succeeds loses `ctx->target_ext`. -/
theorem heaan_alloc_unchecked :
    ¬ SurvivesAllocs .several bytewiseLib (fun _ => 0) { ctx := false } ∧
    ¬ SurvivesAllocs .several bytewiseLib (fun _ => 0) .ok := by
  constructor
  · intro h
    have hnull := ((h _ (reach_exec _ _ _ _ 0) handler_exec_ne_idle).1 ⟨.ctx, rfl, rfl⟩).noDeref
    exact hnull (by decide)
  · intro h
    have hrun : ((heaanSys .several bytewiseLib fun _ => 0).run { disk := fun _ => 0 }
        severalRun).map
          (fun s => decide (s.handler ≠ .idle ∧ .complete ∈ s.trace ∧ .alloc .targetExt ∈ s.trace))
        = some true := by
      decide +kernel
    obtain ⟨s, hs, hdone⟩ := Option.map_eq_some_iff.mp hrun
    obtain ⟨hcalled, hdone, hgot⟩ := of_decide_eq_true hdone
    have hreach : (heaanSys .several bytewiseLib fun _ => 0).Reach (AllocatesAs .ok) s := by
      refine Sys.Reach.of_run _ (fun l hl t => ?_) .init hs
      rcases mem_severalRun hl with rfl | ⟨k, rfl⟩
      · rfl
      · trivial
    have hok : ¬ HeaanReq.several.AllocFails .ok := by
      rintro ⟨o, -, ho⟩
      cases o <;> cases ho
    exact not_freedOnce_of_targetExt hreach hgot ((h s hreach hcalled).2 hok hdone)

end Survive

end NdpHeaan
