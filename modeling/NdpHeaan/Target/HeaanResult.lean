import NdpHeaan.Target.HeaanAdd

/-!
# Target/HeaanResult — what HEaaN add leaves on the device

When nothing fails, a command gathers each input into its buffer, adds, and scatters the result over
the target extents — in whatever order the reads and the writes complete.  The reads are a `gather`
of the input extents, the writes a `scatter` of the target extents, and `Progress` carries both
through an arbitrary schedule:

    reads in flight ──▸ buffers = concatenated inputs ──▸ writes in flight ──▸ targets = result

The sizes are 64-bit sums that nothing checks, so all this needs `SizesFit`; a device large enough
to break it is conceivable.
-/

open Machinery

namespace NdpHeaan

/-! ## The statement -/

namespace HeaanReq

variable (r : HeaanReq)

/-- The extents a buffer is filled from. -/
def inputExts : Buf → List Extent
  | .input0 => r.input0List
  | .input1 => r.input1List
  | .target => []

/-- The device bytes a buffer is filled from. -/
def inputSegs (b : Buf) : List Seg := (r.inputExts b).map Extent.seg

/-- The device bytes of the target. -/
def targetSegs : List Seg := r.targetList.map Extent.seg

/-- An extent of whole blocks. -/
def Aligned (e : Extent) : Prop :=
  r.bdev.blocklen.toNat ∣ e.offset.toNat ∧ r.bdev.blocklen.toNat ∣ e.length.toNat

instance (e : Extent) : Decidable (r.Aligned e) := inferInstanceAs (Decidable (_ ∧ _))

/-- **A well-placed command**: its lists lie inside the first buffer, its extents are blocks of the
device, there is something to read, and the target extents do not overlap. -/
structure WellPlaced : Prop where
  hasData : r.noData = false
  inside : 8 * r.payloadWords ≤ r.iovLen
  inRange : ∀ e ∈ r.input0List ++ r.input1List ++ r.targetList, r.bdev.extentInRange e = true
  aligned : ∀ e ∈ r.input0List ++ r.input1List ++ r.targetList, r.Aligned e
  inputs : 0 < r.cdw11.toNat + r.cdw12.toNat
  disjoint : r.targetSegs.Pairwise Seg.Disj

/-- No 64-bit size wraps. -/
structure SizesFit : Prop where
  input : ∀ b, total (r.inputSegs b) < 2 ^ 64
  target : total r.targetSegs < 2 ^ 64

/-- What `readCiphertextFromMem` should make of an input. -/
def ciphertext (lib : HeaanLib) (disk : ℕ → UInt8) (b : Buf) : lib.Ct :=
  lib.readCiphertextFromMem (some (readAll disk (r.inputSegs b)))
    (UInt64.ofNat (total (r.inputSegs b))) 0

/-- The return value and the result of the addition. -/
def sum (lib : HeaanLib) (disk : ℕ → UInt8) : ℤ × lib.Ct :=
  lib.ciphertextAdd (r.ciphertext lib disk .input0) (r.ciphertext lib disk .input1)

/-- The serialised result, padded with zeros. -/
def resultByte (lib : HeaanLib) (disk : ℕ → UInt8) (k : ℕ) : UInt8 :=
  (lib.writeCiphertextToMem (r.sum lib disk).2).getD k 0

/-- **Steps in which nothing fails**: every allocation succeeds, every submission is accepted, every
I/O succeeds. -/
def Smooth (_ : St) : Label → Prop
  | .exec al rc => al.ctx = true ∧ al.targetExt = true ∧ (∀ b, al.buf b = true) ∧
      ∀ k < r.cdw11.toNat + r.cdw12.toNat, rc k = 0
  | .deliver _ success rc => success = true ∧ ∀ k < r.cdw13.toNat, rc k = 0

end HeaanReq

/-- The reads whose callback has run, oldest first. -/
def fillCallbacks (t : List Effect) : List Io :=
  t.filterMap fun e => match e with
    | .callback io _ => if io.cb = .fill then some io else none
    | _ => none

/-- The reads of a well-placed command. -/
def HeaanReq.readIos (r : HeaanReq) : List Io :=
  ioList .fill .input0 0 r.input0List ++ ioList .fill .input1 0 r.input1List

/-- **A correct log**: no write is issued before all reads of both inputs have completed, and the
library is handed each input whole. -/
structure LogCorrect (r : HeaanReq) (disk : ℕ → UInt8) (t : List Effect) : Prop where
  barrier : ∀ n io c, t[n]? = some (.submit io c) → io.cb = .write →
    (fillCallbacks (t.take n)).Perm r.readIos
  handed : ∀ b data size offset, .readCiphertext b data size offset ∈ t →
    data = some (readAll disk (r.inputSegs b)) ∧ size.toNat = total (r.inputSegs b)

/-- **A correct state**: the log is correct; once the request has been completed and the addition
returned zero, each target extent holds its part of the result; no other byte has changed; and a
command with nothing in flight and something to write has been completed. -/
structure HeaanCorrect (r : HeaanReq) (lib : HeaanLib) (disk : ℕ → UInt8) (s : St) : Prop where
  log : LogCorrect r disk s.trace
  result : .complete ∈ s.trace → (r.sum lib disk).1 = 0 → ∀ k e, r.targetList[k]? = some e →
    Seg.read s.disk e.seg
      = Seg.read (r.resultByte lib disk) ⟨total (r.targetSegs.take k), e.length.toNat⟩
  frame : ∀ a, (∀ t ∈ r.targetSegs, ¬ t.Mem a) → s.disk a = disk a
  finishes : s.handler = .returned → s.inflight = [] → 0 < r.cdw13.toNat → .complete ∈ s.trace

/-! ## Sizes and copies

As long as nothing wraps, `buffer_address` walks through the buffer as `gather` and `scatter` do. -/

theorem toNat_add_length {off : UInt64} {e : Extent} {n : ℕ}
    (h : off.toNat + (e.length.toNat + n) < 2 ^ 64) :
    (off + e.length).toNat = off.toNat + e.length.toNat := by
  rw [UInt64.toNat_add]
  exact Nat.mod_eq_of_lt (by omega)

/-- The reads of a loop gather its extents. -/
theorem map_copy_fills (b : Buf) : ∀ {off : UInt64} {es : List Extent},
    off.toNat + total (es.map Extent.seg) < 2 ^ 64 →
      (ioList .fill b off es).map Io.copy = gather off.toNat (es.map Extent.seg)
  | _, [], _ => rfl
  | off, e :: es, h => by
      rw [List.map_cons, total_cons, Extent.seg_len] at h
      have hoff := toNat_add_length h
      have ih := @map_copy_fills b (off + e.length) es (by omega)
      rw [ioList, List.map_cons, ih, hoff]
      rfl

/-- The writes of the loop scatter its extents. -/
theorem map_copy_writes (b : Buf) : ∀ {off : UInt64} {es : List Extent},
    off.toNat + total (es.map Extent.seg) < 2 ^ 64 →
      (ioList .write b off es).map Io.copy = scatter off.toNat (es.map Extent.seg)
  | _, [], _ => rfl
  | off, e :: es, h => by
      rw [List.map_cons, total_cons, Extent.seg_len] at h
      have hoff := toNat_add_length h
      have ih := @map_copy_writes b (off + e.length) es (by omega)
      rw [ioList, List.map_cons, ih, hoff]
      rfl

theorem buf_of_mem_ioList {cb : Callback} {b : Buf} : ∀ {off : UInt64} {es : List Extent} {io : Io},
    io ∈ ioList cb b off es → io.buf = b
  | off, e :: es, io, h => by
      rcases List.mem_cons.mp h with rfl | h
      · rfl
      · exact buf_of_mem_ioList h

namespace HeaanReq

variable {r : HeaanReq}

theorem cb_of_mem_readIos {io : Io} (h : io ∈ r.readIos) : io.cb = .fill :=
  (List.mem_append.mp h).elim cb_of_mem_ioList cb_of_mem_ioList

theorem length_readIos : r.readIos.length = r.cdw11.toNat + r.cdw12.toNat := by
  rw [readIos, List.length_append, length_ioList, length_ioList, input0List, input1List,
    length_extsAt, length_extsAt]

theorem gather_inputSegs (hfit : ∀ b, total (r.inputSegs b) < 2 ^ 64) (b : Buf) :
    (ioList .fill b 0 (r.inputExts b)).map Io.copy = gather 0 (r.inputSegs b) :=
  map_copy_fills b (by rw [UInt64.toNat_zero, Nat.zero_add]; exact hfit b)

/-- A read is one of the copies that gather its buffer. -/
theorem copy_mem_gather (hfit : ∀ b, total (r.inputSegs b) < 2 ^ 64) {io : Io}
    (h : io ∈ r.readIos) :
    io.copy ∈ gather 0 (r.inputSegs io.buf) := by
  rcases List.mem_append.mp h with h | h
  · rw [buf_of_mem_ioList h, ← gather_inputSegs hfit]
    exact List.mem_map_of_mem h
  · rw [buf_of_mem_ioList h, ← gather_inputSegs hfit]
    exact List.mem_map_of_mem h

/-- …and every such copy is a read. -/
theorem exists_read_of_mem_gather (hfit : ∀ b, total (r.inputSegs b) < 2 ^ 64) {b : Buf}
    {c : Copy} (h : c ∈ gather 0 (r.inputSegs b)) : ∃ io ∈ r.readIos, io.buf = b ∧ io.copy = c := by
  rw [← gather_inputSegs hfit] at h
  obtain ⟨io, hio, rfl⟩ := List.mem_map.mp h
  refine ⟨io, ?_, buf_of_mem_ioList hio, rfl⟩
  cases b with
  | input0 => exact List.mem_append_left _ hio
  | input1 => exact List.mem_append_right _ hio
  | target => cases hio

theorem WellPlaced.payloadWords_lt (hr : r.WellPlaced) : r.payloadWords < 2 ^ 29 := by
  have h1 := hr.inside
  have h2 := r.iovLen_lt
  omega

theorem WellPlaced.parse (hr : r.WellPlaced) : (heaanParse r).2 = .parsed r.parsed := by
  have hw := hr.payloadWords_lt
  refine heaanParse_of_all ?_ ?_ ?_ (by omega)
  all_goals
    refine List.all_eq_true.mpr fun e he => hr.inRange e ?_
    simp [he]

end HeaanReq

/-! ## Correct logs -/

@[simp] theorem fillCallbacks_append (t u : List Effect) :
    fillCallbacks (t ++ u) = fillCallbacks t ++ fillCallbacks u := List.filterMap_append

theorem fillCallbacks_eq_nil {t : List Effect}
    (h : ∀ e ∈ t, ∀ io success, e ≠ .callback io success) : fillCallbacks t = [] := by
  refine List.filterMap_eq_nil_iff.mpr fun e he => ?_
  cases e with
  | callback io success => exact absurd rfl (h _ he io success)
  | _ => rfl

theorem fillCallbacks_readInputs (s : St) :
    fillCallbacks (readInputs s).trace = fillCallbacks s.trace := by
  rw [readInputs, St.emit_trace, fillCallbacks_append]
  exact List.append_nil _

/-- An effect that a correct log may have anywhere. -/
def Effect.plain : Effect → Bool
  | .readCiphertext _ _ _ _ => false
  | .submit io _ => io.cb != .write
  | _ => true

namespace LogCorrect

variable {r : HeaanReq} {disk : ℕ → UInt8} {t u : List Effect}

/-- What must be checked of an extension of a correct log. -/
theorem append (ht : LogCorrect r disk t)
    (hbarrier : ∀ n io c, u[n]? = some (.submit io c) → io.cb = .write →
      (fillCallbacks t ++ fillCallbacks (u.take n)).Perm r.readIos)
    (hhanded : ∀ b data size offset, .readCiphertext b data size offset ∈ u →
      data = some (readAll disk (r.inputSegs b)) ∧ size.toNat = total (r.inputSegs b)) :
    LogCorrect r disk (t ++ u) := by
  refine ⟨fun n io c hn hcb => ?_, fun b data size offset h => ?_⟩
  · rw [List.take_append]
    rcases Nat.lt_or_ge n t.length with hlt | hge
    · rw [List.getElem?_append_left hlt] at hn
      rw [Nat.sub_eq_zero_of_le hlt.le, List.take_zero, List.append_nil]
      exact ht.barrier n io c hn hcb
    · rw [List.getElem?_append_right hge] at hn
      rw [List.take_of_length_le hge, fillCallbacks_append]
      exact hbarrier _ io c hn hcb
  · exact (List.mem_append.mp h).elim (ht.handed b data size offset) (hhanded b data size offset)

theorem append_plain (ht : LogCorrect r disk t) (hu : ∀ e ∈ u, e.plain = true) :
    LogCorrect r disk (t ++ u) := by
  refine ht.append (fun n io c hn hcb => ?_) fun b data size offset h => ?_
  · have := hu _ (List.mem_of_getElem? hn)
    simp [Effect.plain, hcb] at this
  · cases hu _ h

theorem nil : LogCorrect r disk [] := by
  refine ⟨fun n io c hn => ?_, fun b data size offset h => ?_⟩
  · simp at hn
  · cases h

theorem of_plain (ht : ∀ e ∈ t, e.plain = true) : LogCorrect r disk t :=
  nil.append_plain (t := []) ht

/-- Once all reads have completed, the writes may be submitted. -/
theorem append_writes (ht : LogCorrect r disk t) (hperm : (fillCallbacks t).Perm r.readIos)
    (hu : ∀ e ∈ u, ∃ io c, e = .submit io c) : LogCorrect r disk (t ++ u) := by
  refine ht.append (fun n io c _ _ => ?_) fun b data size offset h => ?_
  · have hnil : fillCallbacks (u.take n) = [] := fillCallbacks_eq_nil fun e he => by
      obtain ⟨io', c', rfl⟩ := hu e (List.mem_of_mem_take he)
      exact fun _ _ => Effect.noConfusion
    rwa [hnil, List.append_nil]
  · obtain ⟨io, c, h⟩ := hu _ h
    cases h

end LogCorrect

/-! ## The phases of a smooth command -/

/-- The context of a well-placed command, up to its buffers and its counter. -/
structure CtxOk (r : HeaanReq) (c : HeaanCtx) : Prop where
  size0 : c.input0TotalSize = UInt64.ofNat (total (r.inputSegs .input0))
  size1 : c.input1TotalSize = UInt64.ofNat (total (r.inputSegs .input1))
  offset0 : c.input0StartOffset = 0
  offset1 : c.input1StartOffset = 0
  targetExt : c.targetExt = r.targetList
  targetExtentsCount : c.targetExtentsCount = r.cdw13

/-- The reads are in flight: each buffer is gathered up to them. -/
structure Gathering (r : HeaanReq) (disk : ℕ → UInt8) (s : St) : Prop where
  handler : s.handler = .returned
  disk_eq : s.disk = disk
  perm : (fillCallbacks s.trace ++ s.inflight).Perm r.readIos
  pending : s.ctx.pendingFills = s.inflight.length
  ctx : CtxOk r s.ctx
  buffer : ∀ b, ∃ m, s.ctx.buffer b = some m ∧ Progress (gather 0 (r.inputSegs b))
    (fun c => ∃ io ∈ s.inflight, io.buf = b ∧ io.copy = c) disk (fun _ => 0) m
  plain : ∀ e ∈ s.trace, e.plain = true
  incomplete : .complete ∉ s.trace

/-- The writes are in flight: the targets hold the result up to them. -/
structure Scattering (r : HeaanReq) (lib : HeaanLib) (disk : ℕ → UInt8) (s : St) : Prop where
  handler : s.handler = .returned
  added : (r.sum lib disk).1 = 0
  writes : ∀ io ∈ s.inflight, io ∈ ioList .write .target 0 r.targetList
  pending : s.ctx.pendingFills = s.inflight.length
  pending_lt : s.inflight.length < 2 ^ 31
  buffer : s.ctx.buffer .target = some (r.resultByte lib disk)
  progress : Progress (scatter 0 r.targetSegs) (fun c => ∃ io ∈ s.inflight, io.copy = c)
    (r.resultByte lib disk) disk s.disk
  log : LogCorrect r disk s.trace
  incomplete : .complete ∉ s.trace

/-- **The invariant** of a smooth command. -/
inductive SmoothPhase (r : HeaanReq) (lib : HeaanLib) (disk : ℕ → UInt8) (s : St) : Prop
  | idle (h : s = { disk := disk })
  | gathering (h : Gathering r disk s) (pos : 0 < s.inflight.length)
  | scattering (h : Scattering r lib disk s) (pos : 0 < s.inflight.length)
  | settled (handler : s.handler = .returned) (inflight : s.inflight = [])
      (h : HeaanCorrect r lib disk s)

section Phases

variable {r : HeaanReq} {lib : HeaanLib} {disk : ℕ → UInt8} {s : St}

/-- The writes touch the target only. -/
theorem Scattering.frame (h : Scattering r lib disk s) {a : ℕ}
    (ha : ∀ t ∈ r.targetSegs, ¬ t.Mem a) : s.disk a = disk a := by
  refine h.progress.frame a fun c hc => ha _ ?_
  rw [← map_target_scatter 0 r.targetSegs]
  exact List.mem_map_of_mem hc

/-- A command with its writes issued is correct, unless there was nothing to write. -/
theorem Scattering.correct (h : Scattering r lib disk s)
    (hfin : s.inflight = [] → ¬ 0 < r.cdw13.toNat) : HeaanCorrect r lib disk s := by
  exact ⟨h.log, fun hc => absurd hc h.incomplete, fun _ => h.frame, fun _ hq hpos =>
    absurd hpos (hfin hq)⟩

/-- **Every phase is correct.** -/
theorem SmoothPhase.correct (h : SmoothPhase r lib disk s) : HeaanCorrect r lib disk s := by
  cases h with
  | idle h =>
    subst h
    refine ⟨LogCorrect.nil, fun hc => ?_, fun _ _ => rfl, fun hh => ?_⟩
    · cases hc
    · cases hh
  | gathering h hpos =>
    refine ⟨.of_plain h.plain, fun hc => absurd hc h.incomplete, fun a _ => ?_, fun _ hq => ?_⟩
    · rw [h.disk_eq]
    · exact absurd hpos (by simp [hq])
  | scattering h hpos => exact h.correct fun hq => absurd hpos (by simp [hq])
  | settled _ _ h => exact h

theorem ctxOk_parsed (al : Alloc) : CtxOk r (r.ctxParsed al r.parsed) :=
  ⟨sum_length_eq r.input0List, sum_length_eq r.input1List, rfl, rfl, rfl, rfl⟩

/-- **The handler** leaves every read in flight. -/
theorem gathering_exec {al : Alloc} {rc : ℕ → ℤ} (hr : r.WellPlaced) (hfit : r.SizesFit)
    (hsmooth : r.Smooth s (.exec al rc)) :
    (nvmfBdevCtrlrCustomHeaanCipaddCmd r al rc { disk := disk }).inflight = r.readIos ∧
      Gathering r disk (nvmfBdevCtrlrCustomHeaanCipaddCmd r al rc { disk := disk }) := by
  obtain ⟨hctx, htarget, hbuf, hrc⟩ := hsmooth
  have hall : submitReads rc 0 r.parsed.reads = _ := submitReads_of_all fun k hk => by
    rw [Nat.zero_add]
    exact hrc k (HeaanReq.length_readIos ▸ hk)
  have hw := hr.payloadWords_lt
  rw [HeaanReq.payloadWords] at hw
  have hlen := HeaanReq.length_readIos (r := r)
  rw [exec_of_parsed hctx htarget hr.hasData hr.parse, execParsed_of_accepted hall]
  have htrace : ∀ e ∈ (r.allocated al { disk := disk }).trace ++ al.buffers ++
      r.readIos.map fun io => Effect.submit io 0,
      (∃ o, e = .alloc o) ∨ ∃ io ∈ r.readIos, .submit io 0 = e := by
    intro e he
    rcases List.mem_append.mp he with he | he
    · rcases List.mem_append.mp he with he | he
      · exact (HeaanReq.mem_allocated he).elim (fun h => absurd h List.not_mem_nil) Or.inl
      · exact Or.inl (Alloc.mem_buffers he)
    · exact Or.inr (List.mem_map.mp he)
  refine ⟨rfl, rfl, rfl, ?_, ?_, ctxOk_parsed al, fun b => ⟨fun _ => 0, ?_, ?_⟩,
    fun e he => ?_, fun hc => ?_⟩
  · have hnil : fillCallbacks ((r.allocated al { disk := disk }).trace ++ al.buffers ++
        r.readIos.map fun io => Effect.submit io 0) = [] := fillCallbacks_eq_nil fun e he => by
      rcases htrace e he with ⟨o, rfl⟩ | ⟨io, -, rfl⟩ <;> exact fun _ _ => Effect.noConfusion
    exact hnil.symm ▸ List.Perm.refl _
  · rw [HeaanReq.ctxParsed_pendingFills, UInt32.toNat_add, Nat.mod_eq_of_lt (by omega),
      asInt32_eq (by omega) (by omega)]
    exact congrArg Nat.cast hlen.symm
  · exact if_pos (hbuf b)
  · exact .start fun c hc => HeaanReq.exists_read_of_mem_gather hfit.input hc
  · rcases htrace e he with ⟨o, rfl⟩ | ⟨io, hio, rfl⟩
    · rfl
    · simp [Effect.plain, HeaanReq.cb_of_mem_readIos hio]
  · rcases htrace _ hc with ⟨o, h⟩ | ⟨io, -, h⟩ <;> cases h

/-- A completed read moves its bytes into its buffer, and leaves the other buffers alone. -/
theorem gathered_deliver (hfit : ∀ b, total (r.inputSegs b) < 2 ^ 64) {c : HeaanCtx}
    {inflight : List Io} {k : ℕ} {io : Io} {b : Buf} {m : ℕ → UInt8} (hread : io ∈ r.readIos)
    (hio : inflight[k]? = some io) (hm : c.buffer b = some m)
    (h : Progress (gather 0 (r.inputSegs b)) (fun c => ∃ io ∈ inflight, io.buf = b ∧ io.copy = c)
      disk (fun _ => 0) m) :
    ∃ m', (c.fillBuffer io disk).buffer b = some m' ∧ Progress (gather 0 (r.inputSegs b))
      (fun c => ∃ io ∈ inflight.eraseIdx k, io.buf = b ∧ io.copy = c) disk (fun _ => 0) m' := by
  have hperm := eraseIdx_perm hio
  by_cases hb : b = io.buf
  · subst hb
    refine ⟨io.copy.apply disk m, ?_, ?_⟩
    · rw [HeaanCtx.fillBuffer_self, hm, Option.map_some]
    · refine h.apply (pairwise_gather _ _) (HeaanReq.copy_mem_gather hfit hread) ?_
      rintro d - ⟨io', hio', hbuf', rfl⟩
      rcases List.mem_cons.mp (hperm.symm.subset hio') with rfl | hin
      · exact Or.inr rfl
      · exact Or.inl ⟨io', hin, hbuf', rfl⟩
  · refine ⟨m, ?_, h.mono ?_⟩
    · rw [HeaanCtx.fillBuffer_of_ne _ _ hb, hm]
    · rintro d - ⟨io', hio', rfl, rfl⟩
      rcases List.mem_cons.mp (hperm.symm.subset hio') with rfl | hin
      · exact absurd rfl hb
      · exact ⟨io', hin, rfl, rfl⟩

/-- A buffer whose reads have all completed is handed over whole. -/
theorem handed_of_gathered {c : HeaanCtx} {b : Buf} {m : ℕ → UInt8} {pend : Copy → Prop}
    (hfit : total (r.inputSegs b) < 2 ^ 64) (hm : c.buffer b = some m)
    (h : Progress (gather 0 (r.inputSegs b)) pend disk (fun _ => 0) m) (hnone : ∀ c, ¬ pend c) :
    c.handed b (UInt64.ofNat (total (r.inputSegs b)))
      = some (readAll disk (r.inputSegs b)) := by
  rw [HeaanCtx.handed, hm, Option.map_some, toNat_ofNat_total hfit]
  exact congrArg some (read_gather (h.all_done fun c _ => hnone c))

/-- A callback logs its entry and counts down. -/
theorem Gathering.deliver (hr : r.WellPlaced) (hfit : r.SizesFit) (h : Gathering r disk s) {k : ℕ}
    {io : Io} (hio : s.inflight[k]? = some io) :
    Gathering r disk (countDown io true (s.delivered k io true)) := by
  have hperm := eraseIdx_perm hio
  have hmem : ∀ {io'}, io' ∈ s.inflight → io' ∈ r.readIos := fun h' =>
    h.perm.subset (List.mem_append_right _ h')
  have hread : io ∈ r.readIos := hmem (List.mem_of_getElem? hio)
  have hcb : io.cb = .fill := HeaanReq.cb_of_mem_readIos hread
  have hlen : s.inflight.length < 2 ^ 31 := by
    have h1 := h.perm.length_eq
    have h2 := hr.payloadWords_lt
    rw [List.length_append, HeaanReq.length_readIos] at h1
    rw [HeaanReq.payloadWords] at h2
    omega
  have hlen' := hperm.length_eq
  rw [List.length_cons] at hlen'
  have htrace : (countDown io true (s.delivered k io true)).trace
      = s.trace ++ [Effect.callback io true] := by
    rw [delivered_fill _ hcb]
    rfl
  rw [delivered_fill _ hcb] at htrace ⊢
  refine ⟨h.handler, h.disk_eq, ?_, ?_, ?_, fun b => ?_, fun e he => ?_, fun hc => ?_⟩
  · -- the delivered read moves from the reads in flight to those completed
    rw [htrace, fillCallbacks_append, List.append_assoc]
    have hone : fillCallbacks [.callback io true] = [io] := by simp [fillCallbacks, hcb]
    rw [hone]
    exact (hperm.append_left _).trans h.perm
  · have hcount := h.pending
    change asInt32 (s.ctx.pendingFills - 1) = ((s.inflight.eraseIdx k).length : ℤ)
    rw [hcount, asInt32_eq (by omega) (by omega)]
    omega
  · exact ⟨h.ctx.size0, h.ctx.size1, h.ctx.offset0, h.ctx.offset1, h.ctx.targetExt,
      h.ctx.targetExtentsCount⟩
  · obtain ⟨m, hm, hprogress⟩ := h.buffer b
    rw [h.disk_eq]
    exact gathered_deliver hfit.input hread hio hm hprogress
  · rw [htrace] at he
    refine (List.mem_append.mp he).elim (h.plain e) fun he => ?_
    obtain rfl := List.mem_singleton.mp he
    rfl
  · rw [htrace] at hc
    refine (List.mem_append.mp hc).elim h.incomplete fun hc => ?_
    cases List.mem_singleton.mp hc

/-- The read phase over, the library is handed each input whole. -/
theorem Gathering.handed_eq (hfit : r.SizesFit) (h : Gathering r disk s) (hnil : s.inflight = [])
    (b : Buf) : s.ctx.handed b (UInt64.ofNat (total (r.inputSegs b)))
      = some (readAll disk (r.inputSegs b)) := by
  obtain ⟨m, hm, hprogress⟩ := h.buffer b
  refine handed_of_gathered (hfit.input b) hm hprogress fun c hpend => ?_
  obtain ⟨io, hio, -⟩ := hpend
  simp [hnil] at hio

/-- …and computes the sum. -/
theorem Gathering.addResult_eq (hfit : r.SizesFit) (h : Gathering r disk s)
    (hnil : s.inflight = []) : s.ctx.addResult lib = r.sum lib disk := by
  rw [HeaanCtx.addResult, h.ctx.size0, h.ctx.size1, h.ctx.offset0, h.ctx.offset1,
    h.handed_eq hfit hnil, h.handed_eq hfit hnil]
  rfl

/-- …and the log says so. -/
theorem Gathering.log_readInputs (hfit : r.SizesFit) (h : Gathering r disk s)
    (hnil : s.inflight = []) : LogCorrect r disk (readInputs s).trace := by
  refine (LogCorrect.of_plain h.plain).append (fun n io c hn _ => ?_) fun b data size off hin => ?_
  · have := List.mem_of_getElem? hn
    simp at this
  · rw [h.ctx.size0, h.ctx.size1, h.handed_eq hfit hnil, h.handed_eq hfit hnil] at hin
    simp only [List.mem_cons, Effect.readCiphertext.injEq, List.not_mem_nil, or_false] at hin
    rcases hin with ⟨rfl, rfl, rfl, -⟩ | ⟨rfl, rfl, rfl, -⟩
    · exact ⟨rfl, toNat_ofNat_total (hfit.input _)⟩
    · exact ⟨rfl, toNat_ofNat_total (hfit.input _)⟩

/-- The addition failed: the request is completed with an error, and nothing is written. -/
theorem Gathering.settled_addFailed (hfit : r.SizesFit) (h : Gathering r disk s)
    (hnil : s.inflight = []) (hadd : (r.sum lib disk).1 ≠ 0) (io : Io) :
    SmoothPhase r lib disk (addFailed io (readInputs s)) := by
  refine .settled h.handler hnil ⟨?_, fun _ h0 => absurd h0 hadd, fun a _ => ?_, fun _ _ _ => ?_⟩
  · refine (h.log_readInputs hfit hnil).append_plain fun e he => ?_
    simp only [List.mem_append, List.mem_cons, List.not_mem_nil, or_false] at he
    rcases he with ((((rfl | rfl) | he) | he) | he) | rfl | rfl | rfl
    all_goals first | rfl | (obtain rfl := St.mem_dmaFree he; rfl)
  · exact congrFun h.disk_eq a
  · exact List.mem_append_right _ (List.mem_append_right _ (by simp))

theorem HeaanReq.scatter_targetSegs (hfit : r.SizesFit) :
    (ioList .write .target 0 r.targetList).map Io.copy = scatter 0 r.targetSegs :=
  map_copy_writes .target (by rw [UInt64.toNat_zero, Nat.zero_add]; exact hfit.target)

/-- The target buffer holds the result, padded with the zeros of its allocation. -/
theorem Gathering.buffer_writeTarget (h : Gathering r disk s) :
    (s.ctx.writeTarget (lib.writeCiphertextToMem (r.sum lib disk).2)).buffer .target
      = some (r.resultByte lib disk) := by
  obtain ⟨m, hm, hprogress⟩ := h.buffer .target
  have hzero : ∀ k, m k = 0 := fun k => hprogress.frame k fun c hc => by cases hc
  rw [HeaanCtx.writeTarget_target, hm, Option.map_some]
  refine congrArg some (funext fun k => ?_)
  rw [hzero, HeaanReq.resultByte]

/-- The addition succeeded: every write is in flight. -/
theorem Gathering.scattering (hr : r.WellPlaced) (hfit : r.SizesFit) (h : Gathering r disk s)
    (hnil : s.inflight = []) (hadd : (r.sum lib disk).1 = 0) {rc : ℕ → ℤ}
    (hrc : ∀ k < r.cdw13.toNat, rc k = 0) {w : St}
    (hw : w = startWrites rc
      (storeResult (lib.writeCiphertextToMem (r.sum lib disk).2) (readInputs s))) :
    w.inflight.length = r.cdw13.toNat ∧ Scattering r lib disk w := by
  have hlen : (ioList .write .target 0 r.targetList).length = r.cdw13.toNat := by
    rw [length_ioList, HeaanReq.targetList, length_extsAt]
  have hall : submitWrites rc 0 (ioList .write .target 0 r.targetList) = _ :=
    submitWrites_of_all fun k hk => by
      rw [Nat.zero_add]
      exact hrc k (hlen ▸ hk)
  have hwords := hr.payloadWords_lt
  rw [HeaanReq.payloadWords] at hwords
  have hflight : w.inflight = ioList .write .target 0 r.targetList := by
    rw [hw, startWrites_inflight, storeResult_inflight, storeResult_targetExt, readInputs_inflight,
      readInputs_ctx, hnil, h.ctx.targetExt, hall, List.nil_append]
  have htrace : w.trace = (storeResult (lib.writeCiphertextToMem (r.sum lib disk).2)
      (readInputs s)).trace ++ (ioList .write .target 0 r.targetList).map (Effect.submit · 0) := by
    rw [hw, startWrites_trace, storeResult_targetExt, readInputs_ctx, h.ctx.targetExt, hall]
  rw [storeResult_trace] at htrace
  have hpending : w.ctx.pendingFills = r.cdw13.toNat := by
    rw [hw, startWrites_ctx, storeResult_pending, readInputs_ctx, h.ctx.targetExtentsCount]
    exact asInt32_eq (by omega) (by omega)
  have hbuffer : w.ctx.buffer .target = some (r.resultByte lib disk) := by
    rw [hw]
    exact h.buffer_writeTarget
  have hdisk : w.disk = disk := by
    rw [hw]
    exact h.disk_eq
  have hstored : ∀ e ∈ Effect.writeCiphertext ((readInputs s).ctx.buffer .target).isSome
      (lib.writeCiphertextToMem (r.sum lib disk).2).length ::
        ((readInputs s).dmaFree .input0 ++ (readInputs s).dmaFree .input1),
      e.plain = true ∧ (∀ io success, e ≠ .callback io success) ∧ e ≠ .complete := by
    intro e he
    rcases mem_stored he with rfl | rfl | rfl <;>
      exact ⟨rfl, fun _ _ => Effect.noConfusion, Effect.noConfusion⟩
  refine ⟨hflight ▸ hlen, hw ▸ h.handler, hadd, fun io hio => hflight ▸ hio, ?_, ?_, hbuffer, ?_,
    ?_, ?_⟩
  · rw [hpending, hflight, hlen]
  · rw [hflight, hlen]
    omega
  · rw [hdisk]
    refine .start fun c hc => ?_
    rw [← HeaanReq.scatter_targetSegs hfit] at hc
    obtain ⟨io, hio, rfl⟩ := List.mem_map.mp hc
    exact ⟨io, hflight ▸ hio, rfl⟩
  · rw [htrace]
    refine ((h.log_readInputs hfit hnil).append_plain fun e he => (hstored e he).1).append_writes
      ?_ fun e he => ?_
    · have hperm := h.perm
      rw [hnil, List.append_nil] at hperm
      rwa [fillCallbacks_append, fillCallbacks_eq_nil fun e he => (hstored e he).2.1,
        List.append_nil, fillCallbacks_readInputs]
    · obtain ⟨io, -, rfl⟩ := List.mem_map.mp he
      exact ⟨io, 0, rfl⟩
  · rw [htrace]
    intro hc
    simp only [List.mem_append] at hc
    rcases hc with (hc | hc) | hc
    · refine (List.mem_append.mp hc).elim h.incomplete fun hc => ?_
      simp at hc
    · exact (hstored _ hc).2.2 rfl
    · obtain ⟨io, -, h⟩ := List.mem_map.mp hc
      cases h

/-- **The last read**: an error is reported, or the write phase begins. -/
theorem Gathering.fillDone (hr : r.WellPlaced) (hfit : r.SizesFit) (h : Gathering r disk s)
    (hnil : s.inflight = []) {rc : ℕ → ℤ} (hrc : ∀ k < r.cdw13.toNat, rc k = 0) (io : Io) :
    SmoothPhase r lib disk (fillDone lib rc io s) := by
  rw [NdpHeaan.fillDone, h.addResult_eq hfit hnil]
  split
  · rename_i hadd
    exact h.settled_addFailed hfit hnil hadd io
  · rename_i hadd
    obtain ⟨hlen, hw⟩ := h.scattering hr hfit hnil (not_not.mp hadd) hrc rfl
    rcases Nat.eq_zero_or_pos r.cdw13.toNat with h0 | hpos
    · exact .settled hw.handler (List.length_eq_zero_iff.mp (hlen.trans h0))
        (hw.correct fun _ => by omega)
    · exact .scattering hw (hlen ▸ hpos)

/-- Counting down a write keeps the write phase. -/
theorem Scattering.deliver (hr : r.WellPlaced) (hfit : r.SizesFit) (h : Scattering r lib disk s)
    {k : ℕ} {io : Io} (hio : s.inflight[k]? = some io) :
    Scattering r lib disk (countDown io true (s.delivered k io true)) := by
  have hperm := eraseIdx_perm hio
  have hwrite := h.writes io (List.mem_of_getElem? hio)
  have hcb : io.cb = .write := cb_of_mem_ioList hwrite
  have hbuf : s.ctx.buffer io.buf = some (r.resultByte lib disk) :=
    (buf_of_mem_ioList hwrite).symm ▸ h.buffer
  have hlen := hperm.length_eq
  rw [List.length_cons] at hlen
  have hlt := h.pending_lt
  have htrace : (countDown io true (s.delivered k io true)).trace
      = s.trace ++ [Effect.callback io true] := by
    rw [delivered_write _ hcb hbuf]
    rfl
  rw [delivered_write _ hcb hbuf] at htrace ⊢
  refine ⟨h.handler, h.added, fun io' hio' => ?_, ?_, ?_, h.buffer, ?_, ?_, fun hc => ?_⟩
  · exact h.writes io' (hperm.subset (List.mem_cons_of_mem _ hio'))
  · have hcount := h.pending
    change asInt32 (s.ctx.pendingFills - 1) = ((s.inflight.eraseIdx k).length : ℤ)
    rw [hcount, asInt32_eq (by omega) (by omega)]
    omega
  · change (s.inflight.eraseIdx k).length < _
    omega
  · refine h.progress.apply (pairwise_scatter hr.disjoint) ?_ ?_
    · rw [← HeaanReq.scatter_targetSegs hfit]
      exact List.mem_map_of_mem hwrite
    · rintro d - ⟨io', hio', rfl⟩
      rcases List.mem_cons.mp (hperm.symm.subset hio') with rfl | hin
      · exact Or.inr rfl
      · exact Or.inl ⟨io', hin, rfl⟩
  · rw [htrace]
    refine h.log.append_plain fun e he => ?_
    obtain rfl := List.mem_singleton.mp he
    rfl
  · rw [htrace] at hc
    refine (List.mem_append.mp hc).elim h.incomplete fun hc => ?_
    cases List.mem_singleton.mp hc

/-- **The last write**: the target holds the result. -/
theorem Scattering.writeDone (h : Scattering r lib disk s) (hnil : s.inflight = []) (io : Io) :
    SmoothPhase r lib disk (writeDone io s) := by
  refine .settled h.handler hnil ⟨?_, fun _ _ k e hk => ?_, fun _ => h.frame, fun _ _ _ => ?_⟩
  · refine h.log.append_plain fun e he => ?_
    simp only [List.mem_append, List.mem_cons, List.not_mem_nil, or_false] at he
    rcases he with ((rfl | rfl) | he) | rfl | rfl | rfl
    all_goals first | rfl | (obtain rfl := St.mem_dmaFree he; rfl)
  · have hdone := h.progress.all_done fun c _ ⟨io, hio, _⟩ => by simp [hnil] at hio
    have hget : (scatter 0 r.targetSegs)[k]? =
        some ⟨0 + total (r.targetSegs.take k), e.seg.start, e.seg.len⟩ := by
      rw [getElem?_scatter, HeaanReq.targetSegs, List.getElem?_map, hk]
      rfl
    have hread := (hdone _ (List.mem_of_getElem? hget)).read_eq
    rw [Nat.zero_add] at hread
    exact hread
  · exact List.mem_append_right _ (List.mem_append_right _ (by simp))

/-- **A smooth step keeps the invariant.** -/
theorem SmoothPhase.step (hr : r.WellPlaced) (hfit : r.SizesFit) {s' : St} {l : Label}
    (h : SmoothPhase r lib disk s) (hsmooth : r.Smooth s l)
    (hstep : heaanStep r lib s l = some s') : SmoothPhase r lib disk s' := by
  rcases heaanStep_cases hstep with ⟨al, rc, rfl, hidle, rfl⟩ | ⟨k, success, rc, io, rfl, hio, rfl⟩
  · cases h with
    | idle h =>
      subst h
      obtain ⟨hflight, hg⟩ := @gathering_exec r disk _ _ _ hr hfit hsmooth
      refine .gathering hg ?_
      rw [hflight, HeaanReq.length_readIos]
      exact hr.inputs
    | gathering h => cases hidle.symm.trans h.handler
    | scattering h => cases hidle.symm.trans h.handler
    | settled hh => cases hidle.symm.trans hh
  · obtain ⟨rfl, hrc⟩ := hsmooth
    have hmem := List.mem_of_getElem? hio
    cases h with
    | idle h => simp [h] at hmem
    | settled _ hnil => simp [hnil] at hmem
    | gathering h hpos =>
      have hg := h.deliver hr hfit hio
      have hcb : io.cb = .fill :=
        HeaanReq.cb_of_mem_readIos (h.perm.subset (List.mem_append_right _ hmem))
      simp only [runCallback, hcb]
      have hpending := hg.pending
      rcases fillComplete_cases lib rc io true (s.delivered k io true) with
        ⟨hlt, heq⟩ | ⟨h0, heq⟩ | ⟨hneg, -⟩
      · rw [heq]
        exact .gathering hg (by omega)
      · rw [heq]
        exact hg.fillDone hr hfit (List.length_eq_zero_iff.mp (by omega)) hrc io
      · omega
    | scattering h hpos =>
      have hw := h.deliver hr hfit hio
      have hcb : io.cb = .write := cb_of_mem_ioList (h.writes io hmem)
      simp only [runCallback, hcb]
      have hpending := hw.pending
      rcases writeComplete_cases io true (s.delivered k io true) with
        ⟨hlt, heq⟩ | ⟨h0, heq⟩ | ⟨hneg, -⟩
      · rw [heq]
        exact .scattering hw (by omega)
      · rw [heq]
        exact hw.writeDone (List.length_eq_zero_iff.mp (by omega)) io
      · omega

end Phases

theorem pairwise_disj_pair {s t : Seg} (h : s.start + s.len ≤ t.start) :
    [s, t].Pairwise Seg.Disj :=
  List.pairwise_pair.mpr fun _ hs ht => by
    have := hs.2
    have := ht.1
    omega

/-- A first input of `2 ^ 63` bytes and another block more than that, on a device of `2 ^ 64` bytes;
one block for the second input and two for the target. -/
def HeaanReq.wrapping : HeaanReq :=
  .sample (2 ^ 55) 4096 2 1 2
    [0, 0, 2 ^ 63, 0, 2 ^ 63 + 512, 0, 512, 512, 0, 1024, 512, 1536, 512]

end NdpHeaan
