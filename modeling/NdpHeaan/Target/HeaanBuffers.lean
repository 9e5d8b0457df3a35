import NdpHeaan.Target.HeaanResult
import NdpHeaan.Target.HeaanSafe

/-!
# Target/HeaanBuffers — when HEaaN add stays inside its DMA buffers

The three buffers are allocated with the 64-bit sums of the lengths of their lists, without a look
at the outcome, and `buffer_address` is advanced through them separately, in the handler for the
reads and in a callback for the writes.  The result is serialised into the target buffer, whatever
its length.  So the command stays inside exactly when no sum wraps, the allocations succeed, and the
serialised sum is no longer than the target list — and only as far as it gets.
-/

open Machinery

namespace NdpHeaan

/-! ## The statement -/

/-- The bytes of its buffer an I/O is handed. -/
def Io.range (io : Io) : Seg := ⟨io.off.toNat, io.ext.length.toNat⟩

/-- The size a buffer is allocated with. -/
def Parsed.size (p : Parsed) : Buf → UInt64
  | .input0 => p.input0Size
  | .input1 => p.input1Size
  | .target => p.targetSize

/-- The bytes there are in a buffer: none, where its allocation returned `NULL`. -/
def Parsed.dmaSize (p : Parsed) (al : Alloc) (b : Buf) : ℕ :=
  if al.buf b then (p.size b).toNat else 0

/-- **A contained log**: what is handed to the device lies inside its buffer, different reads into
one buffer do not overlap, and the result is serialised inside the target buffer. -/
structure Contained (p : Parsed) (al : Alloc) (t : List Effect) : Prop where
  inside : ∀ io c, .submit io c ∈ t → io.range.Within (p.dmaSize al io.buf)
  disjoint : (submissions t).Pairwise fun x y =>
    x.1.cb = .fill → y.1.cb = .fill → x.1.buf = y.1.buf → x.1.range.Disj y.1.range
  result : ∀ target len, .writeCiphertext target len ∈ t → len ≤ p.dmaSize al .target

/-- Runs with these allocations. -/
def UsesAlloc (al : Alloc) (_ : St) : Label → Prop
  | .exec al' _ => al' = al
  | .deliver _ _ _ => True

/-- **A command stays inside its buffers**, along every run with these allocations. -/
def StaysInside (r : HeaanReq) (lib : HeaanLib) (disk : ℕ → UInt8) (al : Alloc) : Prop :=
  ∀ s, (heaanSys r lib disk).Reach (UsesAlloc al) s → Contained r.parsed al s.trace

namespace HeaanReq

variable (r : HeaanReq)

/-- The handler gets to its read loops. -/
def Starts (al : Alloc) : Prop :=
  r.noData = false ∧ al.ctx = true ∧ (al.targetExt = true ∨ r.cdw13.toNat = 0)

/-- The number of bytes a list names. -/
def listed : Buf → ℕ
  | .target => total r.targetSegs
  | b => total (r.inputSegs b)

/-- The input as the library is handed it: `NULL` for a buffer that could not be allocated. -/
def handedCiphertext (al : Alloc) (lib : HeaanLib) (disk : ℕ → UInt8) (b : Buf) : lib.Ct :=
  lib.readCiphertextFromMem (if al.buf b then some (readAll disk (r.inputSegs b)) else none)
    (UInt64.ofNat (total (r.inputSegs b))) 0

/-- The return value and the result of adding the inputs on the device. -/
def handedSum (al : Alloc) (lib : HeaanLib) (disk : ℕ → UInt8) : ℤ × lib.Ct :=
  lib.ciphertextAdd (r.handedCiphertext al lib disk .input0)
    (r.handedCiphertext al lib disk .input1)

/-- **The condition**: each list fits the buffer it goes through, and so does the serialised sum, as
far as the command gets. -/
def BuffersSuffice (lib : HeaanLib) (disk : ℕ → UInt8) (al : Alloc) : Prop :=
  r.Starts al →
    (r.listed .input0 ≤ r.parsed.dmaSize al .input0 ∧
      r.listed .input1 ≤ r.parsed.dmaSize al .input1) ∧
    (0 < r.cdw11.toNat + r.cdw12.toNat → (r.handedSum al lib disk).1 = 0 →
      (lib.writeCiphertextToMem (r.handedSum al lib disk).2).length
        ≤ r.parsed.dmaSize al .target ∧
      r.listed .target ≤ r.parsed.dmaSize al .target)

end HeaanReq

/-! ## Walking through a buffer -/

section Walk

variable {cb : Callback} {b : Buf}

/-- An I/O of a loop whose extents fit lies inside. -/
theorem range_of_mem_ioList {size : ℕ} (hsize : size < 2 ^ 64) : ∀ {off : UInt64}
    {es : List Extent} {io : Io}, off.toNat + total (es.map Extent.seg) ≤ size →
      io ∈ ioList cb b off es →
        off.toNat ≤ io.range.start ∧ io.range.start + io.range.len ≤ size
  | off, e :: es, io, h, hio => by
      rw [List.map_cons, total_cons, Extent.seg_len] at h
      have hoff : (off + e.length).toNat = off.toNat + e.length.toNat :=
        toNat_add_length (n := 0) (by omega)
      rcases List.mem_cons.mp hio with rfl | hio
      · exact ⟨Nat.le_refl _, by simp only [Io.range]; omega⟩
      · obtain ⟨hle, hin⟩ := range_of_mem_ioList hsize (by omega) hio
        exact ⟨by omega, hin⟩

/-- …and apart from the others. -/
theorem pairwise_disj_ioList : ∀ {off : UInt64} {es : List Extent},
    off.toNat + total (es.map Extent.seg) < 2 ^ 64 →
      (ioList cb b off es).Pairwise fun x y => x.range.Disj y.range
  | _, [], _ => List.Pairwise.nil
  | off, e :: es, h => by
      rw [List.map_cons, total_cons, Extent.seg_len] at h
      have hoff : (off + e.length).toNat = off.toNat + e.length.toNat :=
        toNat_add_length (n := 0) (by omega)
      refine List.Pairwise.cons (fun io hio k hk hk' => ?_) (pairwise_disj_ioList (by omega))
      have hle := (range_of_mem_ioList (Nat.lt_succ_self _) (by omega) hio).1
      have hlt := hk.2
      have hge := hk'.1
      simp only [Io.range] at hlt
      omega

/-- **A loop whose I/Os all lie inside a buffer fits it**: the first address that wraps, or the
first byte of a missing buffer, would not. -/
theorem total_le_of_within {size : ℕ} (hsize : size < 2 ^ 64) : ∀ {off : UInt64}
    {es : List Extent}, off.toNat ≤ size → (∀ io ∈ ioList cb b off es, io.range.Within size) →
      off.toNat + total (es.map Extent.seg) ≤ size
  | off, [], hle, _ => hle
  | off, e :: es, hle, h => by
      have hhead := h _ (List.mem_cons_self ..)
      have hlen : off.toNat + e.length.toNat ≤ size := by
        rcases Nat.eq_zero_or_pos e.length.toNat with hz | hpos
        · omega
        · exact hhead.le hpos
      have hoff : (off + e.length).toNat = off.toNat + e.length.toNat :=
        toNat_add_length (n := 0) (by omega)
      have ih := total_le_of_within hsize (hoff ▸ hlen) fun io hio =>
        h io (List.mem_cons_of_mem _ hio)
      rw [List.map_cons, total_cons, Extent.seg_len]
      omega

end Walk

section Sizes

variable {r : HeaanReq} {al : Alloc}

theorem Parsed.dmaSize_lt (p : Parsed) (al : Alloc) (b : Buf) : p.dmaSize al b < 2 ^ 64 := by
  unfold dmaSize
  split
  · exact (p.size b).toNat_lt
  · decide

/-- A list that fits its buffer does not wrap. -/
theorem HeaanReq.listed_lt {b : Buf} (h : r.listed b ≤ r.parsed.dmaSize al b) :
    r.listed b < 2 ^ 64 :=
  Nat.lt_of_le_of_lt h (Parsed.dmaSize_lt _ _ _)

/-- A list fits its buffer exactly when its I/Os lie inside. -/
theorem within_iff (cb : Callback) (b : Buf) {es : List Extent} {size : ℕ} (hsize : size < 2 ^ 64) :
    (∀ io ∈ ioList cb b 0 es, io.range.Within size) ↔ total (es.map Extent.seg) ≤ size := by
  constructor
  · intro h
    have hle := total_le_of_within hsize (Nat.zero_le _) h
    rwa [UInt64.toNat_zero, Nat.zero_add] at hle
  · intro h io hio
    exact Seg.within_of_le (range_of_mem_ioList hsize (by
      rwa [UInt64.toNat_zero, Nat.zero_add]) hio).2

end Sizes

/-! ## Contained logs -/

/-- Effects that hand no buffer to the device or the library's serialiser. -/
def Effect.still : Effect → Bool
  | .submit _ _ | .writeCiphertext _ _ => false
  | _ => true

section Logs

variable {p : Parsed} {al : Alloc} {t u : List Effect}

theorem submissions_of_still (hu : ∀ e ∈ u, e.still = true) : submissions u = [] :=
  List.filterMap_eq_nil_iff.mpr fun e he => by
    cases e with
    | submit => cases hu _ he
    | _ => rfl

theorem Contained.of_still (hu : ∀ e ∈ u, e.still = true) : Contained p al u where
  inside io c hc := by cases hu _ hc
  disjoint := by
    rw [submissions_of_still hu]
    exact List.Pairwise.nil
  result target len hc := by cases hu _ hc

/-- Writes may follow, inside the target buffer: only reads must not overlap. -/
theorem Contained.append_writes (ht : Contained p al t)
    (hin : ∀ io c, .submit io c ∈ u → io.cb = .write ∧ io.range.Within (p.dmaSize al io.buf))
    (hlen : ∀ target len, .writeCiphertext target len ∈ u → len ≤ p.dmaSize al .target) :
    Contained p al (t ++ u) where
  inside io c hc := (List.mem_append.mp hc).elim (ht.inside io c) fun hc => (hin io c hc).2
  disjoint := by
    have hwrite : ∀ x ∈ submissions u, x.1.cb ≠ .fill := fun x hx hcb => by
      rw [(hin x.1 x.2 (mem_submissions.mp hx)).1] at hcb
      cases hcb
    rw [submissions_append]
    refine List.pairwise_append.mpr ⟨ht.disjoint, ?_, ?_⟩
    · exact List.pairwise_of_forall_mem_list fun x hx y _ hcb => absurd hcb (hwrite x hx)
    · exact fun x _ y hy _ hcb => absurd hcb (hwrite y hy)
  result target len hc := (List.mem_append.mp hc).elim (ht.result target len) (hlen target len)

theorem Contained.append_still (ht : Contained p al t) (hu : ∀ e ∈ u, e.still = true) :
    Contained p al (t ++ u) :=
  ht.append_writes (fun _ _ hc => by cases hu _ hc) fun _ _ hc => by cases hu _ hc

@[simp] theorem St.all_still_dmaFree (s : St) (b : Buf) : (s.dmaFree b).all Effect.still = true :=
  List.all_eq_true.mpr fun e he => by
    rw [mem_dmaFree he]
    rfl

/-- The submissions of a read loop are the reads it was given, up to the first rejected one. -/
theorem submissions_submitReads_isPrefix {rc : ℕ → ℤ} : ∀ {k : ℕ} {ios : List Io},
    (submissions (submitReads rc k ios).effects).map Prod.fst <+: ios
  | _, [] => List.prefix_rfl
  | k, io :: ios => by
      rw [submitReads]
      split
      · exact ⟨ios, rfl⟩
      · exact (List.prefix_cons_inj io).mpr submissions_submitReads_isPrefix

end Logs

theorem St.writeCiphertext_mem_addLog (s : St) (bytes : List UInt8) :
    .writeCiphertext (s.ctx.buffer .target).isSome bytes.length ∈ s.addLog bytes := by
  simp [addLog]

/-! ## The reads -/

section Reads

variable {r : HeaanReq} {al : Alloc} {rc : ℕ → ℤ} {s : St}

/-- The reads of lists that fit lie inside their buffers… -/
theorem within_of_mem_reads (h0 : r.listed .input0 ≤ r.parsed.dmaSize al .input0)
    (h1 : r.listed .input1 ≤ r.parsed.dmaSize al .input1) {io : Io} (hio : io ∈ r.parsed.reads) :
    io.range.Within (r.parsed.dmaSize al io.buf) := by
  rcases List.mem_append.mp hio with hio | hio
  · rw [buf_of_mem_ioList hio]
    exact (within_iff .fill _ (Parsed.dmaSize_lt _ _ _)).mpr h0 io hio
  · rw [buf_of_mem_ioList hio]
    exact (within_iff .fill _ (Parsed.dmaSize_lt _ _ _)).mpr h1 io hio

/-- …and do not overlap. -/
theorem pairwise_reads (h0 : r.listed .input0 ≤ r.parsed.dmaSize al .input0)
    (h1 : r.listed .input1 ≤ r.parsed.dmaSize al .input1) :
    r.parsed.reads.Pairwise fun x y => x.buf = y.buf → x.range.Disj y.range := by
  have hdisj : ∀ {b} {es : List Extent}, total (es.map Extent.seg) < 2 ^ 64 →
      (ioList .fill b 0 es).Pairwise fun x y => x.buf = y.buf → x.range.Disj y.range := by
    intro b es h
    refine List.Pairwise.imp ?_ (pairwise_disj_ioList (by rwa [UInt64.toNat_zero, Nat.zero_add]))
    exact fun hxy _ => hxy
  refine List.pairwise_append.mpr ⟨hdisj (HeaanReq.listed_lt h0), hdisj (HeaanReq.listed_lt h1), ?_⟩
  intro x hx y hy hbuf
  rw [buf_of_mem_ioList hx, buf_of_mem_ioList hy] at hbuf
  cases hbuf

/-- **The read loops stay inside.** -/
theorem contained_reads (h0 : r.listed .input0 ≤ r.parsed.dmaSize al .input0)
    (h1 : r.listed .input1 ≤ r.parsed.dmaSize al .input1) :
    Contained r.parsed al (submitReads rc 0 r.parsed.reads).effects where
  inside io c hc := by
    obtain ⟨io', hio', c', heq⟩ := mem_submitReads hc
    cases heq
    exact within_of_mem_reads h0 h1 hio'
  disjoint := by
    have hpre := (pairwise_reads h0 h1).sublist
      (@submissions_submitReads_isPrefix rc 0 r.parsed.reads).sublist
    exact (List.pairwise_map.mp hpre).imp fun h _ _ => h
  result target len hc := by
    obtain ⟨_, -, _, heq⟩ := mem_submitReads hc
    cases heq

theorem still_allocated (htrace : ∀ e ∈ s.trace, e.still = true) :
    ∀ e ∈ (r.allocated al s).trace, e.still = true := by
  intro e he
  rcases HeaanReq.mem_allocated he with he | ⟨o, rfl⟩
  · exact htrace e he
  · rfl

theorem still_buffers : ∀ e ∈ al.buffers, e.still = true := by
  intro e he
  obtain ⟨o, rfl⟩ := Alloc.mem_buffers he
  rfl

theorem Contained.still_append {p : Parsed} {t u : List Effect} (ht : ∀ e ∈ t, e.still = true)
    (hu : Contained p al u) : Contained p al (t ++ u) where
  inside io c hc := hu.inside io c ((List.mem_append.mp hc).resolve_left fun h => by cases ht _ h)
  disjoint := by
    rw [submissions_append, submissions_of_still ht, List.nil_append]
    exact hu.disjoint
  result target len hc :=
    hu.result target len ((List.mem_append.mp hc).resolve_left fun h => by cases ht _ h)

end Reads

/-! ## Filling the buffers -/

section Filling

variable {r : HeaanReq} {lib : HeaanLib} {disk : ℕ → UInt8} {al : Alloc} {rc : ℕ → ℤ} {s : St}
  {p : Parsed} {k : ℕ} {io : Io}

theorem exec_of_starts (hp : (heaanParse r).2 = .parsed p) (h : r.Starts al) :
    nvmfBdevCtrlrCustomHeaanCipaddCmd r al rc s = execParsed r al rc p (r.allocated al s) := by
  obtain ⟨hnd, hctx, htarget⟩ := h
  have hno : (!al.targetExt && p.targetExt.length != 0) = false := by
    rw [(length_of_parsed hp).2.2]
    rcases htarget with h | h <;> simp [h]
  simp only [nvmfBdevCtrlrCustomHeaanCipaddCmd, hctx, hnd, hp, hno, Bool.not_true,
    Bool.false_eq_true, if_false]

/-- A parsed command that does not start submits nothing. -/
theorem exec_of_not_starts (hp : (heaanParse r).2 = .parsed p) (h : ¬ r.Starts al) :
    nvmfBdevCtrlrCustomHeaanCipaddCmd r al rc s = s.crash ∨
    nvmfBdevCtrlrCustomHeaanCipaddCmd r al rc s = (r.allocated al s).crash ∨
    ∃ sc, nvmfBdevCtrlrCustomHeaanCipaddCmd r al rc s = (r.allocated al s).reject sc := by
  unfold nvmfBdevCtrlrCustomHeaanCipaddCmd
  split
  · exact Or.inl rfl
  rename_i hctx
  split
  · exact Or.inr (Or.inr ⟨_, rfl⟩)
  rename_i hnd
  rw [hp]
  dsimp only
  split
  · exact Or.inr (Or.inl rfl)
  rename_i htarget
  refine absurd ⟨Bool.eq_false_iff.mpr hnd, by simpa using hctx, ?_⟩ h
  rw [(length_of_parsed hp).2.2] at htarget
  cases hal : al.targetExt with
  | true => exact Or.inl rfl
  | false => exact Or.inr (by simpa [hal] using htarget)

/-- The reads are in flight: a buffer that could be allocated is gathered up to them. -/
structure Filling (r : HeaanReq) (disk : ℕ → UInt8) (al : Alloc) (s : St) : Prop where
  reads : ReadPhase r r.parsed s
  disk_eq : s.disk = disk
  ctx : CtxOk r s.ctx
  missing : ∀ b, al.buf b = false → s.ctx.buffer b = none
  gathered : ∀ b, al.buf b = true → ∃ m, s.ctx.buffer b = some m ∧
    Progress (gather 0 (r.inputSegs b)) (fun c => ∃ io ∈ s.inflight, io.buf = b ∧ io.copy = c)
      disk (fun _ => 0) m

/-- Both input lists fit their buffers. -/
def InputsFit (r : HeaanReq) (al : Alloc) : Prop :=
  r.listed .input0 ≤ r.parsed.dmaSize al .input0 ∧ r.listed .input1 ≤ r.parsed.dmaSize al .input1

theorem InputsFit.lt (h : InputsFit r al) (b : Buf) : total (r.inputSegs b) < 2 ^ 64 := by
  cases b with
  | input0 => exact HeaanReq.listed_lt h.1
  | input1 => exact HeaanReq.listed_lt h.2
  | target => exact Nat.two_pow_pos 64

theorem filling_exec (hsmall : r.cdw11.toNat + r.cdw12.toNat + r.cdw13.toNat < 2 ^ 28)
    (hp : (heaanParse r).2 = .parsed r.parsed) (hstarts : r.Starts al) (hfit : InputsFit r al)
    (hacc : submitReads rc 0 r.parsed.reads
      = ⟨r.parsed.reads, r.parsed.reads.map fun io => .submit io 0, false⟩) :
    Filling r disk al (execParsed r al rc r.parsed (r.allocated al { disk := disk })) := by
  have hreads := @readPhase_exec r al rc r.parsed { disk := disk } hsmall rfl hstarts.1 hp hacc
  rw [execParsed_of_accepted hacc] at hreads ⊢
  refine ⟨hreads, rfl, ctxOk_parsed al, fun b hb => ?_, fun b hb => ⟨fun _ => 0, if_pos hb, ?_⟩⟩
  · exact if_neg (by simp [hb])
  · exact .start fun c hc => HeaanReq.exists_read_of_mem_gather hfit.lt hc

/-- A successful read fills its part of its buffer, if there is one. -/
theorem Filling.countDown (hsmall : r.cdw11.toNat + r.cdw12.toNat + r.cdw13.toNat < 2 ^ 28)
    (hfit : InputsFit r al) (h : Filling r disk al s) (hio : s.inflight[k]? = some io) :
    Filling r disk al (countDown io true (s.delivered k io true)) := by
  have hread : io ∈ r.readIos :=
    h.reads.perm.subset (List.mem_append_right _ (List.mem_of_getElem? hio))
  have hcb : io.cb = .fill := HeaanReq.cb_of_mem_readIos hread
  have hdown := h.reads.countDown hsmall hio
  rw [delivered_fill _ hcb] at hdown ⊢
  refine ⟨hdown, h.disk_eq, ?_, fun b hb => ?_, fun b hb => ?_⟩
  · exact ⟨h.ctx.size0, h.ctx.size1, h.ctx.offset0, h.ctx.offset1, h.ctx.targetExt,
      h.ctx.targetExtentsCount⟩
  · change (s.ctx.fillBuffer io s.disk).buffer b = none
    by_cases hbuf : b = io.buf
    · subst hbuf
      rw [HeaanCtx.fillBuffer_self, h.missing _ hb, Option.map_none]
    · rw [HeaanCtx.fillBuffer_of_ne _ _ hbuf, h.missing _ hb]
  · obtain ⟨m, hm, hprogress⟩ := h.gathered b hb
    rw [h.disk_eq]
    exact gathered_deliver hfit.lt hread hio hm hprogress

/-- **The library is handed the inputs** once no read is in flight. -/
theorem Filling.addResult (hfit : InputsFit r al) (h : Filling r disk al s)
    (hnil : s.inflight = []) : s.ctx.addResult lib = r.handedSum al lib disk := by
  have hhanded : ∀ b, s.ctx.handed b (UInt64.ofNat (total (r.inputSegs b)))
      = if al.buf b then some (readAll disk (r.inputSegs b)) else none := by
    intro b
    cases hb : al.buf b with
    | false =>
      rw [HeaanCtx.handed, h.missing b hb]
      rfl
    | true =>
      obtain ⟨m, hm, hprogress⟩ := h.gathered b hb
      refine handed_of_gathered (hfit.lt b) hm hprogress ?_
      rintro c ⟨io, hio, -⟩
      rw [hnil] at hio
      cases hio
  rw [HeaanCtx.addResult, h.ctx.size0, h.ctx.size1, h.ctx.offset0, h.ctx.offset1, hhanded,
    hhanded]
  rfl

/-- **The invariant**: the buffers are being filled, or no read will ever end the read phase. -/
inductive FillPhase (r : HeaanReq) (disk : ℕ → UInt8) (al : Alloc) (s : St) : Prop
  | idle (h : s = { disk := disk })
  | filling (h : Filling r disk al s)
  | failing (h : FailPhase s)
  | settled (handler : s.handler ≠ .idle) (writes : ∀ io ∈ s.inflight, io.cb = .write)

/-- A callback that does not end the read phase hands no buffer on. -/
theorem quiet_callback {success : Bool} (hne : io.cb = .fill →
      (NdpHeaan.countDown io success (s.delivered k io success)).ctx.pendingFills ≠ 0) :
    (runCallback lib rc io success (s.delivered k io success)).inflight = s.inflight.eraseIdx k ∧
      ∃ u, (runCallback lib rc io success (s.delivered k io success)).trace = s.trace ++ u ∧
        ∀ e ∈ u, e.still = true := by
  obtain ⟨htrace, -, hin, -, -⟩ := entered_eq s k io success
  have hentered : ∀ e ∈ Effect.callback io success ::
      (if success then [] else [.rspSc .internalDeviceError]), e.still = true := by
    cases success <;> simp [Effect.still]
  -- the counter alone, or the frees and the response of an exit behind it
  have hexit : ∀ {c : St} {u : List Effect}, c.inflight = s.inflight.eraseIdx k →
      c.trace = s.trace ++ Effect.callback io success ::
        (if success then [] else [.rspSc .internalDeviceError]) →
      u.all Effect.still = true → (c.emit u).inflight = s.inflight.eraseIdx k ∧
        ∃ v, (c.emit u).trace = s.trace ++ v ∧ ∀ e ∈ v, e.still = true := by
    intro c u hc htr hu
    refine ⟨hc, _, by rw [St.emit_trace, htr, List.append_assoc], fun e he => ?_⟩
    exact (List.mem_append.mp he).elim (hentered e) (List.all_eq_true.mp hu e)
  unfold runCallback
  split
  · rename_i hcb
    rcases fillComplete_cases lib rc io success (s.delivered k io success) with
      ⟨-, heq⟩ | ⟨hz, -⟩ | ⟨-, heq⟩
    · rw [heq]
      exact ⟨hin, _, htrace, hentered⟩
    · exact absurd hz (hne hcb)
    · rw [heq]
      exact hexit hin htrace (by simp [Effect.still])
  · rcases writeComplete_cases io success (s.delivered k io success) with
      ⟨-, heq⟩ | ⟨-, heq⟩ | ⟨-, heq⟩
    · rw [heq]
      exact ⟨hin, _, htrace, hentered⟩
    · rw [heq]
      exact hexit hin htrace (by simp [Effect.still])
    · rw [heq]
      exact hexit hin htrace (by simp [Effect.still])

/-- **What a delivery does**: it ends the read phase with filled buffers, or hands no buffer on. -/
theorem FillPhase.deliver_cases (hsmall : r.cdw11.toNat + r.cdw12.toNat + r.cdw13.toNat < 2 ^ 28)
    (hfit : InputsFit r al) (h : FillPhase r disk al s) (hio : s.inflight[k]? = some io)
    (success : Bool) :
    (∃ c, Filling r disk al c ∧ c.inflight = [] ∧ c.trace = s.trace ++ [Effect.callback io true] ∧
      runCallback lib rc io success (s.delivered k io success) = fillDone lib rc io c) ∨
    (FillPhase r disk al (runCallback lib rc io success (s.delivered k io success)) ∧
      ∃ u, (runCallback lib rc io success (s.delivered k io success)).trace = s.trace ++ u ∧
        ∀ e ∈ u, e.still = true) := by
  have hmem := List.mem_of_getElem? hio
  cases h with
  | idle h =>
    rw [h] at hmem
    cases hmem
  | failing h =>
    exact Or.inr ⟨.failing (h.deliver hio success),
      (quiet_callback fun _ => (h.countDown hio success).2).2⟩
  | settled hidle hwrites =>
    have hquiet := @quiet_callback lib rc s k io success fun hcb => by
      rw [hwrites io hmem] at hcb
      cases hcb
    refine Or.inr ⟨.settled ?_ fun io' hio' => ?_, hquiet.2⟩
    · rw [handler_runCallback, (delivered_eq s k io success).2.1]
      exact hidle
    · rw [hquiet.1] at hio'
      exact hwrites io' (List.mem_of_mem_eraseIdx hio')
  | filling h =>
    have hcb := Parsed.cb_of_mem_reads (h.reads.perm.subset (List.mem_append_right _ hmem))
    cases success with
    | false =>
      have hmark := entered_pending_false s k io
      have hquiet := @quiet_callback lib rc s k io false fun _ => by
        rw [hmark]
        decide
      refine Or.inr ⟨.failing ?_, hquiet.2⟩
      rw [runCallback, hcb]
      rcases fillComplete_cases lib rc io false (s.delivered k io false) with
        ⟨hpos, -⟩ | ⟨hz, -⟩ | ⟨-, heq⟩
      · omega
      · omega
      · exact heq ▸ (h.reads.failPhase hsmall hio).fillFailed io
    | true =>
      have hdown := h.countDown hsmall hfit hio
      have hpend := hdown.reads.pending
      have hfill : runCallback lib rc io true (s.delivered k io true)
          = nvmfHeaanBufferFillComplete lib rc io true (s.delivered k io true) := by
        rw [runCallback, hcb]
      rcases fillComplete_cases lib rc io true (s.delivered k io true) with
        ⟨hpos, heq⟩ | ⟨hz, heq⟩ | ⟨hneg, -⟩
      · refine Or.inr ⟨?_, (quiet_callback fun _ => Int.ne_of_gt hpos).2⟩
        rw [hfill, heq]
        exact .filling hdown
      · rw [hz] at hpend
        refine Or.inl ⟨_, hdown, List.length_eq_zero_iff.mp (by omega), ?_, hfill.trans heq⟩
        exact (entered_eq s k io true).1
      · omega

/-- The end of the read phase settles the command. -/
theorem settled_fillDone (h : s.handler ≠ .idle) (hnil : s.inflight = []) :
    FillPhase r disk al (fillDone lib rc io s) := by
  unfold fillDone
  dsimp only
  split
  · exact .settled h fun io' hio' => absurd hio' (by simp [addFailed, readInputs, St.emit, hnil])
  · refine .settled h fun io' hio' => ?_
    rw [startWrites_inflight, storeResult_inflight, readInputs_inflight, hnil, List.nil_append]
      at hio'
    exact cb_of_mem_ioList ((accepted_submitWrites_sublist 0 _).subset hio')

/-- What a handler that starts leaves behind. -/
theorem FillPhase.exec (hsmall : r.cdw11.toNat + r.cdw12.toNat + r.cdw13.toNat < 2 ^ 28)
    (hp : (heaanParse r).2 = .parsed r.parsed) (hstarts : r.Starts al) (hfit : InputsFit r al) :
    FillPhase r disk al (nvmfBdevCtrlrCustomHeaanCipaddCmd r al rc { disk := disk }) ∧
      Contained r.parsed al
        (nvmfBdevCtrlrCustomHeaanCipaddCmd r al rc { disk := disk }).trace := by
  have hlog : Contained r.parsed al ((r.allocated al { disk := disk }).trace ++ al.buffers ++
      (submitReads rc 0 r.parsed.reads).effects) := by
    refine .still_append (fun e he => ?_) (contained_reads hfit.1 hfit.2)
    exact (List.mem_append.mp he).elim (still_allocated (fun _ h => by cases h) e)
      (still_buffers e)
  rw [exec_of_starts hp hstarts]
  cases hrej : (submitReads rc 0 r.parsed.reads).rejected with
  | true =>
    refine ⟨.failing (failPhase_exec hsmall rfl hp hrej), ?_⟩
    unfold execParsed
    dsimp only
    rw [if_pos hrej]
    exact hlog.append_still (List.all_eq_true.mp (by simp [Effect.still]))
  | false =>
    have hacc := submitReads_of_not_rejected hrej
    refine ⟨.filling (filling_exec hsmall hp hstarts hfit hacc), ?_⟩
    rw [execParsed_of_accepted hacc]
    rwa [hacc] at hlog

/-- **Every run of a command whose inputs fit is in one of the phases.** -/
theorem fillPhase_of_reach (hsmall : r.cdw11.toNat + r.cdw12.toNat + r.cdw13.toNat < 2 ^ 28)
    (hp : (heaanParse r).2 = .parsed r.parsed) (hstarts : r.Starts al) (hfit : InputsFit r al)
    (hs : (heaanSys r lib disk).Reach (UsesAlloc al) s) : FillPhase r disk al s := by
  refine hs.invariant_of_reach (.idle rfl) ?_
  intro s l s' hr ih hal hstep
  rcases heaanStep_cases hstep with ⟨al', rc, rfl, hidle, rfl⟩ | ⟨k, success, rc, io, -, hio, rfl⟩
  · obtain rfl : al' = al := hal
    rw [eq_init_of_idle hr hidle]
    exact (FillPhase.exec hsmall hp hstarts hfit).1
  · rcases ih.deliver_cases hsmall hfit hio success with ⟨c, hc, hnil, -, heq⟩ | ⟨h, -⟩
    · rw [heq]
      exact settled_fillDone hc.reads.handler hnil
    · exact h

/-- A command that does not start stays inside, having nothing to do. -/
theorem staysInside_of_not_starts (hp : (heaanParse r).2 = .parsed r.parsed)
    (hstarts : ¬ r.Starts al) : StaysInside r lib disk al := by
  intro s hs
  have hquiet : s.inflight = [] ∧ ∀ e ∈ s.trace, e.still = true := by
    refine hs.invariant (I := fun s => s.inflight = [] ∧ ∀ e ∈ s.trace, e.still = true)
      ⟨rfl, nofun⟩ ?_
    rintro s l s' ⟨hnil, hstill⟩ hal hstep
    rcases heaanStep_cases hstep with ⟨al', rc, rfl, -, rfl⟩ | ⟨k, success, rc, io, -, hio, rfl⟩
    · obtain rfl : al' = al := hal
      have happend : ∀ {t u : List Effect}, (∀ e ∈ t, e.still = true) → u.all Effect.still = true →
          ∀ e ∈ t ++ u, e.still = true := fun ht hu e he =>
        (List.mem_append.mp he).elim (ht e) (List.all_eq_true.mp hu e)
      rcases @exec_of_not_starts r al' rc s r.parsed hp hstarts with heq | heq | ⟨sc, heq⟩
      · rw [heq]
        exact ⟨hnil, happend hstill rfl⟩
      · rw [heq]
        exact ⟨hnil, happend (still_allocated hstill) rfl⟩
      · rw [heq]
        exact ⟨hnil, happend (still_allocated hstill) rfl⟩
    · rw [hnil] at hio
      cases hio
  exact .of_still hquiet.2

/-- The end of the read phase stays inside, if the sum and the target list fit. -/
theorem Contained.fillDone (hfit : InputsFit r al) (h : Filling r disk al s)
    (hnil : s.inflight = []) (hlog : Contained r.parsed al s.trace)
    (hsum : (r.handedSum al lib disk).1 = 0 →
      (lib.writeCiphertextToMem (r.handedSum al lib disk).2).length ≤ r.parsed.dmaSize al .target ∧
      r.listed .target ≤ r.parsed.dmaSize al .target) :
    Contained r.parsed al (fillDone lib rc io s).trace := by
  have hadd : s.ctx.addResult lib = r.handedSum al lib disk := h.addResult hfit hnil
  by_cases hz : (r.handedSum al lib disk).1 = 0
  · obtain ⟨hlen, htarget⟩ := hsum hz
    rw [NdpHeaan.fillDone, hadd, if_neg (not_not.mpr hz), startWrites_log h.reads.targetExt]
    refine hlog.append_writes (fun io' c hc => ?_) fun target len hc => ?_
    · rcases List.mem_append.mp hc with hc | hc
      · rcases St.mem_addLog hc with hc | ⟨_, _, _, _, hc⟩ <;> cases hc
      · obtain ⟨io'', hio'', c', heq⟩ := mem_submitWrites hc
        cases heq
        refine ⟨cb_of_mem_ioList hio'', ?_⟩
        rw [buf_of_mem_ioList hio'']
        exact (within_iff .write _ (Parsed.dmaSize_lt _ _ _)).mpr htarget _ hio''
    · rcases List.mem_append.mp hc with hc | hc
      · rcases List.mem_append.mp hc with hc | hc
        · simp only [List.mem_cons, Effect.writeCiphertext.injEq, List.not_mem_nil, or_false,
            reduceCtorEq, false_or] at hc
          rw [hc.2]
          exact hlen
        · rcases List.mem_append.mp hc with hc | hc <;> cases St.mem_dmaFree hc
      · obtain ⟨_, -, _, heq⟩ := mem_submitWrites hc
        cases heq
  · rw [NdpHeaan.fillDone, hadd, if_pos hz, addFailed, St.emit_trace, readInputs, St.emit_trace,
      List.append_assoc]
    exact hlog.append_still (List.all_eq_true.mp (by simp [Effect.still]))

/-- **Sufficiency.** -/
theorem staysInside_of_suffice (hsmall : r.cdw11.toNat + r.cdw12.toNat + r.cdw13.toNat < 2 ^ 28)
    (hp : (heaanParse r).2 = .parsed r.parsed) (h : r.BuffersSuffice lib disk al) :
    StaysInside r lib disk al := by
  by_cases hstarts : r.Starts al
  · obtain ⟨hfit, hsum⟩ := h hstarts
    intro s hs
    refine hs.invariant_of_reach (I := fun s => Contained r.parsed al s.trace) 
      (.of_still fun _ h => by cases h) ?_
    intro s l s' hr ih hal hstep
    rcases heaanStep_cases hstep with ⟨al', rc, rfl, hidle, rfl⟩ | ⟨k, success, rc, io, -, hio, rfl⟩
    · obtain rfl : al' = al := hal
      rw [eq_init_of_idle hr hidle]
      exact (FillPhase.exec hsmall hp hstarts hfit).2
    · have hphase := fillPhase_of_reach hsmall hp hstarts hfit hr
      rcases hphase.deliver_cases hsmall hfit hio success with
        ⟨c, hc, hnil, htrace, heq⟩ | ⟨-, u, htrace, hu⟩
      · have hpos : 0 < r.cdw11.toNat + r.cdw12.toNat := by
          rw [← Parsed.length_reads hp, ← hc.reads.perm.length_eq, htrace]
          simp only [succeeded_append, List.length_append]
          exact Nat.add_pos_left (Nat.add_pos_right _ Nat.one_pos) _
        rw [heq]
        refine .fillDone hfit hc hnil ?_ (hsum hpos)
        rw [htrace]
        exact ih.append_still (by simp [Effect.still])
      · rw [htrace]
        exact ih.append_still hu
  · exact staysInside_of_not_starts hp hstarts

/-- A handler whose reads are all accepted. -/
theorem reach_reads (hp : (heaanParse r).2 = .parsed r.parsed) (hstarts : r.Starts al) :
    (heaanSys r lib disk).Reach (UsesAlloc al)
      { handler := .returned
        ctx := r.ctxParsed al r.parsed
        disk := disk
        inflight := r.parsed.reads
        trace := (r.allocated al { disk := disk }).trace ++ al.buffers ++
          r.parsed.reads.map fun io => .submit io 0 } := by
  have hacc : submitReads (fun _ => 0) 0 r.parsed.reads = _ := submitReads_of_all fun _ _ => rfl
  have hexec : nvmfBdevCtrlrCustomHeaanCipaddCmd r al (fun _ => 0) { disk := disk } = _ :=
    (exec_of_starts hp hstarts).trans (execParsed_of_accepted hacc)
  refine Sys.Reach.step (l := .exec al fun _ => 0) .init rfl ?_
  exact congrArg some hexec

/-- It submits every read, so the input lists must fit. -/
theorem inputsFit_of_staysInside (hp : (heaanParse r).2 = .parsed r.parsed)
    (hstarts : r.Starts al) (h : StaysInside r lib disk al) : InputsFit r al := by
  have hinside : ∀ io ∈ r.parsed.reads, io.range.Within (r.parsed.dmaSize al io.buf) :=
    fun io hio => (h _ (reach_reads hp hstarts)).inside io 0
      (List.mem_append_right _ (List.mem_map_of_mem hio))
  refine ⟨(within_iff .fill .input0 (Parsed.dmaSize_lt _ _ _)).mp fun io hio => ?_,
    (within_iff .fill .input1 (Parsed.dmaSize_lt _ _ _)).mp fun io hio => ?_⟩
  · have hin := hinside io (List.mem_append_left _ hio)
    rwa [buf_of_mem_ioList hio] at hin
  · have hin := hinside io (List.mem_append_right _ hio)
    rwa [buf_of_mem_ioList hio] at hin

/-- A run without failures gets to its last read. -/
theorem exists_filling_last (hsmall : r.cdw11.toNat + r.cdw12.toNat + r.cdw13.toNat < 2 ^ 28)
    (hp : (heaanParse r).2 = .parsed r.parsed) (hstarts : r.Starts al) (hfit : InputsFit r al)
    (hpos : 0 < r.cdw11.toNat + r.cdw12.toNat) :
    ∃ t io, (heaanSys r lib disk).Reach (UsesAlloc al) t ∧ t.inflight[0]? = some io ∧
      io.cb = .fill ∧ t.ctx.pendingFills = 1 ∧ Filling r disk al t := by
  have hlen := Parsed.length_reads hp
  have hpend : asInt32 (r.cdw11 + r.cdw12).toNat
      = asInt32 (r.cdw11.toNat + r.cdw12.toNat - 1 + 1 : ℕ) := by
    rw [UInt32.toNat_add, Nat.mod_eq_of_lt (by omega), Nat.sub_add_cancel hpos]
  obtain ⟨t, io, ht, hio, hcb, hone, -⟩ := exists_reach_last_read
    (fun _ => ⟨fun _ => 0, trivial⟩) (r.cdw11.toNat + r.cdw12.toNat - 1)
    (@reach_reads r lib disk al hp hstarts) (fun _ => Parsed.cb_of_mem_reads)
    (by dsimp only; omega) (by omega) hpend
  refine ⟨t, io, ht, hio, hcb, hone, ?_⟩
  have hmem := List.mem_of_getElem? hio
  -- the counter stands at one read: it has not missed zero, and it does not count writes
  cases fillPhase_of_reach hsmall hp hstarts hfit ht with
  | idle h =>
    rw [h] at hmem
    cases hmem
  | filling h => exact h
  | failing h =>
    have hmissed := h.missed
    have hsome := List.length_pos_of_mem hmem
    omega
  | settled _ hwrites =>
    rw [hwrites io hmem] at hcb
    cases hcb

/-- **Necessity**: the handler submits every read, and a run without failures every write. -/
theorem suffice_of_staysInside (hsmall : r.cdw11.toNat + r.cdw12.toNat + r.cdw13.toNat < 2 ^ 28)
    (hp : (heaanParse r).2 = .parsed r.parsed) (h : StaysInside r lib disk al) :
    r.BuffersSuffice lib disk al := by
  intro hstarts
  have hfit := inputsFit_of_staysInside hp hstarts h
  refine ⟨hfit, fun hpos hz => ?_⟩
  obtain ⟨t, io, ht, hio, hcb, hone, hfilling⟩ :=
    @exists_filling_last r lib disk al hsmall hp hstarts hfit hpos
  have hdown := hfilling.countDown hsmall hfit hio
  have hnil : (countDown io true (t.delivered 0 io true)).inflight = [] := by
    have hcount := hdown.reads.pending
    rw [entered_pending_true, hone, asInt32_eq (by decide) (by decide)] at hcount
    exact List.length_eq_zero_iff.mp (by omega)
  have hend := h _ (ht.step (l := .deliver 0 true fun _ => 0) trivial
    (heaanStep_deliver r lib hio true fun _ => 0))
  rw [deliver_last_read hcb hone, fillDone, hdown.addResult hfit hnil, if_neg (not_not.mpr hz),
    startWrites_log hdown.reads.targetExt] at hend
  refine ⟨?_, (within_iff .write .target (Parsed.dmaSize_lt _ _ _)).mp fun io' hio' => ?_⟩
  · exact hend.result _ _ (List.mem_append_right _ (List.mem_append_left _
      (St.writeCiphertext_mem_addLog _ _)))
  · obtain ⟨j, hj⟩ := List.mem_iff_getElem?.mp hio'
    have hin := hend.inside io' 0 (List.mem_append_right _ (List.mem_append_right _
      (@submit_mem_submitWrites (fun _ => 0) 0 r.parsed.writes j io' hj)))
    rwa [buf_of_mem_ioList hio'] at hin

end Filling

/-! ## When the command stays inside -/

/-- **HEaaN add stays inside its three DMA buffers exactly when they suffice**: for a command whose
lists lie inside the first data buffer and pass the range checks, on any device, with any library
and any allocations. -/
theorem staysInside_iff (r : HeaanReq) (lib : HeaanLib) (disk : ℕ → UInt8) (al : Alloc)
    (hinside : 8 * r.payloadWords ≤ r.iovLen)
    (hrange : ∀ e ∈ r.input0List ++ r.input1List ++ r.targetList, r.bdev.extentInRange e = true) :
    StaysInside r lib disk al ↔ r.BuffersSuffice lib disk al := by
  have hsmall := HeaanReq.counts_lt hinside
  have hlt := r.iovLen_lt
  have hp : (heaanParse r).2 = .parsed r.parsed := by
    refine heaanParse_of_all ?_ ?_ ?_ (by omega)
    all_goals
      refine List.all_eq_true.mpr fun e he => hrange e ?_
      simp [he]
  exact ⟨suffice_of_staysInside hsmall hp, staysInside_of_suffice hsmall hp⟩

theorem staysInside_several : StaysInside .several bytewiseLib (fun _ => 0) .ok := by
  refine (staysInside_iff _ _ _ _ (by decide +kernel) (by decide +kernel)).mpr fun _ => ?_
  exact ⟨⟨by decide +kernel, by decide +kernel⟩, fun _ _ => ⟨by decide +kernel, by decide +kernel⟩⟩

/-- Two ciphertexts of two blocks each, and a target of one block. -/
def HeaanReq.tightTarget : HeaanReq :=
  .sample 64 4096 1 1 1 [0, 0, 1024, 0, 1024, 1024, 0, 2048, 512]

/-- Their sum is serialised past the end of the target buffer. -/
theorem not_staysInside_tightTarget :
    8 * HeaanReq.tightTarget.payloadWords ≤ HeaanReq.tightTarget.iovLen ∧
    (∀ e ∈ HeaanReq.tightTarget.input0List ++ HeaanReq.tightTarget.input1List ++
      HeaanReq.tightTarget.targetList, HeaanReq.tightTarget.bdev.extentInRange e = true) ∧
    ¬ StaysInside .tightTarget bytewiseLib (fun _ => 0) .ok := by
  refine ⟨by decide +kernel, by decide +kernel, fun h => ?_⟩
  have hrun : (((heaanSys .tightTarget bytewiseLib fun _ => 0).run { disk := fun _ => 0 }
      [.exec Alloc.ok fun _ => 0, .deliver 0 true fun _ => 0, .deliver 0 true fun _ => 0]).map
        fun s => decide (.writeCiphertext true 1024 ∈ s.trace)) = some true := by
    decide +kernel
  obtain ⟨s, hs, hwritten⟩ := Option.map_eq_some_iff.mp hrun
  have hreach : (heaanSys .tightTarget bytewiseLib fun _ => 0).Reach (UsesAlloc .ok) s := by
    refine Sys.Reach.of_run _ (fun l hl _ => ?_) .init hs
    simp only [List.mem_cons, List.not_mem_nil, or_false] at hl
    rcases hl with rfl | rfl | rfl
    · rfl
    · trivial
    · trivial
  have hle := (h s hreach).result true 1024 (of_decide_eq_true hwritten)
  exact absurd hle (by decide +kernel)

end NdpHeaan
