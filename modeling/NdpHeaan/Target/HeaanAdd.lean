import Mathlib.Data.List.Perm.Basic
import NdpHeaan.Machinery.Run
import NdpHeaan.Target.HeaanParse

/-!
# Target/HeaanAdd — HEaaN add (opcode `0xE0`) as a system of callbacks

The handler `nvmf_bdev_ctrlr_custom_heaan_cipadd_cmd` parses the payload and submits one read for
each input extent; `nvmf_heaan_buffer_fill_complete` counts the reads down, adds the two ciphertexts
and submits one write for each target extent; `nvmf_heaan_cip_write_complete` counts the writes
down.

    exec ──reads──▸ deliver … deliver ──writes──▸ deliver … deliver ──▸ complete

A run interleaves them as the reactor does.  A callback never runs inside the submission that caused
it — `bdev_io_complete` defers a completion raised under `in_submit_request` — so the handler and
each callback are one step, and the environment chooses return codes, outcomes and the order of
delivery.  Everything the command does to the outside is logged in program order; a freed context
keeps its last values, as freed memory does until it is reused.
-/

open Machinery

namespace NdpHeaan

/-! ## The context and what the command does to the outside -/

/-- The three DMA buffers of a context. -/
inductive Buf
  | input0
  | input1
  | target
  deriving DecidableEq, Repr

/-- What the command allocates. -/
inductive Obj
  /-- The `heaan_ctx`. -/
  | ctx
  /-- The `malloc` of `ctx->target_ext`. -/
  | targetExt
  /-- A DMA buffer. -/
  | buf (b : Buf)
  deriving DecidableEq, Repr

/-- The two completion callbacks. -/
inductive Callback
  /-- `nvmf_heaan_buffer_fill_complete`. -/
  | fill
  /-- `nvmf_heaan_cip_write_complete`. -/
  | write
  deriving DecidableEq, Repr

/-- One `spdk_bdev_read` or `spdk_bdev_write` of the command. -/
structure Io where
  /-- The callback it was submitted with. -/
  cb : Callback
  /-- The buffer it moves bytes into or out of. -/
  buf : Buf
  /-- `buffer_address`, relative to the start of the buffer. -/
  off : UInt64
  /-- The byte range on the device. -/
  ext : Extent
  deriving DecidableEq, Repr

/-- The bytes an I/O moves: from the device for a read, onto it for a write. -/
def Io.copy (io : Io) : Copy :=
  match io.cb with
  | .fill => ⟨io.ext.offset.toNat, io.off.toNat, io.ext.length.toNat⟩
  | .write => ⟨io.off.toNat, io.ext.offset.toNat, io.ext.length.toNat⟩

/-- What the command does to the outside, one constructor for each kind of statement. -/
inductive Effect
  /-- A successful allocation. -/
  | alloc (o : Obj)
  /-- `spdk_free`, `spdk_dma_free`. -/
  | free (o : Obj)
  /-- `response->status.sct = …`. -/
  | rspSct (sct : Sct)
  /-- `response->status.sc = …`. -/
  | rspSc (sc : Sc)
  /-- `spdk_nvmf_request_complete`, or a return with `…_EXEC_STATUS_COMPLETE`. -/
  | complete
  /-- `spdk_bdev_read` or `spdk_bdev_write`, with its return code. -/
  | submit (io : Io) (rc : ℤ)
  /-- A callback is entered. -/
  | callback (io : Io) (success : Bool)
  /-- `spdk_bdev_free_io`. -/
  | freeIo (io : Io)
  /-- `readCiphertextFromMem` on a buffer (`none` for `NULL`), with its size and offset. -/
  | readCiphertext (b : Buf) (data : Option (List UInt8)) (size offset : UInt64)
  /-- `writeCiphertextToMem` of so many bytes into the target buffer (`false` for `NULL`). -/
  | writeCiphertext (target : Bool) (len : ℕ)
  /-- A `NULL` pointer is dereferenced. -/
  | nullDeref
  deriving DecidableEq, Repr

/-- `heaan_ctx`, without the pointers back to the request and the device.  A buffer is the memory
from its address on, however much of it was allocated, and `none` when the allocation returned
`NULL`. -/
structure HeaanCtx where
  buffer : Buf → Option (ℕ → UInt8) := fun _ => none
  pendingFills : ℤ := 0
  input0TotalSize : UInt64 := 0
  input1TotalSize : UInt64 := 0
  input0StartOffset : UInt64 := 0
  input1StartOffset : UInt64 := 0
  targetExtentsCount : UInt32 := 0
  targetExt : List Extent := []

/-- How far the handler has got. -/
inductive Handler
  /-- The request has not reached it. -/
  | idle
  /-- It has returned. -/
  | returned
  /-- It went through a `NULL` pointer. -/
  | crashed
  deriving DecidableEq, Repr

/-- A state of the command. -/
structure St where
  handler : Handler := .idle
  ctx : HeaanCtx := {}
  /-- The device. -/
  disk : ℕ → UInt8
  /-- The accepted I/Os whose callback has not run. -/
  inflight : List Io := []
  /-- What was done to the outside, oldest first. -/
  trace : List Effect := []

/-- HEaaN_CWrapper, which is not part of the repository. -/
structure HeaanLib where
  /-- Ciphertexts. -/
  Ct : Type
  /-- `readCiphertextFromMem`: buffer, size, offset. -/
  readCiphertextFromMem : Option (List UInt8) → UInt64 → UInt64 → Ct
  /-- `ciphertextAdd`: its return value, and the target ciphertext. -/
  ciphertextAdd : Ct → Ct → ℤ × Ct
  /-- The bytes `writeCiphertextToMem` writes. -/
  writeCiphertextToMem : Ct → List UInt8

/-- Which allocations succeed.  The answers are the environment's; DPDK's to `spdk_dma_zmalloc` of
no bytes is `NULL`. -/
structure Alloc where
  ctx : Bool := true
  targetExt : Bool := true
  buf : Buf → Bool := fun _ => true

/-- Every allocation succeeds. -/
def Alloc.ok : Alloc := {}

/-- An `int` keeps 32 bits. -/
@[irreducible] def asInt32 (x : ℤ) : ℤ := x.bmod (2 ^ 32)

/-- …and nothing else where 32 bits suffice. -/
theorem asInt32_eq {x : ℤ} (h1 : -2 ^ 31 ≤ x) (h2 : x < 2 ^ 31) : asInt32 x = x := by
  rw [asInt32, Int.bmod_def]
  split <;> omega

theorem le_asInt32 (x : ℤ) : -2 ^ 31 ≤ asInt32 x := by
  rw [asInt32, Int.bmod_def]
  split <;> omega

theorem asInt32_lt (x : ℤ) : asInt32 x < 2 ^ 31 := by
  rw [asInt32, Int.bmod_def]
  split <;> omega

/-- A count can only look smaller than it is. -/
theorem asInt32_le {x : ℤ} (h : 0 ≤ x) : asInt32 x ≤ x := by
  rw [asInt32, Int.bmod_def]
  split <;> omega

/-- Counts that agree on 32 bits look the same. -/
theorem asInt32_congr {x y : ℤ} (h : x % 2 ^ 32 = y % 2 ^ 32) : asInt32 x = asInt32 y := by
  rw [asInt32, asInt32, Int.bmod_def, Int.bmod_def]
  split <;> split <;> omega

/-- Counting down wraps like the count itself… -/
theorem asInt32_sub_one (x : ℤ) : asInt32 (asInt32 x - 1) = asInt32 (x - 1) := by
  simp only [asInt32]
  exact Int.bmod_sub_bmod

/-- …and comes to zero only where the count does. -/
theorem asInt32_ne_zero {x : ℤ} (h1 : 0 < x) (h2 : x < 2 ^ 32) : asInt32 x ≠ 0 := by
  rw [asInt32, Int.bmod_def]
  split <;> omega

namespace St

/-- Append to the log. -/
def emit (s : St) (es : List Effect) : St := { s with trace := s.trace ++ es }

/-- `ctx->pending_fills = n`. -/
def setPending (s : St) (n : ℤ) : St := { s with ctx := { s.ctx with pendingFills := n } }

/-- The handler goes through a `NULL` pointer. -/
def crash (s : St) : St := { s.emit [.nullDeref] with handler := .crashed }

/-- `spdk_dma_free(ctx->…)`, a no-op on `NULL`. -/
def dmaFree (s : St) (b : Buf) : List Effect :=
  if (s.ctx.buffer b).isSome then [.free (.buf b)] else []

theorem mem_dmaFree {s : St} {b : Buf} {e : Effect} (h : e ∈ s.dmaFree b) :
    e = .free (.buf b) := by
  unfold dmaFree at h
  split at h
  · exact List.mem_singleton.mp h
  · cases h

/-- A free is not a submission. -/
@[simp] theorem submit_notMem_dmaFree (s : St) (b : Buf) (io : Io) (c : ℤ) :
    Effect.submit io c ∉ s.dmaFree b := fun h => by cases mem_dmaFree h

section Fields

variable (s : St) (es : List Effect) (n : ℤ)

@[simp] theorem emit_trace : (s.emit es).trace = s.trace ++ es := rfl
@[simp] theorem setPending_trace : (s.setPending n).trace = s.trace := rfl

end Fields

end St

/-- An I/O in flight is the one delivered or stays in flight. -/
theorem eraseIdx_perm {α : Type*} {l : List α} {k : ℕ} {a : α} (h : l[k]? = some a) :
    (a :: l.eraseIdx k).Perm l := by
  obtain ⟨hk, rfl⟩ := List.getElem?_eq_some_iff.mp h
  exact List.getElem_cons_eraseIdx_perm hk

/-! ## The submission loops -/

/-- The I/Os of one loop: `buffer_address` advances by the length of each extent. -/
def ioList (cb : Callback) (b : Buf) : UInt64 → List Extent → List Io
  | _, [] => []
  | off, e :: es => ⟨cb, b, off, e⟩ :: ioList cb b (off + e.length) es

/-- What a submission loop does. -/
structure Submitted where
  /-- The accepted I/Os. -/
  accepted : List Io := []
  /-- The submissions, with their return codes. -/
  effects : List Effect := []
  /-- The loop left at a rejected submission. -/
  rejected : Bool := false

/-- The read loops: the first rejected submission ends them. -/
def submitReads (rc : ℕ → ℤ) : ℕ → List Io → Submitted
  | _, [] => {}
  | k, io :: ios =>
    if rc k ≠ 0 then
      { effects := [.submit io (rc k)], rejected := true }
    else
      let t := submitReads rc (k + 1) ios
      { accepted := io :: t.accepted
        effects := .submit io 0 :: t.effects
        rejected := t.rejected }

/-- The write loop: `load_result` is assigned and never read. -/
def submitWrites (rc : ℕ → ℤ) : ℕ → List Io → Submitted
  | _, [] => {}
  | k, io :: ios =>
    let t := submitWrites rc (k + 1) ios
    { accepted := if rc k = 0 then io :: t.accepted else t.accepted
      effects := .submit io (rc k) :: t.effects }

theorem length_ioList (cb : Callback) (b : Buf) : ∀ (off : UInt64) (es : List Extent),
    (ioList cb b off es).length = es.length
  | _, [] => rfl
  | off, e :: es => by
      rw [ioList, List.length_cons, length_ioList cb b (off + e.length) es, List.length_cons]

theorem cb_of_mem_ioList {cb : Callback} {b : Buf} : ∀ {off : UInt64} {es : List Extent} {io : Io},
    io ∈ ioList cb b off es → io.cb = cb
  | off, e :: es, io, h => by
      rcases List.mem_cons.mp h with rfl | h
      · rfl
      · exact cb_of_mem_ioList h

/-- With every submission accepted, a read loop submits all its I/Os. -/
theorem submitReads_of_all {rc : ℕ → ℤ} : ∀ {k : ℕ} {ios : List Io},
    (∀ j < ios.length, rc (k + j) = 0) →
      submitReads rc k ios = ⟨ios, ios.map fun io => .submit io 0, false⟩
  | _, [], _ => rfl
  | k, io :: ios, h => by
      have h0 : rc k = 0 := h 0 (Nat.succ_pos _)
      have ih : submitReads rc (k + 1) ios = _ := submitReads_of_all fun j hj => by
        rw [Nat.add_right_comm]
        exact h (j + 1) (Nat.succ_lt_succ hj)
      rw [submitReads, if_neg (not_not.mpr h0), ih]
      rfl

/-- A read loop that is not left early has accepted everything. -/
theorem submitReads_of_not_rejected {rc : ℕ → ℤ} : ∀ {k : ℕ} {ios : List Io},
    (submitReads rc k ios).rejected = false →
      submitReads rc k ios = ⟨ios, ios.map fun io => .submit io 0, false⟩
  | _, [], _ => rfl
  | k, io :: ios, h => by
      rw [submitReads] at h ⊢
      split at h
      · cases h
      · rename_i h0
        rw [if_neg h0]
        simp only [submitReads_of_not_rejected h, List.map_cons]

/-- A read loop logs its submissions, each with the code it was answered with. -/
theorem exists_of_mem_submitReads {rc : ℕ → ℤ} : ∀ {k : ℕ} {ios : List Io} {e : Effect},
    e ∈ (submitReads rc k ios).effects → ∃ j io, ios[j]? = some io ∧ e = .submit io (rc (k + j))
  | k, io :: ios, e, h => by
      rw [submitReads] at h
      split at h
      · obtain rfl := List.mem_singleton.mp h
        exact ⟨0, io, rfl, rfl⟩
      · rename_i h0
        rcases List.mem_cons.mp h with rfl | h
        · exact ⟨0, io, rfl, by rw [Nat.add_zero, not_not.mp h0]⟩
        · obtain ⟨j, io', hio', rfl⟩ := exists_of_mem_submitReads h
          exact ⟨j + 1, io', hio', by rw [Nat.add_right_comm, Nat.add_assoc]⟩

/-- A read loop only logs submissions. -/
theorem mem_submitReads {rc : ℕ → ℤ} {k : ℕ} {ios : List Io} {e : Effect}
    (h : e ∈ (submitReads rc k ios).effects) : ∃ io ∈ ios, ∃ c, e = .submit io c := by
  obtain ⟨j, io, hio, rfl⟩ := exists_of_mem_submitReads h
  exact ⟨io, List.mem_of_getElem? hio, _, rfl⟩

/-- A read loop that is left early has logged the rejection. -/
theorem exists_rejected_of_submitReads {rc : ℕ → ℤ} : ∀ {k : ℕ} {ios : List Io},
    (submitReads rc k ios).rejected = true →
      ∃ io ∈ ios, ∃ c ≠ 0, .submit io c ∈ (submitReads rc k ios).effects
  | k, io :: ios, h => by
      rw [submitReads] at h ⊢
      split at h
      · rename_i h0
        rw [if_pos h0]
        exact ⟨io, List.mem_cons_self .., rc k, h0, List.mem_singleton_self _⟩
      · rename_i h0
        rw [if_neg h0]
        obtain ⟨io', hio', c, hc, hmem⟩ := exists_rejected_of_submitReads h
        exact ⟨io', List.mem_cons_of_mem _ hio', c, hc, List.mem_cons_of_mem _ hmem⟩

/-- …and has accepted fewer than it was given. -/
theorem length_accepted_of_rejected {rc : ℕ → ℤ} : ∀ {k : ℕ} {ios : List Io},
    (submitReads rc k ios).rejected = true →
      (submitReads rc k ios).accepted.length < ios.length
  | k, io :: ios, h => by
      rw [submitReads] at h ⊢
      split at h
      · rename_i h0
        rw [if_pos h0]
        exact Nat.succ_pos _
      · rename_i h0
        rw [if_neg h0]
        exact Nat.succ_lt_succ (length_accepted_of_rejected h)

/-- A read loop accepts I/Os it was given. -/
theorem accepted_submitReads_subset {rc : ℕ → ℤ} : ∀ {k : ℕ} {ios : List Io} {io : Io},
    io ∈ (submitReads rc k ios).accepted → io ∈ ios
  | k, io' :: ios, io, h => by
      rw [submitReads] at h
      split at h
      · cases h
      · rcases List.mem_cons.mp h with rfl | h
        · exact List.mem_cons_self ..
        · exact List.mem_cons_of_mem _ (accepted_submitReads_subset h)

/-- A read loop that is not left early has had every code zero. -/
theorem rc_eq_zero_of_not_rejected {rc : ℕ → ℤ} : ∀ {k : ℕ} {ios : List Io},
    (submitReads rc k ios).rejected = false → ∀ j < ios.length, rc (k + j) = 0
  | k, io :: ios, h, j, hj => by
      rw [submitReads] at h
      split at h
      · cases h
      · rename_i h0
        cases j with
        | zero => exact not_not.mp h0
        | succ j =>
          have ih := rc_eq_zero_of_not_rejected h j (Nat.lt_of_succ_lt_succ hj)
          rwa [Nat.add_right_comm, Nat.add_assoc] at ih

/-- With every submission accepted, the write loop submits all its I/Os. -/
theorem submitWrites_of_all {rc : ℕ → ℤ} : ∀ {k : ℕ} {ios : List Io},
    (∀ j < ios.length, rc (k + j) = 0) →
      submitWrites rc k ios = ⟨ios, ios.map fun io => .submit io 0, false⟩
  | _, [], _ => rfl
  | k, io :: ios, h => by
      have h0 : rc k = 0 := h 0 (Nat.succ_pos _)
      have ih : submitWrites rc (k + 1) ios = _ := submitWrites_of_all fun j hj => by
        rw [Nat.add_right_comm]
        exact h (j + 1) (Nat.succ_lt_succ hj)
      rw [submitWrites, ih, if_pos h0, h0]
      rfl

/-- The write loop logs its submissions, each with the code it was answered with. -/
theorem exists_of_mem_submitWrites {rc : ℕ → ℤ} : ∀ {k : ℕ} {ios : List Io} {e : Effect},
    e ∈ (submitWrites rc k ios).effects → ∃ j io, ios[j]? = some io ∧ e = .submit io (rc (k + j))
  | k, io :: ios, e, h => by
      rcases List.mem_cons.mp h with rfl | h
      · exact ⟨0, io, rfl, rfl⟩
      · obtain ⟨j, io', hio', rfl⟩ := exists_of_mem_submitWrites h
        exact ⟨j + 1, io', hio', by rw [Nat.add_right_comm, Nat.add_assoc]⟩

/-- …and leaves none out. -/
theorem submit_mem_submitWrites {rc : ℕ → ℤ} : ∀ {k : ℕ} {ios : List Io} {j : ℕ} {io : Io},
    ios[j]? = some io → .submit io (rc (k + j)) ∈ (submitWrites rc k ios).effects
  | k, io' :: ios, 0, io, h => by
      obtain rfl := Option.some.inj h
      exact List.mem_cons_self ..
  | k, io' :: ios, j + 1, io, h => by
      have ih := @submit_mem_submitWrites rc (k + 1) ios j io h
      rw [Nat.add_right_comm, Nat.add_assoc] at ih
      exact List.mem_cons_of_mem _ ih

/-- The write loop only logs submissions. -/
theorem mem_submitWrites {rc : ℕ → ℤ} {k : ℕ} {ios : List Io} {e : Effect}
    (h : e ∈ (submitWrites rc k ios).effects) : ∃ io ∈ ios, ∃ c, e = .submit io c := by
  obtain ⟨j, io, hio, rfl⟩ := exists_of_mem_submitWrites h
  exact ⟨io, List.mem_of_getElem? hio, _, rfl⟩

/-- …and accepts a sublist of the I/Os it was given. -/
theorem accepted_submitWrites_sublist {rc : ℕ → ℤ} : ∀ (k : ℕ) (ios : List Io),
    (submitWrites rc k ios).accepted.Sublist ios
  | _, [] => List.Sublist.refl _
  | k, io :: ios => by
      have ih := @accepted_submitWrites_sublist rc (k + 1) ios
      rw [submitWrites]
      split
      · exact ih.cons_cons io
      · exact ih.cons io

/-- A write loop that accepts everything logs nothing but acceptances. -/
theorem submitWrites_of_accepted {rc : ℕ → ℤ} : ∀ {k : ℕ} {ios : List Io},
    (submitWrites rc k ios).accepted = ios →
      (submitWrites rc k ios).effects = ios.map fun io => .submit io 0
  | _, [], _ => rfl
  | k, io :: ios, h => by
      have hlen := (@accepted_submitWrites_sublist rc (k + 1) ios).length_le
      rw [submitWrites] at h ⊢
      dsimp only at h ⊢
      split at h
      · rename_i h0
        rw [submitWrites_of_accepted (List.cons.inj h).2, h0, List.map_cons]
      · rw [h, List.length_cons] at hlen
        omega

/-! ## The handler -/

/-- The context as the handler sets it up before it looks at the payload. -/
def HeaanReq.ctxInit (r : HeaanReq) : HeaanCtx :=
  { pendingFills := asInt32 (r.cdw11 + r.cdw12).toNat
    targetExtentsCount := r.cdw13 }

/-- The context a parsed payload leaves behind: the start offsets stay in the handler's locals. -/
def HeaanReq.ctxParsed (r : HeaanReq) (al : Alloc) (p : Parsed) : HeaanCtx :=
  { r.ctxInit with
    input0TotalSize := p.input0Size
    input1TotalSize := p.input1Size
    targetExt := p.targetExt
    buffer := fun b => if al.buf b then some fun _ => 0 else none }

@[simp] theorem HeaanReq.ctxParsed_pendingFills (r : HeaanReq) (al : Alloc) (p : Parsed) :
    (r.ctxParsed al p).pendingFills = asInt32 (r.cdw11 + r.cdw12).toNat := rfl

/-- The reads of a parsed payload, in submission order. -/
def Parsed.reads (p : Parsed) : List Io :=
  ioList .fill .input0 0 p.input0Ext ++ ioList .fill .input1 0 p.input1Ext

theorem Parsed.length_reads {r : HeaanReq} {p : Parsed} (h : (heaanParse r).2 = .parsed p) :
    p.reads.length = r.cdw11.toNat + r.cdw12.toNat := by
  obtain ⟨h0, h1, -⟩ := length_of_parsed h
  rw [Parsed.reads, List.length_append, length_ioList, length_ioList, h0, h1]

theorem Parsed.cb_of_mem_reads {p : Parsed} {io : Io} (h : io ∈ p.reads) : io.cb = .fill := by
  rcases List.mem_append.mp h with h | h
  · exact cb_of_mem_ioList h
  · exact cb_of_mem_ioList h

/-- The allocations of the three DMA buffers. -/
def Alloc.buffers (al : Alloc) : List Effect :=
  [Buf.input0, .input1, .target].flatMap fun b => if al.buf b then [.alloc (.buf b)] else []

theorem Alloc.mem_buffers {al : Alloc} {e : Effect} (h : e ∈ al.buffers) : ∃ o, e = .alloc o := by
  obtain ⟨b, -, hb⟩ := List.mem_flatMap.mp h
  split at hb
  · exact ⟨_, List.mem_singleton.mp hb⟩
  · cases hb

/-- The tail of the handler: three DMA buffers, then the two read loops. -/
def execParsed (r : HeaanReq) (al : Alloc) (rc : ℕ → ℤ) (p : Parsed) (s : St) : St :=
  let s := { s with ctx := r.ctxParsed al p, handler := .returned }.emit al.buffers
  let t := submitReads rc 0 p.reads
  let s := { s with inflight := t.accepted }.emit t.effects
  if t.rejected then
    s.emit (s.dmaFree .input0 ++ s.dmaFree .input1 ++ s.dmaFree .target ++
      [.free .ctx, .rspSct .generic, .rspSc .internalDeviceError, .complete])
  else
    s

/-- With every read accepted, the handler returns with all of them in flight. -/
theorem execParsed_of_accepted {r : HeaanReq} {al : Alloc} {rc : ℕ → ℤ} {p : Parsed} {s : St}
    {es : List Effect} (h : submitReads rc 0 p.reads = ⟨p.reads, es, false⟩) :
    execParsed r al rc p s =
      { handler := .returned
        ctx := r.ctxParsed al p
        disk := s.disk
        inflight := p.reads
        trace := s.trace ++ al.buffers ++ es } := by
  simp only [execParsed, h, Bool.false_eq_true, if_false, St.emit]

/-- The head of the handler: the context, its fields, and the `malloc` of `ctx->target_ext`. -/
def HeaanReq.allocated (r : HeaanReq) (al : Alloc) (s : St) : St :=
  { s with ctx := r.ctxInit }.emit
    (.alloc .ctx :: if al.targetExt then [.alloc .targetExt] else [])

theorem HeaanReq.mem_allocated {r : HeaanReq} {al : Alloc} {s : St} {e : Effect}
    (h : e ∈ (r.allocated al s).trace) : e ∈ s.trace ∨ ∃ o, e = .alloc o := by
  refine (List.mem_append.mp h).imp_right fun h => ?_
  split at h
  · simp only [List.mem_cons, List.not_mem_nil, or_false] at h
    rcases h with h | h
    · exact ⟨_, h⟩
    · exact ⟨_, h⟩
  · exact ⟨_, List.mem_singleton.mp h⟩

/-- An early return with `…_EXEC_STATUS_COMPLETE`. -/
def St.reject (s : St) (sc : Sc) : St :=
  { s with handler := .returned }.emit [.free .ctx, .rspSct .generic, .rspSc sc, .complete]

/-- **`nvmf_bdev_ctrlr_custom_heaan_cipadd_cmd`**, with the allocations and the return codes of its
submissions as the environment gives them.  The context is used unchecked, and `ctx->target_ext` is
stored to for every target extent that passes the range check. -/
def nvmfBdevCtrlrCustomHeaanCipaddCmd (r : HeaanReq) (al : Alloc) (rc : ℕ → ℤ) (s : St) : St :=
  if !al.ctx then s.crash else
  if r.noData then (r.allocated al s).reject .internalDeviceError else
  match (heaanParse r).2 with
  | .endOfMedia stored =>
    if !al.targetExt && stored != 0 then (r.allocated al s).crash else
    (r.allocated al s).reject .lbaOutOfRange
  | .parsed p =>
    if !al.targetExt && p.targetExt.length != 0 then (r.allocated al s).crash else
    execParsed r al rc p (r.allocated al s)

/-! ## The callbacks -/

/-- The first lines of both callbacks: a failure writes the response and sets the counter to `-1`,
a success decrements it. -/
def countDown (io : Io) (success : Bool) (s : St) : St :=
  let s := s.emit [.callback io success]
  if !success then
    (s.emit [.rspSc .internalDeviceError]).setPending (-1)
  else
    s.setPending (asInt32 (s.ctx.pendingFills - 1))

section CountDown

variable (io : Io) (success : Bool) (s : St)

@[simp] theorem countDown_trace : (countDown io success s).trace = s.trace ++
    Effect.callback io success :: if success then [] else [.rspSc .internalDeviceError] := by
  cases success
  · simp [countDown]
  · rfl

@[simp] theorem countDown_pending_true :
    (countDown io true s).ctx.pendingFills = asInt32 (s.ctx.pendingFills - 1) := rfl

@[simp] theorem countDown_inflight : (countDown io success s).inflight = s.inflight := by
  cases success <;> rfl

@[simp] theorem countDown_handler : (countDown io success s).handler = s.handler := by
  cases success <;> rfl

/-- Counting down touches the counter only. -/
theorem countDown_ctx : (countDown io success s).ctx
    = { s.ctx with pendingFills := (countDown io success s).ctx.pendingFills } := by
  cases success <;> rfl

end CountDown

/-- "One or more file writes failed." -/
def writeFailed (io : Io) (s : St) : St :=
  s.emit ([.rspSct .generic, .rspSc .internalDeviceError, .freeIo io, .complete] ++
    s.dmaFree .target ++ [.free .ctx])

/-- Every write has succeeded. -/
def writeDone (io : Io) (s : St) : St :=
  s.emit ([.rspSct .generic, .rspSc .success] ++ s.dmaFree .target ++
    [.free .ctx, .freeIo io, .complete])

/-- **`nvmf_heaan_cip_write_complete`.** -/
def nvmfHeaanCipWriteComplete (io : Io) (success : Bool) (s : St) : St :=
  let s := countDown io success s
  if s.ctx.pendingFills ≤ 0 then
    if s.ctx.pendingFills < 0 then writeFailed io s else writeDone io s
  else
    s

/-- What `readCiphertextFromMem` is handed for an input: `size` bytes of its buffer. -/
def HeaanCtx.handed (c : HeaanCtx) (b : Buf) (size : UInt64) : Option (List UInt8) :=
  (c.buffer b).map fun m => Seg.read m ⟨0, size.toNat⟩

/-- The return value and the result of `ciphertextAdd` on the two filled buffers. -/
def HeaanCtx.addResult (lib : HeaanLib) (c : HeaanCtx) : ℤ × lib.Ct :=
  lib.ciphertextAdd
    (lib.readCiphertextFromMem (c.handed .input0 c.input0TotalSize) c.input0TotalSize
      c.input0StartOffset)
    (lib.readCiphertextFromMem (c.handed .input1 c.input1TotalSize) c.input1TotalSize
      c.input1StartOffset)

/-- `writeCiphertextToMem(…, ctx->target_buffer, 0)`. -/
def HeaanCtx.writeTarget (c : HeaanCtx) (bytes : List UInt8) : HeaanCtx :=
  { c with
    buffer := Function.update c.buffer .target
      ((c.buffer .target).map fun m k => bytes.getD k (m k)) }

@[simp] theorem HeaanCtx.writeTarget_target (c : HeaanCtx) (bytes : List UInt8) :
    (c.writeTarget bytes).buffer .target
      = (c.buffer .target).map fun m k => bytes.getD k (m k) := by
  simp only [writeTarget, Function.update_self]

/-- "One or more extent reads failed."  The response is written after the request has been
completed. -/
def fillFailed (io : Io) (s : St) : St :=
  s.emit ([.freeIo io, .complete] ++ s.dmaFree .input0 ++ s.dmaFree .input1 ++
    s.dmaFree .target ++ [.free .ctx, .rspSct .generic, .rspSc .internalDeviceError])

/-- The two inputs are handed to the library. -/
def readInputs (s : St) : St :=
  s.emit
    [.readCiphertext .input0 (s.ctx.handed .input0 s.ctx.input0TotalSize) s.ctx.input0TotalSize
      s.ctx.input0StartOffset,
     .readCiphertext .input1 (s.ctx.handed .input1 s.ctx.input1TotalSize) s.ctx.input1TotalSize
      s.ctx.input1StartOffset]

/-- "Ciphertext Add Error". -/
def addFailed (io : Io) (s : St) : St :=
  s.emit ([.rspSct .generic, .rspSc .internalDeviceError] ++ s.dmaFree .input0 ++
    s.dmaFree .input1 ++ s.dmaFree .target ++ [.free .ctx, .freeIo io, .complete])

/-- The sum is serialised, the inputs are freed and the counter is set up for the writes. -/
def storeResult (bytes : List UInt8) (s : St) : St :=
  ({ s with ctx := s.ctx.writeTarget bytes }.emit
    (.writeCiphertext (s.ctx.buffer .target).isSome bytes.length ::
      (s.dmaFree .input0 ++ s.dmaFree .input1))).setPending
    (asInt32 s.ctx.targetExtentsCount.toNat)

/-- The write loop. -/
def startWrites (rc : ℕ → ℤ) (s : St) : St :=
  let t := submitWrites rc 0 (ioList .write .target 0 s.ctx.targetExt)
  { s with inflight := s.inflight ++ t.accepted }.emit t.effects

section Writes

variable (bytes : List UInt8) (rc : ℕ → ℤ) (s : St)

@[simp] theorem readInputs_ctx : (readInputs s).ctx = s.ctx := rfl
@[simp] theorem readInputs_inflight : (readInputs s).inflight = s.inflight := rfl
@[simp] theorem storeResult_pending :
    (storeResult bytes s).ctx.pendingFills = asInt32 s.ctx.targetExtentsCount.toNat := rfl
@[simp] theorem storeResult_targetExt :
    (storeResult bytes s).ctx.targetExt = s.ctx.targetExt := rfl
@[simp] theorem storeResult_inflight : (storeResult bytes s).inflight = s.inflight := rfl
@[simp] theorem storeResult_trace : (storeResult bytes s).trace = s.trace ++
    .writeCiphertext (s.ctx.buffer .target).isSome bytes.length ::
      (s.dmaFree .input0 ++ s.dmaFree .input1) := rfl
@[simp] theorem startWrites_ctx : (startWrites rc s).ctx = s.ctx := rfl
@[simp] theorem startWrites_inflight : (startWrites rc s).inflight =
    s.inflight ++ (submitWrites rc 0 (ioList .write .target 0 s.ctx.targetExt)).accepted := rfl
@[simp] theorem startWrites_trace : (startWrites rc s).trace =
    s.trace ++ (submitWrites rc 0 (ioList .write .target 0 s.ctx.targetExt)).effects := rfl

variable {bytes s}

/-- What is logged with the sum: it is written, and the inputs are freed. -/
theorem mem_stored {e : Effect} (h : e ∈ Effect.writeCiphertext (s.ctx.buffer .target).isSome
    bytes.length :: (s.dmaFree .input0 ++ s.dmaFree .input1)) :
    e = .writeCiphertext (s.ctx.buffer .target).isSome bytes.length ∨
      e = .free (.buf .input0) ∨ e = .free (.buf .input1) := by
  refine (List.mem_cons.mp h).imp_right fun h => ?_
  exact (List.mem_append.mp h).imp St.mem_dmaFree St.mem_dmaFree

end Writes

/-- The end of the read phase: both inputs are complete. -/
def fillDone (lib : HeaanLib) (rc : ℕ → ℤ) (io : Io) (s : St) : St :=
  let res := s.ctx.addResult lib
  if res.1 ≠ 0 then
    addFailed io (readInputs s)
  else
    startWrites rc (storeResult (lib.writeCiphertextToMem res.2) (readInputs s))

/-- Where the addition succeeds, the read phase ends with every write submitted. -/
theorem submit_mem_fillDone {lib : HeaanLib} {rc : ℕ → ℤ} {io io' : Io} {s : St} {j : ℕ}
    (hadd : (s.ctx.addResult lib).1 = 0)
    (hj : (ioList .write .target 0 s.ctx.targetExt)[j]? = some io') :
    .submit io' (rc j) ∈ (fillDone lib rc io s).trace := by
  have hmem := @submit_mem_submitWrites rc 0 _ j io' hj
  rw [Nat.zero_add] at hmem
  rw [fillDone, if_neg (not_not.mpr hadd), startWrites_trace]
  exact List.mem_append_right _ hmem

/-- **`nvmf_heaan_buffer_fill_complete`.** -/
def nvmfHeaanBufferFillComplete (lib : HeaanLib) (rc : ℕ → ℤ) (io : Io) (success : Bool) (s : St) :
    St :=
  let s := countDown io success s
  if s.ctx.pendingFills ≤ 0 then
    if s.ctx.pendingFills < 0 then fillFailed io s else fillDone lib rc io s
  else
    s

/-! ## Runs -/

/-- What the reactor does next. -/
inductive Label
  /-- Call the handler. -/
  | exec (al : Alloc) (rc : ℕ → ℤ)
  /-- Deliver the completion of the `k`-th I/O in flight; `rc` answers the writes it may submit. -/
  | deliver (k : ℕ) (success : Bool) (rc : ℕ → ℤ)

/-- A read has filled its part of a buffer. -/
def HeaanCtx.fillBuffer (c : HeaanCtx) (io : Io) (disk : ℕ → UInt8) : HeaanCtx :=
  { c with
    buffer := Function.update c.buffer io.buf ((c.buffer io.buf).map (io.copy.apply disk)) }

@[simp] theorem HeaanCtx.fillBuffer_self (c : HeaanCtx) (io : Io) (disk : ℕ → UInt8) :
    (c.fillBuffer io disk).buffer io.buf = (c.buffer io.buf).map (io.copy.apply disk) := by
  simp only [fillBuffer, Function.update_self]

theorem HeaanCtx.fillBuffer_of_ne (c : HeaanCtx) {io : Io} (disk : ℕ → UInt8) {b : Buf}
    (h : b ≠ io.buf) : (c.fillBuffer io disk).buffer b = c.buffer b := by
  simp only [fillBuffer, Function.update_of_ne h]

/-- The bytes a successful I/O has moved by the time its callback runs. -/
def St.transfer (s : St) (io : Io) : St :=
  match io.cb with
  | .fill => { s with ctx := s.ctx.fillBuffer io s.disk }
  | .write =>
    match s.ctx.buffer io.buf with
    | some m => { s with disk := io.copy.apply m s.disk }
    | none => s

/-- The callback of an I/O. -/
def runCallback (lib : HeaanLib) (rc : ℕ → ℤ) (io : Io) (success : Bool) (s : St) : St :=
  match io.cb with
  | .fill => nvmfHeaanBufferFillComplete lib rc io success s
  | .write => nvmfHeaanCipWriteComplete io success s

/-- The state in which the callback of an I/O is entered. -/
def St.delivered (s : St) (k : ℕ) (io : Io) (success : Bool) : St :=
  let s := { s with inflight := s.inflight.eraseIdx k }
  if success then s.transfer io else s

section Delivered

variable (s : St) (k : ℕ) (io : Io) (success : Bool)

theorem transfer_eq : (s.transfer io).trace = s.trace ∧ (s.transfer io).handler = s.handler ∧
    (s.transfer io).inflight = s.inflight ∧
    (s.transfer io).ctx.pendingFills = s.ctx.pendingFills ∧
    (s.transfer io).ctx.targetExt = s.ctx.targetExt ∧
    (s.transfer io).ctx.targetExtentsCount = s.ctx.targetExtentsCount := by
  unfold St.transfer
  split
  · exact ⟨rfl, rfl, rfl, rfl, rfl, rfl⟩
  · split <;> exact ⟨rfl, rfl, rfl, rfl, rfl, rfl⟩

/-- **The device moves bytes and nothing else**: what a callback's bookkeeping reads is as it was,
less the I/O delivered. -/
theorem delivered_eq : (s.delivered k io success).trace = s.trace ∧
    (s.delivered k io success).handler = s.handler ∧
    (s.delivered k io success).inflight = s.inflight.eraseIdx k ∧
    (s.delivered k io success).ctx.pendingFills = s.ctx.pendingFills ∧
    (s.delivered k io success).ctx.targetExt = s.ctx.targetExt ∧
    (s.delivered k io success).ctx.targetExtentsCount = s.ctx.targetExtentsCount := by
  unfold St.delivered
  split
  · exact transfer_eq _ io
  · exact ⟨rfl, rfl, rfl, rfl, rfl, rfl⟩

variable {s io}

/-- A completed read has filled its part of its buffer. -/
theorem delivered_fill (hcb : io.cb = .fill) : s.delivered k io true
    = { s with inflight := s.inflight.eraseIdx k, ctx := s.ctx.fillBuffer io s.disk } := by
  simp only [St.delivered, St.transfer, hcb, if_true]

/-- A completed write has written its part of its buffer. -/
theorem delivered_write (hcb : io.cb = .write) {m : ℕ → UInt8} (hm : s.ctx.buffer io.buf = some m) :
    s.delivered k io true
      = { s with inflight := s.inflight.eraseIdx k, disk := io.copy.apply m s.disk } := by
  simp only [St.delivered, St.transfer, hcb, hm, if_true]

end Delivered

/-- **A callback is entered**: it logs its entry, counts down, and the I/O is out of flight. -/
theorem entered_eq (s : St) (k : ℕ) (io : Io) (success : Bool) :
    (countDown io success (s.delivered k io success)).trace = s.trace ++
        Effect.callback io success :: (if success then [] else [.rspSc .internalDeviceError]) ∧
      (countDown io success (s.delivered k io success)).handler = s.handler ∧
      (countDown io success (s.delivered k io success)).inflight = s.inflight.eraseIdx k ∧
      (countDown io success (s.delivered k io success)).ctx.targetExt = s.ctx.targetExt ∧
      (countDown io success (s.delivered k io success)).ctx.targetExtentsCount
        = s.ctx.targetExtentsCount := by
  obtain ⟨htrace, hhandler, hin, -, htarget, hcount⟩ := delivered_eq s k io success
  rw [countDown_trace, htrace, countDown_handler, hhandler, countDown_inflight, hin, countDown_ctx]
  exact ⟨rfl, rfl, rfl, htarget, hcount⟩

/-- A success counts down by one… -/
theorem entered_pending_true (s : St) (k : ℕ) (io : Io) :
    (countDown io true (s.delivered k io true)).ctx.pendingFills
      = asInt32 (s.ctx.pendingFills - 1) := by
  rw [countDown_pending_true, (delivered_eq s k io true).2.2.2.1]

/-- …a failure sets the mark. -/
theorem entered_pending_false (s : St) (k : ℕ) (io : Io) :
    (countDown io false (s.delivered k io false)).ctx.pendingFills = -1 := rfl

/-- …and as long as the counter is in range, no more than that happens. -/
theorem entered_pending {s : St} {k : ℕ} (hlow : -2 ^ 31 ≤ s.ctx.pendingFills - 1)
    (hhigh : s.ctx.pendingFills - 1 < 2 ^ 31) (io : Io) (success : Bool) :
    (countDown io success (s.delivered k io success)).ctx.pendingFills
      = if success then s.ctx.pendingFills - 1 else -1 := by
  cases success with
  | true => rw [entered_pending_true, asInt32_eq hlow hhigh, if_pos rfl]
  | false => rw [entered_pending_false, if_neg Bool.false_ne_true]

/-- One step of the reactor. -/
def heaanStep (r : HeaanReq) (lib : HeaanLib) (s : St) : Label → Option St
  | .exec al rc =>
    if s.handler = .idle then some (nvmfBdevCtrlrCustomHeaanCipaddCmd r al rc s) else none
  | .deliver k success rc =>
    match s.inflight[k]? with
    | some io => some (runCallback lib rc io success (s.delivered k io success))
    | none => none

/-- **HEaaN add as a system**, from a request, the ciphertext library and the device's contents. -/
def heaanSys (r : HeaanReq) (lib : HeaanLib) (disk : ℕ → UInt8) : Sys St Label where
  init := { disk := disk }
  step := heaanStep r lib

/-- A stand-in for the library: ciphertexts are byte strings, added byte by byte. -/
def bytewiseLib : HeaanLib where
  Ct := List UInt8
  readCiphertextFromMem := fun data _ _ => data.getD []
  ciphertextAdd := fun a b => (0, List.zipWith (· + ·) a b)
  writeCiphertextToMem := id

/-- A request with two extents of the first input, one of the second, and two to write. -/
def HeaanReq.several : HeaanReq :=
  .sample 64 4096 2 1 2 [0, 0, 512, 512, 512, 0, 1024, 512, 0, 1536, 512, 2048, 512]

/-- A step in which nothing fails, and its I/Os out of order. -/
def severalRun : List Label :=
  .exec .ok (fun _ => 0) :: [2, 0, 0, 1, 0].map (.deliver · true fun _ => 0)

theorem mem_severalRun {l : Label} (h : l ∈ severalRun) :
    l = .exec .ok (fun _ => 0) ∨ ∃ k, l = .deliver k true fun _ => 0 := by
  refine (List.mem_cons.mp h).imp_right fun h => ?_
  obtain ⟨k, -, rfl⟩ := List.mem_map.mp h
  exact ⟨k, rfl⟩

/-! ## What a step can do -/

variable {r : HeaanReq} {lib : HeaanLib} {al : Alloc} {rc : ℕ → ℤ} {s s' : St} {l : Label}

/-- **Inversion of a step**: the handler is called once, or an I/O in flight is delivered. -/
theorem heaanStep_cases (h : heaanStep r lib s l = some s') :
    (∃ al rc, l = .exec al rc ∧ s.handler = .idle ∧
      s' = nvmfBdevCtrlrCustomHeaanCipaddCmd r al rc s) ∨
    ∃ k success rc io, l = .deliver k success rc ∧ s.inflight[k]? = some io ∧
      s' = runCallback lib rc io success (s.delivered k io success) := by
  cases l with
  | exec al rc =>
    rw [heaanStep] at h
    split at h
    · rename_i hidle
      exact Or.inl ⟨al, rc, rfl, hidle, (Option.some.inj h).symm⟩
    · cases h
  | deliver k success rc =>
    rw [heaanStep] at h
    split at h
    · rename_i io hio
      exact Or.inr ⟨k, success, rc, io, rfl, hio, (Option.some.inj h).symm⟩
    · cases h

/-- Any I/O in flight can be delivered. -/
theorem heaanStep_deliver (r : HeaanReq) (lib : HeaanLib) {k : ℕ} {io : Io}
    (hio : s.inflight[k]? = some io) (success : Bool) (rc : ℕ → ℤ) :
    heaanStep r lib s (.deliver k success rc)
      = some (runCallback lib rc io success (s.delivered k io success)) := by
  simp only [heaanStep, hio]

/-- **Inversion of the handler**: it goes through a `NULL` pointer, rejects the command, or gets to
the read loops with a parsed payload. -/
theorem exec_cases (r : HeaanReq) (al : Alloc) (rc : ℕ → ℤ) (s : St) :
    nvmfBdevCtrlrCustomHeaanCipaddCmd r al rc s = s.crash ∨
    nvmfBdevCtrlrCustomHeaanCipaddCmd r al rc s = (r.allocated al s).crash ∨
    (∃ sc, sc ≠ .success ∧
      nvmfBdevCtrlrCustomHeaanCipaddCmd r al rc s = (r.allocated al s).reject sc) ∨
    ∃ p, r.noData = false ∧ (heaanParse r).2 = .parsed p ∧
      nvmfBdevCtrlrCustomHeaanCipaddCmd r al rc s = execParsed r al rc p (r.allocated al s) := by
  unfold nvmfBdevCtrlrCustomHeaanCipaddCmd
  split
  · exact Or.inl rfl
  split
  · exact Or.inr (Or.inr (Or.inl ⟨_, by decide, rfl⟩))
  rename_i hnd
  split
  · split
    · exact Or.inr (Or.inl rfl)
    · exact Or.inr (Or.inr (Or.inl ⟨_, by decide, rfl⟩))
  · rename_i p hp
    split
    · exact Or.inr (Or.inl rfl)
    · exact Or.inr (Or.inr (Or.inr ⟨p, Bool.eq_false_iff.mpr hnd, hp, rfl⟩))

/-- With its allocations granted, a parsed command gets to the read loops. -/
theorem exec_of_parsed {p : Parsed} (hctx : al.ctx = true) (htarget : al.targetExt = true)
    (hnd : r.noData = false) (hp : (heaanParse r).2 = .parsed p) :
    nvmfBdevCtrlrCustomHeaanCipaddCmd r al rc s = execParsed r al rc p (r.allocated al s) := by
  simp only [nvmfBdevCtrlrCustomHeaanCipaddCmd, hctx, htarget, hnd, hp, Bool.not_true,
    Bool.false_and, Bool.false_eq_true, if_false]

/-- **Inversion of the write callback**, by what the counter has come to. -/
theorem writeComplete_cases (io : Io) (success : Bool) (s : St) :
    (0 < (countDown io success s).ctx.pendingFills ∧
      nvmfHeaanCipWriteComplete io success s = countDown io success s) ∨
    ((countDown io success s).ctx.pendingFills = 0 ∧
      nvmfHeaanCipWriteComplete io success s = writeDone io (countDown io success s)) ∨
    ((countDown io success s).ctx.pendingFills < 0 ∧
      nvmfHeaanCipWriteComplete io success s = writeFailed io (countDown io success s)) := by
  unfold nvmfHeaanCipWriteComplete
  rcases Int.lt_trichotomy (countDown io success s).ctx.pendingFills 0 with h | h | h
  · exact Or.inr (Or.inr ⟨h, by simp only [Int.le_of_lt h, h, if_true]⟩)
  · exact Or.inr (Or.inl ⟨h, by simp only [h, Int.le_refl, Int.lt_irrefl, if_true, if_false]⟩)
  · exact Or.inl ⟨h, by simp only [Int.not_le.mpr h, if_false]⟩

/-- **Inversion of the read callback.** -/
theorem fillComplete_cases (lib : HeaanLib) (rc : ℕ → ℤ) (io : Io) (success : Bool) (s : St) :
    (0 < (countDown io success s).ctx.pendingFills ∧
      nvmfHeaanBufferFillComplete lib rc io success s = countDown io success s) ∨
    ((countDown io success s).ctx.pendingFills = 0 ∧
      nvmfHeaanBufferFillComplete lib rc io success s
        = fillDone lib rc io (countDown io success s)) ∨
    ((countDown io success s).ctx.pendingFills < 0 ∧
      nvmfHeaanBufferFillComplete lib rc io success s
        = fillFailed io (countDown io success s)) := by
  unfold nvmfHeaanBufferFillComplete
  rcases Int.lt_trichotomy (countDown io success s).ctx.pendingFills 0 with h | h | h
  · exact Or.inr (Or.inr ⟨h, by simp only [Int.le_of_lt h, h, if_true]⟩)
  · exact Or.inr (Or.inl ⟨h, by simp only [h, Int.le_refl, Int.lt_irrefl, if_true, if_false]⟩)
  · exact Or.inl ⟨h, by simp only [Int.not_le.mpr h, if_false]⟩

/-- The handler is called once. -/
theorem handler_exec_ne_idle : (nvmfBdevCtrlrCustomHeaanCipaddCmd r al rc s).handler ≠ .idle := by
  rcases exec_cases r al rc s with heq | heq | ⟨sc, -, heq⟩ | ⟨p, -, -, heq⟩
  · rw [heq]
    exact Handler.noConfusion
  · rw [heq]
    exact Handler.noConfusion
  · rw [heq]
    exact Handler.noConfusion
  · rw [heq, execParsed]
    split <;> exact Handler.noConfusion

theorem handler_runCallback (io : Io) (success : Bool) :
    (runCallback lib rc io success s).handler = s.handler := by
  have hcount := countDown_handler io success s
  unfold runCallback
  split
  · rcases fillComplete_cases lib rc io success s with ⟨-, heq⟩ | ⟨-, heq⟩ | ⟨-, heq⟩
    · rw [heq, hcount]
    · rw [heq, fillDone]
      split <;> exact hcount
    · rw [heq]
      exact hcount
  · rcases writeComplete_cases io success s with ⟨-, heq⟩ | ⟨-, heq⟩ | ⟨-, heq⟩ <;> rw [heq] <;>
      exact hcount

/-- Until the handler is called, nothing happens. -/
theorem eq_init_of_idle {disk : ℕ → UInt8} {P : St → Label → Prop}
    (h : (heaanSys r lib disk).Reach P s) (hidle : s.handler = .idle) : s = { disk := disk } := by
  revert hidle
  refine h.invariant (I := fun s => s.handler = .idle → s = { disk := disk }) (fun _ => rfl) ?_
  intro s l s' ih _ hstep hidle
  rcases heaanStep_cases hstep with ⟨al, rc, -, -, rfl⟩ | ⟨k, success, rc, io, -, hio, rfl⟩
  · exact absurd hidle handler_exec_ne_idle
  · rw [handler_runCallback, (delivered_eq s k io success).2.1] at hidle
    rw [ih hidle] at hio
    cases hio

/-! ## What is submitted -/

/-- The handler submits reads of a parsed payload. -/
theorem submit_of_exec {io : Io} {c : ℤ}
    (h : .submit io c ∈ (nvmfBdevCtrlrCustomHeaanCipaddCmd r al rc s).trace) :
    .submit io c ∈ s.trace ∨ ∃ p j, r.noData = false ∧ (heaanParse r).2 = .parsed p ∧
      p.reads[j]? = some io ∧ c = rc j := by
  have halloc : .submit io c ∈ (r.allocated al s).trace → .submit io c ∈ s.trace := fun h =>
    (HeaanReq.mem_allocated h).elim id fun ⟨_, h⟩ => by cases h
  rcases exec_cases r al rc s with heq | heq | ⟨sc, -, heq⟩ | ⟨p, hnd, hp, heq⟩
  · rw [heq] at h
    refine Or.inl ((List.mem_append.mp h).elim id fun h => ?_)
    cases List.mem_singleton.mp h
  · rw [heq] at h
    refine Or.inl ((List.mem_append.mp h).elim halloc fun h => ?_)
    cases List.mem_singleton.mp h
  · rw [heq] at h
    refine Or.inl ((List.mem_append.mp h).elim halloc fun h => ?_)
    simp at h
  · have hlog : .submit io c ∈ (r.allocated al s).trace ++ al.buffers ++
        (submitReads rc 0 p.reads).effects := by
      rw [heq] at h
      unfold execParsed at h
      dsimp only at h
      split at h
      · refine (List.mem_append.mp h).elim id fun h => ?_
        simp at h
      · exact h
    rcases List.mem_append.mp hlog with h | h
    · refine Or.inl ((List.mem_append.mp h).elim halloc fun h => ?_)
      obtain ⟨o, h⟩ := Alloc.mem_buffers h
      cases h
    · obtain ⟨j, io', hio', heq⟩ := exists_of_mem_submitReads h
      rw [Nat.zero_add] at heq
      obtain ⟨rfl, rfl⟩ := Effect.submit.inj heq
      exact Or.inr ⟨p, j, hnd, hp, hio', rfl⟩

/-- A callback submits writes, at the end of the read phase. -/
theorem submit_of_callback {io io' : Io} {success : Bool} {c : ℤ}
    (h : .submit io' c ∈ (runCallback lib rc io success s).trace) :
    .submit io' c ∈ s.trace ∨ ∃ j, io.cb = .fill ∧
      (ioList .write .target 0 s.ctx.targetExt)[j]? = some io' ∧ c = rc j := by
  have hcount : .submit io' c ∈ (countDown io success s).trace → .submit io' c ∈ s.trace := by
    cases success <;> simp
  unfold runCallback at h
  split at h
  · rename_i hcb
    rcases fillComplete_cases lib rc io success s with ⟨-, heq⟩ | ⟨-, heq⟩ | ⟨-, heq⟩
    · rw [heq] at h
      exact Or.inl (hcount h)
    · rw [heq, fillDone] at h
      split at h
      · exact Or.inl (hcount (by simpa [addFailed, readInputs] using h))
      · rw [startWrites_trace, storeResult_targetExt, readInputs_ctx, countDown_ctx] at h
        rcases List.mem_append.mp h with h | h
        · exact Or.inl (hcount (by simpa [readInputs] using h))
        · obtain ⟨j, io'', hio'', heq⟩ := exists_of_mem_submitWrites h
          rw [Nat.zero_add] at heq
          obtain ⟨rfl, rfl⟩ := Effect.submit.inj heq
          exact Or.inr ⟨j, hcb, hio'', rfl⟩
    · rw [heq] at h
      exact Or.inl (hcount (by simpa [fillFailed] using h))
  · rcases writeComplete_cases io success s with ⟨-, heq⟩ | ⟨-, heq⟩ | ⟨-, heq⟩
    · rw [heq] at h
      exact Or.inl (hcount h)
    · rw [heq] at h
      exact Or.inl (hcount (by simpa [writeDone] using h))
    · rw [heq] at h
      exact Or.inl (hcount (by simpa [writeFailed] using h))

/-- The target list stays in the context. -/
theorem targetExt_runCallback (io : Io) (success : Bool) :
    (runCallback lib rc io success s).ctx.targetExt = s.ctx.targetExt := by
  have hcount : (countDown io success s).ctx.targetExt = s.ctx.targetExt := by
    rw [countDown_ctx]
  unfold runCallback
  split
  · rcases fillComplete_cases lib rc io success s with ⟨-, heq⟩ | ⟨-, heq⟩ | ⟨-, heq⟩
    · rw [heq, hcount]
    · rw [heq, fillDone]
      split <;> exact hcount
    · rw [heq]
      exact hcount
  · rcases writeComplete_cases io success s with ⟨-, heq⟩ | ⟨-, heq⟩ | ⟨-, heq⟩ <;> rw [heq] <;>
      exact hcount

/-! ## A run to the end of the read phase -/

/-- Before the last read is delivered, a successful read leaves the rest in flight, and counted —
also where the counter has wrapped and looks negative. -/
theorem deliver_read_of_ne_zero {k : ℕ} {io : Io} (hcb : io.cb = .fill)
    (hne : asInt32 (s.ctx.pendingFills - 1) ≠ 0) :
    (runCallback lib rc io true (s.delivered k io true)).inflight = s.inflight.eraseIdx k ∧
      (runCallback lib rc io true (s.delivered k io true)).ctx.pendingFills
        = asInt32 (s.ctx.pendingFills - 1) := by
  obtain ⟨-, -, hin, hpend, -⟩ := delivered_eq s k io true
  have hcount : (countDown io true (s.delivered k io true)).ctx.pendingFills
      = asInt32 (s.ctx.pendingFills - 1) := by rw [countDown_pending_true, hpend]
  have hinflight := countDown_inflight io true (s.delivered k io true)
  rw [runCallback, hcb]
  rcases fillComplete_cases lib rc io true (s.delivered k io true) with
    ⟨-, heq⟩ | ⟨hz, -⟩ | ⟨-, heq⟩
  · simp only [heq]
    exact ⟨hinflight.trans hin, hcount⟩
  · exact absurd (hcount.symm.trans hz) hne
  · simp only [heq]
    exact ⟨hinflight.trans hin, hcount⟩

/-- **The last read is reached**: where successful deliveries are admitted, a run delivers the reads
in order until the counter stands at one. -/
theorem exists_reach_last_read {disk : ℕ → UInt8} {P : St → Label → Prop}
    (hP : ∀ t, ∃ rc, P t (.deliver 0 true rc)) : ∀ (n : ℕ) {s : St},
    (heaanSys r lib disk).Reach P s → (∀ io ∈ s.inflight, io.cb = .fill) →
      n < s.inflight.length → n < 2 ^ 32 → s.ctx.pendingFills = asInt32 (n + 1 : ℕ) →
        ∃ t io, (heaanSys r lib disk).Reach P t ∧ t.inflight[0]? = some io ∧ io.cb = .fill ∧
          t.ctx.pendingFills = 1 ∧ t.ctx.targetExt = s.ctx.targetExt
  | n, s, hr, hfill, hlt, hn, hpend => by
      obtain ⟨io, h0⟩ : ∃ io, s.inflight[0]? = some io :=
        ⟨_, List.getElem?_eq_getElem (Nat.zero_lt_of_lt hlt)⟩
      have hcb := hfill io (List.mem_of_getElem? h0)
      cases n with
      | zero => exact ⟨s, io, hr, h0, hcb, hpend.trans (asInt32_eq (by decide) (by decide)), rfl⟩
      | succ n =>
        obtain ⟨rc, hrc⟩ := hP s
        have hdown : asInt32 (s.ctx.pendingFills - 1) = asInt32 (n + 1 : ℕ) := by
          rw [hpend, asInt32_sub_one]
          congr 1
          omega
        have hne : asInt32 (s.ctx.pendingFills - 1) ≠ 0 :=
          hdown ▸ asInt32_ne_zero (by omega) (by omega)
        obtain ⟨hin, hpend'⟩ := @deliver_read_of_ne_zero lib rc s 0 io hcb hne
        obtain ⟨t, io', ht, hio', hcb', hone, htarget⟩ :=
          exists_reach_last_read hP n (hr.step hrc (heaanStep_deliver r lib h0 true rc))
            (fun io hio => hfill io (List.mem_of_mem_eraseIdx (hin ▸ hio)))
            (by rw [hin, List.length_eraseIdx_of_lt (by omega)]; omega) (by omega)
            (hpend'.trans hdown)
        refine ⟨t, io', ht, hio', hcb', hone, htarget.trans ?_⟩
        rw [targetExt_runCallback, (delivered_eq s 0 io true).2.2.2.2.1]

/-- With the counter at one, a successful read ends the read phase. -/
theorem deliver_last_read {k : ℕ} {io : Io} (hcb : io.cb = .fill) (hone : s.ctx.pendingFills = 1) :
    runCallback lib rc io true (s.delivered k io true)
      = fillDone lib rc io (countDown io true (s.delivered k io true)) := by
  have hz : (countDown io true (s.delivered k io true)).ctx.pendingFills = 0 := by
    rw [countDown_pending_true, (delivered_eq s k io true).2.2.2.1, hone]
    exact asInt32_eq (by decide) (by decide)
  rw [runCallback, hcb]
  rcases fillComplete_cases lib rc io true (s.delivered k io true) with
    ⟨h, -⟩ | ⟨-, heq⟩ | ⟨h, -⟩
  · exact absurd hz (Int.ne_of_gt h)
  · exact heq
  · exact absurd hz (Int.ne_of_lt h)

/-! ## Logs only grow -/

theorem mem_execParsed_trace {p : Parsed} {e : Effect} (h : e ∈ s.trace) :
    e ∈ (execParsed r al rc p s).trace := by
  unfold execParsed
  dsimp only
  split
  · exact List.mem_append_left _ (List.mem_append_left _ (List.mem_append_left _ h))
  · exact List.mem_append_left _ (List.mem_append_left _ h)

theorem mem_exec_trace {e : Effect} (h : e ∈ s.trace) :
    e ∈ (nvmfBdevCtrlrCustomHeaanCipaddCmd r al rc s).trace := by
  have halloc : e ∈ (r.allocated al s).trace := List.mem_append_left _ h
  rcases exec_cases r al rc s with heq | heq | ⟨sc, -, heq⟩ | ⟨p, -, -, heq⟩
  · rw [heq]
    exact List.mem_append_left _ h
  · rw [heq]
    exact List.mem_append_left _ halloc
  · rw [heq]
    exact List.mem_append_left _ halloc
  · rw [heq]
    exact mem_execParsed_trace halloc

theorem mem_fillDone_trace {io : Io} {e : Effect} (h : e ∈ s.trace) :
    e ∈ (fillDone lib rc io s).trace := by
  have hread : e ∈ (readInputs s).trace := List.mem_append_left _ h
  unfold fillDone
  dsimp only
  split
  · exact List.mem_append_left _ hread
  · rw [startWrites_trace, storeResult_trace]
    exact List.mem_append_left _ (List.mem_append_left _ hread)

theorem mem_callback_trace {io : Io} {success : Bool} {e : Effect} (h : e ∈ s.trace) :
    e ∈ (runCallback lib rc io success s).trace := by
  have hcount : e ∈ (countDown io success s).trace := by
    rw [countDown_trace]
    exact List.mem_append_left _ h
  unfold runCallback
  split
  · rcases fillComplete_cases lib rc io success s with ⟨-, heq⟩ | ⟨-, heq⟩ | ⟨-, heq⟩
    · rwa [heq]
    · rw [heq]
      exact mem_fillDone_trace hcount
    · rw [heq]
      exact List.mem_append_left _ hcount
  · rcases writeComplete_cases io success s with ⟨-, heq⟩ | ⟨-, heq⟩ | ⟨-, heq⟩
    · rwa [heq]
    · rw [heq]
      exact List.mem_append_left _ hcount
    · rw [heq]
      exact List.mem_append_left _ hcount

/-- **What has been done stays in the log.** -/
theorem mem_trace_of_step {e : Effect} (hstep : heaanStep r lib s l = some s') (h : e ∈ s.trace) :
    e ∈ s'.trace := by
  rcases heaanStep_cases hstep with ⟨al, rc, -, -, rfl⟩ | ⟨k, success, rc, io, -, -, rfl⟩
  · exact mem_exec_trace h
  · refine mem_callback_trace ?_
    rwa [(delivered_eq s k io success).1]

end NdpHeaan
