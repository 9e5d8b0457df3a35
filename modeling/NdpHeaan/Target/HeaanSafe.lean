import NdpHeaan.Target.HeaanAdd

/-!
# Target/HeaanSafe — HEaaN add fails without touching the device

One counter counts the reads down; a failure sets it to `-1`, the reads still in flight go on
counting, and the write phase uses it again.  A write is issued where it comes to zero over reads,
success is reported where it comes to zero over writes, so everything hangs on its never coming back
to zero.  It does not: a failure leaves it below zero and it only goes down from there, a rejected
submission leaves it above the number of I/Os that can still count it down, and there are far fewer
than `2 ^ 31` of them.  The invariant follows the command through

    idle ──▸ reading ──▸ writing ──▸ ended
                │
                ╰──────▸ failing

with any return codes, outcomes and order of delivery.
-/

open Machinery

namespace NdpHeaan

/-! ## The statement -/

/-- The I/Os whose callback reported success, oldest first. -/
def succeeded (t : List Effect) : List Io :=
  t.filterMap fun e => match e with
    | .callback io true => some io
    | _ => none

/-- The submissions, each with its return code. -/
def submissions (t : List Effect) : List (Io × ℤ) :=
  t.filterMap fun e => match e with
    | .submit io c => some (io, c)
    | _ => none

/-- The response code a log leaves behind, where it was `sc` before. -/
def lastSc (sc : Sc) : List Effect → Sc
  | [] => sc
  | e :: t => match e with
    | .rspSc sc' => lastSc sc' t
    | _ => lastSc sc t

/-- The codes a log completes the request with, where the response code was `sc` before. -/
def completions (sc : Sc) : List Effect → List Sc
  | [] => []
  | e :: t => match e with
    | .rspSc sc' => completions sc' t
    | .complete => sc :: completions sc t
    | _ => completions sc t

/-- The writes of a parsed payload, in submission order. -/
def Parsed.writes (p : Parsed) : List Io := ioList .write .target 0 p.targetExt

/-- The handler's own checks reject the payload. -/
def HeaanReq.Rejected (r : HeaanReq) : Prop :=
  r.noData = true ∨ ∃ n, (heaanParse r).2 = .endOfMedia n

/-- A read was rejected, or failed. -/
def ReadFailed (t : List Effect) : Prop :=
  (∃ io c, .submit io c ∈ t ∧ io.cb = .fill ∧ c ≠ 0) ∨ ∃ io, .callback io false ∈ t ∧ io.cb = .fill

/-- `ciphertextAdd` returned non-zero, on inputs the library was handed. -/
def AddFailed (lib : HeaanLib) (t : List Effect) : Prop :=
  ∃ d₀ z₀ o₀ d₁ z₁ o₁, .readCiphertext .input0 d₀ z₀ o₀ ∈ t ∧ .readCiphertext .input1 d₁ z₁ o₁ ∈ t ∧
    (lib.ciphertextAdd (lib.readCiphertextFromMem d₀ z₀ o₀)
      (lib.readCiphertextFromMem d₁ z₁ o₁)).1 ≠ 0

/-- **A clean log**: after a failure no write is issued, and a completion that reports success has
had every read and every write of the payload accepted and completed.  The response is zeroed before
the command is executed, which reads as success. -/
structure FailsClean (r : HeaanReq) (lib : HeaanLib) (t : List Effect) : Prop where
  noWrite : r.Rejected ∨ ReadFailed t ∨ AddFailed lib t →
    ∀ io c, .submit io c ∈ t → io.cb ≠ .write
  success : .success ∈ completions .success t → ∃ p, (heaanParse r).2 = .parsed p ∧
    submissions t = (p.reads ++ p.writes).map (·, 0) ∧
    (succeeded t).Perm (p.reads ++ p.writes)

/-! ## Logs -/

section Logs

variable {t u : List Effect} {sc : Sc}

@[simp] theorem succeeded_append : succeeded (t ++ u) = succeeded t ++ succeeded u :=
  List.filterMap_append

@[simp] theorem submissions_append : submissions (t ++ u) = submissions t ++ submissions u :=
  List.filterMap_append

theorem mem_submissions {io : Io} {c : ℤ} : (io, c) ∈ submissions t ↔ .submit io c ∈ t := by
  simp only [submissions, List.mem_filterMap]
  constructor
  · rintro ⟨e, he, h⟩
    split at h
    · cases h
      exact he
    · cases h
  · exact fun h => ⟨_, h, rfl⟩

@[simp] theorem lastSc_append : ∀ (sc : Sc) (t : List Effect),
    lastSc sc (t ++ u) = lastSc (lastSc sc t) u
  | _, [] => rfl
  | sc, e :: t => by
      cases e with
      | rspSc sc' => exact lastSc_append sc' t
      | _ => exact lastSc_append sc t

@[simp] theorem completions_append : ∀ (sc : Sc) (t : List Effect),
    completions sc (t ++ u) = completions sc t ++ completions (lastSc sc t) u
  | _, [] => rfl
  | sc, e :: t => by
      cases e with
      | rspSc sc' => exact completions_append sc' t
      | complete => exact congrArg _ (completions_append sc t)
      | _ => exact completions_append sc t

theorem completions_of_incomplete : ∀ {sc : Sc} {t : List Effect}, .complete ∉ t →
    completions sc t = []
  | _, [], _ => rfl
  | sc, e :: t, h => by
      have ih : ∀ sc', completions sc' t = [] := fun sc' =>
        completions_of_incomplete fun h' => h (List.mem_cons_of_mem _ h')
      cases e with
      | complete => exact absurd (List.mem_cons_self ..) h
      | _ => exact ih _

/-- Effects that say nothing about the response or an I/O. -/
def Effect.neutral : Effect → Bool
  | .rspSc _ | .complete | .submit _ _ | .callback _ _ | .readCiphertext _ _ _ _ => false
  | _ => true

/-- **Neutral effects leave every reading of a log as it was.** -/
theorem neutral_log : ∀ {t : List Effect}, (∀ e ∈ t, e.neutral = true) →
    succeeded t = [] ∧ submissions t = [] ∧ (∀ sc, lastSc sc t = sc) ∧ ∀ sc, completions sc t = []
  | [], _ => ⟨rfl, rfl, fun _ => rfl, fun _ => rfl⟩
  | e :: t, h => by
      have he := h e (List.mem_cons_self ..)
      obtain ⟨h1, h2, h3, h4⟩ := neutral_log fun e he => h e (List.mem_cons_of_mem _ he)
      cases e with
      | rspSc | complete | submit | callback | readCiphertext => cases he
      | _ => exact ⟨h1, h2, h3, h4⟩

theorem St.neutral_dmaFree (s : St) (b : Buf) : ∀ e ∈ s.dmaFree b, e.neutral = true := by
  intro e he
  rw [mem_dmaFree he]
  rfl

section DmaFree

variable (s : St) (b : Buf)

@[simp] theorem succeeded_dmaFree : succeeded (s.dmaFree b) = [] :=
  (neutral_log (s.neutral_dmaFree b)).1
@[simp] theorem submissions_dmaFree : submissions (s.dmaFree b) = [] :=
  (neutral_log (s.neutral_dmaFree b)).2.1
@[simp] theorem lastSc_dmaFree : lastSc sc (s.dmaFree b) = sc :=
  (neutral_log (s.neutral_dmaFree b)).2.2.1 sc
@[simp] theorem completions_dmaFree : completions sc (s.dmaFree b) = [] :=
  (neutral_log (s.neutral_dmaFree b)).2.2.2 sc

end DmaFree

/-- Submissions complete nothing, neither an I/O nor the request. -/
theorem succeeded_submitWrites (rc : ℕ → ℤ) (k : ℕ) (ios : List Io) :
    succeeded (submitWrites rc k ios).effects = [] :=
  List.filterMap_eq_nil_iff.mpr fun e he => by
    obtain ⟨io, -, c, rfl⟩ := mem_submitWrites he
    rfl

/-- The submissions of a loop in which nothing is rejected. -/
theorem log_submits (ios : List Io) : succeeded (ios.map fun io => Effect.submit io 0) = [] ∧
    submissions (ios.map fun io => Effect.submit io 0) = ios.map (·, 0) := by
  induction ios with
  | nil => exact ⟨rfl, rfl⟩
  | cons io ios ih => exact ⟨ih.1, congrArg _ ih.2⟩

end Logs

/-! ## The phases -/

/-- Nothing was written, and no completion reports success. -/
structure Harmless (t : List Effect) : Prop where
  noWrite : ∀ io c, .submit io c ∈ t → io.cb ≠ .write
  noSuccess : .success ∉ completions .success t

/-- The reads are in flight, and counted; nothing has failed. -/
structure ReadPhase (r : HeaanReq) (p : Parsed) (s : St) : Prop where
  handler : s.handler ≠ .idle
  hasData : r.noData = false
  parse : (heaanParse r).2 = .parsed p
  submitted : submissions s.trace = p.reads.map (·, 0)
  perm : (succeeded s.trace ++ s.inflight).Perm p.reads
  allOk : ∀ io success, .callback io success ∈ s.trace → success = true
  pending : s.ctx.pendingFills = s.inflight.length
  targetExt : s.ctx.targetExt = p.targetExt
  targetExtentsCount : s.ctx.targetExtentsCount = r.cdw13
  noAdd : ∀ b d z o, .readCiphertext b d z o ∉ s.trace
  incomplete : .complete ∉ s.trace

/-- A read was rejected or has failed: the counter has missed zero. -/
structure FailPhase (s : St) : Prop where
  handler : s.handler ≠ .idle
  harmless : Harmless s.trace
  status : lastSc .success s.trace ≠ .success
  fills : ∀ io ∈ s.inflight, io.cb = .fill
  missed : s.ctx.pendingFills < 0 ∨ s.inflight.length < s.ctx.pendingFills
  few : s.inflight.length < 2 ^ 28
  le_pending : s.inflight.length ≤ s.ctx.pendingFills + 2 ^ 28
  pending_lt : s.ctx.pendingFills < 2 ^ 28

/-- The writes are in flight.  Until one fails, the counter also counts those that were rejected. -/
structure WritePhase (r : HeaanReq) (lib : HeaanLib) (p : Parsed) (s : St) : Prop where
  handler : s.handler ≠ .idle
  hasData : r.noData = false
  parse : (heaanParse r).2 = .parsed p
  readsOk : ¬ ReadFailed s.trace
  added : ¬ AddFailed lib s.trace
  noSuccess : .success ∉ completions .success s.trace
  writes : ∀ io ∈ s.inflight, io.cb = .write
  count : s.ctx.pendingFills < 0 ∨ ∃ accepted : List Io, accepted.Sublist p.writes ∧
    (succeeded s.trace ++ s.inflight).Perm (p.reads ++ accepted) ∧
    s.ctx.pendingFills = s.inflight.length + (p.writes.length - accepted.length : ℕ) ∧
    (accepted = p.writes → submissions s.trace = (p.reads ++ p.writes).map (·, 0))
  few : s.inflight.length < 2 ^ 28
  le_pending : s.inflight.length ≤ s.ctx.pendingFills + 2 ^ 28
  pending_lt : s.ctx.pendingFills < 2 ^ 28

/-- **The invariant**: a command is in one of its phases. -/
inductive SafePhase (r : HeaanReq) (lib : HeaanLib) (s : St) : Prop
  | idle (trace : s.trace = []) (inflight : s.inflight = [])
  | reading (p : Parsed) (h : ReadPhase r p s)
  | failing (h : FailPhase s)
  | writing (p : Parsed) (h : WritePhase r lib p s)
  | ended (handler : s.handler ≠ .idle) (inflight : s.inflight = [])
      (h : FailsClean r lib s.trace)

section Phases

variable {r : HeaanReq} {lib : HeaanLib} {p : Parsed} {s : St}

theorem Harmless.failsClean {t : List Effect} (h : Harmless t) : FailsClean r lib t :=
  ⟨fun _ => h.noWrite, fun hs => absurd hs h.noSuccess⟩

theorem ReadPhase.harmless (h : ReadPhase r p s) : Harmless s.trace where
  noWrite io c hc := by
    have hmem := mem_submissions.mpr hc
    rw [h.submitted] at hmem
    obtain ⟨io', hio', heq⟩ := List.mem_map.mp hmem
    cases heq
    rw [Parsed.cb_of_mem_reads hio']
    exact Callback.noConfusion
  noSuccess := by
    rw [completions_of_incomplete h.incomplete]
    exact List.not_mem_nil

theorem not_rejected (hnd : r.noData = false) (hp : (heaanParse r).2 = .parsed p) :
    ¬ r.Rejected := by
  rintro (h | ⟨n, h⟩)
  · rw [hnd] at h
    cases h
  · rw [hp] at h
    cases h

/-- **Every phase has a clean log.** -/
theorem SafePhase.failsClean (h : SafePhase r lib s) : FailsClean r lib s.trace := by
  cases h with
  | idle htrace => rw [htrace]; exact Harmless.failsClean ⟨nofun, nofun⟩
  | reading p h => exact h.harmless.failsClean
  | failing h => exact h.harmless.failsClean
  | writing p h =>
    refine ⟨fun hbad => ?_, fun hs => absurd hs h.noSuccess⟩
    rcases hbad with hbad | hbad | hbad
    · exact absurd hbad (not_rejected h.hasData h.parse)
    · exact absurd hbad h.readsOk
    · exact absurd hbad h.added
  | ended _ _ h => exact h

end Phases

/-! ## The handler -/

/-- The lists of a command that lie inside the first data buffer are short. -/
theorem HeaanReq.counts_lt {r : HeaanReq} (hinside : 8 * r.payloadWords ≤ r.iovLen) :
    r.cdw11.toNat + r.cdw12.toNat + r.cdw13.toNat < 2 ^ 28 := by
  have hlt := r.iovLen_lt
  rw [payloadWords] at hinside
  omega

section Exec

variable {r : HeaanReq} {lib : HeaanLib} {al : Alloc} {rc : ℕ → ℤ} {p : Parsed} {s : St}

theorem Harmless.append {t u : List Effect} (ht : Harmless t)
    (hu : ∀ io c, .submit io c ∈ u → io.cb ≠ .write)
    (hs : .success ∉ completions (lastSc .success t) u) : Harmless (t ++ u) where
  noWrite io c hc := (List.mem_append.mp hc).elim (ht.noWrite io c) (hu io c)
  noSuccess := by
    rw [completions_append]
    exact fun h => (List.mem_append.mp h).elim ht.noSuccess hs

theorem Harmless.of_neutral {t : List Effect} (h : ∀ e ∈ t, e.neutral = true) : Harmless t where
  noWrite io c hc := by cases h _ hc
  noSuccess := by
    rw [(neutral_log h).2.2.2]
    exact List.not_mem_nil

/-- The allocations of the handler are neutral. -/
theorem neutral_allocated (htrace : s.trace = []) :
    ∀ e ∈ (r.allocated al s).trace ++ al.buffers, e.neutral = true := by
  intro e he
  obtain ⟨o, rfl⟩ : ∃ o, e = .alloc o := by
    rcases List.mem_append.mp he with he | he
    · exact (HeaanReq.mem_allocated he).resolve_left (by simp [htrace])
    · exact Alloc.mem_buffers he
  rfl

/-- A handler that gets its reads accepted starts the read phase. -/
theorem readPhase_exec (hsmall : r.cdw11.toNat + r.cdw12.toNat + r.cdw13.toNat < 2 ^ 28)
    (htrace : s.trace = []) (hnd : r.noData = false) (hp : (heaanParse r).2 = .parsed p)
    (hacc : submitReads rc 0 p.reads = ⟨p.reads, p.reads.map fun io => .submit io 0, false⟩) :
    ReadPhase r p (execParsed r al rc p (r.allocated al s)) := by
  obtain ⟨hs, hsub, -, -⟩ := neutral_log (@neutral_allocated r al s htrace)
  obtain ⟨hs', hsub'⟩ := log_submits p.reads
  have hmem : ∀ e ∈ (r.allocated al s).trace ++ al.buffers ++
      p.reads.map fun io => Effect.submit io 0,
      e.neutral = true ∨ ∃ io, e = .submit io 0 := by
    intro e he
    rcases List.mem_append.mp he with he | he
    · exact Or.inl (neutral_allocated htrace e he)
    · obtain ⟨io, -, rfl⟩ := List.mem_map.mp he
      exact Or.inr ⟨io, rfl⟩
  rw [execParsed_of_accepted hacc]
  refine ⟨Handler.noConfusion, hnd, hp, ?_, ?_, ?_, ?_, rfl, rfl, ?_, ?_⟩
  · rw [submissions_append, hsub, hsub']
    rfl
  · rw [succeeded_append, hs, hs']
    exact List.Perm.refl _
  · intro io success hc
    rcases hmem _ hc with h | ⟨_, h⟩ <;> cases h
  · rw [HeaanReq.ctxParsed_pendingFills, Parsed.length_reads hp, UInt32.toNat_add,
      Nat.mod_eq_of_lt (by omega), asInt32_eq (by omega) (by omega)]
  · intro b d z o hc
    rcases hmem _ hc with h | ⟨_, h⟩ <;> cases h
  · intro hc
    rcases hmem _ hc with h | ⟨_, h⟩ <;> cases h

/-- One that has a read rejected has failed: the counter is above what is in flight. -/
theorem failPhase_exec (hsmall : r.cdw11.toNat + r.cdw12.toNat + r.cdw13.toNat < 2 ^ 28)
    (htrace : s.trace = []) (hp : (heaanParse r).2 = .parsed p)
    (hrej : (submitReads rc 0 p.reads).rejected = true) :
    FailPhase (execParsed r al rc p (r.allocated al s)) := by
  have hlen := length_accepted_of_rejected hrej
  rw [Parsed.length_reads hp] at hlen
  have hpend : asInt32 (r.cdw11 + r.cdw12).toNat = (r.cdw11.toNat + r.cdw12.toNat : ℕ) := by
    rw [UInt32.toNat_add, Nat.mod_eq_of_lt (by omega), asInt32_eq (by omega) (by omega)]
  have hcb : ∀ io c, .submit io c ∈ (submitReads rc 0 p.reads).effects → io.cb ≠ .write := by
    intro io c hc
    obtain ⟨io', hio', c', heq⟩ := mem_submitReads hc
    cases heq
    rw [Parsed.cb_of_mem_reads hio']
    exact Callback.noConfusion
  have hquiet : ∀ sc, completions sc (submitReads rc 0 p.reads).effects = [] := fun sc =>
    completions_of_incomplete fun hc => by
      obtain ⟨_, -, _, h⟩ := mem_submitReads hc
      cases h
  have hlog : Harmless ((r.allocated al s).trace ++ al.buffers ++
      (submitReads rc 0 p.reads).effects) :=
    (Harmless.of_neutral (neutral_allocated htrace)).append hcb (by rw [hquiet]; exact nofun)
  unfold execParsed
  dsimp only
  rw [if_pos hrej]
  refine ⟨Handler.noConfusion, hlog.append (by simp) (by simp [completions]),
    ?_, ?_, ?_, ?_, ?_, ?_⟩
  · simp [lastSc]
  · exact fun io hio => Parsed.cb_of_mem_reads (accepted_submitReads_subset hio)
  · refine Or.inr ?_
    change ((submitReads rc 0 p.reads).accepted.length : ℤ) < asInt32 (r.cdw11 + r.cdw12).toNat
    omega
  · change (submitReads rc 0 p.reads).accepted.length < 2 ^ 28
    omega
  · change ((submitReads rc 0 p.reads).accepted.length : ℤ)
      ≤ asInt32 (r.cdw11 + r.cdw12).toNat + 2 ^ 28
    omega
  · change asInt32 (r.cdw11 + r.cdw12).toNat < 2 ^ 28
    omega

/-- **The handler** starts the read phase, fails, or ends the command. -/
theorem safePhase_exec (hsmall : r.cdw11.toNat + r.cdw12.toNat + r.cdw13.toNat < 2 ^ 28)
    (htrace : s.trace = []) (hin : s.inflight = []) :
    SafePhase r lib (nvmfBdevCtrlrCustomHeaanCipaddCmd r al rc s) := by
  have hidle := @handler_exec_ne_idle r al rc s
  have halloc : Harmless (r.allocated al s).trace := Harmless.of_neutral fun e he =>
    neutral_allocated htrace e (List.mem_append_left _ he)
  rcases exec_cases r al rc s with heq | heq | ⟨sc, hsc, heq⟩ | ⟨p, hnd, hp, heq⟩
  · rw [heq] at hidle ⊢
    refine .ended hidle hin (Harmless.failsClean ?_)
    simp only [St.crash, St.emit, htrace]
    exact .of_neutral (by simp [Effect.neutral])
  · rw [heq] at hidle ⊢
    exact .ended hidle hin (halloc.append (by simp) (by simp [completions])).failsClean
  · rw [heq] at hidle ⊢
    refine .ended hidle hin (halloc.append (by simp) ?_).failsClean
    simpa [completions] using hsc.symm
  · rw [heq]
    cases hrej : (submitReads rc 0 p.reads).rejected with
    | false =>
      exact .reading p (readPhase_exec hsmall htrace hnd hp (submitReads_of_not_rejected hrej))
    | true => exact .failing (failPhase_exec hsmall htrace hp hrej)

end Exec

/-! ## The callbacks -/

section Callbacks

variable {r : HeaanReq} {lib : HeaanLib} {rc : ℕ → ℤ} {p : Parsed} {s : St} {k : ℕ} {io : Io}

/-- One I/O less is in flight. -/
theorem length_inflight (hio : s.inflight[k]? = some io) :
    (s.inflight.eraseIdx k).length + 1 = s.inflight.length :=
  (eraseIdx_perm hio).length_eq

theorem ReadPhase.inflight_le (h : ReadPhase r p s) :
    s.inflight.length ≤ r.cdw11.toNat + r.cdw12.toNat := by
  rw [← Parsed.length_reads h.parse, ← h.perm.length_eq, List.length_append]
  omega

/-- A successful read is counted. -/
theorem ReadPhase.countDown (hsmall : r.cdw11.toNat + r.cdw12.toNat + r.cdw13.toNat < 2 ^ 28)
    (h : ReadPhase r p s) (hio : s.inflight[k]? = some io) :
    ReadPhase r p (countDown io true (s.delivered k io true)) := by
  obtain ⟨htrace, hhandler, hin, htarget, hcount⟩ := entered_eq s k io true
  have hlen := length_inflight hio
  have hle := h.inflight_le
  rw [if_pos rfl] at htrace
  refine ⟨?_, h.hasData, h.parse, ?_, ?_, ?_, ?_, ?_, ?_, ?_, ?_⟩
  · rw [hhandler]
    exact h.handler
  · rw [htrace, submissions_append, h.submitted]
    exact List.append_nil _
  · rw [htrace, hin, succeeded_append, List.append_assoc]
    exact ((eraseIdx_perm hio).append_left _).trans h.perm
  · intro io' success hc
    rw [htrace] at hc
    rcases List.mem_append.mp hc with hc | hc
    · exact h.allOk io' success hc
    · cases List.mem_singleton.mp hc
      rfl
  · rw [entered_pending_true, hin, h.pending, asInt32_eq (by omega) (by omega)]
    omega
  · rw [htarget, h.targetExt]
  · rw [hcount, h.targetExtentsCount]
  · intro b d z o hc
    rw [htrace] at hc
    rcases List.mem_append.mp hc with hc | hc
    · exact h.noAdd b d z o hc
    · cases List.mem_singleton.mp hc
  · intro hc
    rw [htrace] at hc
    rcases List.mem_append.mp hc with hc | hc
    · exact h.incomplete hc
    · cases List.mem_singleton.mp hc

/-- A failed read leaves the read phase for good. -/
theorem ReadPhase.failPhase (hsmall : r.cdw11.toNat + r.cdw12.toNat + r.cdw13.toNat < 2 ^ 28)
    (h : ReadPhase r p s) (hio : s.inflight[k]? = some io) :
    FailPhase (NdpHeaan.countDown io false (s.delivered k io false)) := by
  obtain ⟨htrace, hhandler, hin, -, -⟩ := entered_eq s k io false
  have hlen := length_inflight hio
  have hle := h.inflight_le
  rw [if_neg Bool.false_ne_true] at htrace
  refine ⟨?_, ?_, ?_, ?_, Or.inl ?_, ?_, ?_, ?_⟩
  · rw [hhandler]
    exact h.handler
  · rw [htrace]
    exact h.harmless.append (by simp) (by simp [completions])
  · rw [htrace]
    simp [lastSc]
  · intro io' hio'
    rw [hin] at hio'
    have hmem := h.perm.subset (List.mem_append_right _ (List.mem_of_mem_eraseIdx hio'))
    exact Parsed.cb_of_mem_reads hmem
  · rw [entered_pending_false]
    decide
  · rw [hin]
    omega
  · rw [entered_pending_false, hin]
    omega
  · rw [entered_pending_false]
    decide

/-- "One or more extent reads failed." -/
theorem FailPhase.fillFailed (h : FailPhase s) (io : Io) : FailPhase (fillFailed io s) := by
  refine ⟨h.handler, h.harmless.append (by simp) ?_, ?_, h.fills, h.missed, h.few,
    h.le_pending, h.pending_lt⟩
  · simpa [completions] using h.status.symm
  · simp [NdpHeaan.fillFailed, lastSc]

/-- Whatever a read comes to, the counter keeps missing zero. -/
theorem FailPhase.countDown (h : FailPhase s) (hio : s.inflight[k]? = some io) (success : Bool) :
    FailPhase (NdpHeaan.countDown io success (s.delivered k io success)) ∧
      (NdpHeaan.countDown io success (s.delivered k io success)).ctx.pendingFills ≠ 0 := by
  obtain ⟨htrace, hhandler, hin, -, -⟩ := entered_eq s k io success
  have hlen := length_inflight hio
  have hmissed := h.missed
  have hfew := h.few
  have hle := h.le_pending
  have hlt := h.pending_lt
  -- a success counts both down, a failure sets the mark: either way they stay apart
  have hpend := entered_pending (s := s) (k := k) (by omega) (by omega) io success
  refine ⟨⟨?_, ?_, ?_, ?_, ?_, ?_, ?_, ?_⟩, ?_⟩
  · rw [hhandler]
    exact h.handler
  · rw [htrace]
    refine h.harmless.append (by cases success <;> simp) ?_
    cases success <;> simp [completions]
  · rw [htrace]
    cases success with
    | true => simpa [lastSc] using h.status
    | false => simp [lastSc]
  · intro io' hio'
    rw [hin] at hio'
    exact h.fills io' (List.mem_of_mem_eraseIdx hio')
  · rw [hpend, hin]
    split <;> omega
  · rw [hin]
    omega
  · rw [hpend, hin]
    split <;> omega
  · rw [hpend]
    split <;> omega
  · rw [hpend]
    split <;> omega

/-- **The failing phase is never left.** -/
theorem FailPhase.deliver (h : FailPhase s) (hio : s.inflight[k]? = some io) (success : Bool) :
    FailPhase (runCallback lib rc io success (s.delivered k io success)) := by
  obtain ⟨hdown, hne⟩ := h.countDown hio success
  rw [runCallback, h.fills io (List.mem_of_getElem? hio)]
  rcases fillComplete_cases lib rc io success (s.delivered k io success) with
    ⟨-, heq⟩ | ⟨hz, -⟩ | ⟨-, heq⟩
  · exact heq ▸ hdown
  · exact absurd hz hne
  · exact heq ▸ hdown.fillFailed io

/-! ### The write phase -/

/-- What the end of the read phase logs before the first write. -/
def St.addLog (s : St) (bytes : List UInt8) : List Effect :=
  [Effect.readCiphertext .input0 (s.ctx.handed .input0 s.ctx.input0TotalSize)
      s.ctx.input0TotalSize s.ctx.input0StartOffset,
    .readCiphertext .input1 (s.ctx.handed .input1 s.ctx.input1TotalSize) s.ctx.input1TotalSize
      s.ctx.input1StartOffset,
    .writeCiphertext (s.ctx.buffer .target).isSome bytes.length] ++
  (s.dmaFree .input0 ++ s.dmaFree .input1)

/-- It hands the library one pair of inputs, and is neutral otherwise. -/
theorem St.mem_addLog {bytes : List UInt8} {e : Effect} (h : e ∈ s.addLog bytes) :
    e.neutral = true ∨ ∃ b d z o, e = .readCiphertext b d z o := by
  rcases List.mem_append.mp h with h | h
  · simp only [List.mem_cons, List.not_mem_nil, or_false] at h
    rcases h with rfl | rfl | rfl
    · exact Or.inr ⟨_, _, _, _, rfl⟩
    · exact Or.inr ⟨_, _, _, _, rfl⟩
    · exact Or.inl rfl
  · exact Or.inl ((List.mem_append.mp h).elim (s.neutral_dmaFree _ e) (s.neutral_dmaFree _ e))

theorem St.addLog_eq (bytes : List UInt8) :
    succeeded (s.addLog bytes) = [] ∧ submissions (s.addLog bytes) = [] := by
  simp only [addLog, succeeded_append, submissions_append, succeeded_dmaFree, submissions_dmaFree]
  exact ⟨rfl, rfl⟩

/-- The log of the end of the read phase. -/
theorem startWrites_log (hext : s.ctx.targetExt = p.targetExt) (bytes : List UInt8) :
    (startWrites rc (storeResult bytes (readInputs s))).trace
      = s.trace ++ (s.addLog bytes ++ (submitWrites rc 0 p.writes).effects) := by
  rw [startWrites_trace, storeResult_trace, storeResult_targetExt, readInputs_ctx, hext, readInputs,
    St.emit_trace, St.addLog]
  simp only [List.append_assoc, List.cons_append, List.nil_append]
  rfl

/-- Behind the reads, only writes are submitted and no callback is entered. -/
theorem mem_writeLog {bytes : List UInt8} {e : Effect}
    (h : e ∈ s.addLog bytes ++ (submitWrites rc 0 p.writes).effects) :
    e.neutral = true ∨ (∃ b d z o, e = .readCiphertext b d z o) ∨
      ∃ io c, io.cb = .write ∧ e = .submit io c := by
  rcases List.mem_append.mp h with h | h
  · exact (St.mem_addLog h).imp_right Or.inl
  · obtain ⟨io, hio, c, rfl⟩ := mem_submitWrites h
    exact Or.inr (Or.inr ⟨io, c, cb_of_mem_ioList hio, rfl⟩)

theorem readFailed_append {t u : List Effect} :
    ReadFailed (t ++ u) ↔ ReadFailed t ∨ ReadFailed u := by
  simp only [ReadFailed, List.mem_append, or_and_right, exists_or]
  exact or_or_or_comm

theorem ReadPhase.not_readFailed (h : ReadPhase r p s) : ¬ ReadFailed s.trace := by
  rintro (⟨io, c, hc, -, hne⟩ | ⟨io, hc, -⟩)
  · have hmem := mem_submissions.mpr hc
    rw [h.submitted] at hmem
    obtain ⟨io', -, heq⟩ := List.mem_map.mp hmem
    exact hne (Prod.mk.inj heq).2.symm
  · exact Bool.false_ne_true (h.allOk io false hc)

/-- The library was handed the inputs whose sum is about to be written. -/
theorem ReadPhase.not_addFailed (h : ReadPhase r p s) (hadd : (s.ctx.addResult lib).1 = 0)
    (bytes : List UInt8) :
    ¬ AddFailed lib (s.trace ++ (s.addLog bytes ++ (submitWrites rc 0 p.writes).effects)) := by
  have honce : ∀ b d z o, .readCiphertext b d z o ∈
      s.trace ++ (s.addLog bytes ++ (submitWrites rc 0 p.writes).effects) →
      .readCiphertext b d z o ∈
        [.readCiphertext .input0 (s.ctx.handed .input0 s.ctx.input0TotalSize)
            s.ctx.input0TotalSize s.ctx.input0StartOffset,
          Effect.readCiphertext .input1 (s.ctx.handed .input1 s.ctx.input1TotalSize)
            s.ctx.input1TotalSize s.ctx.input1StartOffset] := by
    intro b d z o hc
    rcases List.mem_append.mp hc with hc | hc
    · exact absurd hc (h.noAdd b d z o)
    rcases List.mem_append.mp hc with hc | hc
    · rcases List.mem_append.mp hc with hc | hc
      · simpa using hc
      · rcases List.mem_append.mp hc with hc | hc
        · cases s.neutral_dmaFree _ _ hc
        · cases s.neutral_dmaFree _ _ hc
    · obtain ⟨_, -, _, heq⟩ := mem_submitWrites hc
      cases heq
  rintro ⟨d₀, z₀, o₀, d₁, z₁, o₁, h₀, h₁, hne⟩
  have h₀ := honce _ _ _ _ h₀
  have h₁ := honce _ _ _ _ h₁
  simp only [List.mem_cons, Effect.readCiphertext.injEq, List.not_mem_nil, or_false, true_and,
    false_and, reduceCtorEq, false_or] at h₀ h₁
  obtain ⟨rfl, rfl, rfl⟩ := h₀
  obtain ⟨rfl, rfl, rfl⟩ := h₁
  exact hne hadd

/-- The addition has succeeded: the writes are submitted, and those accepted are counted. -/
theorem ReadPhase.writePhase (hsmall : r.cdw11.toNat + r.cdw12.toNat + r.cdw13.toNat < 2 ^ 28)
    (h : ReadPhase r p s) (hnil : s.inflight = []) (hadd : (s.ctx.addResult lib).1 = 0)
    (bytes : List UInt8) :
    WritePhase r lib p (startWrites rc (storeResult bytes (readInputs s))) := by
  have hsub := @accepted_submitWrites_sublist rc 0 p.writes
  have hwrites : p.writes.length = r.cdw13.toNat := by
    rw [Parsed.writes, length_ioList, (length_of_parsed h.parse).2.2]
  have hle := hsub.length_le
  have htrace := @startWrites_log rc p s h.targetExt bytes
  have hin : (startWrites rc (storeResult bytes (readInputs s))).inflight
      = (submitWrites rc 0 p.writes).accepted := by
    rw [startWrites_inflight, storeResult_inflight, readInputs_inflight, hnil, List.nil_append,
      storeResult_targetExt, readInputs_ctx, h.targetExt]
    rfl
  have hpend : (startWrites rc (storeResult bytes (readInputs s))).ctx.pendingFills
      = (r.cdw13.toNat : ℤ) := by
    rw [startWrites_ctx, storeResult_pending, readInputs_ctx, h.targetExtentsCount,
      asInt32_eq (by omega) (by omega)]
  refine ⟨h.handler, h.hasData, h.parse, ?_, ?_, ?_, ?_, Or.inr ⟨_, hsub, ?_, ?_, fun hall => ?_⟩,
    ?_, ?_, ?_⟩
  · rw [htrace, readFailed_append]
    rintro (hbad | ⟨io, c, hc, hcb, -⟩ | ⟨io, hc, -⟩)
    · exact h.not_readFailed hbad
    · rcases mem_writeLog hc with hc | ⟨_, _, _, _, hc⟩ | ⟨io', c', hcb', heq⟩
      · cases hc
      · cases hc
      · cases heq
        rw [hcb] at hcb'
        cases hcb'
    · rcases mem_writeLog hc with hc | ⟨_, _, _, _, hc⟩ | ⟨_, _, -, hc⟩ <;> cases hc
  · rw [htrace]
    exact h.not_addFailed hadd bytes
  · rw [htrace, completions_of_incomplete fun hc => ?_]
    · exact List.not_mem_nil
    · rcases List.mem_append.mp hc with hc | hc
      · exact h.incomplete hc
      · rcases mem_writeLog hc with hc | ⟨_, _, _, _, hc⟩ | ⟨_, _, -, hc⟩ <;> cases hc
  · intro io hio
    rw [hin] at hio
    exact cb_of_mem_ioList (hsub.subset hio)
  · have hperm := h.perm
    rw [hnil, List.append_nil] at hperm
    rw [htrace, hin, succeeded_append, succeeded_append, (St.addLog_eq bytes).1,
      succeeded_submitWrites, List.append_nil, List.append_nil]
    exact hperm.append_right _
  · rw [hpend, hin]
    omega
  · rw [htrace, submitWrites_of_accepted hall, submissions_append, submissions_append,
      (St.addLog_eq bytes).2, (log_submits _).2, List.map_append, h.submitted]
    rfl
  · rw [hin]
    omega
  · rw [hin, hpend]
    omega
  · rw [hpend]
    omega

/-- **The end of the read phase**: the command ends, or goes on to the writes. -/
theorem ReadPhase.fillDone (hsmall : r.cdw11.toNat + r.cdw12.toNat + r.cdw13.toNat < 2 ^ 28)
    (h : ReadPhase r p s) (hnil : s.inflight = []) (io : Io) :
    SafePhase r lib (fillDone lib rc io s) := by
  by_cases hadd : (s.ctx.addResult lib).1 = 0
  · rw [NdpHeaan.fillDone, if_neg (not_not.mpr hadd)]
    exact .writing p (h.writePhase hsmall hnil hadd _)
  · rw [NdpHeaan.fillDone, if_pos hadd]
    refine .ended h.handler hnil (Harmless.failsClean ?_)
    rw [addFailed, St.emit_trace, readInputs, St.emit_trace, List.append_assoc]
    exact h.harmless.append (by simp) (by simp [completions])

/-- **A step of the read phase.** -/
theorem ReadPhase.deliver (hsmall : r.cdw11.toNat + r.cdw12.toNat + r.cdw13.toNat < 2 ^ 28)
    (h : ReadPhase r p s) (hio : s.inflight[k]? = some io) (success : Bool) :
    SafePhase r lib (runCallback lib rc io success (s.delivered k io success)) := by
  have hmem := h.perm.subset (List.mem_append_right _ (List.mem_of_getElem? hio))
  rw [runCallback, Parsed.cb_of_mem_reads hmem]
  have hcases := fillComplete_cases lib rc io success (s.delivered k io success)
  cases success with
  | true =>
    have hdown := h.countDown hsmall hio
    have hpend := hdown.pending
    rcases hcases with ⟨-, heq⟩ | ⟨hz, heq⟩ | ⟨hneg, -⟩
    · exact heq ▸ .reading p hdown
    · rw [hz] at hpend
      exact heq ▸ hdown.fillDone hsmall (List.length_eq_zero_iff.mp (by omega)) io
    · omega
  | false =>
    have hfail := h.failPhase hsmall hio
    have hmark := entered_pending_false s k io
    rcases hcases with ⟨hpos, -⟩ | ⟨hz, -⟩ | ⟨-, heq⟩
    · omega
    · omega
    · exact heq ▸ .failing (hfail.fillFailed io)

/-- Effects that bear on no read: no submission, no call of the library, no callback of a read. -/
def Effect.aside : Effect → Bool
  | .submit _ _ | .readCiphertext _ _ _ _ => false
  | .callback io _ => io.cb == .write
  | _ => true

section Aside

variable {t u : List Effect}

theorem not_readFailed_append (ht : ¬ ReadFailed t) (hu : ∀ e ∈ u, e.aside = true) :
    ¬ ReadFailed (t ++ u) := by
  rw [readFailed_append]
  rintro (hbad | ⟨io, c, hc, -⟩ | ⟨io, hc, hcb⟩)
  · exact ht hbad
  · cases hu _ hc
  · have h := hu _ hc
    simp [Effect.aside, hcb] at h

theorem not_addFailed_append (ht : ¬ AddFailed lib t) (hu : ∀ e ∈ u, e.aside = true) :
    ¬ AddFailed lib (t ++ u) := by
  have hearly : ∀ {b d z o}, .readCiphertext b d z o ∈ t ++ u → .readCiphertext b d z o ∈ t :=
    fun h => (List.mem_append.mp h).resolve_right fun h => by cases hu _ h
  rintro ⟨d₀, z₀, o₀, d₁, z₁, o₁, h₀, h₁, hne⟩
  exact ht ⟨d₀, z₀, o₀, d₁, z₁, o₁, hearly h₀, hearly h₁, hne⟩

theorem submissions_append_aside (hu : ∀ e ∈ u, e.aside = true) :
    submissions (t ++ u) = submissions t := by
  have hnil : submissions u = [] := List.filterMap_eq_nil_iff.mpr fun e he => by
    cases e with
    | submit => cases hu _ he
    | _ => rfl
  rw [submissions_append, hnil, List.append_nil]

theorem St.aside_dmaFree (s : St) (b : Buf) : ∀ e ∈ s.dmaFree b, e.aside = true := by
  intro e he
  rw [mem_dmaFree he]
  rfl

end Aside

/-- The entry into the callback of a write. -/
theorem aside_entered (hcb : io.cb = .write) (success : Bool) :
    ∀ e ∈ Effect.callback io success :: (if success then [] else [.rspSc .internalDeviceError]),
      e.aside = true := by
  cases success <;> simp [Effect.aside, hcb]

/-- A write that completes is counted; a failed one sets the mark. -/
theorem WritePhase.countDown (h : WritePhase r lib p s) (hio : s.inflight[k]? = some io)
    (success : Bool) :
    WritePhase r lib p (NdpHeaan.countDown io success (s.delivered k io success)) := by
  obtain ⟨htrace, hhandler, hin, -, -⟩ := entered_eq s k io success
  have hlen := length_inflight hio
  have hfew := h.few
  have hle := h.le_pending
  have hlt := h.pending_lt
  have haside := aside_entered (h.writes io (List.mem_of_getElem? hio)) success
  have hpend := entered_pending (s := s) (k := k) (by omega) (by omega) io success
  refine ⟨hhandler ▸ h.handler, h.hasData, h.parse, ?_, ?_, ?_, ?_, ?_, ?_, ?_, ?_⟩
  · rw [htrace]
    exact not_readFailed_append h.readsOk haside
  · rw [htrace]
    exact not_addFailed_append h.added haside
  · rw [htrace, completions_append]
    intro hs
    refine (List.mem_append.mp hs).elim h.noSuccess ?_
    cases success <;> simp [completions]
  · intro io' hio'
    rw [hin] at hio'
    exact h.writes io' (List.mem_of_mem_eraseIdx hio')
  · cases success with
    | false => exact Or.inl (by rw [hpend]; simp)
    | true =>
      rw [hpend, if_pos rfl]
      rcases h.count with hneg | ⟨accepted, hsub, hperm, hcount, hall⟩
      · exact Or.inl (by omega)
      · refine Or.inr ⟨accepted, hsub, ?_, ?_, fun heq => ?_⟩
        · rw [htrace, hin, succeeded_append, List.append_assoc]
          exact ((eraseIdx_perm hio).append_left _).trans hperm
        · rw [hin]
          omega
        · rw [htrace, submissions_append_aside haside, hall heq]
  · rw [hin]
    omega
  · rw [hpend, hin]
    split <;> omega
  · rw [hpend]
    split <;> omega

/-- "One or more file writes failed." -/
theorem WritePhase.writeFailed (h : WritePhase r lib p s) (hneg : s.ctx.pendingFills < 0)
    (io : Io) : WritePhase r lib p (writeFailed io s) := by
  have haside : ∀ e ∈ [Effect.rspSct .generic, .rspSc .internalDeviceError, .freeIo io,
      .complete] ++ s.dmaFree .target ++ [Effect.free .ctx], e.aside = true := by
    simp only [List.forall_mem_append]
    exact ⟨⟨by simp [Effect.aside], s.aside_dmaFree _⟩, by simp [Effect.aside]⟩
  refine ⟨h.handler, h.hasData, h.parse, not_readFailed_append h.readsOk haside,
    not_addFailed_append h.added haside, ?_, h.writes, Or.inl hneg, h.few, h.le_pending,
    h.pending_lt⟩
  rw [NdpHeaan.writeFailed, St.emit_trace, completions_append]
  intro hs
  refine (List.mem_append.mp hs).elim h.noSuccess ?_
  simp [completions]

/-- **Every write has succeeded**: the counter at zero leaves no other way. -/
theorem WritePhase.writeDone (h : WritePhase r lib p s) (hz : s.ctx.pendingFills = 0) (io : Io) :
    SafePhase r lib (writeDone io s) := by
  rcases h.count with hneg | ⟨accepted, hsub, hperm, hcount, hall⟩
  · omega
  have hnil : s.inflight = [] := List.length_eq_zero_iff.mp (by omega)
  have haccepted : accepted = p.writes := hsub.eq_of_length_le (by omega)
  rw [hnil, List.append_nil, haccepted] at hperm
  have haside : ∀ e ∈ [Effect.rspSct .generic, .rspSc .success] ++ s.dmaFree .target ++
      [Effect.free .ctx, .freeIo io, .complete], e.aside = true := by
    simp only [List.forall_mem_append]
    exact ⟨⟨by simp [Effect.aside], s.aside_dmaFree _⟩, by simp [Effect.aside]⟩
  refine .ended h.handler hnil ⟨fun hbad => ?_, fun _ => ⟨p, h.parse, ?_, ?_⟩⟩
  · rcases hbad with hbad | hbad | hbad
    · exact absurd hbad (not_rejected h.hasData h.parse)
    · exact absurd hbad (not_readFailed_append h.readsOk haside)
    · exact absurd hbad (not_addFailed_append h.added haside)
  · rw [NdpHeaan.writeDone, St.emit_trace, submissions_append_aside haside, hall haccepted]
  · rw [NdpHeaan.writeDone, St.emit_trace, succeeded_append]
    have hlog : succeeded ([Effect.rspSct .generic, .rspSc .success] ++ s.dmaFree .target ++
        [Effect.free .ctx, .freeIo io, .complete]) = [] := by
      simp only [succeeded_append, succeeded_dmaFree]
      rfl
    rw [hlog, List.append_nil]
    exact hperm

/-- **A step of the write phase.** -/
theorem WritePhase.deliver (h : WritePhase r lib p s) (hio : s.inflight[k]? = some io)
    (success : Bool) :
    SafePhase r lib (runCallback lib rc io success (s.delivered k io success)) := by
  have hdown := h.countDown hio success
  rw [runCallback, h.writes io (List.mem_of_getElem? hio)]
  rcases writeComplete_cases io success (s.delivered k io success) with
    ⟨-, heq⟩ | ⟨hz, heq⟩ | ⟨hneg, heq⟩
  · exact heq ▸ .writing p hdown
  · exact heq ▸ hdown.writeDone hz io
  · exact heq ▸ .writing p (hdown.writeFailed hneg io)

end Callbacks

/-! ## Every run -/

/-- **Every step keeps the invariant.** -/
theorem SafePhase.step {r : HeaanReq} {lib : HeaanLib} {s s' : St} {l : Label}
    (hsmall : r.cdw11.toNat + r.cdw12.toNat + r.cdw13.toNat < 2 ^ 28) (h : SafePhase r lib s)
    (hstep : heaanStep r lib s l = some s') : SafePhase r lib s' := by
  rcases heaanStep_cases hstep with ⟨al, rc, -, hs, rfl⟩ | ⟨k, success, rc, io, -, hio, rfl⟩
  · cases h with
    | idle htrace hin => exact safePhase_exec hsmall htrace hin
    | reading p h => exact absurd hs h.handler
    | failing h => exact absurd hs h.handler
    | writing p h => exact absurd hs h.handler
    | ended h => exact absurd hs h
  · cases h with
    | idle _ hin => rw [hin] at hio; cases hio
    | reading p h => exact h.deliver hsmall hio success
    | failing h => exact .failing (h.deliver hio success)
    | writing p h => exact h.deliver hio success
    | ended _ hin => rw [hin] at hio; cases hio

/-- **HEaaN add fails without touching the device, and reports success only where everything
succeeded**: for every command whose lists lie inside the first data buffer, along every run. -/
theorem heaan_failsClean (r : HeaanReq) (lib : HeaanLib) (disk : ℕ → UInt8)
    (hinside : 8 * r.payloadWords ≤ r.iovLen) {s : St}
    (h : (heaanSys r lib disk).Reach (fun _ _ => True) s) : FailsClean r lib s.trace :=
  (h.invariant (SafePhase.idle rfl rfl) fun _ _ _ hs _ hstep =>
    hs.step (HeaanReq.counts_lt hinside) hstep).failsClean

/-- The first of three reads fails and the others succeed: nothing is written, and the completions
report the failure. -/
theorem heaan_failsClean_several : 8 * HeaanReq.several.payloadWords ≤ HeaanReq.several.iovLen ∧
    ∃ s, (heaanSys .several bytewiseLib fun _ => 0).Reach (fun _ _ => True) s ∧
      s.inflight = [] ∧ ReadFailed s.trace ∧ FailsClean .several bytewiseLib s.trace := by
  have hinside : 8 * HeaanReq.several.payloadWords ≤ HeaanReq.several.iovLen := by decide +kernel
  have hrun : (((heaanSys .several bytewiseLib fun _ => 0).run { disk := fun _ => 0 }
      [.exec Alloc.ok fun _ => 0, .deliver 0 false fun _ => 0, .deliver 0 true fun _ => 0,
        .deliver 0 true fun _ => 0]).map fun s => decide (s.inflight = [] ∧
          .callback ⟨.fill, .input0, 0, ⟨0, 512⟩⟩ false ∈ s.trace)) = some true := by
    decide +kernel
  obtain ⟨s, hs, hfailed⟩ := Option.map_eq_some_iff.mp hrun
  obtain ⟨hin, hfailed⟩ := of_decide_eq_true hfailed
  have hreach : (heaanSys .several bytewiseLib fun _ => 0).Reach (fun _ _ => True) s :=
    Sys.Reach.of_run _ (fun _ _ _ => trivial) .init hs
  exact ⟨hinside, s, hreach, hin, Or.inr ⟨_, hfailed, rfl⟩,
    heaan_failsClean _ _ _ hinside hreach⟩

end NdpHeaan
