import NdpHeaan.Machinery.Run
import NdpHeaan.Target.Dispatch
import NdpHeaan.Target.GrepScan

/-!
# Target/GrepCmd — GREP (opcode `0xD1`) and its retries

An attempt copies the payload, clears the iovecs and submits a read into them.  A submission refused
with `-ENOMEM` puts the request on the io-wait queue, from where it is dispatched again and comes to
the handler a second time — which then copies the cleared iovecs, and allocates afresh.

    attempt ──-ENOMEM──▸ queued ──▸ attempt … ──▸ reading ──▸ complete

The context of the accepted attempt is freed by the callback.  Nobody frees a keyword's copy, but
the one branch that finds no memory for the context.
-/

open Machinery

namespace NdpHeaan

/-! ## The model -/

/-- What the command allocates. -/
inductive GrepObj
  /-- `new_buffer` of an attempt. -/
  | keyword (attempt : ℕ)
  /-- The `custom_grep_ctx` of an attempt. -/
  | ctx (attempt : ℕ)
  /-- `result_buffer`. -/
  | result
  deriving DecidableEq, Repr

/-- How far the command has got. -/
inductive GrepPhase
  /-- The request has not been dispatched. -/
  | idle
  /-- It is on the io-wait queue. -/
  | queued
  | reading
  /-- Nothing is in flight or queued any more. -/
  | done
  deriving DecidableEq, Repr

/-- `req->xfer`. -/
inductive Xfer
  | none
  | hostToController
  | controllerToHost
  deriving DecidableEq, Repr

/-- A state of the command. -/
structure GrepSt where
  phase : GrepPhase := .idle
  /-- What `req->iov` holds. -/
  iov : List (List UInt8)
  /-- `req->length`. -/
  length : UInt32
  xfer : Xfer
  /-- The attempts so far. -/
  attempts : ℕ := 0
  /-- `ctx->keyword` of the attempt in flight. -/
  keyword : List UInt8 := []
  /-- What was done to the outside, oldest first. -/
  trace : List (CmdEffect GrepObj) := []

/-- Log, and go on to a phase. -/
def GrepSt.next (s : GrepSt) (phase : GrepPhase) (es : List (CmdEffect GrepObj)) : GrepSt :=
  { s with phase := phase, trace := s.trace ++ es }

/-- A grep on an I/O queue. -/
def IoReq.grep : IoReq :=
  { NvmeCmd.plainRead with byte := 0xd1, zcopy_spec := fun h => by cases h }

/-- The status the dispatch of a grep completes it with, if it does not get to the handler. -/
def grepGate (e : IoEnv) : Option Sc :=
  match (processIoCmd e none .grep).action with
  | .complete _ sc _ => some sc
  | _ => none

section Handlers

variable (d : Bdev) (r : DataReq)

/-- `data_len`. -/
def DataReq.grepDataLen : UInt32 := r.cdw10 &&& 0xFFFF

/-- The read of a grep. -/
def DataReq.grepOp : DataOp := r.readvOp r.cdw11.toUInt64 r.cdw12.toUInt64

/-- **`nvmf_bdev_ctrlr_custom_grep_cmd`**, for one more attempt. -/
def nvmfBdevCtrlrCustomGrepCmd (bufferOk ctxOk : Bool) (rc : ℤ) (s : GrepSt) : GrepSt :=
  let n := s.attempts
  let s := { s with attempts := n + 1 }
  if r.grepDataLen > s.length ∨ s.iov.length = 0 then
    s.next .done [.rspSc .invalidField, .complete] else
  if !bufferOk then
    s.next .done [.allocFailed (.keyword n), .rspSc .internalDeviceError, .complete] else
  let newBuffer := s.iov.flatten
  let s := { s with iov := setIov 0 s.iov }
  if !nvmfBdevCtrlrLbaInRange d.blockcnt r.cdw11.toUInt64 r.cdw12.toUInt64 then
    s.next .done [.alloc (.keyword n), .rspSc .lbaOutOfRange, .complete] else
  if !ctxOk then
    s.next .done [.alloc (.keyword n), .allocFailed (.ctx n), .free (.keyword n),
      .rspSc .internalDeviceError, .complete] else
  if rc ≠ 0 then
    if rc = -ENOMEM then
      s.next .queued [.alloc (.keyword n), .alloc (.ctx n), .submit r.grepOp rc]
    else
      s.next .done [.alloc (.keyword n), .alloc (.ctx n), .submit r.grepOp rc,
        .rspSc .internalDeviceError, .complete]
  else
    { s with keyword := newBuffer }.next .reading
      [.alloc (.keyword n), .alloc (.ctx n), .submit r.grepOp rc]

/-- The dispatch of an attempt, as a first time or from `nvmf_ctrlr_process_io_cmd_resubmit`. -/
def grepDispatch (e : IoEnv) (bufferOk ctxOk : Bool) (rc : ℤ) (s : GrepSt) : GrepSt :=
  match grepGate e with
  | some sc => s.next .done [.rspSc sc, .complete]
  | none => nvmfBdevCtrlrCustomGrepCmd d r bufferOk ctxOk rc s

/-- **`nvmf_bdev_ctrlr_complete_cmd_custom`.**  It is told whether the read has succeeded, and does
not look. -/
def nvmfBdevCtrlrCompleteCmdCustom (success : Bool) (behind : List UInt8) (resultOk : Bool)
    (reallocOk : ℕ → Bool) (s : GrepSt) : GrepSt :=
  let finish := fun (s : GrepSt) es (sc : Sc) => s.next .done ((CmdEffect.callback success :: es) ++
    [.rspSc sc, .free (.ctx (s.attempts - 1)), .complete, .freeIo])
  match grepOutcome s.keyword behind s.iov resultOk reallocOk with
  | .noData => finish s [] .internalDeviceError
  | .noBuffer => finish s [.allocFailed .result] .internalDeviceError
  | .noMemory _ =>
    finish s [.alloc .result, .allocFailed .result, .free .result] .internalDeviceError
  | .scanned buf =>
    if buf.bytes.length > 0 then
      finish
        { s with
          iov := fillIov (buf.bytes.dropLast ++ [0]) (setIov 0 s.iov)
          xfer := .controllerToHost
          length := 4096 }
        [.alloc .result, .free .result] .success
    else
      finish { s with length := 0 } [.alloc .result, .free .result] .internalDeviceError

/-- What the reactor does next, with the outcomes of the calls it leads to. -/
inductive GrepLabel
  /-- The request is dispatched. -/
  | attempt (e : IoEnv) (bufferOk ctxOk : Bool) (rc : ℤ)
  /-- The read completes.  Where it fails, it has left `part` in the iovecs; `behind` is what the
  heap holds behind the keyword's copy. -/
  | deliver (success : Bool) (part behind : List UInt8) (resultOk : Bool) (reallocOk : ℕ → Bool)

/-- What a read leaves in the iovecs. -/
def GrepSt.transfer (disk : ℕ → UInt8) (success : Bool) (part : List UInt8) (s : GrepSt) : GrepSt :=
  { s with
    iov := fillIov (if success then d.readBlocks disk r.cdw11.toUInt64 r.cdw12.toUInt64 else part)
      s.iov }

/-- One step of the reactor. -/
def grepStep (disk : ℕ → UInt8) (s : GrepSt) : GrepLabel → Option GrepSt
  | .attempt e bufferOk ctxOk rc =>
    if s.phase = .idle ∨ s.phase = .queued then some (grepDispatch d r e bufferOk ctxOk rc s)
    else none
  | .deliver success part behind resultOk reallocOk =>
    if s.phase = .reading then
      some (nvmfBdevCtrlrCompleteCmdCustom success behind resultOk reallocOk
        (s.transfer d r disk success part))
    else none

/-- The transfer direction of an opcode whose two lowest bits say that it writes. -/
def DataReq.grepXfer : Xfer := if r.length = 0 then .none else .hostToController

/-- **GREP as a system**, from a device, a request and the device's contents. -/
def grepSys (disk : ℕ → UInt8) : Sys GrepSt GrepLabel where
  init := { iov := r.iov, length := r.length, xfer := r.grepXfer }
  step := grepStep d r disk

end Handlers

/-! ## The dispatch -/

section Gate

variable {e : IoEnv}

/-- A grep gets to its handler wherever commands are served: no reservation is in its way. -/
theorem grepGate_eq_none (h : e.Serves) : grepGate e = none := by
  have haction : (processIoCmd e none .grep).action = ioSwitch e .grep :=
    processIoCmd_of_unchecked h rfl rfl
  rw [grepGate, haction]
  rfl

/-- Where it does not, it is completed with an error. -/
theorem grepGate_ne_success {sc : Sc} (h : grepGate e = some sc) : sc ≠ .success := by
  have hcheck : nvmfNsReservationRequestCheck e.nsInfo e.hostid IoReq.grep.toNvmeCmd = .success :=
    check_eq_success_of_unchecked e.nsInfo e.hostid rfl
  unfold grepGate processIoCmd at h
  split_ifs at h with hen hns hana hconflict hfuse
  · obtain rfl := Option.some.inj h
    exact Sc.noConfusion
  · obtain rfl := Option.some.inj h
    exact Sc.noConfusion
  · obtain rfl := Option.some.inj h
    cases e.anaState <;> exact Sc.noConfusion
  · exact absurd hcheck hconflict
  · exact absurd rfl hfuse
  · cases h

end Gate

/-! ## The statement -/

/-- **A clean log**: the request is completed once, every keyword's copy and every context is freed
once, and a success is reported of a read that has succeeded only. -/
structure GrepClean (t : List (CmdEffect GrepObj)) : Prop where
  once : t.count .complete = 1
  keyword : ∀ n, .alloc (.keyword n) ∈ t → t.count (.free (.keyword n)) = 1
  ctx : ∀ n, .alloc (.ctx n) ∈ t → t.count (.free (.ctx n)) = 1
  honest : .success ∈ CmdEffect.statuses .success t → .callback true ∈ t

/-- An attempt that ends without keeping what it allocated: it is not dispatched, its checks fail,
or there is no memory for the copy, or none for the context of a range on the device. -/
def GrepLabel.KeepsNothing (d : Bdev) (r : DataReq) : GrepLabel → Prop
  | .attempt e bufferOk ctxOk _ =>
    (grepGate e).isSome ∨ r.grepDataLen > r.length ∨ r.iov.length = 0 ∨ bufferOk = false ∨
      (nvmfBdevCtrlrLbaInRange d.blockcnt r.cdw11.toUInt64 r.cdw12.toUInt64 = true ∧ ctxOk = false)
  | .deliver _ _ _ _ _ => False

/-! ## What an attempt keeps -/

section Keeps

variable {d : Bdev} {r : DataReq} {disk : ℕ → UInt8} {s s' : GrepSt} {l : GrepLabel}
  {e : IoEnv} {bufferOk ctxOk : Bool} {rc : ℤ}

@[simp] theorem GrepSt.next_trace (phase : GrepPhase) (es : List (CmdEffect GrepObj)) :
    (s.next phase es).trace = s.trace ++ es := rfl

/-- An attempt gets to its handler, passes its checks and has memory for the copy. -/
structure GrepTaken (r : DataReq) (e : IoEnv) (bufferOk : Bool) (s : GrepSt) : Prop where
  gate : grepGate e = none
  data : ¬ r.grepDataLen > s.length
  iov : s.iov.length ≠ 0
  buffer : bufferOk = true

/-- The request with one more attempt… -/
def GrepSt.entered (s : GrepSt) : GrepSt := { s with attempts := s.attempts + 1 }

/-- …and with the keyword copied out of its iovecs. -/
def GrepSt.copied (s : GrepSt) : GrepSt := { s.entered with iov := setIov 0 s.iov }

/-- **How an attempt ends.** -/
inductive GrepEnds (d : Bdev) (r : DataReq) (e : IoEnv) (bufferOk ctxOk : Bool) (rc : ℤ)
    (s : GrepSt) : GrepSt → Prop
  | gate {sc : Sc} (h : grepGate e = some sc) :
      GrepEnds d r e bufferOk ctxOk rc s (s.next .done [.rspSc sc, .complete])
  | refused (h : r.grepDataLen > s.length ∨ s.iov.length = 0) :
      GrepEnds d r e bufferOk ctxOk rc s
        (s.entered.next .done [.rspSc .invalidField, .complete])
  | noBuffer (h : bufferOk = false) :
      GrepEnds d r e bufferOk ctxOk rc s (s.entered.next .done
        [.allocFailed (.keyword s.attempts), .rspSc .internalDeviceError, .complete])
  | outside (ht : GrepTaken r e bufferOk s)
      (h : nvmfBdevCtrlrLbaInRange d.blockcnt r.cdw11.toUInt64 r.cdw12.toUInt64 = false) :
      GrepEnds d r e bufferOk ctxOk rc s (s.copied.next .done
        [.alloc (.keyword s.attempts), .rspSc .lbaOutOfRange, .complete])
  | noCtx (ht : GrepTaken r e bufferOk s)
      (hrange : nvmfBdevCtrlrLbaInRange d.blockcnt r.cdw11.toUInt64 r.cdw12.toUInt64 = true)
      (h : ctxOk = false) :
      GrepEnds d r e bufferOk ctxOk rc s (s.copied.next .done
        [.alloc (.keyword s.attempts), .allocFailed (.ctx s.attempts), .free (.keyword s.attempts),
          .rspSc .internalDeviceError, .complete])
  | queued (ht : GrepTaken r e bufferOk s)
      (hrange : nvmfBdevCtrlrLbaInRange d.blockcnt r.cdw11.toUInt64 r.cdw12.toUInt64 = true)
      (hctx : ctxOk = true) (hrc : rc = -ENOMEM) :
      GrepEnds d r e bufferOk ctxOk rc s (s.copied.next .queued
        [.alloc (.keyword s.attempts), .alloc (.ctx s.attempts), .submit r.grepOp (-ENOMEM)])
  | rejected (ht : GrepTaken r e bufferOk s)
      (hrange : nvmfBdevCtrlrLbaInRange d.blockcnt r.cdw11.toUInt64 r.cdw12.toUInt64 = true)
      (hctx : ctxOk = true) (hrc : rc ≠ 0) (hmem : rc ≠ -ENOMEM) :
      GrepEnds d r e bufferOk ctxOk rc s (s.copied.next .done
        [.alloc (.keyword s.attempts), .alloc (.ctx s.attempts), .submit r.grepOp rc,
          .rspSc .internalDeviceError, .complete])
  | reads (ht : GrepTaken r e bufferOk s)
      (hrange : nvmfBdevCtrlrLbaInRange d.blockcnt r.cdw11.toUInt64 r.cdw12.toUInt64 = true)
      (hctx : ctxOk = true) (hrc : rc = 0) :
      GrepEnds d r e bufferOk ctxOk rc s
        ({ s.copied with keyword := s.iov.flatten }.next .reading
          [.alloc (.keyword s.attempts), .alloc (.ctx s.attempts), .submit r.grepOp 0])

/-- **Inversion of an attempt.** -/
theorem grepDispatch_ends (d : Bdev) (r : DataReq) (e : IoEnv) (bufferOk ctxOk : Bool) (rc : ℤ)
    (s : GrepSt) :
    GrepEnds d r e bufferOk ctxOk rc s (grepDispatch d r e bufferOk ctxOk rc s) := by
  unfold grepDispatch
  split
  · rename_i sc hgate
    exact .gate hgate
  · rename_i hgate
    unfold nvmfBdevCtrlrCustomGrepCmd
    dsimp only
    split_ifs with hcheck hbuf hrange hctx hrc hmem
    · exact .refused hcheck
    · exact .noBuffer (Bool.not_eq_true' _ |>.mp hbuf)
    all_goals
      have htaken : GrepTaken r e bufferOk s :=
        ⟨hgate, (not_or.mp hcheck).1, (not_or.mp hcheck).2, by simpa using hbuf⟩
    · exact .outside htaken (by simpa using hrange)
    · exact .noCtx htaken (by simpa using hrange) (by simpa using hctx)
    · obtain rfl := hmem
      exact .queued htaken (by simpa using hrange) (by simpa using hctx) rfl
    · exact .rejected htaken (by simpa using hrange) (by simpa using hctx) hrc hmem
    · obtain rfl := not_not.mp hrc
      exact .reads htaken (by simpa using hrange) (by simpa using hctx) rfl

/-- **What an attempt does**: it logs `u`, counts itself if it gets to the handler, and leaves the
rest of the request as it found it. -/
structure GrepAttempt (d : Bdev) (r : DataReq) (s t : GrepSt) (u : List (CmdEffect GrepObj)) :
    Prop where
  trace : t.trace = s.trace ++ u
  attempts : s.attempts ≤ t.attempts
  length : t.length = s.length
  xfer : t.xfer = s.xfer
  shape : t.iov.map List.length = s.iov.map List.length
  /-- The only copy it frees is its own. -/
  freed : ∀ n, .free (.keyword n) ∈ u → n = s.attempts
  /-- What it submits is its read, behind its checks. -/
  submitted : ∀ op, .submit op 0 ∈ u → op = r.grepOp ∧ ¬ r.grepDataLen > s.length ∧
    s.iov.length ≠ 0 ∧ nvmfBdevCtrlrLbaInRange d.blockcnt r.cdw11.toUInt64 r.cdw12.toUInt64 = true
  reading : t.phase = .reading → .submit r.grepOp 0 ∈ u

/-- What an attempt does, wherever it ends. -/
theorem grepDispatch_attempt (d : Bdev) (r : DataReq) (e : IoEnv) (bufferOk ctxOk : Bool) (rc : ℤ)
    (s : GrepSt) : ∃ u, GrepAttempt d r s (grepDispatch d r e bufferOk ctxOk rc s) u := by
  have hshape : s.copied.iov.map List.length = s.iov.map List.length := map_length_setIov ..
  have hends := grepDispatch_ends d r e bufferOk ctxOk rc s
  generalize grepDispatch d r e bufferOk ctxOk rc s = t at hends
  cases hends with
  | gate h =>
    exact ⟨_, rfl, Nat.le_refl _, rfl, rfl, rfl, by simp, by simp, GrepPhase.noConfusion⟩
  | refused h =>
    exact ⟨_, rfl, Nat.le_succ _, rfl, rfl, rfl, by simp, by simp, GrepPhase.noConfusion⟩
  | noBuffer h =>
    exact ⟨_, rfl, Nat.le_succ _, rfl, rfl, rfl, by simp, by simp, GrepPhase.noConfusion⟩
  | outside ht h =>
    exact ⟨_, rfl, Nat.le_succ _, rfl, rfl, hshape, by simp, by simp, GrepPhase.noConfusion⟩
  | noCtx ht hrange h =>
    exact ⟨_, rfl, Nat.le_succ _, rfl, rfl, hshape, by simp, by simp, GrepPhase.noConfusion⟩
  | queued ht hrange hctx hrc =>
    exact ⟨_, rfl, Nat.le_succ _, rfl, rfl, hshape, by simp, by simp [ENOMEM],
      GrepPhase.noConfusion⟩
  | rejected ht hrange hctx hrc hmem =>
    exact ⟨_, rfl, Nat.le_succ _, rfl, rfl, hshape, by simp, by simp [hrc.symm],
      GrepPhase.noConfusion⟩
  | reads ht hrange hctx hrc =>
    refine ⟨_, rfl, Nat.le_succ _, rfl, rfl, hshape, by simp, fun op hop => ?_, by simp⟩
    exact ⟨by simpa using hop, ht.data, ht.iov, hrange⟩

/-- **Inversion of the callback**: it logs its entry, what became of the result buffer, and the
same end on every path. -/
theorem completeCmdCustom_log (success : Bool) (behind : List UInt8) (resultOk : Bool)
    (reallocOk : ℕ → Bool) (s : GrepSt) :
    ∃ es sc, (∀ x ∈ es, x = .alloc .result ∨ x = .allocFailed .result ∨ x = .free .result) ∧
      (nvmfBdevCtrlrCompleteCmdCustom success behind resultOk reallocOk s).trace
        = s.trace ++ ((CmdEffect.callback success :: es) ++
          [CmdEffect.rspSc sc, .free (.ctx (s.attempts - 1)), .complete, .freeIo]) ∧
      (nvmfBdevCtrlrCompleteCmdCustom success behind resultOk reallocOk s).attempts = s.attempts ∧
      (nvmfBdevCtrlrCompleteCmdCustom success behind resultOk reallocOk s).phase = .done := by
  unfold nvmfBdevCtrlrCompleteCmdCustom
  dsimp only
  split
  · exact ⟨[], _, by simp, rfl, rfl, rfl⟩
  · exact ⟨[.allocFailed .result], _, by simp, rfl, rfl, rfl⟩
  · exact ⟨[.alloc .result, .allocFailed .result, .free .result], _, by simp, rfl, rfl, rfl⟩
  · split
    · exact ⟨[.alloc .result, .free .result], _, by simp, rfl, rfl, rfl⟩
    · exact ⟨[.alloc .result, .free .result], _, by simp, rfl, rfl, rfl⟩

/-- **Inversion of a step.** -/
theorem grepStep_cases (h : grepStep d r disk s l = some s') :
    (∃ e bufferOk ctxOk rc, l = .attempt e bufferOk ctxOk rc ∧
      (s.phase = .idle ∨ s.phase = .queued) ∧ s' = grepDispatch d r e bufferOk ctxOk rc s) ∨
    ∃ success part behind resultOk reallocOk,
      l = .deliver success part behind resultOk reallocOk ∧ s.phase = .reading ∧
      s' = nvmfBdevCtrlrCompleteCmdCustom success behind resultOk reallocOk
        (s.transfer d r disk success part) := by
  cases l with
  | attempt e bufferOk ctxOk rc =>
    rw [grepStep] at h
    split at h
    · rename_i hphase
      exact Or.inl ⟨e, bufferOk, ctxOk, rc, rfl, hphase, (Option.some.inj h).symm⟩
    · cases h
  | deliver success part behind resultOk reallocOk =>
    rw [grepStep] at h
    split at h
    · rename_i hphase
      exact Or.inr ⟨success, part, behind, resultOk, reallocOk, rfl, hphase,
        (Option.some.inj h).symm⟩
    · cases h

/-- The copy of the first attempt has been allocated, and not freed. -/
structure Leaked (s : GrepSt) : Prop where
  attempts : 0 < s.attempts
  held : .alloc (.keyword 0) ∈ s.trace
  kept : .free (.keyword 0) ∉ s.trace

/-- **A leaked copy stays leaked**: later attempts free copies of their own, the callback none. -/
theorem Leaked.step (h : Leaked s) (hstep : grepStep d r disk s l = some s') : Leaked s' := by
  have happend : ∀ {n u}, 0 < n → .free (.keyword 0) ∉ u →
      s'.attempts = n → s'.trace = s.trace ++ u → Leaked s' := fun hn hu ha ht =>
    ⟨ha ▸ hn, ht ▸ List.mem_append_left _ h.held,
      ht ▸ fun hmem => (List.mem_append.mp hmem).elim h.kept hu⟩
  rcases grepStep_cases hstep with ⟨e, bufferOk, ctxOk, rc, -, -, rfl⟩ |
    ⟨success, part, behind, resultOk, reallocOk, -, -, rfl⟩
  · obtain ⟨u, hu⟩ := grepDispatch_attempt d r e bufferOk ctxOk rc s
    refine happend (Nat.lt_of_lt_of_le h.attempts hu.attempts) (fun hmem => ?_) rfl hu.trace
    exact Nat.ne_of_lt h.attempts (hu.freed 0 hmem)
  · obtain ⟨es, sc, hes, htrace, hattempts, -⟩ := completeCmdCustom_log success behind resultOk
      reallocOk (s.transfer d r disk success part)
    refine happend h.attempts (fun hmem => ?_) hattempts htrace
    simp only [List.mem_append, List.mem_cons, reduceCtorEq, List.not_mem_nil, or_false, false_or,
      CmdEffect.free.injEq] at hmem
    rcases hes _ hmem with hmem | hmem | hmem <;> cases hmem

theorem Leaked.not_clean (h : Leaked s) : ¬ GrepClean s.trace := by
  intro hclean
  have hone := hclean.keyword 0 h.held
  rw [List.count_eq_zero.mpr h.kept] at hone
  cases hone

/-- An attempt that keeps nothing ends the command with a clean log… -/
theorem grepDispatch_keepsNothing (hiov : s.iov = r.iov) (hlen : s.length = r.length)
    (htrace : s.trace = []) (h : (GrepLabel.attempt e bufferOk ctxOk rc).KeepsNothing d r) :
    (grepDispatch d r e bufferOk ctxOk rc s).phase = .done ∧
      GrepClean (grepDispatch d r e bufferOk ctxOk rc s).trace := by
  -- what is taken keeps its copy, unless there is no context for a range on the device
  have hctx : GrepTaken r e bufferOk s →
      nvmfBdevCtrlrLbaInRange d.blockcnt r.cdw11.toUInt64 r.cdw12.toUInt64 = true ∧
        ctxOk = false := by
    rintro ⟨hgate, hdata, hne, hbuf⟩
    rcases h with h | h | h | h | h
    · rw [hgate] at h
      cases h
    · exact absurd (hlen ▸ h) hdata
    · exact absurd (hiov ▸ h) hne
    · cases hbuf.symm.trans h
    · exact h
  have hends := grepDispatch_ends d r e bufferOk ctxOk rc s
  generalize grepDispatch d r e bufferOk ctxOk rc s = t at hends
  cases hends with
  | gate hgate =>
    have hsc := grepGate_ne_success hgate
    refine ⟨rfl, ?_⟩
    rw [GrepSt.next_trace, htrace]
    refine ⟨rfl, by simp, by simp, fun hs => ?_⟩
    simp [CmdEffect.statuses, hsc.symm] at hs
  | refused h =>
    refine ⟨rfl, ?_⟩
    rw [GrepSt.next_trace, GrepSt.entered, htrace]
    exact ⟨rfl, by simp, by simp, by simp [CmdEffect.statuses]⟩
  | noBuffer h =>
    refine ⟨rfl, ?_⟩
    rw [GrepSt.next_trace, GrepSt.entered, htrace]
    exact ⟨rfl, by simp, by simp, by simp [CmdEffect.statuses]⟩
  | outside ht hrange => cases hrange.symm.trans (hctx ht).1
  | noCtx ht hrange h =>
    refine ⟨rfl, ?_⟩
    rw [GrepSt.next_trace, GrepSt.copied, GrepSt.entered, htrace]
    refine ⟨rfl, fun n hn => ?_, by simp, by simp [CmdEffect.statuses]⟩
    obtain rfl : n = s.attempts := by simpa using hn
    simp
  | queued ht hrange hok hrc => cases hok.symm.trans (hctx ht).2
  | rejected ht hrange hok hrc hmem => cases hok.symm.trans (hctx ht).2
  | reads ht hrange hok hrc => cases hok.symm.trans (hctx ht).2

/-- …and any other first attempt leaks its copy. -/
theorem leaked_grepDispatch (hiov : s.iov = r.iov) (hlen : s.length = r.length)
    (htrace : s.trace = []) (hfirst : s.attempts = 0)
    (h : ¬ (GrepLabel.attempt e bufferOk ctxOk rc).KeepsNothing d r) :
    Leaked (grepDispatch d r e bufferOk ctxOk rc s) := by
  have hends := grepDispatch_ends d r e bufferOk ctxOk rc s
  generalize grepDispatch d r e bufferOk ctxOk rc s = t at hends
  cases hends with
  | gate hgate => exact absurd (.inl (by rw [hgate]; rfl)) h
  | refused hcheck =>
    rw [hlen, hiov] at hcheck
    exact absurd (.inr (hcheck.imp_right .inl)) h
  | noBuffer hbuf => exact absurd (.inr (.inr (.inr (.inl hbuf)))) h
  | noCtx ht hrange hctx => exact absurd (.inr (.inr (.inr (.inr ⟨hrange, hctx⟩)))) h
  | outside | queued | rejected | reads =>
    refine ⟨Nat.succ_pos _, ?_, ?_⟩
    · rw [GrepSt.next_trace, ← hfirst]
      exact List.mem_append_right _ (List.mem_cons_self ..)
    · simp [GrepSt.copied, GrepSt.entered, htrace]

/-- Behind the end nothing happens. -/
theorem grep_run_done {ls : List GrepLabel} (hs : s.phase = .done)
    (h : (grepSys d r disk).run s ls = some s') : ls = [] ∧ s' = s :=
  Sys.run_of_stuck (fun l => by cases l <;> simp [grepSys, grepStep, hs]) h

end Keeps

/-! ## When GREP completes once and leaks nothing -/

/-- **A run of GREP that is over completed the request exactly once, freed every copy and every
context and reported no failed read as a success, exactly when its first attempt kept nothing.** -/
theorem grepClean_iff (d : Bdev) (r : DataReq) (disk : ℕ → UInt8) (ls : List GrepLabel) (s : GrepSt)
    (hrun : (grepSys d r disk).run (grepSys d r disk).init ls = some s) (hdone : s.phase = .done) :
    GrepClean s.trace ↔ ∃ l ∈ ls.head?, l.KeepsNothing d r := by
  cases ls with
  | nil =>
    obtain rfl := Option.some.inj hrun
    cases hdone
  | cons l ls =>
    obtain ⟨m, hm, hrun⟩ := Sys.run_cons_eq_some hrun
    simp only [List.head?_cons, Option.mem_some_iff, exists_eq_left']
    rcases grepStep_cases hm with ⟨e, bufferOk, ctxOk, rc, rfl, -, rfl⟩ |
      ⟨success, part, behind, resultOk, reallocOk, -, hphase, -⟩
    · by_cases hkeeps : (GrepLabel.attempt e bufferOk ctxOk rc).KeepsNothing d r
      · obtain ⟨hend, hclean⟩ := grepDispatch_keepsNothing
          (s := (grepSys d r disk).init) rfl rfl rfl hkeeps
        obtain ⟨-, rfl⟩ := grep_run_done hend hrun
        exact iff_of_true hclean hkeeps
      · have hleaked := leaked_grepDispatch
          (s := (grepSys d r disk).init) rfl rfl rfl rfl hkeeps
        refine iff_of_false (Leaked.not_clean ?_) hkeeps
        exact Sys.run_invariant (fun _ _ _ h hstep => h.step hstep) hleaked hrun
    · cases hphase

/-- A search for the letter `a` in the first block. -/
def DataReq.grepSample : DataReq := ⟨2, 0, 1, 0, 2, [[97, 0]], rfl⟩

theorem grepClean_noMemory : ∃ s,
    (grepSys .sample .grepSample fun _ => 0).run
      { iov := [[97, 0]], length := 2, xfer := .hostToController }
      [.attempt .reserved false true 0] = some s ∧ s.phase = .done ∧ GrepClean s.trace :=
  ⟨_, rfl, rfl, (grepClean_iff _ .grepSample (fun _ => 0) [.attempt .reserved false true 0] _ rfl
    rfl).mpr ⟨_, rfl, Or.inr (Or.inr (Or.inr (Or.inl rfl)))⟩⟩

/-- A read that fails is reported as a success, and the copy of the keyword is lost. -/
theorem not_grepClean_failedRead : ∃ s,
    (grepSys .sample .grepSample fun _ => 0).run
      { iov := [[97, 0]], length := 2, xfer := .hostToController }
      [.attempt .reserved true true 0, .deliver false [97, 97] [] true fun _ => true] = some s ∧
    s.phase = .done ∧ .success ∈ CmdEffect.statuses .success s.trace ∧
      .callback true ∉ s.trace ∧ ¬ GrepClean s.trace := by
  have hrun : (((grepSys .sample .grepSample fun _ => 0).run
      { iov := [[97, 0]], length := 2, xfer := .hostToController }
      [.attempt .reserved true true 0, .deliver false [97, 97] [] true fun _ => true]).map
        fun s => decide (s.phase = .done ∧ .success ∈ CmdEffect.statuses .success s.trace ∧
          .callback true ∉ s.trace)) = some true := by decide +kernel
  obtain ⟨s, hs, hprops⟩ := Option.map_eq_some_iff.mp hrun
  obtain ⟨hdone, hsuccess, hfailed⟩ := of_decide_eq_true hprops
  exact ⟨s, hs, hdone, hsuccess, hfailed, fun h => hfailed (h.honest hsuccess)⟩

end NdpHeaan
