import NdpHeaan.Machinery.Run
import NdpHeaan.Target.DataIo

/-!
# Target/Echo — ECHO (opcode `0xD0`) as a chain of callbacks

The handler reads one range of blocks into the request's iovecs, its callback keeps a copy and reads
a second range into the same iovecs, and the second callback answers with the two copies joined.

    exec ──▸ first read ──▸ second read ──▸ complete

Every exit frees what it holds and completes the request, through its return value or through
`spdk_nvmf_request_complete` — but one.  A second read that is rejected leaves the first callback
with the status written and the call commented out, so the host waits for ever.
-/

open Machinery

namespace NdpHeaan

/-! ## The model -/

/-- What the command allocates. -/
inductive EchoObj
  /-- The `custom_ctx`. -/
  | ctx
  | firstResult
  | secondResult
  /-- The `ndp_result`. -/
  | calcResult
  /-- `calc_result->data`. -/
  | calcData
  deriving DecidableEq, Repr

/-- How far the command has got. -/
inductive EchoPhase
  /-- The request has not reached the handler. -/
  | idle
  | firstRead
  | secondRead
  /-- Nothing is in flight any more. -/
  | done
  deriving DecidableEq, Repr

/-- A state of the command. -/
structure EchoSt where
  phase : EchoPhase := .idle
  /-- What `req->iov` holds. -/
  iov : List (List UInt8)
  /-- `ctx->first_result`. -/
  firstResult : List UInt8 := []
  /-- What was done to the outside, oldest first. -/
  trace : List (CmdEffect EchoObj) := []

/-- Log, and go on to a phase. -/
def EchoSt.next (s : EchoSt) (phase : EchoPhase) (es : List (CmdEffect EchoObj)) : EchoSt :=
  { s with phase := phase, trace := s.trace ++ es }

/-- `struct ndp_result`. -/
structure NdpResult where
  data : List UInt8
  length : UInt32

/-- **`ndp_calculate`**: the two operands, joined.  The length is a 32-bit sum. -/
def ndpCalculate (metaData targetData : List UInt8) (metaLen targetLen : UInt32) : NdpResult :=
  ⟨metaData ++ targetData, metaLen + targetLen⟩

/-- `spdk_iov_memset`, then the result into the first entry only. -/
def echoStore (res : NdpResult) (iov : List (List UInt8)) : List (List UInt8) :=
  match setIov 0 iov with
  | [] => []
  | v :: vs => fillIov (res.data.take res.length.toNat) [v] ++ vs

section Handlers

variable (d : Bdev) (r : DataReq) (disk : ℕ → UInt8)

/-- The first read: `meta_start_lba` and `meta_block_count`. -/
def DataReq.echoFirstOp : DataOp := r.readvOp r.cdw10.toUInt64 r.cdw11.toUInt64

/-- The second read: `target_start_lba` and `target_block_count`. -/
def DataReq.echoSecondOp : DataOp := r.readvOp r.cdw12.toUInt64 r.cdw13.toUInt64

/-- What a read leaves in the iovecs; one that fails leaves them as they were. -/
def EchoSt.transfer (op : DataOp) (success : Bool) (s : EchoSt) : EchoSt :=
  if success then
    { s with iov := fillIov (d.readBlocks disk op.offsetBlocks op.numBlocks) s.iov }
  else
    s

/-- **`nvmf_bdev_ctrlr_custom_echo_cmd`.** -/
def nvmfBdevCtrlrCustomEchoCmd (ctxOk : Bool) (rc : ℤ) (s : EchoSt) : EchoSt :=
  if !ctxOk then
    s.next .done [.allocFailed .ctx, .rspSc .internalDeviceError, .complete] else
  if rc ≠ 0 then
    s.next .done [.alloc .ctx, .submit r.echoFirstOp rc, .free .ctx, .rspSc .internalDeviceError,
      .complete]
  else
    s.next .firstRead [.alloc .ctx, .submit r.echoFirstOp rc, .rspSc .success]

/-- **`nvmf_bdev_ctrlr_first_read_complete`.**  `ctx->first_result` is still `NULL` when the read
has failed. -/
def nvmfBdevCtrlrFirstReadComplete (success firstOk : Bool) (rc : ℤ) (s : EchoSt) : EchoSt :=
  let s := s.transfer d disk r.echoFirstOp success
  if !success then
    s.next .done [.callback false, .rspSc .internalDeviceError, .free .ctx, .freeIo, .complete] else
  if !firstOk then
    s.next .done [.callback true, .allocFailed .firstResult, .free .ctx,
      .rspSc .internalDeviceError, .freeIo, .complete] else
  let s := { s with firstResult := s.iov.flatten.take r.length.toNat }
  if rc ≠ 0 then
    -- `spdk_nvmf_request_complete(req)` is commented out here
    s.next .done [.callback true, .alloc .firstResult, .submit r.echoSecondOp rc,
      .free .firstResult, .free .ctx, .rspSc .internalDeviceError, .freeIo]
  else
    s.next .secondRead [.callback true, .alloc .firstResult, .submit r.echoSecondOp rc, .freeIo]

/-- **`nvmf_bdev_ctrlr_second_read_complete`.** -/
def nvmfBdevCtrlrSecondReadComplete (success secondOk resultOk dataOk : Bool) (s : EchoSt) :
    EchoSt :=
  let s := s.transfer d disk r.echoSecondOp success
  let finish := fun (s : EchoSt) (es : List (CmdEffect EchoObj)) =>
    s.next .done (es ++ [CmdEffect.free .firstResult, .free .ctx, .freeIo, .complete])
  if !success then
    finish s [.callback false, .rspSc .internalDeviceError] else
  if !secondOk then
    finish s [.callback true, .allocFailed .secondResult, .rspSc .internalDeviceError] else
  if !resultOk then
    finish s [.callback true, .alloc .secondResult, .allocFailed .calcResult, .free .secondResult,
      .rspSc .internalDeviceError] else
  if !dataOk then
    finish s [.callback true, .alloc .secondResult, .alloc .calcResult, .allocFailed .calcData,
      .free .calcResult, .free .secondResult, .rspSc .internalDeviceError]
  else
    let second := s.iov.flatten.take r.length.toNat
    let res := ndpCalculate s.firstResult second r.length (UInt32.ofNat second.length)
    finish { s with iov := echoStore res s.iov }
      [.callback true, .alloc .secondResult, .alloc .calcResult, .alloc .calcData,
        .free .secondResult, .free .calcData, .free .calcResult, .rspSc .success]

/-- What the reactor does next, with the outcomes of the calls it leads to. -/
inductive EchoLabel
  | exec (ctxOk : Bool) (rc : ℤ)
  | first (success firstOk : Bool) (rc : ℤ)
  | second (success secondOk resultOk dataOk : Bool)
  deriving DecidableEq, Repr

/-- One step of the reactor. -/
def echoStep (s : EchoSt) : EchoLabel → Option EchoSt
  | .exec ctxOk rc =>
    if s.phase = .idle then some (nvmfBdevCtrlrCustomEchoCmd r ctxOk rc s) else none
  | .first success firstOk rc =>
    if s.phase = .firstRead then
      some (nvmfBdevCtrlrFirstReadComplete d r disk success firstOk rc s)
    else none
  | .second success secondOk resultOk dataOk =>
    if s.phase = .secondRead then
      some (nvmfBdevCtrlrSecondReadComplete d r disk success secondOk resultOk dataOk s)
    else none

/-- **ECHO as a system**, from a device, a request and the device's contents. -/
def echoSys : Sys EchoSt EchoLabel where
  init := { iov := r.iov }
  step := echoStep d r disk

end Handlers

/-! ## The statement -/

/-- **Exactly once**: the request is completed once, what was allocated is freed once, and nothing
that went wrong is reported as a success. -/
structure EchoOnce (t : List (CmdEffect EchoObj)) : Prop where
  once : t.count .complete = 1
  freed : ∀ o, .alloc o ∈ t → t.count (.free o) = 1
  status : CmdEffect.Failed t → .success ∉ CmdEffect.statuses .success t

/-- The second read is rejected: an allocated copy and a non-zero return code behind a first read
that succeeded. -/
def EchoLabel.secondRejected : EchoLabel → Bool
  | .first true true rc => rc != 0
  | _ => false

/-! ## The runs of the command

The phases follow one another, so a run that is over is one of three words. -/

section Runs

variable {d : Bdev} {r : DataReq} {disk : ℕ → UInt8} {s s' : EchoSt} {ls : List EchoLabel}

/-- The log of an accepted handler. -/
def DataReq.echoStartLog (r : DataReq) : List (CmdEffect EchoObj) :=
  [.alloc .ctx, .submit r.echoFirstOp 0, .rspSc .success]

/-- …and of a first callback that goes on to the second read. -/
def DataReq.echoMiddleLog (r : DataReq) : List (CmdEffect EchoObj) :=
  r.echoStartLog ++
    [CmdEffect.callback true, .alloc .firstResult, .submit r.echoSecondOp 0, .freeIo]

/-- Behind the end nothing happens. -/
theorem echo_run_done (hs : s.phase = .done) (h : (echoSys d r disk).run s ls = some s') :
    ls = [] ∧ s' = s :=
  Sys.run_of_stuck (fun l => by cases l <;> simp [echoSys, echoStep, hs]) h

@[simp] theorem EchoSt.transfer_trace (op : DataOp) (success : Bool) :
    (s.transfer d disk op success).trace = s.trace := by
  unfold transfer
  split <;> rfl

@[simp] theorem EchoSt.next_trace (phase : EchoPhase) (es : List (CmdEffect EchoObj)) :
    (s.next phase es).trace = s.trace ++ es := rfl

/-- What is allocated is freed once: the two counts say so, object by object. -/
theorem freed_of_count {t : List (CmdEffect EchoObj)}
    (h : ∀ o, t.count (.alloc o) = 0 ∨ t.count (.free o) = 1) (o : EchoObj) (ho : .alloc o ∈ t) :
    t.count (.free o) = 1 :=
  (h o).resolve_left fun hnone => List.count_eq_zero.mp hnone ho

/-- A handler that starts nothing ends the command. -/
theorem echoOnce_exec (htrace : s.trace = []) {ctxOk : Bool} {rc : ℤ}
    (hbad : ctxOk = false ∨ rc ≠ 0) : EchoOnce (nvmfBdevCtrlrCustomEchoCmd r ctxOk rc s).trace := by
  unfold nvmfBdevCtrlrCustomEchoCmd
  split_ifs with hctx hrc
  · simp only [EchoSt.next_trace, htrace]
    exact ⟨rfl, fun o ho => by simp at ho, fun _ => by simp [CmdEffect.statuses]⟩
  · simp only [EchoSt.next_trace, htrace]
    refine ⟨rfl, freed_of_count fun o => ?_, fun _ => by simp [CmdEffect.statuses]⟩
    cases o <;> first | exact .inr rfl | exact .inl rfl
  · exact absurd hbad (by simpa using ⟨by simpa using hctx, not_not.mp hrc⟩)

/-- So does a first callback that does not get to the second read. -/
theorem echoOnce_first (htrace : s.trace = r.echoStartLog) {success firstOk : Bool} (rc : ℤ)
    (hbad : success = false ∨ firstOk = false) :
    EchoOnce (nvmfBdevCtrlrFirstReadComplete d r disk success firstOk rc s).trace := by
  unfold nvmfBdevCtrlrFirstReadComplete
  dsimp only
  split_ifs with hsuccess hfirst hrc
  · simp only [EchoSt.next_trace, EchoSt.transfer_trace, htrace, DataReq.echoStartLog]
    refine ⟨rfl, freed_of_count fun o => ?_, fun _ => by simp [CmdEffect.statuses]⟩
    cases o <;> first | exact .inr rfl | exact .inl rfl
  · simp only [EchoSt.next_trace, EchoSt.transfer_trace, htrace, DataReq.echoStartLog]
    refine ⟨rfl, freed_of_count fun o => ?_, fun _ => by simp [CmdEffect.statuses]⟩
    cases o <;> first | exact .inr rfl | exact .inl rfl
  all_goals
    refine absurd hbad (not_or.mpr ⟨fun h => hsuccess ?_, fun h => hfirst ?_⟩) <;> rw [h] <;> rfl

/-- A second read that is rejected leaves the request open. -/
theorem not_echoOnce_rejected (htrace : s.trace = r.echoStartLog) {rc : ℤ} (hrc : rc ≠ 0) :
    ¬ EchoOnce (nvmfBdevCtrlrFirstReadComplete d r disk true true rc s).trace := by
  intro h
  have honce := h.once
  simp [nvmfBdevCtrlrFirstReadComplete, hrc, htrace, DataReq.echoStartLog] at honce

/-- The second callback ends the command, whatever happens. -/
theorem echoOnce_second (htrace : s.trace = r.echoMiddleLog)
    (success secondOk resultOk dataOk : Bool) :
    EchoOnce (nvmfBdevCtrlrSecondReadComplete d r disk success secondOk resultOk dataOk s).trace
      := by
  unfold nvmfBdevCtrlrSecondReadComplete
  dsimp only
  split_ifs
  case neg =>
    simp only [EchoSt.next_trace, EchoSt.transfer_trace, htrace, DataReq.echoMiddleLog,
      DataReq.echoStartLog]
    refine ⟨rfl, freed_of_count fun o => ?_, fun hfailed => ?_⟩
    · cases o <;> exact .inr rfl
    · -- the answer: both submissions were accepted
      simp only [CmdEffect.Failed, List.mem_append, List.mem_cons, List.not_mem_nil, or_false,
        reduceCtorEq, CmdEffect.submit.injEq, CmdEffect.callback.injEq, false_or, exists_false,
        Bool.false_eq_true] at hfailed
      obtain ⟨op, rc, h, hrc⟩ := hfailed
      exact absurd (h.elim And.right And.right) hrc
  -- one exit for each thing that can fail
  all_goals
    simp only [EchoSt.next_trace, EchoSt.transfer_trace, htrace, DataReq.echoMiddleLog,
      DataReq.echoStartLog]
    refine ⟨rfl, freed_of_count fun o => ?_, fun _ => by simp [CmdEffect.statuses]⟩
    cases o <;> first | exact .inr rfl | exact .inl rfl

/-! ### Words of labels -/

theorem echo_run_second (hs : s.phase = .secondRead) (htrace : s.trace = r.echoMiddleLog)
    (h : (echoSys d r disk).run s ls = some s') (hdone : s'.phase = .done) :
    EchoOnce s'.trace ∧ ls.any EchoLabel.secondRejected = false := by
  cases ls with
  | nil =>
    obtain rfl := Option.some.inj h
    rw [hs] at hdone
    cases hdone
  | cons l ls =>
    obtain ⟨m, hm, hrun⟩ := Sys.run_cons_eq_some h
    cases l with
    | exec ctxOk rc => simp [echoSys, echoStep, hs] at hm
    | first success firstOk rc => simp [echoSys, echoStep, hs] at hm
    | second success secondOk resultOk dataOk =>
      obtain rfl := Option.some.inj ((if_pos hs).symm.trans hm)
      have hend : (nvmfBdevCtrlrSecondReadComplete d r disk success secondOk resultOk dataOk
          s).phase = .done := by
        unfold nvmfBdevCtrlrSecondReadComplete
        dsimp only
        split_ifs <;> rfl
      obtain ⟨rfl, rfl⟩ := echo_run_done hend hrun
      exact ⟨echoOnce_second htrace success secondOk resultOk dataOk, rfl⟩

theorem echo_run_first (hs : s.phase = .firstRead) (htrace : s.trace = r.echoStartLog)
    (h : (echoSys d r disk).run s ls = some s') (hdone : s'.phase = .done) :
    EchoOnce s'.trace ↔ ls.any EchoLabel.secondRejected = false := by
  cases ls with
  | nil =>
    obtain rfl := Option.some.inj h
    rw [hs] at hdone
    cases hdone
  | cons l ls =>
    obtain ⟨m, hm, hrun⟩ := Sys.run_cons_eq_some h
    cases l with
    | exec ctxOk rc => simp [echoSys, echoStep, hs] at hm
    | second success secondOk resultOk dataOk => simp [echoSys, echoStep, hs] at hm
    | first success firstOk rc =>
      obtain rfl := Option.some.inj ((if_pos hs).symm.trans hm)
      by_cases hok : success = true ∧ firstOk = true
      · obtain ⟨rfl, rfl⟩ := hok
        by_cases hrc : rc = 0
        · subst hrc
          have hmid := @echo_run_second d r disk _ s' ls rfl (by
            simp [nvmfBdevCtrlrFirstReadComplete, htrace, DataReq.echoMiddleLog]) hrun hdone
          refine iff_of_true hmid.1 ?_
          rw [List.any_cons, hmid.2]
          rfl
        · have hend : (nvmfBdevCtrlrFirstReadComplete d r disk true true rc s).phase = .done := by
            simp [nvmfBdevCtrlrFirstReadComplete, hrc, EchoSt.next]
          obtain ⟨rfl, rfl⟩ := echo_run_done hend hrun
          simpa [EchoLabel.secondRejected, hrc] using not_echoOnce_rejected htrace hrc
      · have hbad : success = false ∨ firstOk = false :=
          (not_and_or.mp hok).imp Bool.eq_false_iff.mpr Bool.eq_false_iff.mpr
        have hend : (nvmfBdevCtrlrFirstReadComplete d r disk success firstOk rc s).phase = .done
            := by
          unfold nvmfBdevCtrlrFirstReadComplete
          rcases hbad with rfl | rfl
          · rfl
          · cases success <;> rfl
        obtain ⟨rfl, rfl⟩ := echo_run_done hend hrun
        refine iff_of_true (echoOnce_first htrace rc hbad) ?_
        rcases hbad with rfl | rfl
        · rfl
        · cases success <;> rfl

end Runs

/-! ## When ECHO completes exactly once -/

/-- **A run of ECHO that is over completed the request exactly once, freed what it had allocated and
reported what went wrong, exactly when no second read was rejected.** -/
theorem echoOnce_iff (d : Bdev) (r : DataReq) (disk : ℕ → UInt8) (ls : List EchoLabel) (s : EchoSt)
    (hrun : (echoSys d r disk).run (echoSys d r disk).init ls = some s) (hdone : s.phase = .done) :
    EchoOnce s.trace ↔ ls.any EchoLabel.secondRejected = false := by
  cases ls with
  | nil =>
    obtain rfl := Option.some.inj hrun
    cases hdone
  | cons l ls =>
    obtain ⟨m, hm, hrun⟩ := Sys.run_cons_eq_some hrun
    cases l with
    | first success firstOk rc => cases hm
    | second success secondOk resultOk dataOk => cases hm
    | exec ctxOk rc =>
      obtain rfl := Option.some.inj hm
      by_cases hok : ctxOk = true ∧ rc = 0
      · obtain ⟨rfl, rfl⟩ := hok
        rw [List.any_cons]
        exact echo_run_first rfl rfl hrun hdone
      · have hbad : ctxOk = false ∨ rc ≠ 0 := (not_and_or.mp hok).imp_left Bool.eq_false_iff.mpr
        have hend : (nvmfBdevCtrlrCustomEchoCmd r ctxOk rc (echoSys d r disk).init).phase = .done
            := by
          unfold nvmfBdevCtrlrCustomEchoCmd
          split_ifs with hctx hrc
          · rfl
          · rfl
          · exact absurd ⟨by simpa using hctx, not_not.mp hrc⟩ hok
        obtain ⟨rfl, rfl⟩ := echo_run_done hend hrun
        exact iff_of_true (echoOnce_exec rfl hbad) rfl

/-- Two blocks of 512 bytes, read one after the other into a buffer of one block. -/
def DataReq.echoSample : DataReq :=
  ⟨0, 1, 1, 1, 512, [List.replicate 512 0], length_zeroBlock⟩

theorem echoOnce_sample : ∃ s,
    (echoSys .sample .echoSample fun _ => 0).run { iov := DataReq.echoSample.iov }
      [.exec true 0, .first true true 0, .second true true true true] = some s ∧
    s.phase = .done ∧ EchoOnce s.trace :=
  ⟨_, rfl, rfl, (echoOnce_iff .sample .echoSample (fun _ => 0)
    [.exec true 0, .first true true 0, .second true true true true] _ rfl rfl).mpr rfl⟩

/-- With no `bdev_io` left for the second read, nobody answers the host. -/
theorem not_echoOnce_sample : ∃ s,
    (echoSys .sample .echoSample fun _ => 0).run { iov := DataReq.echoSample.iov }
      [.exec true 0, .first true true (-ENOMEM)] = some s ∧
    s.phase = .done ∧ .complete ∉ s.trace ∧ ¬ EchoOnce s.trace :=
  ⟨_, rfl, rfl, by decide, not_echoOnce_rejected rfl (by decide)⟩

end NdpHeaan
