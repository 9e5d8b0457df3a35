import Mathlib.Logic.Function.Basic
import NdpHeaan.Tcp.Command
import NdpHeaan.Machinery.Run
import NdpHeaan.Machinery.Tally

/-!
# Tcp/Qpair — the request state machine of a TCP qpair

    NEW ─▸ NEED_BUFFER ─▸ AWAITING_R2T_ACK ─▸ TRANSFERRING_H2C ─▸ READY_TO_EXECUTE ─▸ EXECUTING
                                                                          │               │
    FREE ◂─ COMPLETED ◂─ TRANSFERRING_C2H ◂─ READY_TO_COMPLETE ◂──────────┴─── EXECUTED ◂─┘

`nvmf_tcp_req_process` runs a request through these states until one holds it; what moves it on from
there is an event: a command or a data PDU received, a digest computed, a PDU written, an answer of
the controller, an abort, a poll of the requests in line for buffers.  The slots of the requests are
recycled, and point at each other while they are the two halves of a fused command.  Zero-copy and
DIF are left out; the completion of a write and of an execution are events of their own.
-/

open Machinery

namespace NdpHeaan

/-! ## Requests -/

/-- `enum spdk_nvmf_tcp_req_state`, without the states of zero-copy. -/
inductive TcpReqState
  | free
  | new
  | needBuffer
  | transferringH2c
  | awaitingR2tAck
  | readyToExecute
  | executing
  | executed
  | readyToComplete
  | transferringC2h
  | completed
  deriving DecidableEq, Repr

/-- `rsp->status.sc`. -/
inductive TcpStatus
  /-- As `nvmf_tcp_req_get` leaves it. -/
  | zeroed
  | invalidOpcode
  | abortedMissingFused
  | transientTransportError
  | abortedByRequest
  /-- What the controller has written. -/
  | ctrlr (sc : Sc)
  deriving DecidableEq, Repr

/-- `SPDK_NVME_SC_SUCCESS`. -/
def TcpStatus.isSuccess : TcpStatus → Bool
  | .zeroed => true
  | .ctrlr sc => sc = .success
  | _ => false

/-- A PDU of a request on its way to the host. -/
inductive OutPdu
  | r2t
  /-- Its digest may have to be computed first. -/
  | c2hData (digesting : Bool)
  | capsuleResp
  deriving DecidableEq, Repr

/-- `struct spdk_nvmf_tcp_req`. -/
structure TcpReq where
  state : TcpReqState := .free
  cmd : TcpCmd := { opc := 0, sgl := ⟨0, 0, .dataBlock, .address⟩ }
  status : TcpStatus := .zeroed
  xfer : DataTransfer := .none
  hasInCapsuleData : Bool := false
  /-- `req.length`. -/
  length : UInt32 := 0
  /-- The lengths of `req.iov[0 .. iovcnt)`. -/
  iov : List ℕ := []
  dataFromPool : Bool := false
  h2cOffset : UInt32 := 0
  fusedFailed : Bool := false
  fusedPair : Option ℕ := none
  /-- The PDU with `pdu_in_use`. -/
  pdu : Option OutPdu := none
  /-- How many requests of the connection were taken before it. -/
  arrival : ℕ := 0
  /-- How many bytes of data have been handled for it. -/
  received : ℕ := 0
  deriving Repr

/-! ## Qpairs -/

/-- `enum nvme_tcp_pdu_recv_state`. -/
inductive RecvState
  | awaitPduReady
  | awaitPduCh
  | awaitPduPsh
  | awaitReq
  | awaitPduPayload
  | quiescing
  | error
  deriving DecidableEq, Repr

/-- The header of the PDU in progress. -/
structure RxHdr where
  common : CommonHdr
  pshLen : UInt8
  deriving DecidableEq, Repr

/-- `plen` goes past the header and its digest. -/
def RxHdr.hasData (c : TcpConn) (h : RxHdr) : Bool :=
  h.common.plen ≠ h.common.hlen.toUInt32 + if c.hdgst then 4 else 0

/-- What `plen` leaves for data behind the header that was read. -/
def RxHdr.capsuleLen (c : TcpConn) (h : RxHdr) : UInt32 :=
  h.common.plen - h.pshLen.toUInt32 - 8 - if c.ddgst then 4 else 0

/-- A PDU whose data is received for a request and has not been handled. -/
structure DataPdu where
  /-- The slot `pdu->req` is in. -/
  slot : ℕ
  /-- It is the capsule of the request. -/
  inCapsule : Bool
  pdo : UInt8 := 0
  datao : UInt32
  /-- `pdu->data_len`. -/
  dataLen : UInt32
  deriving DecidableEq, Repr

/-- An entry of the poll group's `pending_buf_queue`. -/
inductive Waiter
  | own (slot : ℕ)
  /-- A request of another qpair. -/
  | other (n : ℕ)
  deriving DecidableEq, Repr

/-- The slot of an entry, if it is one of this qpair. -/
def Waiter.slot? : Waiter → Option ℕ
  | .own t => some t
  | .other _ => none

/-- What a qpair does that can be seen from outside. -/
inductive TcpEffect
  /-- A command is received. -/
  | arrive (arrival : ℕ) (fuse : Fuse)
  /-- `spdk_nvmf_request_exec`. -/
  | exec (arrival : ℕ) (fuse : Fuse)
  /-- A completion goes to the host. -/
  | respond (arrival : ℕ) (fuse : Fuse) (status : TcpStatus)
  | getBufs (slot n : ℕ)
  | putBufs (slot n : ℕ)
  | getCtrl (slot : ℕ)
  | putCtrl (slot : ℕ)
  /-- An H2CData PDU is accepted, for a request of this length and these iovecs. -/
  | h2cData (slot arrival datao dataLen length : ℕ) (iov : List ℕ)
  /-- A request goes from its data to READY_TO_EXECUTE. -/
  | dataReady (arrival received length : ℕ)
  /-- The digest of a data PDU does not match. -/
  | mismatch (arrival : ℕ)
  | termReq (t : TermReq)
  deriving DecidableEq, Repr

/-- `struct spdk_nvmf_tcp_qpair`. -/
structure TcpQpair where
  /-- `spdk_nvmf_qpair_is_active`. -/
  active : Bool := true
  recv : RecvState := .awaitPduReady
  /-- The header in `pdu_in_progress`, and the command behind it. -/
  hdr : RxHdr := ⟨⟨0, 0, 0, 0, 0⟩, 0⟩
  cmd : TcpCmd := { opc := 0, sgl := ⟨0, 0, .dataBlock, .address⟩ }
  /-- By tag: `reqs t` is `tqpair->reqs[t - 1]`, and `reqs 0` what lies in front of the array. -/
  reqs : ℕ → TcpReq
  /-- `tcp_req_working_queue`. -/
  working : List ℕ := []
  /-- `tcp_req_free_queue`. -/
  free : List ℕ
  /-- `state_cntr`. -/
  stateCntr : TcpReqState → ℤ
  /-- `qpair.queue_depth`. -/
  queueDepth : ℕ := 0
  fusedFirst : Option ℕ := none
  /-- `pending_buf_queue` of the group. -/
  pending : List Waiter := []
  /-- The data PDUs that are being received or have their digest computed. -/
  pdus : List DataPdu := []
  /-- The number of requests taken. -/
  arrivals : ℕ := 0
  log : List TcpEffect := []

/-- What a qpair is set up with. -/
structure QpCtx where
  transport : TcpTransport
  conn : TcpConn := {}
  /-- `qpair.qid` is 0. -/
  admin : Bool := false
  resourceCount : ℕ

/-- `nvmf_tcp_qpair_init_mem_resource`; `below` is what lies in front of the array. -/
def TcpQpair.init (Q : QpCtx) (below : TcpReq) : TcpQpair where
  reqs t := if t = 0 then below else {}
  free := List.range' 1 Q.resourceCount
  stateCntr state := if state = .free then Q.resourceCount else 0

namespace TcpQpair

/-- Change a request.  Its state is set by `nvmf_tcp_req_set_state`, which counts. -/
def setReq (s : TcpQpair) (t : ℕ) (f : TcpReq → TcpReq) : TcpQpair :=
  { s with
    reqs := Function.update s.reqs t (f (s.reqs t))
    stateCntr := shift s.stateCntr (s.reqs t).state (f (s.reqs t)).state }

/-- Add to the log. -/
def emit (s : TcpQpair) (e : TcpEffect) : TcpQpair := { s with log := s.log ++ [e] }

/-- `nvmf_tcp_send_c2h_term_req`. -/
def terminate (s : TcpQpair) (t : TermReq) : TcpQpair :=
  { s with recv := .quiescing }.emit (.termReq t)

section Access

variable (s : TcpQpair) (t : ℕ) (f : TcpReq → TcpReq) (e : TcpEffect)

theorem reqs_setReq (u : ℕ) :
    (s.setReq t f).reqs u = if u = t then f (s.reqs t) else s.reqs u :=
  Function.update_apply ..

@[simp] theorem reqs_setReq_self : (s.setReq t f).reqs t = f (s.reqs t) :=
  Function.update_self ..

@[simp] theorem reqs_setReq_of_ne {u : ℕ} (h : u ≠ t) : (s.setReq t f).reqs u = s.reqs u :=
  Function.update_of_ne h ..

variable {s t f} in
/-- What a change of one request leaves as it was, it leaves so in every slot. -/
theorem field_setReq {α : Type} (field : TcpReq → α)
    (h : field (f (s.reqs t)) = field (s.reqs t)) (u : ℕ) :
    field ((s.setReq t f).reqs u) = field (s.reqs u) := by
  rw [reqs_setReq]
  split_ifs with hu
  · rw [h, hu]
  · rfl

theorem setReq_setReq (g : TcpReq → TcpReq) :
    (s.setReq t f).setReq t g = s.setReq t fun r => g (f r) := by
  simp only [setReq, Function.update_self, Function.update_idem, shift_shift]

variable {s t f} in
/-- A request that stays in its state is counted as before. -/
theorem stateCntr_setReq (h : (f (s.reqs t)).state = (s.reqs t).state) :
    (s.setReq t f).stateCntr = s.stateCntr := by
  rw [setReq, h, shift_self]

@[simp] theorem active_setReq : (s.setReq t f).active = s.active := rfl

@[simp] theorem working_setReq : (s.setReq t f).working = s.working := rfl

@[simp] theorem free_setReq : (s.setReq t f).free = s.free := rfl

@[simp] theorem fusedFirst_setReq : (s.setReq t f).fusedFirst = s.fusedFirst := rfl

@[simp] theorem pending_setReq : (s.setReq t f).pending = s.pending := rfl

@[simp] theorem pdus_setReq : (s.setReq t f).pdus = s.pdus := rfl

@[simp] theorem arrivals_setReq : (s.setReq t f).arrivals = s.arrivals := rfl

@[simp] theorem log_setReq : (s.setReq t f).log = s.log := rfl

@[simp] theorem reqs_emit : (s.emit e).reqs = s.reqs := rfl

@[simp] theorem active_emit : (s.emit e).active = s.active := rfl

@[simp] theorem working_emit : (s.emit e).working = s.working := rfl

@[simp] theorem free_emit : (s.emit e).free = s.free := rfl

@[simp] theorem log_emit : (s.emit e).log = s.log ++ [e] := rfl

end Access

end TcpQpair

/-! ## `nvmf_tcp_req_process` -/

section Process

variable (Q : QpCtx)

/-- `request_transfer_out`, the case of READY_TO_COMPLETE. -/
def requestTransferOut (t : ℕ) (s : TcpQpair) : TcpQpair :=
  let r := s.reqs t
  let out : OutPdu :=
    if r.status.isSuccess ∧ r.xfer = .controllerToHost then
      .c2hData (Q.conn.ddgst && r.length ≠ 0 && r.length % 4 = 0)
    else .capsuleResp
  (s.setReq t fun r => { r with state := .transferringC2h, pdu := some out }).emit
    (.respond r.arrival r.cmd.fuse r.status)

/-- EXECUTING, and `spdk_nvmf_request_exec`. -/
def execReq (t : ℕ) (s : TcpQpair) : TcpQpair :=
  (s.setReq t fun r => { r with state := .executing }).emit
    (.exec (s.reqs t).arrival (s.reqs t).cmd.fuse)

/-- Clear the pointers of a pair. -/
def unpair (t u : ℕ) (s : TcpQpair) : TcpQpair :=
  (s.setReq u fun r => { r with fusedPair := none }).setReq t fun r => { r with fusedPair := none }

/-- The case of READY_TO_EXECUTE. -/
def readyToExecute (t : ℕ) (s : TcpQpair) : TcpQpair :=
  let r := s.reqs t
  if r.cmd.fuse = .none then execReq t s else
  if r.fusedFailed then
    requestTransferOut Q t (s.setReq t fun r => { r with status := .abortedMissingFused }) else
  match r.fusedPair with
  | none => s
  | some u =>
    if (s.reqs u).state ≠ .readyToExecute then s else
    match r.cmd.fuse with
    | .second => unpair t u (execReq t (execReq u s))
    | .first => unpair t u (execReq u (execReq t s))
    | _ => execReq t s

/-- The buffers a request gives back. -/
def releaseBuffers (t : ℕ) (s : TcpQpair) : TcpQpair :=
  let r := s.reqs t
  if r.dataFromPool then
    (s.setReq t fun r => { r with dataFromPool := false, iov := [] }).emit (.putBufs t r.iov.length)
  else if r.hasInCapsuleData ∧ (r.cmd.isFabric ∨ Q.admin) ∧
      r.length.toNat > Q.transport.inCapsuleDataSize then
    s.emit (.putCtrl t)
  else s

/-- `nvmf_tcp_req_put`. -/
def nvmfTcpReqPut (t : ℕ) (s : TcpQpair) : TcpQpair :=
  { s.setReq t fun r => { r with state := .free } with
    working := s.working.erase t
    free := s.free ++ [t]
    queueDepth := s.queueDepth - 1 }

theorem field_nvmfTcpReqPut {t : ℕ} {s : TcpQpair} {α : Type} (field : TcpReq → α)
    (h : field { s.reqs t with state := .free } = field (s.reqs t)) (u : ℕ) :
    field ((nvmfTcpReqPut t s).reqs u) = field (s.reqs u) :=
  TcpQpair.field_setReq (f := fun r => { r with state := .free }) field h u

theorem reqs_nvmfTcpReqPut_self (t : ℕ) (s : TcpQpair) :
    (nvmfTcpReqPut t s).reqs t = { s.reqs t with state := .free } := by
  simp [nvmfTcpReqPut]

theorem reqs_nvmfTcpReqPut_of_ne {t u : ℕ} (s : TcpQpair) (h : u ≠ t) :
    (nvmfTcpReqPut t s).reqs u = s.reqs u := by
  simp [nvmfTcpReqPut, h]

/-- `nvmf_tcp_req_process` of a request in READY_TO_EXECUTE; `complete` is the case of COMPLETED. -/
def kickReady (complete : ℕ → TcpQpair → TcpQpair) (u : ℕ) (s : TcpQpair) : TcpQpair :=
  if s.active then readyToExecute Q u s
  else complete u (s.setReq u fun r => { r with state := .completed })

/-- The case of COMPLETED.  A fused partner that waits is run in turn; the first argument bounds how
often. -/
def atCompleted : ℕ → ℕ → TcpQpair → TcpQpair
  | 0, _, s => s
  | n + 1, t, s =>
    if (s.reqs t).pdu.isSome then s else
    let s₁ := (releaseBuffers Q t s).setReq t fun r =>
      { r with length := 0, iov := [], fusedFailed := false }
    match (s.reqs t).fusedPair with
    | none => nvmfTcpReqPut t s₁
    | some u =>
      let s₂ := s₁.setReq u fun r => { r with fusedFailed := true }
      let s₃ := if (s₂.reqs u).state = .readyToExecute then kickReady Q (atCompleted n) u s₂ else s₂
      nvmfTcpReqPut t (s₃.setReq t fun r => { r with fusedPair := none })

/-- The case of COMPLETED, with room for every slot. -/
def completeReq (t : ℕ) (s : TcpQpair) : TcpQpair := atCompleted Q (Q.resourceCount + 1) t s

/-- The first request of a fused pair has no second one. -/
def failFirst (u : ℕ) (s : TcpQpair) : TcpQpair :=
  let s₁ := s.setReq u fun r => { r with fusedFailed := true }
  let s₂ := if (s₁.reqs u).state = .readyToExecute then kickReady Q (completeReq Q) u s₁ else s₁
  { s₂ with fusedFirst := none }

/-- The end of `nvmf_tcp_check_fused_ordering`. -/
def noteFused (t : ℕ) (s : TcpQpair) : TcpQpair :=
  match (s.reqs t).cmd.fuse with
  | .first => { s with fusedFirst := some t }
  | .second => s.setReq t fun r => { r with fusedFailed := true }
  | _ => s

/-- **`nvmf_tcp_check_fused_ordering`.** -/
def nvmfTcpCheckFusedOrdering (t : ℕ) (s : TcpQpair) : TcpQpair :=
  match s.fusedFirst with
  | none => noteFused t s
  | some u =>
    if (s.reqs u).cmd.fuse = .first then
      if (s.reqs t).cmd.fuse = .second then
        { (s.setReq u fun r => { r with fusedPair := some t }).setReq t fun r =>
            { r with fusedPair := some u } with fusedFirst := none }
      else noteFused t (failFirst Q u s)
    else noteFused t s

/-- `nvmf_tcp_send_r2t_pdu`. -/
def nvmfTcpSendR2tPdu (t : ℕ) (s : TcpQpair) : TcpQpair :=
  s.setReq t fun r => { r with state := .awaitingR2tAck, pdu := some .r2t }

/-- What `nvmf_tcp_req_parse_sgl` is handed. -/
def TcpQpair.sglContext (s : TcpQpair) : SglContext :=
  { admin := Q.admin, capsuleLen := s.hdr.capsuleLen Q.conn }

/-- A request with buffers leaves the queue, and goes where its data goes. -/
def withBuffers (t : ℕ) (s : TcpQpair) : TcpQpair :=
  let r := s.reqs t
  let s₁ := { s with pending := s.pending.erase (.own t) }
  if r.xfer = .hostToController then
    if r.dataFromPool then nvmfTcpSendR2tPdu t s₁
    else
      { s₁.setReq t fun r => { r with state := .transferringH2c } with
        pdus := s.pdus ++ [⟨t, true, s.hdr.common.pdo, 0, r.length⟩]
        recv := .awaitPduPayload }
  else readyToExecute Q t (s₁.setReq t fun r => { r with state := .readyToExecute })

/-- The case of NEED_BUFFER. -/
def atNeedBuffer (b : BufSupply) (t : ℕ) (s : TcpQpair) : TcpQpair :=
  let r := s.reqs t
  if !r.hasInCapsuleData && s.pending.head? ≠ some (.own t) then s else
  match tcpReqParseSgl Q.transport b (s.sglContext Q) r.cmd with
  | .fatal e => s.terminate e
  | .zcopy => s
  | .noBuffers =>
    if r.cmd.sgl.isTransport then
      -- buffers got so far are back in the pool
      s.setReq t fun r => { r with length := r.cmd.sgl.length, iov := [], dataFromPool := false }
    else s
  | .pool iov =>
    let s₁ := (s.setReq t fun r =>
      { r with length := r.cmd.sgl.length, iov, dataFromPool := true }).emit (.getBufs t iov.length)
    if iov = [] then s₁ else withBuffers Q t s₁
  | .inCapsule fromCtrl len =>
    let s₁ := s.setReq t fun r =>
      { r with length := len, iov := [len.toNat], dataFromPool := false }
    withBuffers Q t (if fromCtrl then s₁.emit (.getCtrl t) else s₁)

/-- The case of NEW. -/
def atNew (b : BufSupply) (t : ℕ) (s : TcpQpair) : TcpQpair :=
  let s₁ := (s.setReq t fun r => { r with cmd := s.cmd }).emit
    (.arrive (s.reqs t).arrival s.cmd.fuse)
  let xfer := spdkNvmfReqGetXfer Q.transport s.cmd
  let s₂ := (nvmfTcpCheckFusedOrdering Q t s₁).setReq t fun r => { r with xfer }
  match xfer with
  | .bidirectional =>
    requestTransferOut Q t
      ({ s₂ with recv := .awaitPduReady }.setReq t fun r => { r with status := .invalidOpcode })
  | .none =>
    readyToExecute Q t
      ({ s₂ with recv := .awaitPduReady }.setReq t fun r => { r with state := .readyToExecute })
  | _ =>
    let s₃ := if s.hdr.hasData Q.conn then s₂.setReq t fun r => { r with hasInCapsuleData := true }
      else { s₂ with recv := .awaitPduReady }
    atNeedBuffer Q b t
      { s₃.setReq t fun r => { r with state := .needBuffer } with
        pending := s₃.pending ++ [.own t] }

/-- **`nvmf_tcp_req_process`.** -/
def nvmfTcpReqProcess (b : BufSupply) (t : ℕ) (s : TcpQpair) : TcpQpair :=
  if !s.active then
    let s₁ := if (s.reqs t).state = .needBuffer then
      { s with pending := s.pending.erase (.own t) } else s
    completeReq Q t (s₁.setReq t fun r => { r with state := .completed })
  else
    match (s.reqs t).state with
    | .new => atNew Q b t s
    | .needBuffer => atNeedBuffer Q b t s
    | .readyToExecute => readyToExecute Q t s
    | .executed | .readyToComplete => requestTransferOut Q t s
    | .completed => completeReq Q t s
    | .free | .transferringH2c | .awaitingR2tAck | .executing | .transferringC2h => s

/-! ## What moves a request on -/

/-- `nvmf_tcp_req_get`, for the slot in front of the free queue. -/
def nvmfTcpReqGet (t : ℕ) (s : TcpQpair) : TcpQpair :=
  { s.setReq t fun r =>
      { r with state := .new, status := .zeroed, h2cOffset := 0, hasInCapsuleData := false,
               arrival := s.arrivals, received := 0 } with
    free := s.free.tail
    working := s.working ++ [t]
    queueDepth := s.queueDepth + 1
    arrivals := s.arrivals + 1 }

theorem field_nvmfTcpReqGet {t : ℕ} {s : TcpQpair} {α : Type} (field : TcpReq → α)
    (h : field { s.reqs t with
      state := .new, status := .zeroed, h2cOffset := 0, hasInCapsuleData := false,
      arrival := s.arrivals, received := 0 } = field (s.reqs t)) (u : ℕ) :
    field ((nvmfTcpReqGet t s).reqs u) = field (s.reqs u) :=
  TcpQpair.field_setReq (f := fun r =>
    { r with state := .new, status := .zeroed, h2cOffset := 0, hasInCapsuleData := false,
             arrival := s.arrivals, received := 0 }) field h u

theorem reqs_nvmfTcpReqGet_self (t : ℕ) (s : TcpQpair) :
    (nvmfTcpReqGet t s).reqs t =
      { s.reqs t with state := .new, status := .zeroed, h2cOffset := 0, hasInCapsuleData := false,
                      arrival := s.arrivals, received := 0 } := by
  simp [nvmfTcpReqGet]

theorem reqs_nvmfTcpReqGet_of_ne {t u : ℕ} (s : TcpQpair) (h : u ≠ t) :
    (nvmfTcpReqGet t s).reqs u = s.reqs u := by
  simp [nvmfTcpReqGet, h]

/-- **`nvmf_tcp_capsule_cmd_hdr_handle`**, for the command in `pdu_in_progress`. -/
def nvmfTcpCapsuleCmdHdrHandle (b : BufSupply) (s : TcpQpair) : TcpQpair :=
  match s.free with
  | [] =>
    if s.stateCntr .transferringC2h > 0 then s
    else { s with recv := .quiescing }
  | t :: _ => nvmfTcpReqProcess Q b t (nvmfTcpReqGet t s)

/-- **`nvmf_tcp_h2c_data_hdr_handle`.** -/
def nvmfTcpH2cDataHdrHandle (cccid ttag : UInt16) (datao datal : UInt32) (s : TcpQpair) :
    TcpQpair :=
  if ttag.toNat > Q.resourceCount then s.terminate ⟨.pduSequenceError, 10⟩ else
  let r := s.reqs ttag.toNat
  if r.state ≠ .transferringH2c ∧ r.state ≠ .awaitingR2tAck then
    s.terminate ⟨.invalidHeaderField, 10⟩ else
  if r.cmd.cid ≠ cccid then s.terminate ⟨.pduSequenceError, 8⟩ else
  if r.h2cOffset ≠ datao then s.terminate ⟨.dataTransferOutOfRange, 0⟩ else
  if datao + datal > r.length then s.terminate ⟨.dataTransferOutOfRange, 0⟩ else
  { s with
    pdus := s.pdus ++ [DataPdu.mk ttag.toNat false 0 datao datal]
    recv := .awaitPduPayload }.emit
      (.h2cData ttag.toNat r.arrival datao.toNat datal.toNat r.length.toNat r.iov)

/-- All the data of a request is there. -/
def dataReady (t : ℕ) (s : TcpQpair) : TcpQpair :=
  nvmfTcpReqProcess Q {} t ((s.setReq t fun r => { r with state := .readyToExecute }).emit
    (.dataReady (s.reqs t).arrival (s.reqs t).received (s.reqs t).length.toNat))

/-- The answer to a request whose data came in, but not as it was sent. -/
def dataCorrupt (t : ℕ) (s : TcpQpair) : TcpQpair :=
  nvmfTcpReqProcess Q {} t (s.setReq t fun r => { r with state := .readyToComplete })

/-- `nvmf_tcp_r2t_complete`. -/
def nvmfTcpR2tComplete (t : ℕ) (s : TcpQpair) : TcpQpair :=
  let s₁ := s.setReq t fun r => { r with state := .transferringH2c }
  if (s.reqs t).h2cOffset = (s.reqs t).length then dataReady Q t s₁ else s₁

/-- `nvmf_tcp_h2c_data_payload_handle`. -/
def nvmfTcpH2cDataPayloadHandle (p : DataPdu) (s : TcpQpair) : TcpQpair :=
  let s₁ := s.setReq p.slot fun r =>
    { r with h2cOffset := r.h2cOffset + p.dataLen, received := r.received + p.dataLen.toNat }
  let r := s₁.reqs p.slot
  if r.h2cOffset = r.length ∧ r.state = .transferringH2c then
    if r.status = .transientTransportError then dataCorrupt Q p.slot s₁ else dataReady Q p.slot s₁
  else s₁

/-- `nvmf_tcp_capsule_cmd_payload_handle`; 128 is `SPDK_NVME_TCP_PDU_PDO_MAX_OFFSET`. -/
def nvmfTcpCapsuleCmdPayloadHandle (p : DataPdu) (s : TcpQpair) : TcpQpair :=
  if p.pdo > 128 then s.terminate ⟨.invalidHeaderField, 3⟩ else
  let s₁ := s.setReq p.slot fun r => { r with received := r.received + p.dataLen.toNat }
  if (s.reqs p.slot).status = .transientTransportError then dataCorrupt Q p.slot s₁
  else dataReady Q p.slot s₁

/-- `data_crc32_calc_done`, and `_nvmf_tcp_pdu_payload_handle` where there is no digest. -/
def dataCrc32CalcDone (p : DataPdu) (ok : Bool) (s : TcpQpair) : TcpQpair :=
  let s₁ := if ok then s else
    (s.setReq p.slot fun r => { r with status := .transientTransportError }).emit
      (.mismatch (s.reqs p.slot).arrival)
  let s₂ := { s₁ with pdus := s.pdus.erase p }
  if p.inCapsule then nvmfTcpCapsuleCmdPayloadHandle Q p s₂ else nvmfTcpH2cDataPayloadHandle Q p s₂

/-- `nvmf_tcp_request_free`. -/
def nvmfTcpRequestFree (t : ℕ) (s : TcpQpair) : TcpQpair :=
  nvmfTcpReqProcess Q {} t (s.setReq t fun r => { r with state := .completed })

/-- `nvmf_tcp_req_complete`, with the status the controller has written. -/
def nvmfTcpReqComplete (t : ℕ) (sc : Sc) (s : TcpQpair) : TcpQpair :=
  nvmfTcpReqProcess Q {} t (s.setReq t fun r => { r with state := .executed, status := .ctrlr sc })

/-- **`_req_pdu_write_done`** without an error; `success` says whether a data PDU stands for the
completion as well. -/
def reqPduWriteDone (t : ℕ) (success : Bool) (s : TcpQpair) : TcpQpair :=
  let s₁ := s.setReq t fun r => { r with pdu := none }
  if (s.reqs t).state = .completed then nvmfTcpRequestFree Q t s₁ else
  match (s.reqs t).pdu with
  | some .r2t => nvmfTcpR2tComplete Q t s₁
  | some (.c2hData _) =>
    if success then nvmfTcpRequestFree Q t s₁
    else s₁.setReq t fun r => { r with pdu := some .capsuleResp }
  | _ => nvmfTcpRequestFree Q t s₁

/-- `_req_pdu_write_done` with an error. -/
def reqPduWriteFailed (t : ℕ) (s : TcpQpair) : TcpQpair :=
  let s₁ := s.setReq t fun r => { r with pdu := none }
  if (s.reqs t).state = .completed then nvmfTcpRequestFree Q t s₁
  else { s₁ with recv := .quiescing }

/-- `_nvmf_tcp_qpair_abort_request`, as far as it changes the request. -/
def nvmfTcpQpairAbortRequest (t : ℕ) (s : TcpQpair) : TcpQpair :=
  if (s.reqs t).state = .needBuffer then
    nvmfTcpReqProcess Q {} t ({ s with pending := s.pending.erase (.own t) }.setReq t fun r =>
      { r with status := .abortedByRequest, state := .readyToComplete })
  else s

end Process

/-! ## Runs -/

/-- What happens to a qpair. -/
inductive TcpEvent
  /-- The header of a command capsule has been read. -/
  | capsule (hdr : RxHdr) (cmd : TcpCmd) (b : BufSupply)
  /-- The header of another PDU is in progress. -/
  | nextPdu (hdr : RxHdr) (cmd : TcpCmd)
  /-- The header of an H2CData PDU has been read. -/
  | h2cData (cccid ttag : UInt16) (datao datal : UInt32)
  /-- The data of a PDU has been read, and its digest computed. -/
  | dataDone (p : DataPdu) (ok : Bool)
  /-- A request is tried again for buffers. -/
  | poll (t : ℕ) (b : BufSupply)
  /-- The controller completes a request. -/
  | complete (t : ℕ) (sc : Sc)
  /-- The digest of a C2HData PDU has been computed. -/
  | digestDone (t : ℕ)
  /-- A PDU has been written to the socket. -/
  | writeDone (t : ℕ) (success : Bool)
  /-- A part of the data has been written to the socket, and another one follows. -/
  | nextPart (t : ℕ) (digesting : Bool)
  /-- The digest of a PDU or its write has failed. -/
  | writeFailed (t : ℕ)
  | abort (t : ℕ)
  /-- Requests of other qpairs join and leave the queue. -/
  | others (queue : List Waiter)
  /-- The qpair is no longer active. -/
  | disconnect
  deriving DecidableEq, Repr

/-- **The steps of a qpair.** -/
def tcpStep (Q : QpCtx) (s : TcpQpair) : TcpEvent → Option TcpQpair
  | .capsule hdr cmd b =>
    some (nvmfTcpCapsuleCmdHdrHandle Q b { s with hdr, cmd, recv := .awaitReq })
  | .nextPdu hdr cmd => some { s with hdr, cmd }
  | .h2cData cccid ttag datao datal => some (nvmfTcpH2cDataHdrHandle Q cccid ttag datao datal s)
  | .dataDone p ok =>
    -- a PDU without data is never done
    if p ∈ s.pdus ∧ p.dataLen ≠ 0 ∧ (ok = false → Q.conn.ddgst = true) then
      some (dataCrc32CalcDone Q p ok s)
    else none
  | .poll t b =>
    if t ∈ s.working ∧ (s.reqs t).state = .needBuffer then
      some (nvmfTcpReqProcess Q b t s)
    else none
  | .complete t sc =>
    if t ∈ s.working ∧ (s.reqs t).state = .executing then
      some (nvmfTcpReqComplete Q t sc s)
    else none
  | .digestDone t =>
    if t ∈ s.working ∧ (s.reqs t).pdu = some (.c2hData true) then
      some (s.setReq t fun r => { r with pdu := some (.c2hData false) })
    else none
  | .writeDone t success =>
    if t ∈ s.working ∧ (s.reqs t).pdu ≠ none ∧ (s.reqs t).pdu ≠ some (.c2hData true) then
      some (reqPduWriteDone Q t success s)
    else none
  | .nextPart t digesting =>
    -- `nvmf_tcp_pdu_c2h_data_complete` calls `_nvmf_tcp_send_c2h_data` again
    if t ∈ s.working ∧ (s.reqs t).pdu = some (.c2hData false) ∧
        (digesting = true → Q.conn.ddgst = true) then
      some (s.setReq t fun r => { r with pdu := some (.c2hData digesting) })
    else none
  | .writeFailed t =>
    if t ∈ s.working ∧ (s.reqs t).pdu ≠ none then some (reqPduWriteFailed Q t s) else none
  | .abort t => if t ∈ s.working then some (nvmfTcpQpairAbortRequest Q t s) else none
  | .others queue =>
    if queue.filterMap Waiter.slot? = s.pending.filterMap Waiter.slot? then
      some { s with pending := queue }
    else none
  | .disconnect => some { s with active := false }

/-- A qpair from its creation on. -/
def tcpSys (Q : QpCtx) (below : TcpReq) : Sys TcpQpair TcpEvent := ⟨.init Q below, tcpStep Q⟩

/-! ## Samples -/

/-- An I/O qpair of two requests. -/
def sampleQpair (ddgst : Bool) : QpCtx where
  transport := sampleTransport
  conn := { ddgst }
  resourceCount := 2

/-- The header of a capsule without data. -/
def bareHdr : RxHdr := ⟨⟨4, 0, 72, 0, 72⟩, 64⟩

/-- A WRITE of so many bytes that have to be asked for. -/
def sampleWrite (length : UInt32) (fuse : Fuse := .none) : TcpCmd :=
  { opc := 0x01, fuse, sgl := transportSgl length }

end NdpHeaan
