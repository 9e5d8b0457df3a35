import NdpHeaan.Tcp.Command

/-!
# Tcp/PendingQueue — requests in line for buffers

The qpairs of a poll group share one queue of requests that need buffers, and a poll goes through it
from the front until a request makes no progress.  A request stays in front although the pool is
full when its SGL is refused, which ends the connection but leaves the request where it is, and when
it asks for no buffer at all: 0xD0 and 0xE0 keep their direction with a length of 0, and are never
told apart from a request that got nothing.
-/

namespace NdpHeaan

variable {T : TcpTransport}

/-- A request in `TCP_REQUEST_STATE_NEED_BUFFER`. -/
structure WaitingReq (T : TcpTransport) where
  cmd : TcpCmd
  ctx : SglContext
  /-- `spdk_nvmf_qpair_is_active`. -/
  active : Bool := true
  hasInCapsuleData : Bool := false
  /-- Only a request whose data goes one way gets here. -/
  needsBuffer : (spdkNvmfReqGetXfer T cmd).NeedsBuffer
  /-- `nvmf_ctrlr_use_zcopy` picks reads and writes. -/
  zcopy_spec : ctx.zcopy = true → cmd.opc = 0x01 ∨ cmd.opc = 0x02

/-- **`nvmf_tcp_req_process` of a waiting request**: whether it leaves the queue. -/
def WaitingReq.takenOff (b : BufSupply) (first : Bool) (w : WaitingReq T) : Bool :=
  if !w.active then true else
  if !w.hasInCapsuleData && !first then false else
  (tcpReqParseSgl T b w.ctx w.cmd).takesOff

/-- **The pass of `nvmf_tcp_poll_group_poll`**: what is left of the queue. -/
def pollPendingBufQueue (b : BufSupply) : List (WaitingReq T) → List (WaitingReq T)
  | [] => []
  | w :: q => if w.takenOff b true then pollPendingBufQueue b q else w :: q

/-! ## Requests that can be served -/

/-- **A command that can be served**: a transport data block that is not too long and asks for at
least one buffer, or a block in the capsule as long as the PDU says, at offset 0, in a buffer there
is for it. -/
def WaitingReq.Suits (w : WaitingReq T) : Prop :=
  (w.cmd.sgl.isTransport = true ∧ w.cmd.sgl.length.toNat ≤ T.maxIoSize ∧
    (w.ctx.zcopy = true ∨ 0 < (w.ctx.bufLen w.cmd.sgl.length).toNat ∧
      (w.ctx.bufLen w.cmd.sgl.length).toNat ≤ T.ioUnitSize * 33)) ∨
  (w.cmd.sgl.isInCapsule = true ∧ w.ctx.capsuleLen = w.cmd.sgl.length ∧ w.cmd.sgl.address = 0 ∧
    (w.ctx.capsuleLen.toNat ≤ T.inCapsuleDataSize ∨
      w.ctx.capsuleLen.toNat ≤ inCapsuleDataMaxSize ∧ (w.cmd.isFabric = true ∨ w.ctx.admin = true)))

/-- The pool gives a buffer exactly when it is asked for one and for no more than 33. -/
theorem getBuffers_pool_iff (o : TcpOpts) (length : ℕ) :
    (∃ iov, nvmfRequestGetBuffers o true length = some iov ∧ 1 ≤ iov.length) ↔
      0 < length ∧ length ≤ o.ioUnitSize * 33 := by
  have hmany : length ⌈/⌉ o.ioUnitSize ≤ 33 ↔ length ≤ o.ioUnitSize * 33 :=
    ceilDiv_le_iff_le_mul o.ioUnitSize_pos
  have hsome : 1 ≤ length ⌈/⌉ o.ioUnitSize ↔ 0 < length := by
    have := ceilDiv_le_iff_le_mul (b := length) (c := 0) o.ioUnitSize_pos
    omega
  rw [← hmany, ← hsome]
  constructor
  · rintro ⟨iov, hiov, hlen⟩
    unfold nvmfRequestGetBuffers at hiov
    dsimp only at hiov
    split_ifs at hiov with hle
    obtain rfl := Option.some.inj hiov
    rw [length_setBuffers] at hlen
    exact ⟨hlen, Nat.not_lt.mp hle⟩
  · rintro ⟨hpos, hle⟩
    refine ⟨setBuffers o.ioUnitSize (length ⌈/⌉ o.ioUnitSize) length, ?_, ?_⟩
    · unfold nvmfRequestGetBuffers
      rw [if_neg (Nat.not_lt.mpr hle), if_neg (by decide)]
    · rwa [length_setBuffers]

/-- A transport data block is served from a full pool where it asks for a buffer. -/
theorem takesOff_transport_iff (x : SglContext) {cmd : TcpCmd} (h : cmd.sgl.isTransport = true) :
    (tcpReqParseSgl T {} x cmd).takesOff = true ↔
      cmd.sgl.length.toNat ≤ T.maxIoSize ∧ (x.zcopy = true ∨
        0 < (x.bufLen cmd.sgl.length).toNat ∧
          (x.bufLen cmd.sgl.length).toNat ≤ T.ioUnitSize * 33) := by
  rw [tcpReqParseSgl, if_pos h, ← getBuffers_pool_iff]
  by_cases hmax : cmd.sgl.length.toNat > T.maxIoSize
  · rw [if_pos hmax]
    exact iff_of_false (by decide) fun hc => absurd hc.1 (Nat.not_le.mpr hmax)
  rw [if_neg hmax]
  by_cases hz : x.zcopy = true
  · rw [if_pos hz]
    exact iff_of_true rfl ⟨Nat.not_lt.mp hmax, .inl hz⟩
  rw [if_neg hz]
  cases hbuf : nvmfRequestGetBuffers T.toTcpOpts true (x.bufLen cmd.sgl.length).toNat with
  | none => simp [SglEnd.takesOff, hz]
  | some iov => simp [SglEnd.takesOff, hz, Nat.not_lt.mp hmax]

/-- A block in the capsule is served where the PDU carries it and a buffer is long enough. -/
theorem takesOff_inCapsule_iff (x : SglContext) {cmd : TcpCmd} (h : cmd.sgl.isInCapsule = true) :
    (tcpReqParseSgl T {} x cmd).takesOff = true ↔
      x.capsuleLen = cmd.sgl.length ∧ cmd.sgl.address = 0 ∧
        (x.capsuleLen.toNat ≤ T.inCapsuleDataSize ∨
          x.capsuleLen.toNat ≤ inCapsuleDataMaxSize ∧
            (cmd.isFabric = true ∨ x.admin = true)) := by
  rw [tcpReqParseSgl, if_neg (TcpSgl.not_isTransport_of_isInCapsule h), if_pos h]
  by_cases hlen : x.capsuleLen = cmd.sgl.length
  swap
  · rw [if_pos hlen]
    exact iff_of_false (by decide) fun hc => hlen hc.1
  rw [if_neg (not_not.mpr hlen)]
  by_cases haddr : cmd.sgl.address = 0
  swap
  · rw [if_pos haddr]
    exact iff_of_false (by decide) fun hc => haddr hc.2.1
  rw [if_neg (not_not.mpr haddr)]
  by_cases hlong : x.capsuleLen.toNat > T.inCapsuleDataSize
  · rw [if_pos hlong]
    split
    · rename_i hctrl
      exact iff_of_true rfl ⟨hlen, haddr, .inr hctrl⟩
    · rename_i hctrl
      exact iff_of_false (by decide) fun hc => hc.2.2.elim (Nat.not_le.mpr hlong) hctrl
  · rw [if_neg hlong]
    exact iff_of_true rfl ⟨hlen, haddr, .inl (Nat.not_lt.mp hlong)⟩

/-- Any other SGL is refused. -/
theorem takesOff_eq_false_of_other (b : BufSupply) (x : SglContext) {cmd : TcpCmd}
    (htransport : ¬ cmd.sgl.isTransport = true) (hcapsule : ¬ cmd.sgl.isInCapsule = true) :
    (tcpReqParseSgl T b x cmd).takesOff = false := by
  rw [tcpReqParseSgl, if_neg htransport, if_neg hcapsule]
  rfl

/-- **In front of the queue, with every buffer to be had, a request of an active qpair leaves it
exactly when its command can be served.** -/
theorem WaitingReq.takenOff_iff_suits (w : WaitingReq T) (hactive : w.active = true) :
    w.takenOff {} true = true ↔ w.Suits := by
  have hproc : w.takenOff {} true = (tcpReqParseSgl T {} w.ctx w.cmd).takesOff := by
    simp [takenOff, hactive]
  rw [hproc]
  unfold Suits
  by_cases htransport : w.cmd.sgl.isTransport = true
  · have hcapsule : ¬ w.cmd.sgl.isInCapsule = true :=
      fun hc => TcpSgl.not_isTransport_of_isInCapsule hc htransport
    rw [takesOff_transport_iff w.ctx htransport]
    tauto
  · by_cases hcapsule : w.cmd.sgl.isInCapsule = true
    · rw [takesOff_inCapsule_iff w.ctx hcapsule]
      tauto
    · rw [takesOff_eq_false_of_other _ _ htransport hcapsule]
      simp [htransport, hcapsule]

/-- A pass empties the queue exactly when it takes every request off. -/
theorem pollPendingBufQueue_eq_nil_iff (b : BufSupply) : ∀ (q : List (WaitingReq T)),
    pollPendingBufQueue b q = [] ↔ ∀ w ∈ q, w.takenOff b true = true
  | [] => by simp [pollPendingBufQueue]
  | w :: q => by
      rw [pollPendingBufQueue, List.forall_mem_cons]
      split
      · rename_i hw
        rw [pollPendingBufQueue_eq_nil_iff b q]
        exact ⟨fun h => ⟨hw, h⟩, And.right⟩
      · rename_i hw
        exact iff_of_false (List.cons_ne_nil _ _) fun h => hw h.1

/-- **The shared queue is served exactly as far as its commands can be**: a request of an active
qpair leaves the front when its command can be served, and a pass empties the queue when every such
request's can. -/
theorem pendingBufQueue_served_iff (T : TcpTransport) :
    (∀ w : WaitingReq T, w.active = true → (w.takenOff {} true = true ↔ w.Suits)) ∧
      ∀ q : List (WaitingReq T),
        pollPendingBufQueue {} q = [] ↔ ∀ w ∈ q, w.active = true → w.Suits := by
  refine ⟨fun w hw => w.takenOff_iff_suits hw, fun q => ?_⟩
  rw [pollPendingBufQueue_eq_nil_iff]
  refine forall₂_congr fun w _ => ?_
  cases hw : w.active with
  | false => simp [WaitingReq.takenOff, hw]
  | true => simpa using w.takenOff_iff_suits hw

/-- An ECHO for no bytes. -/
def emptyEcho : WaitingReq sampleTransport where
  cmd := { opc := 0xD0, sgl := transportSgl 0 }
  ctx := {}
  needsBuffer := by decide
  zcopy_spec := by decide

/-- A READ of 4096 bytes. -/
def plainReadReq : WaitingReq sampleTransport where
  cmd := { opc := 0x02, sgl := transportSgl 4096 }
  ctx := {}
  needsBuffer := by decide
  zcopy_spec := by decide

/-- A READ of more than the transport moves. -/
def longReadReq : WaitingReq sampleTransport where
  cmd := { opc := 0x02, sgl := transportSgl 131073 }
  ctx := {}
  needsBuffer := by decide
  zcopy_spec := by decide

/-- **An ECHO for no bytes wedges the queue**, and so does a READ that is too long: with every
buffer to be had neither leaves the front, and a READ behind it, which alone is served at once, is
not reached. -/
theorem pendingBufQueue_wedged :
    emptyEcho.takenOff {} true = false ∧ longReadReq.takenOff {} true = false ∧
      pollPendingBufQueue {} [emptyEcho, plainReadReq] = [emptyEcho, plainReadReq] ∧
      pollPendingBufQueue {} [longReadReq, plainReadReq] = [longReadReq, plainReadReq] ∧
      pollPendingBufQueue {} [plainReadReq] = [] := by
  refine ⟨by decide, by decide, ?_, ?_, ?_⟩
  · rw [pollPendingBufQueue, if_neg (by decide)]
  · rw [pollPendingBufQueue, if_neg (by decide)]
  · rw [pollPendingBufQueue, if_pos (by decide)]
    rfl

end NdpHeaan
