import NdpHeaan.Tcp.Moves

/-!
# Tcp/Tallied — the counters and the queues of a TCP qpair

`nvmf_tcp_req_set_state` keeps `state_cntr`, and `nvmf_tcp_req_get` and `nvmf_tcp_req_put` keep the
two queues and `queue_depth`.  One lemma for each function of `Tcp/Qpair`: counters that count
(`Tallied`) count when the function is done.  On the way it is recorded that the entries of other
qpairs stay in line for buffers, and that a qpair without fused commands stays without them.
-/

open Machinery

namespace NdpHeaan

/-! ## Counters that count -/

/-- **The counters count.** -/
structure Tallied (Q : QpCtx) (s : TcpQpair) : Prop where
  cntr : s.stateCntr = census Q.slots fun t => (s.reqs t).state
  depth : s.queueDepth = s.working.length

namespace Tallied

variable {Q : QpCtx} {s : TcpQpair} {t : ℕ} {f : TcpReq → TcpReq}

theorem init (Q : QpCtx) (below : TcpReq) : Tallied Q (.init Q below) where
  cntr := by
    have hfree : ∀ t ∈ Q.slots, ((TcpQpair.init Q below).reqs t).state = .free := by
      intro t ht
      have hpos : t ≠ 0 := by
        have := (List.mem_range'_1.mp ht).1
        omega
      exact congrArg TcpReq.state (if_neg hpos)
    funext state
    change (if state = .free then (Q.resourceCount : ℤ) else 0) = _
    unfold census
    split_ifs with hs
    · rw [List.countP_eq_length.mpr fun t ht => by simp [hfree t ht, hs],
        QpCtx.slots, List.length_range']
    · rw [List.countP_eq_zero.mpr fun t ht => by simpa [hfree t ht] using Ne.symm hs]
      rfl
  depth := rfl

/-- **A request goes to another state.** -/
theorem setReq (h : Tallied Q s) (ht : t ∈ Q.slots) : Tallied Q (s.setReq t f) where
  cntr := by
    have hnodup : Q.slots.Nodup := List.nodup_range'
    change shift s.stateCntr _ _ = _
    rw [h.cntr, shift_census hnodup ht]
    congr 1
    funext u
    rw [TcpQpair.reqs_setReq, Function.update_apply]
    split_ifs <;> rfl
  depth := h.depth

/-- A request changes, but not its state. -/
theorem mark (h : Tallied Q s) (hstate : (f (s.reqs t)).state = (s.reqs t).state) :
    Tallied Q (s.setReq t f) where
  cntr := by
    rw [TcpQpair.stateCntr_setReq hstate, h.cntr]
    exact congrArg _ (funext fun u => (TcpQpair.field_setReq TcpReq.state hstate u).symm)
  depth := h.depth

theorem get (h : Tallied Q s) (ht : t ∈ Q.slots) : Tallied Q (nvmfTcpReqGet t s) where
  cntr := by
    unfold nvmfTcpReqGet
    dsimp only
    exact (h.setReq ht).cntr
  depth := by
    have hdepth := h.depth
    simp [nvmfTcpReqGet, hdepth]

theorem put (h : Tallied Q s) (ht : t ∈ s.working) (hslot : t ∈ Q.slots) :
    Tallied Q (nvmfTcpReqPut t s) where
  cntr := by
    unfold nvmfTcpReqPut
    dsimp only
    exact (h.setReq hslot).cntr
  depth := by
    change s.queueDepth - 1 = (s.working.erase t).length
    rw [List.length_erase_of_mem ht, h.depth]

end Tallied

/-! ## Queues that agree with the states -/

/-- **Every request is where its state says.** -/
structure Filed (Q : QpCtx) (s : TcpQpair) : Prop where
  slots : (s.working ++ s.free).Perm Q.slots
  free : ∀ t ∈ s.free, (s.reqs t).state = .free
  working : ∀ t ∈ s.working, (s.reqs t).state ≠ .free
  queued : ∀ t, .own t ∈ s.pending ↔ t ∈ s.working ∧ (s.reqs t).state = .needBuffer
  once : (s.pending.filterMap Waiter.slot?).Nodup

theorem SoundBut.filed {Q : QpCtx} {s : TcpQpair} (h : Sound Q s) : Filed Q s where
  slots := h.slots
  free t ht := (h.idle t ht).state
  working t ht := (h.rest t ht (Set.notMem_empty t)).ne_free
  queued t := by
    rw [h.queued t]
    exact and_congr_right fun _ => and_iff_right (Set.notMem_empty t)
  once := h.once

namespace Filed

variable {Q : QpCtx} {s : TcpQpair} {t : ℕ}

/-- Only its own entries of the line matter to a qpair. -/
theorem others (h : Filed Q s) {queue : List Waiter}
    (hq : queue.filterMap Waiter.slot? = s.pending.filterMap Waiter.slot?) :
    Filed Q { s with pending := queue } :=
  { h with
    queued := fun t => by
      rw [Waiter.own_mem_iff, hq, ← Waiter.own_mem_iff]
      exact h.queued t
    once := hq ▸ h.once }

theorem mem_free (h : Filed Q s) (ht : t ∈ Q.slots) : t ∈ s.free ↔ (s.reqs t).state = .free := by
  refine ⟨h.free t, fun hs => ?_⟩
  exact (List.mem_append.mp (h.slots.mem_iff.mpr ht)).resolve_left fun hw => h.working t hw hs

theorem mem_working (h : Filed Q s) (ht : t ∈ Q.slots) :
    t ∈ s.working ↔ (s.reqs t).state ≠ .free := by
  refine ⟨h.working t, fun hs => ?_⟩
  exact (List.mem_append.mp (h.slots.mem_iff.mpr ht)).resolve_right fun hf => hs (h.free t hf)

/-- In line once for buffers, or not at all. -/
theorem count_slots (h : Filed Q s) (ht : t ∈ Q.slots) :
    (s.pending.filterMap Waiter.slot?).count t =
      if (s.reqs t).state = .needBuffer then 1 else 0 := by
  have hmem : t ∈ s.pending.filterMap Waiter.slot? ↔ (s.reqs t).state = .needBuffer := by
    rw [← Waiter.own_mem_iff, h.queued t]
    refine and_iff_right_of_imp fun hs => (h.mem_working ht).mpr ?_
    rw [hs]
    decide
  split_ifs with hs
  · exact List.count_eq_one_of_mem h.once (hmem.mpr hs)
  · exact List.count_eq_zero.mpr fun hin => hs (hmem.mp hin)

/-- **The queue depth counts the requests that are not free.** -/
theorem depth_eq (h : Filed Q s) (hc : Tallied Q s) :
    s.queueDepth = Q.slots.countP fun t => (s.reqs t).state ≠ .free := by
  have hworking : s.working.countP (fun t => (s.reqs t).state ≠ .free) = s.working.length :=
    List.countP_eq_length.mpr fun t ht => by simpa using h.working t ht
  have hfree : s.free.countP (fun t => (s.reqs t).state ≠ .free) = 0 :=
    List.countP_eq_zero.mpr fun t ht => by simpa using h.free t ht
  rw [hc.depth, ← h.slots.countP_eq, List.countP_append, hworking, hfree, Nat.add_zero]

end Filed

/-! ## Commands that are not fused -/

/-- The request has nothing to do with a pair. -/
structure TcpReq.Unfused (r : TcpReq) : Prop where
  pair : r.fusedPair = none
  fuse : r.cmd.fuse = .none

/-- **No command of the qpair is fused.** -/
structure Unfused (Q : QpCtx) (s : TcpQpair) : Prop where
  first : s.fusedFirst = none
  reqs : ∀ t ∈ Q.slots, (s.reqs t).Unfused

theorem unfused_init (Q : QpCtx) (below : TcpReq) : Unfused Q (.init Q below) where
  first := rfl
  reqs t ht := by
    have hpos : t ≠ 0 := by
      have := (List.mem_range'_1.mp ht).1
      omega
    rw [show (TcpQpair.init Q below).reqs t = {} from if_neg hpos]
    exact ⟨rfl, rfl⟩

/-- The number of an entry that is not one of this qpair. -/
def Waiter.other? : Waiter → Option ℕ
  | .own _ => none
  | .other n => some n

theorem Waiter.filterMap_other?_erase (t : ℕ) : ∀ queue : List Waiter,
    (queue.erase (.own t)).filterMap other? = queue.filterMap other?
  | [] => rfl
  | .other n :: queue => by
      rw [List.erase_cons_tail (by simp), List.filterMap_cons, List.filterMap_cons,
        filterMap_other?_erase t queue]
  | .own u :: queue => by
      by_cases hu : u = t
      · rw [hu, List.erase_cons_head]
        rfl
      · rw [List.erase_cons_tail (by simpa using hu)]
        exact filterMap_other?_erase t queue

/-! ## A change that keeps count -/

/-- **The counters go along with the requests.** -/
structure Tallies (Q : QpCtx) (s s' : TcpQpair) : Prop where
  counted : Tallied Q s → Tallied Q s'
  line : s'.pending.filterMap Waiter.other? = s.pending.filterMap Waiter.other?
  unfused : Unfused Q s → Unfused Q s'

namespace Tallies

variable {Q : QpCtx} {s s' s'' : TcpQpair} {b : BufSupply} {t : ℕ} {f : TcpReq → TcpReq}

theorem refl (s : TcpQpair) : Tallies Q s s := ⟨id, rfl, id⟩

theorem trans (h : Tallies Q s s') (h' : Tallies Q s' s'') : Tallies Q s s'' where
  counted hs := h'.counted (h.counted hs)
  line := h'.line.trans h.line
  unfused hs := h'.unfused (h.unfused hs)

/-- The rest of a qpair does not matter. -/
theorem around {active : Bool} {recv : RecvState} {hdr : RxHdr} {cmd : TcpCmd}
    {pending : List Waiter} {pdus : List DataPdu} {log : List TcpEffect} (h : Tallies Q s s')
    (hline : pending.filterMap Waiter.other? = s'.pending.filterMap Waiter.other?) :
    Tallies Q s { s' with active, recv, hdr, cmd, pending, pdus, log } where
  counted hs := { h.counted hs with }
  line := hline.trans h.line
  unfused hs := { h.unfused hs with }

theorem emit {e : TcpEffect} (h : Tallies Q s s') : Tallies Q s (s'.emit e) := h.around rfl

theorem terminate (e : TermReq) : Tallies Q s (s.terminate e) := emit ((refl s).around rfl)

/-- A request leaves the line. -/
theorem unqueue (s : TcpQpair) (t : ℕ) :
    Tallies Q s { s with pending := s.pending.erase (.own t) } :=
  (refl s).around (Waiter.filterMap_other?_erase t _)

theorem unfused_setReq (hf : t ∈ Q.slots → (s.reqs t).Unfused → (f (s.reqs t)).Unfused)
    (h : Unfused Q s) : Unfused Q (s.setReq t f) where
  first := h.first
  reqs u hu := by
    rw [TcpQpair.reqs_setReq]
    split_ifs with hut
    · subst hut
      exact hf hu (h.reqs u hu)
    · exact h.reqs u hu

/-- A request changes, but not its state. -/
theorem mark (hstate : (f (s.reqs t)).state = (s.reqs t).state)
    (hpair : (f (s.reqs t)).fusedPair = (s.reqs t).fusedPair)
    (hfuse : (f (s.reqs t)).cmd.fuse = (s.reqs t).cmd.fuse) : Tallies Q s (s.setReq t f) where
  counted h := h.mark hstate
  line := rfl
  unfused := unfused_setReq fun _ h => ⟨hpair.trans h.pair, hfuse.trans h.fuse⟩

/-- A request goes to another state. -/
theorem setReq (ht : t ∈ Q.slots) (hpair : (f (s.reqs t)).fusedPair = (s.reqs t).fusedPair)
    (hfuse : (f (s.reqs t)).cmd.fuse = (s.reqs t).cmd.fuse) : Tallies Q s (s.setReq t f) where
  counted h := h.setReq ht
  line := rfl
  unfused := unfused_setReq fun _ h => ⟨hpair.trans h.pair, hfuse.trans h.fuse⟩

theorem get (ht : t ∈ Q.slots) : Tallies Q s (nvmfTcpReqGet t s) where
  counted h := h.get ht
  line := rfl
  unfused h := ⟨h.first, fun u hu =>
    ⟨(field_nvmfTcpReqGet TcpReq.fusedPair rfl u).trans (h.reqs u hu).pair,
      (field_nvmfTcpReqGet (fun r => r.cmd.fuse) rfl u).trans (h.reqs u hu).fuse⟩⟩

theorem put (ht : t ∈ s.working) (hslot : t ∈ Q.slots) : Tallies Q s (nvmfTcpReqPut t s) where
  counted h := h.put ht hslot
  line := rfl
  unfused h := ⟨h.first, fun u hu =>
    ⟨(field_nvmfTcpReqPut TcpReq.fusedPair rfl u).trans (h.reqs u hu).pair,
      (field_nvmfTcpReqPut (fun r => r.cmd.fuse) rfl u).trans (h.reqs u hu).fuse⟩⟩

/-! ## To the controller and to the host -/

theorem requestTransferOut (ht : t ∈ Q.slots) : Tallies Q s (requestTransferOut Q t s) :=
  emit (setReq ht rfl rfl)

theorem readyToExecute (ht : t ∈ Q.slots) (hfuse : (s.reqs t).cmd.fuse = .none) :
    Tallies Q s (readyToExecute Q t s) := by
  unfold NdpHeaan.readyToExecute
  dsimp only
  rw [if_pos hfuse]
  exact emit (setReq ht rfl rfl)

/-- A request with all it needs is executed. -/
theorem execute (ht : t ∈ Q.slots) (hfuse : (s.reqs t).cmd.fuse = .none) :
    Tallies Q s
      (NdpHeaan.readyToExecute Q t (s.setReq t fun r => { r with state := .readyToExecute })) := by
  have hready : Tallies Q s (s.setReq t fun r => { r with state := .readyToExecute }) :=
    setReq ht rfl rfl
  refine hready.trans (readyToExecute ht ?_)
  rw [TcpQpair.reqs_setReq_self]
  exact hfuse

/-! ## Back to the free queue -/

theorem giveUp : Tallies Q s (giveUp Q t s) := by
  have hrelease : Tallies Q s (releaseBuffers Q t s) := by
    unfold releaseBuffers
    dsimp only
    split_ifs
    · exact emit (mark rfl rfl rfl)
    · exact emit (refl s)
    · exact refl s
  exact hrelease.trans (mark rfl rfl rfl)

theorem completeReq (ht : t ∈ s.working) (hslot : t ∈ Q.slots)
    (hpair : (s.reqs t).fusedPair = none) : Tallies Q s (completeReq Q t s) := by
  by_cases hpdu : (s.reqs t).pdu.isSome
  · have hstay : NdpHeaan.completeReq Q t s = s := by
      rw [NdpHeaan.completeReq, atCompleted, if_pos hpdu]
    rw [hstay]
    exact refl s
  · rw [completeReq_of_unpaired (by simpa using hpdu) hpair]
    exact giveUp.trans (put (by rwa [working_giveUp]) hslot)

/-! ## In line for buffers -/

theorem withBuffers (h : Tallies Q s s') (ht : t ∈ Q.slots)
    (hfuse : (s'.reqs t).cmd.fuse = .none) : Tallies Q s (withBuffers Q t s') := by
  have hline : Tallies Q s { s' with pending := s'.pending.erase (.own t) } :=
    h.trans (unqueue s' t)
  unfold NdpHeaan.withBuffers
  dsimp only
  split_ifs
  · exact hline.trans (setReq ht rfl rfl)
  · exact (hline.trans (setReq ht rfl rfl)).around rfl
  · exact hline.trans (execute ht hfuse)

theorem atNeedBuffer (ht : t ∈ Q.slots) (hfuse : (s.reqs t).cmd.fuse = .none) :
    Tallies Q s (atNeedBuffer Q b t s) := by
  unfold NdpHeaan.atNeedBuffer
  dsimp only
  split
  · exact refl s
  cases tcpReqParseSgl Q.transport b (s.sglContext Q) (s.reqs t).cmd with
  | fatal e => exact terminate e
  | zcopy => exact refl s
  | noBuffers =>
    dsimp only
    split
    · exact mark rfl rfl rfl
    · exact refl s
  | pool iov =>
    have hpool : Tallies Q s ((s.setReq t fun r =>
        { r with length := r.cmd.sgl.length, iov, dataFromPool := true }).emit
          (.getBufs t iov.length)) := emit (mark rfl rfl rfl)
    dsimp only
    split
    · exact hpool
    · exact hpool.withBuffers ht (by simpa using hfuse)
  | inCapsule fromCtrl len =>
    have hset : Tallies Q s (s.setReq t fun r =>
        { r with length := len, iov := [len.toNat], dataFromPool := false }) := mark rfl rfl rfl
    cases fromCtrl with
    | true => exact hset.emit.withBuffers ht (by simpa using hfuse)
    | false => exact hset.withBuffers ht (by simpa using hfuse)

/-! ## `nvmf_tcp_req_process` -/

/-- Without fused commands there is no order to check. -/
theorem checkFusedOrdering_of_unfused (hfirst : s.fusedFirst = none)
    (hfuse : (s.reqs t).cmd.fuse = .none) : nvmfTcpCheckFusedOrdering Q t s = s := by
  unfold nvmfTcpCheckFusedOrdering
  rw [hfirst]
  unfold noteFused
  rw [hfuse]

/-- A request takes the command over. -/
theorem setCmd (cmd : TcpCmd) (hfuse : cmd.fuse = .none) :
    Tallies Q s (s.setReq t fun r => { r with cmd }) where
  counted h := h.mark rfl
  line := rfl
  unfused := unfused_setReq fun _ h => ⟨h.pair, hfuse⟩

/-- A request gets in line, and is tried right away. -/
theorem enqueue (h : Tallies Q s s') (ht : t ∈ Q.slots) (hfuse : (s'.reqs t).cmd.fuse = .none) :
    Tallies Q s (NdpHeaan.atNeedBuffer Q b t
      { s'.setReq t fun r => { r with state := .needBuffer } with
        pending := s'.pending ++ [.own t] }) := by
  have hset : Tallies Q s (s'.setReq t fun r => { r with state := .needBuffer }) :=
    h.trans (setReq ht rfl rfl)
  have hline : (s'.pending ++ [Waiter.own t]).filterMap Waiter.other? =
      s'.pending.filterMap Waiter.other? := by
    rw [List.filterMap_append]
    exact List.append_nil _
  refine (hset.around hline).trans (atNeedBuffer ht ?_)
  dsimp only
  rw [TcpQpair.reqs_setReq_self]
  exact hfuse

theorem atNew (ht : t ∈ Q.slots) (hfirst : s.fusedFirst = none) (hfuse : s.cmd.fuse = .none) :
    Tallies Q s (atNew Q b t s) := by
  have hcheck : nvmfTcpCheckFusedOrdering Q t ((s.setReq t fun r => { r with cmd := s.cmd }).emit
      (.arrive (s.reqs t).arrival s.cmd.fuse)) = (s.setReq t fun r => { r with cmd := s.cmd }).emit
      (.arrive (s.reqs t).arrival s.cmd.fuse) :=
    checkFusedOrdering_of_unfused hfirst (by simpa using hfuse)
  unfold NdpHeaan.atNew
  dsimp only
  rw [hcheck]
  generalize spdkNvmfReqGetXfer Q.transport s.cmd = xfer
  generalize hs₁ : (((s.setReq t fun r => { r with cmd := s.cmd }).emit
    (.arrive (s.reqs t).arrival s.cmd.fuse)).setReq t fun r => { r with xfer }) = s₁
  have hnew : Tallies Q s s₁ := hs₁ ▸ (emit (setCmd s.cmd hfuse)).trans (mark rfl rfl rfl)
  have hplain : (s₁.reqs t).cmd.fuse = .none := by
    rw [← hs₁]
    simpa using hfuse
  have hready : Tallies Q s { s₁ with recv := .awaitPduReady } := hnew.around rfl
  have hwait : Tallies Q s (NdpHeaan.atNeedBuffer Q b t
      (let s₂ := if s.hdr.hasData Q.conn then
          s₁.setReq t fun r => { r with hasInCapsuleData := true }
        else { s₁ with recv := .awaitPduReady }
      { s₂.setReq t fun r => { r with state := .needBuffer } with
        pending := s₂.pending ++ [.own t] })) := by
    dsimp only
    cases s.hdr.hasData Q.conn with
    | true =>
      have hin : Tallies Q s (s₁.setReq t fun r => { r with hasInCapsuleData := true }) :=
        hnew.trans (mark rfl rfl rfl)
      exact hin.enqueue ht (by simpa using hplain)
    | false => exact hready.enqueue ht hplain
  cases xfer with
  | bidirectional => exact (hready.trans (mark rfl rfl rfl)).trans (requestTransferOut ht)
  | none => exact hready.trans (execute ht hplain)
  | hostToController => exact hwait
  | controllerToHost => exact hwait

/-- **`nvmf_tcp_req_process` keeps count.** -/
theorem process (h : Unfused Q s) (ht : t ∈ s.working) (hslot : t ∈ Q.slots)
    (hcmd : (s.reqs t).state = .new → s.cmd.fuse = .none) :
    Tallies Q s (nvmfTcpReqProcess Q b t s) := by
  have hplain := h.reqs t hslot
  unfold nvmfTcpReqProcess
  split
  · dsimp only
    generalize hs₁ : (if (s.reqs t).state = .needBuffer then
      { s with pending := s.pending.erase (.own t) } else s) = s₁
    have hline : Tallies Q s s₁ ∧ s₁.working = s.working := by
      subst hs₁
      split
      · exact ⟨unqueue s t, rfl⟩
      · exact ⟨refl s, rfl⟩
    have hset : Tallies Q s (s₁.setReq t fun r => { r with state := .completed }) :=
      hline.1.trans (setReq hslot rfl rfl)
    exact hset.trans (completeReq (hline.2 ▸ ht) hslot ((hset.unfused h).reqs t hslot).pair)
  · cases hs : (s.reqs t).state with
    | new => exact atNew hslot h.first (hcmd hs)
    | needBuffer => exact atNeedBuffer hslot hplain.fuse
    | readyToExecute => exact readyToExecute hslot hplain.fuse
    | executed | readyToComplete => exact requestTransferOut hslot
    | completed => exact completeReq ht hslot hplain.pair
    | free | transferringH2c | awaitingR2tAck | executing | transferringC2h => exact refl s

/-! ## What moves a request on -/

/-- **A request is put in a state and processed.** -/
theorem processed (hc : Tallies Q s s') (h : Unfused Q s) (ht : t ∈ s'.working)
    (hslot : t ∈ Q.slots) (hstate : (f (s'.reqs t)).state ≠ .new)
    (hpair : (f (s'.reqs t)).fusedPair = (s'.reqs t).fusedPair)
    (hfuse : (f (s'.reqs t)).cmd.fuse = (s'.reqs t).cmd.fuse) :
    Tallies Q s (nvmfTcpReqProcess Q {} t (s'.setReq t f)) := by
  have hset : Tallies Q s (s'.setReq t f) := hc.trans (setReq hslot hpair hfuse)
  refine hset.trans (process (hset.unfused h) ht hslot fun hs => absurd ?_ hstate)
  rwa [TcpQpair.reqs_setReq_self] at hs

theorem requestFree (hc : Tallies Q s s') (h : Unfused Q s) (ht : t ∈ s'.working)
    (hslot : t ∈ Q.slots) : Tallies Q s (nvmfTcpRequestFree Q t s') :=
  hc.processed h ht hslot nofun rfl rfl

theorem dataReady (hc : Tallies Q s s') (h : Unfused Q s) (ht : t ∈ s'.working)
    (hslot : t ∈ Q.slots) : Tallies Q s (dataReady Q t s') :=
  (hc.emit (e := .dataReady (s'.reqs t).arrival (s'.reqs t).received
    (s'.reqs t).length.toNat)).processed (f := fun r => { r with state := .readyToExecute }) h ht
      hslot nofun rfl rfl

theorem dataCorrupt (hc : Tallies Q s s') (h : Unfused Q s) (ht : t ∈ s'.working)
    (hslot : t ∈ Q.slots) : Tallies Q s (dataCorrupt Q t s') :=
  hc.processed h ht hslot nofun rfl rfl

theorem capsuleCmdHdrHandle (h : Unfused Q s) (hslots : ∀ t ∈ s.free, t ∈ Q.slots)
    (hcmd : s.cmd.fuse = .none) : Tallies Q s (nvmfTcpCapsuleCmdHdrHandle Q b s) := by
  unfold nvmfTcpCapsuleCmdHdrHandle
  split
  · split_ifs
    · exact refl s
    · exact (refl s).around rfl
  · rename_i t rest hfree
    have hslot : t ∈ Q.slots := hslots t (hfree ▸ List.mem_cons_self ..)
    have hget : Tallies Q s (nvmfTcpReqGet t s) := get hslot
    have hwork : t ∈ (nvmfTcpReqGet t s).working := List.mem_append_right _ (by simp)
    exact hget.trans (process (hget.unfused h) hwork hslot fun _ => hcmd)

theorem dataCrc32CalcDone {p : DataPdu} {ok : Bool} (h : Unfused Q s) (ht : p.slot ∈ s.working)
    (hslot : p.slot ∈ Q.slots) : Tallies Q s (dataCrc32CalcDone Q p ok s) := by
  unfold NdpHeaan.dataCrc32CalcDone
  dsimp only
  generalize hs₁ : (if ok = true then s else
    (s.setReq p.slot fun r => { r with status := .transientTransportError }).emit
      (.mismatch (s.reqs p.slot).arrival)) = s₁
  have hc : Tallies Q s s₁ ∧ s₁.working = s.working := by
    subst hs₁
    split
    · exact ⟨refl s, rfl⟩
    · exact ⟨emit (mark rfl rfl rfl), rfl⟩
  have hout : Tallies Q s { s₁ with pdus := s.pdus.erase p } := hc.1.around rfl
  have hwork : p.slot ∈ s₁.working := hc.2 ▸ ht
  split
  · unfold nvmfTcpCapsuleCmdPayloadHandle
    dsimp only
    split_ifs
    · exact hout.trans (terminate _)
    · exact (hout.trans (mark rfl rfl rfl)).dataCorrupt h hwork hslot
    · exact (hout.trans (mark rfl rfl rfl)).dataReady h hwork hslot
  · unfold nvmfTcpH2cDataPayloadHandle
    dsimp only
    split_ifs
    · exact (hout.trans (mark rfl rfl rfl)).dataCorrupt h hwork hslot
    · exact (hout.trans (mark rfl rfl rfl)).dataReady h hwork hslot
    · exact hout.trans (mark rfl rfl rfl)

theorem reqPduWriteDone {success : Bool} (h : Unfused Q s) (ht : t ∈ s.working)
    (hslot : t ∈ Q.slots) : Tallies Q s (reqPduWriteDone Q t success s) := by
  have hout : Tallies Q s (s.setReq t fun r => { r with pdu := none }) := mark rfl rfl rfl
  have hfree := hout.requestFree h ht hslot
  unfold NdpHeaan.reqPduWriteDone
  dsimp only
  split
  · exact hfree
  cases (s.reqs t).pdu with
  | none => exact hfree
  | some out =>
    cases out with
    | capsuleResp => exact hfree
    | c2hData digesting =>
      dsimp only
      split
      · exact hfree
      · exact hout.trans (mark rfl rfl rfl)
    | r2t =>
      unfold nvmfTcpR2tComplete
      dsimp only
      have hset := hout.trans (setReq (f := fun r => { r with state := .transferringH2c }) hslot
        rfl rfl)
      split
      · exact hset.dataReady h ht hslot
      · exact hset

theorem reqPduWriteFailed (h : Unfused Q s) (ht : t ∈ s.working) (hslot : t ∈ Q.slots) :
    Tallies Q s (reqPduWriteFailed Q t s) := by
  have hout : Tallies Q s (s.setReq t fun r => { r with pdu := none }) := mark rfl rfl rfl
  unfold NdpHeaan.reqPduWriteFailed
  dsimp only
  split
  · exact hout.requestFree h ht hslot
  · exact hout.around rfl

theorem abortRequest (h : Unfused Q s) (ht : t ∈ s.working) (hslot : t ∈ Q.slots) :
    Tallies Q s (nvmfTcpQpairAbortRequest Q t s) := by
  unfold nvmfTcpQpairAbortRequest
  split
  · exact (unqueue s t).processed h ht hslot nofun rfl rfl
  · exact refl s

theorem h2cDataHdrHandle {cccid ttag : UInt16} {datao datal : UInt32} :
    Tallies Q s (nvmfTcpH2cDataHdrHandle Q cccid ttag datao datal s) := by
  unfold nvmfTcpH2cDataHdrHandle
  dsimp only
  split_ifs
  any_goals exact terminate _
  exact emit ((refl s).around rfl)

end Tallies

/-! ## Steps -/

/-- The command that is received, if one is, is not fused. -/
def TcpEvent.Unfused : TcpEvent → Prop
  | .capsule _ cmd _ => cmd.fuse = .none
  | _ => True

/-- The event is not one of the other qpairs. -/
def TcpEvent.isOwn : TcpEvent → Bool
  | .others _ => false
  | _ => true

/-- **A step of a sound qpair keeps count.** -/
theorem Tallies.step {Q : QpCtx} {s s' : TcpQpair} {e : TcpEvent} (h : Sound Q s)
    (hu : Unfused Q s) (he : e.Unfused) (hown : e.isOwn = true) (hstep : tcpStep Q s e = some s') :
    Tallies Q s s' := by
  have hslot : ∀ {t}, t ∈ s.working → t ∈ Q.slots := fun ht => h.mem_slots_of_working ht
  cases e with
  | capsule hdr cmd b =>
    obtain rfl := Option.some.inj hstep
    have hread : Tallies Q s { s with hdr, cmd, recv := .awaitReq } :=
      (refl s).around rfl
    have hfree : ∀ t ∈ s.free, t ∈ Q.slots := fun t ht => h.mem_slots.mpr (.inr ht)
    exact hread.trans (capsuleCmdHdrHandle (hread.unfused hu) hfree he)
  | nextPdu hdr cmd =>
    obtain rfl := Option.some.inj hstep
    exact (refl s).around rfl
  | h2cData cccid ttag datao datal =>
    obtain rfl := Option.some.inj hstep
    exact h2cDataHdrHandle
  | dataDone p ok =>
    obtain ⟨⟨hp, hlen, -⟩, ⟨⟩⟩ := Option.ite_none_right_eq_some.mp hstep
    have hwork := (h.data p hp hlen).1
    exact dataCrc32CalcDone hu hwork (hslot hwork)
  | poll t b =>
    obtain ⟨⟨ht, hs⟩, ⟨⟩⟩ := Option.ite_none_right_eq_some.mp hstep
    exact process hu ht (hslot ht) fun hnew => by cases hs.symm.trans hnew
  | complete t sc =>
    obtain ⟨⟨ht, hs⟩, ⟨⟩⟩ := Option.ite_none_right_eq_some.mp hstep
    exact (refl s).processed hu ht (hslot ht) nofun rfl rfl
  | digestDone t =>
    obtain ⟨⟨ht, hpdu⟩, ⟨⟩⟩ := Option.ite_none_right_eq_some.mp hstep
    exact mark rfl rfl rfl
  | nextPart t digesting =>
    obtain ⟨⟨ht, hpdu, -⟩, ⟨⟩⟩ := Option.ite_none_right_eq_some.mp hstep
    exact mark rfl rfl rfl
  | writeDone t success =>
    obtain ⟨⟨ht, hpdu, -⟩, ⟨⟩⟩ := Option.ite_none_right_eq_some.mp hstep
    exact reqPduWriteDone hu ht (hslot ht)
  | writeFailed t =>
    obtain ⟨⟨ht, hpdu⟩, ⟨⟩⟩ := Option.ite_none_right_eq_some.mp hstep
    exact reqPduWriteFailed hu ht (hslot ht)
  | abort t =>
    obtain ⟨ht, ⟨⟩⟩ := Option.ite_none_right_eq_some.mp hstep
    exact abortRequest hu ht (hslot ht)
  | others queue => cases hown
  | disconnect =>
    obtain rfl := Option.some.inj hstep
    exact (refl s).around rfl

end NdpHeaan
