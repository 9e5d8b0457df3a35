import NdpHeaan.Tcp.SoundStep

/-!
# Tcp/Leaves — what happens to the requests, and leaves the receiver alone

Most of `nvmf_tcp_req_process` has nothing to do with the receiver: it may end it, but does not move
it to another state, takes no request from the free queue, and puts none in line for buffers.  The
two cases that do are NEW, and NEED_BUFFER of a command with its data in the capsule.  What neither
moves nor ends it is `Steady`.
-/

namespace NdpHeaan

/-- **The receiver is left alone**, or it is ended. -/
structure Leaves (s s' : TcpQpair) : Prop where
  recv : s'.recv = s.recv ∨ s'.recv = .quiescing
  hdr : s'.hdr = s.hdr
  arrivals : s'.arrivals = s.arrivals
  pdus : s'.pdus = s.pdus
  working : s'.working ⊆ s.working
  cmds : ∀ t, (s'.reqs t).cmd = (s.reqs t).cmd
  /-- What is in line for buffers was there before. -/
  waits : ∀ t, (s'.reqs t).state = .needBuffer →
    (s.reqs t).state = .needBuffer ∧ (s'.reqs t).xfer = (s.reqs t).xfer

namespace Leaves

variable {Q : QpCtx} {s s' s'' : TcpQpair} {t u n : ℕ} {f : TcpReq → TcpReq}

theorem refl (s : TcpQpair) : Leaves s s :=
  ⟨Or.inl rfl, rfl, rfl, rfl, List.Subset.refl _, fun _ => rfl, fun _ h => ⟨h, rfl⟩⟩

theorem trans (h : Leaves s s') (h' : Leaves s' s'') : Leaves s s'' where
  recv := by
    rcases h'.recv with hr | hr
    · rw [hr]
      exact h.recv
    · exact Or.inr hr
  hdr := h'.hdr.trans h.hdr
  arrivals := h'.arrivals.trans h.arrivals
  pdus := h'.pdus.trans h.pdus
  working := List.Subset.trans h'.working h.working
  cmds t := (h'.cmds t).trans (h.cmds t)
  waits t ht := by
    obtain ⟨hs', hxfer'⟩ := h'.waits t ht
    obtain ⟨hs, hxfer⟩ := h.waits t hs'
    exact ⟨hs, hxfer'.trans hxfer⟩

/-- A change of one request that does not put it in line. -/
theorem setReq (hcmd : (f (s.reqs t)).cmd = (s.reqs t).cmd)
    (h : (f (s.reqs t)).state = .needBuffer → (s.reqs t).state = .needBuffer ∧
      (f (s.reqs t)).xfer = (s.reqs t).xfer) : Leaves s (s.setReq t f) where
  recv := Or.inl rfl
  hdr := rfl
  arrivals := rfl
  pdus := rfl
  working := List.Subset.refl _
  cmds := TcpQpair.field_setReq TcpReq.cmd hcmd
  waits u hu := by
    rw [TcpQpair.reqs_setReq] at hu ⊢
    split_ifs at hu ⊢ with hut
    · subst hut
      exact h hu
    · exact ⟨hu, rfl⟩

/-- A request that goes to another state is not in line. -/
theorem setState (hcmd : (f (s.reqs t)).cmd = (s.reqs t).cmd)
    (h : (f (s.reqs t)).state ≠ .needBuffer) : Leaves s (s.setReq t f) :=
  setReq hcmd fun hs => absurd hs h

/-- A request that keeps what is read of it. -/
theorem mark (hstate : (f (s.reqs t)).state = (s.reqs t).state)
    (hcmd : (f (s.reqs t)).cmd = (s.reqs t).cmd) (hxfer : (f (s.reqs t)).xfer = (s.reqs t).xfer) :
    Leaves s (s.setReq t f) :=
  setReq hcmd fun hs => ⟨hstate ▸ hs, hxfer⟩

/-- The rest of a qpair does not matter. -/
theorem around (h : Leaves s s') (hrecv : s''.recv = s'.recv) (hhdr : s''.hdr = s'.hdr)
    (harrivals : s''.arrivals = s'.arrivals) (hpdus : s''.pdus = s'.pdus)
    (hreqs : s''.reqs = s'.reqs) (hworking : s''.working ⊆ s'.working) : Leaves s s'' :=
  h.trans ⟨Or.inl hrecv, hhdr, harrivals, hpdus, hworking, fun t => by rw [hreqs], fun t ht => by
    rw [hreqs] at ht ⊢
    exact ⟨ht, rfl⟩⟩

theorem emit {e : TcpEffect} (h : Leaves s s') : Leaves s (s'.emit e) :=
  h.around rfl rfl rfl rfl rfl (List.Subset.refl _)

theorem terminate (e : TermReq) : Leaves s (s.terminate e) :=
  ⟨Or.inr rfl, rfl, rfl, rfl, List.Subset.refl _, fun _ => rfl, fun _ h => ⟨h, rfl⟩⟩

end Leaves

/-- **The receiver stays where it is.** -/
structure Steady (s s' : TcpQpair) : Prop extends Leaves s s' where
  stays : s'.recv = s.recv
  active : s'.active = s.active
  command : s'.cmd = s.cmd

namespace Steady

variable {Q : QpCtx} {s s' s'' : TcpQpair} {t u n : ℕ} {f : TcpReq → TcpReq}

theorem refl (s : TcpQpair) : Steady s s := ⟨.refl s, rfl, rfl, rfl⟩

theorem trans (h : Steady s s') (h' : Steady s' s'') : Steady s s'' :=
  ⟨h.toLeaves.trans h'.toLeaves, h'.stays.trans h.stays, h'.active.trans h.active,
    h'.command.trans h.command⟩

theorem setState (hcmd : (f (s.reqs t)).cmd = (s.reqs t).cmd)
    (h : (f (s.reqs t)).state ≠ .needBuffer) : Steady s (s.setReq t f) :=
  ⟨.setState hcmd h, rfl, rfl, rfl⟩

theorem mark (hstate : (f (s.reqs t)).state = (s.reqs t).state)
    (hcmd : (f (s.reqs t)).cmd = (s.reqs t).cmd) (hxfer : (f (s.reqs t)).xfer = (s.reqs t).xfer) :
    Steady s (s.setReq t f) :=
  ⟨.mark hstate hcmd hxfer, rfl, rfl, rfl⟩

theorem around (h : Steady s s') (hactive : s''.active = s'.active)
    (hcommand : s''.cmd = s'.cmd) (hrecv : s''.recv = s'.recv) (hhdr : s''.hdr = s'.hdr)
    (harrivals : s''.arrivals = s'.arrivals)
    (hpdus : s''.pdus = s'.pdus) (hreqs : s''.reqs = s'.reqs)
    (hworking : s''.working ⊆ s'.working) : Steady s s'' :=
  ⟨h.toLeaves.around hrecv hhdr harrivals hpdus hreqs hworking, hrecv.trans h.stays,
    hactive.trans h.active, hcommand.trans h.command⟩

theorem emit {e : TcpEffect} (h : Steady s s') : Steady s (s'.emit e) :=
  h.around rfl rfl rfl rfl rfl rfl rfl (List.Subset.refl _)

/-! ## To the controller and to the host -/

theorem requestTransferOut : Steady s (requestTransferOut Q t s) :=
  emit (setState rfl (by nofun))

theorem execReq : Steady s (execReq t s) := emit (setState rfl (by nofun))

theorem unpair : Steady s (unpair t u s) :=
  (mark rfl rfl rfl).trans (mark rfl rfl rfl)

theorem readyToExecute : Steady s (readyToExecute Q t s) := by
  unfold NdpHeaan.readyToExecute
  dsimp only
  split
  · exact execReq
  split
  · exact (mark rfl rfl rfl).trans requestTransferOut
  split
  · exact refl s
  split
  · exact refl s
  split
  · exact (execReq.trans execReq).trans unpair
  · exact (execReq.trans execReq).trans unpair
  · exact execReq

/-! ## Back to the free queue -/

theorem releaseBuffers : Steady s (releaseBuffers Q t s) := by
  unfold NdpHeaan.releaseBuffers
  dsimp only
  split
  · exact emit (mark rfl rfl rfl)
  split
  · exact emit (refl s)
  · exact refl s

theorem put : Steady s (nvmfTcpReqPut t s) :=
  (setState (f := fun r => { r with state := .free }) rfl (by nofun)).around rfl rfl rfl rfl
    rfl rfl rfl List.erase_subset

theorem kickReady {complete : ℕ → TcpQpair → TcpQpair}
    (h : ∀ u s, Steady s (complete u s)) : Steady s (kickReady Q complete u s) := by
  unfold NdpHeaan.kickReady
  split
  · exact readyToExecute
  · exact (setState rfl (by nofun)).trans (h u _)

theorem atCompleted : ∀ (n t : ℕ) (s : TcpQpair), Steady s (atCompleted Q n t s)
  | 0, _, s => refl s
  | n + 1, t, s => by
      unfold NdpHeaan.atCompleted
      split
      · exact refl s
      have hrelease := (releaseBuffers (Q := Q) (s := s) (t := t)).trans
        (mark (t := t) (f := fun r => { r with length := 0, iov := [], fusedFailed := false })
          rfl rfl rfl)
      dsimp only
      split
      · exact hrelease.trans put
      · rename_i u _
        have hfail := hrelease.trans
          (mark (t := u) (f := fun r => { r with fusedFailed := true }) rfl rfl rfl)
        refine Steady.trans (Steady.trans ?_ (mark rfl rfl rfl)) put
        split
        · exact hfail.trans (kickReady fun u s => atCompleted n u s)
        · exact hfail

theorem completeReq : Steady s (completeReq Q t s) := atCompleted _ t s

/-! ## Fused commands -/

theorem failFirst : Steady s (failFirst Q u s) := by
  have hfail : Steady s (s.setReq u fun r => { r with fusedFailed := true }) := mark rfl rfl rfl
  have hkick : Steady s (if ((s.setReq u fun r => { r with fusedFailed := true }).reqs u).state
      = .readyToExecute then NdpHeaan.kickReady Q (NdpHeaan.completeReq Q) u
        (s.setReq u fun r => { r with fusedFailed := true })
      else s.setReq u fun r => { r with fusedFailed := true }) := by
    split
    · exact hfail.trans (kickReady fun _ _ => completeReq)
    · exact hfail
  exact hkick.around rfl rfl rfl rfl rfl rfl rfl (List.Subset.refl _)

theorem noteFused : Steady s (noteFused t s) := by
  unfold NdpHeaan.noteFused
  split
  · exact (refl s).around rfl rfl rfl rfl rfl rfl rfl (List.Subset.refl _)
  · exact mark rfl rfl rfl
  · exact refl s

theorem checkFusedOrdering : Steady s (nvmfTcpCheckFusedOrdering Q t s) := by
  unfold nvmfTcpCheckFusedOrdering
  split
  · exact noteFused
  split
  · split
    · rename_i u _ _ _
      have hlink : Steady s (s.setReq u fun r => { r with fusedPair := some t }) := mark rfl rfl rfl
      have hback := hlink.trans (mark (t := t) (f := fun r => { r with fusedPair := some u })
        rfl rfl rfl)
      exact hback.around rfl rfl rfl rfl rfl rfl rfl (List.Subset.refl _)
    · exact failFirst.trans noteFused
  · exact noteFused

/-! ## In line for buffers -/

theorem sendR2tPdu : Steady s (nvmfTcpSendR2tPdu t s) := setState rfl (by nofun)

/-- A request with buffers, where its data is not in the capsule. -/
theorem withBuffers (h : (s.reqs t).xfer = .hostToController → (s.reqs t).dataFromPool = true) :
    Steady s (withBuffers Q t s) := by
  have hline : Steady s { s with pending := s.pending.erase (.own t) } :=
    (refl s).around rfl rfl rfl rfl rfl rfl rfl (List.Subset.refl _)
  unfold NdpHeaan.withBuffers
  dsimp only
  split
  · rename_i hxfer
    rw [if_pos (h hxfer)]
    exact hline.trans sendR2tPdu
  · exact (hline.trans (setState rfl (by nofun))).trans readyToExecute

/-- **NEED_BUFFER leaves the receiver where it is**, unless the SGL is refused or the host's data is
in the capsule. -/
theorem atNeedBuffer {b : BufSupply}
    (h : (s.reqs t).xfer = .hostToController → (s.reqs t).cmd.sgl.isInCapsule = false)
    (hparse : ∀ e, tcpReqParseSgl Q.transport b (s.sglContext Q) (s.reqs t).cmd ≠ .fatal e) :
    Steady s (atNeedBuffer Q b t s) := by
  unfold NdpHeaan.atNeedBuffer
  dsimp only
  split
  · exact refl s
  split
  · rename_i e he
    exact absurd he (hparse e)
  · exact refl s
  · split
    · exact mark rfl rfl rfl
    · exact refl s
  · rename_i iov _
    have hpool : Steady s ((s.setReq t fun r =>
        { r with length := r.cmd.sgl.length, iov, dataFromPool := true }).emit
          (.getBufs t iov.length)) := emit (mark rfl rfl rfl)
    split
    · exact hpool
    · refine hpool.trans (withBuffers fun _ => ?_)
      rw [TcpQpair.reqs_emit, TcpQpair.reqs_setReq_self]
  · rename_i fromCtrl len hin
    have hset : Steady s (s.setReq t fun r =>
        { r with length := len, iov := [len.toNat], dataFromPool := false }) := mark rfl rfl rfl
    have hctrl : Steady s (if fromCtrl = true then (s.setReq t fun r =>
        { r with length := len, iov := [len.toNat], dataFromPool := false }).emit (.getCtrl t)
        else s.setReq t fun r =>
          { r with length := len, iov := [len.toNat], dataFromPool := false }) := by
      split
      · exact hset.emit
      · exact hset
    refine hctrl.trans (withBuffers fun hxfer => ?_)
    have hself : (s.reqs t).xfer = .hostToController := by
      split at hxfer
      · rwa [TcpQpair.reqs_emit, TcpQpair.reqs_setReq_self] at hxfer
      · rwa [TcpQpair.reqs_setReq_self] at hxfer
    exact absurd (parseSgl_inCapsule hin).1 (by rw [h hself]; decide)

end Steady

namespace Leaves

variable {Q : QpCtx} {s s' s'' : TcpQpair} {t u n : ℕ} {f : TcpReq → TcpReq}

/-- NEED_BUFFER may end the receiver, where the SGL is refused. -/
theorem atNeedBuffer {b : BufSupply}
    (h : (s.reqs t).xfer = .hostToController → (s.reqs t).cmd.sgl.isInCapsule = false) :
    Leaves s (atNeedBuffer Q b t s) := by
  by_cases hparse : ∃ e, tcpReqParseSgl Q.transport b (s.sglContext Q) (s.reqs t).cmd = .fatal e
  · obtain ⟨e, he⟩ := hparse
    unfold NdpHeaan.atNeedBuffer
    dsimp only
    split
    · exact refl s
    · rw [he]
      exact terminate e
  · exact (Steady.atNeedBuffer h fun e he => hparse ⟨e, he⟩).toLeaves

/-- **A request that is not NEW leaves the receiver alone.** -/
theorem process {b : BufSupply} (hnew : (s.reqs t).state ≠ .new)
    (hwait : (s.reqs t).state = .needBuffer → (s.reqs t).xfer = .hostToController →
      (s.reqs t).cmd.sgl.isInCapsule = false) : Leaves s (nvmfTcpReqProcess Q b t s) := by
  unfold nvmfTcpReqProcess
  split
  · have hline : Leaves s (if (s.reqs t).state = .needBuffer then
        { s with pending := s.pending.erase (.own t) } else s) := by
      split
      · exact (refl s).around rfl rfl rfl rfl rfl (List.Subset.refl _)
      · exact refl s
    exact (hline.trans (setState rfl (by nofun))).trans Steady.completeReq.toLeaves
  split
  · contradiction
  · rename_i hs
    exact atNeedBuffer (hwait hs)
  · exact Steady.readyToExecute.toLeaves
  · exact Steady.requestTransferOut.toLeaves
  · exact Steady.requestTransferOut.toLeaves
  · exact Steady.completeReq.toLeaves
  all_goals exact refl s

/-! ## What moves a request on -/

/-- A request is moved on to a state past NEED_BUFFER, and run. -/
theorem moveOn {b : BufSupply} (hcmd : (f (s.reqs t)).cmd = (s.reqs t).cmd)
    (hnew : (f (s.reqs t)).state ≠ .new) (hwait : (f (s.reqs t)).state ≠ .needBuffer) :
    Leaves s (nvmfTcpReqProcess Q b t (s.setReq t f)) := by
  have hself : (s.setReq t f).reqs t = f (s.reqs t) := TcpQpair.reqs_setReq_self ..
  refine (setState hcmd hwait).trans (process ?_ ?_)
  · rwa [hself]
  · intro hs
    rw [hself] at hs
    exact absurd hs hwait

theorem dataReady : Leaves s (dataReady Q t s) := by
  unfold NdpHeaan.dataReady
  refine (emit (setState rfl (by nofun))).trans (process ?_ ?_)
  · rw [TcpQpair.reqs_emit, TcpQpair.reqs_setReq_self]
    nofun
  · rw [TcpQpair.reqs_emit, TcpQpair.reqs_setReq_self]
    nofun

theorem dataCorrupt : Leaves s (dataCorrupt Q t s) := moveOn rfl (by nofun) (by nofun)

theorem requestFree : Leaves s (nvmfTcpRequestFree Q t s) := moveOn rfl (by nofun) (by nofun)

theorem r2tComplete : Leaves s (nvmfTcpR2tComplete Q t s) := by
  have hack : Leaves s (s.setReq t fun r => { r with state := .transferringH2c }) :=
    setState rfl (by nofun)
  unfold nvmfTcpR2tComplete
  dsimp only
  split
  · exact hack.trans dataReady
  · exact hack

theorem capsuleCmdPayloadHandle {p : DataPdu} :
    Leaves s (nvmfTcpCapsuleCmdPayloadHandle Q p s) := by
  unfold nvmfTcpCapsuleCmdPayloadHandle
  split
  · exact terminate _
  dsimp only
  split
  · exact (mark rfl rfl rfl).trans dataCorrupt
  · exact (mark rfl rfl rfl).trans dataReady

theorem h2cDataPayloadHandle {p : DataPdu} : Leaves s (nvmfTcpH2cDataPayloadHandle Q p s) := by
  unfold nvmfTcpH2cDataPayloadHandle
  dsimp only
  split
  · split
    · exact (mark rfl rfl rfl).trans dataCorrupt
    · exact (mark rfl rfl rfl).trans dataReady
  · exact mark rfl rfl rfl

/-- The data of a PDU is handled, and the PDU dropped. -/
theorem dataCrc32CalcDone {p : DataPdu} {ok : Bool} :
    Leaves { s with pdus := s.pdus.erase p } (dataCrc32CalcDone Q p ok s) := by
  have hdrop : Leaves { s with pdus := s.pdus.erase p } { (if ok then s else
      (s.setReq p.slot fun r => { r with status := .transientTransportError }).emit
        (.mismatch (s.reqs p.slot).arrival)) with pdus := s.pdus.erase p } := by
    cases ok with
    | true => exact refl _
    | false =>
      have hmark : Leaves s (s.setReq p.slot fun r =>
        { r with status := .transientTransportError }) := mark rfl rfl rfl
      exact ⟨Or.inl rfl, rfl, rfl, rfl, List.Subset.refl _, hmark.cmds, hmark.waits⟩
  unfold NdpHeaan.dataCrc32CalcDone
  dsimp only
  split
  · exact hdrop.trans capsuleCmdPayloadHandle
  · exact hdrop.trans h2cDataPayloadHandle

theorem reqPduWriteDone {success : Bool} : Leaves s (reqPduWriteDone Q t success s) := by
  have hdone : Leaves s (s.setReq t fun r => { r with pdu := none }) := mark rfl rfl rfl
  unfold NdpHeaan.reqPduWriteDone
  dsimp only
  split
  · exact hdone.trans requestFree
  split
  · exact hdone.trans r2tComplete
  · split
    · exact hdone.trans requestFree
    · exact hdone.trans (mark rfl rfl rfl)
  · exact hdone.trans requestFree

theorem reqPduWriteFailed : Leaves s (reqPduWriteFailed Q t s) := by
  have hdone : Leaves s (s.setReq t fun r => { r with pdu := none }) := mark rfl rfl rfl
  unfold NdpHeaan.reqPduWriteFailed
  dsimp only
  split
  · exact hdone.trans requestFree
  · exact hdone.trans
      ⟨Or.inr rfl, rfl, rfl, rfl, List.Subset.refl _, fun _ => rfl, fun _ h => ⟨h, rfl⟩⟩

theorem abortRequest : Leaves s (nvmfTcpQpairAbortRequest Q t s) := by
  unfold nvmfTcpQpairAbortRequest
  split
  · have hline : Leaves s { s with pending := s.pending.erase (.own t) } :=
      (refl s).around rfl rfl rfl rfl rfl (List.Subset.refl _)
    exact hline.trans (moveOn rfl (by nofun) (by nofun))
  · exact refl s

end Leaves

end NdpHeaan
