import NdpHeaan.Tcp.Framing

/-!
# Tcp/Held — capsules the receiver does not get past

NEW leaves AWAIT_REQ where nothing stands behind the header, and NEED_BUFFER where the SGL is the
one of the host's data in the capsule.  With bytes behind the header and any other SGL that is
accepted, nothing does.
-/

namespace NdpHeaan

/-- **A capsule is held**: bytes stand behind its header, and its SGL is neither refused nor that of
the host's data in the capsule. -/
def CapsuleHeld (R : RxCtx) (h : RxHdr) (cmd : TcpCmd) : Prop :=
  h.hasData R.conn = true ∧ ¬ SglRefused R h cmd ∧
    match spdkNvmfReqGetXfer R.transport cmd with
    | .controllerToHost => True
    | .hostToController => cmd.sgl.isInCapsule = false
    | .none | .bidirectional => False

section Held

variable {R : RxCtx} {b : BufSupply} {s : TcpQpair} {t : ℕ}

theorem recv_withBuffers {Q : QpCtx} : (withBuffers Q t s).recv = s.recv ∨
    (withBuffers Q t s).recv = .awaitPduPayload := by
  unfold withBuffers
  dsimp only
  split
  · split
    · exact Or.inl rfl
    · exact Or.inr rfl
  · exact Or.inl Steady.readyToExecute.stays

/-- What NEED_BUFFER makes of the receiver. -/
theorem recv_atNeedBuffer {Q : QpCtx} : (atNeedBuffer Q b t s).recv = s.recv ∨
    (atNeedBuffer Q b t s).recv = .quiescing ∨
    (atNeedBuffer Q b t s).recv = .awaitPduPayload := by
  unfold atNeedBuffer
  dsimp only
  split
  · exact Or.inl rfl
  split
  · exact Or.inr (Or.inl rfl)
  · exact Or.inl rfl
  · split <;> exact Or.inl rfl
  · split
    · exact Or.inl rfl
    · exact recv_withBuffers.imp_right Or.inr
  · rename_i c len _
    have hplaced : (placed t c len s).recv = s.recv := steady_placed.stays
    exact recv_withBuffers.imp (fun h => h.trans hplaced) Or.inr

theorem recv_directed : (directed R t s).recv = s.recv :=
  steady_directed.stays.trans steady_fitted.stays

/-- With buffers there, an SGL that is not refused is taken. -/
theorem parseSgl_ne_fatal {h : RxHdr} {cmd : TcpCmd} (href : ¬ SglRefused R h cmd) (e : TermReq) :
    tcpReqParseSgl R.transport {} (capsuleContext R h) cmd ≠ .fatal e := by
  intro hparse
  by_cases hin : cmd.sgl.isInCapsule = true
  · obtain ⟨c, len, hok⟩ := parseSgl_accepted (b := {}) href hin (Or.inl rfl)
    rw [hok] at hparse
    cases hparse
  · unfold SglRefused at href
    dsimp only at href
    unfold tcpReqParseSgl at hparse
    split at href
    · rename_i htransport
      rw [if_pos htransport, if_neg href] at hparse
      dsimp only at hparse
      split at hparse
      · cases hparse
      split at hparse <;> cases hparse
    · exact href fun h => absurd h hin

/-- With bytes behind the header and an SGL that is taken, the receiver stays where it is, unless
the data of the host is in the capsule. -/
theorem steady_withData (href : ¬ SglRefused R s.hdr s.cmd)
    (hin : spdkNvmfReqGetXfer R.transport s.cmd = .hostToController →
      s.cmd.sgl.isInCapsule = false) :
    Steady (withData R t s) (atNeedBuffer R.toQpCtx {} t (withData R t s)) := by
  have hfit : Fitted s t (directed R t s) := directed_spec
  refine .atNeedBuffer (fun h => ?_) fun e he => ?_
  · rw [reqs_withData_self] at h ⊢
    change ((directed R t s).reqs t).cmd.sgl.isInCapsule = false
    rw [hfit.cmd]
    exact hin (xfer_directed.symm.trans h)
  · rw [atNeedBuffer_withData rfl] at he
    exact parseSgl_ne_fatal href e he

/-- A capsule with bytes behind its header. -/
theorem recv_withData (hxfer : (spdkNvmfReqGetXfer R.transport s.cmd).NeedsBuffer)
    (hrecv : s.recv = .awaitReq) (hdata : s.hdr.hasData R.conn = true) :
    (atNeedBuffer R.toQpCtx {} t (withData R t s)).recv = .awaitReq ↔
      CapsuleHeld R s.hdr s.cmd := by
  by_cases href : SglRefused R s.hdr s.cmd
  · obtain ⟨e, he⟩ := parseSgl_refused (b := {}) href
    rw [atNeedBuffer_refused he]
    exact iff_of_false nofun fun h => h.2.1 href
  by_cases hin : spdkNvmfReqGetXfer R.transport s.cmd = .hostToController ∧
      s.cmd.sgl.isInCapsule = true
  · obtain ⟨c, len, hparse⟩ := parseSgl_accepted (b := {}) href hin.2 (Or.inl rfl)
    rw [atNeedBuffer_inCapsule hin.1 hparse]
    refine iff_of_false nofun fun h => ?_
    have hout := h.2.2
    rw [hin.1] at hout
    exact absurd hin.2 (by rw [hout]; decide)
  · have hout : spdkNvmfReqGetXfer R.transport s.cmd = .hostToController →
        s.cmd.sgl.isInCapsule = false := fun hx => Bool.eq_false_iff.mpr fun hc => hin ⟨hx, hc⟩
    have hsteady := steady_withData (t := t) href hout
    refine iff_of_true (hsteady.stays.trans (recv_directed.trans hrecv)) ⟨hdata, href, ?_⟩
    rcases hxfer with hx | hx
    · rw [hx]
      exact hout hx
    · rw [hx]
      trivial

/-- Where the receiver is behind a capsule. -/
theorem recv_capsule_cases {rest : List ℕ} (hfree : s.free = t :: rest) (hactive : s.active = true)
    (hrecv : s.recv = .awaitReq) : (nvmfTcpCapsuleCmdHdrHandle R.toQpCtx b s).recv ∈
      [.awaitPduReady, .awaitReq, .awaitPduPayload, .quiescing] := by
  have hneed : ∀ {q : TcpQpair}, q.recv = .awaitPduReady ∨ q.recv = .awaitReq →
      (atNeedBuffer R.toQpCtx b t q).recv ∈
        [.awaitPduReady, .awaitReq, .awaitPduPayload, .quiescing] := by
    intro q hq
    rcases recv_atNeedBuffer (Q := R.toQpCtx) (b := b) (t := t) (s := q) with h | h | h
    · rcases hq with hq | hq <;> simp [h, hq]
    · simp [h]
    · simp [h]
  rw [process_new hactive hfree]
  split
  · exact List.mem_cons_self ..
  · rw [Steady.readyToExecute.stays]
    exact List.mem_cons_self ..
  · refine hneed ?_
    split
    · exact Or.inr (recv_directed.trans hrecv)
    · exact Or.inl rfl

/-- **The receiver stays in AWAIT_REQ exactly for a capsule that is held.** -/
theorem recv_capsule {rest : List ℕ} (hfree : s.free = t :: rest) (hactive : s.active = true)
    (hrecv : s.recv = .awaitReq) :
    (nvmfTcpCapsuleCmdHdrHandle R.toQpCtx {} s).recv = .awaitReq ↔
      CapsuleHeld R s.hdr s.cmd := by
  rw [process_new hactive hfree]
  have hnone : ∀ qp : TcpQpair, qp.recv ≠ .awaitReq →
      ¬ (spdkNvmfReqGetXfer R.transport s.cmd).NeedsBuffer →
      (qp.recv = .awaitReq ↔ CapsuleHeld R s.hdr s.cmd) := by
    intro qp hqp hneeds
    refine iff_of_false hqp fun h => ?_
    have hdir := h.2.2
    split at hdir
    · rename_i hx
      exact hneeds (Or.inr hx)
    · rename_i hx
      exact hneeds (Or.inl hx)
    · exact hdir
    · exact hdir
  have hbare : ∀ {u : ℕ}, s.hdr.hasData R.conn ≠ true → ((atNeedBuffer R.toQpCtx {} u (inLine u
      { directed R u s with recv := .awaitPduReady })).recv = .awaitReq ↔
        CapsuleHeld R s.hdr s.cmd) := by
    intro u hdata
    refine iff_of_false (fun h => ?_) fun h => hdata h.1
    rcases recv_atNeedBuffer (Q := R.toQpCtx) (b := {}) (t := u)
      (s := inLine u { directed R u s with recv := .awaitPduReady }) with hr | hr | hr
    all_goals
      rw [h] at hr
      cases hr
  cases hxfer : spdkNvmfReqGetXfer R.transport s.cmd with
  | none =>
    refine hnone _ ?_ (by rw [hxfer]; decide)
    rw [Steady.readyToExecute.stays]
    nofun
  | bidirectional => exact hnone _ nofun (by rw [hxfer]; decide)
  | controllerToHost =>
    dsimp only
    split
    · exact recv_withData (Or.inr hxfer) hrecv ‹_›
    · exact hbare ‹_›
  | hostToController =>
    dsimp only
    split
    · exact recv_withData (Or.inl hxfer) hrecv ‹_›
    · exact hbare ‹_›

end Held

end NdpHeaan
