import NdpHeaan.Tcp.Framing

/-!
# Tcp/FramingRun — framing along a run

One lemma for each state of the receiver, and the invariant rule.
-/

open Machinery

namespace NdpHeaan

namespace RxSound

variable {R : RxCtx} {s s' : RxSt} {bs : List UInt8}

theorem init (R : RxCtx) (below : TcpReq) : RxSound R (.init R below) where
  framed := nofun
  taken := nofun
  line _ := nofun
  phase := nofun

/-- No PDU takes more than one request. -/
theorem le (h : RxSound R s) {p n : ℕ} (hstart : s.start = some (p, n)) :
    s.qp.arrivals ≤ n + 1 := by
  have hphase := h.phase
  have htaken : s.Taken n → s.qp.arrivals ≤ n + 1 := by
    intro ht
    rw [ht]
    split <;> omega
  unfold Phase at hphase
  split at hphase
  · exact htaken (hphase p n hstart).2
  · obtain ⟨p', n', hstart', -, harr, -⟩ := hphase
    cases hstart.symm.trans hstart'
    omega
  · obtain ⟨p', n', hstart', -, harr, -⟩ := hphase
    cases hstart.symm.trans hstart'
    omega
  · obtain ⟨p', n', hstart', -, harr, -⟩ := hphase
    cases hstart.symm.trans hstart'
    omega
  · obtain ⟨p', n', hstart', -, ht, -⟩ := hphase
    cases hstart.symm.trans hstart'
    exact htaken ht
  · exact hphase p n hstart
  · exact hphase p n hstart

theorem wellFramed (h : RxSound R s) : WellFramed s :=
  ⟨h.framed, h.taken, fun _ _ hstart => h.le hstart⟩

/-- The receiver is ended. -/
theorem ended (h : RxSound R s) {qp : TcpQpair} (hrecv : qp.recv = .quiescing)
    (harr : ∀ p n, s.start = some (p, n) → qp.arrivals ≤ n + 1) : RxSound R { s with qp } where
  framed := h.framed
  taken := h.taken
  line hne := absurd hrecv hne
  phase := (phase_quiescing hrecv).mpr harr

theorem terminate (h : RxSound R s) (t : TermReq) : RxSound R (s.terminate t) :=
  h.ended rfl fun _ _ hstart => h.le hstart

/-- Only the requests have changed. -/
theorem leaves (h : RxSound R s) {qp : TcpQpair} {pdus : List DataPdu}
    (hl : Leaves { s.qp with pdus } qp) : RxSound R { s with qp } := by
  rcases hl.recv with hrecv | hrecv
  · refine ⟨h.framed, h.taken, fun hne => ?_, ?_⟩
    · have hline : LineClear { s.qp with pdus } := h.line (hrecv ▸ hne)
      exact hline.leaves hl
    · have hphase := h.phase
      have hhdr : qp.hdr = s.qp.hdr := hl.hdr
      have harr : qp.arrivals = s.qp.arrivals := hl.arrivals
      have hrecv : qp.recv = s.qp.recv := hrecv
      unfold Phase RxSt.Taken at hphase ⊢
      dsimp only
      rw [hrecv, hhdr, harr]
      exact hphase
  · refine h.ended hrecv fun p n hstart => ?_
    rw [hl.arrivals]
    exact h.le hstart

/-- What happened to the requests added no PDU. -/
theorem handled_eq {qp : TcpQpair} (h : qp.pdus.length ≤ s.qp.pdus.length) :
    s.handled qp = { s with qp } :=
  if_neg (Nat.not_lt.mpr h)

theorem handled_append {qp : TcpQpair} {p : DataPdu} (h : qp.pdus = s.qp.pdus ++ [p]) :
    s.handled qp = { s with qp, cur := some p, dataLen := p.dataLen.toNat } := by
  have hlt : s.qp.pdus.length < qp.pdus.length := by
    rw [h, List.length_append]
    exact Nat.lt_succ_self _
  rw [RxSt.handled, if_pos hlt, h, List.getLast?_concat]
  rfl

/-! ## The states of the receiver -/

/-- The next header is begun where the PDU before it ended. -/
theorem nextPdu (h : RxSound R s) (hrecv : s.qp.recv = .awaitPduReady) :
    RxSound R s.nextPdu := by
  have hphase := (phase_ready hrecv).mp h.phase
  have hnew : ∀ r ∈ s.nextPdu.past, r ∈ s.past ∨ ∃ p n, s.start = some (p, n) ∧
      r = ⟨s.qp.hdr.common, p, s.pos, s.qp.arrivals - n⟩ := by
    intro r hr
    rcases List.mem_append.mp hr with hr | hr
    · exact Or.inl hr
    · obtain ⟨⟨p, n⟩, hstart, rfl⟩ := Option.map_eq_some_iff.mp (Option.mem_toList.mp hr)
      exact Or.inr ⟨p, n, hstart, rfl⟩
  constructor
  · intro r hr
    rcases hnew r hr with hr | ⟨p, n, hstart, rfl⟩
    · exact h.framed r hr
    · exact (hphase p n hstart).1
  · intro r hr htype
    rcases hnew r hr with hr | ⟨p, n, hstart, rfl⟩
    · exact h.taken r hr htype
    · have htaken := (hphase p n hstart).2
      rw [RxSt.Taken, if_pos htype] at htaken
      change s.qp.arrivals - n = 1
      omega
  · exact fun _ => h.line (by rw [hrecv]; decide)
  · exact ⟨s.pos, s.qp.arrivals, rfl, rfl, rfl, rfl⟩

theorem awaitPduCh (h : RxSound R s) (hrecv : s.qp.recv = .awaitPduCh)
    (hs : awaitPduCh R s bs = some s') : RxSound R s' := by
  obtain ⟨p, n, hstart, hpos, harr, hdata⟩ := (phase_ch hrecv).mp h.phase
  have hline : LineClear s.qp := h.line (by rw [hrecv]; decide)
  have hread : s.pos + bs.length = p + (s.raw ++ bs).length := by
    rw [List.length_append, hpos, Nat.add_assoc]
  have hch : ∀ hdr, RxSound R { s.readRaw bs with qp := { s.qp with hdr } } := fun hdr =>
    ⟨h.framed, h.taken, fun _ => hline,
      (phase_ch (s := { s.readRaw bs with qp := { s.qp with hdr } }) hrecv).mpr
        ⟨p, n, hstart, hread, harr, hdata⟩⟩
  unfold NdpHeaan.awaitPduCh at hs
  split at hs
  · cases hs
  dsimp only at hs
  split at hs
  · obtain rfl := Option.some.inj hs
    exact hch _
  · obtain rfl := Option.some.inj hs
    unfold pduChHandle
    split
    · exact (hch _).terminate _
    · rename_i m hok
      exact ⟨h.framed, h.taken, fun _ => hline,
        (phase_psh rfl).mpr ⟨p, n, hstart, hread, harr, hdata, hok⟩⟩

/-- A header is read, and the receiver goes on to its command or its data. -/
theorem pshHandle (h : RxSound R s) (hrecv : s.qp.recv = .awaitPduPsh)
    (hlen : s.raw.length = s.qp.hdr.readLen)
    (hfits : s.qp.hdr.common.pduType = .h2cData → H2cDataFits R s.qp.hdr (.ofBytes s.raw)) :
    RxSound R (nvmfTcpPduPshHandle R s) := by
  obtain ⟨p, n, hstart, hpos, harr, hdata, hok⟩ := (phase_psh hrecv).mp h.phase
  have hline : LineClear s.qp := h.line (by rw [hrecv]; decide)
  rw [hlen] at hpos
  have hread : s.pos = p + s.qp.hdr.readLen + s.data.length := by rw [hdata, hpos]; rfl
  unfold nvmfTcpPduPshHandle
  split
  · exact h.terminate _
  split
  · rename_i htype
    exact ⟨h.framed, h.taken, fun _ => hline,
      (phase_req rfl).mpr ⟨p, n, hstart, hpos, harr, hdata, hok, htype⟩⟩
  · rename_i htype
    dsimp only
    unfold nvmfTcpH2cDataHdrHandle
    have hterm : ∀ e, RxSound R (s.handled (s.qp.terminate e)) := by
      intro e
      have hpdus : (s.qp.terminate e).pdus.length ≤ s.qp.pdus.length := le_refl _
      rw [handled_eq hpdus]
      exact h.terminate e
    split
    · exact hterm _
    dsimp only
    split
    · exact hterm _
    split
    · exact hterm _
    split
    · exact hterm _
    split
    · exact hterm _
    rw [handled_append rfl]
    refine ⟨h.framed, h.taken, fun _ => hline, (phase_payload rfl).mpr
      ⟨p, n, hstart, hread, ?_, fun _ => hfits htype⟩⟩
    change s.qp.arrivals = n + if s.qp.hdr.common.pduType = .capsuleCmd then 1 else 0
    rw [htype, harr]
    rfl
  · rename_i htype
    unfold h2cTermReqHdrHandle
    split
    · exact h.terminate _
    · refine ⟨h.framed, h.taken, fun _ => hline, (phase_payload rfl).mpr
        ⟨p, n, hstart, hread, ?_, fun hne => absurd htype hne⟩⟩
      change s.qp.arrivals = n + if s.qp.hdr.common.pduType = .capsuleCmd then 1 else 0
      rw [htype, harr]
      rfl
  · exact h.terminate _

theorem awaitPduPsh (h : RxSound R s) (hrecv : s.qp.recv = .awaitPduPsh)
    (hfits : s.raw.length + bs.length = s.qp.hdr.readLen → s.qp.hdr.common.pduType = .h2cData →
      H2cDataFits R s.qp.hdr (.ofBytes (s.raw ++ bs)))
    (hs : awaitPduPsh R s bs = some s') : RxSound R s' := by
  obtain ⟨p, n, hstart, hpos, harr, hdata, hok⟩ := (phase_psh hrecv).mp h.phase
  have hline : LineClear s.qp := h.line (by rw [hrecv]; decide)
  have hread : s.pos + bs.length = p + (s.raw ++ bs).length := by
    rw [List.length_append, hpos, Nat.add_assoc]
  have hpsh : RxSound R (s.readRaw bs) :=
    ⟨h.framed, h.taken, fun _ => hline,
      (phase_psh (s := s.readRaw bs) hrecv).mpr ⟨p, n, hstart, hread, harr, hdata, hok⟩⟩
  unfold NdpHeaan.awaitPduPsh at hs
  dsimp only at hs
  split at hs
  · cases hs
  rename_i hle
  split at hs
  · obtain rfl := Option.some.inj hs
    exact hpsh
  · rename_i hge
    obtain rfl := Option.some.inj hs
    change ¬ (s.raw ++ bs).length < _ at hge
    rw [List.length_append] at hge
    have hlen : s.raw.length + bs.length = s.qp.hdr.readLen := by
      unfold RxHdr.readLen
      omega
    exact hpsh.pshHandle hrecv (List.length_append.trans hlen) fun htype => hfits hlen htype

/-- A capsule is handed over to a request. -/
theorem awaitReq {b : BufSupply} (h : RxSound R s) (hrecv : s.qp.recv = .awaitReq)
    (hactive : s.qp.active = true) (hfits : CapsuleFits R s.qp.hdr s.qp.cmd b) :
    RxSound R (s.handled (nvmfTcpCapsuleCmdHdrHandle R.toQpCtx b s.qp)) := by
  obtain ⟨p, n, hstart, hpos, harr, hdata, hok, htype⟩ := (phase_req hrecv).mp h.phase
  have hline : LineClear s.qp := h.line (by rw [hrecv]; decide)
  have htaken : ∀ qp : TcpQpair, qp.arrivals = s.qp.arrivals + 1 → qp.hdr = s.qp.hdr →
      qp.arrivals = n + if qp.hdr.common.pduType = .capsuleCmd then 1 else 0 := by
    intro qp harr' hhdr
    rw [harr', harr, hhdr, htype]
    rfl
  have hend := capsuleEnd hactive hfits
  generalize nvmfTcpCapsuleCmdHdrHandle R.toQpCtx b s.qp = qp at hend ⊢
  cases hend with
  | held heq =>
    rw [heq, handled_eq (le_refl _)]
    exact h
  | ended hq harr' =>
    have hle : ∀ p n, s.start = some (p, n) → qp.arrivals ≤ n + 1 := by
      intro p' n' hstart'
      cases hstart.symm.trans hstart'
      omega
    unfold RxSt.handled
    split
    · exact ⟨h.framed, h.taken, fun hne => absurd hq hne, (phase_quiescing hq).mpr hle⟩
    · exact h.ended hq hle
  | next hnext harr' hhdr hpdus hline' hlen =>
    rw [handled_eq (by rw [hpdus])]
    have hplen : s.qp.hdr.readLen = s.qp.hdr.common.plen.toNat :=
      hlen.elim (readLen_of_bare hok htype) id
    refine ⟨h.framed, h.taken, fun _ => hline' hline, (phase_ready hnext).mpr ?_⟩
    intro p' n' hstart'
    cases hstart.symm.trans hstart'
    refine ⟨?_, htaken qp harr' hhdr⟩
    change s.pos = p + qp.hdr.common.plen.toNat
    rw [hhdr, ← hplen, hpos]
  | data q hpay harr' hhdr hpdus hline' hq hlen =>
    rw [handled_append hpdus]
    refine ⟨h.framed, h.taken, fun _ => hline' hline, (phase_payload hpay).mpr
      ⟨p, n, hstart, ?_, htaken qp harr' hhdr, fun _ => ?_⟩⟩
    · change s.pos = p + qp.hdr.readLen + s.data.length
      rw [hhdr, hdata, hpos]
      rfl
    · change qp.hdr.common.plen.toNat = qp.hdr.readLen + q.dataLen.toNat + _
      rw [hhdr, hq]
      exact toNat_capsuleLen hlen

/-- The data of a PDU is read. -/
theorem payloadHandle (h : RxSound R s) (hrecv : s.qp.recv = .awaitPduPayload)
    (hlen : s.data.length = s.payloadLen R) : RxSound R (nvmfTcpPduPayloadHandle R s) := by
  obtain ⟨p, n, hstart, hpos, htaken, hplen⟩ := (phase_payload hrecv).mp h.phase
  have hline : LineClear s.qp := h.line (by rw [hrecv]; decide)
  unfold nvmfTcpPduPayloadHandle
  dsimp only
  split
  · exact ⟨h.framed, h.taken, fun hne => absurd rfl hne,
      (phase_quiescing rfl).mpr fun _ _ hstart => h.le hstart⟩
  rename_i htype
  have hnot : s.qp.hdr.common.pduType ≠ .h2cTermReq := htype
  have hready : RxSound R (s.setRecv .awaitPduReady) := by
    refine ⟨h.framed, h.taken, fun _ => hline, (phase_ready rfl).mpr ?_⟩
    intro p' n' hstart'
    cases hstart.symm.trans hstart'
    refine ⟨?_, htaken⟩
    change s.pos = p + s.qp.hdr.common.plen.toNat
    rw [RxSt.payloadLen] at hlen
    simp only [ne_eq, hnot, not_false_eq_true, true_and] at hlen
    have := hplen hnot
    omega
  split
  · exact hready
  split
  · exact ⟨hready.framed, hready.taken, hready.line, hready.phase⟩
  · exact hready.leaves Leaves.dataCrc32CalcDone

theorem awaitPduPayload (h : RxSound R s) (hrecv : s.qp.recv = .awaitPduPayload)
    (hs : awaitPduPayload R s bs = some s') : RxSound R s' := by
  obtain ⟨p, n, hstart, hpos, htaken, hplen⟩ := (phase_payload hrecv).mp h.phase
  have hline : LineClear s.qp := h.line (by rw [hrecv]; decide)
  have hread : s.pos + bs.length = p + s.qp.hdr.readLen + (s.data ++ bs).length := by
    rw [List.length_append, hpos, Nat.add_assoc]
  have hpay : RxSound R (s.readData bs) :=
    ⟨h.framed, h.taken, fun _ => hline,
      (phase_payload (s := s.readData bs) hrecv).mpr ⟨p, n, hstart, hread, htaken, hplen⟩⟩
  unfold NdpHeaan.awaitPduPayload at hs
  split at hs
  · split at hs
    · obtain rfl := Option.some.inj hs
      exact h
    · cases hs
  split at hs
  · cases hs
  rename_i hle
  dsimp only at hs
  split at hs
  · obtain rfl := Option.some.inj hs
    exact hpay
  · rename_i hge
    obtain rfl := Option.some.inj hs
    change ¬ (s.data ++ bs).length < _ at hge
    refine hpay.payloadHandle hrecv ?_
    change (s.data ++ bs).length = s.payloadLen R
    rw [List.length_append] at hge ⊢
    omega

/-! ## The steps -/

/-- **A pass of the loop over PDUs that fit keeps the invariant.** -/
theorem pass {pduFree : Bool} {b : BufSupply} (h : RxSound R s) (hactive : s.qp.active = true)
    (hsafe : RxSafe R s (.pass pduFree b bs)) (hs : sockPass R pduFree b bs s = some s') :
    RxSound R s' := by
  unfold RxSafe at hsafe
  dsimp only at hsafe
  unfold sockPass at hs
  split at hs
  · rename_i hrecv
    split at hs
    · exact (h.nextPdu hrecv).awaitPduCh rfl hs
    · split at hs
      · obtain rfl := Option.some.inj hs
        exact h
      · cases hs
  · rename_i hrecv
    exact h.awaitPduCh hrecv hs
  · rename_i hrecv
    rw [hrecv] at hsafe
    exact h.awaitPduPsh hrecv hsafe hs
  · rename_i hrecv
    rw [hrecv] at hsafe
    split at hs
    · obtain rfl := Option.some.inj hs
      exact h.awaitReq hrecv hactive hsafe
    · cases hs
  · rename_i hrecv
    exact h.awaitPduPayload hrecv hs
  · cases hs
  · cases hs

theorem step {e : RxEvent} (h : RxSound R s) (hsafe : RxSafe R s e)
    (hs : rxStep R s e = some s') : RxSound R s' := by
  unfold rxStep at hs
  split at hs
  swap
  · cases hs
  rename_i hworks
  cases e with
  | pass pduFree b bs => exact h.pass hworks.2.2 hsafe hs
  | closed =>
    obtain rfl := Option.some.inj hs
    exact h.ended rfl fun _ _ hstart => h.le hstart
  | digest p ok =>
    dsimp only at hs
    split at hs
    · obtain rfl := Option.some.inj hs
      have hdone := h.leaves (@Leaves.dataCrc32CalcDone R.toQpCtx s.qp p ok)
      exact ⟨hdone.framed, hdone.taken, hdone.line, hdone.phase⟩
    · cases hs
  | requests e =>
    dsimp only at hs
    split at hs
    swap
    · cases hs
    rename_i hoff
    obtain ⟨qp, hqp, rfl⟩ := Option.map_eq_some_iff.mp hs
    have hl := Leaves.step (h.line hworks.1) hoff hqp
    rw [handled_eq (by rw [hl.pdus])]
    exact h.leaves hl

end RxSound

/-- A running I/O qpair without digests. -/
def sampleReceiver : RxCtx := { sampleQpair false with hdgstOk := fun _ => true, running := rfl }

/-- The eight bytes of a common header. -/
def chBytes (type hlen pdo plen : UInt8) : List UInt8 := [type, 0, hlen, pdo, plen, 0, 0, 0]

/-- A command, by its opcode, and the length and the type of its SGL. -/
def cmdBytes (opc len sgl : UInt8) : List UInt8 :=
  [opc, 0, 7, 0] ++ List.replicate 28 0 ++ [len, 0, 0, 0, 0, 0, 0, sgl] ++ List.replicate 24 0

/-- The receiver reads. -/
def reads (bs : List UInt8) : RxEvent := .pass true {} bs

/-- A WRITE with four bytes in its capsule, and the front of the next header. -/
def inCapsuleRun : List RxEvent :=
  [reads (chBytes 4 72 72 76), reads (cmdBytes 1 4 0x01), reads [], reads [1, 2], reads [3, 4],
   reads [4, 0]]

/-- A FLUSH with eight bytes behind its header. -/
def flushRun : List RxEvent :=
  [reads (chBytes 4 72 72 80), reads (cmdBytes 0 0 0x5a), reads [], reads [4]]

/-- A WRITE with four bytes behind its header that asks for them once more. -/
def heldWriteRun : List RxEvent :=
  [reads (chBytes 4 72 72 76), reads (cmdBytes 1 4 0x5a), reads [], reads []]

/-- The same with an opcode that transfers nothing to the controller. -/
def heldReadRun : List RxEvent :=
  [reads (chBytes 4 72 72 76), reads (cmdBytes 0xd0 4 0x5a), reads [], reads []]

/-- Four bytes for an R2T, in a PDU that says it is longer. -/
def longDataRun : List RxEvent :=
  [reads (chBytes 4 72 0 72), reads (cmdBytes 1 4 0x5a), reads [], .requests (.writeDone 1 false),
   reads (chBytes 6 24 24 40), reads [7, 0, 1, 0, 0, 0, 0, 0, 4, 0, 0, 0, 0, 0, 0, 0],
   reads [1, 2, 3, 4], reads [4]]

end NdpHeaan
