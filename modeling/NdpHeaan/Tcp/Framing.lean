import NdpHeaan.Tcp.Leaves
import NdpHeaan.Tcp.Receiver

/-!
# Tcp/Framing — where the next header is read

The invariant says, for each state of the receiver, how far into the PDU it is and how many requests
the PDU has taken.  `CapsuleEnd` is what a capsule can come to; a command with data in the capsule
is never in line for buffers, so that the requests in line leave the receiver alone.
-/

open Machinery

namespace NdpHeaan

/-- No request in line for buffers has the host's data in its capsule. -/
def LineClear (s : TcpQpair) : Prop :=
  ∀ t ∈ s.working, (s.reqs t).state = .needBuffer → (s.reqs t).xfer = .hostToController →
    (s.reqs t).cmd.sgl.isInCapsule = false

/-! ## Requests and the receiver -/

section Requests

variable {Q : QpCtx} {s s' : TcpQpair} {t : ℕ}

theorem LineClear.leaves (h : LineClear s) (hl : Leaves s s') : LineClear s' := by
  intro t ht hs hxfer
  obtain ⟨hs', hxfer'⟩ := hl.waits t hs
  rw [hl.cmds t]
  exact h t (hl.working ht) hs' (hxfer' ▸ hxfer)

/-- One request changes, and is not in line. -/
theorem LineClear.of_reqs (h : LineClear s) (hother : ∀ u, u ≠ t → s'.reqs u = s.reqs u)
    (hworking : ∀ u ∈ s'.working, u ≠ t → u ∈ s.working)
    (ht : (s'.reqs t).state ≠ .needBuffer) : LineClear s' := by
  intro u hmem hu hxfer
  by_cases hut : u = t
  · exact absurd (hut ▸ hu) ht
  · rw [hother u hut] at hu hxfer ⊢
    exact h u (hworking u hmem hut) hu hxfer

/-- **What happens to the requests leaves the receiver alone.** -/
theorem Leaves.step {e : TcpEvent} (h : LineClear s) (he : e.offReceiver = true)
    (hs : tcpStep Q s e = some s') : Leaves s s' := by
  have hif : ∀ {p : Prop} [Decidable p] {v : TcpQpair}, (if p then some v else none) = some s' →
      p ∧ v = s' := by
    intro p _ v hv
    exact (Option.ite_none_right_eq_some.mp hv).imp_right Option.some.inj
  cases e with
  | capsule | nextPdu | h2cData | dataDone => cases he
  | poll t b =>
    obtain ⟨⟨hmem, hstate⟩, rfl⟩ := hif hs
    exact process (by rw [hstate]; decide) (h t hmem)
  | complete t sc =>
    obtain ⟨-, rfl⟩ := hif hs
    exact moveOn rfl (by nofun) (by nofun)
  | digestDone t =>
    obtain ⟨-, rfl⟩ := hif hs
    exact mark rfl rfl rfl
  | writeDone t success =>
    obtain ⟨-, rfl⟩ := hif hs
    exact reqPduWriteDone
  | nextPart t digesting =>
    obtain ⟨-, rfl⟩ := hif hs
    exact mark rfl rfl rfl
  | writeFailed t =>
    obtain ⟨-, rfl⟩ := hif hs
    exact reqPduWriteFailed
  | abort t =>
    obtain ⟨-, rfl⟩ := hif hs
    exact abortRequest
  | others queue =>
    obtain ⟨-, rfl⟩ := hif hs
    exact (refl s).around rfl rfl rfl rfl rfl (List.Subset.refl _)
  | disconnect =>
    obtain rfl := Option.some.inj hs
    exact (refl s).around rfl rfl rfl rfl rfl (List.Subset.refl _)

end Requests

/-! ## A capsule -/

/-- **What a capsule comes to**: there is no request for it yet; the receiver is ended; it goes on
to the next PDU; or it goes on to the data. -/
inductive CapsuleEnd (R : RxCtx) (s s' : TcpQpair) : Prop
  | held (h : s' = s)
  | ended (hrecv : s'.recv = .quiescing) (harrivals : s'.arrivals ≤ s.arrivals + 1)
  | next (hrecv : s'.recv = .awaitPduReady) (harrivals : s'.arrivals = s.arrivals + 1)
      (hhdr : s'.hdr = s.hdr) (hpdus : s'.pdus = s.pdus) (hline : LineClear s → LineClear s')
      (hlen : s.hdr.hasData R.conn = false ∨ s.hdr.readLen = s.hdr.common.plen.toNat)
  | data (p : DataPdu) (hrecv : s'.recv = .awaitPduPayload)
      (harrivals : s'.arrivals = s.arrivals + 1) (hhdr : s'.hdr = s.hdr)
      (hpdus : s'.pdus = s.pdus ++ [p]) (hline : LineClear s → LineClear s')
      (hp : p.dataLen = s.hdr.capsuleLen R.conn)
      (hlen : s.hdr.readLen + (if R.conn.ddgst then digestLen else 0) ≤ s.hdr.common.plen.toNat)

section Capsule

variable {R : RxCtx} {b : BufSupply} {s : TcpQpair} {t : ℕ}

/-- A NEW request with its command. -/
def arrived (t : ℕ) (s : TcpQpair) : TcpQpair :=
  ((nvmfTcpReqGet t s).setReq t fun r => { r with cmd := s.cmd }).emit
    (.arrive ((nvmfTcpReqGet t s).reqs t).arrival s.cmd.fuse)

theorem reqs_arrived_self : (arrived t s).reqs t = { s.reqs t with
    cmd := s.cmd, state := .new, status := .zeroed, h2cOffset := 0, hasInCapsuleData := false,
    arrival := s.arrivals, received := 0 } := by
  rw [arrived, TcpQpair.reqs_emit, TcpQpair.reqs_setReq_self, reqs_nvmfTcpReqGet_self]

theorem reqs_arrived_of_ne {u : ℕ} (hu : u ≠ t) : (arrived t s).reqs u = s.reqs u := by
  rw [arrived, TcpQpair.reqs_emit, TcpQpair.reqs_setReq_of_ne _ _ _ hu,
    reqs_nvmfTcpReqGet_of_ne s hu]

/-- The order of fused commands has been looked at. -/
def fitted (R : RxCtx) (t : ℕ) (s : TcpQpair) : TcpQpair :=
  nvmfTcpCheckFusedOrdering R.toQpCtx t (arrived t s)

theorem steady_fitted : Steady (arrived t s) (fitted R t s) := .checkFusedOrdering

/-- What is known of a qpair whose new request is fitted. -/
structure Fitted (s : TcpQpair) (t : ℕ) (s' : TcpQpair) : Prop where
  hdr : s'.hdr = s.hdr
  arrivals : s'.arrivals = s.arrivals + 1
  pdus : s'.pdus = s.pdus
  cmd : (s'.reqs t).cmd = s.cmd
  state : (s'.reqs t).state ≠ .needBuffer

theorem fitted_spec : Fitted s t (fitted R t s) := by
  have hl := (steady_fitted (R := R) (s := s) (t := t)).toLeaves
  refine ⟨hl.hdr, hl.arrivals, hl.pdus, ?_, fun hs => ?_⟩
  · rw [hl.cmds t, reqs_arrived_self]
  · have hs' := (hl.waits t hs).1
    rw [reqs_arrived_self] at hs'
    cases hs'

theorem lineClear_fitted (hline : LineClear s) : LineClear (fitted R t s) := by
  have hworking : ∀ u ∈ (arrived t s).working, u ≠ t → u ∈ s.working := fun u hu hne =>
    (List.mem_append.mp hu).resolve_right fun hlast => hne (List.mem_singleton.mp hlast)
  have harrived : LineClear (arrived t s) :=
    hline.of_reqs (fun _ => reqs_arrived_of_ne) hworking (by rw [reqs_arrived_self]; nofun)
  exact harrived.leaves steady_fitted.toLeaves

/-- The request of a new command, with its direction. -/
def directed (R : RxCtx) (t : ℕ) (s : TcpQpair) : TcpQpair :=
  (fitted R t s).setReq t fun r => { r with xfer := spdkNvmfReqGetXfer R.transport s.cmd }

theorem steady_directed : Steady (fitted R t s) (directed R t s) := .setState rfl fitted_spec.state

theorem directed_spec : Fitted s t (directed R t s) := by
  have hfit : Fitted s t (fitted R t s) := fitted_spec
  refine ⟨hfit.hdr, hfit.arrivals, hfit.pdus, ?_, ?_⟩
  · rw [steady_directed.cmds t, hfit.cmd]
  · rw [directed, TcpQpair.reqs_setReq_self]
    exact hfit.state

theorem xfer_directed :
    ((directed R t s).reqs t).xfer = spdkNvmfReqGetXfer R.transport s.cmd := by
  rw [directed, TcpQpair.reqs_setReq_self]

theorem lineClear_directed (hline : LineClear s) : LineClear (directed R t s) :=
  (lineClear_fitted hline).leaves steady_directed.toLeaves

/-- The request is in line for buffers. -/
def inLine (t : ℕ) (s : TcpQpair) : TcpQpair :=
  { s.setReq t fun r => { r with state := .needBuffer } with pending := s.pending ++ [.own t] }

@[simp] theorem reqs_inLine_self : (inLine t s).reqs t = { s.reqs t with state := .needBuffer } :=
  Function.update_self ..

theorem reqs_inLine_of_ne {u : ℕ} (hu : u ≠ t) : (inLine t s).reqs u = s.reqs u :=
  Function.update_of_ne hu ..

/-- **The case of NEW, by the direction of the data.** -/
theorem process_new {rest : List ℕ} (hactive : s.active = true) (hfree : s.free = t :: rest) :
    nvmfTcpCapsuleCmdHdrHandle R.toQpCtx b s =
      match spdkNvmfReqGetXfer R.transport s.cmd with
      | .bidirectional => requestTransferOut R.toQpCtx t
          ({ directed R t s with recv := .awaitPduReady }.setReq t fun r =>
            { r with status := .invalidOpcode })
      | .none => readyToExecute R.toQpCtx t
          ({ directed R t s with recv := .awaitPduReady }.setReq t fun r =>
            { r with state := .readyToExecute })
      | _ => atNeedBuffer R.toQpCtx b t (inLine t
          (if s.hdr.hasData R.conn then
            (directed R t s).setReq t fun r => { r with hasInCapsuleData := true }
          else { directed R t s with recv := .awaitPduReady })) := by
  have hget : (nvmfTcpReqGet t s).active = true := hactive
  have hnew : ((nvmfTcpReqGet t s).reqs t).state = .new := by rw [reqs_nvmfTcpReqGet_self]
  rw [nvmfTcpCapsuleCmdHdrHandle, hfree]
  dsimp only
  rw [nvmfTcpReqProcess, hget, if_neg (by decide), hnew]
  rfl

/-- The receiver has gone on to the next PDU, and what follows leaves it alone. -/
theorem CapsuleEnd.of_leaves {s₀ s' : TcpQpair} (hl : Leaves s₀ s')
    (hrecv : s₀.recv = .awaitPduReady) (harrivals : s₀.arrivals = s.arrivals + 1)
    (hhdr : s₀.hdr = s.hdr) (hpdus : s₀.pdus = s.pdus) (hline : LineClear s → LineClear s₀)
    (hlen : s.hdr.hasData R.conn = false ∨ s.hdr.readLen = s.hdr.common.plen.toNat) :
    CapsuleEnd R s s' := by
  rcases hl.recv with hr | hr
  · exact .next (hr.trans hrecv) (hl.arrivals.trans harrivals) (hl.hdr.trans hhdr)
      (hl.pdus.trans hpdus) (fun h => (hline h).leaves hl) hlen
  · exact .ended hr (hl.arrivals.trans harrivals).le

/-- In line, a request without data in the capsule. -/
theorem lineClear_inLine (hline : LineClear s)
    (ht : (s.reqs t).xfer = .hostToController → (s.reqs t).cmd.sgl.isInCapsule = false) :
    LineClear (inLine t s) := by
  intro u hmem hu hxfer
  by_cases hut : u = t
  · subst hut
    rw [reqs_inLine_self] at hxfer ⊢
    exact ht hxfer
  · rw [reqs_inLine_of_ne hut] at hu hxfer ⊢
    exact hline u hmem hu hxfer

/-- **A command whose data is not in the capsule**: the receiver goes on. -/
theorem capsuleEnd_bare (hdata : s.hdr.hasData R.conn = false)
    (hin : spdkNvmfReqGetXfer R.transport s.cmd = .hostToController →
      s.cmd.sgl.isInCapsule = false) :
    CapsuleEnd R s (atNeedBuffer R.toQpCtx b t (inLine t
      { directed R t s with recv := .awaitPduReady })) := by
  have hfit : Fitted s t (directed R t s) := directed_spec
  have hxfer := xfer_directed (R := R) (s := s) (t := t)
  have hclear : LineClear s →
      LineClear (inLine t { directed R t s with recv := .awaitPduReady }) := by
    intro hline
    refine lineClear_inLine (lineClear_directed hline) fun h => ?_
    change ((directed R t s).reqs t).cmd.sgl.isInCapsule = false
    rw [hfit.cmd]
    exact hin (hxfer ▸ h)
  refine .of_leaves (.atNeedBuffer fun h => ?_) rfl hfit.arrivals hfit.hdr hfit.pdus hclear
    (Or.inl hdata)
  rw [reqs_inLine_self] at h ⊢
  change ((directed R t s).reqs t).cmd.sgl.isInCapsule = false
  rw [hfit.cmd]
  exact hin (hxfer ▸ h)

/-- In line, a request with bytes behind its header. -/
def withData (R : RxCtx) (t : ℕ) (s : TcpQpair) : TcpQpair :=
  inLine t ((directed R t s).setReq t fun r => { r with hasInCapsuleData := true })

theorem reqs_withData_self : (withData R t s).reqs t =
    { (directed R t s).reqs t with hasInCapsuleData := true, state := .needBuffer } := by
  rw [withData, reqs_inLine_self, TcpQpair.reqs_setReq_self]

theorem reqs_withData_of_ne {u : ℕ} (hu : u ≠ t) :
    (withData R t s).reqs u = (directed R t s).reqs u := by
  rw [withData, reqs_inLine_of_ne hu, TcpQpair.reqs_setReq_of_ne _ _ _ hu]

/-- What a command with bytes behind its header is parsed with. -/
abbrev capsuleContext (R : RxCtx) (h : RxHdr) : SglContext :=
  { admin := R.admin, capsuleLen := h.capsuleLen R.conn }

/-- Bytes behind the header are not in line: the SGL is parsed at once. -/
theorem atNeedBuffer_withData {parsed : SglEnd}
    (hparse : tcpReqParseSgl R.transport b
      (capsuleContext R s.hdr) s.cmd = parsed) :
    tcpReqParseSgl R.transport b ((withData R t s).sglContext R.toQpCtx)
      ((withData R t s).reqs t).cmd = parsed := by
  have hfit : Fitted s t (directed R t s) := directed_spec
  have hctx : (withData R t s).sglContext R.toQpCtx
      = capsuleContext R s.hdr := by
    change SglContext.mk R.admin ((directed R t s).hdr.capsuleLen R.conn) false none = _
    rw [hfit.hdr]
  rw [hctx, reqs_withData_self]
  dsimp only
  rw [hfit.cmd, hparse]

/-- A command with bytes behind its header whose SGL is refused. -/
theorem atNeedBuffer_refused {e : TermReq}
    (hparse : tcpReqParseSgl R.transport b (capsuleContext R s.hdr) s.cmd = .fatal e) :
    atNeedBuffer R.toQpCtx b t (withData R t s) = (withData R t s).terminate e := by
  unfold atNeedBuffer
  rw [if_neg (by rw [reqs_withData_self]; simp)]
  dsimp only
  rw [atNeedBuffer_withData hparse]

theorem capsuleEnd_refused {e : TermReq}
    (hparse : tcpReqParseSgl R.transport b (capsuleContext R s.hdr) s.cmd = .fatal e) :
    CapsuleEnd R s (atNeedBuffer R.toQpCtx b t (withData R t s)) := by
  rw [atNeedBuffer_refused hparse]
  exact .ended rfl (directed_spec (R := R) (s := s) (t := t)).arrivals.le

/-- The data in the capsule of a request that is in line. -/
theorem withBuffers_capsule {Q : QpCtx} (hxfer : (s.reqs t).xfer = .hostToController)
    (hpool : (s.reqs t).dataFromPool = false) :
    withBuffers Q t s = { s.setReq t fun r => { r with state := .transferringH2c } with
      pending := s.pending.erase (.own t)
      pdus := s.pdus ++ [⟨t, true, s.hdr.common.pdo, 0, (s.reqs t).length⟩]
      recv := .awaitPduPayload } := by
  simp only [withBuffers, hxfer, hpool, if_true, Bool.false_eq_true, if_false]
  rfl

/-- The request of a capsule with data has its length, and a control message if it needs one. -/
def placed (t : ℕ) (c : Bool) (len : UInt32) (s : TcpQpair) : TcpQpair :=
  let s₁ := s.setReq t fun r => { r with length := len, iov := [len.toNat], dataFromPool := false }
  if c then s₁.emit (.getCtrl t) else s₁

theorem steady_placed {c : Bool} {len : UInt32} : Steady s (placed t c len s) := by
  have hset : Steady s (s.setReq t fun r =>
      { r with length := len, iov := [len.toNat], dataFromPool := false }) := .mark rfl rfl rfl
  unfold placed
  dsimp only
  split
  · exact hset.emit
  · exact hset

theorem reqs_placed {c : Bool} {len : UInt32} : (placed t c len s).reqs =
    (s.setReq t fun r =>
      { r with length := len, iov := [len.toNat], dataFromPool := false }).reqs := by
  unfold placed
  dsimp only
  split <;> rfl

theorem reqs_placed_self {c : Bool} {len : UInt32} : (placed t c len s).reqs t =
    { s.reqs t with length := len, iov := [len.toNat], dataFromPool := false } := by
  rw [reqs_placed, TcpQpair.reqs_setReq_self]

theorem reqs_placed_of_ne {c : Bool} {len : UInt32} {u : ℕ} (hu : u ≠ t) :
    (placed t c len s).reqs u = s.reqs u := by
  rw [reqs_placed, TcpQpair.reqs_setReq_of_ne _ _ _ hu]

/-- **The data of the host is in the capsule**: the receiver goes on to it. -/
theorem atNeedBuffer_inCapsule
    (hxfer : spdkNvmfReqGetXfer R.transport s.cmd = .hostToController) {c : Bool} {len : UInt32}
    (hparse : tcpReqParseSgl R.transport b (capsuleContext R s.hdr) s.cmd = .inCapsule c len) :
    atNeedBuffer R.toQpCtx b t (withData R t s) =
      let s₂ := placed t c len (withData R t s)
      { s₂.setReq t fun r => { r with state := .transferringH2c } with
        pending := s₂.pending.erase (.own t)
        pdus := s₂.pdus ++ [⟨t, true, s₂.hdr.common.pdo, 0, (s₂.reqs t).length⟩]
        recv := .awaitPduPayload } := by
  have hend : atNeedBuffer R.toQpCtx b t (withData R t s) =
      withBuffers R.toQpCtx t (placed t c len (withData R t s)) := by
    unfold atNeedBuffer
    rw [if_neg (by rw [reqs_withData_self]; simp)]
    dsimp only
    rw [atNeedBuffer_withData hparse]
    rfl
  rw [hend, withBuffers_capsule]
  · rw [reqs_placed_self, reqs_withData_self]
    exact xfer_directed.trans hxfer
  · rw [reqs_placed_self]

theorem capsuleEnd_inCapsule
    (hxfer : spdkNvmfReqGetXfer R.transport s.cmd = .hostToController) {c : Bool} {len : UInt32}
    (hparse : tcpReqParseSgl R.transport b (capsuleContext R s.hdr) s.cmd = .inCapsule c len)
    (hlen : s.hdr.readLen + (if R.conn.ddgst then digestLen else 0) ≤ s.hdr.common.plen.toNat) :
    CapsuleEnd R s (atNeedBuffer R.toQpCtx b t (withData R t s)) := by
  have hfit : Fitted s t (directed R t s) := directed_spec
  have hplaced : Leaves (withData R t s) (placed t c len (withData R t s)) :=
    steady_placed.toLeaves
  have hpdus : (placed t c len (withData R t s)).pdus = s.pdus := hplaced.pdus.trans hfit.pdus
  rw [atNeedBuffer_inCapsule hxfer hparse]
  dsimp only
  refine .data _ rfl (hplaced.arrivals.trans hfit.arrivals) (hplaced.hdr.trans hfit.hdr)
    (congrArg (· ++ _) hpdus) (fun hline => ?_) ?_ hlen
  · refine (lineClear_directed hline).of_reqs (t := t) (fun u hu => ?_)
      (fun u hu _ => hplaced.working hu) ?_
    · dsimp only
      rw [TcpQpair.reqs_setReq_of_ne _ _ _ hu, reqs_placed_of_ne hu, reqs_withData_of_ne hu]
    · dsimp only
      rw [TcpQpair.reqs_setReq_self]
      nofun
  · rw [reqs_placed_self]
    exact (parseSgl_inCapsule hparse).2.1

theorem parseSgl_refused {h : RxHdr} {cmd : TcpCmd} (href : SglRefused R h cmd) :
    ∃ t, tcpReqParseSgl R.transport b (capsuleContext R h) cmd = .fatal t := by
  unfold SglRefused at href
  dsimp only at href
  unfold tcpReqParseSgl
  split at href
  · rename_i htransport
    rw [if_pos htransport, if_pos href]
    exact ⟨_, rfl⟩
  rename_i htransport
  rw [if_neg htransport]
  split
  · rename_i hin
    split
    · exact ⟨_, rfl⟩
    rename_i hlen
    split
    · exact ⟨_, rfl⟩
    rename_i haddr
    obtain ⟨hlong, hmax⟩ := ((href hin).resolve_left hlen).resolve_left haddr
    rw [if_pos hlong, if_neg hmax]
    exact ⟨_, rfl⟩
  · exact ⟨_, rfl⟩

theorem parseSgl_accepted {h : RxHdr} {cmd : TcpCmd} (href : ¬ SglRefused R h cmd)
    (hin : cmd.sgl.isInCapsule = true)
    (hctrl : b.ctrl = true ∨ (h.capsuleLen R.conn).toNat ≤ R.transport.inCapsuleDataSize) :
    ∃ c len, tcpReqParseSgl R.transport b (capsuleContext R h) cmd = .inCapsule c len := by
  unfold SglRefused at href
  dsimp only at href
  have htransport := TcpSgl.not_isTransport_of_isInCapsule hin
  rw [if_neg htransport] at href
  push Not at href
  obtain ⟨-, hlen, haddr, hlong⟩ := href
  rw [tcpReqParseSgl, if_neg htransport, if_pos hin, if_neg (not_not.mpr hlen),
    if_neg (not_not.mpr haddr)]
  split
  · rename_i hgt
    rw [if_pos (hlong hgt), if_pos (hctrl.resolve_right (Nat.not_le.mpr hgt))]
    exact ⟨_, _, rfl⟩
  · exact ⟨_, _, rfl⟩

/-- **What becomes of a capsule that fits.** -/
theorem capsuleEnd (hactive : s.active = true)
    (hfits : CapsuleFits R s.hdr s.cmd b) :
    CapsuleEnd R s (nvmfTcpCapsuleCmdHdrHandle R.toQpCtx b s) := by
  cases hfree : s.free with
  | nil =>
    rw [nvmfTcpCapsuleCmdHdrHandle, hfree]
    dsimp only
    split
    · exact .held rfl
    · exact .ended rfl (Nat.le_succ _)
  | cons t rest =>
    have hfit : Fitted s t (directed R t s) := directed_spec
    have hready : LineClear s → LineClear { directed R t s with recv := .awaitPduReady } :=
      lineClear_directed
    rw [process_new hactive hfree]
    unfold CapsuleFits at hfits
    cases hxfer : spdkNvmfReqGetXfer R.transport s.cmd with
    | none =>
      rw [hxfer] at hfits
      have hl : Leaves { directed R t s with recv := .awaitPduReady }
        ({ directed R t s with recv := .awaitPduReady }.setReq t fun r =>
          { r with state := .readyToExecute }) := .setState rfl (by nofun)
      exact .of_leaves (hl.trans Steady.readyToExecute.toLeaves) rfl hfit.arrivals hfit.hdr
        hfit.pdus hready
        (Or.inr hfits)
    | bidirectional =>
      rw [hxfer] at hfits
      have hl : Leaves { directed R t s with recv := .awaitPduReady }
        ({ directed R t s with recv := .awaitPduReady }.setReq t fun r =>
          { r with status := .invalidOpcode }) := .mark rfl rfl rfl
      exact .of_leaves (hl.trans Steady.requestTransferOut.toLeaves) rfl hfit.arrivals hfit.hdr
        hfit.pdus hready
        (Or.inr hfits)
    | controllerToHost =>
      rw [hxfer] at hfits
      dsimp only at hfits ⊢
      split
      · rename_i hdata
        obtain ⟨e, he⟩ := parseSgl_refused (b := b) (hfits hdata)
        exact capsuleEnd_refused he
      · rename_i hdata
        exact capsuleEnd_bare (by simpa using hdata) fun h => by rw [hxfer] at h; cases h
    | hostToController =>
      rw [hxfer] at hfits
      dsimp only at hfits ⊢
      split
      · rename_i hdata
        rw [if_pos hdata] at hfits
        by_cases href : SglRefused R s.hdr s.cmd
        · obtain ⟨e, he⟩ := parseSgl_refused (b := b) href
          exact capsuleEnd_refused he
        · obtain ⟨hin, hctrl, hlen⟩ := hfits.resolve_left href
          obtain ⟨c, len, hparse⟩ := parseSgl_accepted href hin hctrl
          exact capsuleEnd_inCapsule hxfer hparse hlen
      · rename_i hdata
        rw [if_neg hdata] at hfits
        exact capsuleEnd_bare (by simpa using hdata) fun _ => hfits

end Capsule

/-! ## Lengths -/

section Lengths

variable {c : TcpConn} {h : RxHdr}

/-- A capsule with nothing behind its header is read to its end. -/
theorem readLen_of_bare (hok : nvmfTcpPduChHandle c h.common = .ok h.pshLen)
    (htype : h.common.pduType = .capsuleCmd) (hbare : h.hasData c = false) :
    h.readLen = h.common.plen.toNat := by
  obtain ⟨hn, -, hge, hle⟩ := hlen_of_accepted hok
  have hlen := toNat_calcPshLen (c := c) hle (by omega)
  have hdgst : h.common.hdrLen c = h.common.hlen.toNat + if c.hdgst then digestLen else 0 := by
    simp [CommonHdr.hdrLen, CommonHdr.hasHdgst, htype, PduType.hdgst]
  have hplen : h.common.plen.toNat = h.common.hdrLen c := by
    rw [RxHdr.hasData, decide_eq_false_iff_not, not_not] at hbare
    rw [hbare, hdgst, UInt32.toNat_add, UInt8.toNat_toUInt32]
    split
    · change (h.common.hlen.toNat + 4) % 2 ^ 32 = h.common.hlen.toNat + 4
      omega
    · change (h.common.hlen.toNat + 0) % 2 ^ 32 = h.common.hlen.toNat + 0
      omega
  rw [if_neg fun hlong => absurd hlong.2 (by omega), ← hn] at hlen
  have hhdr : h.common.hlen.toNat ≤ h.common.hdrLen c := Nat.le_add_right ..
  rw [RxHdr.readLen, hlen, hplen]
  omega

/-- What a header leaves for data, where it leaves something. -/
theorem toNat_capsuleLen
    (hlen : h.readLen + (if c.ddgst then digestLen else 0) ≤ h.common.plen.toNat) :
    h.common.plen.toNat =
      h.readLen + (h.capsuleLen c).toNat + if c.ddgst then digestLen else 0 := by
  have hpsh : h.pshLen.toUInt32.toNat = h.pshLen.toNat := UInt8.toNat_toUInt32 _
  unfold RxHdr.readLen digestLen at *
  have h₁ : (h.common.plen - h.pshLen.toUInt32).toNat = h.common.plen.toNat - h.pshLen.toNat := by
    rw [UInt32.toNat_sub_of_le _ _ (UInt32.le_iff_toNat_le.mpr (by omega)), hpsh]
  have h₂ : (h.common.plen - h.pshLen.toUInt32 - 8).toNat
      = h.common.plen.toNat - h.pshLen.toNat - 8 := by
    rw [UInt32.toNat_sub_of_le _ _ (UInt32.le_iff_toNat_le.mpr ?_), h₁]
    · rfl
    · rw [h₁]
      change 8 ≤ _
      omega
  have h₃ : (h.capsuleLen c).toNat
      = h.common.plen.toNat - h.pshLen.toNat - 8 - if c.ddgst then 4 else 0 := by
    unfold RxHdr.capsuleLen
    split
    · rename_i hd
      rw [if_pos hd] at hlen
      rw [UInt32.toNat_sub_of_le _ _ (UInt32.le_iff_toNat_le.mpr ?_), h₂]
      · rfl
      · rw [h₂]
        change 4 ≤ _
        omega
    · rw [UInt32.sub_zero, h₂]
      rfl
  rw [h₃]
  omega

end Lengths

/-! ## The invariant -/

/-- The requests the PDU in progress has taken, when the receiver is past its command. -/
def RxSt.Taken (s : RxSt) (n : ℕ) : Prop :=
  s.qp.arrivals = n + if s.qp.hdr.common.pduType = .capsuleCmd then 1 else 0

/-- **How far into a PDU the receiver is**, in each of its states. -/
def Phase (R : RxCtx) (s : RxSt) : Prop :=
  match s.qp.recv with
  | .awaitPduReady => ∀ p n, s.start = some (p, n) →
      s.pos = p + s.qp.hdr.common.plen.toNat ∧ s.Taken n
  | .awaitPduCh => ∃ p n, s.start = some (p, n) ∧ s.pos = p + s.raw.length ∧
      s.qp.arrivals = n ∧ s.data = []
  | .awaitPduPsh => ∃ p n, s.start = some (p, n) ∧ s.pos = p + s.raw.length ∧
      s.qp.arrivals = n ∧ s.data = [] ∧
      nvmfTcpPduChHandle R.conn s.qp.hdr.common = .ok s.qp.hdr.pshLen
  | .awaitReq => ∃ p n, s.start = some (p, n) ∧ s.pos = p + s.qp.hdr.readLen ∧
      s.qp.arrivals = n ∧ s.data = [] ∧
      nvmfTcpPduChHandle R.conn s.qp.hdr.common = .ok s.qp.hdr.pshLen ∧
      s.qp.hdr.common.pduType = .capsuleCmd
  | .awaitPduPayload => ∃ p n, s.start = some (p, n) ∧
      s.pos = p + s.qp.hdr.readLen + s.data.length ∧ s.Taken n ∧
      (s.qp.hdr.common.pduType ≠ .h2cTermReq →
        s.qp.hdr.common.plen.toNat =
          s.qp.hdr.readLen + s.dataLen + if R.conn.ddgst then digestLen else 0)
  | .quiescing | .error => ∀ p n, s.start = some (p, n) → s.qp.arrivals ≤ n + 1

section Phases

variable {R : RxCtx} {s : RxSt}

theorem phase_ready (h : s.qp.recv = .awaitPduReady) : Phase R s ↔ ∀ p n, s.start = some (p, n) →
    s.pos = p + s.qp.hdr.common.plen.toNat ∧ s.Taken n := by
  rw [Phase, h]

theorem phase_ch (h : s.qp.recv = .awaitPduCh) : Phase R s ↔ ∃ p n, s.start = some (p, n) ∧
    s.pos = p + s.raw.length ∧ s.qp.arrivals = n ∧ s.data = [] := by
  rw [Phase, h]

theorem phase_psh (h : s.qp.recv = .awaitPduPsh) : Phase R s ↔ ∃ p n, s.start = some (p, n) ∧
    s.pos = p + s.raw.length ∧ s.qp.arrivals = n ∧ s.data = [] ∧
    nvmfTcpPduChHandle R.conn s.qp.hdr.common = .ok s.qp.hdr.pshLen := by
  rw [Phase, h]

theorem phase_req (h : s.qp.recv = .awaitReq) : Phase R s ↔ ∃ p n, s.start = some (p, n) ∧
    s.pos = p + s.qp.hdr.readLen ∧ s.qp.arrivals = n ∧ s.data = [] ∧
    nvmfTcpPduChHandle R.conn s.qp.hdr.common = .ok s.qp.hdr.pshLen ∧
    s.qp.hdr.common.pduType = .capsuleCmd := by
  rw [Phase, h]

theorem phase_payload (h : s.qp.recv = .awaitPduPayload) : Phase R s ↔
    ∃ p n, s.start = some (p, n) ∧ s.pos = p + s.qp.hdr.readLen + s.data.length ∧ s.Taken n ∧
      (s.qp.hdr.common.pduType ≠ .h2cTermReq → s.qp.hdr.common.plen.toNat =
        s.qp.hdr.readLen + s.dataLen + if R.conn.ddgst then digestLen else 0) := by
  rw [Phase, h]

theorem phase_quiescing (h : s.qp.recv = .quiescing) : Phase R s ↔
    ∀ p n, s.start = some (p, n) → s.qp.arrivals ≤ n + 1 := by
  rw [Phase, h]

end Phases

/-- **What holds of a receiver whose PDUs end where they say.** -/
structure RxSound (R : RxCtx) (s : RxSt) : Prop where
  framed : ∀ p ∈ s.past, p.stop = p.start + p.hdr.plen.toNat
  taken : ∀ p ∈ s.past, p.hdr.pduType = .capsuleCmd → p.taken = 1
  line : s.qp.recv ≠ .quiescing → LineClear s.qp
  phase : Phase R s

end NdpHeaan
