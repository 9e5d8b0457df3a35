import NdpHeaan.Tcp.DecodeRun
import NdpHeaan.Tcp.FramingRun

/-!
# Tcp/WellFormed — no capsule of a well-formed stream is held

    ps = done ++ p :: rest        bytes read = done.flatten ++ front of p

A receiver that is fed well-formed PDUs begins its headers where the PDUs begin: what it reads
behind a header comes from the header and the command of the very PDU it is in, and that is what
`plen` leaves.  So the capsule it has come to is one of the stream, and its data is in it.

A capsule without data may still say that it has some.  Its SGL is then refused, or it is of no
bytes and the receiver waits for them forever.
-/

open Machinery

namespace NdpHeaan

/-! ## The front of a stream -/

section Front

variable {R : RxCtx} {h : RxHdr} {p bs : List UInt8} {n : ℕ}

theorem leWord_take {offset size : ℕ} (h : offset + size ≤ n) :
    leWord (bs.take n) offset size = leWord bs offset size := by
  rw [leWord, leWord, List.drop_take, List.take_take, Nat.min_eq_left (by omega)]

theorem getD_take {i : ℕ} (h : i < n) : (bs.take n).getD i 0 = bs.getD i 0 := by
  rw [List.getD_eq_getElem?_getD, List.getD_eq_getElem?_getD, List.getElem?_take_of_lt h]

/-- A common header is its first eight bytes. -/
theorem CommonHdr.ofBytes_take (h : 8 ≤ n) : CommonHdr.ofBytes (bs.take n) = .ofBytes bs := by
  unfold ofBytes
  rw [getD_take (by omega), getD_take (by omega), getD_take (by omega), getD_take (by omega),
    leWord_take (by omega)]

theorem H2cDataHdr.ofBytes_take (h : 20 ≤ n) : H2cDataHdr.ofBytes (bs.take n) = .ofBytes bs := by
  unfold ofBytes
  rw [leWord_take (by omega), leWord_take (by omega), leWord_take (by omega),
    leWord_take (by omega)]

/-- The header of a PDU is read inside it. -/
theorem WellFormedPdu.readLen_le (hp : WellFormedPdu R h p) : h.readLen ≤ p.length := by
  have hkind := hp.kind
  rw [hp.size]
  split at hkind
  · rename_i htype
    cases hdata : h.hasData R.conn with
    | false => exact (readLen_of_bare hp.accepted htype hdata).le
    | true => exact (Nat.le_add_right ..).trans (hkind hdata).2.2.2.2
  · rw [hkind.2, Nat.add_assoc]
    exact Nat.le_add_right ..
  · exact hkind.elim

/-- …and behind the fields the handlers look at. -/
theorem WellFormedPdu.le_readLen (hp : WellFormedPdu R h p) : 24 ≤ h.readLen := by
  obtain ⟨hn, -, hge, hle⟩ := hlen_of_accepted hp.accepted
  have hlen := toNat_calcPshLen (c := R.conn) hle (by omega)
  have hhdr : h.common.hlen.toNat ≤ h.common.hdrLen R.conn := Nat.le_add_right ..
  rw [RxHdr.readLen, hn, hlen]
  split
  · rename_i hlong
    have hpdo := hp.pdo hlong.2
    omega
  · omega

/-- **The PDU at the front**: the first eight bytes fix its header. -/
theorem wellFormed_front {rest : List (List UInt8)} {pshLen : UInt8}
    (hrest : WellFormedStream R rest) (hpre : bs <+: rest.flatten) (hlen : 8 ≤ bs.length)
    (hok : nvmfTcpPduChHandle R.conn (.ofBytes bs) = .ok pshLen) :
    ∃ p rest', rest = p :: rest' ∧ WellFormedPdu R ⟨.ofBytes bs, pshLen⟩ p := by
  cases rest with
  | nil =>
    rw [List.flatten_nil, List.prefix_nil] at hpre
    rw [hpre] at hlen
    cases hlen
  | cons p rest' =>
    obtain ⟨h, hp⟩ := hrest p List.mem_cons_self
    have hsize : 8 ≤ p.length := (Nat.le_add_right ..).trans hp.readLen_le
    have hsame : bs.take 8 = p.take 8 := by
      have htake : bs.take 8 <+: p :=
        List.prefix_of_prefix_length_le ((List.take_prefix ..).trans hpre)
          (by simp) (by rw [List.length_take]; omega)
      rw [List.prefix_iff_eq_take.mp htake, List.length_take, Nat.min_eq_left hlen]
    have hcommon : CommonHdr.ofBytes bs = h.common := by
      rw [hp.common, ← CommonHdr.ofBytes_take (le_refl 8), hsame,
        CommonHdr.ofBytes_take (le_refl 8)]
    rw [hcommon, hp.accepted] at hok
    refine ⟨p, rest', rfl, ?_⟩
    rw [hcommon, ← Except.ok.inj hok]
    exact hp

/-- What has been read of the PDU at the front. -/
theorem eq_take_of_prefix {r : List UInt8} (hpre : bs <+: p ++ r) (hlen : bs.length ≤ p.length) :
    bs = p.take bs.length :=
  List.prefix_iff_eq_take.mp (List.prefix_of_prefix_length_le hpre (List.prefix_append ..) hlen)

end Front

/-! ## A capsule without data that says it has some -/

section Hollow

variable {R : RxCtx} {s : TcpQpair} {t : ℕ}

theorem capsuleLen_of_bare {c : TcpConn} {h : RxHdr} (hlen : h.readLen = h.common.plen.toNat) :
    h.capsuleLen c = if c.ddgst then 0 - 4 else 0 := by
  have hzero : h.common.plen - h.pshLen.toUInt32 - 8 = 0 := by
    have hpsh : h.pshLen.toUInt32.toNat = h.pshLen.toNat := UInt8.toNat_toUInt32 _
    rw [RxHdr.readLen] at hlen
    have hplen : h.common.plen = 8 + h.pshLen.toUInt32 := by
      refine UInt32.toNat_inj.mp ?_
      have hlt := h.common.plen.toNat_lt
      rw [UInt32.toNat_add, hpsh]
      change _ = (8 + h.pshLen.toNat) % 2 ^ 32
      rw [hlen, Nat.mod_eq_of_lt hlt]
    rw [hplen, UInt32.add_sub_cancel, UInt32.sub_self]
  rw [RxHdr.capsuleLen, hzero]
  split <;> rfl

/-- Such a capsule is of no bytes, if its SGL is taken. -/
theorem capsuleLen_of_hollow {h : RxHdr} {cmd : TcpCmd} (hlen : h.readLen = h.common.plen.toNat)
    (hin : cmd.sgl.isInCapsule = true) (href : ¬ SglRefused R h cmd) :
    h.capsuleLen R.conn = 0 := by
  have hcap := capsuleLen_of_bare (c := R.conn) hlen
  unfold SglRefused at href
  dsimp only at href
  rw [if_neg (TcpSgl.not_isTransport_of_isInCapsule hin)] at href
  push Not at href
  obtain ⟨-, -, -, hlong⟩ := href
  split at hcap
  · -- the digest alone makes the length wrap, and no capsule is as long as that
    rw [hcap] at hlong
    have hmax := R.transport.inCapsuleDataSize_le
    have hwrap : (0 - 4 : UInt32).toNat = 4294967292 := by decide
    rw [hwrap] at hlong
    have := (hlong (by omega)).1
    unfold inCapsuleDataMaxSize at this
    omega
  · exact hcap

/-- **A capsule without data that says it has some**: it is refused, or in line, or the receiver
goes on to no bytes. -/
theorem capsule_hollow {rest : List ℕ} (hactive : s.active = true) (hfree : s.free = t :: rest)
    (hdata : s.hdr.hasData R.conn = false) (hlen : s.hdr.readLen = s.hdr.common.plen.toNat)
    (hxfer : spdkNvmfReqGetXfer R.transport s.cmd = .hostToController)
    (hin : s.cmd.sgl.isInCapsule = true) :
    (nvmfTcpCapsuleCmdHdrHandle R.toQpCtx {} s).recv = .quiescing ∨
      (nvmfTcpCapsuleCmdHdrHandle R.toQpCtx {} s).recv = .awaitPduReady ∨
      (nvmfTcpCapsuleCmdHdrHandle R.toQpCtx {} s).recv = .awaitPduPayload ∧
        ∃ p, (nvmfTcpCapsuleCmdHdrHandle R.toQpCtx {} s).pdus = s.pdus ++ [p] ∧
          p.dataLen = 0 := by
  have hfit : Fitted s t (directed R t s) := directed_spec
  rw [process_new hactive hfree, hxfer]
  dsimp only
  rw [if_neg (by rw [hdata]; decide)]
  set q := inLine t { directed R t s with recv := .awaitPduReady } with hq
  have hcmd : (q.reqs t).cmd = s.cmd := by
    rw [hq, reqs_inLine_self]
    exact hfit.cmd
  have hctx : q.sglContext R.toQpCtx = capsuleContext R s.hdr := by
    change SglContext.mk R.admin ((directed R t s).hdr.capsuleLen R.conn) false none = _
    rw [hfit.hdr]
  unfold atNeedBuffer
  dsimp only
  split
  · exact Or.inr (Or.inl rfl)
  rw [hcmd, hctx]
  by_cases href : SglRefused R s.hdr s.cmd
  · obtain ⟨e, he⟩ := parseSgl_refused (b := {}) href
    rw [he]
    exact Or.inl rfl
  · obtain ⟨c, len, hparse⟩ := parseSgl_accepted (b := {}) href hin (Or.inl rfl)
    have hzero : len = 0 :=
      (parseSgl_inCapsule hparse).2.1.trans (capsuleLen_of_hollow hlen hin href)
    rw [hparse]
    dsimp only
    have hxferq : ((placed t c len q).reqs t).xfer = .hostToController := by
      rw [reqs_placed_self, hq, reqs_inLine_self]
      exact xfer_directed.trans hxfer
    have hpool : ((placed t c len q).reqs t).dataFromPool = false := by rw [reqs_placed_self]
    have hpdus : (placed t c len q).pdus = s.pdus := steady_placed.toLeaves.pdus.trans hfit.pdus
    have hend := withBuffers_capsule (Q := R.toQpCtx) hxferq hpool
    refine Or.inr (Or.inr ⟨congrArg TcpQpair.recv hend, _, (congrArg TcpQpair.pdus hend).trans
      (congrArg (· ++ _) hpdus), ?_⟩)
    dsimp only
    rw [reqs_placed_self]
    exact hzero

end Hollow

/-! ## Where the receiver is -/

/-- **Where in a stream of PDUs the receiver is**: behind whole PDUs, and in the next one. -/
def OnTrack (R : RxCtx) (ps : List (List UInt8)) (pre : List UInt8) (s : RxSt) : Prop :=
  match s.qp.recv with
  | .awaitPduReady => ∃ done rest, ps = done ++ rest ∧ pre = done.flatten
  | .awaitPduCh => ∃ done rest, ps = done ++ rest ∧ pre = done.flatten ++ s.raw
  | .awaitPduPsh => ∃ done p rest, ps = done ++ p :: rest ∧ pre = done.flatten ++ s.raw ∧
      WellFormedPdu R s.qp.hdr p
  | .awaitReq => ∃ done p rest, ps = done ++ p :: rest ∧
      pre = done.flatten ++ p.take s.qp.hdr.readLen ∧ WellFormedPdu R s.qp.hdr p ∧
      s.qp.hdr.common.pduType = .capsuleCmd ∧ s.qp.cmd = s.qp.hdr.command p
  | .awaitPduPayload => s.dataLen ≠ 0 → ∃ done p rest, ps = done ++ p :: rest ∧
      pre = done.flatten ++ (p.take s.qp.hdr.readLen ++ s.data) ∧ WellFormedPdu R s.qp.hdr p ∧
      p.length = s.qp.hdr.readLen + s.dataLen + if R.conn.ddgst then digestLen else 0
  | .quiescing | .error => True

namespace OnTrack

variable {R : RxCtx} {ps : List (List UInt8)} {pre bs : List UInt8} {s s' : RxSt}

theorem ended (h : s.qp.recv = .quiescing) : OnTrack R ps pre s := by
  rw [OnTrack, h]
  trivial

theorem ready (done : List (List UInt8)) {rest : List (List UInt8)}
    (hrecv : s.qp.recv = .awaitPduReady) (hps : ps = done ++ rest) (hpre : pre = done.flatten) :
    OnTrack R ps pre s := by
  rw [OnTrack, hrecv]
  exact ⟨done, rest, hps, hpre⟩

/-- A PDU has been read to its end. -/
theorem next {done rest : List (List UInt8)} {p : List UInt8}
    (hrecv : s.qp.recv = .awaitPduReady) (hps : ps = done ++ p :: rest)
    (hpre : pre = done.flatten ++ p) : OnTrack R ps pre s :=
  have happ : ps = (done ++ [p]) ++ rest := by
    rw [hps, List.append_assoc]
    rfl
  .ready (done ++ [p]) hrecv happ (by rw [hpre, List.flatten_append, List.flatten_singleton])

/-- The stream as the receiver has it before it. -/
theorem prefix_of_split {done rest : List (List UInt8)} (hps : ps = done ++ rest)
    (h : done.flatten ++ bs <+: ps.flatten) : bs <+: rest.flatten := by
  rw [hps, List.flatten_append] at h
  exact (List.prefix_append_right_inj _).mp h

/-- **A header is read**: the receiver goes on to its command or its data. -/
theorem pshHandle {done rest : List (List UInt8)} {p : List UInt8} (hps : ps = done ++ p :: rest)
    (hpre : pre = done.flatten ++ s.raw) (hp : WellFormedPdu R s.qp.hdr p)
    (hraw : s.raw = p.take s.qp.hdr.readLen) (hdata : s.data = []) :
    OnTrack R ps pre (nvmfTcpPduPshHandle R s) := by
  have hkind := hp.kind
  unfold nvmfTcpPduPshHandle
  split
  · exact ended rfl
  split
  · rename_i htype
    exact ⟨done, p, rest, hps, hraw ▸ hpre, hp, htype,
      congrArg (fun raw => TcpCmd.ofBytes (raw.drop 8)) hraw⟩
  · rename_i htype
    rw [htype] at hkind
    dsimp only
    unfold nvmfTcpH2cDataHdrHandle
    have hterm : ∀ e, OnTrack R ps pre (s.handled (s.qp.terminate e)) := fun e =>
      ended (recv_handled _)
    split
    · exact hterm _
    dsimp only
    split
    · exact hterm _
    split
    · exact hterm _
    split
    · exact hterm _
    split
    · exact hterm _
    rw [RxSound.handled_append rfl]
    intro _
    have hh2c : H2cDataHdr.ofBytes s.raw = .ofBytes p := by
      rw [hraw]
      exact H2cDataHdr.ofBytes_take (by have := hp.le_readLen; omega)
    refine ⟨done, p, rest, hps, ?_, hp, ?_⟩
    · rw [hpre, hraw]
      change _ = done.flatten ++ (p.take s.qp.hdr.readLen ++ s.data)
      rw [hdata, List.append_nil]
    · rw [hh2c, hp.size]
      exact hkind.2
  · rename_i htype
    rw [htype] at hkind
    exact hkind.elim
  · exact ended rfl

/-- What a capsule of the stream comes to, unless it says that it has data and has none. -/
theorem capsuleFits {h : RxHdr} {p : List UInt8} (hp : WellFormedPdu R h p)
    (htype : h.common.pduType = .capsuleCmd)
    (hsolid : ¬ (h.hasData R.conn = false ∧
      spdkNvmfReqGetXfer R.transport (h.command p) = .hostToController ∧
      (h.command p).sgl.isInCapsule = true)) : CapsuleFits R h (h.command p) {} := by
  have hkind := hp.kind
  rw [htype] at hkind
  have hbare : spdkNvmfReqGetXfer R.transport (h.command p) ≠ .hostToController →
      h.hasData R.conn = false := fun hne =>
    Bool.eq_false_iff.mpr fun hdata => hne (hkind hdata).1
  unfold CapsuleFits
  cases hxfer : spdkNvmfReqGetXfer R.transport (h.command p) with
  | none | bidirectional =>
    exact readLen_of_bare hp.accepted htype (hbare (by rw [hxfer]; nofun))
  | controllerToHost =>
    intro hdata
    rw [hbare (by rw [hxfer]; nofun)] at hdata
    cases hdata
  | hostToController =>
    dsimp only
    split
    · rename_i hdata
      obtain ⟨-, hin, -, -, hlen⟩ := hkind hdata
      exact Or.inr ⟨hin, Or.inl rfl, hlen⟩
    · rename_i hdata
      exact Bool.eq_false_iff.mpr fun hin => hsolid ⟨Bool.eq_false_iff.mpr hdata, hxfer, hin⟩

/-- **A capsule is handed over to a request.** -/
theorem capsule (h : OnTrack R ps pre s) (hrecv : s.qp.recv = .awaitReq)
    (hactive : s.qp.active = true) (hfree : s.qp.free ≠ []) (hdata : s.data = []) :
    OnTrack R ps pre (s.handled (nvmfTcpCapsuleCmdHdrHandle R.toQpCtx {} s.qp)) := by
  have hreq := h
  rw [OnTrack, hrecv] at hreq
  obtain ⟨done, p, rest, hps, hpre, hp, htype, hcmd⟩ := hreq
  -- where the header is all of the PDU, the receiver is behind it
  have hwhole : s.qp.hdr.readLen = s.qp.hdr.common.plen.toNat → pre = done.flatten ++ p := by
    intro hlen
    rw [hpre, hlen, ← hp.size, List.take_length]
  by_cases hsolid : s.qp.hdr.hasData R.conn = false ∧
      spdkNvmfReqGetXfer R.transport s.qp.cmd = .hostToController ∧
      s.qp.cmd.sgl.isInCapsule = true
  · obtain ⟨hbare, hxfer, hin⟩ := hsolid
    have hlen := readLen_of_bare hp.accepted htype hbare
    obtain ⟨t, more, ht⟩ := List.exists_cons_of_ne_nil hfree
    rcases capsule_hollow hactive ht hbare hlen hxfer hin with hq | hq | ⟨hq, d, hd, hzero⟩
    · exact ended ((recv_handled _).trans hq)
    · exact .next ((recv_handled _).trans hq) hps (hwhole hlen)
    · rw [RxSound.handled_append hd, OnTrack]
      dsimp only
      rw [hq]
      exact fun hne => absurd (congrArg UInt32.toNat hzero) hne
  · rw [hcmd] at hsolid
    have hend := capsuleEnd hactive (hcmd ▸ capsuleFits hp htype hsolid)
    generalize nvmfTcpCapsuleCmdHdrHandle R.toQpCtx {} s.qp = qp at hend ⊢
    cases hend with
    | held heq =>
      rw [heq, RxSound.handled_eq (le_refl _)]
      exact h
    | ended hq => exact ended ((recv_handled _).trans hq)
    | next hnext _ _ _ _ hlen =>
      exact .next ((recv_handled _).trans hnext) hps
        (hwhole (hlen.elim (readLen_of_bare hp.accepted htype) id))
    | data q hpay _ hhdr hpdus _ hq hlen =>
      rw [RxSound.handled_append hpdus, OnTrack]
      dsimp only
      rw [hpay, hhdr, hq]
      intro _
      refine ⟨done, p, rest, hps, ?_, hp, hp.size.trans (toNat_capsuleLen hlen)⟩
      rw [hpre, hdata, List.append_nil]

/-- **A read that comes short.** -/
theorem short (h : OnTrack R ps pre s) (hshort : s.Short R bs) :
    OnTrack R ps (pre ++ bs) (s.part bs) := by
  unfold RxSt.Short at hshort
  unfold OnTrack at h ⊢
  rw [recv_part]
  split at hshort
  · rename_i hrecv
    rw [hrecv] at h ⊢
    obtain ⟨done, rest, hps, rfl⟩ := h
    refine ⟨done, rest, hps, ?_⟩
    rw [RxSt.part, hrecv, List.append_assoc]
    rfl
  · rename_i hrecv
    rw [hrecv] at h ⊢
    obtain ⟨done, p, rest, hps, rfl, hp⟩ := h
    refine ⟨done, p, rest, hps, ?_, ?_⟩
    · rw [RxSt.part, hrecv, List.append_assoc]
      rfl
    · rw [RxSt.part, hrecv]
      exact hp
  · rename_i hrecv
    rw [hrecv] at h ⊢
    intro hne
    rw [RxSt.part, hrecv] at hne ⊢
    obtain ⟨done, p, rest, hps, rfl, hp, hlen⟩ := h hne
    refine ⟨done, p, rest, hps, ?_, hp, hlen⟩
    rw [List.append_assoc, List.append_assoc]
    rfl
  · exact hshort.elim

/-- **The data of a PDU has come in**: the receiver is behind the PDU. -/
theorem payload (h : OnTrack R ps pre s) (hrecv : s.qp.recv = .awaitPduPayload)
    (hne : s.dataLen ≠ 0) (hlen : (s.data ++ bs).length = s.payloadLen R)
    (hpre : pre ++ bs <+: ps.flatten) :
    OnTrack R ps (pre ++ bs) (nvmfTcpPduPayloadHandle R (s.readData bs)) := by
  rw [OnTrack, hrecv] at h
  obtain ⟨done, p, rest, hps, rfl, hp, hsize⟩ := h hne
  rcases recv_payloadHandle (R := R) (s := s.readData bs) with hr | hr
  swap
  · exact ended hr
  have htype : s.qp.hdr.common.pduType ≠ .h2cTermReq := fun hc => by
    have hkind := hp.kind
    rw [hc] at hkind
    exact hkind
  rw [List.append_assoc, List.append_assoc] at hpre
  have hcount : (p.take s.qp.hdr.readLen ++ (s.data ++ bs)).length = p.length := by
    rw [RxSt.payloadLen] at hlen
    simp only [ne_eq, htype, not_false_eq_true, true_and] at hlen
    rw [List.length_append, List.length_take, Nat.min_eq_left hp.readLen_le, hlen, hsize,
      Nat.add_assoc]
  have heq := eq_take_of_prefix (prefix_of_split hps hpre) hcount.le
  rw [hcount, List.take_length] at heq
  refine .next hr hps ?_
  rw [List.append_assoc, List.append_assoc, heq]

/-- **A pass keeps the receiver on the track**, while what it is handed is of the stream. -/
theorem pass (h : OnTrack R ps pre s) (hwf : WellFormedStream R ps) (hinv : RxInv R s)
    (hready : s.qp.recv ≠ .awaitPduReady) (hactive : s.qp.active = true)
    (hfree : s.qp.recv = .awaitReq → s.qp.free ≠ []) (hpre : pre ++ bs <+: ps.flatten)
    (hs : sockPass R true {} bs s = some s') : OnTrack R ps (pre ++ bs) s' := by
  cases passEnd hready hs with
  | short hshort hs =>
    subst hs
    exact h.short hshort
  | ch hrecv hlen hs =>
    subst hs
    rw [OnTrack, hrecv] at h
    obtain ⟨done, rest, hps, rfl⟩ := h
    rw [List.append_assoc] at hpre ⊢
    unfold pduChHandle
    split
    · exact ended rfl
    · rename_i n hok
      have hrest : WellFormedStream R rest := fun p hp =>
        hwf p (hps ▸ List.mem_append_right _ hp)
      obtain ⟨p, rest', rfl, hp⟩ := wellFormed_front hrest (prefix_of_split hps hpre) hlen.ge hok
      exact ⟨done, p, rest', hps, rfl, hp⟩
  | psh hrecv hlen hs =>
    subst hs
    rw [OnTrack, hrecv] at h
    obtain ⟨done, p, rest, hps, rfl, hp⟩ := h
    rw [List.append_assoc] at hpre ⊢
    have hraw := eq_take_of_prefix (prefix_of_split hps hpre) (hlen ▸ hp.readLen_le)
    rw [hlen] at hraw
    exact pshHandle hps rfl hp hraw (hinv.psh hrecv).2
  | req hrecv hnil hs =>
    subst hs hnil
    rw [List.append_nil]
    exact h.capsule hrecv hactive (hfree hrecv) (hinv.req hrecv)
  | payload hrecv hne hlen hs =>
    subst hs
    exact h.payload hrecv hne hlen hpre
  | idle hrecv hlen hnil hs =>
    subst hs hnil
    rw [List.append_nil]
    exact h

end OnTrack

/-! ## Runs -/

section Runs

variable {D : DecodeCtx} {below : TcpReq} {ps : List (List UInt8)} {pre bs : List UInt8}
  {d d' : DecodeSt}

theorem OnTrack.begun (h : OnTrack D.toRxCtx ps pre d.rx) :
    OnTrack D.toRxCtx ps pre d.begun.rx := by
  unfold DecodeSt.begun
  split
  · rename_i hrecv
    rw [OnTrack, hrecv] at h
    obtain ⟨done, rest, hps, hpre⟩ := h
    exact ⟨done, rest, hps, hpre.trans (List.append_nil _).symm⟩
  · exact h

theorem OnTrack.resume (h : OnTrack D.toRxCtx ps pre d.rx) :
    OnTrack D.toRxCtx ps pre (d.resume D).rx := by
  have hhdr : (d.resume D).rx.qp.hdr = d.rx.qp.hdr := D.hdr_between ..
  have hcmd : (d.resume D).rx.qp.cmd = d.rx.qp.cmd := D.cmd_between ..
  unfold OnTrack at h ⊢
  rw [recv_resume, hhdr, hcmd]
  exact h

theorem OnTrack.decodePass (h : OnTrack D.toRxCtx ps pre d.rx)
    (hwf : WellFormedStream D.toRxCtx ps) (hinv : DecodeInv D d)
    (hpre : pre ++ bs <+: ps.flatten) (hs : decodePass D bs d = some d') :
    OnTrack D.toRxCtx ps (pre ++ bs) d'.rx := by
  obtain ⟨hworks, -, s, iov, hpass, -, rfl⟩ := decodePass_eq_some hs
  have hb := hinv.begun
  have hon := h.begun.pass hwf hb.rx recv_begun_ne (works_begun.mpr hworks).2.2 hb.free hpre hpass
  split
  · exact hon
  · exact OnTrack.resume (d := ⟨s, iov, _, _⟩) hon

/-- A run over a stream stays on its track. -/
theorem OnTrack.run (hwf : WellFormedStream D.toRxCtx ps) : ∀ {cs : List (List UInt8)}
    {pre : List UInt8} {d d' : DecodeSt}, OnTrack D.toRxCtx ps pre d.rx → DecodeInv D d →
      pre ++ cs.flatten <+: ps.flatten → (decodeSys D below).run d cs = some d' →
        OnTrack D.toRxCtx ps (pre ++ cs.flatten) d'.rx
  | [], pre, d, d', h, _, _, hs => by
      cases hs
      rw [List.flatten_nil, List.append_nil]
      exact h
  | c :: cs, pre, d, d', h, hinv, hpre, hs => by
      obtain ⟨d₁, hpass, hrest⟩ := Option.bind_eq_some_iff.mp hs
      rw [List.flatten_cons, ← List.append_assoc] at hpre ⊢
      exact OnTrack.run hwf (h.decodePass hwf hinv ((List.prefix_append ..).trans hpre) hpass)
        (hinv.pass hpass) hpre hrest

/-- **No capsule of a well-formed stream is held.** -/
theorem noneHeld_of_wellFormed (hwf : WellFormedStream D.toRxCtx ps) :
    NoneHeld D below ps.flatten := by
  intro cs d hrun hpre _ hrecv hheld
  have hon : OnTrack D.toRxCtx ps ([] ++ cs.flatten) d.rx :=
    OnTrack.run hwf (.ready [] rfl rfl rfl) (.init below) (by simpa using hpre) hrun
  rw [OnTrack, hrecv] at hon
  obtain ⟨done, p, rest, -, -, hp, htype, hcmd⟩ := hon
  obtain ⟨hdata, -, hdir⟩ := hheld
  have hkind := hp.kind
  rw [htype] at hkind
  obtain ⟨hxfer, hin, -⟩ := hkind hdata
  rw [hcmd, hxfer] at hdir
  exact absurd hin (by rw [hdir]; decide)

end Runs

end NdpHeaan
