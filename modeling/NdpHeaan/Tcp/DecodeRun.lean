import NdpHeaan.Tcp.Decode

/-!
# Tcp/DecodeRun — a stream is decoded alike, unless a capsule is held

A read that comes short changes nothing but what has been read (`DecodeSt.part`), so the rest may be
read in one go or in several.  The receiver is then a lawful reader, and what it has been called
with depends on the bytes alone, as long as every pass without a read ends.
-/

open Machinery

namespace NdpHeaan

variable {D : DecodeCtx} {d d' : DecodeSt} {bs : List UInt8}

/-! ## Where the payload goes -/

/-- **A read goes on where the last one ended.** -/
theorem flatten_nvmeTcpBuildPayloadIovs (hiov : d.iov.length ≤ 16) :
    (nvmeTcpBuildPayloadIovs D d).flatten = (d.places D).flatten.drop d.rx.data.length := by
  refine flatten_skipIov _ ?_
  rw [DecodeSt.places, List.length_append]
  split
  · exact Nat.succ_le_succ hiov
  · exact Nat.le_succ_of_le hiov

theorem length_dataIov_le {stale : ℕ} {s : RxSt} {iov : List (List Cell)}
    (h : dataIov stale s = some iov) : iov.length ≤ 16 := by
  unfold dataIov at h
  split at h
  · obtain rfl := Option.some.inj h
    simp
  · obtain ⟨pdu, hpdu, rfl⟩ := Option.map_eq_some_iff.mp h
    rw [List.length_map]
    exact length_setDataBuf_le hpdu

/-! ## A read that comes short -/

/-- The receiver with some of what it asked for. -/
def RxSt.part (s : RxSt) (bs : List UInt8) : RxSt :=
  match s.qp.recv with
  | .awaitPduCh =>
    { s.readRaw bs with qp := { s.qp with hdr := ⟨.ofBytes (s.raw ++ bs), 0⟩ } }
  | .awaitPduPsh => s.readRaw bs
  | .awaitPduPayload => s.readData bs
  | _ => s

/-- The read is short of what the receiver needs to go on. -/
def RxSt.Short (R : RxCtx) (s : RxSt) (bs : List UInt8) : Prop :=
  match s.qp.recv with
  | .awaitPduCh => s.raw.length + bs.length < 8
  | .awaitPduPsh => s.raw.length + bs.length < s.qp.hdr.readLen
  | .awaitPduPayload => s.dataLen ≠ 0 ∧ s.data.length + bs.length < s.payloadLen R
  | _ => False

section Part

variable {R : RxCtx} {s : RxSt} {as : List UInt8}

theorem recv_part : (s.part as).qp.recv = s.qp.recv := by
  unfold RxSt.part
  split <;> rfl

theorem sockPass_short (h : s.Short R bs) : sockPass R true {} bs s = some (s.part bs) := by
  unfold RxSt.Short at h
  unfold sockPass RxSt.part
  split at h
  · rename_i hrecv
    rw [hrecv]
    dsimp only
    unfold awaitPduCh
    rw [if_neg (by omega)]
    dsimp only
    rw [if_pos]
    · rfl
    · change (s.raw ++ bs).length < 8
      rwa [List.length_append]
  · rename_i hrecv
    rw [hrecv]
    dsimp only
    unfold awaitPduPsh
    have hlt : s.raw.length + bs.length < 8 + s.qp.hdr.pshLen.toNat := h
    dsimp only
    rw [if_neg (by omega), if_pos]
    change (s.raw ++ bs).length < _
    rwa [List.length_append]
  · rename_i hrecv
    rw [hrecv]
    dsimp only
    unfold awaitPduPayload
    rw [if_neg h.1, if_neg (by omega)]
    dsimp only
    rw [if_pos]
    change (s.data ++ bs).length < _
    rw [List.length_append]
    exact h.2
  · exact h.elim

/-- **What is left may be read in one go.** -/
theorem sockPass_append (h : s.Short R as) :
    sockPass R true {} (as ++ bs) s = sockPass R true {} bs (s.part as) := by
  unfold RxSt.Short at h
  rw [sockPass, sockPass, recv_part]
  split at h
  · rename_i hrecv
    rw [hrecv]
    dsimp only
    rw [RxSt.part, hrecv]
    dsimp only
    simp only [awaitPduCh, RxSt.readRaw, List.length_append, List.append_assoc, Nat.add_assoc]
  · rename_i hrecv
    rw [hrecv]
    dsimp only
    rw [RxSt.part, hrecv]
    dsimp only
    simp only [awaitPduPsh, RxSt.readRaw, List.length_append, List.append_assoc, Nat.add_assoc]
  · rename_i hrecv
    rw [hrecv]
    dsimp only
    rw [RxSt.part, hrecv]
    dsimp only
    simp only [awaitPduPayload, RxSt.readData, List.length_append, List.append_assoc,
      Nat.add_assoc, RxSt.payloadLen, if_neg h.1]
    rfl
  · exact h.elim

end Part

/-! ## What holds between two passes -/

/-- **How far a receiver can be** in each of its states. -/
structure RxInv (R : RxCtx) (s : RxSt) : Prop where
  ch : s.qp.recv = .awaitPduCh →
    s.raw.length < 8 ∧ s.qp.hdr = ⟨.ofBytes s.raw, 0⟩ ∧ s.data = []
  psh : s.qp.recv = .awaitPduPsh → s.raw.length ≤ s.qp.hdr.readLen ∧ s.data = []
  req : s.qp.recv = .awaitReq → s.data = []
  payload : s.qp.recv = .awaitPduPayload → s.dataLen ≠ 0 → s.data.length < s.payloadLen R

structure DecodeInv (D : DecodeCtx) (d : DecodeSt) : Prop where
  rx : RxInv D.toRxCtx d.rx
  slots : d.iov.length ≤ 16
  free : d.rx.qp.recv = .awaitReq → d.rx.qp.free ≠ []

/-- The receiver with some of what it asked for, and what has been stored of it. -/
def DecodeSt.part (D : DecodeCtx) (d : DecodeSt) (bs : List UInt8) : DecodeSt :=
  { d with rx := d.rx.part bs, stored := d.stored ++ d.stores D bs }

theorem begun_of_ne (h : d.rx.qp.recv ≠ .awaitPduReady) : d.begun = d := if_neg h

theorem RxSt.Short.ne_ready {R : RxCtx} {s : RxSt} (h : s.Short R bs) :
    s.qp.recv ≠ .awaitPduReady := by
  intro hrecv
  rw [RxSt.Short, hrecv] at h
  exact h

theorem works_part {s : RxSt} (h : s.Works) : (s.part bs).Works := by
  unfold RxSt.Works RxSt.part
  split <;> exact h

/-- A short read calls no handler. -/
theorem made_of_short (h : d.rx.Short D.toRxCtx bs) : d.made D bs = [] := by
  unfold RxSt.Short at h
  unfold DecodeSt.made
  split at h
  · rename_i hrecv
    rw [hrecv]
    dsimp only
    rw [if_neg (by rw [List.length_append]; omega)]
  · rename_i hrecv
    rw [hrecv]
    dsimp only
    rw [if_neg (by rw [List.length_append]; omega)]
  · rename_i hrecv
    rw [hrecv]
    dsimp only
    rw [if_neg (by rw [List.length_append]; omega)]
  · exact h.elim

theorem laidOut_of_recv {s : RxSt} (h : s.qp.recv = d.rx.qp.recv) : d.laidOut D s = some d.iov :=
  if_neg fun hne => hne.1 (h.symm.trans hne.2)

/-- **A short read** leaves everything but what has been read. -/
theorem decodePass_short (hworks : d.rx.Works) (hroom : d.HasRoom D bs)
    (h : d.rx.Short D.toRxCtx bs) : decodePass D bs d = some (d.part D bs) := by
  unfold decodePass
  rw [begun_of_ne h.ne_ready, if_pos ⟨hworks, hroom⟩]
  dsimp only
  rw [sockPass_short h, Option.bind_some, laidOut_of_recv recv_part, Option.map_some,
    made_of_short h, if_pos rfl, List.append_nil]
  rfl

/-! ### One read or several -/

section Append

variable {as : List UInt8}

theorem made_append (h : d.rx.Short D.toRxCtx as)
    (hstores : d.stores D (as ++ bs) = d.stores D as ++ (d.part D as).stores D bs) :
    d.made D (as ++ bs) = (d.part D as).made D bs := by
  unfold RxSt.Short at h
  unfold DecodeSt.made DecodeSt.part
  rw [recv_part]
  split at h
  · rename_i hrecv
    simp only [RxSt.part, hrecv, RxSt.readRaw, List.append_assoc]
  · rename_i hrecv
    simp only [RxSt.part, hrecv, RxSt.readRaw, List.append_assoc]
  · rename_i hrecv
    unfold DecodeSt.part at hstores
    rw [hstores]
    simp only [RxSt.part, hrecv, RxSt.readData, List.append_assoc, RxSt.payloadLen]
  · exact h.elim

theorem data_part (hrecv : d.rx.qp.recv = .awaitPduPayload) :
    (d.rx.part as).data = d.rx.data ++ as := by
  rw [RxSt.part, hrecv]
  rfl

theorem places_part (hrecv : d.rx.qp.recv = .awaitPduPayload) :
    (d.part D as).places D = d.places D := by
  unfold DecodeSt.places ddgstEnable DecodeSt.part
  rw [RxSt.part, hrecv]
  rfl

/-- What a read has left of the places. -/
theorem flatten_iovs_part (hiov : d.iov.length ≤ 16) (hrecv : d.rx.qp.recv = .awaitPduPayload) :
    (nvmeTcpBuildPayloadIovs D (d.part D as)).flatten =
      (nvmeTcpBuildPayloadIovs D d).flatten.drop as.length := by
  have hiov' : (d.part D as).iov.length ≤ 16 := hiov
  rw [flatten_nvmeTcpBuildPayloadIovs hiov', flatten_nvmeTcpBuildPayloadIovs hiov,
    places_part hrecv, List.drop_drop]
  change (d.places D).flatten.drop (d.rx.part as).data.length = _
  rw [data_part hrecv, List.length_append]

theorem stores_append (hiov : d.iov.length ≤ 16) (hroom : d.HasRoom D as) :
    d.stores D (as ++ bs) = d.stores D as ++ (d.part D as).stores D bs := by
  unfold DecodeSt.stores
  rw [show (d.part D as).rx.qp.recv = d.rx.qp.recv from recv_part]
  by_cases hrecv : d.rx.qp.recv = .awaitPduPayload
  · rw [if_pos hrecv, if_pos hrecv, if_pos hrecv, flatten_iovs_part hiov hrecv,
      zip_append_right bs (hroom hrecv)]
  · rw [if_neg hrecv, if_neg hrecv, if_neg hrecv, List.append_nil]

theorem hasRoom_append (hiov : d.iov.length ≤ 16) :
    d.HasRoom D (as ++ bs) ↔ d.HasRoom D as ∧ (d.part D as).HasRoom D bs := by
  unfold DecodeSt.HasRoom
  rw [show (d.part D as).rx.qp.recv = d.rx.qp.recv from recv_part]
  by_cases hrecv : d.rx.qp.recv = .awaitPduPayload
  · rw [flatten_iovs_part hiov hrecv, List.length_drop, List.length_append]
    constructor
    · intro h
      have := h hrecv
      exact ⟨fun _ => by omega, fun _ => by omega⟩
    · intro h _
      have := h.1 hrecv
      have := h.2 hrecv
      omega
  · exact iff_of_true (fun h => absurd h hrecv) ⟨fun h => absurd h hrecv, fun h => absurd h hrecv⟩

/-- **What a short read has left** may be read in one go. -/
theorem decodePass_append (hiov : d.iov.length ≤ 16) (hworks : d.rx.Works)
    (hroom : d.HasRoom D as) (h : d.rx.Short D.toRxCtx as) :
    decodePass D (as ++ bs) d = decodePass D bs (d.part D as) := by
  have hstores : d.stores D (as ++ bs) = d.stores D as ++ (d.part D as).stores D bs :=
    stores_append hiov hroom
  have hmade := made_append h hstores
  have hready : (d.part D as).rx.qp.recv ≠ .awaitPduReady := recv_part.trans_ne h.ne_ready
  have hlaid : ∀ s, d.laidOut D s = (d.part D as).laidOut D s := fun s => by
    unfold DecodeSt.laidOut
    rw [show (d.part D as).rx.qp.recv = d.rx.qp.recv from recv_part]
    rfl
  unfold decodePass
  rw [begun_of_ne h.ne_ready, begun_of_ne hready]
  by_cases hrest : (d.part D as).HasRoom D bs
  · rw [if_pos ⟨hworks, (hasRoom_append hiov).mpr ⟨hroom, hrest⟩⟩,
      if_pos ⟨works_part hworks, hrest⟩]
    dsimp only
    rw [sockPass_append h, hmade, hstores, ← List.append_assoc]
    simp only [hlaid]
    rfl
  · rw [if_neg fun hc => hrest ((hasRoom_append hiov).mp hc.2).2, if_neg fun hc => hrest hc.2]

end Append

/-! ### The handlers -/

section Handlers

variable {R : RxCtx} {s s' : RxSt}

theorem qp_handled (qp : TcpQpair) : (s.handled qp).qp = qp := by
  unfold RxSt.handled
  split <;> rfl

theorem recv_handled (qp : TcpQpair) : (s.handled qp).qp.recv = qp.recv := by rw [qp_handled]

theorem data_handled (qp : TcpQpair) : (s.handled qp).data = s.data := by
  unfold RxSt.handled
  split <;> rfl

/-- A PDU with none of its data read. -/
theorem RxInv.of_data_nil (hdata : s.data = []) (hch : s.qp.recv ≠ .awaitPduCh)
    (hpsh : s.qp.recv ≠ .awaitPduPsh) : RxInv R s where
  ch h := absurd h hch
  psh h := absurd h hpsh
  req _ := hdata
  payload _ hlen := by
    rw [hdata]
    exact Nat.lt_add_right _ (Nat.pos_of_ne_zero hlen)

/-- Between two PDUs, and at the end. -/
theorem RxInv.of_done (h : s.qp.recv = .awaitPduReady ∨ s.qp.recv = .quiescing) : RxInv R s where
  ch hrecv := by rcases h with h | h <;> cases h.symm.trans hrecv
  psh hrecv := by rcases h with h | h <;> cases h.symm.trans hrecv
  req hrecv := by rcases h with h | h <;> cases h.symm.trans hrecv
  payload hrecv := by rcases h with h | h <;> cases h.symm.trans hrecv

theorem data_pshHandle : (nvmfTcpPduPshHandle R s).data = s.data := by
  unfold nvmfTcpPduPshHandle
  split
  · rfl
  split
  · rfl
  · exact data_handled _
  · unfold h2cTermReqHdrHandle
    split <;> rfl
  · rfl

/-- Where the receiver is behind a header. -/
theorem recv_pshHandle : (nvmfTcpPduPshHandle R s).qp.recv ∈
    [.awaitReq, .awaitPduPayload, .quiescing] := by
  unfold nvmfTcpPduPshHandle
  split
  · simp [RxSt.terminate, TcpQpair.terminate, TcpQpair.emit]
  split
  · simp
  · dsimp only
    rw [recv_handled]
    unfold nvmfTcpH2cDataHdrHandle
    dsimp only
    split_ifs <;> simp [TcpQpair.terminate, TcpQpair.emit]
  · unfold h2cTermReqHdrHandle
    split <;> simp [RxSt.terminate, RxSt.setRecv, TcpQpair.terminate, TcpQpair.emit]
  · simp [RxSt.terminate, TcpQpair.terminate, TcpQpair.emit]

/-- Where the receiver is behind a payload. -/
theorem recv_payloadHandle : (nvmfTcpPduPayloadHandle R s).qp.recv = .awaitPduReady ∨
    (nvmfTcpPduPayloadHandle R s).qp.recv = .quiescing := by
  unfold nvmfTcpPduPayloadHandle
  dsimp only
  split
  · exact Or.inr rfl
  split
  · exact Or.inl rfl
  split
  · exact Or.inl rfl
  · exact Leaves.dataCrc32CalcDone.recv

theorem RxInv.pshHandle (h : s.data = []) : RxInv R (nvmfTcpPduPshHandle R s) := by
  have hrecv := recv_pshHandle (R := R) (s := s)
  refine .of_data_nil (data_pshHandle.trans h) (fun hc => ?_) fun hc => ?_
  · rw [hc] at hrecv
    simp at hrecv
  · rw [hc] at hrecv
    simp at hrecv

/-- **A short read keeps the invariant.** -/
theorem RxInv.part (h : RxInv R s) (hshort : s.Short R bs) : RxInv R (s.part bs) := by
  unfold RxSt.Short at hshort
  unfold RxSt.part
  split at hshort
  · rename_i hrecv
    refine ⟨fun _ => ⟨?_, rfl, (h.ch hrecv).2.2⟩, fun hc => ?_, fun hc => ?_, fun hc => ?_⟩
    · change (s.raw ++ bs).length < 8
      rwa [List.length_append]
    all_goals cases hrecv.symm.trans hc
  · rename_i hrecv
    refine ⟨fun hc => ?_, fun _ => ⟨?_, (h.psh hrecv).2⟩, fun hc => ?_, fun hc => ?_⟩
    · cases hrecv.symm.trans hc
    · change (s.raw ++ bs).length ≤ s.qp.hdr.readLen
      rw [List.length_append]
      exact hshort.le
    all_goals cases hrecv.symm.trans hc
  · rename_i hrecv
    refine ⟨fun hc => ?_, fun hc => ?_, fun hc => ?_, fun _ _ => ?_⟩
    · cases hrecv.symm.trans hc
    · cases hrecv.symm.trans hc
    · cases hrecv.symm.trans hc
    · change (s.data ++ bs).length < s.payloadLen R
      rw [List.length_append]
      exact hshort.2
  · exact hshort.elim

/-- **What a pass comes to**: the read is short, all that was asked for is handed to a handler, or
there is nothing to read. -/
inductive PassEnd (R : RxCtx) (s : RxSt) (bs : List UInt8) (s' : RxSt) : Prop
  | short (hshort : s.Short R bs) (hs : s' = s.part bs)
  | ch (hrecv : s.qp.recv = .awaitPduCh) (hlen : (s.raw ++ bs).length = 8)
      (hs : s' = pduChHandle R
        { s.readRaw bs with qp := { s.qp with hdr := ⟨.ofBytes (s.raw ++ bs), 0⟩ } })
  | psh (hrecv : s.qp.recv = .awaitPduPsh) (hlen : (s.raw ++ bs).length = s.qp.hdr.readLen)
      (hs : s' = nvmfTcpPduPshHandle R (s.readRaw bs))
  | req (hrecv : s.qp.recv = .awaitReq) (hnil : bs = [])
      (hs : s' = s.handled (nvmfTcpCapsuleCmdHdrHandle R.toQpCtx {} s.qp))
  | payload (hrecv : s.qp.recv = .awaitPduPayload) (hne : s.dataLen ≠ 0)
      (hlen : (s.data ++ bs).length = s.payloadLen R)
      (hs : s' = nvmfTcpPduPayloadHandle R (s.readData bs))
  | idle (hrecv : s.qp.recv = .awaitPduPayload) (hlen : s.dataLen = 0) (hnil : bs = [])
      (hs : s' = s)

theorem passEnd (hready : s.qp.recv ≠ .awaitPduReady) (hs : sockPass R true {} bs s = some s') :
    PassEnd R s bs s' := by
  by_cases hshort : s.Short R bs
  · exact .short hshort (Option.some.inj ((sockPass_short hshort).symm.trans hs)).symm
  unfold RxSt.Short at hshort
  unfold sockPass at hs
  cases hrecv : s.qp.recv with
  | awaitPduReady => exact absurd hrecv hready
  | awaitPduCh =>
    rw [hrecv] at hs hshort
    dsimp only at hs hshort
    unfold awaitPduCh at hs
    split at hs
    · cases hs
    have hlen : (s.raw ++ bs).length = 8 := by
      rw [List.length_append]
      omega
    dsimp only at hs
    rw [if_neg (by change ¬ (s.raw ++ bs).length < 8; omega)] at hs
    exact .ch hrecv hlen (Option.some.inj hs).symm
  | awaitPduPsh =>
    rw [hrecv] at hs hshort
    dsimp only at hs hshort
    unfold RxHdr.readLen at hshort
    unfold awaitPduPsh at hs
    dsimp only at hs
    split at hs
    · cases hs
    have hlen : (s.raw ++ bs).length = s.qp.hdr.readLen := by
      rw [List.length_append, RxHdr.readLen]
      omega
    split at hs
    · rename_i hlt
      exact absurd hlt (by change ¬ (s.raw ++ bs).length < s.qp.hdr.readLen; omega)
    · exact .psh hrecv hlen (Option.some.inj hs).symm
  | awaitReq =>
    rw [hrecv] at hs
    dsimp only at hs
    split at hs
    · rename_i hnil
      exact .req hrecv hnil (Option.some.inj hs).symm
    · cases hs
  | awaitPduPayload =>
    rw [hrecv] at hs hshort
    dsimp only at hs hshort
    unfold awaitPduPayload at hs
    split at hs
    · rename_i hzero
      split at hs
      · rename_i hnil
        exact .idle hrecv hzero hnil (Option.some.inj hs).symm
      · cases hs
    rename_i hne
    split at hs
    · cases hs
    have hlen : (s.data ++ bs).length = s.payloadLen R := by
      rw [List.length_append]
      omega
    dsimp only at hs
    rw [if_neg (by change ¬ (s.data ++ bs).length < s.payloadLen R; omega)] at hs
    exact .payload hrecv hne hlen (Option.some.inj hs).symm
  | quiescing | error =>
    rw [hrecv] at hs
    cases hs

/-- **A pass keeps the invariant**, with a request there for a capsule. -/
theorem RxInv.sockPass (h : RxInv R s) (hready : s.qp.recv ≠ .awaitPduReady)
    (hactive : s.qp.active = true) (hfree : s.qp.recv = .awaitReq → s.qp.free ≠ [])
    (hs : sockPass R true {} bs s = some s') : RxInv R s' := by
  cases passEnd hready hs with
  | short hshort hs =>
    subst hs
    exact h.part hshort
  | ch hrecv hlen hs =>
    subst hs
    unfold pduChHandle
    split
    · exact .of_done (Or.inr rfl)
    · rename_i n _
      refine ⟨nofun, fun _ => ⟨?_, (h.ch hrecv).2.2⟩, nofun, nofun⟩
      change (s.raw ++ bs).length ≤ 8 + n.toNat
      omega
  | psh hrecv hlen hs =>
    subst hs
    exact .pshHandle (h.psh hrecv).2
  | req hrecv hnil hs =>
    subst hs
    obtain ⟨t, rest, ht⟩ := List.exists_cons_of_ne_nil (hfree hrecv)
    have hmem := recv_capsule_cases (R := R) (b := {}) ht hactive hrecv
    rw [← recv_handled (s := s)] at hmem
    refine .of_data_nil ((data_handled _).trans (h.req hrecv)) (fun hc => ?_) fun hc => ?_
    · rw [hc] at hmem
      simp at hmem
    · rw [hc] at hmem
      simp at hmem
  | payload hrecv hne hlen hs =>
    subst hs
    exact .of_done recv_payloadHandle
  | idle hrecv hlen hnil hs =>
    subst hs
    exact h

end Handlers

/-! ### The passes -/

theorem decodePass_eq_some (h : decodePass D bs d = some d') :
    d.rx.Works ∧ d.begun.HasRoom D bs ∧ ∃ s iov, sockPass D.toRxCtx true {} bs d.begun.rx = some s ∧
      d.begun.laidOut D s = some iov ∧
      d' = if d.begun.made D bs = [] then
          ⟨s, iov, d.begun.stored ++ d.begun.stores D bs, d.begun.calls ++ d.begun.made D bs⟩
        else DecodeSt.resume D
          ⟨s, iov, d.begun.stored ++ d.begun.stores D bs, d.begun.calls ++ d.begun.made D bs⟩ := by
  unfold decodePass at h
  split at h
  · rename_i hgo
    obtain ⟨s, hs, hrest⟩ := Option.bind_eq_some_iff.mp h
    obtain ⟨iov, hiov, rfl⟩ := Option.map_eq_some_iff.mp hrest
    exact ⟨hgo.1, hgo.2, s, iov, hs, hiov, rfl⟩
  · cases h

theorem works_begun : d.begun.rx.Works ↔ d.rx.Works := by
  unfold DecodeSt.begun
  split
  · rename_i h
    unfold RxSt.Works
    rw [h]
    exact ⟨fun hw => ⟨nofun, nofun, hw.2.2⟩, fun hw => ⟨nofun, nofun, hw.2.2⟩⟩
  · exact Iff.rfl

theorem recv_begun_ne : d.begun.rx.qp.recv ≠ .awaitPduReady := by
  unfold DecodeSt.begun
  split
  · nofun
  · assumption

/-- AWAIT_PDU_READY goes on to AWAIT_PDU_CH in the same pass. -/
theorem decodePass_begun : decodePass D bs d = decodePass D bs d.begun := by
  unfold decodePass
  rw [begun_of_ne (d := d.begun) recv_begun_ne]
  simp only [works_begun]

theorem DecodeInv.begun (h : DecodeInv D d) : DecodeInv D d.begun := by
  unfold DecodeSt.begun
  split
  · exact ⟨⟨fun _ => ⟨Nat.zero_lt_succ 7, rfl, rfl⟩, nofun, nofun, nofun⟩, Nat.zero_le _, nofun⟩
  · exact h

theorem DecodeInv.init (below : TcpReq) : DecodeInv D (.init D below) :=
  ⟨.of_done (Or.inl rfl), Nat.zero_le _, nofun⟩

theorem recv_resume : (d.resume D).rx.qp.recv = d.rx.qp.recv := D.recv_between ..

/-- What happens between two calls keeps the invariant, and leaves a request. -/
theorem DecodeInv.resume (h : RxInv D.toRxCtx d.rx) (hslots : d.iov.length ≤ 16) :
    DecodeInv D (d.resume D) := by
  have hhdr : (d.resume D).rx.qp.hdr = d.rx.qp.hdr := D.hdr_between ..
  refine ⟨⟨?_, ?_, ?_, ?_⟩, hslots, fun _ => D.free_between _ _⟩
  · rw [recv_resume, hhdr]
    exact h.ch
  · rw [recv_resume, hhdr]
    exact h.psh
  · rw [recv_resume]
    exact h.req
  · rw [recv_resume]
    unfold RxSt.payloadLen
    rw [hhdr]
    exact h.payload

theorem length_laidOut_le {s : RxSt} {iov : List (List Cell)} (hslots : d.iov.length ≤ 16)
    (h : d.laidOut D s = some iov) : iov.length ≤ 16 := by
  unfold DecodeSt.laidOut at h
  split at h
  · exact length_dataIov_le h
  · obtain rfl := Option.some.inj h
    exact hslots

/-- A pass that calls no handler stays in its state. -/
theorem recv_of_made_nil {s : RxSt} (hmade : d.made D bs = [])
    (hready : d.rx.qp.recv ≠ .awaitPduReady)
    (hs : sockPass D.toRxCtx true {} bs d.rx = some s) :
    s.qp.recv = d.rx.qp.recv ∧ s.qp.recv ≠ .awaitReq := by
  unfold DecodeSt.made at hmade
  cases passEnd hready hs with
  | short hshort hs =>
    subst hs
    refine ⟨recv_part, fun hrecv => ?_⟩
    rw [RxSt.Short, recv_part.symm.trans hrecv] at hshort
    exact hshort
  | ch hrecv hlen =>
    rw [hrecv] at hmade
    dsimp only at hmade
    rw [if_pos hlen] at hmade
    cases hmade
  | psh hrecv hlen =>
    rw [hrecv] at hmade
    dsimp only at hmade
    rw [if_pos hlen] at hmade
    cases hmade
  | req hrecv =>
    rw [hrecv] at hmade
    cases hmade
  | payload hrecv hne hlen =>
    rw [hrecv] at hmade
    dsimp only at hmade
    rw [if_pos ⟨hne, hlen⟩] at hmade
    cases hmade
  | idle hrecv _ _ hs =>
    subst hs
    exact ⟨rfl, by rw [hrecv]; nofun⟩

/-- **The invariant, pass by pass.** -/
theorem DecodeInv.pass (h : DecodeInv D d) (hs : decodePass D bs d = some d') :
    DecodeInv D d' := by
  have hb := h.begun
  obtain ⟨hworks, -, s, iov, hpass, hiov, rfl⟩ := decodePass_eq_some hs
  have hactive : d.begun.rx.qp.active = true := (works_begun.mpr hworks).2.2
  have hrx := hb.rx.sockPass recv_begun_ne hactive hb.free hpass
  have hslots := length_laidOut_le hb.slots hiov
  split
  · rename_i hmade
    exact ⟨hrx, hslots, fun hc =>
      absurd hc (recv_of_made_nil hmade recv_begun_ne hpass).2⟩
  · exact .resume hrx hslots

/-! ## The receiver as a reader -/

theorem part_nil_rx {R : RxCtx} {s : RxSt} (h : RxInv R s) : s.part [] = s := by
  have hraw : s.readRaw [] = s := by simp [RxSt.readRaw]
  have hdata : s.readData [] = s := by simp [RxSt.readData]
  unfold RxSt.part
  split
  · rename_i hrecv
    rw [hraw, List.append_nil, ← (h.ch hrecv).2.1]
  · exact hraw
  · exact hdata
  · rfl

theorem part_nil (h : RxInv D.toRxCtx d.rx) : d.part D [] = d := by
  have hstores : d.stores D [] = [] := by simp [DecodeSt.stores]
  rw [DecodeSt.part, part_nil_rx h, hstores, List.append_nil]

theorem hasRoom_nil : d.HasRoom D [] := fun _ => Nat.zero_le _

/-- A receiver that waits has not got all it needs. -/
theorem short_nil (h : RxInv D.toRxCtx d.rx) (hw : d.Waits)
    (hne : d.rx.qp.recv = .awaitPduPayload → d.rx.dataLen ≠ 0) : d.rx.Short D.toRxCtx [] := by
  have hwaits := hw.2
  unfold RxSt.Short
  split at hwaits
  · rename_i hrecv
    rw [hrecv]
    exact (h.ch hrecv).1
  · rename_i hrecv
    rw [hrecv]
    exact ⟨hne hrecv, h.payload hrecv (hne hrecv)⟩
  · rename_i hrecv
    rw [hrecv]
    exact hwaits
  · exact hwaits.elim

theorem waits_part (hworks : d.rx.Works) (h : d.rx.Short D.toRxCtx bs) :
    (d.part D bs).Waits := by
  refine ⟨works_part hworks, ?_⟩
  rw [show (d.part D bs).rx.qp.recv = d.rx.qp.recv from recv_part]
  unfold RxSt.Short at h
  split at h
  · rename_i hrecv
    rw [hrecv]
    trivial
  · rename_i hrecv
    rw [hrecv]
    change (d.rx.part bs).raw.length < (d.rx.part bs).qp.hdr.readLen
    rw [RxSt.part, hrecv]
    change (d.rx.raw ++ bs).length < _
    rw [List.length_append]
    exact h
  · rename_i hrecv
    rw [hrecv]
    trivial
  · exact h.elim

/-- Where a pass takes several bytes, the first of them is not all it needs. -/
theorem short_of_pass {b c : UInt8} {s : RxSt} {R : RxCtx} {s' : RxSt}
    (hready : s.qp.recv ≠ .awaitPduReady)
    (hs : sockPass R true {} (b :: c :: bs) s = some s') : s.Short R [b] := by
  have hlen : ∀ l : List UInt8, (l ++ b :: c :: bs).length = l.length + 1 + (1 + bs.length) := by
    intro l
    rw [List.length_append, List.length_cons, List.length_cons]
    omega
  unfold RxSt.Short
  cases passEnd hready hs with
  | short hshort =>
    unfold RxSt.Short at hshort
    rw [List.length_cons, List.length_cons] at hshort
    split at hshort
    · exact Nat.lt_of_le_of_lt (by simp) hshort
    · exact Nat.lt_of_le_of_lt (by simp) hshort
    · exact ⟨hshort.1, Nat.lt_of_le_of_lt (by simp) hshort.2⟩
    · exact hshort
  | ch hrecv h8 =>
    rw [hrecv]
    change s.raw.length + 1 < 8
    rw [hlen] at h8
    omega
  | psh hrecv hall =>
    rw [hrecv]
    change s.raw.length + 1 < s.qp.hdr.readLen
    rw [hlen] at hall
    omega
  | req _ hnil => cases hnil
  | payload hrecv hne hall =>
    rw [hrecv]
    refine ⟨hne, ?_⟩
    change s.data.length + 1 < s.payloadLen R
    rw [hlen] at hall
    omega
  | idle _ _ hnil => cases hnil

theorem ne_ready_of_waits (h : d.Waits) : d.rx.qp.recv ≠ .awaitPduReady := by
  intro hrecv
  have hwaits := h.2
  rw [hrecv] at hwaits
  exact hwaits

/-- AWAIT_PDU_READY without a read. -/
theorem decodePass_ready (h : DecodeInv D d) (hworks : d.rx.Works)
    (hrecv : d.rx.qp.recv = .awaitPduReady) :
    decodePass D [] d = some d.begun ∧ d.begun.Waits := by
  have hb := h.begun
  have hch : d.begun.rx.qp.recv = .awaitPduCh := by
    rw [DecodeSt.begun, if_pos hrecv]
    rfl
  have hwaits : d.begun.Waits := ⟨works_begun.mpr hworks, by rw [hch]; trivial⟩
  have hshort := short_nil hb.rx hwaits fun hc => by cases hch.symm.trans hc
  refine ⟨?_, hwaits⟩
  rw [decodePass_begun, decodePass_short hwaits.1 hasRoom_nil hshort, part_nil hb.rx]

/-- A receiver that takes bytes has waited for them, or begins a PDU. -/
theorem waits_of_pass {b : UInt8} (hready : d.rx.qp.recv ≠ .awaitPduReady)
    (hs : decodePass D (b :: bs) d = some d') : d.Waits := by
  obtain ⟨hworks, -, s, iov, hpass, -⟩ := decodePass_eq_some hs
  rw [begun_of_ne hready] at hpass
  refine ⟨hworks, ?_⟩
  cases passEnd hready hpass with
  | short hshort =>
    unfold RxSt.Short at hshort
    split at hshort
    · rename_i hr
      rw [hr]
      trivial
    · rename_i hr
      rw [hr]
      exact Nat.lt_of_le_of_lt (Nat.le_add_right ..) hshort
    · rename_i hr
      rw [hr]
      trivial
    · exact hshort.elim
  | ch hr =>
    rw [hr]
    trivial
  | psh hr hlen =>
    rw [hr]
    change d.rx.raw.length < d.rx.qp.hdr.readLen
    rw [← hlen, List.length_append, List.length_cons]
    omega
  | req _ hnil => cases hnil
  | payload hr =>
    rw [hr]
    trivial
  | idle hr =>
    rw [hr]
    trivial

/-- **The receiver is a lawful reader.** -/
theorem decode_lawful : (decodeReader D).Lawful (DecodeInv D) where
  keeps h hs := h.pass hs
  blocks {d d'} h hw hs := by
    by_cases hzero : d.rx.qp.recv = .awaitPduPayload ∧ d.rx.dataLen = 0
    · obtain ⟨-, -, s, iov, hpass, hiov, rfl⟩ := decodePass_eq_some hs
      rw [begun_of_ne (ne_ready_of_waits hw)] at hpass hiov ⊢
      have hs : s = d.rx := by
        unfold sockPass at hpass
        rw [hzero.1] at hpass
        dsimp only at hpass
        rw [awaitPduPayload, if_pos hzero.2, if_pos rfl] at hpass
        exact (Option.some.inj hpass).symm
      subst hs
      have hmade : d.made D [] = [] := by
        unfold DecodeSt.made
        rw [hzero.1]
        exact if_neg fun hc => hc.1 hzero.2
      have hstores : d.stores D [] = [] := by simp [DecodeSt.stores]
      rw [laidOut_of_recv rfl] at hiov
      obtain rfl := Option.some.inj hiov
      rw [if_pos hmade, hmade, hstores, List.append_nil, List.append_nil]
    · have hshort := short_nil h.rx hw fun hrecv hlen => hzero ⟨hrecv, hlen⟩
      have hp := decodePass_short hw.1 hasRoom_nil hshort
      rw [part_nil h.rx] at hp
      exact Option.some.inj (hs.symm.trans hp)
  splits {d d' b c bs} h hw hs := by
    have hready := ne_ready_of_waits hw
    obtain ⟨-, hroom, s, iov, hpass, -⟩ := decodePass_eq_some hs
    rw [begun_of_ne hready] at hroom hpass
    have hshort := short_of_pass hready hpass
    have hsplit : d.HasRoom D ([b] ++ c :: bs) := hroom
    have hfirst := ((hasRoom_append h.slots).mp hsplit).1
    refine ⟨d.part D [b], decodePass_short hw.1 hfirst hshort, waits_part hw.1 hshort, ?_⟩
    exact (decodePass_append h.slots hw.1 hfirst hshort).symm.trans hs
  through {d d' b bs} h hw hs := by
    have hworks := (decodePass_eq_some hs).1
    by_cases hrecv : d.rx.qp.recv = .awaitPduReady
    · obtain ⟨hfirst, hwaits⟩ := decodePass_ready h hworks hrecv
      exact ⟨d.begun, hfirst, hwaits, decodePass_begun.symm.trans hs⟩
    · exact absurd (waits_of_pass hrecv hs) hw

end NdpHeaan
