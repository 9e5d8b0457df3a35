import NdpHeaan.Machinery.Chunks
import NdpHeaan.Machinery.Iov
import NdpHeaan.Tcp.Held

/-!
# Tcp/Decode — what the handlers are called with

The socket hands out a stream piece by piece; `nvmf_tcp_sock_process` calls a handler whenever it
has all of what it asked for.  Here the calls are written down, with the header read so far and with
the bytes of the payload next to the places they were stored in, which `nvme_tcp_build_payload_iovs`
works out anew for every read.

There always is a PDU to read into, a request, and buffers for it.  What else happens to the
requests between two calls may depend on the calls so far, and does not touch the receiver.
-/

open Machinery

namespace NdpHeaan

/-- Where a byte of a payload is stored. -/
inductive Cell
  /-- In a buffer of the request in a slot. -/
  | buffer (slot iov offset : ℕ)
  /-- In `pdu->data_digest`. -/
  | digest (i : ℕ)
  /-- In `pdu->hdr.raw`. -/
  | raw (i : ℕ)
  deriving DecidableEq, Repr

/-- A call of a handler, with the header, and for the payload with its bytes and their places. -/
inductive HandlerCall
  /-- `nvmf_tcp_pdu_ch_handle` -/
  | ch (hdr : List UInt8)
  /-- `nvmf_tcp_pdu_psh_handle` -/
  | psh (hdr : List UInt8)
  /-- `nvmf_tcp_capsule_cmd_hdr_handle` -/
  | capsuleCmdHdr (hdr : List UInt8)
  /-- `nvmf_tcp_pdu_payload_handle` -/
  | payload (hdr : List UInt8) (stored : List (Cell × UInt8))
  deriving DecidableEq, Repr

/-- A receiver with a request for every command. -/
structure DecodeCtx extends RxCtx where
  /-- The length in the array slot behind the iovecs of a request. -/
  stale : ℕ
  /-- What happens to the requests, and to the digests that are computed, after these calls. -/
  between : List HandlerCall → TcpQpair × List DataPdu → TcpQpair × List DataPdu
  free_between : ∀ calls q, (between calls q).1.free ≠ []
  recv_between : ∀ calls q, (between calls q).1.recv = q.1.recv
  hdr_between : ∀ calls q, (between calls q).1.hdr = q.1.hdr
  cmd_between : ∀ calls q, (between calls q).1.cmd = q.1.cmd

/-- A receiver, and what it has been handed. -/
structure DecodeSt where
  rx : RxSt
  /-- `pdu->data_iov` -/
  iov : List (List Cell) := []
  /-- What has been stored for the PDU in progress. -/
  stored : List (Cell × UInt8) := []
  calls : List HandlerCall := []

/-! ## Where the payload goes -/

/-- The cells of an entry of `pdu->data_iov`. -/
def PduIov.cells (slot : ℕ) (v : PduIov) : List Cell :=
  (List.range' v.offset v.len).map (.buffer slot v.slot)

/-- The `pdu->data_iov` of a PDU whose data comes next, `none` if laying it out does not end. -/
def dataIov (stale : ℕ) (s : RxSt) : Option (List (List Cell)) :=
  match s.cur with
  -- `nvme_tcp_pdu_set_data` of an H2CTermReq
  | none => some [(List.range' 24 s.dataLen).map .raw]
  | some p =>
    (nvmeTcpPduSetDataBuf stale (s.qp.reqs p.slot).iov p.datao.toNat p.dataLen.toNat).map
      (List.map (·.cells p.slot))

section Pass

variable (D : DecodeCtx)

/-- `pdu->ddgst_enable`. -/
def ddgstEnable (s : RxSt) : Bool := s.qp.hdr.common.pduType ≠ .h2cTermReq && D.conn.ddgst

/-- The places of the payload, and of its digest. -/
def DecodeSt.places (d : DecodeSt) : List (List Cell) :=
  d.iov ++ if ddgstEnable D d.rx then [(List.range digestLen).map .digest] else []

/-- **`nvme_tcp_build_payload_iovs`**, from `rw_offset` on. -/
def nvmeTcpBuildPayloadIovs (d : DecodeSt) : List (List Cell) :=
  skipIov 17 d.rx.data.length (d.places D)

/-! ## A pass -/

/-- A PDU is begun in AWAIT_PDU_READY. -/
def DecodeSt.begun (d : DecodeSt) : DecodeSt :=
  if d.rx.qp.recv = .awaitPduReady then { d with rx := d.rx.nextPdu, iov := [], stored := [] }
  else d

/-- What a read of the payload stores. -/
def DecodeSt.stores (d : DecodeSt) (bs : List UInt8) : List (Cell × UInt8) :=
  if d.rx.qp.recv = .awaitPduPayload then (nvmeTcpBuildPayloadIovs D d).flatten.zip bs else []

/-- A read is not handed more than the places it has for it. -/
def DecodeSt.HasRoom (d : DecodeSt) (bs : List UInt8) : Prop :=
  d.rx.qp.recv = .awaitPduPayload → bs.length ≤ (nvmeTcpBuildPayloadIovs D d).flatten.length

instance (d : DecodeSt) (bs : List UInt8) : Decidable (d.HasRoom D bs) :=
  inferInstanceAs (Decidable (_ → _))

/-- The handlers a pass calls. -/
def DecodeSt.made (d : DecodeSt) (bs : List UInt8) : List HandlerCall :=
  let hdr := d.rx.raw ++ bs
  match d.rx.qp.recv with
  | .awaitPduCh => if hdr.length = 8 then [.ch hdr] else []
  | .awaitPduPsh => if hdr.length = d.rx.qp.hdr.readLen then [.psh hdr] else []
  | .awaitReq => [.capsuleCmdHdr d.rx.raw]
  | .awaitPduPayload =>
    if d.rx.dataLen ≠ 0 ∧ (d.rx.data ++ bs).length = d.rx.payloadLen D.toRxCtx then
      [.payload d.rx.raw (d.stored ++ d.stores D bs)]
    else []
  | _ => []

/-- `pdu->data_iov` behind a pass. -/
def DecodeSt.laidOut (d : DecodeSt) (s : RxSt) : Option (List (List Cell)) :=
  if d.rx.qp.recv ≠ .awaitPduPayload ∧ s.qp.recv = .awaitPduPayload then dataIov D.stale s
  else some d.iov

/-- What happens between two calls. -/
def DecodeSt.resume (d : DecodeSt) : DecodeSt :=
  let q := D.between d.calls (d.rx.qp, d.rx.digesting)
  { d with rx := { d.rx with qp := q.1, digesting := q.2 } }

/-- **A pass of the loop in `nvmf_tcp_sock_process`**, and what happens before the next call. -/
def decodePass (bs : List UInt8) (d : DecodeSt) : Option DecodeSt :=
  if d.rx.Works ∧ d.begun.HasRoom D bs then
    let d := d.begun
    (sockPass D.toRxCtx true {} bs d.rx).bind fun s => (d.laidOut D s).map fun iov =>
      let d' : DecodeSt := ⟨s, iov, d.stored ++ d.stores D bs, d.calls ++ d.made D bs⟩
      if d.made D bs = [] then d' else d'.resume D
  else none

/-- The receiver asks for bytes. -/
def DecodeSt.Waits (d : DecodeSt) : Prop :=
  d.rx.Works ∧ match d.rx.qp.recv with
    | .awaitPduCh | .awaitPduPayload => True
    | .awaitPduPsh => d.rx.raw.length < d.rx.qp.hdr.readLen
    | _ => False

/-- The receiver as a reader of a stream. -/
def decodeReader : Reader DecodeSt UInt8 := ⟨decodePass D, DecodeSt.Waits⟩

/-- A receiver at the front of a stream. -/
def DecodeSt.init (below : TcpReq) : DecodeSt := ⟨.init D.toRxCtx below, [], [], []⟩

/-- Passes over a stream, with what each is handed. -/
def decodeSys (below : TcpReq) : Sys DecodeSt (List UInt8) := (decodeReader D).sys (.init D below)

end Pass

/-! ## Calls -/

/-- **The call returns behind the pass**: the receiver is in the state the pass began in, a read in
AWAIT_PDU_READY came short, or the receiver is ended. -/
def Returns (d d' : DecodeSt) : Prop :=
  d'.rx.qp.recv = d.rx.qp.recv ∨
    d.rx.qp.recv = .awaitPduReady ∧ d'.rx.qp.recv = .awaitPduCh ∨ ¬ d'.rx.Works

instance (d d' : DecodeSt) : Decidable (Returns d d') := inferInstanceAs (Decidable (_ ∨ _ ∨ _))

/-- **Calls of `nvmf_tcp_sock_process`**, by what each of their passes is handed. -/
inductive WholeCalls (D : DecodeCtx) (below : TcpReq) : List (List UInt8) → DecodeSt → Prop
  | none : WholeCalls D below [] (.init D below)
  | last {cs : List (List UInt8)} {c : List UInt8} {d d' : DecodeSt} :
      (decodeSys D below).run (.init D below) cs = some d → decodePass D c d = some d' →
      Returns d d' → WholeCalls D below (cs ++ [c]) d'

/-- **A stream is decoded alike**, however it is handed out. -/
structure DecodedAlike (D : DecodeCtx) (below : TcpReq) (bs : List UInt8) : Prop where
  /-- The same bytes, the same calls of the handlers. -/
  part : ∀ {cs₁ cs₂ d₁ d₂}, WholeCalls D below cs₁ d₁ → WholeCalls D below cs₂ d₂ →
    cs₁.flatten <+: bs → cs₂.flatten = cs₁.flatten → d₂.calls = d₁.calls
  /-- As far as the stream goes, or the receiver. -/
  whole : ∀ {cs₁ cs₂ d₁ d₂}, WholeCalls D below cs₁ d₁ → WholeCalls D below cs₂ d₂ →
    cs₁.flatten <+: bs → cs₂.flatten <+: bs → (cs₁.flatten = bs ∨ ¬ d₁.rx.Works) →
    (cs₂.flatten = bs ∨ ¬ d₂.rx.Works) → d₂.calls = d₁.calls

/-- **No capsule of the stream is held** when the receiver has come to it. -/
def NoneHeld (D : DecodeCtx) (below : TcpReq) (bs : List UInt8) : Prop :=
  ∀ cs d, (decodeSys D below).run (.init D below) cs = some d → cs.flatten <+: bs → d.rx.Works →
    d.rx.qp.recv = .awaitReq → ¬ CapsuleHeld D.toRxCtx d.rx.qp.hdr d.rx.qp.cmd

/-! ## Well-formed streams -/

/-- The command of a capsule. -/
def RxHdr.command (h : RxHdr) (p : List UInt8) : TcpCmd := .ofBytes ((p.take h.readLen).drop 8)

/-- **A PDU of a well-formed stream**, with its header: a capsule without data, one with the data of
the host in it, or an H2CData PDU with data; `plen` is all of it, and 128 is
`SPDK_NVME_TCP_PDU_PDO_MAX_OFFSET`. -/
structure WellFormedPdu (R : RxCtx) (h : RxHdr) (p : List UInt8) : Prop where
  common : h.common = .ofBytes p
  accepted : nvmfTcpPduChHandle R.conn h.common = .ok h.pshLen
  size : p.length = h.common.plen.toNat
  pdo : h.common.hdrLen R.conn < h.common.plen.toNat →
    h.common.hdrLen R.conn ≤ h.common.pdo.toNat ∧ h.common.pdo.toNat ≤ 128
  kind : match h.common.pduType with
    | .capsuleCmd => h.hasData R.conn = true →
        spdkNvmfReqGetXfer R.transport (h.command p) = .hostToController ∧
          (h.command p).sgl.isInCapsule = true ∧
          h.capsuleLen R.conn = (h.command p).sgl.length ∧ (h.command p).sgl.length ≠ 0 ∧
          h.readLen + (if R.conn.ddgst then digestLen else 0) ≤ h.common.plen.toNat
    | .h2cData => (H2cDataHdr.ofBytes p).datal ≠ 0 ∧ H2cDataFits R h (.ofBytes p)
    | _ => False

/-- **A well-formed stream**, by its PDUs. -/
def WellFormedStream (R : RxCtx) (ps : List (List UInt8)) : Prop :=
  ∀ p ∈ ps, ∃ h, WellFormedPdu R h p

end NdpHeaan
