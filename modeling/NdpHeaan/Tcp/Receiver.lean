import NdpHeaan.Target.DataIo
import NdpHeaan.Tcp.Qpair

/-!
# Tcp/Receiver — `nvmf_tcp_sock_process`, byte by byte

    AWAIT_PDU_READY ─▸ AWAIT_PDU_CH ─▸ AWAIT_PDU_PSH ─▸ AWAIT_REQ ─▸ AWAIT_PDU_PAYLOAD ─▸ …

The receiver reads eight bytes, then `psh_len` more, then the data and its digest.  How much that is
comes from three places — the lengths in the header, the SGL of the command, `datal` of a data PDU —
and none of them is `plen`.  Whether it leaves AWAIT_REQ is up to the request the command gets.

A step here is one pass of the loop in `nvmf_tcp_sock_process`; a call is a few of them, and the
next call goes on in the state the last one has left.  Between the passes anything may happen to the
requests.  The model runs until the qpair is quiescing or no longer active.
-/

open Machinery

namespace NdpHeaan

/-! ## What the bytes say -/

/-- `struct spdk_nvme_tcp_common_pdu_hdr`; what has not been read is zero. -/
def CommonHdr.ofBytes (bs : List UInt8) : CommonHdr where
  typeByte := bs.getD 0 0
  flags := bs.getD 1 0
  hlen := bs.getD 2 0
  pdo := bs.getD 3 0
  plen := UInt32.ofNat (leWord bs 4 4)

/-- The low and the high four bits of a byte. -/
def lowNibble (b : UInt8) : Fin 16 := Fin.ofNat 16 (b.toNat % 16)

def highNibble (b : UInt8) : Fin 16 := Fin.ofNat 16 (b.toNat / 16)

/-- The field `fuse`. -/
def Fuse.ofByte (b : UInt8) : Fuse :=
  match b &&& 3 with
  | 0 => .none
  | 1 => .first
  | 2 => .second
  | _ => .reserved

/-- `struct spdk_nvme_cmd`, from its 64 bytes. -/
def TcpCmd.ofBytes (bs : List UInt8) : TcpCmd where
  opc := bs.getD 0 0
  fuse := .ofByte (bs.getD 1 0)
  cid := UInt16.ofNat (leWord bs 2 2)
  fctype := bs.getD 4 0
  sgl :=
    { address := UInt64.ofNat (leWord bs 24 8)
      length := UInt32.ofNat (leWord bs 32 4)
      type := .ofNibble (highNibble (bs.getD 39 0))
      subtype := .ofNibble (lowNibble (bs.getD 39 0)) }

/-- `struct spdk_nvme_tcp_h2c_data_hdr`, behind the common header. -/
structure H2cDataHdr where
  cccid : UInt16
  ttag : UInt16
  datao : UInt32
  datal : UInt32
  deriving DecidableEq, Repr

def H2cDataHdr.ofBytes (bs : List UInt8) : H2cDataHdr where
  cccid := UInt16.ofNat (leWord bs 8 2)
  ttag := UInt16.ofNat (leWord bs 10 2)
  datao := UInt32.ofNat (leWord bs 12 4)
  datal := UInt32.ofNat (leWord bs 16 4)

/-! ## The state of a receiver -/

/-- A PDU the receiver is done with. -/
structure RxPdu where
  hdr : CommonHdr
  /-- Where in the stream its header was begun. -/
  start : ℕ
  /-- Where the next one was. -/
  stop : ℕ
  /-- The requests taken from the free queue in between. -/
  taken : ℕ
  deriving DecidableEq, Repr

/-- The receiver of a qpair. -/
structure RxSt where
  qp : TcpQpair
  /-- What is read of `pdu->hdr`: `ch_valid_bytes` and `psh_valid_bytes` of it. -/
  raw : List UInt8 := []
  /-- What is read behind it: `rw_offset` bytes. -/
  data : List UInt8 := []
  /-- `pdu->data_len`. -/
  dataLen : ℕ := 0
  /-- What `pdu->req` is to be given. -/
  cur : Option DataPdu := none
  /-- The PDUs whose digest is computed. -/
  digesting : List DataPdu := []
  /-- How many bytes have been taken from the stream. -/
  pos : ℕ := 0
  /-- Where the PDU in progress was begun, and the requests taken by then. -/
  start : Option (ℕ × ℕ) := none
  past : List RxPdu := []

/-- What a receiver is set up with. -/
structure RxCtx extends QpCtx where
  /-- The digest of a header matches. -/
  hdgstOk : List UInt8 → Bool
  running : conn.state = .running

namespace RxSt

variable (s : RxSt)

/-- A receiver at the front of a stream. -/
def init (R : RxCtx) (below : TcpReq) : RxSt := { qp := .init R.toQpCtx below }

/-- The next PDU is begun: `memset` of the header, and AWAIT_PDU_CH. -/
def nextPdu : RxSt :=
  { s with
    qp := { s.qp with recv := .awaitPduCh, hdr := ⟨.ofBytes [], 0⟩ }
    raw := [], data := [], dataLen := 0, cur := none
    start := some (s.pos, s.qp.arrivals)
    past := s.past ++
      (s.start.map fun p => ⟨s.qp.hdr.common, p.1, s.pos, s.qp.arrivals - p.2⟩).toList }

/-- The requests have changed.  A handler that lays `pdu->data_iov` over the buffers of a request
has added the PDU to those with data. -/
def handled (qp : TcpQpair) : RxSt :=
  if s.qp.pdus.length < qp.pdus.length then
    { s with
      qp
      cur := qp.pdus.getLast?
      dataLen := (qp.pdus.getLast?.map fun p => p.dataLen.toNat).getD 0 }
  else { s with qp }

/-- `nvmf_tcp_send_c2h_term_req`. -/
def terminate (t : TermReq) : RxSt := { s with qp := s.qp.terminate t }

/-- `nvmf_tcp_qpair_set_recv_state`. -/
def setRecv (recv : RecvState) : RxSt := { s with qp := { s.qp with recv } }

/-- A part of a header has been read. -/
def readRaw (bs : List UInt8) : RxSt := { s with raw := s.raw ++ bs, pos := s.pos + bs.length }

/-- A part of the data has been read. -/
def readData (bs : List UInt8) : RxSt := { s with data := s.data ++ bs, pos := s.pos + bs.length }

end RxSt

/-! ## The handlers -/

section Handlers

variable (R : RxCtx)

/-- `nvmf_tcp_pdu_ch_handle`, for the header in progress. -/
def pduChHandle (s : RxSt) : RxSt :=
  match nvmfTcpPduChHandle R.conn s.qp.hdr.common with
  | .error t => s.terminate t
  | .ok n => { s with qp := { s.qp with recv := .awaitPduPsh, hdr := ⟨s.qp.hdr.common, n⟩ } }

/-- `nvmf_tcp_h2c_term_req_hdr_handle`. -/
def h2cTermReqHdrHandle (s : RxSt) : RxSt :=
  if leWord s.raw 8 2 > 6 then s.terminate ⟨.invalidHeaderField, 8⟩
  else { s.setRecv .awaitPduPayload with dataLen := s.qp.hdr.common.plen.toNat - 24 }

/-- **`nvmf_tcp_pdu_psh_handle`.** -/
def nvmfTcpPduPshHandle (s : RxSt) : RxSt :=
  if s.qp.hdr.common.hasHdgst R.conn && !R.hdgstOk s.raw then s.terminate ⟨.hdgstError, 0⟩ else
  match s.qp.hdr.common.pduType with
  | .capsuleCmd =>
    { s with qp := { s.qp with recv := .awaitReq, cmd := .ofBytes (s.raw.drop 8) } }
  | .h2cData =>
    let h := H2cDataHdr.ofBytes s.raw
    s.handled (nvmfTcpH2cDataHdrHandle R.toQpCtx h.cccid h.ttag h.datao h.datal s.qp)
  | .h2cTermReq => h2cTermReqHdrHandle s
  -- an ICReq does not get here while the qpair is running
  | _ => s.terminate ⟨.invalidHeaderField, 1⟩

/-- **`nvmf_tcp_pdu_payload_handle`.**  The digest of the data is computed in its own time. -/
def nvmfTcpPduPayloadHandle (s : RxSt) : RxSt :=
  let s := s.setRecv .awaitPduReady
  if s.qp.hdr.common.pduType = .h2cTermReq then s.setRecv .quiescing else
  match s.cur with
  | none => s
  | some p =>
    if R.conn.ddgst then { s with digesting := s.digesting ++ [p] }
    else { s with qp := dataCrc32CalcDone R.toQpCtx p true s.qp }

/-! ## A pass of the loop -/

/-- The case of AWAIT_PDU_CH; a read is not handed more than it asks for. -/
def awaitPduCh (s : RxSt) (bs : List UInt8) : Option RxSt :=
  if 8 < s.raw.length + bs.length then none else
  let s := s.readRaw bs
  let s := { s with qp := { s.qp with hdr := ⟨.ofBytes s.raw, 0⟩ } }
  if s.raw.length < 8 then some s else some (pduChHandle R s)

/-- The case of AWAIT_PDU_PSH. -/
def awaitPduPsh (s : RxSt) (bs : List UInt8) : Option RxSt :=
  let all := 8 + s.qp.hdr.pshLen.toNat
  if all < s.raw.length + bs.length then none else
  let s := s.readRaw bs
  if s.raw.length < all then some s else some (nvmfTcpPduPshHandle R s)

/-- What is to be read behind the header: the data, and the digest of a PDU that has one. -/
def RxSt.payloadLen (s : RxSt) : ℕ :=
  s.dataLen + if s.qp.hdr.common.pduType ≠ .h2cTermReq ∧ R.conn.ddgst = true then digestLen else 0

/-- The case of AWAIT_PDU_PAYLOAD. -/
def awaitPduPayload (s : RxSt) (bs : List UInt8) : Option RxSt :=
  if s.dataLen = 0 then if bs = [] then some s else none else
  if s.payloadLen R < s.data.length + bs.length then none else
  let s' := s.readData bs
  if s'.data.length < s.payloadLen R then some s' else some (nvmfTcpPduPayloadHandle R s')

/-- **A pass of the loop in `nvmf_tcp_sock_process`**, with what the socket hands out (nothing, if
the read would block), whether there is a PDU to read into, and the buffers there are. -/
def sockPass (pduFree : Bool) (b : BufSupply) (bs : List UInt8) (s : RxSt) : Option RxSt :=
  match s.qp.recv with
  | .awaitPduReady =>
    if pduFree then awaitPduCh R s.nextPdu bs else if bs = [] then some s else none
  | .awaitPduCh => awaitPduCh R s bs
  | .awaitPduPsh => awaitPduPsh R s bs
  | .awaitReq =>
    if bs = [] then some (s.handled (nvmfTcpCapsuleCmdHdrHandle R.toQpCtx b s.qp)) else none
  | .awaitPduPayload => awaitPduPayload R s bs
  | .quiescing | .error => none

end Handlers

/-! ## Runs -/

/-- What happens to a receiver. -/
inductive RxEvent
  | pass (pduFree : Bool) (b : BufSupply) (bs : List UInt8)
  /-- A read fails. -/
  | closed
  /-- The digest of a data PDU has been computed. -/
  | digest (p : DataPdu) (ok : Bool)
  /-- Something happens to the requests. -/
  | requests (e : TcpEvent)

/-- The event is none of the receiver's own. -/
def TcpEvent.offReceiver : TcpEvent → Bool
  | .capsule .. | .nextPdu .. | .h2cData .. | .dataDone .. => false
  | _ => true

/-- The receiver works. -/
def RxSt.Works (s : RxSt) : Prop :=
  s.qp.recv ≠ .quiescing ∧ s.qp.recv ≠ .error ∧ s.qp.active = true

instance (s : RxSt) : Decidable s.Works := inferInstanceAs (Decidable (_ ∧ _ ∧ _))

/-- The steps of a receiver that works. -/
def rxStep (R : RxCtx) (s : RxSt) (e : RxEvent) : Option RxSt :=
  if s.Works then
    match e with
    | .pass pduFree b bs => sockPass R pduFree b bs s
    | .closed => some (s.setRecv .quiescing)
    | .digest p ok =>
      if p ∈ s.digesting then
        some { s with
          digesting := s.digesting.erase p, qp := dataCrc32CalcDone R.toQpCtx p ok s.qp }
      else none
    | .requests e => if e.offReceiver then (tcpStep R.toQpCtx s.qp e).map s.handled else none
  else none

/-- **A receiver from the front of the stream on.** -/
def rxSys (R : RxCtx) (below : TcpReq) : Sys RxSt RxEvent := ⟨.init R below, rxStep R⟩

/-! ## Framing -/

/-- **Framing is kept and no command is replayed.** -/
structure WellFramed (s : RxSt) : Prop where
  /-- A header is begun where the PDU before it ended, by its `plen`. -/
  framed : ∀ p ∈ s.past, p.stop = p.start + p.hdr.plen.toNat
  /-- A capsule the receiver is done with has taken one request. -/
  taken : ∀ p ∈ s.past, p.hdr.pduType = .capsuleCmd → p.taken = 1
  /-- The PDU in progress has taken no more than that. -/
  current : ∀ p n, s.start = some (p, n) → s.qp.arrivals ≤ n + 1

/-- The bytes read for a PDU's header. -/
def RxHdr.readLen (h : RxHdr) : ℕ := 8 + h.pshLen.toNat

/-- The SGL of a command is refused: it asks for more than may be transferred, its data is not all
that stands behind the header, or it is no SGL of a capsule. -/
def SglRefused (R : RxCtx) (h : RxHdr) (cmd : TcpCmd) : Prop :=
  let len := h.capsuleLen R.conn
  if cmd.sgl.isTransport then cmd.sgl.length.toNat > R.transport.maxIoSize else
  cmd.sgl.isInCapsule = true → len ≠ cmd.sgl.length ∨ cmd.sgl.address ≠ 0 ∨
    len.toNat > R.transport.inCapsuleDataSize ∧
      ¬ (len.toNat ≤ inCapsuleDataMaxSize ∧ (cmd.isFabric ∨ R.admin))

/-- **A capsule ends where its command says.**  Without data to transfer nothing stands behind the
header; with a direction, the bytes behind the header are those of an SGL in the capsule, or the SGL
is refused. -/
def CapsuleFits (R : RxCtx) (h : RxHdr) (cmd : TcpCmd) (b : BufSupply) : Prop :=
  match spdkNvmfReqGetXfer R.transport cmd with
  | .none | .bidirectional => h.readLen = h.common.plen.toNat
  | .controllerToHost => h.hasData R.conn = true → SglRefused R h cmd
  | .hostToController =>
    if h.hasData R.conn = true then
      SglRefused R h cmd ∨ cmd.sgl.isInCapsule = true ∧
        -- a long capsule waits for a control message in AWAIT_REQ
        (b.ctrl = true ∨ (h.capsuleLen R.conn).toNat ≤ R.transport.inCapsuleDataSize) ∧
        h.readLen + (if R.conn.ddgst then digestLen else 0) ≤ h.common.plen.toNat
    else cmd.sgl.isInCapsule = false

/-- **An H2CData PDU ends where its `datal` says.** -/
def H2cDataFits (R : RxCtx) (h : RxHdr) (d : H2cDataHdr) : Prop :=
  h.common.plen.toNat = h.readLen + d.datal.toNat + if R.conn.ddgst then digestLen else 0

/-- The PDUs of the stream end where `plen` says. -/
def RxSafe (R : RxCtx) (s : RxSt) : RxEvent → Prop
  | .pass _ b bs =>
    match s.qp.recv with
    | .awaitPduPsh =>
      s.raw.length + bs.length = s.qp.hdr.readLen → s.qp.hdr.common.pduType = .h2cData →
        H2cDataFits R s.qp.hdr (.ofBytes (s.raw ++ bs))
    | .awaitReq => CapsuleFits R s.qp.hdr s.qp.cmd b
    | _ => True
  | _ => True

end NdpHeaan
