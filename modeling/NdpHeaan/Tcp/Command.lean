import NdpHeaan.Target.Reservation
import NdpHeaan.Tcp.PduHeader
import NdpHeaan.Wire.TcpData

/-!
# Tcp/Command — the direction of a command's data, and where the data goes

`spdk_nvmf_req_get_xfer` reads the direction off the opcode and drops it for an SGL of length 0, but
for the two near-data opcodes it answers before it looks at the SGL.  A command with a direction
needs buffers: `nvmf_tcp_req_parse_sgl` asks the pool for a transport data block, and takes the
request's own buffer, or one of the control-message list, for a block in the capsule.
-/

namespace NdpHeaan

/-! ## Commands -/

/-- `enum spdk_nvme_sgl_descriptor_type`. -/
inductive SglType
  | dataBlock
  | bitBucket
  | segment
  | lastSegment
  | keyedDataBlock
  | transportDataBlock
  | other (n : Fin 16)
  deriving DecidableEq, Repr

/-- The type four bits stand for. -/
def SglType.ofNibble : Fin 16 → SglType
  | 0x0 => .dataBlock
  | 0x1 => .bitBucket
  | 0x2 => .segment
  | 0x3 => .lastSegment
  | 0x4 => .keyedDataBlock
  | 0x5 => .transportDataBlock
  | n => .other n

/-- `enum spdk_nvme_sgl_descriptor_subtype`. -/
inductive SglSubtype
  | address
  | offset
  | transport
  | other (n : Fin 16)
  deriving DecidableEq, Repr

/-- The subtype four bits stand for. -/
def SglSubtype.ofNibble : Fin 16 → SglSubtype
  | 0x0 => .address
  | 0x1 => .offset
  | 0xa => .transport
  | n => .other n

/-- `struct spdk_nvme_sgl_descriptor`. -/
structure TcpSgl where
  address : UInt64 := 0
  /-- `unkeyed.length`. -/
  length : UInt32
  type : SglType
  subtype : SglSubtype
  deriving DecidableEq, Repr

/-- `keyed.length`, the low 24 bits. -/
def TcpSgl.keyedLength (g : TcpSgl) : UInt32 := g.length &&& 0xFFFFFF

/-- A transport data block: the data is moved by PDUs of its own. -/
def TcpSgl.isTransport (g : TcpSgl) : Bool :=
  g.type = .transportDataBlock && g.subtype = .transport

/-- A data block in the capsule. -/
def TcpSgl.isInCapsule (g : TcpSgl) : Bool := g.type = .dataBlock && g.subtype = .offset

/-- An SGL is not both. -/
theorem TcpSgl.not_isTransport_of_isInCapsule {g : TcpSgl} (h : g.isInCapsule = true) :
    ¬ g.isTransport = true := by
  unfold isInCapsule isTransport at *
  simp only [Bool.and_eq_true, decide_eq_true_eq] at h ⊢
  rw [h.1]
  exact fun hc => absurd hc.1 (by decide)

/-- `struct spdk_nvme_cmd`, as far as the transport reads it. -/
structure TcpCmd where
  opc : UInt8
  fuse : Fuse := .none
  cid : UInt16 := 0
  /-- `nvmf_cmd.fctype`. -/
  fctype : UInt8 := 0
  /-- `dptr.sgl1`. -/
  sgl : TcpSgl
  deriving DecidableEq, Repr

/-- `SPDK_NVME_OPC_FABRIC`. -/
def TcpCmd.isFabric (cmd : TcpCmd) : Bool := cmd.opc = 0x7f

/-- What the target is built and configured with. -/
structure TcpTransport extends TcpOpts where
  /-- The target is built with `HEAAN_LIB`. -/
  heaanLib : Bool := true

/-! ## The direction of the data -/

/-- `enum spdk_nvme_data_transfer`. -/
inductive DataTransfer
  | none
  | hostToController
  | controllerToHost
  | bidirectional
  deriving DecidableEq, Repr

/-- `spdk_nvme_opc_get_data_transfer`. -/
def spdkNvmeOpcGetDataTransfer (opc : UInt8) : DataTransfer :=
  match opc &&& 3 with
  | 0 => .none
  | 1 => .hostToController
  | 2 => .controllerToHost
  | _ => .bidirectional

/-- **`spdk_nvmf_req_get_xfer`.** -/
def spdkNvmfReqGetXfer (T : TcpTransport) (cmd : TcpCmd) : DataTransfer :=
  if cmd.opc = 0xD0 then .controllerToHost else
  if T.heaanLib ∧ cmd.opc = 0xE0 then .hostToController else
  let xfer := spdkNvmeOpcGetDataTransfer (if cmd.isFabric then cmd.fctype else cmd.opc)
  if xfer = .none then .none else
  match cmd.sgl.type with
  | .dataBlock | .bitBucket | .segment | .lastSegment | .transportDataBlock =>
    if cmd.sgl.length = 0 then .none else xfer
  | .keyedDataBlock => if cmd.sgl.keyedLength = 0 then .none else xfer
  | .other _ => xfer

/-- The data goes one way: the request needs buffers. -/
def DataTransfer.NeedsBuffer (x : DataTransfer) : Prop :=
  x = .hostToController ∨ x = .controllerToHost

instance (x : DataTransfer) : Decidable x.NeedsBuffer := inferInstanceAs (Decidable (_ ∨ _))

/-! ## Buffers for the data -/

/-- `struct spdk_dif_ctx` of a request that has its DIF inserted or stripped. -/
structure DifCtx where
  blockSize : UInt32
  mdSize : UInt32
  mdInterleave : Bool
  deriving DecidableEq, Repr

/-- `spdk_dif_get_length_with_md`. -/
def spdkDifGetLengthWithMd (ctx : DifCtx) (dataLen : UInt32) : UInt32 :=
  if !ctx.mdInterleave then dataLen else
  let dataBlockSize := ctx.blockSize - ctx.mdSize
  (dataLen / dataBlockSize) * ctx.blockSize + dataLen % dataBlockSize

/-- What the poll group can give. -/
structure BufSupply where
  /-- The pool has the buffers asked for. -/
  pool : Bool := true
  /-- The control-message list has one. -/
  ctrl : Bool := true
  deriving DecidableEq, Repr

/-- What `nvmf_tcp_req_parse_sgl` reads beside the command. -/
structure SglContext where
  /-- `qpair->qid` is 0. -/
  admin : Bool := false
  /-- What the header of the PDU in progress leaves for data:
  `plen - psh_len - sizeof(common)`, less a data digest. -/
  capsuleLen : UInt32 := 0
  /-- `nvmf_ctrlr_use_zcopy`. -/
  zcopy : Bool := false
  dif : Option DifCtx := none
  deriving DecidableEq, Repr

/-- How the parsing of a command's SGL ends. -/
inductive SglEnd
  /-- The connection is terminated, and the request left as it is. -/
  | fatal (t : TermReq)
  /-- The device lends its buffers. -/
  | zcopy
  /-- There are no buffers. -/
  | noBuffers
  /-- The pool has given buffers, and `iov` has these lengths. -/
  | pool (iov : List ℕ)
  /-- The data is in the capsule; its buffer may be one of the control-message list. -/
  | inCapsule (fromCtrl : Bool) (len : UInt32)
  deriving DecidableEq, Repr

/-- What the pool is asked for. -/
def SglContext.bufLen (x : SglContext) (length : UInt32) : UInt32 :=
  match x.dif with
  | none => length
  | some ctx => spdkDifGetLengthWithMd ctx length

/-- `SPDK_NVME_TCP_IN_CAPSULE_DATA_MAX_SIZE`. -/
def inCapsuleDataMaxSize : ℕ := 8192

/-- **`nvmf_tcp_req_parse_sgl`.** -/
def tcpReqParseSgl (T : TcpTransport) (b : BufSupply) (x : SglContext) (cmd : TcpCmd) : SglEnd :=
  if cmd.sgl.isTransport then
    if cmd.sgl.length.toNat > T.maxIoSize then .fatal ⟨.dataTransferLimitExceeded, 0⟩ else
    if x.zcopy then .zcopy else
    match nvmfRequestGetBuffers T.toTcpOpts b.pool (x.bufLen cmd.sgl.length).toNat with
    | none => .noBuffers
    | some iov => .pool iov
  else if cmd.sgl.isInCapsule then
    -- `offsetof` the length of the PDU, and of the address in the command
    if x.capsuleLen ≠ cmd.sgl.length then .fatal ⟨.invalidHeaderField, 4⟩ else
    if cmd.sgl.address ≠ 0 then .fatal ⟨.invalidDataUnsupportedParameter, 32⟩ else
    if x.capsuleLen.toNat > T.inCapsuleDataSize then
      if x.capsuleLen.toNat ≤ inCapsuleDataMaxSize ∧ (cmd.isFabric ∨ x.admin) then
        if b.ctrl then .inCapsule true x.capsuleLen else .noBuffers
      else .fatal ⟨.dataTransferLimitExceeded, 0⟩
    else .inCapsule false x.capsuleLen
  else .fatal ⟨.invalidDataUnsupportedParameter, 40⟩

section ParseSgl

variable {T : TcpTransport} {b : BufSupply} {x : SglContext} {cmd : TcpCmd}

/-- The pool is asked for what the SGL describes. -/
theorem getBuffers_of_parseSgl {iov : List ℕ} (hdif : x.dif = none)
    (h : tcpReqParseSgl T b x cmd = .pool iov) :
    nvmfRequestGetBuffers T.toTcpOpts b.pool cmd.sgl.length.toNat = some iov := by
  unfold tcpReqParseSgl at h
  split_ifs at h
  split at h
  · cases h
  · rename_i lens hget
    cases h
    simpa [SglContext.bufLen, hdif] using hget

/-- A block in the capsule is found there alone, with the length its header leaves and the SGL
describes. -/
theorem parseSgl_inCapsule {c : Bool} {len : UInt32}
    (h : tcpReqParseSgl T b x cmd = .inCapsule c len) :
    cmd.sgl.isInCapsule = true ∧ len = x.capsuleLen ∧ len = cmd.sgl.length := by
  unfold tcpReqParseSgl at h
  split at h
  · split_ifs at h
    split at h <;> cases h
  split_ifs at h with hin hlen
  all_goals
    cases h
    exact ⟨hin, rfl, not_not.mp hlen⟩

end ParseSgl

/-- **The request is taken off `pending_buf_queue`**: what NEED_BUFFER makes of the parsed SGL. -/
def SglEnd.takesOff : SglEnd → Bool
  | .fatal _ | .noBuffers => false
  | .zcopy => true
  -- `req.iovcnt < 1`
  | .pool iov => 1 ≤ iov.length
  | .inCapsule _ _ => true

/-! ## Samples -/

/-- The default options of a transport. -/
def sampleTransport : TcpTransport where
  maxIoSize := 131072
  ioUnitSize := 131072
  inCapsuleDataSize := 4096
  maxIoSize_ge := by decide
  inCapsuleDataSize_le := by decide
  ioUnitSize_pos := by decide
  sgeCount_le := by decide

/-- A transport data block of so many bytes. -/
def transportSgl (length : UInt32) : TcpSgl :=
  { length, type := .transportDataBlock, subtype := .transport }

end NdpHeaan
