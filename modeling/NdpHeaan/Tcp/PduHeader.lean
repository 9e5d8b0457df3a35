import NdpHeaan.Machinery.Segments

/-!
# Tcp/PduHeader — the header of a PDU, and how much of it is read

The receiver of `spdk/lib/nvmf/tcp.c` reads eight bytes, lets `nvmf_tcp_pdu_ch_handle` look at them,
and then reads `psh_len` more into the same structure.  That length is put together in eight bits
from `hlen`, the header digest and the host's `pdo`; the check on `pdo` comes when the header has
been read.  `PdoInRange` is what a header must satisfy for the read to be the header and to stay in
the structure.
-/

open Machinery

namespace NdpHeaan

/-! ## Headers and connections -/

/-- `enum spdk_nvme_tcp_pdu_type`. -/
inductive PduType
  | icReq
  | icResp
  | h2cTermReq
  | c2hTermReq
  | capsuleCmd
  | capsuleResp
  | h2cData
  | c2hData
  | r2t
  | other (b : UInt8)
  deriving DecidableEq, Repr

/-- The type a byte stands for. -/
def PduType.ofByte : UInt8 → PduType
  | 0x00 => .icReq
  | 0x01 => .icResp
  | 0x02 => .h2cTermReq
  | 0x03 => .c2hTermReq
  | 0x04 => .capsuleCmd
  | 0x05 => .capsuleResp
  | 0x06 => .h2cData
  | 0x07 => .c2hData
  | 0x09 => .r2t
  | b => .other b

/-- `g_nvme_tcp_hdgst`: the types that carry a header digest. -/
def PduType.hdgst : PduType → Bool
  | .capsuleCmd | .capsuleResp | .h2cData | .c2hData | .r2t => true
  | _ => false

/-- `struct spdk_nvme_tcp_common_pdu_hdr`. -/
structure CommonHdr where
  /-- `pdu_type`. -/
  typeByte : UInt8
  flags : UInt8
  hlen : UInt8
  pdo : UInt8
  plen : UInt32
  deriving DecidableEq, Repr

def CommonHdr.pduType (h : CommonHdr) : PduType := .ofByte h.typeByte

/-- `enum nvme_tcp_qpair_state`. -/
inductive TcpQpairState
  | invalid
  | initializing
  | fabricConnectSend
  | fabricConnectPoll
  | running
  | exiting
  | exited
  deriving DecidableEq, Repr

/-- What a connection has negotiated. -/
structure TcpConn where
  state : TcpQpairState := .running
  cpda : UInt8 := 0
  /-- `host_hdgst_enable`. -/
  hdgst : Bool := false
  /-- `host_ddgst_enable`. -/
  ddgst : Bool := false
  deriving DecidableEq, Repr

/-- `enum spdk_nvme_tcp_term_req_fes`. -/
inductive TermReqFes
  | invalidHeaderField
  | pduSequenceError
  | hdgstError
  | dataTransferOutOfRange
  | dataTransferLimitExceeded
  | invalidDataUnsupportedParameter
  deriving DecidableEq, Repr

/-- What `nvmf_tcp_send_c2h_term_req` is told. -/
structure TermReq where
  fes : TermReqFes
  errorOffset : ℕ := 0
  deriving DecidableEq, Repr

/-- `SPDK_NVME_TCP_DIGEST_LEN`. -/
def digestLen : ℕ := 4

/-- `SPDK_NVME_TCP_TERM_REQ_PDU_MAX_SIZE`, the size of `hdr.raw`. -/
def rawSize : ℕ := 152

/-! ## The length of a header -/

/-- `pdu->has_hdgst`. -/
def CommonHdr.hasHdgst (c : TcpConn) (h : CommonHdr) : Bool := h.pduType.hdgst && c.hdgst

/-- The header with its digest, in bytes. -/
def CommonHdr.hdrLen (c : TcpConn) (h : CommonHdr) : ℕ :=
  h.hlen.toNat + if h.hasHdgst c then digestLen else 0

/-- **`nvme_tcp_pdu_calc_psh_len`**, in the 8-bit arithmetic it is done in. -/
def nvmeTcpPduCalcPshLen (c : TcpConn) (h : CommonHdr) : UInt8 :=
  let pshLen := if h.hasHdgst c then h.hlen + 4 else h.hlen
  let padded :=
    if h.plen > pshLen.toUInt32 then
      match h.pduType with
      | .capsuleCmd | .h2cData | .c2hData =>
        let paddingLen := h.pdo - pshLen
        if paddingLen > 0 then h.pdo else pshLen
      | _ => pshLen
    else pshLen
  padded - 8

/-- The end of `nvmf_tcp_pdu_ch_handle`, where the length expected of the type is known. -/
def chVerdict (c : TcpConn) (h : CommonHdr) (expectedHlen : UInt8) (pdoError plenError : Bool) :
    Except TermReq UInt8 :=
  if h.hlen ≠ expectedHlen then .error ⟨.invalidHeaderField, 2⟩ else
  if pdoError then .error ⟨.invalidHeaderField, 3⟩ else
  if plenError then .error ⟨.invalidHeaderField, 4⟩ else
  .ok (nvmeTcpPduCalcPshLen c h)

/-- The alignment the connection asks of `pdo` is not kept. -/
def CommonHdr.pdoError (c : TcpConn) (h : CommonHdr) : Bool :=
  c.cpda ≠ 0 && h.pdo.toNat % ((c.cpda.toNat + 1) <<< 2) ≠ 0

/-- **`nvmf_tcp_pdu_ch_handle`**: the `psh_len` of a header that is accepted. -/
def nvmfTcpPduChHandle (c : TcpConn) (h : CommonHdr) : Except TermReq UInt8 :=
  match h.pduType with
  | .icReq =>
    if c.state ≠ .invalid then .error ⟨.pduSequenceError, 0⟩
    else chVerdict c h 128 false (h.plen ≠ 128)
  | t =>
    if c.state ≠ .running then .error ⟨.pduSequenceError, 0⟩ else
    match t with
    | .capsuleCmd => chVerdict c h 72 (h.pdoError c) (h.plen < 72)
    | .h2cData => chVerdict c h 24 (h.pdoError c) (h.plen < 24)
    | .h2cTermReq => chVerdict c h 24 false (h.plen ≤ 24 || h.plen > 152)
    | _ => .error ⟨.invalidHeaderField, 0⟩

/-- What the reads of `nvmf_tcp_sock_process` store of a header behind its first eight bytes: each
is handed what it asks for, or less. -/
def pshStores (pshLen : ℕ) : ℕ → List ℕ → List Seg
  | _, [] => []
  | valid, n :: ns =>
    ⟨8 + valid, min n (pshLen - valid)⟩ :: pshStores pshLen (valid + min n (pshLen - valid)) ns

/-! ## Reading inside the structure -/

/-- **A header is read whole and inside `hdr.raw`.** -/
structure PshFits (c : TcpConn) (h : CommonHdr) (pshLen : UInt8) : Prop where
  /-- The header and its digest are read. -/
  covers : h.hdrLen c ≤ pshLen.toNat + 8
  /-- The length is one the structure has. -/
  fits : pshLen.toNat + 8 ≤ rawSize
  /-- Nothing is stored outside. -/
  inside : ∀ reads, ∀ st ∈ pshStores pshLen.toNat 0 reads, st.Within rawSize

/-- **The data offset of a header is in range**: in a capsule or a data PDU with bytes behind the
header, the data begins behind the header and no later than the structure ends. -/
def CommonHdr.PdoInRange (c : TcpConn) (h : CommonHdr) : Prop :=
  h.pduType = .capsuleCmd ∨ h.pduType = .h2cData → h.hdrLen c < h.plen.toNat →
    h.hdrLen c ≤ h.pdo.toNat ∧ h.pdo.toNat ≤ rawSize

/-- Reads stay below the length they are to reach. -/
theorem pshStores_within {pshLen size : ℕ} (hsize : pshLen + 8 ≤ size) :
    ∀ {valid : ℕ} {reads : List ℕ}, valid ≤ pshLen →
      ∀ st ∈ pshStores pshLen valid reads, st.Within size
  | _, [], _ => nofun
  | valid, n :: ns, hvalid => by
      intro st hst
      rcases List.mem_cons.mp hst with rfl | hst
      · exact Seg.within_of_le (by dsimp only; omega)
      · exact pshStores_within hsize (by omega) st hst

section PshLen

variable {c : TcpConn} {h : CommonHdr}

/-- The header's own length does not wrap. -/
theorem toNat_hlen_add_digest (hle : h.hlen.toNat ≤ 128) :
    (if h.hasHdgst c then h.hlen + 4 else h.hlen).toNat = h.hdrLen c := by
  unfold CommonHdr.hdrLen digestLen
  split
  · rw [UInt8.toNat_add]
    change (h.hlen.toNat + 4) % 256 = _
    omega
  · rfl

/-- The length behind the first eight bytes, where a length is at least that. -/
theorem toNat_sub_eight {n : UInt8} (hn : 8 ≤ n.toNat) : (n - 8).toNat = n.toNat - 8 :=
  UInt8.toNat_sub_of_le n 8 (UInt8.le_iff_toNat_le.mpr hn)

/-- **The length of a header**: without bytes behind it its own, with them the host's `pdo`, from
which eight are taken off modulo 256. -/
theorem toNat_calcPshLen (hle : h.hlen.toNat ≤ 128) (hge : 8 ≤ h.hlen.toNat) :
    (nvmeTcpPduCalcPshLen c h).toNat =
      if (h.pduType = .capsuleCmd ∨ h.pduType = .h2cData ∨ h.pduType = .c2hData) ∧
          h.hdrLen c < h.plen.toNat then (h.pdo.toNat + 248) % 256
      else h.hdrLen c - 8 := by
  have hown := toNat_hlen_add_digest (c := c) hle
  have hhdr : 8 ≤ h.hdrLen c := hge.trans (Nat.le_add_right ..)
  unfold nvmeTcpPduCalcPshLen
  set own := if h.hasHdgst c then h.hlen + 4 else h.hlen
  have hgt : h.plen > own.toUInt32 ↔ h.hdrLen c < h.plen.toNat := by
    rw [gt_iff_lt, UInt32.lt_iff_toNat_lt, UInt8.toNat_toUInt32, hown]
  have hsub : (own - 8).toNat = h.hdrLen c - 8 := by rw [toNat_sub_eight (by omega), hown]
  have hpdo : ((if h.pdo - own > 0 then h.pdo else own) - 8).toNat = (h.pdo.toNat + 248) % 256 := by
    have hself : (if h.pdo - own > 0 then h.pdo else own) = h.pdo := by
      split
      · rfl
      · rename_i hzero
        have hdiff : h.pdo - own = 0 := by simpa using hzero
        rw [← UInt8.sub_add_cancel h.pdo own, hdiff, UInt8.zero_add]
    rw [hself, UInt8.toNat_sub]
    change (256 - 8 + h.pdo.toNat) % 256 = _
    rw [Nat.add_comm]
  by_cases hlong : h.hdrLen c < h.plen.toNat
  · dsimp only
    rw [if_pos (hgt.mpr hlong)]
    cases h.pduType <;> simp only [hlong, hsub, hpdo, reduceCtorEq, or_self, or_true, true_or,
      and_self, and_true, if_true, if_false]
  · dsimp only
    rw [if_neg (mt hgt.mp hlong), if_neg fun hc => hlong hc.2]
    exact hsub

/-- A header that is accepted has the length of its type, which `hdr.raw` can hold. -/
theorem hlen_of_accepted {n : UInt8} (hn : nvmfTcpPduChHandle c h = .ok n) :
    n = nvmeTcpPduCalcPshLen c h ∧ h.pduType ≠ .c2hData ∧ 24 ≤ h.hlen.toNat ∧
      h.hlen.toNat ≤ 128 := by
  have hverdict : ∀ {e : UInt8} {a b : Bool}, 24 ≤ e.toNat → e.toNat ≤ 128 →
      chVerdict c h e a b = .ok n →
        n = nvmeTcpPduCalcPshLen c h ∧ 24 ≤ h.hlen.toNat ∧ h.hlen.toNat ≤ 128 := by
    intro e a b hge hle he
    unfold chVerdict at he
    split_ifs at he with hlen
    obtain rfl := of_not_not hlen
    exact ⟨(Except.ok.inj he).symm, hge, hle⟩
  unfold nvmfTcpPduChHandle at hn
  split at hn
  · rename_i htype
    split_ifs at hn
    have hv := hverdict (by decide) (by decide) hn
    exact ⟨hv.1, by rw [htype]; decide, hv.2⟩
  · split_ifs at hn
    split at hn
    iterate 3
      rename_i htype
      have hv := hverdict (by decide) (by decide) hn
      exact ⟨hv.1, by rw [htype]; decide, hv.2⟩
    cases hn

/-- **A header is read inside `hdr.raw` exactly when its `pdo` is in range.** -/
theorem pshFits_iff_pdoInRange (c : TcpConn) (h : CommonHdr) (n : UInt8)
    (hn : nvmfTcpPduChHandle c h = .ok n) : PshFits c h n ↔ h.PdoInRange c := by
  obtain ⟨rfl, htype, hge, hle⟩ := hlen_of_accepted hn
  have hlen := toNat_calcPshLen (c := c) hle (by omega)
  have hhdr : h.hlen.toNat ≤ h.hdrLen c := Nat.le_add_right ..
  have hpdo : h.pdo.toNat < 256 := h.pdo.toNat_lt
  constructor
  · intro hfits hdata hlong
    rw [if_pos ⟨by tauto, hlong⟩] at hlen
    have hcovers := hfits.covers
    have hle' := hfits.fits
    unfold rawSize at hle' ⊢
    omega
  · intro hrange
    suffices hsize : h.hdrLen c ≤ (nvmeTcpPduCalcPshLen c h).toNat + 8 ∧
        (nvmeTcpPduCalcPshLen c h).toNat + 8 ≤ rawSize from
      ⟨hsize.1, hsize.2, fun _ => pshStores_within hsize.2 (Nat.zero_le _)⟩
    have hown : h.hdrLen c ≤ 132 := by
      unfold CommonHdr.hdrLen digestLen
      split <;> omega
    rw [hlen]
    split
    · rename_i hdata
      have := hrange (by tauto) hdata.2
      unfold rawSize at this ⊢
      omega
    · unfold rawSize
      omega

/-- A capsule with its data right behind the header is read inside. -/
theorem capsule_pshFits :
    nvmfTcpPduChHandle {} ⟨0x04, 0, 72, 72, 4168⟩ = .ok 64 ∧
      PshFits {} ⟨0x04, 0, 72, 72, 4168⟩ 64 :=
  ⟨rfl, (pshFits_iff_pdoInRange _ _ _ rfl).mpr fun _ _ => by decide⟩

/-- **A `pdo` of 255 makes the receiver store 103 bytes behind the structure**, and one of 0 makes
it store 104: eight are taken off modulo 256. -/
theorem capsule_overruns :
    nvmfTcpPduChHandle {} ⟨0x04, 0, 72, 255, 4168⟩ = .ok 247 ∧
      ¬ PshFits {} ⟨0x04, 0, 72, 255, 4168⟩ 247 ∧
      pshStores 247 0 [247] = [⟨8, 247⟩] ∧ ¬ Seg.Within ⟨8, 247⟩ rawSize ∧
      nvmfTcpPduChHandle {} ⟨0x04, 0, 72, 0, 4168⟩ = .ok 248 ∧
      ¬ PshFits {} ⟨0x04, 0, 72, 0, 4168⟩ 248 :=
  ⟨rfl, fun h => absurd h.fits (by decide), rfl,
    fun h => absurd (h.le (by decide)) (by decide), rfl, fun h => absurd h.fits (by decide)⟩

end PshLen

end NdpHeaan
