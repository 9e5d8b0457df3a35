import Mathlib.Algebra.Order.BigOperators.Group.List
import Mathlib.Algebra.Order.Floor.Div
import Mathlib.Data.List.Basic

/-!
# Wire/TcpData — the buffers of a request, and the data PDU laid over them

The transport shares the length the host's SGL describes out over buffers of the pool, or takes the
capsule's own buffer.  A data PDU later points back into those iovecs: into a single one without a
look at its length, into several through a cursor that has sixteen slots to fill.  Behind the last
iovec the cursor stays on an array slot that is not the request's.
-/

namespace NdpHeaan

/-! ## From an SGL to iovecs -/

/-- `spdk_nvmf_transport_opts`, as the creation of a transport lets them pass. -/
structure TcpOpts where
  maxIoSize : ℕ
  ioUnitSize : ℕ
  inCapsuleDataSize : ℕ
  maxIoSize_ge : 8192 ≤ maxIoSize
  /-- It is cut to `max_io_size`, a power of two. -/
  inCapsuleDataSize_le : inCapsuleDataSize ≤ 2 ^ 31
  ioUnitSize_pos : 0 < ioUnitSize
  /-- `sge_count <= SPDK_NVMF_MAX_SGL_ENTRIES`. -/
  sgeCount_le : maxIoSize / ioUnitSize ≤ 16

/-- The loop of `nvmf_request_get_buffers`, with `nvmf_request_set_buffer` for its body. -/
def setBuffers (ioUnitSize : ℕ) : ℕ → ℕ → List ℕ
  | 0, _ => []
  | n + 1, length =>
    min length ioUnitSize :: setBuffers ioUnitSize n (length - min length ioUnitSize)

/-- **`nvmf_request_get_buffers`**; `poolOk` says whether the pool has enough buffers. -/
def nvmfRequestGetBuffers (o : TcpOpts) (poolOk : Bool) (length : ℕ) : Option (List ℕ) :=
  let numBuffers := length ⌈/⌉ o.ioUnitSize
  if numBuffers > 33 then none else
  if !poolOk then none else
  some (setBuffers o.ioUnitSize numBuffers length)

/-! ## From iovecs to a PDU -/

/-- An entry of `pdu->data_iov`: so many bytes, from an offset in a slot of `req->iov` on. -/
structure PduIov where
  slot : ℕ
  offset : ℕ
  len : ℕ
  deriving DecidableEq, Repr

/-- A `spdk_iov_sgl` that reads: the entries from the cursor on, the cursor's slot, and its offset
there. -/
structure IovSgl where
  rest : List ℕ
  slot : ℕ
  offset : ℕ

/-- `spdk_iov_sgl_advance`, behind its addition to the offset. -/
def IovSgl.settle : List ℕ → ℕ → ℕ → IovSgl
  | [], slot, offset => ⟨[], slot, offset⟩
  | n :: rest, slot, offset =>
    if offset < n then ⟨n :: rest, slot, offset⟩ else settle rest (slot + 1) (offset - n)

/-- **`spdk_iov_sgl_advance`.** -/
def spdkIovSglAdvance (s : IovSgl) (step : ℕ) : IovSgl :=
  .settle s.rest s.slot (s.offset + step)

section Pdu

-- the length in the array slot behind the request's iovecs
variable (stale : ℕ)

/-- **`_nvme_tcp_sgl_get_buf`**: the length from the cursor to the end of its slot, in 32 bits. -/
def nvmeTcpSglGetBuf (s : IovSgl) : ℕ := (s.rest.headD stale + 2 ^ 32 - s.offset) % 2 ^ 32

/-- The loop of `nvme_tcp_pdu_set_data_buf`, by the slots its PDU has left; `none` if it spins. -/
def pduLoop : ℕ → IovSgl → ℕ → Option (List PduIov)
  | _, _, 0 => some []
  | 0, _, _ => some []
  | slots + 1, s, remainLen =>
    let len := min (nvmeTcpSglGetBuf stale s) remainLen
    -- an entry of length 0 is not appended, and the cursor does not move
    if len = 0 then none else
    (pduLoop slots (spdkIovSglAdvance s len) (remainLen - len)).map (⟨s.slot, s.offset, len⟩ :: ·)

/-- **`nvme_tcp_pdu_set_data_buf`**, without a DIF context. -/
def nvmeTcpPduSetDataBuf (iovLens : List ℕ) (dataOffset dataLen : ℕ) : Option (List PduIov) :=
  if iovLens.length = 1 then some [⟨0, dataOffset, dataLen⟩] else
  pduLoop stale 16 (spdkIovSglAdvance ⟨iovLens, 0, 0⟩ dataOffset) dataLen

end Pdu

/-! ## What a PDU covers -/

/-- An entry lies inside one of the iovecs. -/
def PduIov.Inside (iovLens : List ℕ) (v : PduIov) : Prop :=
  ∃ n, iovLens[v.slot]? = some n ∧ v.offset + v.len ≤ n

/-- **A PDU covers** so many bytes, all of them inside the iovecs. -/
structure Covers (iovLens : List ℕ) (dataLen : ℕ) (pdu : List PduIov) : Prop where
  exact_len : (pdu.map PduIov.len).sum = dataLen
  inside : ∀ v ∈ pdu, v.Inside iovLens

/-- The bytes the sixteen slots of a PDU can reach. -/
def reachable (slots : ℕ) (iovLens : List ℕ) : ℕ := ((iovLens.filter (0 < ·)).take slots).sum

section Covers

variable {stale : ℕ} {iovLens rest pre : List ℕ} {dataLen slots : ℕ}

theorem covers_nil_iff : Covers iovLens dataLen [] ↔ dataLen = 0 :=
  ⟨fun h => h.exact_len.symm, fun h => ⟨h.symm, nofun⟩⟩

theorem covers_cons_iff {v : PduIov} {pdu : List PduIov} (hv : v.len ≤ dataLen) :
    Covers iovLens dataLen (v :: pdu) ↔
      v.Inside iovLens ∧ Covers iovLens (dataLen - v.len) pdu := by
  constructor
  · rintro ⟨hsum, hin⟩
    rw [List.map_cons, List.sum_cons] at hsum
    refine ⟨hin v (List.mem_cons_self ..), by omega, fun w hw => hin w ?_⟩
    exact List.mem_cons_of_mem _ hw
  · rintro ⟨hv', hsum, hin⟩
    refine ⟨by rw [List.map_cons, List.sum_cons, hsum]; omega, fun w hw => ?_⟩
    rcases List.mem_cons.mp hw with rfl | hw
    · exact hv'
    · exact hin w hw

theorem pduLoop_succ (s : IovSgl) (n : ℕ) : pduLoop stale (slots + 1) s (n + 1) =
    if min (nvmeTcpSglGetBuf stale s) (n + 1) = 0 then none else
      (pduLoop stale slots (spdkIovSglAdvance s (min (nvmeTcpSglGetBuf stale s) (n + 1)))
        (n + 1 - min (nvmeTcpSglGetBuf stale s) (n + 1))).map
          (⟨s.slot, s.offset, min (nvmeTcpSglGetBuf stale s) (n + 1)⟩ :: ·) := by
  rw [pduLoop]
  exact Nat.succ_ne_zero n

theorem length_pduLoop_le : ∀ {slots : ℕ} {s : IovSgl} {remain : ℕ} {pdu : List PduIov},
    pduLoop stale slots s remain = some pdu → pdu.length ≤ slots
  | slots, _, 0, pdu, h => by
      obtain rfl : [] = pdu := by simpa [pduLoop] using h
      exact Nat.zero_le slots
  | 0, _, _ + 1, pdu, h => by
      obtain rfl : [] = pdu := by simpa [pduLoop] using h
      exact le_refl 0
  | slots + 1, _, _ + 1, _, h => by
      rw [pduLoop_succ] at h
      split at h
      · cases h
      · obtain ⟨pdu, hpdu, rfl⟩ := Option.map_eq_some_iff.mp h
        exact Nat.succ_le_succ (length_pduLoop_le hpdu)

/-- A PDU has sixteen slots. -/
theorem length_setDataBuf_le {dataOffset : ℕ} {pdu : List PduIov}
    (h : nvmeTcpPduSetDataBuf stale iovLens dataOffset dataLen = some pdu) : pdu.length ≤ 16 := by
  unfold nvmeTcpPduSetDataBuf at h
  split at h
  · obtain rfl := Option.some.inj h
    simp
  · exact length_pduLoop_le h

/-- At the start of an entry the cursor sees all of it. -/
theorem nvmeTcpSglGetBuf_start {m slot : ℕ} (hm : m < 2 ^ 32) :
    nvmeTcpSglGetBuf stale ⟨m :: rest, slot, 0⟩ = m := by
  change (m + 2 ^ 32 - 0) % 2 ^ 32 = m
  omega

/-- The first entry of a PDU, and the rest of it. -/
theorem exists_covers_map_cons_iff {v : PduIov} {o : Option (List PduIov)}
    (hv : v.Inside iovLens) (hlen : v.len ≤ dataLen) :
    (∃ pdu, o.map (v :: ·) = some pdu ∧ Covers iovLens dataLen pdu) ↔
      ∃ pdu, o = some pdu ∧ Covers iovLens (dataLen - v.len) pdu := by
  cases o with
  | none => simp
  | some pdu => simp [covers_cons_iff hlen, hv]

/-- **Sixteen slots cover what they reach.**  By induction on the iovecs from the cursor on: an
empty one is skipped, any other fills a slot, and behind the last there is nothing to be had. -/
theorem covers_pduLoop_iff : ∀ (rest pre : List ℕ) (slots dataLen : ℕ),
    iovLens = pre ++ rest → (∀ n ∈ rest, n < 2 ^ 32) →
    ((∃ pdu, pduLoop stale slots (.settle rest pre.length 0) dataLen = some pdu ∧
      Covers iovLens dataLen pdu) ↔ dataLen ≤ reachable slots rest)
  | _, _, _, 0, _, _ => by
      simp [pduLoop, covers_nil_iff]
  | _, _, 0, n + 1, _, _ => by
      simp [pduLoop, covers_nil_iff, reachable]
  | [], pre, slots + 1, n + 1, hsplit, _ => by
      refine iff_of_false ?_ (by simp [reachable])
      rintro ⟨pdu, hpdu, hcovers⟩
      rw [pduLoop_succ] at hpdu
      split at hpdu
      · cases hpdu
      · obtain ⟨pdu', -, rfl⟩ := Option.map_eq_some_iff.mp hpdu
        obtain ⟨m, hm, -⟩ := hcovers.inside _ (List.mem_cons_self ..)
        rw [hsplit] at hm
        simp [IovSgl.settle] at hm
  | 0 :: rest, pre, slots + 1, n + 1, hsplit, hlt => by
      have ih := covers_pduLoop_iff rest (pre ++ [0]) (slots + 1) (n + 1)
        (by simpa using hsplit) fun m hm => hlt m (List.mem_cons_of_mem _ hm)
      rw [List.length_append] at ih
      simpa [IovSgl.settle, reachable] using ih
  | (m + 1) :: rest, pre, slots + 1, n + 1, hsplit, hlt => by
      have hm : m + 1 < 2 ^ 32 := hlt _ (List.mem_cons_self ..)
      have ih := fun k => covers_pduLoop_iff rest (pre ++ [m + 1]) slots k
        (by simpa using hsplit) fun m hm => hlt m (List.mem_cons_of_mem _ hm)
      have hreach : reachable (slots + 1) ((m + 1) :: rest) = m + 1 + reachable slots rest := by
        simp [reachable]
      have hin : PduIov.Inside iovLens ⟨pre.length, 0, min (m + 1) (n + 1)⟩ := by
        refine ⟨m + 1, ?_, by dsimp only; omega⟩
        rw [hsplit]
        simp
      have hstart : IovSgl.settle ((m + 1) :: rest) pre.length 0
          = ⟨(m + 1) :: rest, pre.length, 0⟩ := if_pos (Nat.succ_pos m)
      rw [hstart, pduLoop_succ, nvmeTcpSglGetBuf_start hm, if_neg (by omega),
        exists_covers_map_cons_iff hin (Nat.min_le_right ..), hreach]
      rcases Nat.lt_or_ge m n with hlong | hshort
      · have hmin : min (m + 1) (n + 1) = m + 1 := by omega
        have hnext : spdkIovSglAdvance ⟨(m + 1) :: rest, pre.length, 0⟩ (m + 1)
            = .settle rest (pre ++ [m + 1]).length 0 := by
          simp [spdkIovSglAdvance, IovSgl.settle]
        rw [hmin, hnext, ih]
        omega
      · have hmin : min (m + 1) (n + 1) = n + 1 := by omega
        rw [hmin, Nat.sub_self, pduLoop]
        exact iff_of_true ⟨[], rfl, covers_nil_iff.mpr rfl⟩ (by omega)

theorem reachable_singleton (n : ℕ) : reachable 16 [n] = n := by
  cases n <;> simp [reachable]

/-- **A PDU from the first byte on covers its length exactly when that can be reached**, whether the
data is in one iovec or in several. -/
theorem exists_covers_iff (hlt : ∀ n ∈ iovLens, n < 2 ^ 32) :
    (∃ pdu, nvmeTcpPduSetDataBuf stale iovLens 0 dataLen = some pdu ∧ Covers iovLens dataLen pdu) ↔
      dataLen ≤ reachable 16 iovLens := by
  unfold nvmeTcpPduSetDataBuf
  split
  · rename_i hone
    obtain ⟨n, rfl⟩ := List.length_eq_one_iff.mp hone
    rw [reachable_singleton]
    constructor
    · rintro ⟨pdu, hpdu, hcovers⟩
      obtain rfl := Option.some.inj hpdu
      obtain ⟨m, hm, hle⟩ := hcovers.inside _ (List.mem_cons_self ..)
      obtain rfl : n = m := by simpa using hm
      simpa using hle
    · exact fun hle => ⟨_, rfl, by simp, by simpa [PduIov.Inside] using hle⟩
  · exact covers_pduLoop_iff iovLens [] 16 dataLen rfl hlt

theorem reachable_le_sum (slots : ℕ) (iovLens : List ℕ) : reachable slots iovLens ≤ iovLens.sum :=
  calc ((iovLens.filter (0 < ·)).take slots).sum
      ≤ (iovLens.filter (0 < ·)).sum := (List.take_sublist ..).sum_le_sum fun _ _ => Nat.zero_le _
    _ ≤ iovLens.sum := List.filter_sublist.sum_le_sum fun _ _ => Nat.zero_le _

/-! ### From any byte on -/

/-- The cursor stands at a byte of the iovecs, with so many behind it. -/
def IovSgl.At (iovLens : List ℕ) (left : ℕ) (c : IovSgl) : Prop :=
  ∃ pre, iovLens = pre ++ c.rest ∧ c.slot = pre.length ∧ c.rest.sum = c.offset + left ∧
    ∀ n rest, c.rest = n :: rest → c.offset < n

theorem settle_at (left : ℕ) : ∀ (rest pre : List ℕ) (offset : ℕ), iovLens = pre ++ rest →
    rest.sum = offset + left → (IovSgl.settle rest pre.length offset).At iovLens left
  | [], pre, offset, hsplit, hsum => ⟨pre, hsplit, rfl, hsum, nofun⟩
  | n :: rest, pre, offset, hsplit, hsum => by
      rw [IovSgl.settle]
      split_ifs with hlt
      · refine ⟨pre, hsplit, rfl, hsum, fun m rest' hm => ?_⟩
        cases hm
        exact hlt
      · rw [List.sum_cons] at hsum
        have hnext := settle_at left rest (pre ++ [n]) (offset - n)
          (by simpa using hsplit) (by omega)
        rwa [List.length_append] at hnext

/-- **No entry of a PDU leaves the iovecs**, where they hold what it is asked for. -/
theorem inside_pduLoop (hlt : ∀ n ∈ iovLens, n < 2 ^ 32) : ∀ (slots remain : ℕ) {left : ℕ}
    {c : IovSgl}, c.At iovLens left → remain ≤ left →
    ∃ pdu, pduLoop stale slots c remain = some pdu ∧ ∀ v ∈ pdu, v.Inside iovLens
  | _, 0, _, _, _, _ => ⟨[], by simp [pduLoop], nofun⟩
  | 0, _ + 1, _, _, _, _ => ⟨[], by simp [pduLoop], nofun⟩
  | slots + 1, m + 1, left, ⟨rest, slot, offset⟩, ⟨pre, hsplit, hslot, hsum, hoffset⟩, hle => by
      dsimp only at hsplit hslot hsum hoffset
      cases rest with
      | nil =>
        rw [List.sum_nil] at hsum
        omega
      | cons n rest =>
        have hoff : offset < n := hoffset n rest rfl
        have hn : n < 2 ^ 32 := hlt n (hsplit ▸ List.mem_append_right pre (List.mem_cons_self ..))
        have hbuf : nvmeTcpSglGetBuf stale ⟨n :: rest, slot, offset⟩ = n - offset := by
          change (n + 2 ^ 32 - offset) % 2 ^ 32 = n - offset
          omega
        have hin : PduIov.Inside iovLens ⟨slot, offset, min (n - offset) (m + 1)⟩ := by
          refine ⟨n, ?_, by dsimp only; omega⟩
          rw [hsplit, hslot]
          simp
        have hnext : (spdkIovSglAdvance ⟨n :: rest, slot, offset⟩ (min (n - offset) (m + 1))).At
            iovLens (left - min (n - offset) (m + 1)) := by
          rw [spdkIovSglAdvance, hslot]
          exact settle_at _ (n :: rest) pre _ hsplit (by dsimp only; omega)
        obtain ⟨pdu, hpdu, hpduIn⟩ := inside_pduLoop hlt slots
          (m + 1 - min (n - offset) (m + 1)) hnext (by omega)
        rw [pduLoop_succ, hbuf, if_neg (by omega), hpdu]
        exact ⟨_, rfl, List.forall_mem_cons.mpr ⟨hin, hpduIn⟩⟩

theorem inside_setDataBuf {dataOffset : ℕ} (hlt : ∀ n ∈ iovLens, n < 2 ^ 32)
    (hle : dataOffset + dataLen ≤ iovLens.sum) :
    ∃ pdu, nvmeTcpPduSetDataBuf stale iovLens dataOffset dataLen = some pdu ∧
      ∀ v ∈ pdu, v.Inside iovLens := by
  unfold nvmeTcpPduSetDataBuf
  split
  · rename_i hone
    obtain ⟨n, rfl⟩ := List.length_eq_one_iff.mp hone
    refine ⟨_, rfl, fun v hv => ?_⟩
    obtain rfl := List.mem_singleton.mp hv
    exact ⟨n, rfl, by simpa using hle⟩
  · refine inside_pduLoop hlt 16 dataLen ?_ (Nat.le_sub_of_add_le' hle)
    exact settle_at _ iovLens [] _ rfl (by dsimp only; omega)

end Covers

/-! ## What the transport makes of an SGL -/

section Split

variable {ioUnitSize n length k : ℕ}

/-- The first buffers of a split hold what they can. -/
theorem sum_take_setBuffers : ∀ {n length k : ℕ}, k ≤ n →
    ((setBuffers ioUnitSize n length).take k).sum = min length (k * ioUnitSize)
  | _, _, 0, _ => by simp
  | n + 1, length, k + 1, h => by
      rw [setBuffers, List.take_succ_cons, List.sum_cons,
        sum_take_setBuffers (Nat.le_of_succ_le_succ h), Nat.succ_mul]
      omega

theorem length_setBuffers : ∀ (n length : ℕ), (setBuffers ioUnitSize n length).length = n
  | 0, _ => rfl
  | n + 1, length => by rw [setBuffers, List.length_cons, length_setBuffers]

/-- Enough buffers hold everything. -/
theorem sum_setBuffers (h : length ≤ n * ioUnitSize) :
    (setBuffers ioUnitSize n length).sum = length := by
  have htake := @sum_take_setBuffers ioUnitSize n length n (Nat.le_refl n)
  rw [List.take_of_length_le (length_setBuffers n length).le] at htake
  omega

/-- …and as many as are needed have no empty one among them. -/
theorem pos_of_mem_setBuffers (hpos : 0 < ioUnitSize) : ∀ {n length : ℕ},
    (n - 1) * ioUnitSize < length → ∀ x ∈ setBuffers ioUnitSize n length, 0 < x
  | 0, _, _, x, hx => by cases hx
  | n + 1, length, h, x, hx => by
      rw [setBuffers, List.mem_cons] at hx
      rcases hx with rfl | hx
      · omega
      · cases n with
        | zero => cases hx
        | succ n =>
          refine pos_of_mem_setBuffers hpos ?_ x hx
          rw [Nat.add_sub_cancel, Nat.succ_mul] at h
          rw [Nat.add_sub_cancel]
          omega

end Split

section Parse

variable {o : TcpOpts} {poolOk : Bool} {lens : List ℕ} {length : ℕ}

/-- The longest request takes seventeen buffers of the pool. -/
theorem TcpOpts.maxIoSize_lt_seventeen (o : TcpOpts) : o.maxIoSize < 17 * o.ioUnitSize :=
  (Nat.div_lt_iff_lt_mul o.ioUnitSize_pos).mp (Nat.lt_succ_of_le o.sgeCount_le)

/-- Sixteen of them hold 4096 bytes: the options leave no smaller ones. -/
theorem TcpOpts.le_sixteen_buffers (o : TcpOpts) : 4096 ≤ 16 * o.ioUnitSize := by
  have hmax := o.maxIoSize_ge
  have hlt := o.maxIoSize_lt_seventeen
  omega

/-- **The buffers of a request**: as many as are needed, none of them empty. -/
theorem getBuffers_eq (h : nvmfRequestGetBuffers o poolOk length = some lens) :
    ∃ n, lens = setBuffers o.ioUnitSize n length ∧ length ≤ n * o.ioUnitSize ∧
      ∀ k, k * o.ioUnitSize < length ↔ k < n := by
  unfold nvmfRequestGetBuffers at h
  dsimp only at h
  split_ifs at h
  refine ⟨length ⌈/⌉ o.ioUnitSize, (Option.some.inj h).symm, ?_, fun k => ?_⟩
  · rw [Nat.mul_comm, ← smul_eq_mul, ← ceilDiv_le_iff_le_smul o.ioUnitSize_pos]
  · rw [← not_le, ← not_le, ceilDiv_le_iff_le_smul o.ioUnitSize_pos, smul_eq_mul, Nat.mul_comm]

/-- …so that none of them is empty. -/
theorem pos_of_mem_getBuffers (h : nvmfRequestGetBuffers o poolOk length = some lens) :
    ∀ x ∈ lens, 0 < x := by
  obtain ⟨n, rfl, -, hneeded⟩ := getBuffers_eq h
  cases n with
  | zero => exact fun x hx => by cases hx
  | succ n => exact pos_of_mem_setBuffers o.ioUnitSize_pos ((hneeded n).mpr (Nat.lt_succ_self n))

/-- The buffers of the pool hold the length, and those a PDU reaches 4096 bytes of it. -/
theorem getBuffers_reach (h : nvmfRequestGetBuffers o poolOk length = some lens) :
    lens.sum = length ∧ (4096 ≤ length → 4096 ≤ reachable 16 lens) := by
  have hpos := pos_of_mem_getBuffers h
  obtain ⟨n, rfl, henough, -⟩ := getBuffers_eq h
  refine ⟨sum_setBuffers henough, fun hlen => ?_⟩
  have hfilter : (setBuffers o.ioUnitSize n length).filter (0 < ·)
      = setBuffers o.ioUnitSize n length :=
    List.filter_eq_self.mpr fun x hx => decide_eq_true (hpos x hx)
  rw [reachable, hfilter]
  rcases Nat.le_total 16 n with hmany | hfew
  · rw [sum_take_setBuffers hmany]
    exact Nat.le_min.mpr ⟨hlen, o.le_sixteen_buffers⟩
  · rwa [List.take_of_length_le (by rwa [length_setBuffers]), sum_setBuffers henough]

end Parse

end NdpHeaan
