import NdpHeaan.Target.BdevLayer
import NdpHeaan.Tcp.Command
import NdpHeaan.Wire.TcpData

/-!
# Wire/TcpExact — which bytes a data PDU points to, under the options a transport accepts

A transport is created with any power of two for `max_io_size` and any `io_unit_size` that goes into
it at most sixteen times, *rounded down*.  A request is cut into buffers rounding up, so the largest
ones take seventeen, and the sixteen slots of a PDU do not reach from the first to the last.

Bytes are addressed by the slot of `req->iov` they are in and their offset there: a PDU is used to
send them as well as to receive into them.
-/

namespace NdpHeaan

/-! ## The options -/

/-- `spdk_nvmf_transport_opts`, as the user gives them. -/
structure NvmfTransportOpts where
  maxIoSize : UInt32
  ioUnitSize : UInt32
  inCapsuleDataSize : UInt32
  deriving DecidableEq, Repr

/-- The sizes a transport may not exceed are cut to `max_io_size`. -/
def NvmfTransportOpts.capped (opts : NvmfTransportOpts) : NvmfTransportOpts where
  maxIoSize := opts.maxIoSize
  ioUnitSize := if opts.ioUnitSize > opts.maxIoSize then opts.maxIoSize else opts.ioUnitSize
  inCapsuleDataSize :=
    if opts.inCapsuleDataSize > opts.maxIoSize then opts.maxIoSize else opts.inCapsuleDataSize

/-- A unit that is left after the cut leaves a maximum. -/
theorem NvmfTransportOpts.maxIoSize_ne_zero {opts : NvmfTransportOpts}
    (h : opts.capped.ioUnitSize ≠ 0) : opts.maxIoSize ≠ 0 := by
  intro hmax
  refine h ?_
  unfold capped
  dsimp only
  split_ifs with hlt
  · exact hmax
  · rw [hmax, gt_iff_lt, UInt32.not_lt] at hlt
    exact UInt32.le_zero_iff.mp hlt

theorem NvmfTransportOpts.inCapsuleDataSize_capped_le {opts : NvmfTransportOpts} :
    opts.capped.inCapsuleDataSize.toNat ≤ opts.maxIoSize.toNat := by
  unfold capped
  dsimp only
  split_ifs with hgt
  · exact le_refl _
  · exact UInt32.le_iff_toNat_le.mp (UInt32.not_lt.mp hgt)

/-- A power of two is at most the largest there is. -/
theorem le_of_spdkU32IsPow2 {x : UInt32} (h : spdkU32IsPow2 x = true) : x.toNat ≤ 2 ^ 31 := by
  by_contra hgt
  have hlt : x.toNat < 2 ^ 32 := x.toNat_lt
  have hone : (x - 1).toNat = x.toNat - 1 :=
    UInt32.toNat_sub_of_le x 1 (UInt32.le_iff_toNat_le.mpr (by change 1 ≤ x.toNat; omega))
  -- both have their highest bit set
  have hbit : ∀ n : ℕ, 2 ^ 31 ≤ n → n < 2 ^ 32 → n.testBit 31 = true := by
    intro n hge hlt
    rw [Nat.testBit_eq_decide_div_mod_eq]
    simp only [decide_eq_true_eq]
    omega
  have hand : (x &&& (x - 1)).toNat.testBit 31 = true := by
    rw [UInt32.toNat_and, Nat.testBit_and, hone, hbit _ (by omega) hlt,
      hbit _ (by omega) (by omega)]
    rfl
  unfold spdkU32IsPow2 at h
  split at h
  · cases h
  · rw [beq_iff_eq.mp h] at hand
    exact absurd hand (by decide)

/-- **`nvmf_tcp_create`**, on the sizes: what `nvmf_transport_create` has checked is `hmax`. -/
def nvmfTcpCreate (opts : NvmfTransportOpts)
    (hmax : opts.maxIoSize ≠ 0 → 8192 ≤ opts.maxIoSize.toNat ∧ opts.maxIoSize.toNat ≤ 2 ^ 31) :
    Option TcpOpts :=
  -- the division traps
  if hunit : opts.capped.ioUnitSize = 0 then none else
  if hsge : opts.maxIoSize / opts.capped.ioUnitSize > 16 then none else
  some
    { maxIoSize := opts.maxIoSize.toNat
      ioUnitSize := opts.capped.ioUnitSize.toNat
      inCapsuleDataSize := opts.capped.inCapsuleDataSize.toNat
      maxIoSize_ge := (hmax (NvmfTransportOpts.maxIoSize_ne_zero hunit)).1
      inCapsuleDataSize_le := NvmfTransportOpts.inCapsuleDataSize_capped_le.trans
        (hmax (NvmfTransportOpts.maxIoSize_ne_zero hunit)).2
      ioUnitSize_pos := Nat.pos_of_ne_zero fun h => hunit (UInt32.toNat_inj.mp h)
      sgeCount_le := by
        rw [gt_iff_lt, UInt32.not_lt, UInt32.le_iff_toNat_le, UInt32.toNat_div] at hsge
        exact hsge }

/-- **`nvmf_transport_create`**, on the sizes. -/
def nvmfTransportCreate (largeBufsize : UInt32) (opts : NvmfTransportOpts) : Option TcpOpts :=
  if hmax : opts.maxIoSize ≠ 0 ∧ (spdkU32IsPow2 opts.maxIoSize = false ∨ opts.maxIoSize < 8192) then
    none
  else if opts.ioUnitSize = 0 then none else
  if opts.ioUnitSize > largeBufsize then none else
  nvmfTcpCreate opts fun hne => by
    rw [not_and, not_or, UInt32.not_lt, UInt32.le_iff_toNat_le, Bool.not_eq_false] at hmax
    exact ⟨(hmax hne).2, le_of_spdkU32IsPow2 (hmax hne).1⟩

/-! ## Bytes -/

/-- The bytes of a row of iovecs, numbered from a slot on. -/
def iovAddrs : ℕ → List ℕ → List (ℕ × ℕ)
  | _, [] => []
  | slot, n :: rest => (List.range n).map (slot, ·) ++ iovAddrs (slot + 1) rest

/-- The bytes an entry of a PDU points to. -/
def PduIov.addrs (v : PduIov) : List (ℕ × ℕ) :=
  (List.range v.len).map fun i => (v.slot, v.offset + i)

/-- **A PDU maps exactly** the bytes asked for: it has sixteen entries at most, and together they
are that window of the request's iovecs. -/
def MapsExactly (stale : ℕ) (iovLens : List ℕ) (dataOffset dataLen : ℕ) : Prop :=
  ∃ pdu, nvmeTcpPduSetDataBuf stale iovLens dataOffset dataLen = some pdu ∧ pdu.length ≤ 16 ∧
    pdu.flatMap PduIov.addrs = ((iovAddrs 0 iovLens).drop dataOffset).take dataLen

section Addrs

variable {stale slot offset : ℕ} {rest : List ℕ}

@[simp] theorem length_iovAddrs : ∀ (slot : ℕ) (lens : List ℕ),
    (iovAddrs slot lens).length = lens.sum
  | _, [] => rfl
  | slot, n :: rest => by
      rw [iovAddrs, List.length_append, List.length_map, List.length_range, length_iovAddrs,
        List.sum_cons]

/-- An entry inside an iovec is a window of it. -/
theorem addrs_eq {slot offset len n : ℕ} (h : offset + len ≤ n) :
    PduIov.addrs ⟨slot, offset, len⟩ = (((List.range n).map (slot, ·)).drop offset).take len := by
  have hwindow : ((List.range n).drop offset).take len = (List.range len).map (offset + ·) := by
    refine List.ext_getElem ?_ fun i _ _ => by simp
    simp only [List.length_take, List.length_drop, List.length_range, List.length_map]
    omega
  rw [← List.map_drop, ← List.map_take, hwindow, List.map_map]
  rfl

/-- Moving the cursor is dropping bytes. -/
theorem drop_iovAddrs_settle : ∀ (lens : List ℕ) (slot offset : ℕ),
    (iovAddrs (IovSgl.settle lens slot offset).slot (IovSgl.settle lens slot offset).rest).drop
      (IovSgl.settle lens slot offset).offset = (iovAddrs slot lens).drop offset
  | [], slot, offset => by simp [IovSgl.settle, iovAddrs]
  | n :: rest, slot, offset => by
      rw [IovSgl.settle]
      split_ifs with hlt
      · rfl
      · have hnil : ((List.range n).map (slot, ·)).drop offset = [] :=
          List.drop_eq_nil_of_le (by simpa using hlt)
        rw [drop_iovAddrs_settle, iovAddrs, List.drop_append, hnil, List.length_map,
          List.length_range, List.nil_append]

/-- At the start of a non-empty iovec, or behind the last, the cursor stays. -/
theorem settle_start {rest : List ℕ} (hpos : ∀ n ∈ rest, 0 < n) (slot : ℕ) :
    IovSgl.settle rest slot 0 = ⟨rest, slot, 0⟩ := by
  cases rest with
  | nil => rfl
  | cons n rest => rw [IovSgl.settle, if_pos (hpos n (List.mem_cons_self ..))]

/-- **What the loop maps**: the window from the cursor on, up to the end of its last slot.  By
induction on the slots; each takes the rest of the cursor's iovec, or what is left to be mapped. -/
theorem addrs_pduLoop : ∀ (slots remain : ℕ) {c : IovSgl},
    (∀ n ∈ c.rest, 0 < n ∧ n < 2 ^ 32) → (∀ n rest, c.rest = n :: rest → c.offset < n) →
    c.offset + remain ≤ c.rest.sum →
    ∃ pdu, pduLoop stale slots c remain = some pdu ∧ pdu.flatMap PduIov.addrs
      = ((iovAddrs c.slot c.rest).drop c.offset).take
          (min remain ((c.rest.take slots).sum - c.offset))
  | _, 0, _, _, _, _ => ⟨[], by simp [pduLoop], by simp⟩
  | 0, _ + 1, _, _, _, _ => ⟨[], by simp [pduLoop], by simp⟩
  | slots + 1, m + 1, ⟨[], slot, offset⟩, _, _, hle => by
      rw [List.sum_nil] at hle
      omega
  | slots + 1, m + 1, ⟨n :: rest, slot, offset⟩, hlens, hoffset, hle => by
      have hoff : offset < n := hoffset n rest rfl
      have hn : n < 2 ^ 32 := (hlens n (List.mem_cons_self ..)).2
      have hrest : ∀ x ∈ rest, 0 < x ∧ x < 2 ^ 32 := fun x hx => hlens x (List.mem_cons_of_mem _ hx)
      have hbuf : nvmeTcpSglGetBuf stale ⟨n :: rest, slot, offset⟩ = n - offset := by
        change (n + 2 ^ 32 - offset) % 2 ^ 32 = n - offset
        omega
      dsimp only at hle ⊢
      rw [List.sum_cons] at hle
      rw [pduLoop_succ, hbuf, if_neg (by omega), List.take_succ_cons, List.sum_cons, iovAddrs]
      rcases Nat.lt_or_ge (n - offset) (m + 1) with hlong | hshort
      · -- the rest of this iovec, and on from the start of the next
        have hnext : spdkIovSglAdvance ⟨n :: rest, slot, offset⟩ (n - offset)
            = ⟨rest, slot + 1, 0⟩ := by
          rw [spdkIovSglAdvance, ← settle_start fun x hx => (hrest x hx).1]
          simp only [IovSgl.settle]
          rw [if_neg (by omega)]
          congr 1
          omega
        obtain ⟨pdu, hpdu, haddrs⟩ := addrs_pduLoop slots (m + 1 - (n - offset))
          (c := ⟨rest, slot + 1, 0⟩) hrest
          (fun x _ hx => (hrest x (List.mem_of_mem_head? (congrArg List.head? hx))).1)
          (by dsimp only; omega)
        have hfirst : PduIov.addrs ⟨slot, offset, n - offset⟩
            = ((List.range n).map (slot, ·)).drop offset := by
          rw [addrs_eq (n := n) (by omega)]
          exact List.take_of_length_le (by simp)
        have hmin : min (m + 1) (n + (rest.take slots).sum - offset)
            = n - offset + min (m + 1 - (n - offset)) (rest.take slots).sum := by
          omega
        rw [min_eq_left hlong.le, hnext, hpdu]
        refine ⟨_, rfl, ?_⟩
        have hlen : (((List.range n).map (slot, ·)).drop offset).length = n - offset := by simp
        rw [List.flatMap_cons, haddrs, hfirst, hmin, List.drop_append_of_le_length (by simp; omega),
          ← hlen, List.take_length_add_append, List.drop_zero, Nat.sub_zero]
      · -- what is left to be mapped ends in this iovec
        have hmin : min (m + 1) (n + (rest.take slots).sum - offset) = m + 1 := by omega
        rw [min_eq_right hshort, Nat.sub_self, hmin]
        refine ⟨[⟨slot, offset, m + 1⟩], by simp [pduLoop], ?_⟩
        rw [List.flatMap_singleton, addrs_eq (n := n) (by omega),
          List.drop_append_of_le_length (by simp; omega),
          List.take_append_of_le_length (by simp; omega)]

/-- **Several iovecs are mapped exactly as far as sixteen of them go** from the first byte on. -/
theorem mapsExactly_iff_reach {iovLens : List ℕ} {dataOffset dataLen : ℕ}
    (hmany : iovLens.length ≠ 1) (hlens : ∀ n ∈ iovLens, 0 < n ∧ n < 2 ^ 32)
    (hle : dataOffset + dataLen ≤ iovLens.sum) :
    MapsExactly stale iovLens dataOffset dataLen ↔
      (IovSgl.settle iovLens 0 dataOffset).offset + dataLen
        ≤ ((IovSgl.settle iovLens 0 dataOffset).rest.take 16).sum := by
  have hat : (IovSgl.settle iovLens 0 dataOffset).At iovLens (iovLens.sum - dataOffset) :=
    settle_at _ iovLens [] _ rfl (by omega)
  obtain ⟨pre, hsplit, -, hsum, hoffset⟩ := hat
  have hdrop := drop_iovAddrs_settle iovLens 0 dataOffset
  have hset : nvmeTcpPduSetDataBuf stale iovLens dataOffset dataLen
      = pduLoop stale 16 (IovSgl.settle iovLens 0 dataOffset) dataLen := by
    rw [nvmeTcpPduSetDataBuf, if_neg hmany, spdkIovSglAdvance, Nat.zero_add]
  rw [MapsExactly, hset, ← hdrop]
  generalize IovSgl.settle iovLens 0 dataOffset = c at hsplit hsum hoffset hdrop ⊢
  have hrest : ∀ n ∈ c.rest, 0 < n ∧ n < 2 ^ 32 := fun n hn =>
    hlens n (hsplit ▸ List.mem_append_right pre hn)
  have hstart : c.offset ≤ (c.rest.take 16).sum := by
    rcases hcons : c.rest with _ | ⟨n, rest⟩
    · rw [hcons, List.sum_nil] at hsum
      omega
    · have hlt := hoffset n rest hcons
      rw [List.take_succ_cons, List.sum_cons]
      omega
  obtain ⟨pdu, hpdu, haddrs⟩ := @addrs_pduLoop stale 16 dataLen c hrest hoffset (by omega)
  have hlen : ((iovAddrs c.slot c.rest).drop c.offset).length = c.rest.sum - c.offset := by
    rw [List.length_drop, length_iovAddrs]
  constructor
  · rintro ⟨pdu', hpdu', -, heq⟩
    obtain rfl := Option.some.inj (hpdu.symm.trans hpdu')
    have hcount := congrArg List.length (haddrs.symm.trans heq)
    rw [List.length_take, List.length_take, hlen] at hcount
    omega
  · intro hreach
    refine ⟨pdu, hpdu, length_pduLoop_le hpdu, ?_⟩
    rw [haddrs, min_eq_left (by omega)]

/-- One iovec is mapped exactly. -/
theorem mapsExactly_singleton {n dataOffset dataLen : ℕ} (h : dataOffset + dataLen ≤ n) :
    MapsExactly stale [n] dataOffset dataLen := by
  refine ⟨[⟨0, dataOffset, dataLen⟩], rfl, by simp, ?_⟩
  rw [List.flatMap_singleton, addrs_eq h, iovAddrs, iovAddrs, List.append_nil]

/-- Moving the cursor leaves no more iovecs than there were. -/
theorem length_rest_settle_le : ∀ (lens : List ℕ) (slot offset : ℕ),
    (IovSgl.settle lens slot offset).rest.length ≤ lens.length
  | [], _, _ => Nat.le_refl _
  | n :: rest, slot, offset => by
      rw [IovSgl.settle]
      split_ifs
      · exact Nat.le_refl _
      · exact Nat.le_succ_of_le (length_rest_settle_le rest _ _)

end Addrs

/-! ## The buffers of a request -/

section Request

variable {largeBufsize : UInt32} {opts : NvmfTransportOpts} {o : TcpOpts} {poolOk : Bool}
  {lens : List ℕ} {length stale dataOffset dataLen : ℕ}

/-- Options are 32-bit. -/
theorem maxIoSize_lt (h : nvmfTransportCreate largeBufsize opts = some o) :
    o.maxIoSize < 2 ^ 32 := by
  unfold nvmfTransportCreate nvmfTcpCreate at h
  split_ifs at h
  obtain rfl := Option.some.inj h
  exact opts.maxIoSize.toNat_lt

/-- **How far sixteen of up to seventeen buffers go.**  From the first buffer on, sixteen units;
from any other on, to the end. -/
theorem reach_setBuffers {ioUnitSize n : ℕ} (hmany : 1 < n) (hn : n ≤ 17)
    (henough : length ≤ n * ioUnitSize) (hfirst : ioUnitSize < length)
    (hrange : dataOffset + dataLen ≤ length) :
    (IovSgl.settle (setBuffers ioUnitSize n length) 0 dataOffset).offset + dataLen
        ≤ ((IovSgl.settle (setBuffers ioUnitSize n length) 0 dataOffset).rest.take 16).sum ↔
      ioUnitSize ≤ dataOffset ∨ dataOffset + dataLen ≤ 16 * ioUnitSize := by
  obtain ⟨m, rfl⟩ : ∃ m, n = m + 1 := ⟨n - 1, by omega⟩
  have hsum := sum_setBuffers henough
  rcases Nat.lt_or_ge dataOffset ioUnitSize with hoff | hoff
  · have hstart : IovSgl.settle (setBuffers ioUnitSize (m + 1) length) 0 dataOffset
        = ⟨setBuffers ioUnitSize (m + 1) length, 0, dataOffset⟩ := by
      rw [setBuffers, IovSgl.settle, if_pos (by omega)]
    rw [hstart]
    dsimp only
    rcases Nat.le_total 16 (m + 1) with hlong | hshort
    · rw [sum_take_setBuffers hlong]
      omega
    · have hfit := Nat.mul_le_mul_right ioUnitSize hshort
      rw [List.take_of_length_le (by rwa [length_setBuffers]), hsum]
      omega
  · -- the cursor has left a buffer behind, so sixteen slots are enough for the others
    have hat : (IovSgl.settle (setBuffers ioUnitSize (m + 1) length) 0 dataOffset).At
        (setBuffers ioUnitSize (m + 1) length) (length - dataOffset) :=
      settle_at _ _ [] _ rfl (by omega)
    have hrest : (IovSgl.settle (setBuffers ioUnitSize (m + 1) length) 0 dataOffset).rest.length
        ≤ 16 := by
      rw [setBuffers, IovSgl.settle, if_neg (by omega)]
      refine (length_rest_settle_le ..).trans ?_
      rw [length_setBuffers]
      omega
    obtain ⟨-, -, -, hleft, -⟩ := hat
    rw [List.take_of_length_le hrest]
    exact iff_of_true (by omega) (Or.inl hoff)

/-- **Which ranges of a request a PDU maps exactly**: those that do not reach from the first buffer
to the seventeenth. -/
theorem mapsExactly_iff (ho : nvmfTransportCreate largeBufsize opts = some o)
    (hlength : length ≤ o.maxIoSize) (hbuf : nvmfRequestGetBuffers o poolOk length = some lens)
    (hrange : dataOffset + dataLen ≤ length) :
    MapsExactly stale lens dataOffset dataLen ↔
      o.ioUnitSize ≤ dataOffset ∨ dataOffset + dataLen ≤ 16 * o.ioUnitSize := by
  have hpos := o.ioUnitSize_pos
  have hmax := o.maxIoSize_lt_seventeen
  have hlt := maxIoSize_lt ho
  have hlens := pos_of_mem_getBuffers hbuf
  obtain ⟨n, rfl, henough, hneeded⟩ := getBuffers_eq hbuf
  have hsum := sum_setBuffers henough
  have hlens : ∀ x ∈ setBuffers o.ioUnitSize n length, 0 < x ∧ x < 2 ^ 32 := fun x hx =>
    ⟨hlens x hx, by
      have hle := List.le_sum_of_mem hx
      omega⟩
  have hn : n ≤ 17 := not_lt.mp fun hlt => by
    have hlong := (hneeded 17).mpr hlt
    omega
  rcases Nat.lt_trichotomy n 1 with hzero | rfl | hmany
  · -- no data, no buffer
    obtain rfl : n = 0 := by omega
    rw [mapsExactly_iff_reach (by simp [setBuffers]) hlens (by omega)]
    simp only [setBuffers, IovSgl.settle, List.take_nil, List.sum_nil]
    omega
  · -- one buffer holds everything
    have hone : setBuffers o.ioUnitSize 1 length = [length] := by
      rw [setBuffers, setBuffers, Nat.min_eq_left (by omega)]
    rw [hone]
    exact iff_of_true (mapsExactly_singleton hrange) (Or.inr (by omega))
  · have hfirst := (hneeded 1).mpr hmany
    rw [Nat.one_mul] at hfirst
    rw [mapsExactly_iff_reach (by rw [length_setBuffers]; omega) hlens (by omega)]
    exact reach_setBuffers hmany hn henough hfirst hrange

end Request

/-- 128 KiB in units of 8000 bytes. -/
def TcpOpts.sample : TcpOpts :=
  ⟨131072, 8000, 4096, sampleTransport.maxIoSize_ge,
    sampleTransport.inCapsuleDataSize_le, by decide, by decide⟩

/-- The longest request takes seventeen buffers, and a PDU that starts behind the first maps its
bytes. -/
theorem mapsExactly_behind_first :
    nvmfTransportCreate 135168 ⟨131072, 8000, 4096⟩ = some .sample ∧
    nvmfRequestGetBuffers .sample true 131072 = some (List.replicate 16 8000 ++ [3072]) ∧
    MapsExactly 0 (List.replicate 16 8000 ++ [3072]) 8000 123072 := by
  have ho : nvmfTransportCreate 135168 ⟨131072, 8000, 4096⟩ = some .sample := rfl
  have hbuf : nvmfRequestGetBuffers .sample true 131072
      = some (List.replicate 16 8000 ++ [3072]) := by decide
  exact ⟨ho, hbuf, (mapsExactly_iff ho (by decide) hbuf (by decide)).mpr (by decide)⟩

/-- The whole of it does not fit: the last 3072 bytes are not in the PDU. -/
theorem not_mapsExactly_seventeen :
    nvmfTransportCreate 135168 ⟨131072, 8000, 4096⟩ = some .sample ∧
    nvmfRequestGetBuffers .sample true 131072 = some (List.replicate 16 8000 ++ [3072]) ∧
    ¬ MapsExactly 0 (List.replicate 16 8000 ++ [3072]) 0 131072 := by
  refine ⟨rfl, by decide, ?_⟩
  rw [mapsExactly_iff_reach (by decide) (by decide) (by decide)]
  decide

end NdpHeaan
