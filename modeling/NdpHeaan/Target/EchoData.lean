import NdpHeaan.Target.Echo

/-!
# Target/EchoData — what ECHO returns

The two reads of ECHO share the request's iovecs.  The first callback copies all of them, not only
the blocks it has read, and the second one joins the two copies and stores the front of the join in
the first iovec:

    iov[0]  │ metadata range │ what was in the buffer │        the other iovecs  │ zeros │

The second operand would begin behind `req->length` bytes, and never gets there.
-/

open Machinery

namespace NdpHeaan

/-! ## The statement -/

section Statement

variable (d : Bdev) (r : DataReq) (disk : ℕ → UInt8)

/-- The metadata range, as the device holds it. -/
def DataReq.echoMeta : List UInt8 := d.readBlocks disk r.cdw10.toUInt64 r.cdw11.toUInt64

/-- The target range. -/
def DataReq.echoTarget : List UInt8 := d.readBlocks disk r.cdw12.toUInt64 r.cdw13.toUInt64

/-- **What ECHO is for**: its two operands, and zeros to the end of the request. -/
def DataReq.echoExpected : List UInt8 :=
  let joined := r.echoMeta d disk ++ r.echoTarget d disk
  joined ++ List.replicate (r.length.toNat - joined.length) 0

/-- `req->iov[0].iov_len`. -/
def DataReq.firstLen : ℕ := (r.iov.head?.map List.length).getD 0

/-- The two copies, as the second callback joins them. -/
def EchoSt.joined (s : EchoSt) : NdpResult :=
  let second := (s.transfer d disk r.echoSecondOp true).iov.flatten.take r.length.toNat
  ndpCalculate s.firstResult second r.length (UInt32.ofNat second.length)

/-- Both copies of `ndp_calculate` end inside the buffer it has allocated. -/
def NdpResult.Inside (res : NdpResult) : Prop := res.data.length ≤ res.length.toNat

end Statement

/-! ## Where the reads have been -/

section Data

variable {d : Bdev} {r : DataReq} {disk : ℕ → UInt8} {s s' : EchoSt}

theorem length_readBlocks (offsetBlocks numBlocks : UInt64) :
    (d.readBlocks disk offsetBlocks numBlocks).length = numBlocks.toNat * d.blocklen.toNat :=
  Seg.length_read ..

/-- The buffers of a command in flight: untouched until the first read is over, and then a copy of
them is kept. -/
structure EchoHolds (d : Bdev) (r : DataReq) (disk : ℕ → UInt8) (s : EchoSt) : Prop where
  shape : s.iov.map List.length = r.iov.map List.length
  fresh : s.phase = .idle ∨ s.phase = .firstRead → s.iov = r.iov
  copied : s.phase = .secondRead → s.firstResult
    = (fillIov (r.echoMeta d disk) r.iov).flatten.take r.length.toNat

theorem EchoSt.transfer_shape (s : EchoSt) (d : Bdev) (disk : ℕ → UInt8) (op : DataOp)
    (success : Bool) :
    (s.transfer d disk op success).iov.map List.length = s.iov.map List.length := by
  unfold transfer
  split
  · exact map_length_fillIov ..
  · rfl

/-- Behind the end only the shape of the buffers matters. -/
theorem EchoHolds.of_done (hdone : s.phase = .done)
    (hshape : s.iov.map List.length = r.iov.map List.length) : EchoHolds d r disk s :=
  ⟨hshape, fun h => by simp [hdone] at h, fun h => by simp [hdone] at h⟩

theorem EchoHolds.exec (h : EchoHolds d r disk s) (hidle : s.phase = .idle) (ctxOk : Bool)
    (rc : ℤ) :
    EchoHolds d r disk (nvmfBdevCtrlrCustomEchoCmd r ctxOk rc s) := by
  unfold nvmfBdevCtrlrCustomEchoCmd
  split_ifs
  · exact .of_done rfl h.shape
  · exact .of_done rfl h.shape
  · exact ⟨h.shape, fun _ => h.fresh (.inl hidle), nofun⟩

theorem EchoHolds.first (h : EchoHolds d r disk s) (hfirst : s.phase = .firstRead)
    (success firstOk : Bool) (rc : ℤ) :
    EchoHolds d r disk (nvmfBdevCtrlrFirstReadComplete d r disk success firstOk rc s) := by
  have hshape := (s.transfer_shape d disk r.echoFirstOp success).trans h.shape
  unfold nvmfBdevCtrlrFirstReadComplete
  dsimp only
  split_ifs with hsuccess
  · exact .of_done rfl hshape
  · exact .of_done rfl hshape
  · exact .of_done rfl hshape
  · refine ⟨hshape, fun h => by simp [EchoSt.next] at h, fun _ => ?_⟩
    obtain rfl : success = true := by simpa using hsuccess
    simp only [EchoSt.next, EchoSt.transfer, if_true, h.fresh (.inr hfirst)]
    rfl

theorem shape_echoStore (res : NdpResult) (iov : List (List UInt8)) :
    (echoStore res iov).map List.length = iov.map List.length := by
  rw [echoStore, ← map_length_setIov 0 iov]
  cases setIov 0 iov with
  | nil => rfl
  | cons v vs =>
    rw [List.map_append, map_length_fillIov]
    rfl

theorem EchoHolds.second (h : EchoHolds d r disk s) (success secondOk resultOk dataOk : Bool) :
    EchoHolds d r disk
      (nvmfBdevCtrlrSecondReadComplete d r disk success secondOk resultOk dataOk s) := by
  have hshape := (s.transfer_shape d disk r.echoSecondOp success).trans h.shape
  unfold nvmfBdevCtrlrSecondReadComplete
  dsimp only
  split_ifs
  · exact .of_done rfl hshape
  · exact .of_done rfl hshape
  · exact .of_done rfl hshape
  · exact .of_done rfl hshape
  · exact .of_done rfl ((shape_echoStore ..).trans hshape)

/-- **A step keeps it.** -/
theorem EchoHolds.step (h : EchoHolds d r disk s) {l : EchoLabel}
    (hs : echoStep d r disk s l = some s') : EchoHolds d r disk s' := by
  cases l with
  | exec ctxOk rc =>
    obtain ⟨hidle, hs⟩ := Option.ite_none_right_eq_some.mp hs
    obtain rfl := Option.some.inj hs
    exact h.exec hidle ctxOk rc
  | first success firstOk rc =>
    obtain ⟨hfirst, hs⟩ := Option.ite_none_right_eq_some.mp hs
    obtain rfl := Option.some.inj hs
    exact h.first hfirst success firstOk rc
  | second success secondOk resultOk dataOk =>
    obtain ⟨-, hs⟩ := Option.ite_none_right_eq_some.mp hs
    obtain rfl := Option.some.inj hs
    exact h.second success secondOk resultOk dataOk

/-- **Every run keeps it.** -/
theorem echoHolds_of_reach (h : (echoSys d r disk).Reach (fun _ _ => True) s) :
    EchoHolds d r disk s :=
  h.invariant ⟨rfl, fun _ => rfl, nofun⟩ fun _ _ _ hI _ hs => hI.step hs

/-! ## What is stored -/

/-- The copy of the first read: the metadata range, and behind it what was in the buffer. -/
theorem EchoHolds.firstResult_eq (h : EchoHolds d r disk s) (hphase : s.phase = .secondRead)
    (hfits : (r.echoMeta d disk).length ≤ r.length.toNat) :
    s.firstResult
      = r.echoMeta d disk ++ r.iov.flatten.drop (r.echoMeta d disk).length := by
  rw [h.copied hphase, flatten_fillIov, r.length_eq, List.take_of_length_le hfits,
    List.take_of_length_le]
  rw [List.length_append, List.length_drop, r.length_eq]
  omega

theorem DataReq.firstLen_le (r : DataReq) : r.firstLen ≤ r.length.toNat := by
  rw [← r.length_eq, DataReq.firstLen]
  cases r.iov with
  | nil => exact Nat.zero_le _
  | cons v vs => simp

/-- The store, where the result is no shorter than the first entry. -/
theorem flatten_echoStore {res : NdpResult} {iov : List (List UInt8)} {k : ℕ}
    (hk : (iov.head?.map List.length).getD 0 = k) (hdata : k ≤ res.data.length)
    (hlength : k ≤ res.length.toNat) :
    (echoStore res iov).flatten = res.data.take k ++ List.replicate (iov.flatten.length - k) 0 := by
  cases iov with
  | nil =>
    obtain rfl : 0 = k := hk
    simp [echoStore, setIov]
  | cons v vs =>
    obtain rfl : v.length = k := hk
    have hfirst := flatten_fillIov_setIov 0 (res.data.take res.length.toNat) [v]
    rw [List.flatten_singleton] at hfirst
    change (fillIov _ (setIov 0 [v]) ++ setIov 0 vs).flatten = _
    rw [List.flatten_append, hfirst, flatten_setIov, List.flatten_cons, List.length_append,
      Nat.add_sub_cancel_left, List.take_append_of_le_length, List.take_take,
      Nat.min_eq_left hlength]
    rw [List.length_take]
    exact le_min hlength hdata

/-- The copies of a command whose reads fit, both as long as the request. -/
theorem EchoHolds.joined_data (h : EchoHolds d r disk s) (hphase : s.phase = .secondRead)
    (hfits : (r.echoMeta d disk).length ≤ r.length.toNat) : ∃ second : List UInt8,
    second.length = r.length.toNat ∧
    (s.joined d r disk).data
      = r.echoMeta d disk ++ r.iov.flatten.drop (r.echoMeta d disk).length ++ second ∧
    (s.joined d r disk).length = r.length + r.length := by
  have hlen : ((s.transfer d disk r.echoSecondOp true).iov.flatten.take r.length.toNat).length
      = r.length.toNat := by
    have hshape := (s.transfer_shape d disk r.echoSecondOp true).trans h.shape
    rw [List.length_take, List.length_flatten, hshape, ← List.length_flatten, r.length_eq, min_self]
  refine ⟨_, hlen, ?_, ?_⟩
  · rw [EchoSt.joined, ndpCalculate, h.firstResult_eq hphase hfits]
  · rw [EchoSt.joined, ndpCalculate, hlen, UInt32.ofNat_toNat]

/-- The copies are inside their buffer unless the sum of their lengths wraps. -/
theorem EchoHolds.inside_iff (h : EchoHolds d r disk s) (hphase : s.phase = .secondRead)
    (hfits : (r.echoMeta d disk).length ≤ r.length.toNat) :
    (s.joined d r disk).Inside ↔ 2 * r.length.toNat < 2 ^ 32 := by
  obtain ⟨second, hsecond, hdata, hlength⟩ := h.joined_data hphase hfits
  rw [NdpResult.Inside, hdata, hlength, List.length_append, List.length_append, List.length_drop,
    hsecond, r.length_eq, UInt32.toNat_add]
  omega

/-- **What the second callback returns.** -/
theorem EchoHolds.flatten_second (h : EchoHolds d r disk s) (hphase : s.phase = .secondRead)
    (hfits : (r.echoMeta d disk).length ≤ r.length.toNat) (hwrap : 2 * r.length.toNat < 2 ^ 32) :
    (nvmfBdevCtrlrSecondReadComplete d r disk true true true true s).iov.flatten
      = (r.echoMeta d disk ++ r.iov.flatten.drop (r.echoMeta d disk).length).take r.firstLen
        ++ List.replicate (r.length.toNat - r.firstLen) 0 := by
  obtain ⟨second, hsecond, hdata, hlength⟩ := h.joined_data hphase hfits
  have hshape := (s.transfer_shape d disk r.echoSecondOp true).trans h.shape
  have hfirst : ((s.transfer d disk r.echoSecondOp true).iov.head?.map List.length).getD 0
      = r.firstLen := by
    rw [DataReq.firstLen, ← List.head?_map, ← List.head?_map, hshape]
  have hle := r.firstLen_le
  have hcopy : r.firstLen
      ≤ (r.echoMeta d disk ++ r.iov.flatten.drop (r.echoMeta d disk).length).length := by
    rw [List.length_append, List.length_drop, r.length_eq]
    omega
  have hstored : (nvmfBdevCtrlrSecondReadComplete d r disk true true true true s).iov
      = echoStore (s.joined d r disk) (s.transfer d disk r.echoSecondOp true).iov := rfl
  rw [hstored, flatten_echoStore hfirst, hdata, List.take_append_of_le_length hcopy,
    List.length_flatten, hshape, ← List.length_flatten, r.length_eq]
  · rw [hdata, List.length_append]
    omega
  · rw [hlength, UInt32.toNat_add]
    omega

/-! ## When ECHO returns its operands -/

/-- Two lists with one front agree up to `k` where they agree behind it. -/
theorem take_append_eq_take_iff {l x e : List UInt8} (k : ℕ) (he : l <+: e) :
    (l ++ x.drop l.length).take k = e.take k ↔
      (x.take k).drop l.length = (e.take k).drop l.length := by
  obtain ⟨y, rfl⟩ := he
  rw [List.drop_take, List.drop_take, List.drop_left, List.take_append, List.take_append,
    List.append_cancel_left_eq]

/-- A front of a list, and zeros behind it. -/
theorem append_zeros_eq_iff {l e : List UInt8} {k : ℕ} (hl : l.length = k) :
    l ++ List.replicate (e.length - k) 0 = e ↔ l = e.take k ∧ ∀ b ∈ e.drop k, b = 0 := by
  subst hl
  constructor
  · intro h
    have hdrop : e.drop l.length = List.replicate (e.length - l.length) 0 := by
      conv_lhs => rw [← h, List.drop_left]
    refine ⟨by conv_rhs => rw [← h, List.take_left], fun b hb => ?_⟩
    rw [hdrop] at hb
    exact List.eq_of_mem_replicate hb
  · rintro ⟨hfront, hzero⟩
    have hdrop : e.drop l.length = List.replicate (e.length - l.length) 0 :=
      List.eq_replicate_iff.mpr ⟨List.length_drop, hzero⟩
    rw [← hdrop]
    nth_rewrite 1 [hfront]
    exact List.take_append_drop ..

/-- **ECHO returns its two operands joined exactly when** its request is shorter than 2 GiB, the
buffer holds what is expected behind the metadata range already, and nothing is expected behind the
first iovec. -/
theorem echo_concatenates_iff (hreach : (echoSys d r disk).Reach (fun _ _ => True) s)
    (hphase : s.phase = .secondRead)
    (hfits : r.cdw11.toNat * d.blocklen.toNat + r.cdw13.toNat * d.blocklen.toNat
      ≤ r.length.toNat) :
    (s.joined d r disk).Inside ∧
      (nvmfBdevCtrlrSecondReadComplete d r disk true true true true s).iov.flatten
        = r.echoExpected d disk ↔
    2 * r.length.toNat < 2 ^ 32 ∧
      (r.iov.flatten.take r.firstLen).drop (r.cdw11.toNat * d.blocklen.toNat)
        = ((r.echoExpected d disk).take r.firstLen).drop (r.cdw11.toNat * d.blocklen.toNat) ∧
      ∀ b ∈ (r.echoExpected d disk).drop r.firstLen, b = 0 := by
  have h := echoHolds_of_reach hreach
  have hmeta : (r.echoMeta d disk).length = r.cdw11.toNat * d.blocklen.toNat :=
    length_readBlocks ..
  have hle : (r.echoMeta d disk).length ≤ r.length.toNat := by omega
  rw [h.inside_iff hphase hle, and_congr_right_iff]
  intro hwrap
  have hexpected : (r.echoExpected d disk).length = r.length.toNat := by
    have htarget : (r.echoTarget d disk).length = r.cdw13.toNat * d.blocklen.toNat :=
      length_readBlocks ..
    simp only [DataReq.echoExpected, List.length_append, List.length_replicate]
    omega
  have hstart : r.echoMeta d disk <+: r.echoExpected d disk := by
    rw [DataReq.echoExpected, List.append_assoc]
    exact List.prefix_append ..
  have hcopied : ((r.echoMeta d disk ++ r.iov.flatten.drop (r.echoMeta d disk).length).take
      r.firstLen).length = r.firstLen := by
    have hfirst := r.firstLen_le
    rw [List.length_take, List.length_append, List.length_drop, r.length_eq]
    omega
  rw [h.flatten_second hphase hle hwrap, ← hexpected, append_zeros_eq_iff hcopied,
    take_append_eq_take_iff _ hstart, hmeta]

end Data

/-- A block of ones and a block of twos. -/
def echoDisk (k : ℕ) : UInt8 := if k < 512 then 1 else 2

/-- A block of one byte. -/
def blockOf (b : UInt8) : List UInt8 := List.replicate 512 b

theorem length_blockOf (b : UInt8) : (blockOf b).length = 512 := List.length_replicate

/-- One block of each range into a buffer with four bytes to spare. -/
def DataReq.echoPair (iov : List (List UInt8)) (h : iov.flatten.length = 1028) : DataReq :=
  ⟨0, 1, 1, 1, 1028, iov, h⟩

/-- A buffer that holds the second operand already, in two iovecs. -/
def DataReq.echoFilled : DataReq :=
  .echoPair [blockOf 9 ++ blockOf 2, [7, 7, 7, 7]] (by simp [length_blockOf])

/-- A buffer of nines. -/
def DataReq.echoNines : DataReq :=
  .echoPair [blockOf 9 ++ blockOf 9 ++ [9, 9, 9, 9]] (by simp [length_blockOf])

/-- The state before the second callback. -/
def echoMiddle (r : DataReq) : Option EchoSt :=
  (echoSys .sample r echoDisk).run { iov := r.iov } [.exec true 0, .first true true 0]

/-- A buffer that holds the answer already. -/
theorem echo_concatenates_iff_sample : ∃ s, echoMiddle .echoFilled = some s ∧
    (nvmfBdevCtrlrSecondReadComplete .sample .echoFilled echoDisk true true true true s).iov.flatten
      = blockOf 1 ++ blockOf 2 ++ [0, 0, 0, 0] := by
  refine ⟨_, rfl, ?_⟩
  have hiff := @echo_concatenates_iff .sample .echoFilled echoDisk _
    (.of_run [.exec true 0, .first true true 0] (fun _ _ _ => trivial) .init rfl) rfl (by decide)
  have hexpected : DataReq.echoFilled.echoExpected .sample echoDisk =
      blockOf 1 ++ blockOf 2 ++ [0, 0, 0, 0] := by decide +kernel
  exact (hiff.mpr (by decide +kernel)).2.trans hexpected

/-- **The second operand is not returned**: what was in the buffer is. -/
theorem echo_returns_buffer : ∃ s, echoMiddle .echoNines = some s ∧
    DataReq.echoNines.echoExpected .sample echoDisk = blockOf 1 ++ blockOf 2 ++ [0, 0, 0, 0] ∧
    (nvmfBdevCtrlrSecondReadComplete .sample .echoNines echoDisk true true true true s).iov.flatten
      = blockOf 1 ++ blockOf 9 ++ [9, 9, 9, 9] :=
  ⟨_, rfl, by decide +kernel, by decide +kernel⟩

end NdpHeaan
