import NdpHeaan.Target.Overrun
import NdpHeaan.Tcp.Command

/-!
# Wire/GrepReply — the data PDU that answers a grep

A grep that finds something is answered with 4096 bytes, whatever the host has described: the
callback overwrites `req->length` with a constant, and the transport lays its PDU over iovecs that
were sized by the SGL.  A keyword is short, so the bytes behind it on the wire are the target's.
-/

open Machinery

namespace NdpHeaan

/-! ## The statement -/

/-- `request_transfer_out` sends data: the status is a success, and the direction is to the host. -/
def GrepSt.SendsData (s : GrepSt) : Prop :=
  .success ∈ CmdEffect.statuses .success s.trace ∧ s.xfer = .controllerToHost

/-- The data iovecs of **`_nvmf_tcp_send_c2h_data`**, for the first and only PDU of a request. -/
def GrepSt.c2hData (stale : ℕ) (s : GrepSt) : Option (List PduIov) :=
  nvmeTcpPduSetDataBuf stale (s.iov.map List.length) 0 s.length.toNat

/-- **The reply discloses nothing**: a completed request is no longer than the host's SGL, and the
PDU it is answered with covers its length, inside the request's own iovecs. -/
def ReplyInside (d : Bdev) (r : DataReq) (disk : ℕ → UInt8) (stale : ℕ) : Prop :=
  ∀ ls s, (grepSys d r disk).run (grepSys d r disk).init ls = some s → s.phase = .done →
    s.length ≤ r.length ∧
    (s.SendsData → ∃ pdu, s.c2hData stale = some pdu ∧
      Covers (r.iov.map List.length) s.length.toNat pdu)

/-! ## The states of a grep -/

section Reply

variable {d : Bdev} {r : DataReq} {disk : ℕ → UInt8} {s s' : GrepSt} {l : GrepLabel}

/-- **Inversion of the callback**, as far as the transport can tell: it sends 4096 bytes back, if
there was any data, or leaves the direction alone. -/
theorem completeCmdCustom_reply (success : Bool) (behind : List UInt8) (resultOk : Bool)
    (reallocOk : ℕ → Bool) (s : GrepSt) :
    let s' := nvmfBdevCtrlrCompleteCmdCustom success behind resultOk reallocOk s
    (s'.xfer = .controllerToHost ∧ s'.length = 4096 ∧ s.iov.flatten ≠ []) ∨
      (s'.xfer = s.xfer ∧ (s'.length = s.length ∨ s'.length = 0)) := by
  intro s'
  simp only [s']
  unfold nvmfBdevCtrlrCompleteCmdCustom
  dsimp only
  split
  · exact Or.inr ⟨rfl, Or.inl rfl⟩
  · exact Or.inr ⟨rfl, Or.inl rfl⟩
  · exact Or.inr ⟨rfl, Or.inl rfl⟩
  · rename_i buf hscan
    split
    · rename_i hpos
      refine Or.inl ⟨rfl, rfl, fun hempty => ?_⟩
      have hbuf : (grepOutcome s.keyword behind s.iov resultOk reallocOk).buf? = some buf := by
        rw [hscan]
        rfl
      obtain ⟨-, -, rfl⟩ := buf?_grepOutcome.mp hbuf
      rw [grepLines_eq_nil_iff.mpr hempty] at hpos
      exact Nat.lt_irrefl 0 hpos
    · exact Or.inr ⟨rfl, Or.inr rfl⟩

/-- Only a request with data that got to its read is sent back to the host, and then with the
constant for its length. -/
structure Replies (d : Bdev) (r : DataReq) (s : GrepSt) : Prop extends GrepSubmitted d r s where
  waiting : s.phase ≠ .done → s.length = r.length ∧ s.xfer ≠ .controllerToHost
  kept : s.xfer ≠ .controllerToHost → s.length = r.length ∨ s.length = 0
  sent : s.xfer = .controllerToHost → s.length = 4096 ∧ r.GrepReads d ∧ r.iov.flatten ≠ []

theorem flatten_eq_nil_of_shape {iov : List (List UInt8)}
    (h : iov.map List.length = r.iov.map List.length) (hempty : r.iov.flatten = []) :
    iov.flatten = [] := by
  rw [← List.length_eq_zero_iff, List.length_flatten, h, ← List.length_flatten, hempty]
  rfl

theorem Replies.step (h : Replies d r s) (hstep : grepStep d r disk s l = some s') :
    Replies d r s' := by
  have hsub : GrepSubmitted d r s' := h.toGrepSubmitted.step hstep
  rcases grepStep_cases hstep with ⟨e, bufferOk, ctxOk, rc, -, hphase, rfl⟩ |
    ⟨success, part, behind, resultOk, reallocOk, -, hphase, rfl⟩
  · obtain ⟨hlength, hxfer⟩ := h.waiting (by rcases hphase with hp | hp <;> rw [hp] <;> nofun)
    obtain ⟨u, hu⟩ := grepDispatch_attempt d r e bufferOk ctxOk rc s
    refine ⟨hsub, ?_, ?_, ?_⟩ <;> rw [hu.length, hu.xfer]
    · exact fun _ => ⟨hlength, hxfer⟩
    · exact fun _ => Or.inl hlength
    · exact fun hsent => absurd hsent hxfer
  · obtain ⟨hlength, hxfer⟩ := h.waiting (by rw [hphase]; nofun)
    obtain ⟨-, -, -, -, -, hdone⟩ := completeCmdCustom_log success behind resultOk reallocOk
      (s.transfer d r disk success part)
    rcases completeCmdCustom_reply success behind resultOk reallocOk
        (s.transfer d r disk success part) with ⟨hsent, hlen, hdata⟩ | ⟨hkept, hlen⟩
    · refine ⟨hsub, absurd hdone, fun hp => absurd hsent hp,
        fun _ => ⟨hlen, h.reading hphase, fun hempty => hdata ?_⟩⟩
      exact flatten_eq_nil_of_shape ((map_length_fillIov ..).trans h.shape) hempty
    · refine ⟨hsub, absurd hdone, fun _ => hlen.imp_left fun hl => hl.trans hlength,
        fun hsent => ?_⟩
      exact absurd (hkept.symm.trans hsent) hxfer

theorem replies_init : Replies d r (grepSys d r disk).init := by
  have hxfer : r.grepXfer ≠ .controllerToHost := by
    unfold DataReq.grepXfer
    split <;> exact Xfer.noConfusion
  exact ⟨grepSubmitted_init, fun _ => ⟨rfl, hxfer⟩, fun _ => Or.inl rfl, fun h => absurd h hxfer⟩

theorem replies_of_run {ls : List GrepLabel}
    (h : (grepSys d r disk).run (grepSys d r disk).init ls = some s) : Replies d r s :=
  Sys.run_invariant (fun _ _ _ ih hstep => ih.step hstep) replies_init h

/-- **Any request with data that gets to its read can be answered with a result**: one retry makes
its keyword the empty one, which occurs everywhere. -/
theorem exists_reply (hr : r.GrepReads d) (hdata : r.iov.flatten ≠ []) :
    ∃ ls s, (grepSys d r disk).run (grepSys d r disk).init ls = some s ∧ s.phase = .done ∧
      s.SendsData ∧ s.length = 4096 := by
  have hgate : grepGate .reserved = none := grepGate_eq_none ⟨rfl, rfl, Or.inl rfl⟩
  obtain ⟨s, hs⟩ := @Waiting.exists_run d r disk [] .reserved hgate hr 1 _ waiting_init
  obtain ⟨-, hans⟩ := waiting_init.answer hs
  have hpayload : (grepSys d r disk).init.payload r (List.replicate 1 .reserved)
      = (setIov 0 r.iov).flatten := if_neg (List.cons_ne_nil _ _)
  rw [hpayload, grepKeyword_setIov hdata] at hans
  have hlines : matchingLines [] (r.grepData d disk) ≠ [] := by
    rw [matchingLines_nil]
    exact mt grepLines_eq_nil_iff.mp (mt flatten_grepData_eq_nil_iff.mp hdata)
  obtain ⟨hxfer, hlength⟩ := hans.reply hlines
  refine ⟨_, s, hs, hans.done, ⟨?_, hxfer⟩, hlength⟩
  rw [hans.status, DataReq.grepAnswer, if_neg hlines]
  exact List.mem_singleton_self _

end Reply

/-! ## When the reply discloses nothing -/

theorem DataReq.sum_map_length (r : DataReq) : (r.iov.map List.length).sum = r.length.toNat := by
  rw [← List.length_flatten, r.length_eq]

theorem DataReq.length_lt (r : DataReq) : ∀ n ∈ r.iov.map List.length, n < 2 ^ 32 := by
  intro n hn
  calc n ≤ (r.iov.map List.length).sum := List.le_sum_of_mem hn
    _ = r.length.toNat := r.sum_map_length
    _ < 2 ^ 32 := r.length.toNat_lt

/-- **The reply to a grep stays inside its request exactly when** the request does not get to its
read, has no data, or has 4096 bytes that a PDU reaches. -/
theorem replyInside_iff (d : Bdev) (r : DataReq) (disk : ℕ → UInt8) (stale : ℕ) :
    ReplyInside d r disk stale ↔
      ¬ r.GrepReads d ∨ r.iov.flatten = [] ∨ 4096 ≤ reachable 16 (r.iov.map List.length) := by
  constructor
  · intro h
    by_contra hno
    rw [not_or, not_or, not_not] at hno
    obtain ⟨hr, hdata, hshort⟩ := hno
    obtain ⟨ls, s, hrun, hdone, hsends, hlength⟩ := @exists_reply d r disk hr hdata
    obtain ⟨pdu, hpdu, hcovers⟩ := (h ls s hrun hdone).2 hsends
    rw [GrepSt.c2hData, (replies_of_run hrun).shape, hlength] at hpdu
    rw [hlength] at hcovers
    exact hshort ((exists_covers_iff r.length_lt).mp ⟨pdu, hpdu, hcovers⟩)
  · intro h ls s hrun _
    have hs := replies_of_run hrun
    by_cases hsent : s.xfer = .controllerToHost
    · obtain ⟨hlength, hr, hdata⟩ := hs.sent hsent
      have hreach : 4096 ≤ reachable 16 (r.iov.map List.length) :=
        (h.resolve_left (not_not.mpr hr)).resolve_left hdata
      refine ⟨?_, fun _ => ?_⟩
      · rw [hlength, UInt32.le_iff_toNat_le, ← r.sum_map_length]
        exact hreach.trans (reachable_le_sum ..)
      · rw [GrepSt.c2hData, hs.shape, hlength]
        exact (exists_covers_iff r.length_lt).mpr hreach
    · refine ⟨?_, fun hsends => absurd hsends.2 hsent⟩
      rcases hs.kept hsent with hlength | hlength <;> rw [hlength]
      · exact UInt32.le_refl _
      · exact UInt32.zero_le

/-- For the iovecs the transport makes of an SGL, the last is a question of its length. -/
theorem reachable_iff_of_parseSgl {T : TcpTransport} {b : BufSupply} {x : SglContext} {cmd : TcpCmd}
    {r : DataReq} (hdif : x.dif = none)
    (h : tcpReqParseSgl T b x cmd = .pool (r.iov.map List.length) ∨
      ∃ c len, tcpReqParseSgl T b x cmd = .inCapsule c len ∧ r.iov.map List.length = [len.toNat]) :
    r.length = cmd.sgl.length ∧
      (4096 ≤ reachable 16 (r.iov.map List.length) ↔ 4096 ≤ r.length.toNat) := by
  have hsum : (r.iov.map List.length).sum = r.length.toNat := r.sum_map_length
  rcases h with hpool | ⟨c, len, hin, hiov⟩
  · obtain ⟨hlength, hreach⟩ := getBuffers_reach (getBuffers_of_parseSgl hdif hpool)
    have heq : r.length = cmd.sgl.length := UInt32.toNat_inj.mp (hsum.symm.trans hlength)
    refine ⟨heq, fun hle => ?_, fun hle => hreach (heq ▸ hle)⟩
    exact hsum ▸ hle.trans (reachable_le_sum 16 _)
  · rw [hiov, List.sum_singleton] at hsum
    rw [hiov, reachable_singleton, hsum]
    exact ⟨UInt32.toNat_inj.mp (hsum.symm.trans (congrArg _ (parseSgl_inCapsule hin).2.2)), Iff.rfl⟩

/-- A keyword of two bytes is answered with 4096. -/
theorem not_replyInside_grepSample : ¬ ReplyInside .sample .grepSample (fun _ => 97) 0 := by
  intro h
  have hrun : ((grepSys .sample .grepSample fun _ => 97).run
      (grepSys .sample .grepSample fun _ => 97).init
      [.attempt .reserved true true 0, .deliver true [] [] true fun _ => true]).map
        (fun s => (s.phase, s.length)) = some (.done, 4096) := by decide +kernel
  obtain ⟨s, hs, hval⟩ := Option.map_eq_some_iff.mp hrun
  obtain ⟨hdone, hlength⟩ := Prod.mk.inj hval
  have hle := (h _ s hs hdone).1
  rw [hlength] at hle
  revert hle
  decide

end NdpHeaan
