import NdpHeaan.Tcp.SoundStep

/-!
# Tcp/SoundRun — a TCP qpair stays in order along its runs

The requests that still want buffers or data, and then every event of a qpair.  The one thing a host
can do to break the order is an H2CData PDU that `InOrder` excludes; nothing else a qpair goes
through needs a condition.
-/

open Machinery

namespace NdpHeaan

namespace SoundBut

variable {Q : QpCtx} {X : Set ℕ} {s : TcpQpair} {t : ℕ}

/-! ## NEED_BUFFER -/

/-- A data PDU is out for a request at rest. -/
theorem feed {p : DataPdu} (h : SoundBut Q X s) (hw : p.slot ∈ s.working) (hx : p.slot ∉ X)
    (hc : (s.reqs p.slot).Carries p) (hlone : ∀ q ∈ s.pdus, q.slot = p.slot → q.dataLen = 0) :
    SoundBut Q X { s with pdus := s.pdus ++ [p] } :=
  { h with
    data := fun q hq hlen => by
      rcases List.mem_append.mp hq with hq | hq
      · exact h.data q hq hlen
      · obtain rfl := List.mem_singleton.mp hq
        exact ⟨hw, hx, hc⟩
    lone := by
      rw [List.filter_append, List.map_append, List.nodup_append_comm]
      by_cases hlen : p.dataLen = 0
      · simpa [hlen] using h.lone
      · have hout : p.slot ∉ (s.pdus.filter fun q => q.dataLen ≠ 0).map DataPdu.slot := by
          intro hmem
          obtain ⟨q, hq, hqp⟩ := List.mem_map.mp hmem
          obtain ⟨hq, hqlen⟩ := List.mem_filter.mp hq
          exact (of_decide_eq_true hqlen) (hlone q hq hqp)
        have hself : [p].filter (fun q => q.dataLen ≠ 0) = [p] := by simp [hlen]
        rw [hself]
        exact List.nodup_cons.mpr ⟨hout, h.lone⟩ }

/-- A request off the queue, with the buffers it asked for, goes where its data goes. -/
theorem withBuffers
    (h : SoundBut Q (insert t X) { s with pending := s.pending.erase (.own t) }) (hx : t ∉ X)
    (hpdu : (s.reqs t).pdu = none) (hfed : (s.reqs t).Fed) (hoffset : (s.reqs t).h2cOffset = 0) :
    SoundBut Q X (withBuffers Q t s) := by
  have ht : t ∈ s.working := h.working t (.inl rfl)
  have hmove : ∀ f : TcpReq → TcpReq, (f (s.reqs t)).arrival = (s.reqs t).arrival →
      (f (s.reqs t)).held = (s.reqs t).held →
      (f (s.reqs t)).fusedPair = (s.reqs t).fusedPair → (f (s.reqs t)).AtRest →
      (f (s.reqs t)).state ≠ .needBuffer →
      SoundBut Q X ({ s with pending := s.pending.erase (.own t) }.setReq t f) := by
    intro f harrival hheld hpair hrest hneed
    refine (h.setReq (.inl rfl) harrival hheld fun u hu => .inl (hpair ▸ hu)).leave hx ?_ ?_
    · rw [TcpQpair.reqs_setReq_self]
      exact hrest
    · rw [TcpQpair.reqs_setReq_self]
      exact hneed
  unfold NdpHeaan.withBuffers
  dsimp only
  split_ifs
  · exact hmove _ rfl rfl rfl ⟨.inr rfl, hfed⟩ (by simp)
  · have hrest := hmove (fun r => { r with state := .transferringH2c }) rfl rfl rfl
      ⟨hpdu, hfed, fun hall => hall.symm.trans hoffset⟩ (by simp)
    have hfeed := hrest.feed (p := ⟨t, true, s.hdr.common.pdo, 0, (s.reqs t).length⟩) ht hx
      (by simp [TcpReq.Carries, hoffset])
      fun q hq hqt => by_contra fun hlen => (h.data q hq hlen).2.1 (.inl hqt)
    exact hfeed.rx s.active .awaitPduPayload s.hdr s.cmd
  · have hrest := hmove (fun r => { r with state := .readyToExecute }) rfl rfl rfl hpdu (by simp)
    exact hrest.readyToExecute ht hx (by simp)

end SoundBut

namespace SoundBut

variable {Q : QpCtx} {X : Set ℕ} {s : TcpQpair} {t : ℕ}

/-- The log behind a request without buffers that takes so many. -/
theorem poolHeld_getBufs (h : SoundBut Q X s) (hpool : poolHeld t s.log = some 0) (len : UInt32)
    (iov : List ℕ) : ∀ u ∈ Q.slots, poolHeld u (s.log ++ [.getBufs t iov.length]) =
      some (if u = t then { s.reqs t with length := len, iov, dataFromPool := true : TcpReq }.held
        else (s.reqs u).held) := by
  intro u hu
  rw [poolHeld_append]
  by_cases hut : u = t
  · simp [hut, poolStep, hpool, TcpReq.held]
  · simp [hut, poolStep, Ne.symm hut, h.pool u hu]

/-- A request that gets no buffers stays in line. -/
theorem stays (h : SoundBut Q X s) (ht : t ∈ s.working) (hx : t ∉ X)
    (hs : (s.reqs t).state = .needBuffer) {len : UInt32} {fromPool : Bool} (log : List TcpEffect)
    (hlog : ∀ u ∈ Q.slots, poolHeld u log = some (if u = t then
      { s.reqs t with length := len, iov := [], dataFromPool := fromPool : TcpReq }.held
      else (s.reqs u).held)) :
    SoundBut Q X { s.setReq t fun r =>
      { r with length := len, iov := [], dataFromPool := fromPool } with log } := by
  obtain ⟨hpdu, -, hoffset, hreceived⟩ := (h.rest t ht hx).of_needBuffer hs
  refine h.setReq_log hlog rfl (fun u hu => .inl hu) (fun hf => absurd hf (h.notMem_free ht))
    (fun _ _ => ?_) (fun _ => Iff.rfl) fun _ p _ hc => ?_
  · simp [TcpReq.AtRest, TcpReq.held, hs, hpdu, hoffset, hreceived]
  · rcases hc.takesData with hs' | hs' <;> rw [hs] at hs' <;> cases hs'

theorem atNeedBuffer {b : BufSupply} (h : SoundBut Q X s) (ht : t ∈ s.working) (hx : t ∉ X)
    (hs : (s.reqs t).state = .needBuffer) : SoundBut Q X (atNeedBuffer Q b t s) := by
  obtain ⟨hpdu, hheld, hoffset, hreceived⟩ := (h.rest t ht hx).of_needBuffer hs
  have hpool : poolHeld t s.log = some 0 := hheld ▸ h.pool t (h.mem_slots_of_working ht)
  unfold NdpHeaan.atNeedBuffer
  dsimp only
  split
  · exact h
  split
  · exact h.terminate _
  · exact h
  · split
    · refine h.stays ht hx hs s.log fun u hu => ?_
      rw [h.pool u hu]
      split_ifs with hut
      · rw [hut, hheld]
        rfl
      · rfl
    · exact h
  · rename_i iov hparse
    split
    · rename_i hiov
      subst hiov
      exact h.stays ht hx hs _ (h.poolHeld_getBufs hpool _ [])
    · have hset : SoundBut Q (insert t X) { { s with pending := s.pending.erase (.own t) }.setReq t
          (fun r => { r with length := r.cmd.sgl.length, iov, dataFromPool := true }) with
            log := s.log ++ [.getBufs t iov.length] } :=
        (h.unqueue ht hs).setReq_log (h.poolHeld_getBufs hpool _ iov) rfl (fun u hu => .inl hu)
          (fun hf => absurd hf (h.notMem_free ht)) (absurd (.inl rfl)) (absurd (.inl rfl))
          (absurd (.inl rfl))
      refine withBuffers hset hx ?_ ?_ ?_
      · simpa using hpdu
      · have hreach := (getBuffers_reach (getBuffers_of_parseSgl rfl hparse)).1
        simp [TcpReq.Fed, hreach, hoffset, hreceived]
      · simpa using hoffset
  · rename_i fromCtrl len hparse
    have hset : SoundBut Q (insert t X) ({ s with pending := s.pending.erase (.own t) }.setReq t
        fun r => { r with length := len, iov := [len.toNat], dataFromPool := false }) :=
      (h.unqueue ht hs).setReq (.inl rfl) rfl hheld.symm fun u hu => .inl hu
    refine withBuffers ?_ hx ?_ ?_ ?_
    · split
      · exact hset.emit rfl
      · exact hset
    · split <;> simpa using hpdu
    · split <;> simp [TcpReq.Fed, hoffset, hreceived]
    · split <;> simpa using hoffset

end SoundBut

/-! ## NEW -/

theorem failFirst_eq {Q : QpCtx} {s : TcpQpair} {u : ℕ} (hactive : s.active = true)
    (hfuse : (s.reqs u).cmd.fuse = .first) :
    failFirst Q u s =
      { if (s.reqs u).state = .readyToExecute then
          requestTransferOut Q u (s.setReq u fun r =>
            { r with fusedFailed := true, status := .abortedMissingFused })
        else s.setReq u fun r => { r with fusedFailed := true } with fusedFirst := none } := by
  have hready : readyToExecute Q u (s.setReq u fun r => { r with fusedFailed := true }) =
      requestTransferOut Q u (s.setReq u fun r =>
        { r with fusedFailed := true, status := .abortedMissingFused }) := by
    rw [readyToExecute, if_neg (by simp [hfuse]), if_pos (by simp), TcpQpair.setReq_setReq]
  simp only [failFirst, kickReady, TcpQpair.reqs_setReq_self, TcpQpair.active_setReq, hactive,
    if_true, hready]

/-- As NEW finds a request. -/
structure TcpReq.Fresh (r : TcpReq) : Prop where
  state : r.state = .new
  pdu : r.pdu = none
  held : r.held = 0
  h2cOffset : r.h2cOffset = 0
  received : r.received = 0

theorem TcpReq.Fresh.of_alike {r r' : TcpReq} (h : r.Fresh) (ha : r.Alike r') : r'.Fresh := by
  rw [ha]
  exact ⟨h.state, h.pdu, h.held, h.h2cOffset, h.received⟩

section New

variable {Q : QpCtx} {X : Set ℕ} {s : TcpQpair} {t u : ℕ}

theorem fresh_setReq {f : TcpReq → TcpReq} (h : (s.reqs t).Fresh)
    (hf : (s.reqs u).Alike (f (s.reqs u))) : ((s.setReq u f).reqs t).Fresh := by
  rw [TcpQpair.reqs_setReq]
  split_ifs with htu
  · exact (htu ▸ h).of_alike hf
  · exact h

theorem fresh_failFirst (h : (s.reqs t).Fresh) (hactive : s.active = true)
    (hfuse : (s.reqs u).cmd.fuse = .first) : ((failFirst Q u s).reqs t).Fresh := by
  rw [failFirst_eq hactive hfuse]
  dsimp only
  split_ifs with hready
  · have htu : t ≠ u := by
      rintro rfl
      rw [h.state] at hready
      cases hready
    simpa [requestTransferOut, htu] using h
  · exact fresh_setReq h rfl

theorem fresh_noteFused (h : (s.reqs t).Fresh) : ((noteFused t s).reqs t).Fresh := by
  unfold noteFused
  split
  · exact h
  · exact fresh_setReq h rfl
  · exact h

theorem fresh_checkFusedOrdering (h : (s.reqs t).Fresh) (hactive : s.active = true) :
    ((nvmfTcpCheckFusedOrdering Q t s).reqs t).Fresh := by
  unfold nvmfTcpCheckFusedOrdering
  split
  · exact fresh_noteFused h
  · rename_i u hfirst
    split_ifs with hfuse
    · have hlink : ((s.setReq u fun r => { r with fusedPair := some t }).reqs t).Fresh :=
        fresh_setReq h rfl
      rw [TcpQpair.reqs_setReq_self]
      exact hlink.of_alike rfl
    · exact fresh_noteFused (fresh_failFirst h hactive hfuse)
    · exact fresh_noteFused h

namespace SoundBut

theorem failFirst (h : SoundBut Q X s) (hactive : s.active = true)
    (hfuse : (s.reqs u).cmd.fuse = .first) (hu : u ∈ Q.slots)
    (hux : (s.reqs u).state = .readyToExecute → u ∉ X) : SoundBut Q X (failFirst Q u s) := by
  rw [failFirst_eq hactive hfuse]
  refine .setFirst ?_ nofun
  split_ifs with hready
  · refine .requestTransferOut (.mark (.enter h ?_ ?_ (h.no_pdu ?_)) rfl fun v hv => .inl hv)
      (hux hready)
    · exact h.mem_working hu (by simp [hready])
    · simp [hready]
    · simp [TcpReq.TakesData, hready]
  · exact h.mark rfl fun v hv => .inl hv

theorem noteFused (h : SoundBut Q X s) (ht : t ∈ s.working) : SoundBut Q X (noteFused t s) := by
  unfold NdpHeaan.noteFused
  split
  · exact h.setFirst fun u hu => Option.some.inj hu ▸ h.mem_slots_of_working ht
  · exact h.mark rfl fun u hu => .inl hu
  · exact h

end SoundBut

theorem working_failFirst (hactive : s.active = true) (hfuse : (s.reqs u).cmd.fuse = .first) :
    (failFirst Q u s).working = s.working := by
  rw [failFirst_eq hactive hfuse]
  dsimp only
  split_ifs <;> rfl

namespace SoundBut

theorem checkFusedOrdering (h : SoundBut Q (insert t ∅) s) (hactive : s.active = true)
    (hnew : (s.reqs t).Fresh) : SoundBut Q (insert t ∅) (nvmfTcpCheckFusedOrdering Q t s) := by
  have ht : t ∈ s.working := h.working t (.inl rfl)
  unfold nvmfTcpCheckFusedOrdering
  split
  · exact h.noteFused ht
  · rename_i u hfirst
    have hu : u ∈ Q.slots := h.first u hfirst
    split_ifs with hfuse
    · have hlink : SoundBut Q (insert t ∅) (s.setReq u fun r => { r with fusedPair := some t }) :=
        h.mark rfl fun v hv => .inr (Option.some.inj hv ▸ h.mem_slots_of_working ht)
      have hback : SoundBut Q (insert t ∅) ((s.setReq u fun r =>
          { r with fusedPair := some t }).setReq t fun r => { r with fusedPair := some u }) :=
        hlink.mark rfl fun v hv => .inr (Option.some.inj hv ▸ hu)
      exact hback.setFirst nofun
    · refine noteFused (h.failFirst hactive hfuse hu ?_) ?_
      · rintro hready (rfl | hmem)
        · rw [hnew.state] at hready
          cases hready
        · exact hmem
      · rw [working_failFirst hactive hfuse]
        exact ht
    · exact h.noteFused ht

/-- A new request gets in line for buffers. -/
theorem queued_new (h : SoundBut Q (insert t ∅) s) (hnew : (s.reqs t).Fresh) :
    Sound Q { s.setReq t fun r => { r with state := .needBuffer } with
      pending := s.pending ++ [.own t] } := by
  have hset : SoundBut Q (insert t ∅) (s.setReq t fun r => { r with state := .needBuffer }) :=
    h.setReq (.inl rfl) rfl rfl fun u hu => .inl hu
  refine hset.queue (Set.notMem_empty t) ?_ (by simp)
  simpa [TcpReq.AtRest] using ⟨hnew.pdu, hnew.held, hnew.h2cOffset, hnew.received⟩

theorem atNew {b : BufSupply} (h : SoundBut Q (insert t ∅) s) (hactive : s.active = true)
    (hnew : (s.reqs t).Fresh) : Sound Q (atNew Q b t s) := by
  have hout := Set.notMem_empty t
  unfold NdpHeaan.atNew
  extract_lets s₁ xfer s₂ s₃
  have h₁ : SoundBut Q (insert t ∅) s₁ := .emit (h.mark rfl fun u hu => .inl hu) rfl
  have hnew₁ : (s₁.reqs t).Fresh := by
    simp only [s₁, TcpQpair.reqs_emit]
    exact fresh_setReq hnew rfl
  have h₂ : SoundBut Q (insert t ∅) s₂ :=
    (h₁.checkFusedOrdering hactive hnew₁).mark rfl fun u hu => .inl hu
  have hnew₂ : (s₂.reqs t).Fresh := fresh_setReq (fresh_checkFusedOrdering hnew₁ hactive) rfl
  clear_value s₂ xfer
  split
  · exact .requestTransferOut (.mark (h₂.rx s₂.active .awaitPduReady s₂.hdr s₂.cmd) rfl
      fun u hu => .inl hu) hout
  · have hset : SoundBut Q (insert t ∅) ({ s₂ with recv := .awaitPduReady }.setReq t
        fun r => { r with state := .readyToExecute }) :=
      (h₂.rx s₂.active .awaitPduReady s₂.hdr s₂.cmd).setReq (.inl rfl) rfl rfl fun u hu => .inl hu
    have hrest := hset.leave hout (by simpa [TcpReq.AtRest] using hnew₂.pdu) (by simp)
    exact hrest.readyToExecute (hset.working t (.inl rfl)) hout (by simp)
  · have h₃ : SoundBut Q (insert t ∅) s₃ ∧ (s₃.reqs t).Fresh := by
      simp only [s₃]
      split
      · exact ⟨h₂.mark rfl fun u hu => .inl hu, fresh_setReq hnew₂ rfl⟩
      · exact ⟨h₂.rx s₂.active .awaitPduReady s₂.hdr s₂.cmd, hnew₂⟩
    exact (h₃.1.queued_new h₃.2).atNeedBuffer (h₃.1.working t (.inl rfl)) hout (by simp)

end SoundBut

end New

/-! ## Data -/

namespace SoundBut

variable {Q : QpCtx} {X : Set ℕ} {s : TcpQpair} {t : ℕ}

theorem dataReady (h : SoundBut Q (insert t ∅) s) (hpdu : (s.reqs t).pdu = none) :
    Sound Q (dataReady Q t s) := by
  refine process (.emit (h.setReq (.inl rfl) rfl rfl fun u hu => .inl hu) rfl) (.inl ?_) ?_
  · simp
  · simpa using hpdu

theorem dataCorrupt (h : SoundBut Q (insert t ∅) s) (hpdu : (s.reqs t).pdu = none) :
    Sound Q (dataCorrupt Q t s) := by
  refine process (h.setReq (.inl rfl) rfl rfl fun u hu => .inl hu) (.inr (.inr (.inl ?_))) ?_
  · simp
  · simpa using hpdu

/-- At most one PDU with data is out for a request. -/
theorem lone_erase {p : DataPdu} (h : SoundBut Q X s) (hp : p ∈ s.pdus) (hlen : p.dataLen ≠ 0) :
    ∀ q ∈ s.pdus.erase p, q.slot = p.slot → q.dataLen = 0 := by
  intro q hq hqp
  by_contra hqlen
  have hperm := ((List.perm_cons_erase hp).filter fun q => q.dataLen ≠ 0).map DataPdu.slot
  rw [List.filter_cons_of_pos (by simpa using hlen), List.map_cons] at hperm
  refine (List.nodup_cons.mp (hperm.nodup_iff.mp h.lone)).1 (List.mem_map.mpr ⟨q, ?_, hqp⟩)
  exact List.mem_filter.mpr ⟨hq, by simpa using hqlen⟩

theorem capsuleCmdPayloadHandle {p : DataPdu} (h : Sound Q s) (hw : p.slot ∈ s.working)
    (hlone : ∀ q ∈ s.pdus, q.slot = p.slot → q.dataLen = 0)
    (hs : (s.reqs p.slot).state = .transferringH2c) :
    Sound Q (nvmfTcpCapsuleCmdPayloadHandle Q p s) := by
  have hpdu : (s.reqs p.slot).pdu = none := by
    have hrest := h.rest p.slot hw (Set.notMem_empty _)
    simp only [TcpReq.AtRest, hs] at hrest
    exact hrest.1
  have hin : SoundBut Q (insert p.slot ∅) (s.setReq p.slot fun r =>
      { r with received := r.received + p.dataLen.toNat }) :=
    (h.enter hw (by simp [hs]) hlone).setReq (.inl rfl) rfl rfl fun u hu => .inl hu
  unfold nvmfTcpCapsuleCmdPayloadHandle
  dsimp only
  split_ifs
  · exact h.terminate _
  · exact hin.dataCorrupt (by simpa using hpdu)
  · exact hin.dataReady (by simpa using hpdu)

theorem h2cDataPayloadHandle {p : DataPdu} (h : Sound Q s) (hw : p.slot ∈ s.working)
    (hlone : ∀ q ∈ s.pdus, q.slot = p.slot → q.dataLen = 0)
    (hc : (s.reqs p.slot).Carries p) : Sound Q (nvmfTcpH2cDataPayloadHandle Q p s) := by
  have hrest := h.rest p.slot hw (Set.notMem_empty _)
  obtain ⟨hiov, hreceived, -⟩ := hrest.fed hc.takesData
  have hneed : (s.reqs p.slot).state ≠ .needBuffer := by
    rcases hc.takesData with hs | hs <;> simp [hs]
  have hin : SoundBut Q (insert p.slot ∅) (s.setReq p.slot fun r =>
      { r with h2cOffset := r.h2cOffset + p.dataLen, received := r.received + p.dataLen.toNat }) :=
    (h.enter hw hneed hlone).setReq (.inl rfl) rfl rfl fun u hu => .inl hu
  unfold nvmfTcpH2cDataPayloadHandle
  dsimp only
  split_ifs with hall herror
  · simp only [TcpQpair.reqs_setReq_self] at hall
    simp only [TcpReq.AtRest, hall.2] at hrest
    exact hin.dataCorrupt (by simpa using hrest.1)
  · simp only [TcpQpair.reqs_setReq_self] at hall
    simp only [TcpReq.AtRest, hall.2] at hrest
    exact hin.dataReady (by simpa using hrest.1)
  · refine hin.leave (Set.notMem_empty _) ?_ (by simpa using hneed)
    have hle := hc.le
    have hsum : ((s.reqs p.slot).h2cOffset + p.dataLen).toNat =
        (s.reqs p.slot).h2cOffset.toNat + p.dataLen.toNat := by
      rw [UInt32.toNat_add, Nat.mod_eq_of_lt (hle.trans_lt (UInt32.toNat_lt _))]
    have hfed : TcpReq.Fed { s.reqs p.slot with
        h2cOffset := (s.reqs p.slot).h2cOffset + p.dataLen
        received := (s.reqs p.slot).received + p.dataLen.toNat } :=
      ⟨hiov, by rw [hsum, hreceived], by rw [hsum]; exact hle⟩
    rw [TcpQpair.reqs_setReq_self] at hall ⊢
    rcases hc.takesData with hs | hs <;> simp only [TcpReq.AtRest, hs] at hrest ⊢
    · exact ⟨hrest.1, hfed, fun hdone => absurd ⟨hdone, hs⟩ hall⟩
    · exact ⟨hrest.1, hfed⟩

/-- What is done with the data of a PDU, once it is known whether it is as it was sent. -/
theorem payloadHandle {p : DataPdu} {s₁ : TcpQpair} (h : Sound Q s) (hp : p ∈ s.pdus)
    (hlen : p.dataLen ≠ 0) (h₁ : Sound Q s₁) (hpdus : s₁.pdus = s.pdus)
    (hwork : s₁.working = s.working) (halike : (s.reqs p.slot).Alike (s₁.reqs p.slot)) :
    Sound Q (if p.inCapsule then
        nvmfTcpCapsuleCmdPayloadHandle Q p { s₁ with pdus := s.pdus.erase p }
      else nvmfTcpH2cDataPayloadHandle Q p { s₁ with pdus := s.pdus.erase p }) := by
  obtain ⟨hw, -, hc⟩ := h.data p hp hlen
  have hlone := h.lone_erase hp hlen
  have h₂ : Sound Q { s₁ with pdus := s.pdus.erase p } := hpdus ▸ h₁.erasePdu p
  split_ifs with hcapsule
  · refine h₂.capsuleCmdPayloadHandle (hwork ▸ hw) hlone ?_
    have hs := hc.2
    rw [if_pos hcapsule] at hs
    rw [halike]
    exact hs.1
  · refine h₂.h2cDataPayloadHandle (hwork ▸ hw) hlone ?_
    rw [halike]
    exact hc

theorem dataCrc32CalcDone {p : DataPdu} (h : Sound Q s) (hp : p ∈ s.pdus) (hlen : p.dataLen ≠ 0)
    (ok : Bool) : Sound Q (dataCrc32CalcDone Q p ok s) := by
  cases ok with
  | true => exact h.payloadHandle hp hlen h rfl rfl rfl
  | false =>
    refine h.payloadHandle hp hlen (.emit (h.mark rfl fun u hu => .inl hu) rfl) rfl rfl ?_
    simp only [Bool.false_eq_true, if_false, TcpQpair.reqs_emit, TcpQpair.reqs_setReq_self]
    rfl

/-! ## What a qpair goes through -/

/-- A request at rest with a PDU on its way waits for the R2T to be sent, or for its answer. -/
theorem out_cases (h : Sound Q s) (ht : t ∈ s.working) (hpdu : (s.reqs t).pdu ≠ none) :
    (s.reqs t).state = .awaitingR2tAck ∧ (s.reqs t).pdu = some .r2t ∨
      (s.reqs t).state = .transferringC2h ∧ (s.reqs t).pdu ≠ some .r2t := by
  have hrest := h.rest t ht (Set.notMem_empty t)
  cases hs : (s.reqs t).state <;> simp only [TcpReq.AtRest, hs] at hrest
  case awaitingR2tAck => exact .inl ⟨rfl, hrest.1.resolve_left hpdu⟩
  case transferringC2h => exact .inr ⟨rfl, hrest⟩
  case needBuffer | transferringH2c => exact absurd hrest.1 hpdu
  case readyToExecute | executing => exact absurd hrest hpdu

/-- All the data of a request was there before its R2T was known to be sent. -/
theorem enter_acked (h : Sound Q s) (ht : t ∈ s.working)
    (hs : (s.reqs t).state = .awaitingR2tAck)
    (hall : (s.reqs t).h2cOffset = (s.reqs t).length) :
    SoundBut Q (insert t ∅) (s.setReq t fun r =>
      { r with pdu := none, state := .transferringH2c }) := by
  refine .setReq (h.enter ht (by simp [hs]) fun p hp hpt => ?_) (.inl rfl) rfl rfl
    fun u hu => .inl hu
  -- so no PDU with some of it can be out
  by_contra hlen
  have hle := (h.data p hp hlen).2.2.le
  rw [hpt, hall] at hle
  exact hlen (UInt32.toNat_inj.mp (by simpa using hle))

theorem r2tComplete (h : Sound Q s) (ht : t ∈ s.working)
    (hs : (s.reqs t).state = .awaitingR2tAck) :
    Sound Q (nvmfTcpR2tComplete Q t (s.setReq t fun r => { r with pdu := none })) := by
  have hfed : (s.reqs t).Fed := (h.rest t ht (Set.notMem_empty t)).fed (.inr hs)
  unfold nvmfTcpR2tComplete
  simp only [TcpQpair.setReq_setReq, TcpQpair.reqs_setReq_self]
  split_ifs with hall
  · exact (h.enter_acked ht hs hall).dataReady (by simp)
  · refine h.setReq_of rfl rfl (fun u hu => .inl hu) (fun hf => absurd hf (h.notMem_free ht))
      (fun _ _ => ⟨rfl, hfed, fun hdone => absurd hdone hall⟩) (fun _ => by simp [hs])
      fun _ p _ hc => ?_
    obtain ⟨hoffset, hc⟩ := hc
    refine ⟨hoffset, ?_⟩
    split_ifs at hc ⊢
    · rw [hs] at hc
      cases hc.1
    · exact ⟨.inl rfl, hc.2⟩

theorem requestFree (h : Sound Q s) (ht : t ∈ s.working)
    (hs : (s.reqs t).state = .transferringC2h) :
    Sound Q (nvmfTcpRequestFree Q t (s.setReq t fun r => { r with pdu := none })) := by
  have hin : SoundBut Q (insert t ∅) s := by
    refine h.enter ht ?_ (h.no_pdu ?_) <;> simp [TcpReq.TakesData, hs]
  refine process (.setReq (hin.setReq (.inl rfl) rfl rfl fun u hu => .inl hu) (.inl rfl) rfl rfl
    fun u hu => .inl hu) (.inr (.inr (.inr ?_))) ?_ <;> simp

theorem reqPduWriteDone (h : Sound Q s) (ht : t ∈ s.working) (hpdu : (s.reqs t).pdu ≠ none)
    (success : Bool) : Sound Q (reqPduWriteDone Q t success s) := by
  unfold NdpHeaan.reqPduWriteDone
  dsimp only
  rcases h.out_cases ht hpdu with ⟨hs, hout⟩ | ⟨hs, hout⟩
  · rw [if_neg (by simp [hs]), hout]
    exact h.r2tComplete ht hs
  · rw [if_neg (by simp [hs])]
    have hanswer : Sound Q (s.setReq t fun r => { r with pdu := some .capsuleResp }) :=
      h.setReq_of rfl rfl (fun u hu => .inl hu) (fun hf => absurd hf (h.notMem_free ht))
        (fun _ _ => by simp [TcpReq.AtRest, hs]) (fun _ => Iff.rfl) fun _ p _ hc => hc
    split
    · rename_i hr2t
      exact absurd hr2t hout
    · split_ifs
      · exact h.requestFree ht hs
      · rw [TcpQpair.setReq_setReq]
        exact hanswer
    · exact h.requestFree ht hs

/-- A data PDU to the host gets on, or makes room for the next one. -/
theorem setC2hData {digesting : Bool} (h : Sound Q s) (ht : t ∈ s.working)
    (hpdu : (s.reqs t).pdu = some (.c2hData digesting)) (next : Bool) :
    Sound Q (s.setReq t fun r => { r with pdu := some (.c2hData next) }) := by
  obtain ⟨-, hout⟩ | ⟨hs, -⟩ := h.out_cases ht (by simp [hpdu])
  · rw [hpdu] at hout
    cases hout
  · exact h.setReq_of rfl rfl (fun u hu => .inl hu) (fun hf => absurd hf (h.notMem_free ht))
      (fun _ _ => by simp [TcpReq.AtRest, hs]) (fun _ => Iff.rfl) fun _ p _ hc => hc

theorem reqPduWriteFailed (h : Sound Q s) (ht : t ∈ s.working) (hpdu : (s.reqs t).pdu ≠ none) :
    Sound Q (reqPduWriteFailed Q t s) := by
  have hlost : Sound Q (s.setReq t fun r => { r with pdu := none }) := by
    refine h.setReq_of rfl rfl (fun u hu => .inl hu) (fun hf => absurd hf (h.notMem_free ht))
      (fun _ hrest => ?_) (fun _ => Iff.rfl) fun _ p _ hc => hc
    rcases h.out_cases ht hpdu with ⟨hs, -⟩ | ⟨hs, -⟩ <;> simp only [TcpReq.AtRest, hs] at hrest ⊢
    · exact ⟨.inl trivial, hrest.2⟩
    · simp
  unfold NdpHeaan.reqPduWriteFailed
  dsimp only
  rcases h.out_cases ht hpdu with ⟨hs, -⟩ | ⟨hs, -⟩ <;> rw [if_neg (by simp [hs])] <;>
    exact hlost.rx s.active .quiescing s.hdr s.cmd

/-- A request in line that is not to be served any more. -/
theorem unqueue_process {b : BufSupply} {f : TcpReq → TcpReq} (h : Sound Q s) (ht : t ∈ s.working)
    (hs : (s.reqs t).state = .needBuffer) (harrival : (f (s.reqs t)).arrival = (s.reqs t).arrival)
    (hheld : (f (s.reqs t)).held = (s.reqs t).held)
    (hpair : (f (s.reqs t)).fusedPair = (s.reqs t).fusedPair)
    (hpdu : (f (s.reqs t)).pdu = (s.reqs t).pdu)
    (hstate : (f (s.reqs t)).state = .readyToComplete) :
    Sound Q (nvmfTcpReqProcess Q b t
      ({ s with pending := s.pending.erase (.own t) }.setReq t f)) := by
  obtain ⟨hnone, -⟩ := (h.rest t ht (Set.notMem_empty t)).of_needBuffer hs
  refine process ((h.unqueue ht hs).setReq (.inl rfl) harrival hheld fun u hu => .inl (hpair ▸ hu))
    (.inr (.inr (.inl ?_))) ?_
  · rw [TcpQpair.reqs_setReq_self]
    exact hstate
  · rw [TcpQpair.reqs_setReq_self]
    exact hpdu.trans hnone

theorem poll {b : BufSupply} (h : Sound Q s) (ht : t ∈ s.working)
    (hs : (s.reqs t).state = .needBuffer) : Sound Q (nvmfTcpReqProcess Q b t s) := by
  obtain ⟨hpdu, -⟩ := (h.rest t ht (Set.notMem_empty t)).of_needBuffer hs
  unfold nvmfTcpReqProcess
  rw [if_pos hs, hs]
  split_ifs
  · refine ((h.unqueue ht hs).setReq (.inl rfl) rfl rfl fun u hu => .inl hu).completeReq ?_ ?_
    · simp
    · simpa using hpdu
  · exact h.atNeedBuffer ht (Set.notMem_empty t) hs

theorem reqComplete (h : Sound Q s) (ht : t ∈ s.working)
    (hs : (s.reqs t).state = .executing) (sc : Sc) : Sound Q (nvmfTcpReqComplete Q t sc s) := by
  have hpdu := (h.rest t ht (Set.notMem_empty t)).pdu_of_executing hs
  have hin : SoundBut Q (insert t ∅) s := by
    refine h.enter ht ?_ (h.no_pdu ?_) <;> simp [TcpReq.TakesData, hs]
  refine process (hin.setReq (.inl rfl) rfl rfl fun u hu => .inl hu) (.inr (.inl ?_)) ?_
  · simp
  · simpa using hpdu

theorem capsuleCmdHdrHandle {b : BufSupply} (h : Sound Q s) :
    Sound Q (nvmfTcpCapsuleCmdHdrHandle Q b s) := by
  unfold nvmfTcpCapsuleCmdHdrHandle
  split
  · split_ifs
    · exact h
    · exact h.rx s.active .quiescing s.hdr s.cmd
  · rename_i t rest hfree
    have hidle := h.idle t (hfree ▸ List.mem_cons_self ..)
    have hin := h.get hfree
    have hnew : ((nvmfTcpReqGet t s).reqs t).Fresh := by
      rw [reqs_nvmfTcpReqGet_self]
      exact ⟨rfl, hidle.pdu, by simp [TcpReq.held, hidle.dataFromPool], rfl, rfl⟩
    unfold nvmfTcpReqProcess
    rw [hnew.state, if_neg (show TcpReqState.new ≠ .needBuffer by decide)]
    split_ifs with hactive
    · refine (hin.setReq (.inl rfl) rfl rfl fun u hu => .inl hu).completeReq ?_ ?_
      · simp
      · simpa using hnew.pdu
    · exact hin.atNew (by simpa using hactive) hnew

end SoundBut

/-- **An H2CData PDU that is in order**: it names a request of the qpair, ends within 32 bits, and
no other one from the same offset on is out for the request. -/
def InOrder (s : TcpQpair) : TcpEvent → Prop
  | .h2cData _ ttag datao datal =>
    ttag ≠ 0 ∧ datao.toNat + datal.toNat < 2 ^ 32 ∧
      ∀ p ∈ s.pdus, p.slot = ttag.toNat → p.datao = datao → p.dataLen = 0
  | _ => True

namespace SoundBut

variable {Q : QpCtx} {s s' : TcpQpair}

/-- What the checks of `nvmf_tcp_h2c_data_hdr_handle` and the order of the PDUs come to. -/
theorem accepted {cccid ttag : UInt16} {datao datal : UInt32} (h : Sound Q s)
    (hg : InOrder s (.h2cData cccid ttag datao datal)) (hmax : ¬ ttag.toNat > Q.resourceCount)
    (hstate : ¬ ((s.reqs ttag.toNat).state ≠ .transferringH2c ∧
      (s.reqs ttag.toNat).state ≠ .awaitingR2tAck))
    (hoffset : ¬ (s.reqs ttag.toNat).h2cOffset ≠ datao)
    (hrange : ¬ datao + datal > (s.reqs ttag.toNat).length) :
    ttag.toNat ∈ Q.slots ∧ ttag.toNat ∈ s.working ∧
      (s.reqs ttag.toNat).Carries ⟨ttag.toNat, false, 0, datao, datal⟩ ∧
      ∀ q ∈ s.pdus, q.slot = ttag.toNat → q.dataLen = 0 := by
  obtain ⟨htag, hwrap, hlone⟩ := hg
  have htakes : (s.reqs ttag.toNat).TakesData := by
    by_contra hnot
    exact hstate (not_or.mp hnot)
  have hslot : ttag.toNat ∈ Q.slots := by
    have hpos : ttag.toNat ≠ 0 := fun h0 => htag (UInt16.toNat_inj.mp h0)
    rw [QpCtx.slots, List.mem_range'_1]
    omega
  have hwork : ttag.toNat ∈ s.working := h.mem_working hslot (by
    rcases htakes with hs | hs <;> simp [hs])
  rw [not_not] at hoffset
  refine ⟨hslot, hwork, ⟨hoffset, htakes, ?_⟩, fun q hq hqt => ?_⟩
  · have hle : (datao + datal).toNat ≤ (s.reqs ttag.toNat).length.toNat := not_lt.mp hrange
    rwa [UInt32.toNat_add, Nat.mod_eq_of_lt hwrap] at hle
  · by_contra hlen
    exact hlen (hlone q hq hqt ((hqt ▸ (h.data q hq hlen).2.2.1).symm.trans hoffset))

theorem h2cDataHdrHandle {cccid ttag : UInt16} {datao datal : UInt32} (h : Sound Q s)
    (hg : InOrder s (.h2cData cccid ttag datao datal)) :
    Sound Q (nvmfTcpH2cDataHdrHandle Q cccid ttag datao datal s) := by
  unfold nvmfTcpH2cDataHdrHandle
  dsimp only
  split_ifs with hmax hstate hcid hoffset hrange
  any_goals exact h.terminate _
  obtain ⟨-, hwork, hc, hlone⟩ := h.accepted hg hmax hstate hoffset hrange
  exact .emit (.rx (h.feed hwork (Set.notMem_empty _) hc hlone) s.active .awaitPduPayload s.hdr
    s.cmd) rfl

/-- **A step keeps a qpair in order**, if it is not an H2CData PDU that is out of order. -/
theorem step {e : TcpEvent} (h : Sound Q s) (hg : InOrder s e) (hstep : tcpStep Q s e = some s') :
    Sound Q s' := by
  cases e with
  | capsule hdr cmd b =>
    obtain rfl := Option.some.inj hstep
    exact (h.rx s.active .awaitReq hdr cmd).capsuleCmdHdrHandle
  | nextPdu hdr cmd =>
    obtain rfl := Option.some.inj hstep
    exact h.rx s.active s.recv hdr cmd
  | h2cData cccid ttag datao datal =>
    obtain rfl := Option.some.inj hstep
    exact h.h2cDataHdrHandle hg
  | dataDone p ok =>
    obtain ⟨⟨hp, hlen, -⟩, ⟨⟩⟩ := Option.ite_none_right_eq_some.mp hstep
    exact h.dataCrc32CalcDone hp hlen ok
  | poll t b =>
    obtain ⟨⟨ht, hs⟩, ⟨⟩⟩ := Option.ite_none_right_eq_some.mp hstep
    exact h.poll ht hs
  | complete t sc =>
    obtain ⟨⟨ht, hs⟩, ⟨⟩⟩ := Option.ite_none_right_eq_some.mp hstep
    exact h.reqComplete ht hs sc
  | digestDone t =>
    obtain ⟨⟨ht, hpdu⟩, ⟨⟩⟩ := Option.ite_none_right_eq_some.mp hstep
    exact h.setC2hData ht hpdu false
  | nextPart t digesting =>
    obtain ⟨⟨ht, hpdu, -⟩, ⟨⟩⟩ := Option.ite_none_right_eq_some.mp hstep
    exact h.setC2hData ht hpdu digesting
  | writeDone t success =>
    obtain ⟨⟨ht, hpdu, -⟩, ⟨⟩⟩ := Option.ite_none_right_eq_some.mp hstep
    exact h.reqPduWriteDone ht hpdu success
  | writeFailed t =>
    obtain ⟨⟨ht, hpdu⟩, ⟨⟩⟩ := Option.ite_none_right_eq_some.mp hstep
    exact h.reqPduWriteFailed ht hpdu
  | abort t =>
    obtain ⟨ht, ⟨⟩⟩ := Option.ite_none_right_eq_some.mp hstep
    unfold nvmfTcpQpairAbortRequest
    split_ifs with hs
    · exact h.unqueue_process ht hs rfl rfl rfl rfl rfl
    · exact h
  | others queue =>
    obtain ⟨hq, ⟨⟩⟩ := Option.ite_none_right_eq_some.mp hstep
    exact h.others hq
  | disconnect =>
    obtain rfl := Option.some.inj hstep
    exact h.rx false s.recv s.hdr s.cmd

end SoundBut

end NdpHeaan
