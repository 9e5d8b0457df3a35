import Mathlib.Data.List.Lattice
import NdpHeaan.Machinery.Walk
import NdpHeaan.Tcp.Parting

/-!
# Tcp/Cleanup — destroying a TCP qpair

`nvmf_tcp_cleanup_all_states` goes through the working queue once for each state in a list of six
and gives back the requests in that state.  READY_TO_EXECUTE is not in the list: a request there is
given back with its partner.  When the partner is the FIRST and lies right in front of it, the
successor the walk has read is gone by the time it gets there, and the walk ends in the free queue.
-/

open Machinery

namespace NdpHeaan

/-! ## Definitions -/

section Destroy

variable (Q : QpCtx)

/-- The PDU of the request is in the socket. -/
def TcpReq.inSocket (r : TcpReq) : Bool := r.pdu ≠ none && r.pdu ≠ some (.c2hData true)

/-- `spdk_sock_close`: every write ends with an error, and no data comes in any more. -/
def spdkSockClose (s : TcpQpair) : TcpQpair :=
  { s.working.foldl (fun s t => if (s.reqs t).inSocket then reqPduWriteFailed Q t s else s) s with
    pdus := [] }

/-- `TAILQ_NEXT` of a slot, in the queue it is in. -/
def TcpQpair.nextLink (s : TcpQpair) (t : ℕ) : Option ℕ :=
  if t ∈ s.working then nextIn t s.working else nextIn t s.free

/-- The body of the loop of `nvmf_tcp_drain_state_queue`. -/
def drainVisit (state : TcpReqState) (t : ℕ) (s : TcpQpair) : TcpQpair :=
  if (s.reqs t).state = state then nvmfTcpRequestFree Q t s else s

/-- **`nvmf_tcp_drain_state_queue`.** -/
def nvmfTcpDrainStateQueue (state : TcpReqState) (s : TcpQpair) : TcpQpair :=
  foreachSafe TcpQpair.nextLink (drainVisit Q state) (Q.resourceCount + 2) s.working.head? s

/-- The requests waiting for buffers leave the group's queue. -/
def wipePending (s : TcpQpair) : TcpQpair :=
  { s with pending := s.working.foldl (fun queue t =>
      if (s.reqs t).state = .needBuffer then queue.erase (.own t) else queue) s.pending }

/-- **`nvmf_tcp_cleanup_all_states`.** -/
def nvmfTcpCleanupAllStates (s : TcpQpair) : TcpQpair :=
  let s₁ := nvmfTcpDrainStateQueue Q .new (nvmfTcpDrainStateQueue Q .transferringC2h s)
  let s₂ := nvmfTcpDrainStateQueue Q .needBuffer (wipePending s₁)
  let s₃ := nvmfTcpDrainStateQueue Q .transferringH2c (nvmfTcpDrainStateQueue Q .executing s₂)
  nvmfTcpDrainStateQueue Q .awaitingR2tAck s₃

/-- `_nvmf_tcp_qpair_destroy`, up to the check of the counters. -/
def nvmfTcpQpairDestroy (s : TcpQpair) : TcpQpair := nvmfTcpCleanupAllStates Q (spdkSockClose Q s)

end Destroy

/-- **A destroyed qpair holds nothing.** -/
structure Reclaimed (Q : QpCtx) (s : TcpQpair) : Prop where
  /-- `state_cntr[TCP_REQUEST_STATE_FREE]` is `resource_count`. -/
  free : ∀ t ∈ Q.slots, (s.reqs t).state = .free
  pending : ∀ t ∈ Q.slots, .own t ∉ s.pending
  /-- By the log, every buffer got from the pool was returned once. -/
  pool : ∀ t ∈ Q.slots, poolHeld t s.log = some 0

/-! ## A request is given back -/

/-- **The slots `gone` are given back**, in this order. -/
structure GivenBack (gone : List ℕ) (s s' : TcpQpair) : Prop where
  active : s'.active = s.active
  working : s'.working = s.working.diff gone
  free : s'.free = s.free ++ gone
  pending : s'.pending = s.pending
  left : ∀ v ∉ gone, s'.reqs v = { s.reqs v with fusedFailed := (s'.reqs v).fusedFailed }
  idle : ∀ v ∈ gone, (s'.reqs v).Idle ∧ (s'.reqs v).fusedPair = none
  pool : ∀ v, poolHeld v s.log = some (s.reqs v).held → poolHeld v s'.log = some (s'.reqs v).held

section GivenBack

variable {Q : QpCtx} {s s' : TcpQpair} {t u : ℕ} {f : TcpReq → TcpReq}

theorem requestFree_of_inactive (h : s.active = false) :
    nvmfTcpRequestFree Q t s =
      completeReq Q t (s.setReq t fun r => { r with state := .completed }) := by
  unfold nvmfTcpRequestFree nvmfTcpReqProcess
  simp [h, TcpQpair.setReq_setReq]

theorem fusedPair_giveUp (v : ℕ) : ((giveUp Q t s).reqs v).fusedPair = (s.reqs v).fusedPair := by
  by_cases hvt : v = t
  · rw [hvt, giveUp, TcpQpair.reqs_setReq_self]
    rcases releaseBuffers_alike Q t t s with hr | ⟨-, hr⟩ <;> rw [hr]
  · rw [giveUp_of_ne hvt]

/-- `giveUp` of a request that ended. -/
theorem giveUp_spec (hs : (s.reqs t).state = .completed) (hpdu : (s.reqs t).pdu = none) :
    (giveUp Q t s).active = s.active ∧ (giveUp Q t s).working = s.working ∧
      (giveUp Q t s).free = s.free ∧ (giveUp Q t s).pending = s.pending ∧
      ((giveUp Q t s).reqs t).Done ∧
      ∀ v, poolHeld v s.log = some (s.reqs v).held →
        poolHeld v (giveUp Q t s).log = some ((giveUp Q t s).reqs v).held := by
  have hframe : (giveUp Q t s).free = s.free ∧ (giveUp Q t s).pending = s.pending := by
    unfold giveUp releaseBuffers
    dsimp only
    split_ifs <;> exact ⟨rfl, rfl⟩
  refine ⟨active_giveUp, working_giveUp, hframe.1, hframe.2, giveUp_self hs hpdu, fun v hv => ?_⟩
  by_cases hvt : v = t
  · subst hvt
    have hheld : ((giveUp Q v s).reqs v).held = 0 := by
      simp [TcpReq.held, (giveUp_self (Q := Q) hs hpdu).dataFromPool]
    rw [hheld]
    unfold giveUp releaseBuffers
    dsimp only
    split_ifs with hpool
    · simp [poolStep, hv, TcpReq.held, hpool]
    · simp [poolStep, hv, TcpReq.held, hpool]
    · simp [hv, TcpReq.held, hpool]
  · rw [giveUp_of_ne hvt]
    unfold giveUp releaseBuffers
    dsimp only
    split_ifs
    · simp [poolStep, Ne.symm hvt, hv]
    · simp [poolStep, hv]
    · exact hv

/-- Between `s` and `s'` only the slots `xs` have changed, apart from marks. -/
structure SameBut (xs : List ℕ) (s s' : TcpQpair) : Prop where
  active : s'.active = s.active
  working : s'.working = s.working
  free : s'.free = s.free
  pending : s'.pending = s.pending
  left : ∀ v ∉ xs, s'.reqs v = { s.reqs v with fusedFailed := (s'.reqs v).fusedFailed }
  pool : ∀ v, poolHeld v s.log = some (s.reqs v).held → poolHeld v s'.log = some (s'.reqs v).held

theorem SameBut.trans {xs : List ℕ} {s'' : TcpQpair} (h : SameBut xs s s')
    (h' : SameBut xs s' s'') :
    SameBut xs s s'' where
  active := h'.active.trans h.active
  working := h'.working.trans h.working
  free := h'.free.trans h.free
  pending := h'.pending.trans h.pending
  left := fun v hv => by
    rw [h'.left v hv, h.left v hv]
  pool := fun v hv => h'.pool v (h.pool v hv)

theorem SameBut.setReq {xs : List ℕ} (hx : t ∈ xs ∨ f (s.reqs t) =
      { s.reqs t with fusedFailed := (f (s.reqs t)).fusedFailed })
    (hheld : (f (s.reqs t)).held = (s.reqs t).held) : SameBut xs s (s.setReq t f) where
  active := rfl
  working := rfl
  free := rfl
  pending := rfl
  left := fun v hv => by
    rw [TcpQpair.reqs_setReq]
    split_ifs with hvt
    · subst hvt
      exact hx.resolve_left hv
    · rfl
  pool := fun v hv => by
    rw [TcpQpair.reqs_setReq]
    split_ifs with hvt
    · rw [hheld, ← hvt]
      exact hv
    · exact hv

theorem SameBut.giveUp {xs : List ℕ} (hs : (s.reqs t).state = .completed)
    (hpdu : (s.reqs t).pdu = none) (hx : t ∈ xs) : SameBut xs s (giveUp Q t s) := by
  obtain ⟨hactive, hwork, hfree, hpending, -, hpool⟩ := giveUp_spec (Q := Q) hs hpdu
  refine ⟨hactive, hwork, hfree, hpending, fun v hv => ?_, hpool⟩
  have hvt : v ≠ t := by
    rintro rfl
    exact hv hx
  rw [giveUp_of_ne hvt]

theorem SameBut.givenBack {gone : List ℕ} {s'' : TcpQpair} (h : SameBut gone s s')
    (hgone : GivenBack gone s' s'') : GivenBack gone s s'' where
  active := hgone.active.trans h.active
  working := h.working ▸ hgone.working
  free := h.free ▸ hgone.free
  pending := hgone.pending.trans h.pending
  left := fun v hv => by rw [hgone.left v hv, h.left v hv]
  idle := hgone.idle
  pool := fun v hv => hgone.pool v (h.pool v hv)

theorem GivenBack.nil (s : TcpQpair) : GivenBack [] s s :=
  ⟨rfl, rfl, (List.append_nil _).symm, rfl, fun _ _ => rfl, nofun, fun _ hv => hv⟩

/-- One more request goes to the free queue. -/
theorem GivenBack.put {gone : List ℕ} {s'' : TcpQpair} (h : GivenBack gone s s')
    (h' : SameBut [t] s' s'') (hdone : (s''.reqs t).Done)
    (hpair : (s''.reqs t).fusedPair = none) :
    GivenBack (gone ++ [t]) s (nvmfTcpReqPut t s'') where
  active := h'.active.trans h.active
  working := by
    rw [List.diff_append, ← h.working, ← h'.working]
    simp [nvmfTcpReqPut]
  free := by
    rw [← List.append_assoc, ← h.free, ← h'.free]
    rfl
  pending := h'.pending.trans h.pending
  left := fun v hv => by
    obtain ⟨hgone, hvt⟩ : v ∉ gone ∧ v ≠ t := by simpa using hv
    rw [reqs_nvmfTcpReqPut_of_ne _ hvt, h'.left v (by simpa using hvt), h.left v hgone]
  idle := fun v hv => by
    by_cases hvt : v = t
    · rw [hvt, reqs_nvmfTcpReqPut_self]
      exact ⟨⟨rfl, hdone.dataFromPool, hdone.pdu⟩, hpair⟩
    · have hgone : v ∈ gone := by simpa [hvt] using hv
      obtain ⟨hidle, hnone⟩ := h.idle v hgone
      rw [reqs_nvmfTcpReqPut_of_ne _ hvt, h'.left v (by simpa using hvt)]
      exact ⟨⟨hidle.state, hidle.dataFromPool, hidle.pdu⟩, hnone⟩
  pool := fun v hv => by
    have hv' := h'.pool v (h.pool v hv)
    by_cases hvt : v = t
    · rw [hvt, reqs_nvmfTcpReqPut_self]
      exact hvt ▸ hv'
    · rw [reqs_nvmfTcpReqPut_of_ne _ hvt]
      exact hv'

theorem done_failPartner (hs : (s.reqs t).state = .completed) (hpdu : (s.reqs t).pdu = none) :
    ((failPartner Q t u s).reqs t).Done :=
  done_setReq (giveUp_self hs hpdu) fun hd => ⟨hd.state, hd.dataFromPool, hd.pdu⟩

theorem sameBut_failPartner {xs : List ℕ} (hs : (s.reqs t).state = .completed)
    (hpdu : (s.reqs t).pdu = none) (hx : t ∈ xs) : SameBut xs s (failPartner Q t u s) :=
  (SameBut.giveUp hs hpdu hx).trans (.setReq (.inr rfl) rfl)

/-- A partner that does not wait is told, and the request given back. -/
theorem givenBack_told (hs : (s.reqs t).state = .completed) (hpdu : (s.reqs t).pdu = none) :
    GivenBack [t] s (nvmfTcpReqPut t ((failPartner Q t u s).setReq t fun r =>
      { r with fusedPair := none })) := by
  have hsame : SameBut [t] s
      ((failPartner Q t u s).setReq t fun r => { r with fusedPair := none }) :=
    (sameBut_failPartner hs hpdu (List.mem_singleton_self t)).trans
      (.setReq (.inl (List.mem_singleton_self t)) rfl)
  have hdone := done_failPartner (Q := Q) (u := u) hs hpdu
  refine (GivenBack.nil s).put hsame ?_ (by simp)
  rw [TcpQpair.reqs_setReq_self]
  exact ⟨hdone.state, hdone.dataFromPool, hdone.pdu⟩

/-- A partner that waits is told as well, and given back before the request. -/
theorem givenBack_waiting {n : ℕ} (hoff : s.active = false) (hs : (s.reqs t).state = .completed)
    (hpdu : (s.reqs t).pdu = none) (hut : u ≠ t) (hback : (s.reqs u).fusedPair = some t)
    (hpdu' : (s.reqs u).pdu = none) :
    GivenBack [u, t] s (nvmfTcpReqPut t
      ((kickReady Q (atCompleted Q (n + 1)) u (failPartner Q t u s)).setReq t fun r =>
        { r with fusedPair := none })) := by
  have hsame : SameBut [u, t] s (failPartner Q t u s) := sameBut_failPartner hs hpdu (by simp)
  have hdone := done_failPartner (Q := Q) (u := u) hs hpdu
  have hreq : (failPartner Q t u s).reqs u = { s.reqs u with fusedFailed := true } := by
    rw [failPartner, TcpQpair.reqs_setReq_self, giveUp_of_ne hut]
  rw [kickReady, if_neg (by simp [hsame.active, hoff])]
  generalize failPartner Q t u s = s₁ at *
  have hend : SameBut [u, t] s₁ (s₁.setReq u fun r => { r with state := .completed }) :=
    .setReq (.inl (by simp)) rfl
  have hreq₂ : (s₁.setReq u fun r => { r with state := .completed }).reqs u =
      { s.reqs u with fusedFailed := true, state := .completed } := by
    rw [TcpQpair.reqs_setReq_self, hreq]
  have hdone₂ : ((s₁.setReq u fun r => { r with state := .completed }).reqs t).Done := by
    rw [TcpQpair.reqs_setReq_of_ne _ _ _ hut.symm]
    exact hdone
  generalize (s₁.setReq u fun r => { r with state := .completed }) = s₂ at *
  have hs₂ : (s₂.reqs u).state = .completed := by rw [hreq₂]
  have hpdu₂ : (s₂.reqs u).pdu = none := by rw [hreq₂]; exact hpdu'
  have hpair₂ : (s₂.reqs u).fusedPair = some t := by rw [hreq₂]; exact hback
  -- the request that is told is in COMPLETED, so the partner goes no further
  have hstop : kickPartner Q n u t s₂ = failPartner Q u t s₂ := by
    rw [kickPartner, if_neg]
    rw [Completing.state_failPartner hut.symm, hdone₂.state]
    decide
  rw [atCompleted_succ hpdu₂, hpair₂]
  dsimp only
  rw [hstop]
  have hgone := givenBack_told (Q := Q) (u := t) hs₂ hpdu₂
  generalize nvmfTcpReqPut u _ = s₃ at *
  have hunlink : SameBut [t] s₃ (s₃.setReq t fun r => { r with fusedPair := none }) :=
    .setReq (.inl (List.mem_singleton_self t)) rfl
  refine (hsame.trans hend).givenBack (hgone.put hunlink ?_ (by simp))
  rw [TcpQpair.reqs_setReq_self, hgone.left t (by simpa using hut.symm)]
  exact ⟨hdone₂.state, hdone₂.dataFromPool, hdone₂.pdu⟩

/-- The request itself, and its partner if that waits. -/
def TcpQpair.leaving (s : TcpQpair) (t : ℕ) : List ℕ :=
  match (s.reqs t).fusedPair with
  | none => [t]
  | some u => if (s.reqs u).state = .readyToExecute then [u, t] else [t]

/-- **A request that is not being written is given back, with a partner that waits.** -/
theorem givenBack_requestFree {n : ℕ} (hn : Q.resourceCount = n + 1) (hoff : s.active = false)
    (hpdu : (s.reqs t).pdu = none) (hready : (s.reqs t).state ≠ .readyToExecute)
    (hpair : ∀ u, (s.reqs t).fusedPair = some u → (s.reqs u).state = .readyToExecute →
      (s.reqs u).fusedPair = some t ∧ (s.reqs u).pdu = none) :
    GivenBack (s.leaving t) s (nvmfTcpRequestFree Q t s) := by
  have hend : ∀ {xs}, t ∈ xs → SameBut xs s (s.setReq t fun r => { r with state := .completed }) :=
    fun hx => .setReq (.inl hx) rfl
  have hreq : (s.setReq t fun r => { r with state := .completed }).reqs t =
      { s.reqs t with state := .completed } := TcpQpair.reqs_setReq_self _ _ _
  have hother : ∀ {v}, v ≠ t → (s.setReq t fun r => { r with state := .completed }).reqs v =
      s.reqs v := fun hv => TcpQpair.reqs_setReq_of_ne _ _ _ hv
  rw [requestFree_of_inactive hoff, completeReq, atCompleted_succ (by rw [hreq]; exact hpdu), hreq,
    TcpQpair.leaving]
  generalize (s.setReq t fun r => { r with state := .completed }) = s₁ at *
  have hs₁ : (s₁.reqs t).state = .completed := by rw [hreq]
  have hpdu₁ : (s₁.reqs t).pdu = none := by rw [hreq]; exact hpdu
  have hself : t ∈ [t] := List.mem_singleton_self t
  dsimp only
  cases hcase : (s.reqs t).fusedPair with
  | none =>
    refine (GivenBack.nil s).put ((hend hself).trans (.giveUp hs₁ hpdu₁ hself))
      (giveUp_self hs₁ hpdu₁) ?_
    rw [fusedPair_giveUp, hreq]
    exact hcase
  | some u =>
    have hstate : ((failPartner Q t u s₁).reqs u).state = .readyToExecute ↔
        (s.reqs u).state = .readyToExecute := by
      by_cases hut : u = t
      · subst hut
        simp [(done_failPartner (Q := Q) (u := u) hs₁ hpdu₁).state, hready]
      · rw [Completing.state_failPartner hut, hother hut]
    simp only [kickPartner, hstate]
    split_ifs with hu
    · have hut : u ≠ t := by
        rintro rfl
        exact hready hu
      obtain ⟨hback, hpdu'⟩ := hpair u hcase hu
      rw [hn]
      rw [← hother hut] at hback hpdu'
      have hsame : SameBut [u, t] s s₁ := hend (by simp)
      exact hsame.givenBack
        (givenBack_waiting (hsame.active.trans hoff) hs₁ hpdu₁ hut hback hpdu')
    · exact (hend hself).givenBack (givenBack_told hs₁ hpdu₁)

end GivenBack

end NdpHeaan
