import NdpHeaan.Tcp.Cleanup

/-!
# Tcp/Reclaim — what destroying a TCP qpair gives back

Every visit of a drain leaves a request alone, gives it back, or is stopped by a PDU whose digest is
still to be computed.  So three kinds of requests outlive `nvmf_tcp_cleanup_all_states`: one with
such a PDU, one that waits in READY_TO_EXECUTE for a command that never came, and one that lies in
the queue behind a pair of which the FIRST is in the same state and the SECOND waits for it.
-/

open Machinery

namespace NdpHeaan

/-! ## A closed qpair -/

/-- The states `nvmf_tcp_cleanup_all_states` has in its list. -/
def TcpReqState.Drained (state : TcpReqState) : Prop :=
  state ∈ [.transferringC2h, .new, .needBuffer, .executing, .transferringH2c, .awaitingR2tAck]
  deriving Decidable

/-- As requests are while the qpair is destroyed: no PDU is in the socket. -/
def TcpReq.Lingers (r : TcpReq) : Prop :=
  r.pdu = none ∧ (r.state.Drained ∨ r.state = .readyToExecute) ∨
    r.pdu = some (.c2hData true) ∧ (r.state = .transferringC2h ∨ r.state = .completed)

/-- **A qpair whose socket is closed**, before and between the visits. -/
structure Closing (Q : QpCtx) (s : TcpQpair) : Prop where
  parting : Parting s
  slots : (s.working ++ s.free).Perm Q.slots
  idle : ∀ t ∈ s.free, (s.reqs t).Idle
  pairs : ∀ t ∈ s.working, ∀ u, (s.reqs t).fusedPair = some u → u ∈ Q.slots
  pool : ∀ t ∈ Q.slots, poolHeld t s.log = some (s.reqs t).held
  queued : ∀ t, .own t ∈ s.pending → t ∈ s.working ∧ (s.reqs t).state = .needBuffer
  once : (s.pending.filterMap Waiter.slot?).Nodup
  ordered : s.working.Pairwise fun t u => (s.reqs t).arrival < (s.reqs u).arrival
  lingers : ∀ t ∈ s.working, (s.reqs t).Lingers

theorem TcpReqState.Drained.cases {state : TcpReqState} (h : state.Drained) :
    state ≠ .readyToExecute ∧ state ≠ .free ∧ state ≠ .completed := by
  cases state <;> simp [Drained] at h ⊢

theorem TcpReqState.Drained.mem {state : TcpReqState} (h : state.Drained) :
    state ∈
      [.awaitingR2tAck, .transferringH2c, .executing, .needBuffer, .new, .transferringC2h] := by
  cases state <;> simp [Drained] at h ⊢

/-- A visit of a drain. -/
inductive Visited (state : TcpReqState) (t : ℕ) (s : TcpQpair) : TcpQpair → Prop
  | skip (hs : (s.reqs t).state ≠ state) : Visited state t s s
  | stuck (ht : t ∈ s.working) (hs : (s.reqs t).state = state)
      (hpdu : (s.reqs t).pdu = some (.c2hData true)) :
      Visited state t s (s.setReq t fun r => { r with state := .completed })
  | back {s' : TcpQpair} (ht : t ∈ s.working) (hs : (s.reqs t).state = state)
      (hpdu : (s.reqs t).pdu = none) (hback : GivenBack (s.leaving t) s s') : Visited state t s s'

namespace Closing

variable {Q : QpCtx} {s s' : TcpQpair} {state : TcpReqState} {t u x : ℕ}

theorem nodup (h : Closing Q s) : (s.working ++ s.free).Nodup :=
  h.slots.nodup_iff.mpr List.nodup_range'

theorem nodup_working (h : Closing Q s) : s.working.Nodup := h.nodup.of_append_left

theorem mem_slots (h : Closing Q s) (ht : t ∈ s.working) : t ∈ Q.slots :=
  h.slots.mem_iff.mp (List.mem_append_left _ ht)

theorem mem_working (h : Closing Q s) (ht : t ∈ Q.slots) (hs : (s.reqs t).state ≠ .free) :
    t ∈ s.working :=
  (List.mem_append.mp (h.slots.mem_iff.mpr ht)).resolve_right fun hf => hs (h.idle t hf).state

theorem pdu_of_ready (h : Closing Q s) (ht : t ∈ s.working)
    (hs : (s.reqs t).state = .readyToExecute) : (s.reqs t).pdu = none := by
  rcases h.lingers t ht with ⟨hpdu, -⟩ | ⟨-, hs' | hs'⟩
  · exact hpdu
  · cases hs.symm.trans hs'
  · cases hs.symm.trans hs'

/-- A partner that waits links back. -/
theorem waiting (h : Closing Q s) (ht : t ∈ s.working) (hpair : (s.reqs t).fusedPair = some u)
    (hu : (s.reqs u).state = .readyToExecute) :
    u ∈ s.working ∧ (s.reqs u).fusedPair = some t ∧ (s.reqs u).pdu = none := by
  have huw := h.mem_working (h.pairs t ht u hpair) (by simp [hu])
  exact ⟨huw, h.parting.asked t ht u huw hpair hu, h.pdu_of_ready huw hu⟩

/-- **What a visit can do.** -/
theorem visited (h : Closing Q s) (hstate : state.Drained) (ht : t ∈ Q.slots) :
    Visited state t s (drainVisit Q state t s) := by
  obtain ⟨hready, hfree, hcompleted⟩ := hstate.cases
  unfold drainVisit
  split_ifs with hs
  · have htw : t ∈ s.working := h.mem_working ht (hs ▸ hfree)
    rcases h.lingers t htw with ⟨hpdu, -⟩ | ⟨hpdu, -⟩
    · have hcount : Q.resourceCount ≠ 0 := by
        intro hzero
        rw [QpCtx.slots, hzero] at ht
        exact absurd ht List.not_mem_nil
      obtain ⟨n, hn⟩ := Nat.exists_eq_succ_of_ne_zero hcount
      refine .back htw hs hpdu (givenBack_requestFree hn h.parting.inactive hpdu (hs ▸ hready) ?_)
      exact fun u hpair hu => (h.waiting htw hpair hu).2
    · have hstuck : nvmfTcpRequestFree Q t s =
          s.setReq t fun r => { r with state := .completed } := by
        rw [requestFree_of_inactive h.parting.inactive, completeReq, atCompleted, if_pos]
        simp [hpdu]
      rw [hstuck]
      exact .stuck htw hs hpdu
  · exact .skip hs

/-! ## What a visit keeps -/

theorem mem_leaving : x ∈ s.leaving t ↔
    x = t ∨ (s.reqs t).fusedPair = some x ∧ (s.reqs x).state = .readyToExecute := by
  unfold TcpQpair.leaving
  cases (s.reqs t).fusedPair with
  | none => simp
  | some u =>
    dsimp only
    split_ifs with hu
    · simp only [List.mem_cons, List.not_mem_nil, or_false, Option.some.injEq]
      constructor
      · rintro (rfl | rfl)
        · exact .inr ⟨rfl, hu⟩
        · exact .inl rfl
      · rintro (rfl | ⟨rfl, -⟩)
        · exact .inr rfl
        · exact .inl rfl
    · simp only [List.mem_singleton, Option.some.injEq, iff_self_or]
      rintro ⟨rfl, hx⟩
      exact absurd hx hu

theorem leaving_subset (h : Closing Q s) (ht : t ∈ s.working) :
    ∀ x ∈ s.leaving t, x ∈ s.working := by
  intro x hx
  rcases mem_leaving.mp hx with rfl | ⟨hpair, hs⟩
  · exact ht
  · exact (h.waiting ht hpair hs).1

theorem nodup_leaving (hs : (s.reqs t).state ≠ .readyToExecute) : (s.leaving t).Nodup := by
  unfold TcpQpair.leaving
  split
  · exact List.nodup_singleton t
  · split_ifs with hu
    · have hut : ¬ _ = t := fun he => hs (he ▸ hu)
      simp [hut]
    · exact List.nodup_singleton t

/-- Of the requests that stay, one that waits does not wait for one that leaves. -/
theorem notMem_leaving (h : Closing Q s) (hu : u ∈ s.working) (hleft : u ∉ s.leaving t)
    (hready : (s.reqs u).state = .readyToExecute) (hpair : (s.reqs u).fusedPair = some x) :
    x ∉ s.leaving t := by
  obtain ⟨-, hnot, hback, -⟩ := h.parting.waits u hu hready x hpair
  intro hx
  rcases mem_leaving.mp hx with rfl | ⟨-, hx'⟩
  · exact hleft (mem_leaving.mpr (.inr ⟨hback, hready⟩))
  · exact hnot hx'

theorem mem_givenBack (h : Closing Q s) (hback : GivenBack (s.leaving t) s s') {v : ℕ} :
    v ∈ s'.working ↔ v ∈ s.working ∧ v ∉ s.leaving t := by
  rw [hback.working]
  exact h.nodup_working.mem_sdiff_iff

theorem notMem_leaving_of_free (h : Closing Q s) (ht : t ∈ s.working) {v : ℕ} (hv : v ∈ s.free) :
    v ∉ s.leaving t := fun hgone =>
  List.disjoint_of_nodup_append h.nodup (h.leaving_subset ht _ hgone) hv

/-- The pairs that are left, where a request is given back with its partner. -/
theorem parting_givenBack (h : Closing Q s) (ht : t ∈ s.working)
    (hback : GivenBack (s.leaving t) s s') : Parting s' := by
  have hready : ∀ {v}, v ∈ s'.working → (s'.reqs v).state = .readyToExecute → v ∈ s.working ∧
      v ∉ s.leaving t ∧ (s.reqs v).state = .readyToExecute := by
    intro v hv hs'
    obtain ⟨hvw, hvl⟩ := (h.mem_givenBack hback).mp hv
    rw [hback.left v hvl] at hs'
    exact ⟨hvw, hvl, hs'⟩
  exact {
    inactive := hback.active.trans h.parting.inactive
    clean := fun v hv => by
      rw [hback.free, List.mem_append] at hv
      rcases hv with hv | hv
      · rw [hback.left v (h.notMem_leaving_of_free ht hv)]
        exact h.parting.clean v hv
      · exact (hback.idle v hv).2
    waits := fun v hv hs' x hx => by
      obtain ⟨hvw, hvl, hvs⟩ := hready hv hs'
      rw [hback.left v hvl] at hx
      have hxl := h.notMem_leaving hvw hvl hvs hx
      obtain ⟨hxw, hnot, hxback, hleads⟩ := h.parting.waits v hvw hvs x hx
      rw [hback.left v hvl, hback.left x hxl]
      exact ⟨(h.mem_givenBack hback).mpr ⟨hxw, hxl⟩, hnot, hxback, hleads⟩
    asked := fun v hv x hx hpair hs' => by
      obtain ⟨hvw, hvl⟩ := (h.mem_givenBack hback).mp hv
      obtain ⟨hxw, hxl, hxs⟩ := hready hx hs'
      rw [hback.left v hvl] at hpair
      rw [hback.left x hxl]
      exact h.parting.asked v hvw x hxw hpair hxs }

theorem slots_givenBack (h : Closing Q s) (ht : t ∈ s.working)
    (hs : (s.reqs t).state ≠ .readyToExecute) (hback : GivenBack (s.leaving t) s s') :
    (s'.working ++ s'.free).Perm Q.slots := by
  have hperm : (s.leaving t ++ s.working.diff (s.leaving t)).Perm s.working :=
    List.subperm_append_diff_self_of_count_le
      (List.subperm_ext_iff.mp ((nodup_leaving hs).subperm (h.leaving_subset ht)))
  rw [hback.working, hback.free]
  refine .trans ?_ ((hperm.append_right s.free).trans h.slots)
  rw [← List.append_assoc]
  refine .trans List.perm_append_comm ?_
  rw [← List.append_assoc]

/-- A request is given back, with a partner that waits. -/
theorem givenBack (h : Closing Q s) (ht : t ∈ s.working)
    (hs : (s.reqs t).state ≠ .readyToExecute) (hline : .own t ∉ s.pending)
    (hback : GivenBack (s.leaving t) s s') : Closing Q s' := by
  have hmem : ∀ {v}, v ∈ s'.working ↔ v ∈ s.working ∧ v ∉ s.leaving t := h.mem_givenBack hback
  refine {
    parting := h.parting_givenBack ht hback
    slots := h.slots_givenBack ht hs hback
    idle := fun v hv => ?_
    pairs := fun v hv u hu => ?_
    pool := fun v hv => hback.pool v (h.pool v hv)
    queued := fun v hv => ?_
    once := hback.pending ▸ h.once
    ordered := ?_
    lingers := fun v hv => ?_ }
  · rw [hback.free, List.mem_append] at hv
    rcases hv with hv | hv
    · have hidle := h.idle v hv
      rw [hback.left v (h.notMem_leaving_of_free ht hv)]
      exact ⟨hidle.state, hidle.dataFromPool, hidle.pdu⟩
    · exact (hback.idle v hv).1
  · obtain ⟨hvw, hvl⟩ := hmem.mp hv
    rw [hback.left v hvl] at hu
    exact h.pairs v hvw u hu
  · rw [hback.pending] at hv
    obtain ⟨hvw, hvs⟩ := h.queued v hv
    have hvl : v ∉ s.leaving t := by
      intro hgone
      rcases mem_leaving.mp hgone with rfl | ⟨-, hvs'⟩
      · exact hline hv
      · cases hvs.symm.trans hvs'
    rw [hback.left v hvl]
    exact ⟨hmem.mpr ⟨hvw, hvl⟩, hvs⟩
  · have hordered := h.ordered.sublist (hback.working ▸ List.diff_sublist _ _)
    refine hordered.imp_of_mem fun {v x} hv hx hlt => ?_
    rwa [hback.left v (hmem.mp hv).2, hback.left x (hmem.mp hx).2]
  · obtain ⟨hvw, hvl⟩ := hmem.mp hv
    rw [hback.left v hvl]
    exact h.lingers v hvw

/-- A request changes, but neither waits nor needs a buffer, and keeps its links and its number. -/
theorem setReq {f : TcpReq → TcpReq} (h : Closing Q s) (ht : t ∈ s.working)
    (hfuse : (f (s.reqs t)).cmd.fuse = (s.reqs t).cmd.fuse)
    (harrival : (f (s.reqs t)).arrival = (s.reqs t).arrival)
    (hpair : (f (s.reqs t)).fusedPair = (s.reqs t).fusedPair)
    (hheld : (f (s.reqs t)).held = (s.reqs t).held)
    (hready : (f (s.reqs t)).state = .readyToExecute → (s.reqs t).state = .readyToExecute)
    (hneed : (s.reqs t).state = .needBuffer → (f (s.reqs t)).state = .needBuffer)
    (hlingers : (f (s.reqs t)).Lingers) : Closing Q (s.setReq t f) where
  parting := h.parting.setReq hfuse harrival hpair hready
  slots := h.slots
  idle := fun v hv => by
    have hvt : v ≠ t := by
      rintro rfl
      exact List.disjoint_of_nodup_append h.nodup ht hv
    rw [TcpQpair.reqs_setReq_of_ne _ _ _ hvt]
    exact h.idle v hv
  pairs := fun v hv u hu => by
    rw [TcpQpair.reqs_setReq] at hu
    split_ifs at hu with hvt
    · exact h.pairs v hv u (hvt ▸ hpair ▸ hu)
    · exact h.pairs v hv u hu
  pool := fun v hv => by
    rw [TcpQpair.reqs_setReq]
    split_ifs with hvt
    · rw [hheld, ← hvt]
      exact h.pool v hv
    · exact h.pool v hv
  queued := fun v hv => by
    obtain ⟨hvw, hvs⟩ := h.queued v hv
    refine ⟨hvw, ?_⟩
    rw [TcpQpair.reqs_setReq]
    split_ifs with hvt
    · exact hneed (hvt ▸ hvs)
    · exact hvs
  once := h.once
  ordered := by
    have hnumber : ∀ v, ((s.setReq t f).reqs v).arrival = (s.reqs v).arrival :=
      TcpQpair.field_setReq TcpReq.arrival harrival
    simp only [hnumber]
    exact h.ordered
  lingers := fun v hv => by
    rw [TcpQpair.reqs_setReq]
    split_ifs
    · exact hlingers
    · exact h.lingers v hv

/-- The requests in line are not those a drain is after. -/
theorem notMem_pending (h : Closing Q s) (hs : (s.reqs t).state = state)
    (hline : state = .needBuffer → ∀ v, .own v ∉ s.pending) : .own t ∉ s.pending := fun hmem =>
  hline (hs.symm.trans (h.queued t hmem).2) t hmem

/-- **A visit leaves a closed qpair closed.** -/
theorem visit (h : Closing Q s) (hstate : state.Drained)
    (hline : state = .needBuffer → ∀ v, .own v ∉ s.pending) (hv : Visited state t s s') :
    Closing Q s' ∧ s'.pending = s.pending := by
  cases hv with
  | skip => exact ⟨h, rfl⟩
  | stuck ht hs hpdu =>
    have hs' : (s.reqs t).state ≠ .needBuffer := by
      rcases h.lingers t ht with ⟨hnone, -⟩ | ⟨-, hs' | hs'⟩
      · cases hpdu.symm.trans hnone
      · simp [hs']
      · simp [hs']
    exact ⟨h.setReq ht rfl rfl rfl rfl nofun (absurd · hs') (.inr ⟨hpdu, .inr rfl⟩), rfl⟩
  | back ht hs hpdu hback =>
    exact ⟨h.givenBack ht (hs ▸ hstate.cases.1) (h.notMem_pending hs hline) hback, hback.pending⟩

theorem nextLink_mem (h : Closing Q s) (hu : s.nextLink t = some u) : u ∈ Q.slots := by
  unfold TcpQpair.nextLink at hu
  split_ifs at hu
  · exact h.mem_slots (mem_of_nextIn hu)
  · exact h.slots.mem_iff.mp (List.mem_append_right _ (mem_of_nextIn hu))

/-- The successor of a request that works. -/
theorem nextLink_eq (h : Closing Q s) {pre rest : List ℕ} (hw : s.working = pre ++ t :: rest) :
    s.nextLink t = rest.head? := by
  have hmem : t ∈ s.working := hw ▸ List.mem_append_right _ (List.mem_cons_self ..)
  have hnodup := h.nodup_working
  rw [TcpQpair.nextLink, if_pos hmem, hw]
  rw [hw] at hnodup
  exact nextIn_append fun hpre => List.disjoint_of_nodup_append hnodup hpre (List.mem_cons_self ..)

/-- **What every visit keeps, a drain keeps.** -/
theorem drain_keep {P : TcpQpair → Prop} (h : Closing Q s) (hstate : state.Drained)
    (hline : state = .needBuffer → ∀ v, .own v ∉ s.pending) (hP : P s)
    (hkeep : ∀ t s s', Closing Q s → P s → Visited state t s s' → P s') :
    Closing Q (nvmfTcpDrainStateQueue Q state s) ∧
      (nvmfTcpDrainStateQueue Q state s).pending = s.pending ∧
        P (nvmfTcpDrainStateQueue Q state s) := by
  let K (c : Option ℕ) (s' : TcpQpair) : Prop :=
    (∀ t, c = some t → t ∈ Q.slots) ∧ Closing Q s' ∧ s'.pending = s.pending ∧ P s'
  have hK : ∀ t s', K (some t) s' → K (s'.nextLink t) (drainVisit Q state t s') := by
    rintro t s' ⟨ht, h', hpending, hP'⟩
    have hvisited := h'.visited hstate (ht t rfl)
    obtain ⟨h'', hpending'⟩ := h'.visit hstate (hpending ▸ hline) hvisited
    exact ⟨fun u hu => h'.nextLink_mem hu, h'', hpending'.trans hpending,
      hkeep t s' _ h' hP' hvisited⟩
  have hhead : ∀ t, s.working.head? = some t → t ∈ Q.slots := fun t ht =>
    h.mem_slots (List.mem_of_mem_head? ht)
  obtain ⟨c, -, hrest⟩ := foreachSafe_keep hK (n := Q.resourceCount + 2) ⟨hhead, h, rfl, hP⟩
  exact hrest

end Closing

/-! ## The socket is closed -/

/-- What closing the socket changes of a request. -/
def TcpReq.unsent (r : TcpReq) : TcpReq := if r.inSocket then { r with pdu := none } else r

section Close

variable {Q : QpCtx} {s : TcpQpair}

theorem TcpReq.unsent_cases (r : TcpReq) :
    ∃ pdu, r.unsent = { r with pdu } ∧ (pdu = none ∨ pdu = some (.c2hData true) ∧ r.pdu = pdu) := by
  unfold unsent inSocket
  split_ifs with h
  · exact ⟨none, rfl, .inl rfl⟩
  · refine ⟨r.pdu, rfl, ?_⟩
    by_cases hpdu : r.pdu = none
    · exact .inl hpdu
    · exact .inr ⟨by simpa [hpdu] using h, rfl⟩

/-- No request is in COMPLETED, so the writes that end give none back. -/
theorem foldl_sockClose : ∀ (queue : List ℕ) (s : TcpQpair), queue.Nodup →
    (∀ t ∈ queue, (s.reqs t).state ≠ .completed) →
    ∃ recv, queue.foldl (fun s t => if (s.reqs t).inSocket then reqPduWriteFailed Q t s else s) s =
      { s with recv, reqs := fun t => if t ∈ queue then (s.reqs t).unsent else s.reqs t }
  | [], s, _, _ => ⟨s.recv, by simp⟩
  | t :: queue, s, hnodup, hstate => by
    obtain ⟨ht, hnodup'⟩ := List.nodup_cons.mp hnodup
    have hfirst : ∃ recv, (if (s.reqs t).inSocket then reqPduWriteFailed Q t s else s) =
        { s.setReq t TcpReq.unsent with recv } := by
      have hs : (s.reqs t).state ≠ .completed := hstate t (List.mem_cons_self ..)
      unfold reqPduWriteFailed TcpQpair.setReq TcpReq.unsent
      rw [if_neg hs]
      split_ifs
      · exact ⟨_, rfl⟩
      · exact ⟨s.recv, by rw [Function.update_eq_self, shift_self]⟩
    obtain ⟨recv, hfirst⟩ := hfirst
    have hother : ∀ {u}, u ∈ queue → u ≠ t := fun hu he => ht (he ▸ hu)
    rw [List.foldl_cons, hfirst]
    have hnext := foldl_sockClose queue { s.setReq t TcpReq.unsent with recv } hnodup'
      fun u hu => by
        dsimp only
        rw [TcpQpair.reqs_setReq_of_ne _ _ _ (hother hu)]
        exact hstate u (List.mem_cons_of_mem _ hu)
    obtain ⟨recv', hrest⟩ := hnext
    have hcount : (s.setReq t TcpReq.unsent).stateCntr = s.stateCntr := by
      obtain ⟨pdu, hunsent, -⟩ := (s.reqs t).unsent_cases
      exact TcpQpair.stateCntr_setReq (by rw [hunsent])
    refine ⟨recv', hrest.trans ?_⟩
    rw [hcount]
    congr 1
    funext v
    by_cases hvt : v = t
    · subst hvt
      simp [ht]
    · simp [hvt]

/-- Closing the socket changes which PDUs are out. -/
theorem spdkSockClose_eq (h : Sound Q s) : ∃ recv, ∃ pdu : ℕ → Option OutPdu,
    spdkSockClose Q s =
      { s with recv, pdus := [], reqs := fun t => { s.reqs t with pdu := pdu t } } ∧
    ∀ t, { s.reqs t with pdu := pdu t } =
      if t ∈ s.working then (s.reqs t).unsent else s.reqs t := by
  have hstate : ∀ t ∈ s.working, (s.reqs t).state ≠ .completed := fun t ht hs => by
    have hrest := h.rest t ht (Set.notMem_empty t)
    simp [TcpReq.AtRest, hs] at hrest
  obtain ⟨recv, hfold⟩ := foldl_sockClose (Q := Q) _ s h.nodup.of_append_left hstate
  have hreq : ∀ t, ∃ pdu,
      { s.reqs t with pdu } = if t ∈ s.working then (s.reqs t).unsent else s.reqs t := by
    intro t
    split_ifs
    · obtain ⟨pdu, hunsent, -⟩ := (s.reqs t).unsent_cases
      exact ⟨pdu, hunsent.symm⟩
    · exact ⟨(s.reqs t).pdu, rfl⟩
  choose pdu hpdu using hreq
  exact ⟨recv, pdu, by rw [spdkSockClose, hfold, funext hpdu], hpdu⟩

/-- A request at rest lingers once no PDU of it is in the socket. -/
theorem TcpReq.AtRest.lingers {r : TcpReq} (h : r.AtRest) : r.unsent.Lingers := by
  obtain ⟨pdu, hunsent, hpdu⟩ := r.unsent_cases
  rw [hunsent]
  rcases hpdu with rfl | ⟨rfl, hpdu⟩
  · refine .inl ⟨rfl, ?_⟩
    cases hs : r.state <;> simp_all [AtRest, TcpReqState.Drained]
  · refine .inr ⟨rfl, .inl ?_⟩
    cases hs : r.state <;> simp_all [AtRest]

/-- **A qpair that is not active is closed by closing its socket.** -/
theorem closing_spdkSockClose (h : Sound Q s) (hnamed : Named s) (hparting : Parting s) :
    Closing Q (spdkSockClose Q s) := by
  obtain ⟨recv, pdu, heq, hpdu⟩ := spdkSockClose_eq h
  rw [heq]
  have hlingers : ∀ t ∈ s.working, TcpReq.Lingers { s.reqs t with pdu := pdu t } := by
    intro t ht
    rw [hpdu t, if_pos ht]
    exact (h.rest t ht (Set.notMem_empty t)).lingers
  have hidle : ∀ t ∈ s.free, TcpReq.Idle { s.reqs t with pdu := pdu t } := by
    intro t ht
    rw [hpdu t, if_neg fun hw => List.disjoint_of_nodup_append h.nodup hw ht]
    exact h.idle t ht
  exact {
    parting := { hparting with }
    slots := h.slots
    idle := hidle
    pairs := fun t ht => h.pairs t (h.mem_slots_of_working ht)
    pool := h.pool
    queued := fun t ht => ⟨((h.queued t).mp ht).1, ((h.queued t).mp ht).2.2⟩
    once := h.once
    ordered := hnamed.ordered
    lingers := hlingers }

end Close

/-! ## What outlives the drains -/

/-- **Nothing outlives the drains.** -/
structure Drains (s : TcpQpair) : Prop where
  /-- No digest of a PDU is still to be computed. -/
  written : ∀ t ∈ s.working, (s.reqs t).pdu ≠ some (.c2hData true)
  /-- Whoever waits has a partner. -/
  paired : ∀ u ∈ s.working, (s.reqs u).state = .readyToExecute → (s.reqs u).fusedPair ≠ none
  /-- Behind a SECOND that waits, no request is in the state of its FIRST. -/
  last : ∀ t ∈ s.working, ∀ u ∈ s.working, (s.reqs t).fusedPair = some u →
    (s.reqs u).state = .readyToExecute → (s.reqs t).Leads (s.reqs u) →
      ∀ v ∈ s.working, (s.reqs u).arrival < (s.reqs v).arrival → (s.reqs v).state ≠ (s.reqs t).state

/-- A SECOND `u` waits for the FIRST `t`, and behind it is `v`, in the state of `t`. -/
structure Trapped (state : TcpReqState) (t u v : ℕ) (s : TcpQpair) : Prop where
  lead : t ∈ s.working
  second : u ∈ s.working
  behind : v ∈ s.working
  state_lead : (s.reqs t).state = state
  state_second : (s.reqs u).state = .readyToExecute
  state_behind : (s.reqs v).state = state
  pair : (s.reqs t).fusedPair = some u
  leads : (s.reqs t).Leads (s.reqs u)
  later : (s.reqs u).arrival < (s.reqs v).arrival

namespace Closing

variable {Q : QpCtx} {s s' : TcpQpair} {state state' : TcpReqState} {t u v x : ℕ}

/-- A request that is not visited stays, unless it waits for the one that is. -/
theorem stays (h : Closing Q s) (hv : Visited state t s s') (hx : x ∈ s.working)
    (hne : (s.reqs t).state = state → x ≠ t)
    (hwait : (s.reqs x).state = .readyToExecute → (s.reqs x).fusedPair = some t →
      (s.reqs t).state ≠ state) :
    x ∈ s'.working ∧ s'.reqs x = { s.reqs x with fusedFailed := (s'.reqs x).fusedFailed } := by
  cases hv with
  | skip => exact ⟨hx, rfl⟩
  | stuck ht hs hpdu => exact ⟨hx, by rw [TcpQpair.reqs_setReq_of_ne _ _ _ (hne hs)]⟩
  | back ht hs hpdu hback =>
    have hleft : x ∉ s.leaving t := by
      intro hmem
      rcases mem_leaving.mp hmem with rfl | ⟨hpair, hready⟩
      · exact hne hs rfl
      · exact hwait hready (h.waiting ht hpair hready).2.1 hs
    refine ⟨?_, hback.left x hleft⟩
    rw [hback.working]
    exact h.nodup_working.mem_sdiff_iff.mpr ⟨hx, hleft⟩

/-- A request in another state stays there. -/
theorem stays_of_ne (h : Closing Q s) (hstate : state.Drained) (hne : state ≠ state')
    (hv : Visited state' t s s') (hx : x ∈ s.working ∧ (s.reqs x).state = state) :
    x ∈ s'.working ∧ (s'.reqs x).state = state := by
  obtain ⟨hxw, hs⟩ := hx
  have hxt : (s.reqs t).state = state' → x ≠ t := by
    rintro hs' rfl
    exact hne (hs.symm.trans hs')
  obtain ⟨hmem, hreq⟩ := h.stays hv hxw hxt (absurd · (hs ▸ hstate.cases.1))
  exact ⟨hmem, by rw [hreq]; exact hs⟩

/-- A request whose digest is still to be computed stays. -/
theorem stays_unwritten (h : Closing Q s) (hv : Visited state t s s')
    (hx : x ∈ s.working ∧ (s.reqs x).pdu = some (.c2hData true)) :
    x ∈ s'.working ∧ (s'.reqs x).pdu = some (.c2hData true) := by
  by_cases hxt : x = t
  · subst hxt
    cases hv with
    | skip => exact hx
    | stuck ht hs hpdu => exact ⟨ht, by simpa using hpdu⟩
    | back ht hs hpdu hback => cases hx.2.symm.trans hpdu
  · have hready : (s.reqs x).state ≠ .readyToExecute := fun hs => by
      cases hx.2.symm.trans (h.pdu_of_ready hx.1 hs)
    obtain ⟨hmem, hreq⟩ := h.stays hv hx.1 (fun _ => hxt) (absurd · hready)
    exact ⟨hmem, by rw [hreq]; exact hx.2⟩

/-- A request that waits without a partner stays. -/
theorem stays_alone (h : Closing Q s) (hstate : state.Drained) (hv : Visited state t s s')
    (hx : x ∈ s.working ∧ (s.reqs x).state = .readyToExecute ∧ (s.reqs x).fusedPair = none) :
    x ∈ s'.working ∧ (s'.reqs x).state = .readyToExecute ∧ (s'.reqs x).fusedPair = none := by
  obtain ⟨hxw, hready, hpair⟩ := hx
  have hne : (s.reqs t).state = state → x ≠ t := by
    rintro hs rfl
    exact hstate.cases.1 (hs ▸ hready)
  obtain ⟨hmem, hreq⟩ := h.stays hv hxw hne fun _ ht => by cases hpair.symm.trans ht
  rw [hreq]
  exact ⟨hmem, hready, hpair⟩

/-- The three stay unless the FIRST or the one behind is visited. -/
theorem stays_trapped (h : Closing Q s) (hstate : state.Drained) (hstate' : state'.Drained)
    (hv : Visited state' x s s') (hne : (s.reqs x).state = state' → t ≠ x ∧ v ≠ x)
    (ht : Trapped state t u v s) : Trapped state t u v s' := by
  have hready : state ≠ .readyToExecute := hstate.cases.1
  obtain ⟨htw, htr⟩ :=
    h.stays hv ht.lead (fun hs => (hne hs).1) (absurd · (ht.state_lead ▸ hready))
  obtain ⟨hvw, hvr⟩ :=
    h.stays hv ht.behind (fun hs => (hne hs).2) (absurd · (ht.state_behind ▸ hready))
  have hux : (s.reqs x).state = state' → u ≠ x := by
    rintro hs rfl
    exact hstate'.cases.1 (hs ▸ ht.state_second)
  have hwait : (s.reqs u).fusedPair = some x → (s.reqs x).state ≠ state' := by
    intro hpair hs
    obtain ⟨-, hback, -⟩ := h.waiting ht.lead ht.pair ht.state_second
    exact (hne hs).1 (Option.some.inj (hback.symm.trans hpair))
  obtain ⟨huw, hur⟩ := h.stays hv ht.second hux fun _ => hwait
  refine ⟨htw, huw, hvw, ?_, ?_, ?_, ?_, ?_, ?_⟩
  · rw [htr]; exact ht.state_lead
  · rw [hur]; exact ht.state_second
  · rw [hvr]; exact ht.state_behind
  · rw [htr]; exact ht.pair
  · rw [htr, hur]; exact ht.leads
  · rw [hur, hvr]; exact ht.later

/-! ## One drain, visit by visit -/

/-- In the queue a SECOND comes right behind its FIRST. -/
theorem rest_eq (h : Closing Q s) {pre rest : List ℕ} (hw : s.working = pre ++ t :: rest)
    (hu : u ∈ s.working) (hnext : (s.reqs u).arrival = (s.reqs t).arrival + 1) :
    ∃ rest', rest = u :: rest' := by
  have hordered := h.ordered
  rw [hw, List.pairwise_append, List.pairwise_cons] at hordered
  obtain ⟨-, ⟨hbehind, hrest⟩, hbefore⟩ := hordered
  rw [hw, List.mem_append, List.mem_cons] at hu
  rcases hu with hu | rfl | hu
  · have hlt := hbefore u hu t (List.mem_cons_self ..)
    omega
  · omega
  · cases rest with
    | nil => cases hu
    | cons a rest' =>
      refine ⟨rest', ?_⟩
      rcases List.mem_cons.mp hu with rfl | hu'
      · rfl
      · have hta := hbehind a (List.mem_cons_self ..)
        have hau := (List.pairwise_cons.mp hrest).1 u hu'
        omega

/-- And a FIRST somewhere before its SECOND. -/
theorem mem_pre (h : Closing Q s) {pre rest : List ℕ} (hw : s.working = pre ++ t :: rest)
    (hu : u ∈ s.working) (hlt : (s.reqs u).arrival < (s.reqs t).arrival) : u ∈ pre := by
  have hordered := h.ordered
  rw [hw, List.pairwise_append, List.pairwise_cons] at hordered
  rw [hw, List.mem_append, List.mem_cons] at hu
  rcases hu with hu | rfl | hu
  · exact hu
  · omega
  · have hlt' := hordered.2.1.1 u hu
    omega

/-- A walk that gets into the free queue does nothing any more. -/
theorem foreachSafe_free (h : Closing Q s) (hstate : state.Drained) (hu : u ∈ s.free) (n : ℕ) :
    foreachSafe TcpQpair.nextLink (drainVisit Q state) n (some u) s = s := by
  let K (c : Option ℕ) (s' : TcpQpair) : Prop := s' = s ∧ ∀ v, c = some v → v ∈ s.free
  have hK : ∀ v s', K (some v) s' → K (s'.nextLink v) (drainVisit Q state v s') := by
    rintro v s' ⟨rfl, hv⟩
    have hfree := hv v rfl
    have hwork : v ∉ s'.working := fun hw => List.disjoint_of_nodup_append h.nodup hw hfree
    refine ⟨?_, fun x hx => ?_⟩
    · rw [drainVisit, if_neg]
      rw [(h.idle v hfree).state]
      exact hstate.cases.2.1.symm
    · rw [TcpQpair.nextLink, if_neg hwork] at hx
      exact mem_of_nextIn hx
  have hstart : K (some u) s := ⟨rfl, fun v hv => Option.some.inj hv ▸ hu⟩
  obtain ⟨-, hend, -⟩ := foreachSafe_keep hK (n := n) hstart
  exact hend

/-- What a visit gives back is gone. -/
theorem notMem_of_visited (h : Closing Q s) (hs : (s.reqs t).state = state)
    (hpdu : (s.reqs t).pdu ≠ some (.c2hData true)) (hv : Visited state t s s')
    (hx : x ∈ s.leaving t) : x ∉ s'.working := by
  cases hv with
  | skip hs' => exact absurd hs hs'
  | stuck ht hs hstuck => exact absurd hstuck hpdu
  | back ht hs hnone hback =>
    rw [hback.working]
    exact fun hmem => (h.nodup_working.mem_sdiff_iff.mp hmem).2 hx

/-- **Where a visit leaves the walk**: before the rest of the queue, or at a SECOND that is gone. -/
theorem visit_split (h : Closing Q s) {pre rest : List ℕ} (hw : s.working = pre ++ t :: rest)
    (hpdu : (s.reqs t).pdu ≠ some (.c2hData true)) (hv : Visited state t s s') :
    (∃ pre', s'.working = pre' ++ rest ∧
      ∀ x ∈ pre', x ∈ pre ∨ x = t ∧ (s.reqs t).state ≠ state) ∨
    (s.reqs t).state = state ∧ ∃ u rest', rest = u :: rest' ∧ s'.working = pre ++ rest' ∧
      u ∈ s'.free ∧ (s.reqs u).state = .readyToExecute ∧ (s.reqs t).fusedPair = some u ∧
        (s.reqs t).Leads (s.reqs u) := by
  have hnodup := h.nodup_working
  rw [hw] at hnodup
  have hpre : t ∉ pre := fun hmem =>
    List.disjoint_of_nodup_append hnodup hmem (List.mem_cons_self ..)
  have herase : ∀ {pre' rest'}, t ∉ pre' → (pre' ++ t :: rest').erase t = pre' ++ rest' :=
    fun hnot => by rw [List.erase_append_right _ hnot, List.erase_cons_head]
  cases hv with
  | skip hs =>
    refine .inl ⟨pre ++ [t], by rw [hw, List.append_assoc]; rfl, fun x hx => ?_⟩
    exact (List.mem_append.mp hx).imp_right fun hx' => ⟨List.mem_singleton.mp hx', hs⟩
  | stuck ht hs hstuck => exact absurd hstuck hpdu
  | back ht hs hnone hback =>
    have hwork := hback.working
    have hfree := hback.free
    unfold TcpQpair.leaving at hwork hfree
    cases hcase : (s.reqs t).fusedPair with
    | none =>
      simp only [hcase, List.diff_cons, List.diff_nil, hw, herase hpre] at hwork
      exact .inl ⟨pre, hwork, fun x hx => .inl hx⟩
    | some u =>
      by_cases hu : (s.reqs u).state = .readyToExecute
      · simp only [hcase, if_pos hu, List.diff_cons, List.diff_nil, hw] at hwork hfree
        obtain ⟨huw, hpair, -⟩ := h.waiting ht hcase hu
        obtain ⟨-, -, -, hleads | hleads⟩ := h.parting.waits u huw hu t hpair
        · obtain ⟨rest', rfl⟩ := h.rest_eq hw huw hleads.2.2
          refine .inr ⟨hs, u, rest', rfl, ?_, by simp [hfree], hu, rfl, hleads⟩
          have hupre : u ∉ pre := fun hmem => List.disjoint_of_nodup_append hnodup hmem (by simp)
          have htu : t ≠ u := by
            rintro rfl
            exact absurd hleads.2.2 (Nat.succ_ne_self _).symm
          rw [hwork, List.erase_append_right _ hupre, List.erase_cons_tail (by simpa using htu),
            List.erase_cons_head, herase hpre]
        · have hmem : u ∈ pre := h.mem_pre hw huw (by have := hleads.2.2; omega)
          refine .inl ⟨pre.erase u, ?_, fun x hx => .inl (List.mem_of_mem_erase hx)⟩
          rw [hwork, List.erase_append_left _ hmem,
            herase fun hx => hpre (List.mem_of_mem_erase hx)]
      · simp only [hcase, if_neg hu, List.diff_cons, List.diff_nil, hw, herase hpre] at hwork
        exact .inl ⟨pre, hwork, fun x hx => .inl hx⟩

/-- What is left after a visit was there before. -/
theorem left_of_visited (h : Closing Q s)
    (hwritten : ∀ x ∈ s.working, (s.reqs x).pdu ≠ some (.c2hData true))
    (hv : Visited state t s s') (hx : x ∈ s'.working) :
    x ∈ s.working ∧ s'.reqs x = { s.reqs x with fusedFailed := (s'.reqs x).fusedFailed } := by
  cases hv with
  | skip => exact ⟨hx, rfl⟩
  | stuck ht hs hpdu => exact absurd hpdu (hwritten t ht)
  | back ht hs hpdu hback =>
    rw [hback.working] at hx
    obtain ⟨hxw, hleft⟩ := h.nodup_working.mem_sdiff_iff.mp hx
    exact ⟨hxw, hback.left x hleft⟩

theorem drains_of_visited (h : Closing Q s) (hd : Drains s) (hv : Visited state t s s') :
    Drains s' := by
  have hleft : ∀ {x}, x ∈ s'.working → x ∈ s.working ∧
      s'.reqs x = { s.reqs x with fusedFailed := (s'.reqs x).fusedFailed } :=
    h.left_of_visited hd.written hv
  refine ⟨fun x hx => ?_, fun x hx => ?_, fun x hx u hu => ?_⟩
  · obtain ⟨hxw, hxr⟩ := hleft hx
    rw [hxr]
    exact hd.written x hxw
  · obtain ⟨hxw, hxr⟩ := hleft hx
    rw [hxr]
    exact hd.paired x hxw
  · obtain ⟨hxw, hxr⟩ := hleft hx
    obtain ⟨huw, hur⟩ := hleft hu
    rw [hxr, hur]
    intro hpair hs hleads v hv
    obtain ⟨hvw, hvr⟩ := hleft hv
    rw [hvr]
    exact hd.last x hxw u huw hpair hs hleads v hvw

/-- The walk is in front of the requests `rest`. -/
structure At (Q : QpCtx) (state : TcpReqState) (rest : List ℕ) (s : TcpQpair) : Prop where
  closing : Closing Q s
  line : state = .needBuffer → ∀ v, .own v ∉ s.pending
  written : ∀ x ∈ s.working, (s.reqs x).pdu ≠ some (.c2hData true)
  front : ∃ pre, s.working = pre ++ rest ∧ ∀ x ∈ pre, (s.reqs x).state ≠ state

namespace At

variable {rest : List ℕ}

theorem init (h : Closing Q s) (hline : state = .needBuffer → ∀ v, .own v ∉ s.pending)
    (hwritten : ∀ x ∈ s.working, (s.reqs x).pdu ≠ some (.c2hData true)) :
    At Q state s.working s :=
  ⟨h, hline, hwritten, [], rfl, fun _ hx => absurd hx List.not_mem_nil⟩

theorem mem (h : At Q state (t :: rest) s) : t ∈ s.working := by
  obtain ⟨pre, hw, -⟩ := h.front
  rw [hw]
  exact List.mem_append_right _ (List.mem_cons_self ..)

theorem visited (h : At Q state (t :: rest) s) (hstate : state.Drained) :
    Visited state t s (drainVisit Q state t s) :=
  h.closing.visited hstate (h.closing.mem_slots h.mem)

theorem next (h : At Q state (t :: rest) s) : s.nextLink t = rest.head? := by
  obtain ⟨pre, hw, -⟩ := h.front
  exact h.closing.nextLink_eq hw

/-- **One step of the walk.** -/
theorem visit (h : At Q state (t :: rest) s) (hstate : state.Drained) :
    At Q state rest (drainVisit Q state t s) ∨
      Closing Q (drainVisit Q state t s) ∧
      (∀ n, foreachSafe TcpQpair.nextLink (drainVisit Q state) n rest.head?
        (drainVisit Q state t s) = drainVisit Q state t s) ∧
      (s.reqs t).state = state ∧ ∃ pre u rest', rest = u :: rest' ∧
        s.working = pre ++ t :: u :: rest' ∧ (∀ x ∈ pre, (s.reqs x).state ≠ state) ∧
        (drainVisit Q state t s).working = pre ++ rest' ∧
        (s.reqs u).state = .readyToExecute ∧ (s.reqs t).fusedPair = some u ∧
          (s.reqs t).Leads (s.reqs u) := by
  have hvisited := h.visited hstate
  obtain ⟨hclosing, hpending⟩ := h.closing.visit hstate h.line hvisited
  have hleft : ∀ {x}, x ∈ (drainVisit Q state t s).working → x ∈ s.working ∧ _ :=
    h.closing.left_of_visited h.written hvisited
  obtain ⟨pre, hw, hpre⟩ := h.front
  rcases h.closing.visit_split hw (h.written t h.mem) hvisited with
    ⟨pre', hw', hpre'⟩ | ⟨hs, u, rest', rfl, hw', hfree, hu, hpair, hleads⟩
  · refine .inl ⟨hclosing, hpending ▸ h.line, fun x hx => ?_, pre', hw', fun x hx => ?_⟩
    · rw [(hleft hx).2]
      exact h.written x (hleft hx).1
    · have hx' : x ∈ (drainVisit Q state t s).working := hw' ▸ List.mem_append_left _ hx
      rw [(hleft hx').2]
      rcases hpre' x hx with hmem | ⟨rfl, hs⟩
      · exact hpre x hmem
      · exact hs
  · exact .inr ⟨hclosing, hclosing.foreachSafe_free hstate hfree, hs, pre, u, rest', rfl, hw, hpre,
      hw', hu, hpair, hleads⟩

end At

/-- **A drain gives back all requests in its state**, where nothing is behind a pair it stops at. -/
theorem drain_clears (h : Closing Q s) (hd : Drains s) (hstate : state.Drained)
    (hline : state = .needBuffer → ∀ v, .own v ∉ s.pending) :
    ∀ x ∈ (nvmfTcpDrainStateQueue Q state s).working,
      ((nvmfTcpDrainStateQueue Q state s).reqs x).state ≠ state := by
  refine foreachSafe_rule (I := fun rest s => At Q state rest s ∧ Drains s)
    (J := fun s => ∀ x ∈ s.working, (s.reqs x).state ≠ state)
    (fun t rest s hI => hI.1.next) (fun t rest s hI => ?_) (fun s hI => ?_)
    ⟨.init h hline hd.written, hd⟩ ?_
  · have hvisited := hI.1.visited hstate
    rcases hI.1.visit hstate with hat |
      ⟨-, hoff, hs, pre, u, rest', -, hw, hpre, hw', hu, hpair, hleads⟩
    · exact .inl ⟨hat, hI.1.closing.drains_of_visited hI.2 hvisited⟩
    · refine .inr ⟨fun x hx => ?_, hoff⟩
      obtain ⟨hxw, hxr⟩ := hI.1.closing.left_of_visited hI.1.written hvisited hx
      rw [hxr]
      rw [hw', List.mem_append] at hx
      rcases hx with hx | hx
      · exact hpre x hx
      · have hordered := hI.1.closing.ordered
        rw [hw, List.pairwise_append, List.pairwise_cons, List.pairwise_cons] at hordered
        have huw : u ∈ s.working := by simp [hw]
        exact hs ▸ hI.2.last t hI.1.mem u huw hpair hu hleads x hxw (hordered.2.1.2.1 x hx)
  · obtain ⟨pre, hw, hpre⟩ := hI.1.front
    rw [hw, List.append_nil]
    exact hpre
  · have hlen := h.slots.length_eq
    rw [List.length_append, QpCtx.slots, List.length_range'] at hlen
    omega

/-- **What lies behind a pair that a drain stops at is left.** -/
theorem drain_leaves (h : Closing Q s) (hstate : state.Drained)
    (hline : state = .needBuffer → ∀ v, .own v ∉ s.pending)
    (hwritten : ∀ x ∈ s.working, (s.reqs x).pdu ≠ some (.c2hData true))
    (ht : Trapped state t u v s) :
    v ∈ (nvmfTcpDrainStateQueue Q state s).working ∧
      ((nvmfTcpDrainStateQueue Q state s).reqs v).state = state := by
  refine foreachSafe_rule (I := fun rest s => At Q state rest s ∧ t ∈ rest ∧ Trapped state t u v s)
    (J := fun s => v ∈ s.working ∧ (s.reqs v).state = state)
    (fun x rest s hI => hI.1.next) (fun x rest s hI => ?_)
    (fun s hI => absurd hI.2.1 List.not_mem_nil) ⟨.init h hline hwritten, ht.lead, ht⟩ ?_
  · obtain ⟨hat, hrest, htrap⟩ := hI
    have hvisited := hat.visited hstate
    have hstep := hat.visit hstate
    obtain ⟨pre, hw, -⟩ := hat.front
    -- the one behind comes after the FIRST, so it is not the one visited
    have hvx : v ≠ x := by
      rintro rfl
      have hbefore : t ∈ v :: rest → (s.reqs v).arrival ≤ (s.reqs t).arrival := by
        have hordered := hat.closing.ordered
        rw [hw, List.pairwise_append, List.pairwise_cons] at hordered
        rintro (_ | ⟨_, ht'⟩)
        · exact le_rfl
        · exact (hordered.2.1.1 t ht').le
      have hle := hbefore hrest
      have hnext := htrap.leads.2.2
      have hlater := htrap.later
      omega
    have hstays : v ∈ (drainVisit Q state x s).working ∧
        ((drainVisit Q state x s).reqs v).state = state := by
      obtain ⟨hmem, hreq⟩ := hat.closing.stays hvisited htrap.behind (fun _ => hvx)
        (absurd · (htrap.state_behind ▸ hstate.cases.1))
      exact ⟨hmem, by rw [hreq]; exact htrap.state_behind⟩
    rcases hstep with hnext | ⟨-, hoff, -⟩
    · left
      have htx : t ≠ x := by
        rintro rfl
        obtain ⟨rest', rfl⟩ := hat.closing.rest_eq hw htrap.second htrap.leads.2.2
        obtain ⟨pre', hw', -⟩ := hnext.front
        refine hat.closing.notMem_of_visited htrap.state_lead (hat.written t htrap.lead) hvisited
          (mem_leaving.mpr (.inr ⟨htrap.pair, htrap.state_second⟩)) ?_
        rw [hw']
        exact List.mem_append_right _ (List.mem_cons_self ..)
      exact ⟨hnext, (List.mem_cons.mp hrest).resolve_left htx,
        hat.closing.stays_trapped hstate hstate hvisited (fun _ => ⟨htx, hvx⟩) htrap⟩
    · exact .inr ⟨hstays, hoff⟩
  · have hlen := h.slots.length_eq
    rw [List.length_append, QpCtx.slots, List.length_range'] at hlen
    omega

/-! ## All drains -/

theorem own_mem_foldl (wiped : ℕ → Prop) [DecidablePred wiped] :
    ∀ (queue : List ℕ) (pending : List Waiter), (pending.filterMap Waiter.slot?).Nodup →
      let left := queue.foldl (fun pending t => if wiped t then pending.erase (.own t) else pending)
        pending
      (left.filterMap Waiter.slot?).Nodup ∧
        ∀ v, .own v ∈ left → .own v ∈ pending ∧ (v ∈ queue → ¬ wiped v)
  | [], _, hnodup => ⟨hnodup, fun v hv => ⟨hv, nofun⟩⟩
  | t :: queue, pending, hnodup => by
    have hfirst : ((if wiped t then pending.erase (.own t) else pending).filterMap
        Waiter.slot?).Nodup ∧ ∀ v, .own v ∈ (if wiped t then pending.erase (.own t) else pending) →
          .own v ∈ pending ∧ (v = t → ¬ wiped v) := by
      split_ifs with ht
      · simp only [Waiter.own_mem_iff, Waiter.filterMap_erase, hnodup.mem_erase_iff]
        exact ⟨hnodup.erase t, fun v hv => ⟨hv.2, fun he => absurd he hv.1⟩⟩
      · exact ⟨hnodup, fun v hv => ⟨hv, fun he => he ▸ ht⟩⟩
    obtain ⟨honce, hrest⟩ := own_mem_foldl wiped queue _ hfirst.1
    refine ⟨honce, fun v hv => ?_⟩
    obtain ⟨hmem, hnot⟩ := hrest v hv
    obtain ⟨hpending, hnot'⟩ := hfirst.2 v hmem
    exact ⟨hpending, fun hv' => (List.mem_cons.mp hv').elim hnot' hnot⟩

/-- The line is wiped. -/
theorem wipePending (h : Closing Q s) :
    Closing Q (wipePending s) ∧ ∀ v, .own v ∉ (NdpHeaan.wipePending s).pending := by
  obtain ⟨honce, hmem⟩ := own_mem_foldl (fun t => (s.reqs t).state = .needBuffer) s.working _ h.once
  have hnone : ∀ v, .own v ∉ (NdpHeaan.wipePending s).pending := fun v hv =>
    have hqueued := h.queued v (hmem v hv).1
    (hmem v hv).2 hqueued.1 hqueued.2
  exact ⟨{ h with
    parting := { h.parting with }
    queued := fun v hv => absurd hv (hnone v)
    once := honce }, hnone⟩

/-- **What every drain takes a step further, the six take to the end.** -/
theorem cleanup {P : List TcpReqState → TcpQpair → Prop} (h : Closing Q s) (hP : P [] s)
    (hwipe : ∀ done s, P done s → P done (NdpHeaan.wipePending s))
    (hdrain : ∀ done state s, state.Drained → state ∉ done → Closing Q s →
      (state = .needBuffer → ∀ v, .own v ∉ s.pending) → P done s →
        P (state :: done) (nvmfTcpDrainStateQueue Q state s)) :
    Closing Q (nvmfTcpCleanupAllStates Q s) ∧
      P [.awaitingR2tAck, .transferringH2c, .executing, .needBuffer, .new, .transferringC2h]
        (nvmfTcpCleanupAllStates Q s) := by
  have hstep : ∀ done state s, state.Drained → state ∉ done →
      (state = .needBuffer → ∀ v, .own v ∉ s.pending) → Closing Q s ∧ P done s →
      Closing Q (nvmfTcpDrainStateQueue Q state s) ∧
        P (state :: done) (nvmfTcpDrainStateQueue Q state s) := by
    rintro done state s hstate hnew hline ⟨h, hP⟩
    exact ⟨(h.drain_keep hstate hline trivial fun _ _ _ _ _ _ => trivial).1,
      hdrain done state s hstate hnew h hline hP⟩
  have h₁ := hstep [] .transferringC2h s (by decide) (by decide) nofun ⟨h, hP⟩
  have h₂ := hstep _ .new _ (by decide) (by decide) nofun h₁
  obtain ⟨hclosing, hline⟩ := h₂.1.wipePending
  have h₃ := hstep _ .needBuffer _ (by decide) (by decide) (fun _ => hline)
    ⟨hclosing, hwipe _ _ h₂.2⟩
  have h₄ := hstep _ .executing _ (by decide) (by decide) nofun h₃
  have h₅ := hstep _ .transferringH2c _ (by decide) (by decide) nofun h₄
  exact hstep _ .awaitingR2tAck _ (by decide) (by decide) nofun h₅

end Closing

/-- Closing the socket takes nothing from what outlives the drains, and adds nothing to it. -/
theorem drains_spdkSockClose {Q : QpCtx} {s : TcpQpair} (h : Sound Q s) :
    Drains (spdkSockClose Q s) ↔ Drains s := by
  obtain ⟨recv, pdu, heq, hpdu⟩ := spdkSockClose_eq h
  have hsame : ∀ t, pdu t = some (.c2hData true) ↔ (s.reqs t).pdu = some (.c2hData true) := by
    intro t
    rw [show pdu t = _ from congrArg TcpReq.pdu (hpdu t)]
    split_ifs
    · unfold TcpReq.unsent
      split_ifs with hin
      · refine ⟨nofun, fun hpdu => ?_⟩
        simp [TcpReq.inSocket, hpdu] at hin
      · exact Iff.rfl
    · exact Iff.rfl
  rw [heq]
  constructor
  · exact fun hd => ⟨fun t ht hs => hd.written t ht ((hsame t).mpr hs), hd.paired, hd.last⟩
  · exact fun hd => ⟨fun t ht hs => hd.written t ht ((hsame t).mp hs), hd.paired, hd.last⟩

section Destroy

variable {Q : QpCtx} {s : TcpQpair}

/-- A request that works is not free. -/
theorem Closing.ne_free {t : ℕ} (h : Closing Q s) (ht : t ∈ s.working) :
    (s.reqs t).state ≠ .free := by
  intro hfree
  rcases h.lingers t ht with ⟨-, hs | hs⟩ | ⟨-, hs | hs⟩
  · exact hs.cases.2.1 hfree
  · cases hs.symm.trans hfree
  · cases hs.symm.trans hfree
  · cases hs.symm.trans hfree

theorem Closing.not_reclaimed {t : ℕ} (h : Closing Q s) (ht : t ∈ s.working) : ¬ Reclaimed Q s :=
  fun hr => h.ne_free ht (hr.free t (h.mem_slots ht))

theorem Closing.reclaimed (h : Closing Q s) (hw : s.working = []) : Reclaimed Q s := by
  have hfree : ∀ t ∈ Q.slots, (s.reqs t).Idle := fun t ht => by
    have hmem := h.slots.mem_iff.mpr ht
    rw [hw, List.nil_append] at hmem
    exact h.idle t hmem
  refine ⟨fun t ht => (hfree t ht).state, fun t ht hmem => ?_, fun t ht => ?_⟩
  · have hmem' := (h.queued t hmem).1
    rw [hw] at hmem'
    exact absurd hmem' List.not_mem_nil
  · rw [h.pool t ht, TcpReq.held, (hfree t ht).dataFromPool]
    rfl

/-- Where nothing outlives the drains, the working queue is empty in the end. -/
theorem Closing.reclaimed_of_drains (h : Closing Q s) (hd : Drains s) :
    Reclaimed Q (nvmfTcpCleanupAllStates Q s) := by
  obtain ⟨hclosing, hdrains, hstates⟩ := h.cleanup
    (P := fun done s => Drains s ∧ ∀ x ∈ s.working, (s.reqs x).state ∉ done)
    ⟨hd, fun _ _ => List.not_mem_nil⟩ (fun done s hP => ⟨{ hP.1 with }, hP.2⟩) <| by
    rintro done state s hstate - h hline ⟨hd, hdone⟩
    have hclears := h.drain_clears hd hstate hline
    obtain ⟨-, -, hd', hdone'⟩ := h.drain_keep hstate hline
      (P := fun s => Drains s ∧ ∀ x ∈ s.working, (s.reqs x).state ∉ done) ⟨hd, hdone⟩ <| by
      rintro t s s' h ⟨hd, hdone⟩ hv
      refine ⟨h.drains_of_visited hd hv, fun x hx => ?_⟩
      obtain ⟨hxw, hxr⟩ := h.left_of_visited hd.written hv hx
      rw [hxr]
      exact hdone x hxw
    exact ⟨hd', fun x hx => List.not_mem_cons_of_ne_of_not_mem (hclears x hx) (hdone' x hx)⟩
  generalize nvmfTcpCleanupAllStates Q s = s' at *
  have hready : ∀ x ∈ s'.working, (s'.reqs x).state = .readyToExecute := by
    intro x hx
    rcases hclosing.lingers x hx with ⟨-, hs | hs⟩ | ⟨hpdu, -⟩
    · exact absurd hs.mem (hstates x hx)
    · exact hs
    · exact absurd hpdu (hdrains.written x hx)
  refine hclosing.reclaimed (List.eq_nil_iff_forall_not_mem.mpr fun x hx => ?_)
  obtain ⟨t, ht⟩ := Option.ne_none_iff_exists'.mp (hdrains.paired x hx (hready x hx))
  obtain ⟨htw, hnot, -⟩ := hclosing.parting.waits x hx (hready x hx) t ht
  exact hnot (hready t htw)

/-- What every visit of every drain leaves in the queue is there in the end. -/
theorem Closing.not_reclaimed_of_stays {t : ℕ} {P : TcpQpair → Prop} (h : Closing Q s) (hP : P s)
    (hwipe : ∀ s pending, P s → P { s with pending }) (hwork : ∀ s, P s → t ∈ s.working)
    (hkeep : ∀ state, state.Drained → ∀ x s s', Closing Q s → P s → Visited state x s s' → P s') :
    ¬ Reclaimed Q (nvmfTcpCleanupAllStates Q s) := by
  obtain ⟨hclosing, hend⟩ := h.cleanup (P := fun _ => P) hP (fun _ s => hwipe s _) <| by
    intro _ state s hstate _ h hline hP
    exact (h.drain_keep hstate hline hP (hkeep state hstate)).2.2
  exact hclosing.not_reclaimed (hwork _ hend)

/-- What lies behind a pair that is given back together is there in the end. -/
theorem Closing.not_reclaimed_of_trapped {state : TcpReqState} {t u v : ℕ} (h : Closing Q s)
    (hwritten : ∀ x ∈ s.working, (s.reqs x).pdu ≠ some (.c2hData true)) (hstate : state.Drained)
    (ht : Trapped state t u v s) : ¬ Reclaimed Q (nvmfTcpCleanupAllStates Q s) := by
  let Written (s : TcpQpair) : Prop := ∀ x ∈ s.working, (s.reqs x).pdu ≠ some (.c2hData true)
  have hkeep : ∀ state' x s s', Closing Q s → Written s → Visited state' x s s' → Written s' := by
    intro state' x s s' h hw hv y hy
    obtain ⟨hyw, hyr⟩ := h.left_of_visited hw hv hy
    rw [hyr]
    exact hw y hyw
  obtain ⟨hclosing, -, hend, -⟩ := h.cleanup
    (P := fun done s => Written s ∧ (state ∈ done → v ∈ s.working ∧ (s.reqs v).state = state) ∧
      (state ∉ done → Trapped state t u v s))
    ⟨hwritten, nofun, fun _ => ht⟩
    (fun done s hP => ⟨hP.1, hP.2.1, fun hnot => { hP.2.2 hnot with }⟩) <| by
    rintro done state' s hstate' hnew h hline ⟨hw, hleft, htrap⟩
    have hw' := (h.drain_keep hstate' hline hw (hkeep state')).2.2
    by_cases hne : state = state'
    · subst hne
      exact ⟨hw', fun _ => h.drain_leaves hstate hline hw (htrap hnew),
        fun hnot => absurd (List.mem_cons_self ..) hnot⟩
    · refine ⟨hw', fun hmem => ?_, fun hnot => ?_⟩
      · have hold := hleft ((List.mem_cons.mp hmem).resolve_left hne)
        exact (h.drain_keep hstate' hline hold fun x s s' h hP hv =>
          h.stays_of_ne hstate hne hv hP).2.2
      · have hold := htrap fun hmem => hnot (List.mem_cons_of_mem _ hmem)
        refine (h.drain_keep hstate' hline hold fun x s s' h hP hv =>
          h.stays_trapped hstate hstate' hv (fun hs => ⟨?_, ?_⟩) hP).2.2
        · rintro rfl
          exact hne (hP.state_lead.symm.trans hs)
        · rintro rfl
          exact hne (hP.state_behind.symm.trans hs)
  exact hclosing.not_reclaimed (hend hstate.mem).1

/-- **Each of the three kinds of requests keeps a qpair from being reclaimed.** -/
theorem Closing.not_reclaimed_of_not_drains (h : Closing Q s) (hd : ¬ Drains s) :
    ¬ Reclaimed Q (nvmfTcpCleanupAllStates Q s) := by
  by_cases hwritten : ∀ x ∈ s.working, (s.reqs x).pdu ≠ some (.c2hData true)
  · by_cases hpaired : ∀ u ∈ s.working, (s.reqs u).state = .readyToExecute →
        (s.reqs u).fusedPair ≠ none
    · have hlast : ∃ state t u v, state.Drained ∧ Trapped state t u v s := by
        by_contra hnone
        refine hd ⟨hwritten, hpaired, fun t ht u hu hpair hs hleads v hv hlt heq => ?_⟩
        have htu := h.parting.waits u hu hs t (h.waiting ht hpair hs).2.1
        have hdrained : (s.reqs t).state.Drained := by
          rcases h.lingers t ht with ⟨-, hs' | hs'⟩ | ⟨hpdu, -⟩
          · exact hs'
          · exact absurd hs' htu.2.1
          · exact absurd hpdu (hwritten t ht)
        exact hnone ⟨_, t, u, v, hdrained, ht, hu, hv, rfl, hs, heq, hpair, hleads, hlt⟩
      obtain ⟨state, t, u, v, hstate, htrap⟩ := hlast
      exact h.not_reclaimed_of_trapped hwritten hstate htrap
    · push Not at hpaired
      obtain ⟨u, hu, hs, hpair⟩ := hpaired
      exact h.not_reclaimed_of_stays (t := u) (P := fun s => u ∈ s.working ∧
          (s.reqs u).state = .readyToExecute ∧ (s.reqs u).fusedPair = none) ⟨hu, hs, hpair⟩
        (fun _ _ hP => hP) (fun _ hP => hP.1)
        fun state hstate x s s' h hP hv => h.stays_alone hstate hv hP
  · push Not at hwritten
    obtain ⟨t, ht, hpdu⟩ := hwritten
    exact h.not_reclaimed_of_stays (t := t) (P := fun s => t ∈ s.working ∧
        (s.reqs t).pdu = some (.c2hData true)) ⟨ht, hpdu⟩ (fun _ _ hP => hP) (fun _ hP => hP.1)
      fun state _ x s s' h hP hv => h.stays_unwritten hv hP

/-- **Destroying a qpair reclaims everything exactly when nothing outlives the drains.** -/
theorem qpairDestroy_reclaims {below : TcpReq}
    (h : (tcpSys Q below).Reach (fun s e => InOrder s e ∧ CalmWhileActive s e) s)
    (hoff : s.active = false) : Reclaimed Q (nvmfTcpQpairDestroy Q s) ↔ Drains s := by
  obtain ⟨hsound, hnamed, -, hparting⟩ := links_reach h
  have hclosing := closing_spdkSockClose hsound hnamed (hparting hoff)
  rw [← drains_spdkSockClose hsound, nvmfTcpQpairDestroy]
  refine ⟨fun hr => ?_, hclosing.reclaimed_of_drains⟩
  by_contra hd
  exact hclosing.not_reclaimed_of_not_drains hd hr

end Destroy

/-! ## Samples -/

/-- A FIRST that waits for its data, and a SECOND that waits for it. -/
def partingRun : List TcpEvent :=
  [.capsule bareHdr (sampleWrite 4096 .first) {}, .capsule bareHdr (bareCmd 0x00 .second) {},
   .disconnect]

theorem partingRun_reclaimed :
    ∃ s, (tcpSys (sampleQpair false) {}).Reach (fun s e => InOrder s e ∧ CalmWhileActive s e) s ∧
      s.active = false ∧ s.working = [1, 2] ∧ (s.reqs 2).state = .readyToExecute ∧
        Reclaimed (sampleQpair false) (nvmfTcpQpairDestroy (sampleQpair false) s) := by
  have h₁ := (Sys.Reach.init (M := tcpSys (sampleQpair false) {})
    (P := fun s e => InOrder s e ∧ CalmWhileActive s e)).step (l := partingRun[0])
    ⟨trivial, fun _ _ => nofun⟩ rfl
  have h₂ := h₁.step (l := partingRun[1]) ⟨trivial, fun _ _ => nofun⟩ rfl
  have h₃ := h₂.step (l := partingRun[2]) ⟨trivial, fun _ h => absurd rfl h⟩ rfl
  refine ⟨_, h₃, rfl, by decide, by decide, (qpairDestroy_reclaims h₃ rfl).mpr ?_⟩
  refine ⟨by decide, by decide, fun t ht u hu hpair hs hleads => ?_⟩
  clear hleads
  revert t u
  decide

/-- A FIRST whose SECOND never comes. -/
def loneFirstRun : List TcpEvent := [.capsule bareHdr (bareCmd 0x00 .first) {}, .disconnect]

/-- As in `partingRun`, with another request behind the pair. -/
def behindPairRun : List TcpEvent :=
  [.capsule bareHdr (sampleWrite 4096 .first) {}, .capsule bareHdr (bareCmd 0x00 .second) {},
   .capsule bareHdr (sampleWrite 4096) {}, .disconnect]

/-- The digest of the data of a READ is still to be computed. -/
def unwrittenRun : List TcpEvent :=
  [.capsule bareHdr { opc := 0x02, sgl := transportSgl 4096 } {}, .complete 1 .success, .disconnect]

/-- **Requests are left behind**: a FIRST without a SECOND, a request behind a pair, and one with a
digest that is still to be computed. -/
theorem qpairDestroy_leaves :
    (∃ s, (tcpSys (sampleQpair false) {}).run (.init (sampleQpair false) {}) loneFirstRun = some s ∧
      ((nvmfTcpQpairDestroy (sampleQpair false) s).reqs 1).state = .readyToExecute ∧
      ¬ Reclaimed (sampleQpair false) (nvmfTcpQpairDestroy (sampleQpair false) s)) ∧
    (∃ s, (tcpSys { sampleQpair false with resourceCount := 3 } {}).run
        (.init { sampleQpair false with resourceCount := 3 } {}) behindPairRun = some s ∧
      (nvmfTcpQpairDestroy { sampleQpair false with resourceCount := 3 } s).working = [3] ∧
      ¬ Reclaimed { sampleQpair false with resourceCount := 3 }
        (nvmfTcpQpairDestroy { sampleQpair false with resourceCount := 3 } s)) ∧
    ∃ s, (tcpSys (sampleQpair true) {}).run (.init (sampleQpair true) {}) unwrittenRun = some s ∧
      ((nvmfTcpQpairDestroy (sampleQpair true) s).reqs 1).state = .completed ∧
      ¬ Reclaimed (sampleQpair true) (nvmfTcpQpairDestroy (sampleQpair true) s) := by
  refine ⟨⟨_, rfl, by decide, fun h => ?_⟩, ⟨_, rfl, by decide, fun h => ?_⟩,
    ⟨_, rfl, by decide, fun h => ?_⟩⟩
  · exact absurd (h.free 1 (by decide)) (by decide)
  · exact absurd (h.free 3 (by decide)) (by decide)
  · exact absurd (h.free 1 (by decide)) (by decide)

end NdpHeaan
