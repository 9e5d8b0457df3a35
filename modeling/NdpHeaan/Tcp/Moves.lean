import NdpHeaan.Tcp.SoundRun

/-!
# Tcp/Moves — what a TCP qpair can do, one request at a time

Every step of a qpair in order is a chain of *moves*: a request is received, waits, asks for data,
takes some, runs, is answered or given back.  A property of whole runs is then a property that every
move keeps, and the control flow of `nvmf_tcp_req_process` is gone through once, here.

Two kinds of moves have a switch, so that a property may do without them: `A` admits what happens
on a qpair that is not active and to a request that ends while its fused partner is linked to it,
and `B` the execution of a request whose data arrived with an error.
-/

open Machinery Relation

namespace NdpHeaan

/-- The request an effect belongs to. -/
def TcpEffect.request? : TcpEffect → Option ℕ
  | .arrive k _ | .exec k _ | .respond k _ _ | .h2cData _ k _ _ _ _ | .dataReady k _ _
  | .mismatch k => some k
  | .getBufs .. | .putBufs .. | .getCtrl _ | .putCtrl _ | .termReq _ => none

/-- A request that has neither been executed nor answered. -/
def TcpReq.Open (r : TcpReq) : Prop :=
  r.state = .new ∨ r.state = .needBuffer ∨ r.TakesData ∨ r.state = .readyToExecute

/-- The statuses a request in this state is answered with. -/
inductive Answer (r : TcpReq) : TcpStatus → Prop
  | invalidOpcode : r.state = .new → Answer r .invalidOpcode
  | aborted : r.state = .needBuffer → Answer r .abortedByRequest
  | corrupt : r.state = .transferringH2c → r.status = .transientTransportError →
      Answer r .transientTransportError
  | executed (sc : Sc) : r.state = .executing → Answer r (.ctrlr sc)

/-- The command in `pdu_in_progress` arrives in a slot. -/
def receive (Q : QpCtx) (t : ℕ) (s : TcpQpair) : TcpQpair :=
  nvmfTcpCheckFusedOrdering Q t (((nvmfTcpReqGet t s).setReq t fun r =>
    { r with cmd := s.cmd }).emit (.arrive s.arrivals s.cmd.fuse))

/-- A partner that waits is a slot that works. -/
def TcpQpair.PartnerWorks (s : TcpQpair) (t : ℕ) : Prop :=
  ∀ u, (s.reqs t).fusedPair = some u → (s.reqs u).state = .readyToExecute → u ∈ s.working

theorem TcpQpair.PartnerWorks.setReq {s : TcpQpair} {t : ℕ} {f : TcpReq → TcpReq}
    (h : s.PartnerWorks t) (ht : t ∈ s.working)
    (hf : (f (s.reqs t)).fusedPair = (s.reqs t).fusedPair) : (s.setReq t f).PartnerWorks t := by
  intro u hu hready
  rw [reqs_setReq_self, hf] at hu
  rw [reqs_setReq] at hready
  split_ifs at hready with hut
  · exact hut ▸ ht
  · exact h u hu hready

/-- **A move of a qpair.** -/
inductive Move (Q : QpCtx) (A B : Prop) : TcpQpair → TcpQpair → Prop
  /-- Around the requests: the receiver, the queue for buffers, effects of no request. -/
  | quiet {s : TcpQpair} {active : Bool} {recv : RecvState} {hdr : RxHdr} {cmd : TcpCmd}
      {pending : List Waiter} {log : List TcpEffect}
      (hactive : active = s.active ∨ A ∧ active = false)
      (hlog : log = s.log ∨ ∃ e, e.request? = none ∧ log = s.log ++ [e]) :
      Move Q A B s { s with active, recv, hdr, cmd, pending, log }
  /-- A request that does not wait for data is fitted out. -/
  | touch {s : TcpQpair} {t : ℕ} {f : TcpReq → TcpReq} (ht : ¬ (s.reqs t).TakesData)
      (hf : f (s.reqs t) = { s.reqs t with
        xfer := (f (s.reqs t)).xfer, hasInCapsuleData := (f (s.reqs t)).hasInCapsuleData,
        length := (f (s.reqs t)).length, iov := (f (s.reqs t)).iov,
        dataFromPool := (f (s.reqs t)).dataFromPool }) :
      Move Q A B s (s.setReq t f)
  | setPdu {s : TcpQpair} (t : ℕ) (pdu : Option OutPdu) :
      Move Q A B s (s.setReq t fun r => { r with pdu })
  | count {s : TcpQpair} (t n : ℕ) :
      Move Q A B s (s.setReq t fun r => { r with received := r.received + n })
  | receive {s : TcpQpair} {t : ℕ} {rest : List ℕ} (hfree : s.free = t :: rest)
      (ht : t ∉ s.working) (hactive : s.active = true) (hfuse : A ∨ s.cmd.fuse ≠ .reserved)
      (hfirst : ∀ u, s.fusedFirst = some u → (s.reqs u).state = .readyToExecute → u ∈ s.working) :
      Move Q A B s (receive Q t s)
  | wait {s : TcpQpair} {t : ℕ} (ht : t ∈ s.working) (hs : (s.reqs t).state = .new)
      (hactive : s.active = true) :
      Move Q A B s (s.setReq t fun r => { r with state := .needBuffer })
  | askData {s : TcpQpair} {t : ℕ} (ht : t ∈ s.working) (hs : (s.reqs t).state = .needBuffer)
      (hoffset : (s.reqs t).h2cOffset = 0) (hpdus : ∀ p ∈ s.pdus, p.slot = t → p.dataLen = 0)
      (hactive : s.active = true) :
      Move Q A B s (nvmfTcpSendR2tPdu t s)
  | takeCapsule {s : TcpQpair} {t : ℕ} (pdo : UInt8) (ht : t ∈ s.working)
      (hs : (s.reqs t).state = .needBuffer) (hoffset : (s.reqs t).h2cOffset = 0)
      (hpdus : ∀ p ∈ s.pdus, p.slot = t → p.dataLen = 0) (hactive : s.active = true) :
      Move Q A B s { s.setReq t fun r => { r with state := .transferringH2c } with
        pdus := s.pdus ++ [⟨t, true, pdo, 0, (s.reqs t).length⟩] }
  | ack {s : TcpQpair} {t : ℕ} (ht : t ∈ s.working) (hs : (s.reqs t).state = .awaitingR2tAck) :
      Move Q A B s (s.setReq t fun r => { r with state := .transferringH2c })
  | accept {s : TcpQpair} {p : DataPdu} (hslot : p.slot ∈ Q.slots) (ht : p.slot ∈ s.working)
      (hcapsule : p.inCapsule = false) (hc : (s.reqs p.slot).Carries p)
      (hfed : (s.reqs p.slot).Fed)
      (hpdus : ∀ q ∈ s.pdus, q.slot = p.slot → q.dataLen = 0) :
      Move Q A B s ({ s with pdus := s.pdus ++ [p] }.emit
        (.h2cData p.slot (s.reqs p.slot).arrival p.datao.toNat p.dataLen.toNat
          (s.reqs p.slot).length.toNat (s.reqs p.slot).iov))
  | mismatch {s : TcpQpair} {p : DataPdu} (ht : p.slot ∈ s.working) (hlen : p.dataLen ≠ 0)
      (hc : (s.reqs p.slot).Carries p) :
      Move Q A B s ((s.setReq p.slot fun r =>
        { r with status := .transientTransportError }).emit (.mismatch (s.reqs p.slot).arrival))
  | dropCapsule {s : TcpQpair} {p : DataPdu} (hcapsule : p.inCapsule = true) :
      Move Q A B s { s with pdus := s.pdus.erase p }
  | takeData {s : TcpQpair} {p : DataPdu} (hp : p ∈ s.pdus) (ht : p.slot ∈ s.working)
      (hcapsule : p.inCapsule = false) (hc : (s.reqs p.slot).Carries p) :
      Move Q A B s ({ s with pdus := s.pdus.erase p }.setReq p.slot fun r =>
        { r with h2cOffset := r.h2cOffset + p.dataLen, received := r.received + p.dataLen.toNat })
  | run {s : TcpQpair} {t : ℕ} (ht : t ∈ s.working)
      (hs : (s.reqs t).state = .new ∨ (s.reqs t).state = .needBuffer) (hpair : s.PartnerWorks t)
      (hactive : s.active = true) :
      Move Q A B s (readyToExecute Q t (s.setReq t fun r => { r with state := .readyToExecute }))
  | runData {s : TcpQpair} {t : ℕ} (ht : t ∈ s.working)
      (hs : (s.reqs t).state = .transferringH2c)
      (hall : (s.reqs t).received = (s.reqs t).length.toNat)
      (hstatus : B ∨ (s.reqs t).status ≠ .transientTransportError) (hpair : s.PartnerWorks t)
      (hactive : s.active = true) :
      Move Q A B s (readyToExecute Q t
        ((s.setReq t fun r => { r with state := .readyToExecute }).emit
        (.dataReady (s.reqs t).arrival (s.reqs t).received (s.reqs t).length.toNat)))
  | answer {s : TcpQpair} {t : ℕ} {f : TcpReq → TcpReq} (ht : t ∈ s.working)
      (hf : f (s.reqs t) = { s.reqs t with
        state := (f (s.reqs t)).state, status := (f (s.reqs t)).status })
      (hanswer : Answer (s.reqs t) (f (s.reqs t)).status) (hactive : s.active = true) :
      Move Q A B s (requestTransferOut Q t (s.setReq t f))
  | free {s : TcpQpair} {t : ℕ} (ht : t ∈ s.working) (hs : (s.reqs t).state = .transferringC2h)
      (hfirst : s.fusedFirst ≠ some t) (hpair : (s.reqs t).fusedPair = none)
      (hactive : s.active = true) :
      Move Q A B s (nvmfTcpReqPut t (giveUp Q t (s.setReq t fun r =>
        { r with pdu := none, state := .completed })))
  | get {s : TcpQpair} {t : ℕ} {rest : List ℕ} (ha : A) (hfree : s.free = t :: rest)
      (ht : t ∉ s.working) :
      Move Q A B s (nvmfTcpReqGet t s)
  /-- To where nothing but the free queue follows. -/
  | slide {s : TcpQpair} {t : ℕ} {f : TcpReq → TcpReq} (ha : A)
      (hactive : (s.reqs t).TakesData → s.active = false)
      (hstate : (f (s.reqs t)).state = .executed ∨ (f (s.reqs t)).state = .readyToComplete ∨
        (f (s.reqs t)).state = .completed)
      (hf : f (s.reqs t) = { s.reqs t with
        state := (f (s.reqs t)).state, status := (f (s.reqs t)).status }) :
      Move Q A B s (s.setReq t f)
  | stall {s : TcpQpair} {t : ℕ} (ha : A) (hactive : s.active = false) (ht : t ∈ s.working)
      (hs : (s.reqs t).state = .transferringH2c)
      (hall : (s.reqs t).received = (s.reqs t).length.toNat) :
      Move Q A B s ((s.setReq t fun r => { r with state := .completed }).emit
        (.dataReady (s.reqs t).arrival (s.reqs t).received (s.reqs t).length.toNat))
  | release {s : TcpQpair} {t : ℕ} (ha : A) (hs : (s.reqs t).state = .completed) :
      Move Q A B s (giveUp Q t s)
  | fail {s : TcpQpair} (t : ℕ) (ha : A) :
      Move Q A B s (s.setReq t fun r => { r with fusedFailed := true })
  | rerun {s : TcpQpair} {t : ℕ} (ha : A) (ht : t ∈ s.working)
      (hs : (s.reqs t).state = .readyToExecute) (hpair : s.PartnerWorks t)
      (hactive : s.active = true) :
      Move Q A B s (readyToExecute Q t s)
  | unlink {s : TcpQpair} {t : ℕ} (ha : A) (hs : (s.reqs t).state = .completed)
      (hpair : ∀ u, (s.reqs t).fusedPair = some u → (s.reqs u).state ≠ .readyToExecute) :
      Move Q A B s (s.setReq t fun r => { r with fusedPair := none })
  | put {s : TcpQpair} {t : ℕ} (ha : A) (hs : (s.reqs t).state = .completed)
      (hpair : (s.reqs t).fusedPair = none) :
      Move Q A B s (nvmfTcpReqPut t s)

/-- **A chain of moves.** -/
abbrev Moves (Q : QpCtx) (A B : Prop) : TcpQpair → TcpQpair → Prop := ReflTransGen (Move Q A B)

/-- What every move keeps, a chain keeps. -/
theorem Moves.keep {Q : QpCtx} {A B : Prop} {I : TcpQpair → Prop}
    (hI : ∀ s s', I s → Move Q A B s s' → I s') {s s' : TcpQpair} (h : I s)
    (hm : Moves Q A B s s') : I s' := by
  induction hm with
  | refl => exact h
  | tail _ hmove ih => exact hI _ _ ih hmove

/-- `request_transfer_out` behind a change of the request. -/
theorem requestTransferOut_setReq (Q : QpCtx) (t : ℕ) (s : TcpQpair) (f : TcpReq → TcpReq) :
    ∃ out, requestTransferOut Q t (s.setReq t f) =
      (s.setReq t fun r => { f r with state := .transferringC2h, pdu := some out }).emit
        (.respond (f (s.reqs t)).arrival (f (s.reqs t)).cmd.fuse (f (s.reqs t)).status) := by
  rw [requestTransferOut, TcpQpair.setReq_setReq, TcpQpair.reqs_setReq_self]
  exact ⟨_, rfl⟩

/-! ## Requests have names -/

/-- **The requests that work are numbered, in the order of the queue.** -/
structure Named (s : TcpQpair) : Prop where
  young : ∀ t ∈ s.working, (s.reqs t).arrival < s.arrivals
  ordered : s.working.Pairwise fun t u => (s.reqs t).arrival < (s.reqs u).arrival

theorem Named.distinct {s : TcpQpair} (h : Named s) : ∀ t ∈ s.working, ∀ u ∈ s.working,
    (s.reqs t).arrival = (s.reqs u).arrival → t = u := by
  intro t ht u hu heq
  by_contra hne
  have hsymm : Std.Symm fun t u => (s.reqs t).arrival ≠ (s.reqs u).arrival := ⟨fun _ _ => Ne.symm⟩
  exact (h.ordered.imp LT.lt.ne).forall ht hu hne heq

/-- The numbers are as they were, and no slot is taken. -/
structure SameNames (s s' : TcpQpair) : Prop where
  working : s'.working.Sublist s.working
  arrival : ∀ t, (s'.reqs t).arrival = (s.reqs t).arrival
  arrivals : s'.arrivals = s.arrivals

namespace SameNames

variable {Q : QpCtx} {s s' s'' : TcpQpair} {t u : ℕ} {f : TcpReq → TcpReq}

theorem refl (s : TcpQpair) : SameNames s s := ⟨.refl _, fun _ => rfl, rfl⟩

theorem trans (h : SameNames s s') (h' : SameNames s' s'') : SameNames s s'' where
  working := h'.working.trans h.working
  arrival := fun t => (h'.arrival t).trans (h.arrival t)
  arrivals := h'.arrivals.trans h.arrivals

theorem named (h : SameNames s s') (hs : Named s) : Named s' where
  young := fun t ht => by
    rw [h.arrival, h.arrivals]
    exact hs.young t (h.working.subset ht)
  ordered := (hs.ordered.sublist h.working).imp fun hlt => by
    rwa [h.arrival, h.arrival]

theorem setReq (h : (f (s.reqs t)).arrival = (s.reqs t).arrival) : SameNames s (s.setReq t f) where
  working := .refl _
  arrival := TcpQpair.field_setReq TcpReq.arrival h
  arrivals := rfl

/-- The rest of a qpair does not matter. -/
theorem around (h : SameNames s s') (hreqs : s''.reqs = s'.reqs) (hwork : s''.working = s'.working)
    (harrivals : s''.arrivals = s'.arrivals) : SameNames s s'' where
  working := hwork ▸ h.working
  arrival := fun t => hreqs ▸ h.arrival t
  arrivals := harrivals.trans h.arrivals

theorem emit {e : TcpEffect} (h : SameNames s s') : SameNames s (s'.emit e) := h.around rfl rfl rfl

theorem requestTransferOut (Q : QpCtx) (t : ℕ) (s : TcpQpair) :
    SameNames s (requestTransferOut Q t s) := emit (setReq rfl)

theorem execReq (t : ℕ) (s : TcpQpair) : SameNames s (execReq t s) := emit (setReq rfl)

theorem unpair (t u : ℕ) (s : TcpQpair) : SameNames s (unpair t u s) := by
  have hu : SameNames s (s.setReq u fun r => { r with fusedPair := none }) := setReq rfl
  exact hu.trans (setReq rfl)

theorem readyToExecute (Q : QpCtx) (t : ℕ) (s : TcpQpair) :
    SameNames s (readyToExecute Q t s) := by
  unfold NdpHeaan.readyToExecute
  dsimp only
  split_ifs
  · exact execReq t s
  · exact (setReq rfl).trans (requestTransferOut Q t _)
  · split
    · exact refl s
    · split_ifs
      · exact refl s
      · split
        · exact ((execReq _ s).trans (execReq t _)).trans (unpair ..)
        · exact ((execReq t s).trans (execReq _ _)).trans (unpair ..)
        · exact execReq t s

theorem giveUp (Q : QpCtx) (t : ℕ) (s : TcpQpair) : SameNames s (giveUp Q t s) := by
  have hrelease : SameNames s (releaseBuffers Q t s) := by
    unfold releaseBuffers
    dsimp only
    split_ifs
    · exact emit (setReq rfl)
    · exact emit (refl s)
    · exact refl s
  exact hrelease.trans (setReq rfl)

theorem put (t : ℕ) (s : TcpQpair) : SameNames s (nvmfTcpReqPut t s) where
  working := List.erase_sublist
  arrival := (setReq (t := t) (f := fun r => { r with state := .free }) rfl).arrival
  arrivals := rfl

theorem checkFusedOrdering (hactive : s.active = true) :
    SameNames s (nvmfTcpCheckFusedOrdering Q t s) := by
  have hnote : ∀ s', SameNames s' (noteFused t s') := by
    intro s'
    unfold noteFused
    split
    · exact (refl s').around rfl rfl rfl
    · exact setReq rfl
    · exact refl s'
  unfold nvmfTcpCheckFusedOrdering
  split
  · exact hnote s
  · rename_i u hfirst
    split_ifs with hfuse
    · have hlink : SameNames s (s.setReq u fun r => { r with fusedPair := some t }) := setReq rfl
      have hback : SameNames (s.setReq u fun r => { r with fusedPair := some t })
          ((s.setReq u fun r => { r with fusedPair := some t }).setReq t
            fun r => { r with fusedPair := some u }) := setReq rfl
      exact (hlink.trans hback).around rfl rfl rfl
    · refine SameNames.trans ?_ (hnote _)
      have hfail : SameNames s (if (s.reqs u).state = .readyToExecute then
          NdpHeaan.requestTransferOut Q u (s.setReq u fun r =>
            { r with fusedFailed := true, status := .abortedMissingFused })
          else s.setReq u fun r => { r with fusedFailed := true }) := by
        split_ifs
        · exact (setReq rfl).trans (requestTransferOut Q u _)
        · exact setReq rfl
      rw [failFirst_eq hactive hfuse]
      exact hfail.around rfl rfl rfl
    · exact hnote s

end SameNames

namespace Named

variable {Q : QpCtx} {A B : Prop} {s s' : TcpQpair} {t : ℕ}

theorem get (h : Named s) (ht : t ∉ s.working) : Named (nvmfTcpReqGet t s) := by
  have hold : ∀ {u}, u ∈ s.working → (nvmfTcpReqGet t s).reqs u = s.reqs u := fun hu =>
    reqs_nvmfTcpReqGet_of_ne s fun he => ht (he ▸ hu)
  have hself := reqs_nvmfTcpReqGet_self t s
  constructor
  · intro u hu
    rcases List.mem_append.mp hu with hu | hu
    · rw [hold hu]
      exact Nat.lt_succ_of_lt (h.young u hu)
    · rw [List.mem_singleton.mp hu, hself]
      exact Nat.lt_succ_self _
  · refine List.pairwise_append.mpr ⟨h.ordered.imp_of_mem fun hu hv hlt => ?_,
      List.pairwise_singleton .., fun u hu v hv => ?_⟩
    · rwa [hold hu, hold hv]
    · rw [List.mem_singleton.mp hv, hold hu, hself]
      exact h.young u hu

/-- **Every move leaves the requests their numbers**, and gives a new one to a slot it takes. -/
theorem move (h : Named s) (hm : Move Q A B s s') : Named s' := by
  cases hm with
  | quiet hactive hlog => exact SameNames.named (.around (.refl s) rfl rfl rfl) h
  | touch ht hf => exact (SameNames.setReq (by rw [hf])).named h
  | @receive t rest hfree ht hactive hfuse hfirst =>
    have hset : SameNames (nvmfTcpReqGet t s) (((nvmfTcpReqGet t s).setReq t fun r =>
        { r with cmd := s.cmd }).emit (.arrive s.arrivals s.cmd.fuse)) := .emit (.setReq rfl)
    exact (hset.trans (.checkFusedOrdering hactive)).named (h.get ht)
  | setPdu t pdu => exact (SameNames.setReq rfl).named h
  | count t n => exact (SameNames.setReq rfl).named h
  | wait ht hs => exact (SameNames.setReq rfl).named h
  | askData ht hs hoffset hpdus => exact (SameNames.setReq rfl).named h
  | @takeCapsule t pdo ht hs hoffset hpdus =>
    have hset : SameNames s (s.setReq t fun r => { r with state := .transferringH2c }) :=
      .setReq rfl
    exact SameNames.named (.around hset rfl rfl rfl) h
  | ack ht hs => exact (SameNames.setReq rfl).named h
  | accept hslot ht hcapsule hc hfed hpdus =>
    exact SameNames.named (.around (.refl s) rfl rfl rfl) h
  | mismatch ht hlen hc => exact (SameNames.emit (.setReq rfl)).named h
  | dropCapsule hcapsule => exact SameNames.named (.around (.refl s) rfl rfl rfl) h
  | @takeData p hp ht hcapsule hc =>
    have hset : SameNames s (s.setReq p.slot fun r => { r with
        h2cOffset := r.h2cOffset + p.dataLen, received := r.received + p.dataLen.toNat }) :=
      .setReq rfl
    exact SameNames.named (.around hset rfl rfl rfl) h
  | run ht hs hpair => exact ((SameNames.setReq rfl).trans (.readyToExecute Q _ _)).named h
  | runData ht hs hall hstatus hpair =>
    exact ((SameNames.emit (.setReq rfl)).trans (.readyToExecute Q _ _)).named h
  | answer ht hf hanswer =>
    exact ((SameNames.setReq (by rw [hf])).trans (.requestTransferOut Q _ _)).named h
  | free ht hs hfirst hpair =>
    exact ((SameNames.setReq rfl).trans (.trans (.giveUp Q _ _) (.put _ _))).named h
  | get ha hfree ht => exact h.get ht
  | slide ha hactive hstate hf => exact (SameNames.setReq (by rw [hf])).named h
  | stall ha hactive ht hs hall => exact (SameNames.emit (.setReq rfl)).named h
  | release ha hs => exact (SameNames.giveUp Q _ s).named h
  | fail t ha => exact (SameNames.setReq rfl).named h
  | rerun ha ht hs hpair => exact (SameNames.readyToExecute Q _ s).named h
  | unlink ha hs hpair => exact (SameNames.setReq rfl).named h
  | put ha hs hpair => exact (SameNames.put _ s).named h

theorem init (Q : QpCtx) (below : TcpReq) : Named (.init Q below) :=
  ⟨fun _ ht => absurd ht List.not_mem_nil, .nil⟩

end Named

/-! ## The functions of the state machine as chains -/

section Chains

variable {Q : QpCtx} {A B : Prop} {X : Set ℕ} {s : TcpQpair} {t : ℕ}

theorem moves_quiet {s' : TcpQpair}
    (hactive : s'.active = s.active ∨ A ∧ s'.active = false)
    (hlog : s'.log = s.log ∨ ∃ e, e.request? = none ∧ s'.log = s.log ++ [e])
    (h : s' = { s with
      active := s'.active, recv := s'.recv, hdr := s'.hdr, cmd := s'.cmd, pending := s'.pending,
      log := s'.log }) : Moves Q A B s s' :=
  h ▸ .single (.quiet hactive hlog)

theorem moves_emit {e : TcpEffect} (he : e.request? = none) : Moves Q A B s (s.emit e) :=
  moves_quiet (.inl rfl) (.inr ⟨e, he, rfl⟩) rfl

theorem SoundBut.partnerWorks (h : SoundBut Q X s) (ht : t ∈ s.working) : s.PartnerWorks t :=
  fun u hu hs => h.mem_working (h.pairs t (h.mem_slots_of_working ht) u hu) (by simp [hs])

theorem moves_terminate (e : TermReq) : Moves Q A B s (s.terminate e) :=
  moves_quiet (.inl rfl) (.inr ⟨.termReq e, rfl, rfl⟩) rfl

/-! ### COMPLETED -/

/-- Links are only cleared. -/
def PairsShrink (s s' : TcpQpair) : Prop :=
  ∀ v, (s'.reqs v).fusedPair = none ∨ (s'.reqs v).fusedPair = (s.reqs v).fusedPair

namespace PairsShrink

variable {s' s'' : TcpQpair} {f : TcpReq → TcpReq} {u : ℕ}

theorem trans (h : PairsShrink s s') (h' : PairsShrink s' s'') : PairsShrink s s'' := fun v =>
  (h' v).elim .inl fun he => (h v).imp he.trans he.trans

theorem setReq (hf : (f (s.reqs t)).fusedPair = none ∨
    (f (s.reqs t)).fusedPair = (s.reqs t).fusedPair) : PairsShrink s (s.setReq t f) := by
  intro v
  rw [TcpQpair.reqs_setReq]
  split_ifs with hv
  · exact hv ▸ hf
  · exact .inr rfl

theorem emit {e : TcpEffect} (h : PairsShrink s s') : PairsShrink s (s'.emit e) := h

theorem unpair (t u : ℕ) (s : TcpQpair) : PairsShrink s (unpair t u s) := by
  have hu : PairsShrink s (s.setReq u fun r => { r with fusedPair := none }) := setReq (.inl rfl)
  exact hu.trans (setReq (.inl rfl))

theorem readyToExecute : PairsShrink s (readyToExecute Q t s) := by
  have hexec : ∀ t s, PairsShrink s (execReq t s) := fun t s => emit (setReq (.inr rfl))
  unfold NdpHeaan.readyToExecute
  dsimp only
  split_ifs
  · exact hexec t s
  · have hset : PairsShrink s (s.setReq t fun r => { r with status := .abortedMissingFused }) :=
      setReq (.inr rfl)
    exact hset.trans (emit (setReq (.inr rfl)))
  · split
    · exact fun _ => .inr rfl
    · split_ifs
      · exact fun _ => .inr rfl
      · split
        · exact ((hexec _ s).trans (hexec t _)).trans (unpair _ _ _)
        · exact ((hexec t s).trans (hexec _ _)).trans (unpair _ _ _)
        · exact hexec t s

theorem giveUp : PairsShrink s (giveUp Q t s) := by
  have hrelease : PairsShrink s (releaseBuffers Q t s) := by
    intro v
    rcases releaseBuffers_alike Q t v s with hr | ⟨rfl, hr⟩ <;> rw [hr] <;> exact .inr rfl
  exact hrelease.trans (setReq (.inr rfl))

/-- A partner is told, and run in turn by what is known of shorter chains. -/
theorem kickPartner_of {n u : ℕ} (hrun : ∀ s', PairsShrink s' (NdpHeaan.atCompleted Q n u s')) :
    PairsShrink s (kickPartner Q n t u s) := by
  have hfail : PairsShrink s (failPartner Q t u s) := giveUp.trans (setReq (.inr rfl))
  unfold kickPartner
  split_ifs
  · unfold kickReady
    split_ifs
    · exact hfail.trans readyToExecute
    · exact hfail.trans (trans (setReq (.inr rfl)) (hrun _))
  · exact hfail

theorem atCompleted : ∀ {n t : ℕ} {s : TcpQpair}, PairsShrink s (atCompleted Q n t s)
  | 0, _, _ => fun _ => .inr rfl
  | n + 1, t, s => by
    have hput : ∀ s', PairsShrink s' (nvmfTcpReqPut t s') := fun s' =>
      setReq (f := fun r => { r with state := .free }) (.inr rfl)
    by_cases hpdu : (s.reqs t).pdu = none
    · rw [atCompleted_succ hpdu]
      split
      · exact giveUp.trans (hput _)
      · exact trans (kickPartner_of fun _ => atCompleted) (trans (setReq (.inl rfl)) (hput _))
    · rw [NdpHeaan.atCompleted, if_pos (Option.isSome_iff_ne_none.mpr hpdu)]
      exact fun _ => .inr rfl

theorem kickPartner {n u : ℕ} : PairsShrink s (kickPartner Q n t u s) :=
  kickPartner_of fun _ => atCompleted

end PairsShrink

/-- A request that has been through COMPLETED does not wait. -/
theorem state_atCompleted {n : ℕ} (hs : (s.reqs t).state = .completed) :
    ((atCompleted Q n t s).reqs t).state ≠ .readyToExecute := by
  cases n with
  | zero => simp [atCompleted, hs]
  | succ n =>
    rw [atCompleted]
    dsimp only
    split_ifs
    · simp [hs]
    · split
      · rw [reqs_nvmfTcpReqPut_self]
        simp
      · rw [reqs_nvmfTcpReqPut_self]
        simp

/-- A request that failed does not wait. -/
theorem state_readyToExecute (hs : (s.reqs t).fusedFailed = true) :
    ((readyToExecute Q t s).reqs t).state ≠ .readyToExecute := by
  unfold readyToExecute
  dsimp only
  split_ifs
  · simp [execReq]
  · simp [requestTransferOut]

theorem state_kickPartner {n u : ℕ} :
    ((kickPartner Q n t u s).reqs u).state ≠ .readyToExecute := by
  unfold kickPartner
  split_ifs with hready
  · unfold kickReady
    split_ifs
    · exact state_readyToExecute (by simp [failPartner])
    · exact state_atCompleted (by simp)
  · exact hready

theorem moves_atCompleted (ha : A) : ∀ {n t : ℕ} {X : Set ℕ} {s : TcpQpair},
    Completing Q X t s → s.ready.card < n → Moves Q A B s (atCompleted Q n t s)
  | 0, _, _, _, _, hn => absurd hn (Nat.not_lt_zero _)
  | n + 1, t, X, s, h, hn => by
    have hgive : Moves Q A B s (giveUp Q t s) := .single (.release ha h.state)
    have hless : ∀ {s' : TcpQpair}, s'.ready ⊂ s.ready → s'.ready.card < n := fun hsub =>
      (Finset.card_lt_card hsub).trans_le (Nat.le_of_lt_succ hn)
    rw [atCompleted_succ h.pdu]
    split
    · rename_i hpair
      refine hgive.tail (.put ha (h.done_giveUp t (.inl rfl)).state ?_)
      exact (PairsShrink.giveUp t).elim id fun he => he.trans hpair
    · rename_i u hpair
      have hfail : Moves Q A B s (failPartner Q t u s) := hgive.tail (.fail u ha)
      have hdone := (h.kickPartner (n := n) hpair fun s' h' hsub =>
        h'.atCompleted (hless hsub)).2 t (.inl rfl)
      have hkick : Moves Q A B s (kickPartner Q n t u s) := by
        unfold kickPartner
        split_ifs with hready
        · unfold kickReady
          split_ifs with hactive
          · have hworks := h.partner_working hpair hready
            exact hfail.tail (.rerun ha hworks hready (h.sound_failPartner.partnerWorks hworks)
              hactive)
          · refine (hfail.tail (.slide ha ?_ (.inr (.inr rfl)) rfl)).trans
              (moves_atCompleted ha (h.partner hpair hready) (hless (h.ready_partner hpair hready)))
            intro htakes
            rcases htakes with hs | hs <;> rw [hready] at hs <;> cases hs
        · exact hfail
      refine (hkick.tail (.unlink ha hdone.state fun v hv => ?_)).tail (.put ha ?_ ?_)
      · rcases PairsShrink.kickPartner (Q := Q) (n := n) (u := u) (s := s) t with hnone | hsame
        · rw [hnone] at hv
          cases hv
        · obtain rfl := Option.some.inj (hpair.symm.trans (hsame.symm.trans hv))
          exact state_kickPartner
      · rw [TcpQpair.reqs_setReq_self]
        exact hdone.state
      · simp

/-- Without a partner there is nothing to it. -/
theorem completeReq_of_unpaired (hpdu : (s.reqs t).pdu = none)
    (hpair : (s.reqs t).fusedPair = none) :
    completeReq Q t s = nvmfTcpReqPut t (giveUp Q t s) := by
  rw [completeReq, atCompleted_succ hpdu, hpair]

/-- On a qpair that is not active a request goes straight to COMPLETED. -/
theorem moves_process_inactive {b : BufSupply} (ha : A) (h : SoundBut Q (insert t ∅) s)
    (hactive : s.active = false) (hpdu : (s.reqs t).pdu = none)
    (hneed : (s.reqs t).state ≠ .needBuffer) : Moves Q A B s (nvmfTcpReqProcess Q b t s) := by
  have hend : Completing Q ∅ t (s.setReq t fun r => { r with state := .completed }) :=
    ⟨h.setReq (.inl rfl) rfl rfl fun u hu => .inl hu, Set.notMem_empty t, by simp,
      by simpa using hpdu, fun x hx => absurd hx (Set.notMem_empty x)⟩
  unfold nvmfTcpReqProcess
  rw [hactive, Bool.not_false, if_pos rfl, if_neg hneed]
  exact .head (.slide ha (fun _ => hactive) (.inr (.inr rfl)) rfl)
    (moves_atCompleted ha hend hend.sound.card_ready_lt)

/-! ### NEED_BUFFER -/

theorem moves_withBuffers (ht : t ∈ s.working) (hs : (s.reqs t).state = .needBuffer)
    (hoffset : (s.reqs t).h2cOffset = 0) (hpdus : ∀ p ∈ s.pdus, p.slot = t → p.dataLen = 0)
    (hpair : s.PartnerWorks t) (hactive : s.active = true) :
    Moves Q A B s (withBuffers Q t s) := by
  have hout : Moves Q A B s { s with pending := s.pending.erase (.own t) } :=
    moves_quiet (.inl rfl) (.inl rfl) rfl
  unfold withBuffers
  dsimp only
  split_ifs
  · exact hout.tail (.askData ht hs hoffset hpdus hactive)
  · refine (hout.tail (.takeCapsule s.hdr.common.pdo ht hs hoffset hpdus hactive)).trans ?_
    exact moves_quiet (.inl rfl) (.inl rfl) rfl
  · exact hout.tail (.run ht (.inr hs) hpair hactive)

theorem moves_atNeedBuffer {b : BufSupply} (h : Sound Q s) (ht : t ∈ s.working)
    (hs : (s.reqs t).state = .needBuffer) (hactive : s.active = true) :
    Moves Q A B s (atNeedBuffer Q b t s) := by
  have hnot : ¬ (s.reqs t).TakesData := by simp [TcpReq.TakesData, hs]
  have hoffset := ((h.rest t ht (Set.notMem_empty t)).of_needBuffer hs).2.2.1
  -- once it has buffers
  have hnext : ∀ (f : TcpReq → TcpReq) {s' : TcpQpair}, Moves Q A B s s' →
      s'.reqs = (s.setReq t f).reqs → s'.working = s.working → s'.pdus = s.pdus →
      s'.active = s.active →
      (f (s.reqs t)).state = (s.reqs t).state → (f (s.reqs t)).h2cOffset = (s.reqs t).h2cOffset →
      (f (s.reqs t)).fusedPair = (s.reqs t).fusedPair →
      Moves Q A B s (withBuffers Q t s') := by
    intro f s' hmoves hreqs hwork hpdus hactive' hstate hoff hpair
    refine hmoves.trans (moves_withBuffers (hwork ▸ ht) ?_ ?_ (hpdus ▸ h.no_pdu hnot) ?_
      (hactive'.trans hactive))
    · rw [hreqs, TcpQpair.reqs_setReq_self, hstate, hs]
    · rw [hreqs, TcpQpair.reqs_setReq_self, hoff, hoffset]
    · rw [TcpQpair.PartnerWorks, hreqs, hwork]
      exact (h.partnerWorks ht).setReq ht hpair
  unfold atNeedBuffer
  dsimp only
  split
  · exact .refl
  split
  · exact moves_terminate _
  · exact .refl
  · split
    · exact .single (.touch hnot rfl)
    · exact .refl
  · rename_i iov hparse
    let f : TcpReq → TcpReq := fun r =>
      { r with length := r.cmd.sgl.length, iov, dataFromPool := true }
    have hgot : Moves Q A B s ((s.setReq t f).emit (.getBufs t iov.length)) :=
      .head (.touch hnot rfl) (moves_emit rfl)
    split
    · exact hgot
    · exact hnext f hgot rfl rfl rfl rfl rfl rfl rfl
  · rename_i fromCtrl len hparse
    let f : TcpReq → TcpReq := fun r =>
      { r with length := len, iov := [len.toNat], dataFromPool := false }
    have hset : Moves Q A B s (s.setReq t f) := .single (.touch hnot rfl)
    split
    · exact hnext f (hset.trans (moves_emit rfl)) rfl rfl rfl rfl rfl rfl rfl
    · exact hnext f hset rfl rfl rfl rfl rfl rfl rfl

/-! ### NEW -/

theorem active_checkFusedOrdering (hactive : s.active = true) :
    (nvmfTcpCheckFusedOrdering Q t s).active = true := by
  have hnote : ∀ s' : TcpQpair, (noteFused t s').active = s'.active := by
    intro s'
    unfold noteFused
    split <;> rfl
  unfold nvmfTcpCheckFusedOrdering
  split
  · exact (hnote s).trans hactive
  · split_ifs with hfuse
    · exact hactive
    · rw [hnote, failFirst_eq hactive hfuse]
      split_ifs <;> exact hactive
    · exact (hnote s).trans hactive

theorem SoundBut.receive {rest : List ℕ} (h : Sound Q s) (hfree : s.free = t :: rest)
    (hactive : s.active = true) :
    SoundBut Q (insert t ∅) (receive Q t s) ∧ ((receive Q t s).reqs t).Fresh ∧
      (receive Q t s).active = true := by
  have hidle := h.idle t (hfree ▸ List.mem_cons_self ..)
  have hnew : ((nvmfTcpReqGet t s).reqs t).Fresh := by
    rw [reqs_nvmfTcpReqGet_self]
    exact ⟨rfl, hidle.pdu, by simp [TcpReq.held, hidle.dataFromPool], rfl, rfl⟩
  have hset : SoundBut Q (insert t ∅) (((nvmfTcpReqGet t s).setReq t fun r =>
      { r with cmd := s.cmd }).emit (.arrive s.arrivals s.cmd.fuse)) :=
    .emit ((h.get hfree).mark rfl fun u hu => .inl hu) rfl
  have hnew' : ((((nvmfTcpReqGet t s).setReq t fun r =>
      { r with cmd := s.cmd }).emit (.arrive s.arrivals s.cmd.fuse)).reqs t).Fresh := by
    rw [TcpQpair.reqs_emit]
    exact fresh_setReq hnew rfl
  exact ⟨hset.checkFusedOrdering hactive hnew', fresh_checkFusedOrdering hnew' hactive,
    active_checkFusedOrdering hactive⟩

theorem moves_atNew {b : BufSupply} {rest : List ℕ} (h : Sound Q s) (hfree : s.free = t :: rest)
    (hactive : s.active = true) (hfuse : A ∨ s.cmd.fuse ≠ .reserved) :
    Moves Q A B s (atNew Q b t (nvmfTcpReqGet t s)) := by
  obtain ⟨hrec, hnew, hon⟩ := SoundBut.receive h hfree hactive
  have hnot : ¬ ((receive Q t s).reqs t).TakesData := by simp [TcpReq.TakesData, hnew.state]
  have hfirst : ∀ u, s.fusedFirst = some u → (s.reqs u).state = .readyToExecute →
      u ∈ s.working := fun u hu hs => h.mem_working (h.first u hu) (by simp [hs])
  have harrival : ((nvmfTcpReqGet t s).reqs t).arrival = s.arrivals := by
    rw [reqs_nvmfTcpReqGet_self]
  unfold atNew
  rw [harrival]
  extract_lets s₁ xfer s₂ s₃
  have hm₂ : Moves Q A B s s₂ :=
    .head (.receive hfree (h.notMem_working hfree) hactive hfuse hfirst)
      (.single (.touch hnot rfl))
  have h₂ : SoundBut Q (insert t ∅) s₂ := hrec.mark rfl fun u hu => .inl hu
  have hnew₂ : (s₂.reqs t).Fresh := fresh_setReq hnew rfl
  have ht₂ : t ∈ s₂.working := h₂.working t (.inl rfl)
  have hon₂ : s₂.active = true := hon
  clear_value s₂ xfer
  have hnext : Moves Q A B s { s₂ with recv := .awaitPduReady } :=
    hm₂.trans (moves_quiet (.inl rfl) (.inl rfl) rfl)
  split
  · exact hnext.tail (.answer ht₂ rfl (.invalidOpcode hnew₂.state) hon₂)
  · exact hnext.tail (.run ht₂ (.inl hnew₂.state) (h₂.partnerWorks ht₂) hon₂)
  · have h₃ : Moves Q A B s s₃ ∧ SoundBut Q (insert t ∅) s₃ ∧ (s₃.reqs t).Fresh ∧
        s₃.active = true := by
      have hnot₂ : ¬ (s₂.reqs t).TakesData := by simp [TcpReq.TakesData, hnew₂.state]
      simp only [s₃]
      split
      · exact ⟨hm₂.tail (.touch hnot₂ rfl), h₂.mark rfl fun u hu => .inl hu,
          fresh_setReq hnew₂ rfl, hon₂⟩
      · exact ⟨hnext, h₂.rx s₂.active .awaitPduReady s₂.hdr s₂.cmd, hnew₂, hon₂⟩
    obtain ⟨hm₃, h₃, hnew₃, hon₃⟩ := h₃
    have ht₃ : t ∈ s₃.working := h₃.working t (.inl rfl)
    have hwait : Moves Q A B s { s₃.setReq t fun r => { r with state := .needBuffer } with
        pending := s₃.pending ++ [.own t] } :=
      (hm₃.tail (.wait ht₃ hnew₃.state hon₃)).trans (moves_quiet (.inl rfl) (.inl rfl) rfl)
    refine hwait.trans (moves_atNeedBuffer (h₃.queued_new hnew₃) ht₃ (by simp) hon₃)

/-! ### Data -/

theorem moves_dataReady (hA : A ∨ s.active = true) (h : SoundBut Q (insert t ∅) s)
    (hs : (s.reqs t).state = .transferringH2c) (hpdu : (s.reqs t).pdu = none)
    (hall : (s.reqs t).received = (s.reqs t).length.toNat)
    (hstatus : B ∨ (s.reqs t).status ≠ .transientTransportError) :
    Moves Q A B s (dataReady Q t s) := by
  have ht : t ∈ s.working := h.working t (.inl rfl)
  unfold dataReady
  by_cases hactive : s.active = true
  · have hrun : nvmfTcpReqProcess Q {} t ((s.setReq t fun r =>
        { r with state := .readyToExecute }).emit (.dataReady (s.reqs t).arrival
          (s.reqs t).received (s.reqs t).length.toNat)) =
        readyToExecute Q t ((s.setReq t fun r => { r with state := .readyToExecute }).emit
          (.dataReady (s.reqs t).arrival (s.reqs t).received (s.reqs t).length.toNat)) := by
      simp [nvmfTcpReqProcess, hactive]
    rw [hrun]
    exact .single (.runData ht hs hall hstatus (h.partnerWorks ht) hactive)
  · have ha : A := hA.resolve_right hactive
    rw [Bool.not_eq_true] at hactive
    have hin : SoundBut Q (insert t ∅) ((s.setReq t fun r => { r with state := .completed }).emit
        (.dataReady (s.reqs t).arrival (s.reqs t).received (s.reqs t).length.toNat)) :=
      .emit (h.setReq (.inl rfl) rfl rfl fun u hu => .inl hu) rfl
    have hend : Completing Q ∅ t ((s.setReq t fun r => { r with state := .completed }).emit
        (.dataReady (s.reqs t).arrival (s.reqs t).received (s.reqs t).length.toNat)) :=
      ⟨hin, Set.notMem_empty t, by simp, by simpa using hpdu,
        fun x hx => absurd hx (Set.notMem_empty x)⟩
    have hdrop : nvmfTcpReqProcess Q {} t ((s.setReq t fun r =>
        { r with state := .readyToExecute }).emit (.dataReady (s.reqs t).arrival
          (s.reqs t).received (s.reqs t).length.toNat)) =
        completeReq Q t ((s.setReq t fun r => { r with state := .completed }).emit
          (.dataReady (s.reqs t).arrival (s.reqs t).received (s.reqs t).length.toNat)) := by
      simp [nvmfTcpReqProcess, hactive, TcpQpair.setReq, TcpQpair.emit]
    rw [hdrop]
    exact .head (.stall ha hactive ht hs hall) (moves_atCompleted ha hend hin.card_ready_lt)

/-- A request whose answer is known is answered, or dropped on a qpair that is not active. -/
theorem moves_answer {b : BufSupply} {f : TcpReq → TcpReq} (hA : A ∨ s.active = true)
    (h : SoundBut Q (insert t ∅) s)
    (hf : f (s.reqs t) = { s.reqs t with
      state := (f (s.reqs t)).state, status := (f (s.reqs t)).status })
    (hstate : (f (s.reqs t)).state = .executed ∨ (f (s.reqs t)).state = .readyToComplete)
    (hanswer : Answer (s.reqs t) (f (s.reqs t)).status) (hpdu : (s.reqs t).pdu = none) :
    Moves Q A B s (nvmfTcpReqProcess Q b t (s.setReq t f)) := by
  by_cases hactive : s.active = true
  · have hrun : nvmfTcpReqProcess Q b t (s.setReq t f) = requestTransferOut Q t (s.setReq t f) := by
      rcases hstate with hs | hs <;> simp [nvmfTcpReqProcess, hactive, hs]
    rw [hrun]
    exact .single (.answer (h.working t (.inl rfl)) hf hanswer hactive)
  · have ha : A := hA.resolve_right hactive
    rw [Bool.not_eq_true] at hactive
    have hin : SoundBut Q (insert t ∅) (s.setReq t f) := by
      refine h.setReq (.inl rfl) ?_ ?_ fun u hu => .inl ?_
      · rw [hf]
      · rw [hf]
        rfl
      · rw [hf] at hu
        exact hu
    refine .head (.slide ha (fun _ => hactive) (hstate.imp_right .inl) hf) ?_
    refine moves_process_inactive ha hin hactive ?_ ?_
    · rw [TcpQpair.reqs_setReq_self, hf]
      exact hpdu
    · rw [TcpQpair.reqs_setReq_self]
      rcases hstate with hs | hs <;> simp [hs]

theorem moves_capsulePayload {p : DataPdu} (hA : A ∨ s.active = true) (h : Sound Q s)
    (hw : p.slot ∈ s.working) (hlone : ∀ q ∈ s.pdus, q.slot = p.slot → q.dataLen = 0)
    (hs : (s.reqs p.slot).state = .transferringH2c) (hoffset : (s.reqs p.slot).h2cOffset = 0)
    (hlen : p.dataLen = (s.reqs p.slot).length) :
    Moves Q A B s (nvmfTcpCapsuleCmdPayloadHandle Q p s) := by
  have hrest := h.rest p.slot hw (Set.notMem_empty _)
  obtain ⟨-, hreceived, -⟩ := hrest.fed (.inl hs)
  simp only [TcpReq.AtRest, hs] at hrest
  have hin : SoundBut Q (insert p.slot ∅) (s.setReq p.slot fun r =>
      { r with received := r.received + p.dataLen.toNat }) :=
    (h.enter hw (by simp [hs]) hlone).setReq (.inl rfl) rfl rfl fun u hu => .inl hu
  have hcount : Moves Q A B s (s.setReq p.slot fun r =>
      { r with received := r.received + p.dataLen.toNat }) :=
    .single (.count p.slot p.dataLen.toNat)
  unfold nvmfTcpCapsuleCmdPayloadHandle
  dsimp only
  split_ifs with hpdo herror
  · exact moves_terminate _
  · refine hcount.trans (moves_answer hA hin rfl (.inr rfl) ?_ (by simpa using hrest.1))
    simpa [herror] using Answer.corrupt (r := { s.reqs p.slot with
      received := (s.reqs p.slot).received + p.dataLen.toNat }) hs herror
  · refine hcount.trans (moves_dataReady hA hin (by simpa using hs) (by simpa using hrest.1) ?_ ?_)
    · simp [hreceived, hoffset, hlen]
    · exact .inr (by simpa using herror)

theorem moves_dataPayload {p : DataPdu} {s₀ : TcpQpair} (hA : A ∨ s₀.active = true)
    (h : Sound Q s₀) (hp : p ∈ s₀.pdus) (hw : p.slot ∈ s₀.working)
    (hlone : ∀ q ∈ s₀.pdus.erase p, q.slot = p.slot → q.dataLen = 0)
    (hcapsule : p.inCapsule = false) (hc : (s₀.reqs p.slot).Carries p) :
    Moves Q A B s₀ (nvmfTcpH2cDataPayloadHandle Q p { s₀ with pdus := s₀.pdus.erase p }) := by
  have hrest := h.rest p.slot hw (Set.notMem_empty _)
  obtain ⟨-, hreceived, -⟩ := hrest.fed hc.takesData
  have hneed : (s₀.reqs p.slot).state ≠ .needBuffer := by
    rcases hc.takesData with hs | hs <;> simp [hs]
  have hin : SoundBut Q (insert p.slot ∅) ({ s₀ with pdus := s₀.pdus.erase p }.setReq p.slot
      fun r => { r with h2cOffset := r.h2cOffset + p.dataLen,
                        received := r.received + p.dataLen.toNat }) :=
    ((h.erasePdu p).enter hw hneed hlone).setReq (.inl rfl) rfl rfl fun u hu => .inl hu
  have htake : Moves Q A B s₀ ({ s₀ with pdus := s₀.pdus.erase p }.setReq p.slot fun r =>
      { r with h2cOffset := r.h2cOffset + p.dataLen,
               received := r.received + p.dataLen.toNat }) :=
    .single (.takeData hp hw hcapsule hc)
  unfold nvmfTcpH2cDataPayloadHandle
  dsimp only
  split_ifs with hall herror
  · simp only [TcpQpair.reqs_setReq_self] at hall herror
    simp only [TcpReq.AtRest, hall.2] at hrest
    refine htake.trans (moves_answer hA hin rfl (.inr rfl) ?_ (by simpa using hrest.1))
    simp only [TcpQpair.reqs_setReq_self, herror]
    exact .corrupt hall.2 rfl
  · simp only [TcpQpair.reqs_setReq_self] at hall herror
    simp only [TcpReq.AtRest, hall.2] at hrest
    refine htake.trans (moves_dataReady hA hin (by simpa using hall.2) (by simpa using hrest.1) ?_
      (.inr (by simpa using herror)))
    simp only [TcpQpair.reqs_setReq_self]
    rw [hreceived, ← hall.1, UInt32.toNat_add,
      Nat.mod_eq_of_lt (hc.le.trans_lt (UInt32.toNat_lt _))]
  · exact htake

theorem moves_dataCrc32CalcDone {p : DataPdu} (hA : A ∨ s.active = true) (h : Sound Q s)
    (hp : p ∈ s.pdus) (hlen : p.dataLen ≠ 0) (ok : Bool) :
    Moves Q A B s (dataCrc32CalcDone Q p ok s) := by
  obtain ⟨hw, -, hc⟩ := h.data p hp hlen
  have hlone := h.lone_erase hp hlen
  -- with the error noted, if there is one
  obtain ⟨s₁, hs₁, h₁, hmoves, halike, hpdus, hwork, hactive⟩ : ∃ s₁, s₁ = (if ok then s else
      (s.setReq p.slot fun r => { r with status := .transientTransportError }).emit
        (.mismatch (s.reqs p.slot).arrival)) ∧ Sound Q s₁ ∧ Moves Q A B s s₁ ∧
      (s.reqs p.slot).Alike (s₁.reqs p.slot) ∧ s₁.pdus = s.pdus ∧ s₁.working = s.working ∧
      s₁.active = s.active := by
    cases ok with
    | true => exact ⟨s, rfl, h, .refl, rfl, rfl, rfl, rfl⟩
    | false =>
      refine ⟨_, rfl, .emit (h.mark rfl fun u hu => .inl hu) rfl,
        .single (.mismatch hw hlen hc), ?_, rfl, rfl, rfl⟩
      simp only [Bool.false_eq_true, if_false, TcpQpair.reqs_emit, TcpQpair.reqs_setReq_self]
      rfl
  have hc₁ : (s₁.reqs p.slot).Carries p := by
    rw [halike]
    exact hc
  unfold dataCrc32CalcDone
  rw [← hs₁]
  dsimp only
  rw [← hpdus] at hp hlone ⊢
  split_ifs with hcapsule
  · have hfacts := hc₁.2
    rw [if_pos hcapsule] at hfacts
    have h₂ := h₁.erasePdu p
    have hdrop : Moves Q A B s { s₁ with pdus := s₁.pdus.erase p } :=
      hmoves.tail (.dropCapsule hcapsule)
    refine hdrop.trans (moves_capsulePayload (hactive ▸ hA) h₂ (hwork ▸ hw) hlone hfacts.1 ?_ ?_)
    · exact hc₁.1.trans hfacts.2.1
    · exact hfacts.2.2
  · rw [Bool.not_eq_true] at hcapsule
    exact hmoves.trans (moves_dataPayload (hactive ▸ hA) h₁ hp (hwork ▸ hw) hlone hcapsule hc₁)

theorem moves_r2tComplete (hA : A ∨ s.active = true) (h : Sound Q s) (ht : t ∈ s.working)
    (hs : (s.reqs t).state = .awaitingR2tAck)
    (hB : B ∨ ((s.reqs t).h2cOffset = (s.reqs t).length →
      (s.reqs t).status ≠ .transientTransportError)) :
    Moves Q A B s (nvmfTcpR2tComplete Q t (s.setReq t fun r => { r with pdu := none })) := by
  have hack : Moves Q A B s (s.setReq t fun r =>
      { r with pdu := none, state := .transferringH2c }) := by
    have hmoves : Moves Q A B s ((s.setReq t fun r => { r with pdu := none }).setReq t fun r =>
        { r with state := .transferringH2c }) :=
      .head (.setPdu t none) (.single (.ack ht (by simpa using hs)))
    rwa [TcpQpair.setReq_setReq] at hmoves
  unfold nvmfTcpR2tComplete
  simp only [TcpQpair.setReq_setReq, TcpQpair.reqs_setReq_self]
  split_ifs with hall
  · obtain ⟨-, hreceived, -⟩ := (h.rest t ht (Set.notMem_empty t)).fed (.inr hs)
    refine hack.trans (moves_dataReady hA (h.enter_acked ht hs hall) (by simp) (by simp) ?_ ?_)
    · simp [hreceived, hall]
    · simpa using hB.imp_right fun hstatus => hstatus hall
  · exact hack

/-! ## The steps -/

/-- A write of this kind gives the request back. -/
def OutPdu.ends (success : Bool) : OutPdu → Bool
  | .r2t => false
  | .c2hData _ => success
  | .capsuleResp => true

theorem moves_requestFree (hA : A ∨ s.active = true ∧ s.fusedFirst ≠ some t ∧
      (s.reqs t).fusedPair = none)
    (h : Sound Q s) (ht : t ∈ s.working) (hs : (s.reqs t).state = .transferringC2h) :
    Moves Q A B s (nvmfTcpRequestFree Q t (s.setReq t fun r => { r with pdu := none })) := by
  unfold nvmfTcpRequestFree
  rw [TcpQpair.setReq_setReq]
  rcases hA with ha | ⟨hactive, hfirst, hpair⟩
  · have hin : SoundBut Q (insert t ∅) (s.setReq t fun r =>
        { r with pdu := none, state := .completed }) := by
      refine .setReq (h.enter ht ?_ (h.no_pdu ?_)) (.inl rfl) rfl rfl fun u hu => .inl hu <;>
        simp [TcpReq.TakesData, hs]
    have hdrop : Moves Q A B s (s.setReq t fun r =>
        { r with pdu := none, state := .completed }) := by
      have hmoves : Moves Q A B s ((s.setReq t fun r => { r with pdu := none }).setReq t fun r =>
          { r with state := .completed }) :=
        .head (.setPdu t none) (.single (.slide ha (by simp [TcpReq.TakesData, hs])
          (.inr (.inr rfl)) rfl))
      rwa [TcpQpair.setReq_setReq] at hmoves
    refine hdrop.trans ?_
    cases hactive : s.active with
    | true =>
      have hrun : nvmfTcpReqProcess Q {} t (s.setReq t fun r =>
          { r with pdu := none, state := .completed }) =
          completeReq Q t (s.setReq t fun r => { r with pdu := none, state := .completed }) := by
        simp [nvmfTcpReqProcess, hactive]
      rw [hrun]
      exact moves_atCompleted ha ⟨hin, Set.notMem_empty t, by simp, by simp,
        fun x hx => absurd hx (Set.notMem_empty x)⟩ hin.card_ready_lt
    | false => exact moves_process_inactive ha hin hactive (by simp) (by simp)
  · have hrun : nvmfTcpReqProcess Q {} t (s.setReq t fun r =>
        { r with pdu := none, state := .completed }) =
        nvmfTcpReqPut t (giveUp Q t (s.setReq t fun r =>
          { r with pdu := none, state := .completed })) := by
      rw [← completeReq_of_unpaired (by simp) (by simpa using hpair)]
      simp [nvmfTcpReqProcess, hactive]
    rw [hrun]
    exact .single (.free ht hs hfirst hpair hactive)

theorem moves_reqPduWriteDone {success : Bool}
    (hA : A ∨ s.active = true ∧ ∀ out, (s.reqs t).pdu = some out → out.ends success = true →
      s.fusedFirst ≠ some t ∧ (s.reqs t).fusedPair = none)
    (hB : B ∨ ((s.reqs t).pdu = some .r2t → (s.reqs t).h2cOffset = (s.reqs t).length →
      (s.reqs t).status ≠ .transientTransportError))
    (h : Sound Q s) (ht : t ∈ s.working) (hpdu : (s.reqs t).pdu ≠ none) :
    Moves Q A B s (reqPduWriteDone Q t success s) := by
  have hfree : ∀ out, (s.reqs t).pdu = some out → out.ends success = true →
      (s.reqs t).state = .transferringC2h →
      Moves Q A B s (nvmfTcpRequestFree Q t (s.setReq t fun r => { r with pdu := none })) := by
    intro out hout hends hs
    refine moves_requestFree (hA.imp_right fun hcalm => ⟨hcalm.1, hcalm.2 out hout hends⟩) h ht hs
  unfold reqPduWriteDone
  dsimp only
  rcases h.out_cases ht hpdu with ⟨hs, hout⟩ | ⟨hs, hout⟩
  · rw [if_neg (by simp [hs]), hout]
    exact moves_r2tComplete (hA.imp_right And.left) h ht hs
      (hB.imp_right fun hstatus => hstatus hout)
  · rw [if_neg (by simp [hs])]
    cases hkind : (s.reqs t).pdu with
    | none => exact absurd hkind hpdu
    | some out =>
      cases out with
      | r2t => exact absurd hkind hout
      | c2hData digesting =>
        dsimp only
        split_ifs with hsuccess
        · exact hfree _ hkind hsuccess hs
        · rw [TcpQpair.setReq_setReq]
          exact .single (.setPdu t (some .capsuleResp))
      | capsuleResp => exact hfree _ hkind rfl hs

end Chains

/-- Nothing cuts the life of a fused request short: the qpair stays active, no command has the
reserved value of `FUSE`, and a request is given back only once nothing links to it. -/
def Calm (s : TcpQpair) : TcpEvent → Prop
  | .capsule _ cmd _ => cmd.fuse ≠ .reserved
  | .writeDone t success => ∀ out, (s.reqs t).pdu = some out → out.ends success = true →
      s.fusedFirst ≠ some t ∧ (s.reqs t).fusedPair = none
  | .disconnect => False
  | _ => True

/-- No R2T is known to be sent after all the data of its request came in, some of it wrong. -/
def AckedInTime (s : TcpQpair) : TcpEvent → Prop
  | .writeDone t _ => (s.reqs t).pdu = some .r2t → (s.reqs t).h2cOffset = (s.reqs t).length →
      (s.reqs t).status ≠ .transientTransportError
  | _ => True

section Steps

variable {Q : QpCtx} {A B : Prop} {s s' : TcpQpair}

theorem moves_capsuleCmdHdrHandle {b : BufSupply}
    (hA : A ∨ s.active = true ∧ s.cmd.fuse ≠ .reserved) (h : Sound Q s) :
    Moves Q A B s (nvmfTcpCapsuleCmdHdrHandle Q b s) := by
  unfold nvmfTcpCapsuleCmdHdrHandle
  split
  · split_ifs
    · exact .refl
    · exact moves_quiet (.inl rfl) (.inl rfl) rfl
  · rename_i t rest hfree
    have hnew : ((nvmfTcpReqGet t s).reqs t).state = .new := by rw [reqs_nvmfTcpReqGet_self]
    have hget : (nvmfTcpReqGet t s).active = s.active := rfl
    by_cases hactive : s.active = true
    · have hrun : nvmfTcpReqProcess Q b t (nvmfTcpReqGet t s) =
          atNew Q b t (nvmfTcpReqGet t s) := by
        simp [nvmfTcpReqProcess, hget, hactive, hnew]
      rw [hrun]
      exact moves_atNew h hfree hactive (hA.imp_right And.right)
    · have ha : A := hA.resolve_right fun hon => hactive hon.1
      rw [Bool.not_eq_true] at hactive
      have hidle := h.idle t (hfree ▸ List.mem_cons_self ..)
      refine .head (.get ha hfree (h.notMem_working hfree))
        (moves_process_inactive ha (h.get hfree) hactive ?_ ?_)
      · rw [reqs_nvmfTcpReqGet_self]
        exact hidle.pdu
      · rw [hnew]
        decide

theorem moves_h2cData {cccid ttag : UInt16} {datao datal : UInt32} (h : Sound Q s)
    (hg : InOrder s (.h2cData cccid ttag datao datal)) :
    Moves Q A B s (nvmfTcpH2cDataHdrHandle Q cccid ttag datao datal s) := by
  unfold nvmfTcpH2cDataHdrHandle
  dsimp only
  split_ifs with hmax hstate hcid hoffset hrange
  any_goals exact moves_terminate _
  obtain ⟨hslot, ht, hc, hpdus⟩ := h.accepted hg hmax hstate hoffset hrange
  have haccept := Move.accept (Q := Q) (A := A) (B := B) (p := ⟨ttag.toNat, false, 0, datao, datal⟩)
    hslot ht rfl hc ((h.rest _ ht (Set.notMem_empty _)).fed hc.takesData) hpdus
  exact .head haccept (moves_quiet (.inl rfl) (.inl rfl) rfl)

theorem moves_poll {b : BufSupply} {t : ℕ} (hA : A ∨ s.active = true) (h : Sound Q s)
    (ht : t ∈ s.working) (hs : (s.reqs t).state = .needBuffer) :
    Moves Q A B s (nvmfTcpReqProcess Q b t s) := by
  have hpdu := ((h.rest t ht (Set.notMem_empty t)).of_needBuffer hs).1
  have hnot : ¬ (s.reqs t).TakesData := by simp [TcpReq.TakesData, hs]
  unfold nvmfTcpReqProcess
  rw [if_pos hs, hs]
  split_ifs with hactive
  · have ha : A := hA.resolve_right (by simpa using hactive)
    have hout : Moves Q A B s { s with pending := s.pending.erase (.own t) } :=
      moves_quiet (.inl rfl) (.inl rfl) rfl
    have hend : Completing Q ∅ t ({ s with pending := s.pending.erase (.own t) }.setReq t
        fun r => { r with state := .completed }) :=
      ⟨(h.unqueue ht hs).setReq (.inl rfl) rfl rfl fun u hu => .inl hu, Set.notMem_empty t, by simp,
        by simpa using hpdu, fun x hx => absurd hx (Set.notMem_empty x)⟩
    have hdrop : Moves Q A B s ({ s with pending := s.pending.erase (.own t) }.setReq t
        fun r => { r with state := .completed }) :=
      hout.tail (.slide ha (fun htakes => absurd htakes hnot) (.inr (.inr rfl)) rfl)
    exact hdrop.trans (moves_atCompleted ha hend hend.sound.card_ready_lt)
  · exact moves_atNeedBuffer h ht hs (by simpa using hactive)

theorem moves_reqPduWriteFailed {t : ℕ} (h : Sound Q s) (ht : t ∈ s.working)
    (hpdu : (s.reqs t).pdu ≠ none) : Moves Q A B s (reqPduWriteFailed Q t s) := by
  have hlost : Moves Q A B s { s.setReq t fun r => { r with pdu := none } with
      recv := .quiescing } :=
    .head (.setPdu t none) (moves_quiet (.inl rfl) (.inl rfl) rfl)
  unfold reqPduWriteFailed
  dsimp only
  rcases h.out_cases ht hpdu with ⟨hs, -⟩ | ⟨hs, -⟩ <;> rw [if_neg (by simp [hs])] <;> exact hlost

theorem moves_abort {t : ℕ} (hA : A ∨ s.active = true) (h : Sound Q s) (ht : t ∈ s.working) :
    Moves Q A B s (nvmfTcpQpairAbortRequest Q t s) := by
  unfold nvmfTcpQpairAbortRequest
  split_ifs with hs
  · have hout : Moves Q A B s { s with pending := s.pending.erase (.own t) } :=
      moves_quiet (.inl rfl) (.inl rfl) rfl
    exact hout.trans (moves_answer hA (h.unqueue ht hs) rfl (.inr rfl) (.aborted hs)
      ((h.rest t ht (Set.notMem_empty t)).of_needBuffer hs).1)
  · exact .refl

/-- **Every step of a qpair in order is a chain of moves.** -/
theorem moves_step {e : TcpEvent} (h : Sound Q s) (hg : InOrder s e)
    (hA : A ∨ s.active = true ∧ Calm s e) (hB : B ∨ AckedInTime s e)
    (hstep : tcpStep Q s e = some s') : Moves Q A B s s' := by
  have hactive : A ∨ s.active = true := hA.imp_right And.left
  cases e with
  | capsule hdr cmd b =>
    obtain rfl := Option.some.inj hstep
    have hnext : Moves Q A B s { s with hdr, cmd, recv := .awaitReq } :=
      moves_quiet (.inl rfl) (.inl rfl) rfl
    exact hnext.trans (moves_capsuleCmdHdrHandle hA (h.rx s.active .awaitReq hdr cmd))
  | nextPdu hdr cmd =>
    obtain rfl := Option.some.inj hstep
    exact moves_quiet (.inl rfl) (.inl rfl) rfl
  | h2cData cccid ttag datao datal =>
    obtain rfl := Option.some.inj hstep
    exact moves_h2cData h hg
  | dataDone p ok =>
    obtain ⟨⟨hp, hlen, -⟩, ⟨⟩⟩ := Option.ite_none_right_eq_some.mp hstep
    exact moves_dataCrc32CalcDone hactive h hp hlen ok
  | poll t b =>
    obtain ⟨⟨ht, hs⟩, ⟨⟩⟩ := Option.ite_none_right_eq_some.mp hstep
    exact moves_poll hactive h ht hs
  | complete t sc =>
    obtain ⟨⟨ht, hs⟩, ⟨⟩⟩ := Option.ite_none_right_eq_some.mp hstep
    have hin : SoundBut Q (insert t ∅) s := by
      refine h.enter ht ?_ (h.no_pdu ?_) <;> simp [TcpReq.TakesData, hs]
    exact moves_answer hactive hin rfl (.inl rfl) (.executed sc hs)
      ((h.rest t ht (Set.notMem_empty t)).pdu_of_executing hs)
  | digestDone t =>
    obtain ⟨-, ⟨⟩⟩ := Option.ite_none_right_eq_some.mp hstep
    exact .single (.setPdu t _)
  | nextPart t digesting =>
    obtain ⟨-, ⟨⟩⟩ := Option.ite_none_right_eq_some.mp hstep
    exact .single (.setPdu t _)
  | writeDone t success =>
    obtain ⟨⟨ht, hpdu, -⟩, ⟨⟩⟩ := Option.ite_none_right_eq_some.mp hstep
    exact moves_reqPduWriteDone hA hB h ht hpdu
  | writeFailed t =>
    obtain ⟨⟨ht, hpdu⟩, ⟨⟩⟩ := Option.ite_none_right_eq_some.mp hstep
    exact moves_reqPduWriteFailed h ht hpdu
  | abort t =>
    obtain ⟨ht, ⟨⟩⟩ := Option.ite_none_right_eq_some.mp hstep
    exact moves_abort hactive h ht
  | others queue =>
    obtain ⟨-, ⟨⟩⟩ := Option.ite_none_right_eq_some.mp hstep
    exact moves_quiet (.inl rfl) (.inl rfl) rfl
  | disconnect =>
    obtain rfl := Option.some.inj hstep
    exact moves_quiet (.inr ⟨hA.resolve_right And.right, rfl⟩) (.inl rfl) rfl

/-- **The rule for runs**: what every move keeps holds wherever a run of admitted steps leads. -/
theorem keep_reach {below : TcpReq} {G : TcpQpair → TcpEvent → Prop} {I : TcpQpair → Prop}
    (hG : ∀ s e, I s → G s e →
      InOrder s e ∧ (A ∨ s.active = true ∧ Calm s e) ∧ (B ∨ AckedInTime s e))
    (hinit : I (.init Q below)) (hI : ∀ s s', Named s → I s → Move Q A B s s' → I s')
    (h : (tcpSys Q below).Reach G s) : Sound Q s ∧ I s := by
  suffices hall : Sound Q s ∧ Named s ∧ I s from ⟨hall.1, hall.2.2⟩
  refine h.invariant (I := fun s => Sound Q s ∧ Named s ∧ I s)
    ⟨sound_init Q below, .init Q below, hinit⟩ ?_
  rintro s e s' ⟨hsound, hnamed, hs⟩ hg hstep
  obtain ⟨horder, hA, hB⟩ := hG s e hs hg
  have hmoves : Moves Q A B s s' := moves_step hsound horder hA hB hstep
  refine ⟨hsound.step horder hstep, ?_⟩
  exact hmoves.keep (I := fun s => Named s ∧ I s)
    (fun s s' hs hm => ⟨hs.1.move hm, hI s s' hs.1 hs.2 hm⟩) ⟨hnamed, hs⟩

end Steps

end NdpHeaan
