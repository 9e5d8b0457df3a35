import Mathlib.Data.Finset.Card
import NdpHeaan.Tcp.Sound

/-!
# Tcp/SoundStep — the steps of a TCP qpair keep it in order

Every function of the request state machine has one lemma here: it enters the slot it works on and
leaves it where the request rests, or gives it back to the free queue.  The one thing a host can do
to break this is an H2CData PDU that is out of order (`InOrder`); nothing else a qpair goes through
needs a condition.
-/

open Machinery

namespace NdpHeaan

namespace SoundBut

variable {Q : QpCtx} {X : Set ℕ} {s : TcpQpair} {t : ℕ}

/-! ## To the controller and to the host -/

theorem requestTransferOut (h : SoundBut Q (insert t X) s) (hx : t ∉ X) :
    SoundBut Q X (requestTransferOut Q t s) := by
  unfold NdpHeaan.requestTransferOut
  refine .emit (.leave (h.setReq (.inl rfl) rfl rfl fun u hu => .inl hu) hx ?_ ?_) rfl
  · rw [TcpQpair.reqs_setReq_self]
    dsimp only [TcpReq.AtRest]
    split <;> simp
  · rw [TcpQpair.reqs_setReq_self]
    simp

/-- Of a slot at rest, or of one the step works on. -/
theorem execReq (h : SoundBut Q X s) (ht : t ∈ s.working)
    (hs : (s.reqs t).state = .readyToExecute ∨ (s.reqs t).state = .executing) :
    SoundBut Q X (execReq t s) := by
  unfold NdpHeaan.execReq
  refine .emit ?_ rfl
  by_cases hx : t ∈ X
  · exact h.setReq hx rfl rfl fun u hu => .inl hu
  have hpdu : (s.reqs t).pdu = none :=
    hs.elim (h.rest t ht hx).pdu_of_ready (h.rest t ht hx).pdu_of_executing
  have hin : SoundBut Q (insert t X) s := by
    refine h.enter ht ?_ (h.no_pdu ?_) <;> rcases hs with hs | hs <;> simp [TcpReq.TakesData, hs]
  refine .leave (hin.setReq (.inl rfl) rfl rfl fun u hu => .inl hu) hx ?_ ?_
  · rw [TcpQpair.reqs_setReq_self]
    exact hpdu
  · rw [TcpQpair.reqs_setReq_self]
    simp

theorem unpair (h : SoundBut Q X s) (u : ℕ) : SoundBut Q X (unpair t u s) := by
  unfold NdpHeaan.unpair
  exact .mark (.mark h rfl fun _ hu => nomatch hu) rfl fun _ hu => nomatch hu

end SoundBut

theorem state_execReq (t u : ℕ) (s : TcpQpair) :
    ((execReq t s).reqs u).state = if u = t then .executing else (s.reqs u).state := by
  simp only [execReq, TcpQpair.reqs_emit, TcpQpair.reqs_setReq]
  split_ifs <;> rfl

namespace SoundBut

variable {Q : QpCtx} {X : Set ℕ} {s : TcpQpair} {t : ℕ}

/-- Both halves of a fused command are executed, one after the other. -/
theorem execReq_execReq {u : ℕ} (h : SoundBut Q X s) (ht : t ∈ s.working) (hu : u ∈ s.working)
    (hts : (s.reqs t).state = .readyToExecute) (hus : (s.reqs u).state = .readyToExecute) :
    SoundBut Q X (NdpHeaan.execReq t (NdpHeaan.execReq u s)) := by
  refine (h.execReq hu (.inl hus)).execReq ht ?_
  rw [state_execReq]
  split_ifs
  · exact .inr rfl
  · exact .inl hts

theorem readyToExecute (h : SoundBut Q X s) (ht : t ∈ s.working) (hx : t ∉ X)
    (hs : (s.reqs t).state = .readyToExecute) : SoundBut Q X (readyToExecute Q t s) := by
  unfold NdpHeaan.readyToExecute
  dsimp only
  split_ifs with hfuse hfailed
  · exact h.execReq ht (.inl hs)
  · refine .requestTransferOut (.mark (.enter h ht ?_ (h.no_pdu ?_)) rfl fun u hu => .inl hu) hx <;>
      simp [TcpReq.TakesData, hs]
  · split
    · exact h
    · rename_i u hpair
      split_ifs with hus
      · exact h
      rw [not_not] at hus
      have hu : u ∈ s.working :=
        h.mem_working (h.pairs t (h.mem_slots_of_working ht) u hpair) (by simp [hus])
      split
      · exact (h.execReq_execReq ht hu hs hus).unpair u
      · exact (h.execReq_execReq hu ht hus hs).unpair u
      · exact h.execReq ht (.inl hs)

/-! ## Back to the free queue -/

theorem releaseBuffers (h : SoundBut Q X s) (hx : t ∈ X) : SoundBut Q X (releaseBuffers Q t s) := by
  unfold NdpHeaan.releaseBuffers
  dsimp only
  split_ifs with hpool
  · refine h.setReq_log (fun u hu => ?_) rfl (fun u hu => .inl hu)
      (fun hf => absurd hf (h.notMem_free (h.working t hx))) (absurd hx) (absurd hx) (absurd hx)
    rw [poolHeld_append, TcpQpair.log_setReq, h.pool u hu]
    by_cases hut : u = t
    · simp [hut, poolStep, TcpReq.held, hpool]
    · simp [hut, poolStep, Ne.symm hut]
  · exact h.emit rfl
  · exact h

end SoundBut

theorem releaseBuffers_self (Q : QpCtx) (t : ℕ) (s : TcpQpair) :
    ((releaseBuffers Q t s).reqs t).dataFromPool = false := by
  unfold releaseBuffers
  dsimp only
  split_ifs with hpool
  · simp
  · simpa using hpool
  · simpa using hpool

theorem releaseBuffers_alike (Q : QpCtx) (t u : ℕ) (s : TcpQpair) :
    (releaseBuffers Q t s).reqs u = s.reqs u ∨
      u = t ∧
        (releaseBuffers Q t s).reqs u = { s.reqs t with dataFromPool := false, iov := [] } := by
  unfold releaseBuffers
  dsimp only
  split_ifs
  · by_cases hut : u = t
    · subst hut
      exact .inr ⟨rfl, by simp⟩
    · exact .inl (by simp [hut])
  · exact .inl rfl
  · exact .inl rfl

/-- The requests that wait in READY_TO_EXECUTE. -/
def TcpQpair.ready (s : TcpQpair) : Finset ℕ :=
  s.working.toFinset.filter fun t => (s.reqs t).state = .readyToExecute

theorem TcpQpair.mem_ready {s : TcpQpair} {t : ℕ} :
    t ∈ s.ready ↔ t ∈ s.working ∧ (s.reqs t).state = .readyToExecute := by
  rw [ready, Finset.mem_filter, List.mem_toFinset]

/-- One request leaves READY_TO_EXECUTE, and none gets there. -/
theorem TcpQpair.ready_ssubset {s s' : TcpQpair} {u : ℕ} (hw : s'.working = s.working)
    (hothers : ∀ v ≠ u, (s'.reqs v).state = .readyToExecute → (s.reqs v).state = .readyToExecute)
    (hu : u ∈ s.ready) (hleft : (s'.reqs u).state ≠ .readyToExecute) : s'.ready ⊂ s.ready := by
  refine (Finset.ssubset_iff_of_subset fun v hv => ?_).mpr
    ⟨u, hu, fun hmem => hleft (mem_ready.mp hmem).2⟩
  obtain ⟨hvw, hvs⟩ := mem_ready.mp hv
  have hvu : v ≠ u := fun he => hleft (he ▸ hvs)
  exact mem_ready.mpr ⟨hw ▸ hvw, hothers v hvu hvs⟩

/-- Given back, but not yet in the free queue. -/
structure TcpReq.Done (r : TcpReq) : Prop where
  state : r.state = .completed
  dataFromPool : r.dataFromPool = false
  pdu : r.pdu = none

section Done

variable {Q : QpCtx} {s : TcpQpair} {t x : ℕ}

theorem done_setReq {f : TcpReq → TcpReq} (hx : (s.reqs x).Done)
    (hf : (s.reqs t).Done → (f (s.reqs t)).Done) : ((s.setReq t f).reqs x).Done := by
  rw [TcpQpair.reqs_setReq]
  split_ifs with hxt
  · exact hf (hxt ▸ hx)
  · exact hx

/-- A request that waits is not one that is done. -/
theorem done_setReq_of_ready {f : TcpReq → TcpReq} (hx : (s.reqs x).Done)
    (hs : (s.reqs t).state = .readyToExecute) : ((s.setReq t f).reqs x).Done :=
  done_setReq hx fun ht => by rw [ht.state] at hs; cases hs

theorem done_execReq (hx : (s.reqs x).Done) (hs : (s.reqs t).state = .readyToExecute) :
    ((execReq t s).reqs x).Done := by
  rw [execReq, TcpQpair.reqs_emit]
  exact done_setReq_of_ready hx hs

theorem done_readyToExecute (hx : (s.reqs x).Done) (hs : (s.reqs t).state = .readyToExecute)
    (hfailed : (s.reqs t).fusedFailed = true) : ((readyToExecute Q t s).reqs x).Done := by
  unfold readyToExecute
  dsimp only
  split_ifs
  · exact done_execReq hx hs
  · rw [requestTransferOut, TcpQpair.reqs_emit]
    refine done_setReq_of_ready (done_setReq_of_ready hx hs) ?_
    rw [TcpQpair.reqs_setReq_self]
    exact hs

end Done

/-- What COMPLETED does to a request before it looks at its partner. -/
def giveUp (Q : QpCtx) (t : ℕ) (s : TcpQpair) : TcpQpair :=
  (releaseBuffers Q t s).setReq t fun r => { r with length := 0, iov := [], fusedFailed := false }

section GiveUp

variable {Q : QpCtx} {X : Set ℕ} {s : TcpQpair} {t : ℕ}

theorem giveUp_self (hstate : (s.reqs t).state = .completed) (hpdu : (s.reqs t).pdu = none) :
    ((giveUp Q t s).reqs t).Done := by
  have hpool := releaseBuffers_self Q t s
  rw [giveUp, TcpQpair.reqs_setReq_self]
  rcases releaseBuffers_alike Q t t s with hr | ⟨-, hr⟩ <;> rw [hr] at hpool ⊢
  · exact ⟨hstate, hpool, hpdu⟩
  · exact ⟨hstate, rfl, hpdu⟩

theorem giveUp_of_ne {u : ℕ} (hu : u ≠ t) : (giveUp Q t s).reqs u = s.reqs u := by
  rw [giveUp, TcpQpair.reqs_setReq_of_ne _ _ _ hu]
  exact (releaseBuffers_alike Q t u s).resolve_right fun h => hu h.1

theorem SoundBut.giveUp (h : SoundBut Q X s) (hx : t ∈ X) : SoundBut Q X (giveUp Q t s) := by
  have hpool := releaseBuffers_self Q t s
  refine (h.releaseBuffers hx).setReq hx rfl ?_ fun u hu => .inl hu
  simp [TcpReq.held, hpool]

theorem active_giveUp : (NdpHeaan.giveUp Q t s).active = s.active := by
  unfold NdpHeaan.giveUp releaseBuffers
  dsimp only
  split_ifs <;> rfl

theorem working_giveUp : (NdpHeaan.giveUp Q t s).working = s.working := by
  unfold NdpHeaan.giveUp releaseBuffers
  dsimp only
  split_ifs <;> rfl

end GiveUp

/-- A request is in COMPLETED, and so are those `X` that wait for it to be given back. -/
structure Completing (Q : QpCtx) (X : Set ℕ) (t : ℕ) (s : TcpQpair) : Prop where
  sound : SoundBut Q (insert t X) s
  notMem : t ∉ X
  state : (s.reqs t).state = .completed
  pdu : (s.reqs t).pdu = none
  done : ∀ x ∈ X, (s.reqs x).Done

/-- The partner of a request that ends is told. -/
def failPartner (Q : QpCtx) (t u : ℕ) (s : TcpQpair) : TcpQpair :=
  (giveUp Q t s).setReq u fun r => { r with fusedFailed := true }

namespace Completing

variable {Q : QpCtx} {X : Set ℕ} {t u : ℕ} {s : TcpQpair}

theorem ne (h : Completing Q X t s) {x : ℕ} (hx : x ∈ X) : x ≠ t := fun he => h.notMem (he ▸ hx)

theorem done_giveUp (h : Completing Q X t s) : ∀ x ∈ insert t X, ((giveUp Q t s).reqs x).Done := by
  rintro x (rfl | hx)
  · exact giveUp_self h.state h.pdu
  · rw [giveUp_of_ne (h.ne hx)]
    exact h.done x hx

theorem sound_giveUp (h : Completing Q X t s) : SoundBut Q (insert t X) (giveUp Q t s) :=
  h.sound.giveUp (.inl rfl)

theorem done_failPartner (h : Completing Q X t s) :
    ∀ x ∈ insert t X, ((failPartner Q t u s).reqs x).Done := fun x hx =>
  done_setReq (h.done_giveUp x hx) fun hd => ⟨hd.state, hd.dataFromPool, hd.pdu⟩

theorem sound_failPartner (h : Completing Q X t s) :
    SoundBut Q (insert t X) (failPartner Q t u s) := by
  unfold failPartner
  exact h.sound_giveUp.mark rfl fun v hv => .inl hv

/-- Only the state of the request itself has changed. -/
theorem state_failPartner {v : ℕ} (hv : v ≠ t) :
    ((failPartner Q t u s).reqs v).state = (s.reqs v).state := by
  rw [failPartner, TcpQpair.reqs_setReq]
  split_ifs with hvu
  · rw [← hvu, giveUp_of_ne hv]
  · rw [giveUp_of_ne hv]

section Partner

variable (h : Completing Q X t s) (hpair : (s.reqs t).fusedPair = some u)
  (hready : ((failPartner Q t u s).reqs u).state = .readyToExecute)

include h hready in
theorem partner_notMem : u ∉ insert t X := fun hmem => by
  rw [(h.done_failPartner u hmem).state] at hready
  cases hready

include h hpair hready in
theorem partner_working : u ∈ (failPartner Q t u s).working := by
  have ht := h.sound.mem_slots_of_working (h.sound.working t (.inl rfl))
  exact h.sound_failPartner.mem_working (h.sound.pairs t ht u hpair) (by simp [hready])

include h hpair hready in
/-- A partner that waits is the next to end on a qpair that is not active. -/
theorem partner : Completing Q (insert t X) u
    ((failPartner Q t u s).setReq u fun r => { r with state := .completed }) where
  sound := by
    have hin : SoundBut Q (insert u (insert t X)) (failPartner Q t u s) := by
      refine h.sound_failPartner.enter (h.partner_working hpair hready) ?_
        (h.sound_failPartner.no_pdu ?_) <;> simp [TcpReq.TakesData, hready]
    exact hin.setReq (.inl rfl) rfl rfl fun v hv => .inl hv
  notMem := h.partner_notMem hready
  state := by simp
  pdu := by
    rw [TcpQpair.reqs_setReq_self]
    exact (h.sound_failPartner.rest u (h.partner_working hpair hready)
      (h.partner_notMem hready)).pdu_of_ready hready
  done := fun x hx => done_setReq_of_ready (h.done_failPartner x hx) hready

include h hpair hready in
/-- One request less waits then. -/
theorem ready_partner :
    ((failPartner Q t u s).setReq u fun r => { r with state := .completed }).ready ⊂ s.ready := by
  have hwork : (failPartner Q t u s).working = s.working := working_giveUp
  have hut : u ≠ t := fun he => h.partner_notMem hready (.inl he)
  refine TcpQpair.ready_ssubset (u := u) hwork (fun v hv hvs => ?_) ?_ ?_
  · rw [TcpQpair.reqs_setReq_of_ne _ _ _ hv] at hvs
    have hvt : v ≠ t := by
      rintro rfl
      rw [(h.done_failPartner v (.inl rfl)).state] at hvs
      cases hvs
    rwa [state_failPartner hvt] at hvs
  · have hin := h.partner_working hpair hready
    rw [hwork] at hin
    rw [state_failPartner hut] at hready
    exact TcpQpair.mem_ready.mpr ⟨hin, hready⟩
  · simp

end Partner

end Completing

/-- The partner of a request that ends, told and, where it waits, run in turn. -/
def kickPartner (Q : QpCtx) (n t u : ℕ) (s : TcpQpair) : TcpQpair :=
  if ((failPartner Q t u s).reqs u).state = .readyToExecute then
    kickReady Q (atCompleted Q n) u (failPartner Q t u s)
  else failPartner Q t u s

/-- The case of COMPLETED, without and with a partner. -/
theorem atCompleted_succ {Q : QpCtx} {n t : ℕ} {s : TcpQpair} (hpdu : (s.reqs t).pdu = none) :
    atCompleted Q (n + 1) t s =
      match (s.reqs t).fusedPair with
      | none => nvmfTcpReqPut t (giveUp Q t s)
      | some u => nvmfTcpReqPut t ((kickPartner Q n t u s).setReq t fun r =>
          { r with fusedPair := none }) := by
  rw [atCompleted, hpdu]
  rfl

namespace Completing

variable {Q : QpCtx} {X : Set ℕ} {n t u : ℕ} {s : TcpQpair}

/-- What the partner does leaves those alone that wait to be given back, if that holds of a partner
that ends as well. -/
theorem kickPartner (h : Completing Q X t s) (hpair : (s.reqs t).fusedPair = some u)
    (hnext : ∀ s', Completing Q (insert t X) u s' → s'.ready ⊂ s.ready →
      SoundBut Q (insert t X) (atCompleted Q n u s') ∧
        ∀ x ∈ insert t X, ((atCompleted Q n u s').reqs x).Done) :
    SoundBut Q (insert t X) (kickPartner Q n t u s) ∧
      ∀ x ∈ insert t X, ((kickPartner Q n t u s).reqs x).Done := by
  unfold NdpHeaan.kickPartner
  split_ifs with hready
  · unfold kickReady
    split_ifs with hactive
    · refine ⟨h.sound_failPartner.readyToExecute (h.partner_working hpair hready)
        (h.partner_notMem hready) hready, fun x hx => ?_⟩
      exact done_readyToExecute (h.done_failPartner x hx) hready (by simp [failPartner])
    · exact hnext _ (h.partner hpair hready) (h.ready_partner hpair hready)
  · exact ⟨h.sound_failPartner, h.done_failPartner⟩

/-- The slot itself is given back last. -/
theorem put {s' : TcpQpair} (h : SoundBut Q (insert t X) s') (ht : t ∉ X)
    (hdone : ∀ x ∈ insert t X, (s'.reqs x).Done) :
    SoundBut Q X (nvmfTcpReqPut t s') ∧ ∀ x ∈ X, ((nvmfTcpReqPut t s').reqs x).Done := by
  have hself := hdone t (.inl rfl)
  refine ⟨h.put ht hself.dataFromPool hself.pdu, fun x hx => ?_⟩
  have hxt : x ≠ t := fun he => ht (he ▸ hx)
  rw [reqs_nvmfTcpReqPut_of_ne s' hxt]
  exact hdone x (.inr hx)

end Completing

/-- **COMPLETED gives a slot back**, and with it, on a qpair that is no longer active, the partners
that wait for it. -/
theorem Completing.atCompleted {Q : QpCtx} : ∀ {n t : ℕ} {X : Set ℕ} {s : TcpQpair},
    Completing Q X t s → s.ready.card < n →
    SoundBut Q X (atCompleted Q n t s) ∧ ∀ x ∈ X, ((atCompleted Q n t s).reqs x).Done
  | 0, _, _, _, _, hn => absurd hn (Nat.not_lt_zero _)
  | n + 1, t, X, s, h, hn => by
    rw [atCompleted_succ h.pdu]
    split
    · exact Completing.put h.sound_giveUp h.notMem h.done_giveUp
    · rename_i u hpair
      obtain ⟨hsound, hdone⟩ := h.kickPartner (n := n) hpair fun s' h' hless =>
        h'.atCompleted ((Finset.card_lt_card hless).trans_le (Nat.le_of_lt_succ hn))
      refine Completing.put (hsound.mark rfl fun _ hv => nomatch hv) h.notMem fun x hx => ?_
      exact done_setReq (hdone x hx) fun hd => ⟨hd.state, hd.dataFromPool, hd.pdu⟩

/-! ## `nvmf_tcp_req_process` of a request that is past its data -/

namespace SoundBut

variable {Q : QpCtx} {X : Set ℕ} {s : TcpQpair} {t : ℕ}

theorem length_working_le (h : SoundBut Q X s) : s.working.length ≤ Q.resourceCount := by
  have hlen := h.slots.length_eq
  rw [List.length_append, QpCtx.slots, List.length_range'] at hlen
  omega

/-- There is room for every request that waits. -/
theorem card_ready_lt (h : SoundBut Q X s) : s.ready.card < Q.resourceCount + 1 := by
  have hready : s.ready.card ≤ s.working.length :=
    (Finset.card_filter_le ..).trans s.working.toFinset_card_le
  exact Nat.lt_succ_of_le (hready.trans h.length_working_le)

theorem completeReq (h : SoundBut Q (insert t ∅) s) (hstate : (s.reqs t).state = .completed)
    (hpdu : (s.reqs t).pdu = none) : Sound Q (completeReq Q t s) := by
  refine (Completing.atCompleted ⟨h, Set.notMem_empty t, hstate, hpdu, fun x hx => ?_⟩
    h.card_ready_lt).1
  exact absurd hx (Set.notMem_empty x)

/-- A request that has its data, or its answer, is run on. -/
theorem process {b : BufSupply} (h : SoundBut Q (insert t ∅) s)
    (hstate : (s.reqs t).state = .readyToExecute ∨ (s.reqs t).state = .executed ∨
      (s.reqs t).state = .readyToComplete ∨ (s.reqs t).state = .completed)
    (hpdu : (s.reqs t).pdu = none) : Sound Q (nvmfTcpReqProcess Q b t s) := by
  have hneed : (s.reqs t).state ≠ .needBuffer := by
    rcases hstate with hs | hs | hs | hs <;> simp [hs]
  unfold nvmfTcpReqProcess
  rw [if_neg hneed]
  split_ifs
  · refine (h.setReq (.inl rfl) rfl rfl fun u hu => .inl hu).completeReq ?_ ?_
    · simp
    · simpa using hpdu
  · rcases hstate with hs | hs | hs | hs <;> rw [hs] <;> dsimp only
    · have hrest : (s.reqs t).AtRest := by simpa [TcpReq.AtRest, hs] using hpdu
      have hout : Sound Q s := h.leave (Set.notMem_empty t) hrest hneed
      exact hout.readyToExecute (h.working t (.inl rfl)) (Set.notMem_empty t) hs
    · exact h.requestTransferOut (Set.notMem_empty t)
    · exact h.requestTransferOut (Set.notMem_empty t)
    · exact h.completeReq hs hpdu

end SoundBut

end NdpHeaan
