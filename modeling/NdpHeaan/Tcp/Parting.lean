import NdpHeaan.Tcp.Fused

/-!
# Tcp/Parting — a TCP qpair that is no longer active

On such a qpair a request that gets anywhere goes to COMPLETED and is given back, together with a
partner that waits for it.  What is left of the links: whoever waits in READY_TO_EXECUTE waits for
the command that never came, or for a partner that works and links back.
-/

open Machinery Relation

namespace NdpHeaan

/-- **Whoever waits can be woken.** -/
structure Parting (s : TcpQpair) : Prop where
  inactive : s.active = false
  clean : ∀ t ∈ s.free, (s.reqs t).fusedPair = none
  waits : ∀ u ∈ s.working, (s.reqs u).state = .readyToExecute →
    ∀ t, (s.reqs u).fusedPair = some t →
      t ∈ s.working ∧ (s.reqs t).state ≠ .readyToExecute ∧ (s.reqs t).fusedPair = some u ∧
        ((s.reqs t).Leads (s.reqs u) ∨ (s.reqs u).Leads (s.reqs t))
  asked : ∀ t ∈ s.working, ∀ u ∈ s.working, (s.reqs t).fusedPair = some u →
    (s.reqs u).state = .readyToExecute → (s.reqs u).fusedPair = some t

/-- The qpair is disconnected. -/
theorem Fused.parting {s : TcpQpair} (h : Fused s) : Parting { s with active := false } where
  inactive := rfl
  clean := fun t ht => (h.linked.clean t ht).1
  waits := fun u hu hs t ht => by
    obtain ⟨htw, hback, -, hleads⟩ := h.linked.pairs u hu t ht
    refine ⟨htw, ?_, hback, hleads.symm⟩
    obtain ⟨-, -, hwaits⟩ := h.settled u hu (Set.notMem_empty u) hs
    rcases hwaits with hfirst | ⟨w, hw, hnot⟩
    · cases ht.symm.trans (h.linked.first u hfirst).2.pair
    · obtain rfl := Option.some.inj (hw.symm.trans ht)
      exact hnot.resolve_left (Set.notMem_empty w)
  asked := fun t ht u _ hpair _ => (h.linked.pairs t ht u hpair).2.1

namespace Parting

variable {Q : QpCtx} {s s' : TcpQpair} {t : ℕ} {f : TcpReq → TcpReq}

theorem around (h : Parting s) (recv : RecvState) (hdr : RxHdr) (cmd : TcpCmd)
    (pending : List Waiter) (pdus : List DataPdu) (log : List TcpEffect) :
    Parting { s with recv, hdr, cmd, pending, pdus, log } :=
  { h with }

/-- A request changes, but does not start to wait, and its links stay. -/
theorem setReq (h : Parting s) (hfuse : (f (s.reqs t)).cmd.fuse = (s.reqs t).cmd.fuse)
    (harrival : (f (s.reqs t)).arrival = (s.reqs t).arrival)
    (hpair : (f (s.reqs t)).fusedPair = (s.reqs t).fusedPair)
    (hready : (f (s.reqs t)).state = .readyToExecute → (s.reqs t).state = .readyToExecute) :
    Parting (s.setReq t f) := by
  have hpairs : ∀ v, ((s.setReq t f).reqs v).fusedPair = (s.reqs v).fusedPair :=
    TcpQpair.field_setReq TcpReq.fusedPair hpair
  have hstate : ∀ v, ((s.setReq t f).reqs v).state = .readyToExecute →
      (s.reqs v).state = .readyToExecute := by
    intro v hv
    rw [TcpQpair.reqs_setReq] at hv
    split_ifs at hv with hvt
    · exact hvt ▸ hready hv
    · exact hv
  have hleads : ∀ v w, (s.reqs v).Leads (s.reqs w) →
      ((s.setReq t f).reqs v).Leads ((s.setReq t f).reqs w) := by
    have hfuses : ∀ v, ((s.setReq t f).reqs v).cmd.fuse = (s.reqs v).cmd.fuse :=
      TcpQpair.field_setReq (fun r => r.cmd.fuse) hfuse
    have harrivals : ∀ v, ((s.setReq t f).reqs v).arrival = (s.reqs v).arrival :=
      TcpQpair.field_setReq TcpReq.arrival harrival
    intro v w hvw
    rw [TcpReq.Leads, hfuses, hfuses, harrivals, harrivals]
    exact hvw
  refine { h with
    clean := fun v hv => (hpairs v).trans (h.clean v hv)
    waits := fun u hu hs v hv => ?_
    asked := fun v hv u hu hpair hs => ?_ }
  · rw [hpairs] at hv ⊢
    obtain ⟨hvw, hnot, hback, hlead⟩ := h.waits u hu (hstate u hs) v hv
    exact ⟨hvw, fun hs' => hnot (hstate v hs'), hback, hlead.imp (hleads v u) (hleads u v)⟩
  · rw [hpairs] at hpair ⊢
    exact h.asked v hv u hu hpair (hstate u hs)

theorem giveUp (h : Parting s) : Parting (giveUp Q t s) := by
  have hrelease : Parting (releaseBuffers Q t s) := by
    unfold releaseBuffers
    dsimp only
    split_ifs
    · have hset : Parting (s.setReq t fun r => { r with dataFromPool := false, iov := [] }) :=
        h.setReq rfl rfl rfl id
      exact hset.around s.recv s.hdr s.cmd s.pending s.pdus _
    · exact h.around s.recv s.hdr s.cmd s.pending s.pdus _
    · exact h
  exact hrelease.setReq rfl rfl rfl id

/-- A slot is taken for a command that is dropped. -/
theorem get {rest : List ℕ} (h : Parting s) (hfree : s.free = t :: rest) (ht : t ∉ s.working) :
    Parting (nvmfTcpReqGet t s) := by
  have hother : ∀ {v}, v ≠ t → (nvmfTcpReqGet t s).reqs v = s.reqs v := reqs_nvmfTcpReqGet_of_ne s
  have hself := reqs_nvmfTcpReqGet_self t s
  have hpair : (s.reqs t).fusedPair = none := h.clean t (hfree ▸ List.mem_cons_self ..)
  have hold : ∀ {v}, v ∈ s.working → v ≠ t := fun hv he => ht (he ▸ hv)
  have hwork : ∀ {v}, v ∈ s.working ++ [t] → v ≠ t → v ∈ s.working := fun hv hvt =>
    (List.mem_append.mp hv).resolve_right fun he => hvt (List.mem_singleton.mp he)
  have hready : ∀ {v}, ((nvmfTcpReqGet t s).reqs v).state = .readyToExecute → v ≠ t := by
    rintro v hs rfl
    rw [hself] at hs
    cases hs
  refine {
    inactive := h.inactive, clean := fun v hv => ?_, waits := fun u hu hs v hv => ?_,
    asked := fun v hv u hu hv' hs => ?_ }
  · by_cases hvt : v = t
    · rw [hvt, hself]
      exact hpair
    · rw [hother hvt]
      exact h.clean v (List.mem_of_mem_tail hv)
  · have hut := hready hs
    rw [hother hut] at hs hv ⊢
    obtain ⟨hvw, hrest⟩ := h.waits u (hwork hu hut) hs v hv
    rw [hother (hold hvw)]
    exact ⟨List.mem_append_left _ hvw, hrest⟩
  · have hut := hready hs
    have hvt : v ≠ t := by
      rintro rfl
      rw [hself, hpair] at hv'
      cases hv'
    rw [hother hut] at hs ⊢
    rw [hother hvt] at hv'
    exact h.asked v (hwork hv hvt) u (hwork hu hut) hv' hs

/-- A request that ended lets go of a partner that does not wait. -/
theorem unlink (h : Parting s) (hs : (s.reqs t).state = .completed)
    (hpair : ∀ u, (s.reqs t).fusedPair = some u → (s.reqs u).state ≠ .readyToExecute) :
    Parting (s.setReq t fun r => { r with fusedPair := none }) := by
  have hother : ∀ {v}, v ≠ t → (s.setReq t fun r => { r with fusedPair := none }).reqs v =
      s.reqs v := fun hv => TcpQpair.reqs_setReq_of_ne _ _ _ hv
  have hready : ∀ {v}, ((s.setReq t fun r => { r with fusedPair := none }).reqs v).state =
      .readyToExecute → v ≠ t := by
    rintro v hv rfl
    rw [TcpQpair.reqs_setReq_self] at hv
    cases hs.symm.trans hv
  refine { h with
    clean := fun v hv => ?_, waits := fun u hu hwait v hv => ?_,
    asked := fun v hv u hu hv' hwait => ?_ }
  · rw [TcpQpair.reqs_setReq]
    split_ifs
    · rfl
    · exact h.clean v hv
  · have hut := hready hwait
    rw [hother hut] at hwait hv ⊢
    obtain ⟨hvw, hnot, hback, hleads⟩ := h.waits u hu hwait v hv
    have hvt : v ≠ t := by
      rintro rfl
      exact hpair u hback hwait
    rw [hother hvt]
    exact ⟨hvw, hnot, hback, hleads⟩
  · have hut := hready hwait
    have hvt : v ≠ t := by
      rintro rfl
      rw [TcpQpair.reqs_setReq_self] at hv'
      cases hv'
    rw [hother hut] at hwait ⊢
    rw [hother hvt] at hv'
    exact h.asked v hv u hu hv' hwait

theorem put (h : Parting s) (hpair : (s.reqs t).fusedPair = none) :
    Parting (nvmfTcpReqPut t s) := by
  have hset : Parting (s.setReq t fun r => { r with state := .free }) := h.setReq rfl rfl rfl nofun
  have hnone : ((s.setReq t fun r => { r with state := .free }).reqs t).fusedPair = none := by
    simpa using hpair
  have hold : ∀ {v}, v ∈ s.working.erase t → v ∈ s.working := List.mem_of_mem_erase
  refine {
    inactive := h.inactive, clean := fun v hv => ?_, waits := fun u hu hs v hv => ?_,
    asked := fun v hv u hu => hset.asked v (hold hv) u (hold hu) }
  · rcases List.mem_append.mp hv with hv | hv
    · exact hset.clean v hv
    · exact List.mem_singleton.mp hv ▸ hnone
  · obtain ⟨hvw, hnot, hback, hleads⟩ := hset.waits u (hold hu) hs v hv
    have hvt : v ≠ t := by
      rintro rfl
      cases hnone.symm.trans hback
    exact ⟨(List.mem_erase_of_ne hvt).mpr hvw, hnot, hback, hleads⟩

/-- **No move of a qpair that is not active leaves a request behind that waits for it.** -/
theorem move {B : Prop} (h : Parting s) (hm : Move Q True B s s') : Parting s' := by
  have hoff : ¬ s.active = true := by simp [h.inactive]
  cases hm with
  | quiet hactive hlog =>
    have hsame : ∀ {active}, (active = s.active ∨ True ∧ active = false) → active = false :=
      fun hactive => hactive.elim (fun he => he.trans h.inactive) And.right
    obtain rfl := hsame hactive
    exact { h with inactive := rfl }
  | touch ht hf =>
    exact h.setReq (by rw [hf]) (by rw [hf]) (by rw [hf]) fun hs => by rwa [hf] at hs
  | setPdu t pdu => exact h.setReq rfl rfl rfl id
  | count t n => exact h.setReq rfl rfl rfl id
  | ack ht hs =>
    exact h.setReq (f := fun r => { r with state := .transferringH2c }) rfl rfl rfl nofun
  | accept hslot ht hcapsule hc hfed hpdus => exact h.around s.recv s.hdr s.cmd s.pending _ _
  | mismatch ht hlen hc =>
    exact around (h.setReq rfl rfl rfl id) s.recv s.hdr s.cmd s.pending s.pdus _
  | dropCapsule hcapsule => exact h.around s.recv s.hdr s.cmd s.pending _ s.log
  | takeData hp ht hcapsule hc =>
    exact (h.around s.recv s.hdr s.cmd s.pending _ s.log).setReq rfl rfl rfl id
  | get ha hfree ht => exact h.get hfree ht
  | slide ha hactive hstate hf =>
    refine h.setReq (by rw [hf]) (by rw [hf]) (by rw [hf]) fun hs => ?_
    rcases hstate with hstate | hstate | hstate <;> cases hstate.symm.trans hs
  | @stall t ha hactive ht hs hall =>
    have hset : Parting (s.setReq t fun r => { r with state := .completed }) :=
      h.setReq rfl rfl rfl nofun
    exact hset.around s.recv s.hdr s.cmd s.pending s.pdus _
  | release ha hs => exact h.giveUp
  | fail t ha => exact h.setReq rfl rfl rfl id
  | unlink ha hs hpair => exact h.unlink hs hpair
  | put ha hs hpair => exact h.put hpair
  | receive | wait | askData | takeCapsule | run | runData | answer | free | rerun =>
    exact absurd ‹s.active = true› hoff

end Parting

/-- As long as the qpair is active, nothing cuts the life of a fused request short. -/
def CalmWhileActive (s : TcpQpair) (e : TcpEvent) : Prop :=
  s.active = true → e ≠ .disconnect → Calm s e

/-- **The links in every state of a run**, before and after the qpair is disconnected. -/
theorem links_reach {Q : QpCtx} {below : TcpReq} {s : TcpQpair}
    (h : (tcpSys Q below).Reach (fun s e => InOrder s e ∧ CalmWhileActive s e) s) :
    Sound Q s ∧ Named s ∧ (s.active = true → Fused s) ∧ (s.active = false → Parting s) := by
  refine h.invariant (I := fun s => Sound Q s ∧ Named s ∧ (s.active = true → Fused s) ∧
      (s.active = false → Parting s))
    ⟨sound_init Q below, .init Q below, fun _ => .init Q below, fun hoff => by cases hoff⟩ ?_
  rintro s e s' ⟨hsound, hnamed, hfused, hparting⟩ ⟨horder, hcalm⟩ hstep
  refine ⟨hsound.step horder hstep, ?_⟩
  cases hactive : s.active with
  | true =>
    by_cases he : e = .disconnect
    · subst he
      obtain rfl := Option.some.inj hstep
      exact ⟨SameNames.named (.around (.refl s) rfl rfl rfl) hnamed, nofun,
        fun _ => (hfused hactive).parting⟩
    · have hmoves : Moves Q False True s s' :=
        moves_step hsound horder (.inr ⟨hactive, hcalm hactive he⟩) (.inl trivial) hstep
      have hnamed' : Named s' := hmoves.keep (fun _ _ hn hm => hn.move hm) hnamed
      have hfused' : Fused s' := hmoves.keep (fun _ _ hs hm => hs.move hm) (hfused hactive)
      refine ⟨hnamed', fun _ => hfused', fun hoff => ?_⟩
      cases hoff.symm.trans hfused'.linked.active
  | false =>
    have hmoves : Moves Q True True s s' :=
      moves_step hsound horder (.inl trivial) (.inl trivial) hstep
    have hnamed' : Named s' := hmoves.keep (fun _ _ hn hm => hn.move hm) hnamed
    have hparting' : Parting s' := hmoves.keep (fun _ _ hs hm => hs.move hm) (hparting hactive)
    refine ⟨hnamed', fun hon => ?_, fun _ => hparting'⟩
    cases hon.symm.trans hparting'.inactive

end NdpHeaan
