import NdpHeaan.Tcp.Tallied
import NdpHeaan.Tcp.Reclaim

/-!
# Tcp/TalliedDestroy — the counters and the queues of a TCP qpair that is destroyed

`_nvmf_tcp_qpair_destroy` goes through the working queue again and again while its visits take
requests out of it.  Without fused commands a visit takes out the request it visits and no other,
and no request is left in line for buffers: the queues agree with the states when the walks are
over, though not between the wipe of the line and the drain of NEED_BUFFER.
-/

open Machinery

namespace NdpHeaan

/-! ## Without fused commands -/

namespace Unfused

variable {Q : QpCtx} {s s' : TcpQpair} {state : TcpReqState} {t : ℕ}

/-- Nobody waits for a partner. -/
theorem parting (h : Unfused Q s) (hslots : ∀ t, t ∈ s.working ∨ t ∈ s.free → t ∈ Q.slots)
    (hoff : s.active = false) : Parting s where
  inactive := hoff
  clean t ht := (h.reqs t (hslots t (.inr ht))).pair
  waits t ht _ u hu := by cases (h.reqs t (hslots t (.inl ht))).pair.symm.trans hu
  asked t ht u _ hu := by cases (h.reqs t (hslots t (.inl ht))).pair.symm.trans hu

theorem leaving_eq (h : Unfused Q s) (ht : t ∈ Q.slots) : s.leaving t = [t] := by
  unfold TcpQpair.leaving
  rw [(h.reqs t ht).pair]

end Unfused

/-! ## The socket is closed, and the states are drained -/

namespace Tallies

variable {Q : QpCtx} {s s' : TcpQpair} {state : TcpReqState} {t : ℕ}

theorem spdkSockClose (h : Sound Q s) : Tallies Q s (spdkSockClose Q s) := by
  obtain ⟨recv, pdu, heq, -⟩ := spdkSockClose_eq h
  rw [heq]
  exact ⟨fun hc => ⟨hc.cntr, hc.depth⟩, rfl, fun hu =>
    ⟨hu.first, fun t ht => ⟨(hu.reqs t ht).pair, (hu.reqs t ht).fuse⟩⟩⟩

theorem drainVisit (h : Closing Q s) (hu : Unfused Q s) (hstate : state.Drained)
    (ht : t ∈ Q.slots) : Tallies Q s (drainVisit Q state t s) := by
  unfold NdpHeaan.drainVisit
  split_ifs with hs
  · exact (refl s).requestFree hu (h.mem_working ht (hs ▸ hstate.cases.2.1)) ht
  · exact refl s

theorem drainStateQueue (h : Closing Q s) (hu : Unfused Q s) (hstate : state.Drained)
    (hline : state = .needBuffer → ∀ v, .own v ∉ s.pending) :
    Tallies Q s (nvmfTcpDrainStateQueue Q state s) := by
  let K (c : Option ℕ) (s' : TcpQpair) : Prop :=
    (∀ t, c = some t → t ∈ Q.slots) ∧ Closing Q s' ∧ s'.pending = s.pending ∧ Tallies Q s s'
  have hK : ∀ t s', K (some t) s' → K (s'.nextLink t) (NdpHeaan.drainVisit Q state t s') := by
    rintro t s' ⟨ht, h', hpending, hc⟩
    have hslot := ht t rfl
    obtain ⟨h'', hpending'⟩ := h'.visit hstate (hpending ▸ hline) (h'.visited hstate hslot)
    exact ⟨fun u hu => h'.nextLink_mem hu, h'', hpending'.trans hpending,
      hc.trans (drainVisit h' (hc.unfused hu) hstate hslot)⟩
  have hhead : ∀ t, s.working.head? = some t → t ∈ Q.slots := fun t ht =>
    h.mem_slots (List.mem_of_mem_head? ht)
  obtain ⟨c, -, -, -, hc⟩ := foreachSafe_keep hK (n := Q.resourceCount + 2)
    ⟨hhead, h, rfl, refl s⟩
  exact hc

theorem filterMap_other?_foldl (wiped : ℕ → Prop) [DecidablePred wiped] :
    ∀ (queue : List ℕ) (pending : List Waiter),
      (queue.foldl (fun pending t => if wiped t then pending.erase (.own t) else pending)
        pending).filterMap Waiter.other? = pending.filterMap Waiter.other?
  | [], _ => rfl
  | t :: queue, pending => by
    rw [List.foldl_cons, filterMap_other?_foldl wiped queue]
    split_ifs
    · exact Waiter.filterMap_other?_erase t pending
    · rfl

theorem wipePending : Tallies Q s (wipePending s) :=
  (refl s).around
    (filterMap_other?_foldl (fun t => (s.reqs t).state = .needBuffer) s.working s.pending)

end Tallies

/-! ## Nothing is left in line -/

namespace Closing

variable {Q : QpCtx} {s s' : TcpQpair} {state : TcpReqState} {t : ℕ}

/-- No request needs a buffer. -/
def NoneWaits (s : TcpQpair) : Prop := ∀ x ∈ s.working, (s.reqs x).state ≠ .needBuffer

theorem noneWaits_of_visited (h : Closing Q s) (hnone : NoneWaits s) (hv : Visited state t s s') :
    NoneWaits s' := by
  intro x hx
  cases hv with
  | skip => exact hnone x hx
  | stuck ht hs hpdu =>
    rw [TcpQpair.reqs_setReq]
    split_ifs
    · nofun
    · exact hnone x hx
  | back ht hs hpdu hback =>
    rw [hback.working] at hx
    obtain ⟨hxw, hleft⟩ := h.nodup_working.mem_sdiff_iff.mp hx
    rw [hback.left x hleft]
    exact hnone x hxw

/-- The requests before `rest` do not wait. -/
def Swept (rest : List ℕ) (s : TcpQpair) : Prop :=
  ∃ pre, s.working = pre ++ rest ∧ ∀ x ∈ pre, (s.reqs x).state ≠ .needBuffer

/-- A visit of the drain leaves its request behind, or gives it back. -/
theorem Swept.visited {rest : List ℕ} (hswept : Swept (t :: rest) s) (h : Closing Q s)
    (hu : Unfused Q s) (hv : Visited .needBuffer t s s') : Swept rest s' := by
  obtain ⟨pre, hw, hpre⟩ := hswept
  have ht : t ∈ s.working := hw ▸ List.mem_append_right _ (List.mem_cons_self ..)
  cases hv with
  | skip hs =>
    refine ⟨pre ++ [t], by rw [hw, List.append_assoc]; rfl, fun x hx => ?_⟩
    rcases List.mem_append.mp hx with hx | hx
    · exact hpre x hx
    · rwa [List.mem_singleton.mp hx]
  | stuck _ hs hpdu =>
    rcases h.lingers t ht with ⟨hnone, -⟩ | ⟨-, hs' | hs'⟩
    · cases hpdu.symm.trans hnone
    · cases hs.symm.trans hs'
    · cases hs.symm.trans hs'
  | back _ hs hpdu hback =>
    rw [hu.leaving_eq (h.mem_slots ht)] at hback
    have hnodup := h.nodup_working
    rw [hw] at hnodup
    have hnot : t ∉ pre := fun hmem =>
      List.disjoint_of_nodup_append hnodup hmem (List.mem_cons_self ..)
    refine ⟨pre, ?_, fun x hx => ?_⟩
    · rw [hback.working, List.diff_cons, List.diff_nil, hw, List.erase_append_right _ hnot,
        List.erase_cons_head]
    · have hxt : x ∉ [t] := fun he => hnot (List.mem_singleton.mp he ▸ hx)
      rw [hback.left x hxt]
      exact hpre x hx

/-- **The drain of NEED_BUFFER gets to every request in that state.** -/
theorem noneWaits_drain (h : Closing Q s) (hu : Unfused Q s) (hline : ∀ v, .own v ∉ s.pending) :
    NoneWaits (nvmfTcpDrainStateQueue Q .needBuffer s) := by
  have hstate : TcpReqState.Drained .needBuffer := by decide
  refine foreachSafe_rule (J := NoneWaits)
    (I := fun rest s => Closing Q s ∧ Unfused Q s ∧ (∀ v, .own v ∉ s.pending) ∧ Swept rest s)
    ?_ ?_ ?_ ⟨h, hu, hline, [], rfl, by simp⟩ ?_
  · rintro t rest s ⟨h, -, -, pre, hw, -⟩
    exact h.nextLink_eq hw
  · rintro t rest s ⟨h, hu, hline, hswept⟩
    have hslot : t ∈ Q.slots := by
      obtain ⟨pre, hw, -⟩ := hswept
      exact h.mem_slots (hw ▸ List.mem_append_right _ (List.mem_cons_self ..))
    have hv := h.visited hstate hslot
    obtain ⟨h', hpending⟩ := h.visit hstate (fun _ => hline) hv
    exact .inl ⟨h', (Tallies.drainVisit h hu hstate hslot).unfused hu, hpending ▸ hline,
      hswept.visited h hu hv⟩
  · rintro s ⟨-, -, -, pre, hw, hpre⟩
    rw [List.append_nil] at hw
    intro x hx
    exact hpre x (hw ▸ hx)
  · have hlen := h.slots.length_eq
    rw [List.length_append, QpCtx.slots, List.length_range'] at hlen
    omega

end Closing

/-! ## Destroyed -/

section Destroy

variable {Q : QpCtx} {s : TcpQpair}

/-- **Destroying a qpair keeps count, and leaves every request where its state says.** -/
theorem tallies_destroy (h : Sound Q s) (hnamed : Named s) (hu : Unfused Q s)
    (hoff : s.active = false) :
    Tallies Q s (nvmfTcpQpairDestroy Q s) ∧ Filed Q (nvmfTcpQpairDestroy Q s) := by
  have hparting : Parting s := hu.parting (fun t ht => h.mem_slots.mpr ht) hoff
  have hclosing := closing_spdkSockClose h hnamed hparting
  obtain ⟨hend, hcounts, hnone⟩ := hclosing.cleanup
    (P := fun done s' => Tallies Q s s' ∧ (.needBuffer ∈ done → Closing.NoneWaits s'))
    ⟨.spdkSockClose h, nofun⟩ (fun done s' hP => ⟨hP.1.trans .wipePending, hP.2⟩) <| by
    rintro done state s' hstate - h' hline ⟨hc, hnone⟩
    have hu' := hc.unfused hu
    refine ⟨hc.trans (.drainStateQueue h' hu' hstate hline), fun hin => ?_⟩
    rcases List.mem_cons.mp hin with rfl | hin
    · exact h'.noneWaits_drain hu' (hline rfl)
    · exact (h'.drain_keep hstate hline (hnone hin) fun _ _ _ h hP hv =>
        h.noneWaits_of_visited hP hv).2.2
  have hnone' : Closing.NoneWaits (nvmfTcpQpairDestroy Q s) := hnone (by simp)
  exact ⟨hcounts, {
    slots := hend.slots
    free := fun t ht => (hend.idle t ht).state
    working := fun t ht => hend.ne_free ht
    queued := fun t => ⟨hend.queued t, fun ht => absurd ht.2 (hnone' t ht.1)⟩
    once := hend.once }⟩

end Destroy

end NdpHeaan
