import Mathlib.Data.List.Nodup
import Mathlib.Data.List.Range
import NdpHeaan.Machinery.Run
import NdpHeaan.Machinery.Slots

/-!
# Target/AsyncEvents — Asynchronous Event Requests and the events they carry

A controller parks up to four Asynchronous Event Requests in an array, and keeps the events it has
no request for in a queue:

    submit ──▸ aer_req[nr++]            raise ──▸ aer_req[--nr] completes with the event
    submit ──▸ completes with the oldest queued event      ◂── raise, with nothing parked

The requests come out last in, first out, the events first in, first out.  That the events keep
their order all the same rests on one of the two always being empty.
-/

open Machinery

namespace NdpHeaan

/-! ## The model -/

/-- An Asynchronous Event Request: its number among all that were submitted, and its command
identifier. -/
structure Aer where
  id : ℕ
  cid : UInt16
  deriving DecidableEq, Repr

/-- What happens to one in the end. -/
inductive AerEffect
  /-- It is completed with an event (`rsp->cdw0`). -/
  | event (aer : Aer) (raw : UInt32)
  /-- …with `ASYNC_EVENT_REQUEST_LIMIT_EXCEEDED`. -/
  | limitExceeded (aer : Aer)
  /-- …with `ABORTED_BY_REQUEST`. -/
  | aborted (aer : Aer)
  /-- `spdk_nvmf_request_free`. -/
  | freed (aer : Aer)
  deriving DecidableEq, Repr

/-- The request an effect ends. -/
def AerEffect.aer : AerEffect → Aer
  | .event aer _ => aer
  | .limitExceeded aer => aer
  | .aborted aer => aer
  | .freed aer => aer

/-- The event it carries. -/
def AerEffect.event? : AerEffect → Option UInt32
  | .event _ raw => some raw
  | _ => none

/-- The part of a controller that deals with events. -/
structure AerSt where
  /-- `ctrlr->aer_req`. -/
  aerReq : ℕ → Option Aer := fun _ => none
  /-- `ctrlr->nr_aer_reqs`. -/
  nrAerReqs : ℕ := 0
  /-- `ctrlr->async_events`. -/
  asyncEvents : List UInt32 := []
  /-- The requests that were submitted, oldest first. -/
  submitted : List Aer := []
  /-- The events that were raised, oldest first. -/
  raised : List UInt32 := []
  /-- What was done, oldest first. -/
  log : List AerEffect := []

/-- `SPDK_NVMF_MAX_ASYNC_EVENTS`. -/
def maxAsyncEvents : ℕ := 4

/-- Log the end of the request in a slot; the slot is read before it is cleared. -/
def AerSt.finish (s : AerSt) (i : ℕ) (e : Aer → AerEffect) : AerSt :=
  { s with log := s.log ++ (s.aerReq i).toList.map e }

/-- `ctrlr->aer_req[i] = …`. -/
def AerSt.setSlot (s : AerSt) (i : ℕ) (v : Option Aer) : AerSt :=
  { s with aerReq := Function.update s.aerReq i v }

/-- The next request to be submitted. -/
def AerSt.nextAer (s : AerSt) (cid : UInt16) : Aer := ⟨s.submitted.length, cid⟩

/-- **`nvmf_ctrlr_async_event_request`.** -/
def nvmfCtrlrAsyncEventRequest (cid : UInt16) (s : AerSt) : AerSt :=
  let aer := s.nextAer cid
  let s := { s with submitted := s.submitted ++ [aer] }
  if s.nrAerReqs ≥ maxAsyncEvents then
    { s with log := s.log ++ [.limitExceeded aer] } else
  match s.asyncEvents with
  | raw :: rest => { s with asyncEvents := rest, log := s.log ++ [.event aer raw] }
  | [] => { s.setSlot s.nrAerReqs (some aer) with nrAerReqs := s.nrAerReqs + 1 }

/-- **`nvmf_ctrlr_async_event_notification`**, with `nvmf_ctrlr_queue_pending_async_event`. -/
def nvmfCtrlrAsyncEventNotification (raw : UInt32) (s : AerSt) : AerSt :=
  let s := { s with raised := s.raised ++ [raw] }
  if s.nrAerReqs = 0 then
    { s with asyncEvents := s.asyncEvents ++ [raw] }
  else
    let nr := s.nrAerReqs - 1
    { (s.finish nr (.event · raw)).setSlot nr none with nrAerReqs := nr }

/-- **`nvmf_qpair_abort_aer`**: the first request with this identifier, and the last one in its
place. -/
def nvmfQpairAbortAer (cid : UInt16) (s : AerSt) : AerSt :=
  match (List.range s.nrAerReqs).find? fun i => (s.aerReq i).any fun aer => aer.cid = cid with
  | none => s
  | some i =>
    let s := { (s.finish i .aborted).setSlot i none with nrAerReqs := s.nrAerReqs - 1 }
    if i < s.nrAerReqs then
      (s.setSlot i (s.aerReq s.nrAerReqs)).setSlot s.nrAerReqs none
    else s

/-- The loop over all parked requests. -/
def AerSt.endAll (s : AerSt) (e : Aer → AerEffect) : AerSt :=
  { (List.range s.nrAerReqs).foldl (fun s i => (s.finish i e).setSlot i none) s with
    nrAerReqs := 0 }

/-- **`spdk_nvmf_ctrlr_abort_aer`.** -/
def spdkNvmfCtrlrAbortAer (s : AerSt) : AerSt :=
  if s.nrAerReqs = 0 then s else s.endAll .aborted

/-- **`nvmf_qpair_free_aer`.** -/
def nvmfQpairFreeAer (s : AerSt) : AerSt := s.endAll .freed

/-- What the controller is asked to do. -/
inductive AerLabel
  | submit (cid : UInt16)
  | raise (raw : UInt32)
  | abort (cid : UInt16)
  | abortAll
  | teardown
  deriving DecidableEq, Repr

/-- One call. -/
def aerStep (s : AerSt) : AerLabel → AerSt
  | .submit cid => nvmfCtrlrAsyncEventRequest cid s
  | .raise raw => nvmfCtrlrAsyncEventNotification raw s
  | .abort cid => nvmfQpairAbortAer cid s
  | .abortAll => spdkNvmfCtrlrAbortAer s
  | .teardown => nvmfQpairFreeAer s

/-- **The calls as a system.** -/
def aerSys : Sys AerSt AerLabel := ⟨{}, fun s l => some (aerStep s l)⟩

/-! ## The statement -/

/-- The requests that are done with. -/
def AerSt.ended (s : AerSt) : List Aer := s.log.map AerEffect.aer

/-- The events the completed requests carried, oldest first. -/
def AerSt.delivered (s : AerSt) : List UInt32 := s.log.filterMap AerEffect.event?

/-- **Exactly once and in order.** -/
structure AerProper (s : AerSt) : Prop where
  /-- The slots in use hold requests that are not done with. -/
  filled : ∀ i < s.nrAerReqs, ∃ aer, s.aerReq i = some aer ∧ aer ∉ s.ended
  distinct : ∀ i < s.nrAerReqs, ∀ j < s.nrAerReqs, s.aerReq i = s.aerReq j → i = j
  others : ∀ i, s.nrAerReqs ≤ i → s.aerReq i = none
  bound : s.nrAerReqs ≤ maxAsyncEvents
  exclusive : s.asyncEvents = [] ∨ s.nrAerReqs = 0
  once : s.ended.Nodup
  ordered : s.delivered <+: s.raised

/-! ## The invariant -/

/-- **The array is a list**, every request is in it or done with, and every event is queued or
delivered, in order. -/
structure AerSound (parked : List Aer) (s : AerSt) : Prop where
  holds : Holds s.aerReq parked
  count : s.nrAerReqs = parked.length
  bound : parked.length ≤ maxAsyncEvents
  exclusive : s.asyncEvents = [] ∨ parked = []
  conserved : (s.ended ++ parked).Perm s.submitted
  numbered : s.submitted.map Aer.id = List.range s.submitted.length
  ordered : s.delivered ++ s.asyncEvents = s.raised

section Sound

variable {s s' : AerSt} {parked : List Aer}

theorem aerSound_init : AerSound [] {} :=
  ⟨.nil, rfl, by decide, .inl rfl, .refl _, rfl, rfl⟩

/-- No request is there twice. -/
theorem AerSound.nodup (h : AerSound parked s) : (s.ended ++ parked).Nodup := by
  refine h.conserved.nodup_iff.mpr (List.Nodup.of_map Aer.id ?_)
  rw [h.numbered]
  exact List.nodup_range

/-- **The invariant says what is claimed.** -/
theorem AerSound.proper (h : AerSound parked s) : AerProper s where
  filled i hi := by
    rw [h.count] at hi
    refine ⟨parked[i], by rw [h.holds, List.getElem?_eq_getElem hi], fun hmem => ?_⟩
    exact (List.nodup_append.mp h.nodup).2.2 _ hmem _ (List.getElem_mem hi) rfl
  distinct i hi j hj heq := by
    rw [h.count] at hi hj
    rw [h.holds, h.holds] at heq
    exact (List.getElem?_inj hi (List.nodup_append.mp h.nodup).2.1).mp heq
  others i hi := by rw [h.holds, List.getElem?_eq_none (h.count ▸ hi)]
  bound := h.count ▸ h.bound
  exclusive := h.exclusive.imp_right fun hnil => by rw [h.count, hnil]; rfl
  once := (List.nodup_append.mp h.nodup).1
  ordered := ⟨_, h.ordered⟩

/-! ### One call -/

theorem ended_of_log (es : List AerEffect) (h : s'.log = s.log ++ es) :
    s'.ended = s.ended ++ es.map AerEffect.aer := by
  rw [AerSt.ended, h, List.map_append, AerSt.ended]

theorem delivered_of_log (es : List AerEffect) (h : s'.log = s.log ++ es) :
    s'.delivered = s.delivered ++ es.filterMap AerEffect.event? := by
  rw [AerSt.delivered, h, List.filterMap_append, AerSt.delivered]

/-- A new request has the next number. -/
theorem AerSound.numbered_append (h : AerSound parked s) (cid : UInt16) :
    (s.submitted ++ [s.nextAer cid]).map Aer.id
      = List.range (s.submitted ++ [s.nextAer cid]).length := by
  rw [List.map_append, h.numbered, List.length_append, List.length_singleton, List.range_succ]
  rfl

/-- A new request that ends at once. -/
theorem AerSound.conserved_append (h : AerSound parked s) (cid : UInt16) :
    (s.ended ++ [s.nextAer cid] ++ parked).Perm (s.submitted ++ [s.nextAer cid]) := by
  rw [List.append_assoc]
  refine (List.perm_append_comm.append_left s.ended).trans ?_
  rw [← List.append_assoc]
  exact h.conserved.append_right _

theorem AerSound.request (h : AerSound parked s) (cid : UInt16) :
    ∃ parked', AerSound parked' (nvmfCtrlrAsyncEventRequest cid s) := by
  unfold nvmfCtrlrAsyncEventRequest
  dsimp only
  split_ifs with hfull
  · -- the limit
    refine ⟨parked, h.holds, h.count, h.bound, h.exclusive, ?_, h.numbered_append cid, ?_⟩
    · rw [ended_of_log (s := s) _ rfl]
      exact h.conserved_append cid
    · rw [delivered_of_log (s := s) _ rfl]
      exact (congrArg (· ++ _) (List.append_nil _)).trans h.ordered
  split
  · -- an event is waiting, so nothing is parked
    rename_i raw rest hevents
    obtain rfl : parked = [] := h.exclusive.resolve_left (by simp [hevents])
    refine ⟨[], h.holds, h.count, h.bound, .inr rfl, ?_, h.numbered_append cid, ?_⟩
    · rw [ended_of_log (s := s) _ rfl]
      exact h.conserved_append cid
    · rw [delivered_of_log (s := s) _ rfl, ← h.ordered, hevents, List.append_assoc]
      rfl
  · rename_i hevents
    refine ⟨parked ++ [s.nextAer cid], ?_, ?_, ?_, .inl hevents, ?_, h.numbered_append cid,
      h.ordered⟩
    · have hpush := h.holds.push (s.nextAer cid)
      rw [← h.count] at hpush
      exact hpush
    · rw [List.length_append, ← h.count]
      rfl
    · rw [List.length_append, List.length_singleton, ← h.count]
      omega
    · rw [← List.append_assoc]
      exact h.conserved.append_right _

theorem AerSound.notification (h : AerSound parked s) (raw : UInt32) :
    ∃ parked', AerSound parked' (nvmfCtrlrAsyncEventNotification raw s) := by
  unfold nvmfCtrlrAsyncEventNotification
  dsimp only
  split_ifs with hnone
  · obtain rfl : parked = [] := List.length_eq_zero_iff.mp (h.count ▸ hnone)
    refine ⟨[], h.holds, h.count, h.bound, .inr rfl, h.conserved, h.numbered, ?_⟩
    rw [← h.ordered, List.append_assoc]
    rfl
  · obtain rfl | ⟨rest, aer, rfl⟩ := List.eq_nil_or_concat' parked
    · exact absurd h.count hnone
    have hevents : s.asyncEvents = [] := h.exclusive.resolve_right (by simp)
    have hcount : s.nrAerReqs - 1 = rest.length := by simp [h.count]
    have hlast : s.aerReq rest.length = some aer := by rw [h.holds]; simp
    have hlog : s.log ++ (s.aerReq rest.length).toList.map (AerEffect.event · raw)
        = s.log ++ [.event aer raw] := by rw [hlast]; rfl
    rw [hcount]
    refine ⟨rest, h.holds.pop, rfl, ?_, .inl hevents, ?_, h.numbered, ?_⟩
    · exact (by simp : rest.length ≤ (rest ++ [aer]).length).trans h.bound
    · rw [ended_of_log (s := s) _ hlog]
      refine List.Perm.trans ?_ h.conserved
      rw [List.append_assoc]
      exact List.perm_append_comm.append_left _
    · rw [delivered_of_log (s := s) _ hlog]
      change s.delivered ++ [raw] ++ s.asyncEvents = s.raised ++ [raw]
      rw [← h.ordered, hevents, List.append_nil, List.append_nil]

theorem AerSound.abort (h : AerSound parked s) (cid : UInt16) :
    ∃ parked', AerSound parked' (nvmfQpairAbortAer cid s) := by
  unfold nvmfQpairAbortAer
  split
  · exact ⟨parked, h⟩
  rename_i i hfind
  have hi : i < parked.length := h.count ▸ List.mem_range.mp (List.mem_of_find?_eq_some hfind)
  obtain ⟨aer, haer⟩ : ∃ aer, s.aerReq i = some aer :=
    ⟨parked[i], by rw [h.holds, List.getElem?_eq_getElem hi]⟩
  obtain rfl | ⟨rest, last, rfl⟩ := List.eq_nil_or_concat' parked
  · simp at hi
  have hcount : s.nrAerReqs - 1 = rest.length := by simp [h.count]
  have hlog : s.log ++ (s.aerReq i).toList.map AerEffect.aborted = s.log ++ [.aborted aer] := by
    rw [haer]
    rfl
  have hperm : (s.ended ++ [aer] ++ rest.set i last).Perm s.submitted := by
    refine List.Perm.trans ?_ h.conserved
    rw [List.append_assoc]
    exact (cons_set_perm (by rw [← h.holds, haer])).append_left _
  have hbound : (rest.set i last).length ≤ maxAsyncEvents := by
    have := h.bound
    rw [List.length_append, List.length_singleton] at this
    rw [List.length_set]
    omega
  have hevents : s.asyncEvents = [] := h.exclusive.resolve_right (by simp)
  have hordered : s.delivered ++ [AerEffect.aborted aer].filterMap AerEffect.event? ++ s.asyncEvents
      = s.raised := by
    rw [← h.ordered]
    simp [AerEffect.event?]
  dsimp only
  rw [hcount]
  split_ifs with hlt
  · -- the last request is moved into the gap
    refine ⟨rest.set i last, ?_, (List.length_set ..).symm, hbound, .inl hevents, ?_, h.numbered,
      ?_⟩
    · have hlast : Function.update s.aerReq i none rest.length = some last := by
        rw [Function.update_of_ne (Nat.ne_of_gt hlt), h.holds]
        simp
      have hset := h.holds.set hlt
      simpa only [AerSt.setSlot, AerSt.finish, hlast, Function.update_idem] using hset
    · rw [ended_of_log (s := s) _ hlog]
      exact hperm
    · rw [delivered_of_log (s := s) _ hlog]
      exact hordered
  · -- it was the last one
    obtain rfl : i = rest.length := by
      rw [List.length_append, List.length_singleton] at hi
      omega
    rw [List.set_eq_of_length_le (Nat.le_refl _)] at hperm hbound
    refine ⟨rest, h.holds.pop, rfl, hbound, .inl hevents, ?_, h.numbered, ?_⟩
    · rw [ended_of_log (s := s) _ hlog]
      exact hperm
    · rw [delivered_of_log (s := s) _ hlog]
      exact hordered

/-- The loop over all parked requests, as far as it has got. -/
theorem foldl_finish (h : Holds s.aerReq parked) (e : Aer → AerEffect) : ∀ n ≤ parked.length,
    (List.range n).foldl (fun s i => (s.finish i e).setSlot i none) s
      = { s with
          aerReq := (List.range n).foldl (fun f i => Function.update f i none) s.aerReq
          log := s.log ++ (parked.take n).map e }
  | 0, _ => by simp
  | n + 1, hn => by
      have hslot : (List.range n).foldl (fun f i => Function.update f i none) s.aerReq n
          = some parked[n] := by
        rw [h.clear n]
        exact (if_neg (Nat.lt_irrefl n)).trans (List.getElem?_eq_getElem hn)
      rw [List.range_succ, List.foldl_append, foldl_finish h e n (by omega), List.foldl_append]
      simp only [List.foldl_cons, List.foldl_nil, AerSt.finish, AerSt.setSlot, hslot]
      rw [List.take_add_one, List.getElem?_eq_getElem hn, List.map_append, List.append_assoc]

theorem AerSound.endAll (h : AerSound parked s) (e : Aer → AerEffect)
    (haer : ∀ aer, (e aer).aer = aer) (hevent : ∀ aer, (e aer).event? = none) :
    AerSound [] (s.endAll e) := by
  unfold AerSt.endAll
  rw [h.count, foldl_finish h.holds e _ le_rfl, List.take_length]
  refine ⟨?_, rfl, by decide, .inr rfl, ?_, h.numbered, ?_⟩
  · intro i
    rw [h.holds.clear]
    by_cases hi : i < parked.length
    · exact if_pos hi
    · exact (if_neg hi).trans (List.getElem?_eq_none (Nat.not_lt.mp hi))
  · rw [ended_of_log (s := s) _ rfl, List.append_nil]
    have hmap : (parked.map e).map AerEffect.aer = parked := by
      simp [Function.comp_def, haer]
    rw [hmap]
    exact h.conserved
  · rw [delivered_of_log (s := s) _ rfl]
    have hnone : (parked.map e).filterMap AerEffect.event? = [] := by
      simp [hevent]
    rw [hnone, List.append_nil]
    exact h.ordered

/-- **Every call keeps it.** -/
theorem AerSound.step (h : AerSound parked s) (l : AerLabel) :
    ∃ parked', AerSound parked' (aerStep s l) := by
  cases l with
  | submit cid => exact h.request cid
  | raise raw => exact h.notification raw
  | abort cid => exact h.abort cid
  | abortAll =>
    unfold aerStep spdkNvmfCtrlrAbortAer
    split_ifs
    · exact ⟨parked, h⟩
    · exact ⟨[], h.endAll .aborted (fun _ => rfl) fun _ => rfl⟩
  | teardown => exact ⟨[], h.endAll .freed (fun _ => rfl) fun _ => rfl⟩

end Sound

/-! ## Every interleaving -/

/-- **Events are delivered exactly once and in order**, whatever the order of the calls. -/
theorem asyncEvents_proper {s : AerSt} (h : aerSys.Reach (fun _ _ => True) s) : AerProper s := by
  have hsound : ∃ parked, AerSound parked s := by
    refine h.invariant (I := fun s => ∃ parked, AerSound parked s) ⟨[], aerSound_init⟩
      fun s l s' hI _ hs => ?_
    obtain ⟨parked, hparked⟩ := hI
    obtain rfl := Option.some.inj hs
    exact hparked.step l
  obtain ⟨parked, hparked⟩ := hsound
  exact hparked.proper

/-- Three requests, one aborted and one answered. -/
theorem asyncEvents_proper_sample : ∃ s : AerSt,
    aerSys.run {} [.submit 1, .submit 2, .submit 3, .abort 1, .raise 7] = some s ∧
    s.log = [AerEffect.aborted ⟨0, 1⟩, .event ⟨1, 2⟩ 7] ∧ AerProper s :=
  ⟨_, rfl, by decide, asyncEvents_proper (.of_run
    [.submit 1, .submit 2, .submit 3, .abort 1, .raise 7] (fun _ _ _ => trivial) .init rfl)⟩

end NdpHeaan
