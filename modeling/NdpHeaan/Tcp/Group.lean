import Mathlib.Data.Nat.Pairing
import NdpHeaan.Tcp.TalliedDestroy

/-!
# Tcp/Group — the qpairs of a poll group

The qpairs of a poll group share one thing, the `pending_buf_queue`.  A qpair sees its own requests
in it and the others' as strangers (`seenBy`); what it leaves behind is read back as a queue of the
group.  In every run of the group, over any interleaving of its qpairs and their destruction, every
request is where its state says and the counters count.

    pending_buf_queue ──seenBy i──▸ pending of qpair i ──tcpStep──▸ pending ──readBack i──▸ queue
-/

open Machinery

namespace NdpHeaan

/-! ## The queue of the group -/

/-- An entry of the queue: the qpair, and the tag of the request. -/
abbrev GroupWaiter := ℕ × ℕ

/-- An entry, as qpair `i` sees it. -/
def GroupWaiter.seenBy (i : ℕ) (w : GroupWaiter) : Waiter :=
  if w.1 = i then .own w.2 else .other (Nat.pair w.1 w.2)

/-- What qpair `i` sees as an entry, read back. -/
def Waiter.readBack (i : ℕ) : Waiter → GroupWaiter
  | .own t => (i, t)
  | .other n => n.unpair

/-- The requests of qpair `i` in the queue. -/
def tagsOf (i : ℕ) (queue : List GroupWaiter) : List ℕ :=
  queue.filterMap fun w => if w.1 = i then some w.2 else none

section Queue

variable {i j : ℕ} {queue : List GroupWaiter} {pending : List Waiter}

theorem count_tagsOf (t : ℕ) : ∀ queue : List GroupWaiter,
    (tagsOf i queue).count t = queue.count (i, t)
  | [] => rfl
  | w :: queue => by
    have ih := count_tagsOf t queue
    unfold tagsOf at ih ⊢
    obtain ⟨j, u⟩ := w
    rw [List.filterMap_cons, List.count_cons]
    by_cases hj : j = i
    · subst hj
      simp [List.count_cons, ih]
    · simp [hj, ih]

theorem filterMap_seenBy : (queue.map (GroupWaiter.seenBy i)).filterMap Waiter.slot? =
    tagsOf i queue := by
  rw [List.filterMap_map, tagsOf]
  congr 1
  funext w
  simp only [Function.comp_apply, GroupWaiter.seenBy]
  split_ifs <;> rfl

/-- The entries that are not of qpair `i`, by their number. -/
theorem other_seenBy : (queue.map (GroupWaiter.seenBy i)).filterMap Waiter.other? =
    queue.filterMap fun w => if w.1 = i then none else some (Nat.pair w.1 w.2) := by
  rw [List.filterMap_map]
  congr 1
  funext w
  simp only [Function.comp_apply, GroupWaiter.seenBy]
  split_ifs <;> rfl

theorem tagsOf_readBack_of_ne (hj : j ≠ i) : tagsOf j (pending.map (Waiter.readBack i)) =
    tagsOf j ((pending.filterMap Waiter.other?).map Nat.unpair) := by
  unfold tagsOf
  rw [List.filterMap_map, List.filterMap_map, List.filterMap_filterMap]
  congr 1
  funext w
  cases w with
  | own t => simp [Waiter.readBack, Waiter.other?, Ne.symm hj]
  | other n => rfl

theorem tagsOf_readBack (hother : ∀ n ∈ pending.filterMap Waiter.other?, n.unpair.1 ≠ i) :
    tagsOf i (pending.map (Waiter.readBack i)) = pending.filterMap Waiter.slot? := by
  unfold tagsOf
  rw [List.filterMap_map]
  refine List.filterMap_congr fun w hw => ?_
  cases w with
  | own t => simp [Waiter.readBack]
  | other n =>
    have hn : n.unpair.1 ≠ i := hother n (List.mem_filterMap.mpr ⟨_, hw, rfl⟩)
    simp [Waiter.readBack, hn]

/-- **Who keeps the strangers in line leaves the others' entries as they are**, and his own are what
he made of them. -/
theorem tagsOf_left (hline : pending.filterMap Waiter.other? =
      (queue.map (GroupWaiter.seenBy i)).filterMap Waiter.other?) :
    tagsOf j (pending.map (Waiter.readBack i)) =
      if j = i then pending.filterMap Waiter.slot? else tagsOf j queue := by
  rw [other_seenBy] at hline
  split_ifs with hj
  · subst hj
    refine tagsOf_readBack fun n hn => ?_
    rw [hline, List.mem_filterMap] at hn
    obtain ⟨w, -, hw⟩ := hn
    split_ifs at hw with hwj
    obtain rfl := Option.some.inj hw
    rwa [Nat.unpair_pair]
  · rw [tagsOf_readBack_of_ne hj, hline]
    unfold tagsOf
    rw [List.filterMap_map, List.filterMap_filterMap]
    congr 1
    funext w
    by_cases hw : w.1 = i
    · have hwj : w.1 ≠ j := fun h => hj (h.symm.trans hw)
      simp [hw, Ne.symm hj]
    · simp [hw]

end Queue

/-! ## The group -/

/-- `struct spdk_nvmf_tcp_poll_group`, with its qpairs. -/
structure TcpGroup where
  /-- The `pending` of these is not read. -/
  qpair : ℕ → TcpQpair
  /-- The qpair has not been destroyed. -/
  alive : ℕ → Bool
  pendingBufQueue : List GroupWaiter

namespace TcpGroup

variable (Qs : ℕ → QpCtx)

/-- The qpairs as they are created. -/
def init (below : ℕ → TcpReq) : TcpGroup where
  qpair i := .init (Qs i) (below i)
  alive _ := true
  pendingBufQueue := []

/-- Qpair `i`, with the queue as it sees it. -/
def view (g : TcpGroup) (i : ℕ) : TcpQpair :=
  { g.qpair i with pending := g.pendingBufQueue.map (GroupWaiter.seenBy i) }

/-- What qpair `i` leaves behind. -/
def leave (g : TcpGroup) (i : ℕ) (s : TcpQpair) : TcpGroup :=
  { g with
    qpair := Function.update g.qpair i s
    pendingBufQueue := s.pending.map (Waiter.readBack i) }

end TcpGroup

/-- What happens in a group. -/
inductive GroupEvent
  | on (i : ℕ) (e : TcpEvent)
  /-- A qpair that is no longer active is destroyed. -/
  | destroy (i : ℕ)
  deriving DecidableEq, Repr

/-- **The steps of a group.** -/
def groupStep (Qs : ℕ → QpCtx) (g : TcpGroup) : GroupEvent → Option TcpGroup
  | .on i e =>
    if g.alive i ∧ e.isOwn then
      (tcpStep (Qs i) (g.view i) e).map (g.leave i)
    else none
  | .destroy i =>
    if g.alive i ∧ (g.qpair i).active = false then
      some { g.leave i (nvmfTcpQpairDestroy (Qs i) (g.view i)) with
        alive := Function.update g.alive i false }
    else none

/-- A group from the creation of its qpairs on. -/
def groupSys (Qs : ℕ → QpCtx) (below : ℕ → TcpReq) : Sys TcpGroup GroupEvent :=
  ⟨.init Qs below, groupStep Qs⟩

/-- The command that is received, if one is, is not fused. -/
def GroupEvent.Unfused : GroupEvent → Prop
  | .on _ e => e.Unfused
  | .destroy _ => True

/-- An H2CData PDU is for a request that waits for just that data. -/
def GroupEvent.InOrder (g : TcpGroup) : GroupEvent → Prop
  | .on i e => NdpHeaan.InOrder (g.view i) e
  | .destroy _ => True

/-! ## What a step keeps -/

/-- **A qpair of the group is in place.** -/
structure InPlace (Q : QpCtx) (alive : Bool) (s : TcpQpair) : Prop where
  counted : Tallied Q s
  filed : Filed Q s
  running : alive = true → Sound Q s ∧ Named s ∧ Unfused Q s

namespace InPlace

variable {Q : QpCtx} {alive : Bool} {s s' : TcpQpair}

theorem init (Q : QpCtx) (below : TcpReq) : InPlace Q true (.init Q below) where
  counted := .init Q below
  filed := (sound_init Q below).filed
  running _ := ⟨sound_init Q below, .init Q below, unfused_init Q below⟩

/-- Others join and leave the line. -/
theorem others (h : InPlace Q alive s) {queue : List Waiter}
    (hq : queue.filterMap Waiter.slot? = s.pending.filterMap Waiter.slot?) :
    InPlace Q alive { s with pending := queue } where
  counted := { h.counted with }
  filed := h.filed.others hq
  running ha := by
    obtain ⟨hsound, hnamed, hu⟩ := h.running ha
    exact ⟨hsound.others hq, { hnamed with }, { hu with }⟩

/-- **A step of the qpair.** -/
theorem step {e : TcpEvent} (h : InPlace Q true s) (hown : e.isOwn = true) (hu : e.Unfused)
    (horder : InOrder s e) (hstep : tcpStep Q s e = some s') :
    InPlace Q true s' ∧
      s'.pending.filterMap Waiter.other? = s.pending.filterMap Waiter.other? := by
  obtain ⟨hsound, hnamed, hunfused⟩ := h.running rfl
  have hc := Tallies.step hsound hunfused hu hown hstep
  have hsound' : Sound Q s' := hsound.step horder hstep
  have hmoves : Moves Q True True s s' :=
    moves_step hsound horder (.inl trivial) (.inl trivial) hstep
  have hnamed' : Named s' := hmoves.keep (fun _ _ hn hm => hn.move hm) hnamed
  exact ⟨⟨hc.counted h.counted, hsound'.filed, fun _ => ⟨hsound', hnamed', hc.unfused hunfused⟩⟩,
    hc.line⟩

/-- **The end of the qpair.** -/
theorem destroy (h : InPlace Q true s) (hoff : s.active = false) :
    InPlace Q false (nvmfTcpQpairDestroy Q s) ∧
      (nvmfTcpQpairDestroy Q s).pending.filterMap Waiter.other? =
        s.pending.filterMap Waiter.other? := by
  obtain ⟨hsound, hnamed, hunfused⟩ := h.running rfl
  obtain ⟨hc, hfiled⟩ := tallies_destroy hsound hnamed hunfused hoff
  exact ⟨⟨hc.counted h.counted, hfiled, fun h => absurd h Bool.false_ne_true⟩, hc.line⟩

end InPlace

/-- Every qpair of the group is in place. -/
def GroupInPlace (Qs : ℕ → QpCtx) (g : TcpGroup) : Prop :=
  ∀ i, InPlace (Qs i) (g.alive i) (g.view i)

section Run

variable {Qs : ℕ → QpCtx} {below : ℕ → TcpReq} {g g' : TcpGroup} {i : ℕ}

theorem groupInPlace_init (Qs : ℕ → QpCtx) (below : ℕ → TcpReq) :
    GroupInPlace Qs (.init Qs below) := fun i => .init (Qs i) (below i)

/-- **What one qpair does is no matter to the others.** -/
theorem GroupInPlace.leave {alive : Bool} {s : TcpQpair} (h : GroupInPlace Qs g)
    (hs : InPlace (Qs i) alive s)
    (hline : s.pending.filterMap Waiter.other? = (g.view i).pending.filterMap Waiter.other?) :
    GroupInPlace Qs { g.leave i s with alive := Function.update g.alive i alive } := by
  intro j
  have htags : ((s.pending.map (Waiter.readBack i)).map (GroupWaiter.seenBy j)).filterMap
      Waiter.slot? = if j = i then s.pending.filterMap Waiter.slot? else
        tagsOf j g.pendingBufQueue := by
    rw [filterMap_seenBy]
    exact tagsOf_left hline
  unfold TcpGroup.view TcpGroup.leave
  dsimp only
  by_cases hj : j = i
  · subst hj
    rw [Function.update_self, Function.update_self]
    exact hs.others (htags.trans (if_pos rfl))
  · rw [Function.update_of_ne hj, Function.update_of_ne hj]
    refine (h j).others (htags.trans ?_)
    rw [if_neg hj]
    exact filterMap_seenBy.symm

/-- **A step leaves every qpair in place.** -/
theorem GroupInPlace.step {e : GroupEvent} (h : GroupInPlace Qs g) (hu : e.Unfused)
    (horder : e.InOrder g) (hstep : groupStep Qs g e = some g') : GroupInPlace Qs g' := by
  cases e with
  | on i e =>
    obtain ⟨⟨halive, hown⟩, hmap⟩ := Option.ite_none_right_eq_some.mp hstep
    obtain ⟨s, hs, rfl⟩ := Option.map_eq_some_iff.mp hmap
    have hi : InPlace (Qs i) true (g.view i) := halive ▸ h i
    obtain ⟨hplace, hline⟩ := hi.step hown hu horder hs
    have hend := h.leave hplace hline
    rwa [show Function.update g.alive i true = g.alive from
      halive ▸ Function.update_eq_self i g.alive] at hend
  | destroy i =>
    obtain ⟨⟨halive, hoff⟩, ⟨⟩⟩ := Option.ite_none_right_eq_some.mp hstep
    have hi : InPlace (Qs i) true (g.view i) := halive ▸ h i
    obtain ⟨hplace, hline⟩ := hi.destroy hoff
    exact h.leave hplace hline

/-- **Every qpair is in place wherever a run leads.** -/
theorem groupInPlace_of_reach
    (h : (groupSys Qs below).Reach (fun g e => e.Unfused ∧ e.InOrder g) g) : GroupInPlace Qs g :=
  h.invariant (I := GroupInPlace Qs) (groupInPlace_init Qs below)
    fun _ _ _ hg hguard hstep => hg.step hguard.1 hguard.2 hstep

end Run

/-! ## Queues and states agree -/

/-- **The queues and the counters of qpair `i` agree with the states of its requests.** -/
structure QueuesAgree (Q : QpCtx) (g : TcpGroup) (i : ℕ) : Prop where
  free : ∀ t ∈ Q.slots, t ∈ (g.qpair i).free ↔ ((g.qpair i).reqs t).state = .free
  working : ∀ t ∈ Q.slots, t ∈ (g.qpair i).working ↔ ((g.qpair i).reqs t).state ≠ .free
  pending : ∀ t ∈ Q.slots, g.pendingBufQueue.count (i, t) =
    if ((g.qpair i).reqs t).state = .needBuffer then 1 else 0
  stateCntr : ∀ state, (g.qpair i).stateCntr state =
    Q.slots.countP fun t => ((g.qpair i).reqs t).state = state
  queueDepth : (g.qpair i).queueDepth =
    Q.slots.countP fun t => ((g.qpair i).reqs t).state ≠ .free

theorem GroupInPlace.agree {Qs : ℕ → QpCtx} {g : TcpGroup} (h : GroupInPlace Qs g) (i : ℕ) :
    QueuesAgree (Qs i) g i where
  free _ ht := (h i).filed.mem_free ht
  working _ ht := (h i).filed.mem_working ht
  pending t ht := by
    rw [← count_tagsOf, ← filterMap_seenBy]
    exact (h i).filed.count_slots ht
  stateCntr state := congrFun (h i).counted.cntr state
  queueDepth := (h i).filed.depth_eq (h i).counted

/-- **In every run of a group whose H2CData PDUs are in order, the queues and the counters of every
qpair agree with the states of its requests.** -/
theorem queues_agree {Qs : ℕ → QpCtx} {below : ℕ → TcpReq} {g : TcpGroup}
    (h : (groupSys Qs below).Reach (fun g e => e.Unfused ∧ e.InOrder g) g) (i : ℕ) :
    QueuesAgree (Qs i) g i := (groupInPlace_of_reach h).agree i

/-- A group of qpairs with two requests each. -/
def sampleGroup (ddgst : Bool) : Sys TcpGroup GroupEvent :=
  groupSys (fun _ => sampleQpair ddgst) fun _ => {}

/-- Two WRITEs of two qpairs are in line; the first of them gets its buffers. -/
def askedRun : List GroupEvent :=
  [.on 0 (.capsule bareHdr (sampleWrite 4096) { pool := false }),
   .on 1 (.capsule bareHdr (sampleWrite 4096) {}), .on 0 (.poll 1 {}), .on 0 (.writeDone 1 false)]

/-- Its data comes in, and its qpair is destroyed while it is executed. -/
def servedRun : List GroupEvent :=
  [.on 0 (.h2cData 0 1 0 4096), .on 0 (.dataDone ⟨1, false, 0, 0, 4096⟩ true), .on 0 .disconnect,
   .destroy 0]

theorem servedRun_agree :
    ∃ g, (sampleGroup false).Reach (fun g e => e.Unfused ∧ e.InOrder g) g ∧
      g.pendingBufQueue = [(1, 1)] ∧ (g.qpair 0).stateCntr .free = 2 ∧
      (g.qpair 1).stateCntr .needBuffer = 1 ∧
      QueuesAgree (sampleQpair false) g 0 ∧ QueuesAgree (sampleQpair false) g 1 := by
  have hasked : ((sampleGroup false).run (sampleGroup false).init askedRun).map
      (fun g => (g.view 0).pdus) = some [] := by decide +kernel
  have hserved : (((sampleGroup false).run (sampleGroup false).init askedRun).bind fun g =>
      (sampleGroup false).run g servedRun).map (fun g => decide (g.pendingBufQueue = [(1, 1)] ∧
        (g.qpair 0).stateCntr .free = 2 ∧ (g.qpair 1).stateCntr .needBuffer = 1)) = some true := by
    decide +kernel
  obtain ⟨g₁, hrun₁, hpdus⟩ := Option.map_eq_some_iff.mp hasked
  obtain ⟨g, hrun, hend⟩ := Option.map_eq_some_iff.mp hserved
  rw [hrun₁] at hrun
  obtain ⟨g₂, hstep, hrun₂⟩ := Sys.run_cons_eq_some hrun
  have hreach₁ := Sys.Reach.of_run (P := fun g e => e.Unfused ∧ e.InOrder g) askedRun
    (by simp [askedRun, GroupEvent.Unfused, TcpEvent.Unfused, GroupEvent.InOrder, InOrder,
      sampleWrite]) .init hrun₁
  have hguard : GroupEvent.Unfused (.on 0 (.h2cData 0 1 0 4096)) ∧
      GroupEvent.InOrder g₁ (.on 0 (.h2cData 0 1 0 4096)) :=
    ⟨trivial, by decide, by decide, by simp [hpdus]⟩
  have hreach₂ := hreach₁.step hguard hstep
  have hreach := hreach₂.of_run _
    (by simp [GroupEvent.Unfused, TcpEvent.Unfused, GroupEvent.InOrder, InOrder]) hrun₂
  obtain ⟨hqueue, hfree, hneed⟩ := of_decide_eq_true hend
  exact ⟨g, hreach, hqueue, hfree, hneed, queues_agree hreach 0, queues_agree hreach 1⟩

/-- A WRITE with its data in the capsule, and an H2CData PDU for the same bytes whose digest is
computed first: the request is executed, answered and given back, and then the digest of the capsule
is there. -/
def overtakenRun : List GroupEvent :=
  [.on 0 (.capsule ⟨⟨4, 2, 72, 72, 4172⟩, 64⟩ { opc := 0x01, sgl := ⟨0, 4096, .dataBlock, .offset⟩ }
     {}),
   .on 0 (.h2cData 0 1 0 4096), .on 0 (.dataDone ⟨1, false, 0, 0, 4096⟩ true),
   .on 0 (.complete 1 .success), .on 0 (.writeDone 1 true),
   .on 0 (.dataDone ⟨1, true, 72, 0, 4096⟩ true)]

/-- **A request in the free queue is executed.** -/
theorem queues_disagree :
    ∃ g, (sampleGroup true).Reach (fun _ e => e.Unfused) g ∧
      (sampleGroup true).run (sampleGroup true).init overtakenRun = some g ∧
      1 ∈ (g.qpair 0).free ∧ ((g.qpair 0).reqs 1).state = .executing ∧
      (g.qpair 0).queueDepth = 0 ∧ ¬ QueuesAgree (sampleQpair true) g 0 := by
  have hdone : ((sampleGroup true).run (sampleGroup true).init overtakenRun).map (fun g =>
      decide (1 ∈ (g.qpair 0).free ∧ ((g.qpair 0).reqs 1).state = .executing ∧
        (g.qpair 0).queueDepth = 0)) = some true := by decide +kernel
  obtain ⟨g, hrun, hend⟩ := Option.map_eq_some_iff.mp hdone
  obtain ⟨hfree, hstate, hdepth⟩ := of_decide_eq_true hend
  have hreach := Sys.Reach.of_run (P := fun _ e => e.Unfused) overtakenRun
    (by simp [overtakenRun, GroupEvent.Unfused, TcpEvent.Unfused]) .init hrun
  refine ⟨g, hreach, hrun, hfree, hstate, hdepth, fun h => ?_⟩
  cases hstate.symm.trans ((h.free 1 (by decide)).mp hfree)

end NdpHeaan
