import NdpHeaan.Target.SubsystemState

/-!
# Target/SubsystemGroup — what a poll group keeps while the subsystem changes its state

The counters of a poll group are right whatever state the subsystem is in (`PgSound`), a request of
a namespace is outstanding only where there are namespaces and qpairs, and serving requests moves a
poll group to another state only where that ends a pause (`Serves`).
-/

open Machinery

namespace NdpHeaan

/-! ## Serving requests -/

/-- What serving the requests `rs` may do to a poll group. -/
structure Serves (rs : List FReq) (s s' : PgSt) : Prop where
  numNs : s'.g.numNs = s.g.numNs
  flags : ∀ i, (s'.g.ns i).pausing = (s.g.ns i).pausing
  state : s'.g.state = s.g.state ∧ s'.g.cb = s.g.cb ∨
    s.g.state = .pausing ∧ s'.g.state = .paused ∧ s'.g.cb = false
  /-- What is outstanding was so before, or is one of them and names a namespace that is there. -/
  outstanding : ∀ r ∈ s'.outstanding, r ∈ s.outstanding ∨
    r ∈ rs ∧ (r.isMgmt = false → r.index < s.g.numNs)
  queued : ∀ r ∈ s'.queued, r ∈ s.queued ∨ r ∈ rs

section Serving

variable {s s' s'' : PgSt} {r : FReq} {rs rs' : List FReq} {q : QpairState} {o : ExecOutcome}

theorem Serves.refl (s : PgSt) : Serves [] s s :=
  ⟨rfl, fun _ => rfl, .inl ⟨rfl, rfl⟩, fun _ hr => .inl hr, fun _ hr => .inl hr⟩

theorem Serves.trans (h : Serves rs s s') (h' : Serves rs' s' s'') : Serves (rs ++ rs') s s'' where
  numNs := h'.numNs.trans h.numNs
  flags i := (h'.flags i).trans (h.flags i)
  state := by
    rcases h.state with ⟨hst, hcb⟩ | ⟨hp, hpd, hcb⟩
    · rw [← hst, ← hcb]
      exact h'.state
    · rcases h'.state with ⟨hst', hcb'⟩ | ⟨hp', -, -⟩
      · exact .inr ⟨hp, hst'.trans hpd, hcb'.trans hcb⟩
      · rw [hpd] at hp'
        cases hp'
  outstanding r hr := by
    rcases h'.outstanding r hr with hr | ⟨hr, hindex⟩
    · exact (h.outstanding r hr).imp id fun ⟨hr, hi⟩ => ⟨List.mem_append_left _ hr, hi⟩
    · exact .inr ⟨List.mem_append_right _ hr, h.numNs ▸ hindex⟩
  queued r hr := by
    rcases h'.queued r hr with hr | hr
    · exact (h.queued r hr).imp id (List.mem_append_left _)
    · exact .inr (List.mem_append_right _ hr)

theorem countUp_frame (g : Sgroup) (r : FReq) :
    (g.countUp r).state = g.state ∧ (g.countUp r).cb = g.cb ∧ (g.countUp r).numNs = g.numNs ∧
      ∀ i, ((g.countUp r).ns i).pausing = (g.ns i).pausing := by
  unfold Sgroup.countUp
  split
  · exact ⟨rfl, rfl, rfl, fun _ => rfl⟩
  · exact ⟨rfl, rfl, rfl, setIo_pausing _ _⟩

theorem checkPaused_cases (g : Sgroup) : g.checkPaused = g ∨
    g.state = .pausing ∧ g.checkPaused.state = .paused ∧ g.checkPaused.cb = false ∧
      g.checkPaused.numNs = g.numNs ∧ g.checkPaused.ns = g.ns := by
  unfold Sgroup.checkPaused
  split
  · rename_i h
    exact .inr ⟨h.1, rfl, rfl, rfl, rfl⟩
  · exact .inl rfl

/-- **`_nvmf_request_complete`.** -/
theorem serves_complete (s : PgSt) (r : FReq) : Serves [] s (nvmfRequestComplete s r) := by
  have hmem : ∀ r' ∈ s.outstanding.erase r, r' ∈ s.outstanding := fun _ => List.mem_of_mem_erase
  unfold nvmfRequestComplete
  dsimp only
  split
  · exact ⟨rfl, fun _ => rfl, .inl ⟨rfl, rfl⟩, fun r' hr' => .inl (hmem r' hr'), fun _ => .inl⟩
  · obtain ⟨hstate, hcb, -, -, hnum, hflags⟩ := countDown_frame s.g r
    rcases checkPaused_cases (s.g.countDown r) with heq | ⟨hp, hpaused, hcb', hnum', hns'⟩
    · rw [heq]
      exact ⟨hnum, hflags, .inl ⟨hstate, hcb⟩, fun r' hr' => .inl (hmem r' hr'), fun _ => .inl⟩
    · refine ⟨hnum'.trans hnum, fun i => ?_, .inr ⟨hstate ▸ hp, hpaused, hcb'⟩,
        fun r' hr' => .inl (hmem r' hr'), fun _ => .inl⟩
      show ((s.g.countDown r).checkPaused.ns i).pausing = _
      rw [hns']
      exact hflags i

/-- A request is started, counted or not. -/
theorem serves_start {g : Sgroup} (hnum : g.numNs = s.g.numNs)
    (hflags : ∀ i, (g.ns i).pausing = (s.g.ns i).pausing) (hstate : g.state = s.g.state)
    (hcb : g.cb = s.g.cb) (hindex : r.isMgmt = false → r.index < s.g.numNs) :
    Serves [r] s ({ s with g := g }.start r) := by
  refine ⟨hnum, hflags, .inl ⟨hstate, hcb⟩, fun r' hr' => ?_, fun _ => .inl⟩
  rcases List.mem_append.mp hr' with hr' | hr'
  · exact .inl hr'
  · exact .inr ⟨hr', List.mem_singleton.mp hr' ▸ hindex⟩

theorem serves_queue (s : PgSt) (r : FReq) : Serves [r] s (s.queue r) :=
  ⟨rfl, fun _ => rfl, .inl ⟨rfl, rfl⟩, fun _ => .inl, fun _ hr => List.mem_append.mp hr⟩

theorem outstanding_complete (s : PgSt) (r : FReq) :
    (nvmfRequestComplete s r).outstanding = s.outstanding.erase r := by
  unfold nvmfRequestComplete
  dsimp only
  split
  · rfl
  · rfl

/-- A request that is turned away leaves nothing behind. -/
theorem serves_turnedAway {g : Sgroup} (hnum : g.numNs = s.g.numNs)
    (hflags : ∀ i, (g.ns i).pausing = (s.g.ns i).pausing) (hstate : g.state = s.g.state)
    (hcb : g.cb = s.g.cb) : Serves [r] s (nvmfRequestComplete ({ s with g := g }.start r) r) := by
  have hdone := serves_complete ({ s with g := g }.start r) r
  refine ⟨hdone.numNs.trans hnum, fun i => (hdone.flags i).trans (hflags i), ?_, fun r' hr' => ?_,
    fun r' hr' => ?_⟩
  · rw [← hstate, ← hcb]
    exact hdone.state
  · rw [outstanding_complete] at hr'
    exact .inl ((erase_start_perm s.outstanding r).mem_iff.mp hr')
  · exact (hdone.queued r' hr').imp id fun h => by cases h

/-- A request that goes on is processed. -/
theorem serves_processCmd (hin : LetIn s r) : Serves [r] s (processCmd (s.countUp r) r o) := by
  obtain ⟨hstate, hcb, hnum, hflags⟩ := countUp_frame s.g r
  have hindex : r.isMgmt = false → r.index < s.g.numNs := fun hm => by
    rw [LetIn, if_neg (by simp [hm])] at hin
    exact hin.1
  -- counted, or taken out of the count again
  obtain ⟨g, heq, hnum, hflags, hstate, hcb⟩ : ∃ g : Sgroup,
      (if !r.isFabric && r.admin && r.isAer then ((s.countUp r).start r).uncount
        else (s.countUp r).start r) = { s with g := g }.start r ∧ g.numNs = s.g.numNs ∧
      (∀ i, (g.ns i).pausing = (s.g.ns i).pausing) ∧ g.state = s.g.state ∧ g.cb = s.g.cb := by
    split
    · exact ⟨{ s.g.countUp r with mgmt := (s.g.countUp r).mgmt - 1 }, rfl, hnum, hflags, hstate,
        hcb⟩
    · exact ⟨s.g.countUp r, rfl, hnum, hflags, hstate, hcb⟩
  unfold processCmd
  dsimp only
  rw [heq]
  cases o with
  | complete => exact serves_turnedAway hnum hflags hstate hcb
  | asynchronous => exact serves_start hnum hflags hstate hcb hindex
  | requeued =>
    refine ⟨hnum, hflags, .inl ⟨hstate, hcb⟩, fun r' hr' => .inl ?_, fun _ hr' =>
      List.mem_append.mp hr'⟩
    exact (erase_start_perm s.outstanding r).mem_iff.mp hr'

/-- **`spdk_nvmf_request_exec`.** -/
theorem serves_exec (s : PgSt) (r : FReq) (q : QpairState) (o : ExecOutcome) :
    Serves [r] s (spdkNvmfRequestExec s r q o) := by
  unfold spdkNvmfRequestExec
  rcases checkSubsystemActive_cases s r with ⟨heq, -⟩ | ⟨g, heq, hg, -, -⟩ | ⟨heq, hin, -⟩
  · rw [heq]
    exact serves_queue s r
  · rw [heq]
    obtain ⟨hstate, hcb, -, -, hnum, hflags⟩ := countDown_frame g r
    rw [hg] at hstate hcb hnum hflags
    exact serves_turnedAway hnum.symm (fun i => (hflags i).symm) hstate.symm hcb.symm
  · rw [heq]
    dsimp only
    rw [if_neg (by simp)]
    split
    · obtain ⟨hstate, hcb, hnum, hflags⟩ := countUp_frame s.g r
      exact serves_turnedAway hnum hflags hstate hcb
    · exact serves_processCmd hin

/-- The release of the requests that wait. -/
theorem serves_execAll (q : FReq → QpairState) (done : FReq → Bool) :
    ∀ (rs : List FReq) (s : PgSt), Serves rs s (rs.foldl (fun s r =>
      spdkNvmfRequestExec s r (q r) (if done r then .complete else .asynchronous)) s)
  | [], s => .refl s
  | r :: rs, s => (serves_exec s r _ _).trans (serves_execAll q done rs _)

end Serving

/-! ## One poll group -/

/-- **What a poll group keeps.** -/
structure GroupSound (g : PollGroup) : Prop where
  sound : PgSound g.pg
  idle : g.inactive = true → g.pg.g.state = .active
  /-- A group that no change has got to is active. -/
  fresh : g.swept = false → g.inactive = false ∧ g.pg.g.state = .active
  io : g.qpairs = 0 ∨ g.pg.g.numNs = 0 → ∀ r ∈ g.pg.outstanding, r.isMgmt = true
  queuedIo : g.qpairs = 0 → ∀ r ∈ g.pg.queued, r.isMgmt = true
  queuedAer : ∀ r ∈ g.pg.queued, r.isAer = true → r.admin = true

section Groups

variable {g : PollGroup} {pg : PgSt} {r : FReq} {rs : List FReq} {q : QpairState} {o : ExecOutcome}
  {channels : List Bool}

/-- Requests are served; those of a namespace come from a qpair. -/
theorem GroupSound.serve (h : GroupSound g) (hsound : PgSound pg) (hserves : Serves rs g.pg pg)
    (hio : ∀ r ∈ rs, r.isMgmt = false → 0 < g.qpairs)
    (haer : ∀ r ∈ rs, r.isAer = true → r.admin = true) : GroupSound { g with pg := pg } := by
  have hactive : g.pg.g.state = .active → pg.g.state = .active := fun hact => by
    rcases hserves.state with ⟨hst, -⟩ | ⟨hp, -⟩
    · exact hst.trans hact
    · rw [hact] at hp
      cases hp
  constructor
  case sound => exact hsound
  case idle => exact fun hinactive => hactive (h.idle hinactive)
  case fresh => exact fun hswept => ⟨(h.fresh hswept).1, hactive (h.fresh hswept).2⟩
  case io =>
    intro hnone r hr
    have hnone' : g.qpairs = 0 ∨ g.pg.g.numNs = 0 := hnone.imp id fun hn => hserves.numNs ▸ hn
    rcases hserves.outstanding r hr with hold | ⟨hnew, hindex⟩
    · exact h.io hnone' r hold
    · by_contra hm
      have hm' : r.isMgmt = false := by simpa using hm
      rcases hnone' with hq | hn
      · exact absurd (hio r hnew hm') (by omega)
      · exact absurd (hindex hm') (by omega)
  case queuedIo =>
    intro hq r hr
    rcases hserves.queued r hr with hold | hnew
    · exact h.queuedIo hq r hold
    · by_contra hm
      exact absurd (hio r hnew (by simpa using hm)) (by rw [hq]; exact Nat.lt_irrefl 0)
  case queuedAer =>
    intro r hr
    exact (hserves.queued r hr).elim (h.queuedAer r) (haer r)

theorem GroupSound.complete (h : GroupSound g) (hr : r ∈ g.pg.outstanding) :
    GroupSound { g with pg := nvmfRequestComplete g.pg r } :=
  h.serve (h.sound.complete hr) (serves_complete g.pg r) (fun _ hr => by cases hr)
    fun _ hr => by cases hr

theorem serves_execInactive (g : PollGroup) (r : FReq) : Serves [r] g.pg (g.execInactive r) := by
  unfold PollGroup.execInactive
  split
  · exact serves_queue g.pg r
  split
  · exact serves_turnedAway (g := g.pg.g) rfl (fun _ => rfl) rfl rfl
  split
  · obtain ⟨hstate, hcb, hnum, hflags⟩ := countUp_frame g.pg.g r
    exact serves_turnedAway hnum hflags hstate hcb
  · exact serves_queue g.pg r

theorem serves_pollGroupExec (g : PollGroup) (r : FReq) (q : QpairState) (o : ExecOutcome) :
    Serves [r] g.pg (g.exec r q o).pg := by
  unfold PollGroup.exec
  dsimp only
  split
  · exact serves_execInactive g r
  · exact serves_exec g.pg r q o

/-- **A request gets to the group.** -/
theorem GroupSound.exec (h : GroupSound g) (haer : r.isAer = true → r.admin = true ∧ q = .enabled)
    (hio : r.isMgmt = false → 0 < g.qpairs) (hreq : o = .requeued → r.isFabric = true) :
    GroupSound (g.exec r q o) := by
  refine h.serve ?_ (serves_pollGroupExec g r q o) (fun r' hr' => ?_) fun r' hr' => ?_
  · split
    · unfold PollGroup.execInactive
      split
      · exact ⟨h.sound.pauses, h.sound.counts⟩
      · rename_i hm
        have hm' : r.isMgmt = false := by simpa using hm
        have hnot : r.isAer = true → False := fun ha => by
          rw [FReq.isMgmt, (haer ha).1, Bool.or_true] at hm'
          cases hm'
        split
        · rename_i hrange
          exact h.sound.turnedAway (countDown_of_le hm' hrange) fun _ => rfl
        split
        · rename_i hrange _
          exact h.sound.turnedAway (countDown_countUp fun _ => Nat.not_le.mp hrange)
            fun ha => (hnot ha).elim
        · exact ⟨h.sound.pauses, h.sound.counts⟩
    · refine h.sound.exec (fun ha => ?_) hreq
      rw [if_pos (haer ha).1]
      exact fun _ => (haer ha).2
  · rw [List.mem_singleton.mp hr']
    exact hio
  · rw [List.mem_singleton.mp hr']
    exact fun ha => (haer ha).1

/-- A qpair gets a controller. -/
theorem GroupSound.connect (h : GroupSound g) : GroupSound { g with qpairs := g.qpairs + 1 } where
  sound := h.sound
  idle := h.idle
  fresh := h.fresh
  io hnone := h.io (.inr (hnone.resolve_left (Nat.succ_ne_zero g.qpairs)))
  queuedIo hq := absurd hq (Nat.succ_ne_zero g.qpairs)
  queuedAer := h.queuedAer

/-- A qpair is destroyed; the last one leaves no request of a namespace behind. -/
theorem GroupSound.gone (h : GroupSound g) {mine : FReq → Bool}
    (hdone : ∀ r ∈ g.pg.outstanding, mine r = false)
    (hlast : g.qpairs = 1 → ∀ r, mine r = false → r.isMgmt = true) (hq : 0 < g.qpairs) :
    GroupSound { g with
      qpairs := g.qpairs - 1
      pg := { g.pg with queued := g.pg.queued.filter fun r => !mine r } } := by
  have hone : g.qpairs - 1 = 0 → g.qpairs = 1 := fun h0 => by omega
  constructor
  case sound => exact ⟨h.sound.pauses, h.sound.counts⟩
  case idle => exact h.idle
  case fresh => exact h.fresh
  case io =>
    rintro (h0 | hnum) r hr
    · exact hlast (hone h0) r (hdone r hr)
    · exact h.io (.inr hnum) r hr
  case queuedIo =>
    intro h0 r hr
    obtain ⟨-, hmine⟩ := List.mem_filter.mp hr
    exact hlast (hone h0) r (by simpa using hmine)
  case queuedAer => exact fun r hr => h.queuedAer r (List.mem_filter.mp hr).1

/-! ## Changes of state on a poll group -/

/-- The counters of a group that is active and has no pause pending. -/
theorem pauseSound_of_active {s : Sgroup} (hstate : s.state = .active) (hcb : s.cb = false)
    (honce : s.fired = s.pauses) (hflags : ∀ i < s.numNs, (s.ns i).pausing = false) :
    PauseSound s where
  pending := by simp [hstate, hcb]
  once := by simp [hcb, honce]
  flags _ := hflags
  waits hp := by simp [hstate] at hp
  safe hp := by simp [hstate] at hp

theorem PauseSound.fired_eq {s : Sgroup} (h : PauseSound s) (hcb : s.cb = false) :
    s.fired = s.pauses := by
  simpa [hcb] using h.once

theorem groupSound_create (channels : List Bool) :
    GroupSound { pg := { g := freshSgroup channels } } where
  sound := .init channels
  idle hinactive := by cases hinactive
  fresh _ := ⟨rfl, rfl⟩
  io _ _ hr := by cases hr
  queuedIo _ _ hr := by cases hr
  queuedAer _ hr := by cases hr

/-- **`nvmf_poll_group_remove_subsystem_msg`.** -/
theorem GroupSound.removeMsg (h : GroupSound g) (hinactive : g.inactive = true) :
    GroupSound g.nvmfPollGroupRemoveSubsystemMsg := by
  unfold PollGroup.nvmfPollGroupRemoveSubsystemMsg
  split
  · rename_i hq
    have hstate := h.idle hinactive
    have hcb : g.pg.g.cb = false := by
      rw [← Bool.not_eq_true, h.sound.pauses.pending, hstate]
      exact SgroupState.noConfusion
    constructor
    case sound =>
      refine ⟨pauseSound_of_active hstate hcb (h.sound.pauses.fired_eq hcb) fun i hi => ?_, ?_⟩
      · exact absurd hi (Nat.not_lt_zero i)
      · exact ⟨h.sound.counts.mgmt, fun i hi => absurd hi (Nat.not_lt_zero i), h.sound.counts.aer⟩
    case idle => exact h.idle
    case fresh => exact h.fresh
    case io => exact fun _ => h.io (.inl hq)
    case queuedIo => exact h.queuedIo
    case queuedAer => exact h.queuedAer
  · exact h

/-- **`nvmf_poll_group_remove_subsystem`.** -/
theorem GroupSound.remove (h : GroupSound g) (hcb : g.pg.g.cb = false) :
    GroupSound { g.nvmfPollGroupRemoveSubsystem with swept := true } := by
  have hmid : GroupSound
      { g with pg := { g.pg with g := g.pg.g.activate }, inactive := true, swept := true } :=
    { sound := ⟨h.sound.pauses.activate hcb, h.sound.counts.congr rfl rfl fun _ => rfl⟩
      idle := fun _ => rfl
      fresh := fun hswept => by cases hswept
      io := h.io
      queuedIo := h.queuedIo
      queuedAer := h.queuedAer }
  have hdone := hmid.removeMsg rfl
  unfold PollGroup.nvmfPollGroupRemoveSubsystem PollGroup.nvmfPollGroupRemoveSubsystemMsg
  unfold PollGroup.nvmfPollGroupRemoveSubsystemMsg at hdone
  split
  · rename_i hq
    rw [if_pos hq] at hdone
    exact hdone
  · rename_i hq
    rw [if_neg hq] at hdone
    exact hdone

/-- What `poll_group_update_subsystem` leaves as it is. -/
theorem update_frame (channels : List Bool) (g : PollGroup) :
    (g.pollGroupUpdateSubsystem channels).outstanding = g.pg.outstanding ∧
      (g.pollGroupUpdateSubsystem channels).queued = g.pg.queued ∧
      (g.pollGroupUpdateSubsystem channels).g.cb = g.pg.g.cb ∧
      (g.pollGroupUpdateSubsystem channels).g.fired = g.pg.g.fired ∧
      (g.pollGroupUpdateSubsystem channels).g.pauses = g.pg.g.pauses := by
  unfold PollGroup.pollGroupUpdateSubsystem
  split
  · exact ⟨rfl, rfl, rfl, rfl, rfl⟩
  · exact ⟨rfl, rfl, rfl, rfl, rfl⟩

/-- New counters are right, since no request of a namespace is outstanding without namespaces. -/
theorem GroupSound.update (h : GroupSound g) (channels : List Bool) :
    Counts (g.pollGroupUpdateSubsystem channels).g g.pg.outstanding ∧
      (g.qpairs = 0 ∨ (g.pollGroupUpdateSubsystem channels).g.numNs = 0 →
        ∀ r ∈ g.pg.outstanding, r.isMgmt = true) := by
  unfold PollGroup.pollGroupUpdateSubsystem
  split
  · rename_i hnum
    have hmgmt := h.io (.inr hnum)
    refine ⟨⟨h.sound.counts.mgmt, fun i _ => ?_, h.sound.counts.aer⟩, fun _ => hmgmt⟩
    refine (List.countP_eq_zero.mpr fun r hr => ?_).symm
    simp [hmgmt r hr]
  · exact ⟨h.sound.counts, h.io⟩

/-- **`nvmf_poll_group_add_subsystem`.** -/
theorem GroupSound.add (h : GroupSound g) (hcb : g.pg.g.cb = false) (ok : Bool) :
    GroupSound { g.nvmfPollGroupAddSubsystem channels ok with swept := true } := by
  have hempty : GroupSound { g with pg := { g.pg with queued := [] } } :=
    { h with
      sound := ⟨h.sound.pauses, h.sound.counts⟩
      queuedIo := fun _ _ hr => by cases hr
      queuedAer := fun _ hr => by cases hr }
  unfold PollGroup.nvmfPollGroupAddSubsystem
  cases ok with
  | false => exact hempty.remove hcb
  | true =>
    obtain ⟨hcounts, hio⟩ := hempty.update channels
    obtain ⟨hout, hqueued, hcb', hfired, hpauses⟩ :=
      update_frame channels { g with pg := { g.pg with queued := [] } }
    have honce := h.sound.pauses.fired_eq hcb
    constructor
    case sound =>
      refine ⟨pauseSound_of_active rfl (hcb'.trans hcb) ?_ fun _ _ => rfl, ?_⟩
      · exact hfired.trans (honce.trans hpauses.symm)
      · exact hout ▸ hcounts.congr rfl rfl fun _ => rfl
    case idle => exact fun hinactive => by cases hinactive
    case fresh => exact fun hswept => by cases hswept
    case io => exact fun hnone => hout ▸ hio hnone
    case queuedIo => exact fun _ r hr => by rw [if_pos rfl, hqueued] at hr; cases hr
    case queuedAer => exact fun r hr => by rw [if_pos rfl, hqueued] at hr; cases hr

/-- **`nvmf_poll_group_pause_subsystem`.** -/
theorem GroupSound.pause (h : GroupSound g) (hcb : g.pg.g.cb = false) (nsid : UInt32) :
    GroupSound { g.pause nsid with swept := true } := by
  have hnum : (g.pg.g.nvmfPollGroupPauseSubsystem nsid).numNs = g.pg.g.numNs := by
    unfold Sgroup.nvmfPollGroupPauseSubsystem
    dsimp only
    split
    · rfl
    split
    · rfl
    · rfl
  constructor
  case sound => exact ⟨h.sound.pauses.pause hcb nsid, h.sound.counts.pause nsid⟩
  case idle => exact fun hinactive => by cases hinactive
  case fresh => exact fun hswept => by cases hswept
  case io => exact fun hnone => h.io (hnone.imp id fun hn => hnum ▸ hn)
  case queuedIo => exact h.queuedIo
  case queuedAer => exact h.queuedAer

/-- The requests that wait are released. -/
theorem GroupSound.release (h : GroupSound g) (hcb : g.pg.g.cb = false) (hin : g.inactive = false)
    {q : FReq → QpairState} (hq : ∀ r, r.isAer = true → q r = .enabled) (done : FReq → Bool) :
    GroupSound { g with pg := (g.pg.queued.foldl (fun s r =>
        spdkNvmfRequestExec s r (q r) (if done r then .complete else .asynchronous))
      { g.pg with g := g.pg.g.activate, queued := [] }) } := by
  have hmid : GroupSound { g with pg := { g.pg with g := g.pg.g.activate, queued := [] } } :=
    { sound := ⟨h.sound.pauses.activate hcb, h.sound.counts.congr rfl rfl fun _ => rfl⟩
      idle := fun _ => rfl
      fresh := fun _ => ⟨hin, rfl⟩
      io := h.io
      queuedIo := fun _ _ hr => by cases hr
      queuedAer := fun _ hr => by cases hr }
  refine hmid.serve ?_ (serves_execAll q done g.pg.queued _) (fun r hr hm => ?_) h.queuedAer
  · refine List.foldlRecOn (motive := PgSound) _ _ hmid.sound fun s hs r hr => hs.exec ?_ ?_
    · intro ha
      rw [if_pos (h.queuedAer r hr ha)]
      exact fun _ => hq r ha
    · intro ho
      split at ho
      · cases ho
      · cases ho
  · refine Nat.pos_of_ne_zero fun h0 => ?_
    rw [h.queuedIo h0 r hr] at hm
    cases hm

/-- **`nvmf_poll_group_resume_subsystem`**, where the subsystem is in the group. -/
theorem GroupSound.resume (h : GroupSound g) (hcb : g.pg.g.cb = false) (hin : g.inactive = false)
    (ok : Bool) {q : FReq → QpairState} (hq : ∀ r, r.isAer = true → q r = .enabled)
    (done : FReq → Bool) : GroupSound { g.resume channels ok q done with swept := true } := by
  have hmark : ∀ {g : PollGroup}, GroupSound g → GroupSound { g with swept := true } := fun hg =>
    { hg with fresh := fun hswept => by cases hswept }
  refine hmark ?_
  unfold PollGroup.resume nvmfPollGroupResumeSubsystem
  rw [if_neg (by simp [hin])]
  split
  · exact h
  · exact h.release hcb hin hq done

/-! ## Where a poll group stands -/

/-- A poll group is where the subsystem is. -/
def SubsystemState.Agrees (st : SubsystemState) (g : PollGroup) : Prop :=
  match st with
  | .inactive => g.inactive = true ∧ g.qpairs = 0 ∧ g.pg.g.numNs = 0
  | .active => g.inactive = false ∧ g.pg.g.state = .active
  | .paused => g.inactive = false ∧ g.pg.g.state = .paused
  | _ => False

/-- The namespaces that a pause is for do not let requests in. -/
def PollGroup.Flagged (nsid : UInt32) (g : PollGroup) : Prop :=
  ∀ i < g.pg.g.numNs, Sgroup.Selected nsid i → (g.pg.g.ns i).pausing = true

theorem agrees_remove (hq : g.qpairs = 0) :
    SubsystemState.inactive.Agrees { g.nvmfPollGroupRemoveSubsystem with swept := true } := by
  unfold PollGroup.nvmfPollGroupRemoveSubsystem PollGroup.nvmfPollGroupRemoveSubsystemMsg
  rw [if_pos hq]
  exact ⟨rfl, hq, rfl⟩

theorem agrees_removeMsg (hinactive : g.inactive = true) (hq : g.qpairs = 0) :
    SubsystemState.inactive.Agrees g.nvmfPollGroupRemoveSubsystemMsg := by
  unfold PollGroup.nvmfPollGroupRemoveSubsystemMsg
  rw [if_pos hq]
  exact ⟨hinactive, hq, rfl⟩

theorem inactive_remove : g.nvmfPollGroupRemoveSubsystem.inactive = true := by
  unfold PollGroup.nvmfPollGroupRemoveSubsystem PollGroup.nvmfPollGroupRemoveSubsystemMsg
  split
  · rfl
  · rfl

theorem agrees_add :
    SubsystemState.active.Agrees { g.nvmfPollGroupAddSubsystem channels true with swept := true } :=
  ⟨rfl, rfl⟩

/-- A resume leaves the group active, or has failed and left it alone. -/
theorem agrees_resume (channels : List Bool) (hin : g.inactive = false) (ok : Bool)
    (q : FReq → QpairState) (done : FReq → Bool) :
    SubsystemState.active.Agrees { g.resume channels ok q done with swept := true } ∧
        g.resumed ok = true ∨
      g.resume channels ok q done = g ∧ g.resumed ok = false := by
  unfold PollGroup.resume PollGroup.resumed nvmfPollGroupResumeSubsystem
  rw [if_neg (by simp [hin])]
  by_cases hactive : g.pg.g.state = .active
  · rw [if_pos (.inl hactive)]
    exact .inl ⟨⟨hin, hactive⟩, by simp [hin, hactive]⟩
  · cases ok with
    | false =>
      rw [if_pos (.inr rfl)]
      exact .inr ⟨rfl, by simp [hactive]⟩
    | true =>
      rw [if_neg (by simp [hactive])]
      refine .inl ⟨⟨hin, ?_⟩, by simp⟩
      -- no pause is pending, so the requests that are released leave the state alone
      rcases (serves_execAll q done g.pg.queued
        { g.pg with g := g.pg.g.activate, queued := [] }).state with ⟨hst, -⟩ | ⟨hp, -⟩
      · exact hst
      · cases hp

/-- A pause is over at once, or waits. -/
theorem agrees_pause (nsid : UInt32) (hcb : g.pg.g.cb = false) :
    SubsystemState.paused.Agrees { g.pause nsid with swept := true } ∧
        (g.pause nsid).pg.g.cb = false ∨
      (g.pause nsid).pg.g.state = .pausing ∧ (g.pause nsid).pg.g.cb = true := by
  unfold PollGroup.pause Sgroup.nvmfPollGroupPauseSubsystem
  dsimp only
  split
  · rename_i hpaused
    exact .inl ⟨⟨rfl, hpaused⟩, hcb⟩
  split
  · exact .inr ⟨rfl, rfl⟩
  · exact .inl ⟨⟨rfl, rfl⟩, hcb⟩

theorem flagged_pause (nsid : UInt32) (hnot : g.pg.g.state ≠ .paused) :
    (g.pause nsid).Flagged nsid := by
  have hmark : ∀ i < g.pg.g.numNs, Sgroup.Selected nsid i →
      (({ g.pg.g with pauses := g.pg.g.pauses + 1 }.mark nsid).ns i).pausing = true := by
    intro i hi hsel
    unfold Sgroup.mark
    dsimp only
    rw [if_pos ⟨hi, hsel⟩]
  unfold PollGroup.pause Sgroup.nvmfPollGroupPauseSubsystem PollGroup.Flagged
  dsimp only
  rw [if_neg hnot]
  split
  · exact hmark
  · exact hmark

end Groups

end NdpHeaan
