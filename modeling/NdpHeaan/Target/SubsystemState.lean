import NdpHeaan.Machinery.Sweep
import NdpHeaan.Target.Outstanding

/-!
# Target/SubsystemState — starting, pausing, resuming and stopping a subsystem

A change of the state of a subsystem is carried out on one poll group after the other: each thread
with a poll group gets a message, adds, removes, pauses or resumes the subsystem there, and passes
the change on when that is done, which for a pause is when the requests it waits for are completed
and for a removal when the qpairs are gone.  Where it fails on a poll group the change is taken back
on all of them.  Changes that are asked for meanwhile wait in a list.

The poll groups are those of `Target/Outstanding`, with their counters and requests.
-/

open Machinery

namespace NdpHeaan

/-! ## The state of the subsystem -/

/-- `enum spdk_nvmf_subsystem_state`. -/
inductive SubsystemState
  | inactive
  | activating
  | active
  | pausing
  | paused
  | resuming
  | deactivating
  deriving DecidableEq, Repr

/-- **`nvmf_subsystem_get_intermediate_state`**; `none` is `SPDK_NVMF_SUBSYSTEM_NUM_STATES`. -/
def nvmfSubsystemGetIntermediateState (current requested : SubsystemState) :
    Option SubsystemState :=
  match requested with
  | .inactive => some .deactivating
  | .active => if current = .paused then some .resuming else some .activating
  | .paused => some .pausing
  | _ => none

/-- The `expected_old_state` of the first exchange. -/
def expectedOldState : SubsystemState → SubsystemState
  | .inactive => .deactivating
  | .activating => .inactive
  | .active => .activating
  | .pausing => .active
  | .paused => .pausing
  | .resuming => .paused
  | .deactivating => .active

/-- …and of the second one, for the state that the first one has found. -/
def expectedInstead (actual state : SubsystemState) : SubsystemState :=
  match actual, state with
  | .resuming, .active => .resuming
  -- "This is for the case when activating the subsystem fails."
  | .activating, .deactivating => .activating
  -- "This is for the case when resuming the subsystem fails."
  | .resuming, .pausing => .resuming
  -- "This is for the case when stopping paused subsystem"
  | .paused, .deactivating => .paused
  | _, _ => expectedOldState state

/-- **`nvmf_subsystem_set_state`**: the state of the subsystem afterwards, `none` where the function
does not return 0 and the state is what it was. -/
def nvmfSubsystemSetState (actual state : SubsystemState) : Option SubsystemState :=
  if actual = expectedOldState state then some state
  else if actual = expectedInstead actual state then some state
  else none

/-! ## The subsystem in a poll group -/

/-- A poll group, as far as the subsystem goes. -/
structure PollGroup where
  /-- The requests and counters, and `sgroup->state` unless it is INACTIVE. -/
  pg : PgSt
  /-- `sgroup->state` and the states of the namespaces are INACTIVE. -/
  inactive : Bool := false
  /-- How many qpairs in the group have a controller of the subsystem. -/
  qpairs : ℕ := 0
  /-- A change of state has got to the group since it was created. -/
  swept : Bool := false

/-- The counters of a poll group to which the subsystem was just added. -/
def freshSgroup (channels : List Bool) : Sgroup :=
  { numNs := channels.length, ns := fun i => { channel := channels.getD i false } }

namespace PollGroup

variable (channels : List Bool) (g : PollGroup)

/-- **`poll_group_update_subsystem`**, where it succeeds: `ns_info` is allocated if there is
none. -/
def pollGroupUpdateSubsystem : PgSt :=
  if g.pg.g.numNs = 0 then
    { g.pg with g := { g.pg.g with
        numNs := channels.length
        ns := fun i => { channel := channels.getD i false } } }
  else g.pg

/-- **`nvmf_poll_group_remove_subsystem_msg`**: once no qpair is left, `ns_info` is freed. -/
def nvmfPollGroupRemoveSubsystemMsg : PollGroup :=
  if g.qpairs = 0 then { g with pg := { g.pg with g := { g.pg.g with numNs := 0 } } } else g

/-- **`nvmf_poll_group_remove_subsystem`**. -/
def nvmfPollGroupRemoveSubsystem : PollGroup :=
  PollGroup.nvmfPollGroupRemoveSubsystemMsg
    { g with pg := { g.pg with g := g.pg.g.activate }, inactive := true }

/-- **`nvmf_poll_group_add_subsystem`**; `ok` is whether `poll_group_update_subsystem` succeeds.
Requests that wait are freed. -/
def nvmfPollGroupAddSubsystem (ok : Bool) : PollGroup :=
  let g := { g with pg := { g.pg with queued := [] } }
  if ok then
    let pg := g.pollGroupUpdateSubsystem channels
    { g with pg := { pg with g := pg.g.activate }, inactive := false }
  else g.nvmfPollGroupRemoveSubsystem

/-- **`nvmf_poll_group_pause_subsystem`.** -/
def pause (nsid : UInt32) : PollGroup :=
  { g with pg := { g.pg with g := g.pg.g.nvmfPollGroupPauseSubsystem nsid }, inactive := false }

/-- **`nvmf_poll_group_resume_subsystem`.** -/
def resume (ok : Bool) (q : FReq → QpairState) (done : FReq → Bool) : PollGroup :=
  if g.inactive then
    if ok then
      let pg := g.pollGroupUpdateSubsystem channels
      let pg := { pg with g := { pg.g with state := .paused } }
      { g with pg := nvmfPollGroupResumeSubsystem pg true q done, inactive := false }
    else g
  else { g with pg := nvmfPollGroupResumeSubsystem g.pg ok q done }

/-- What `nvmf_poll_group_resume_subsystem` returns. -/
def resumed (ok : Bool) : Bool := ok || (!g.inactive && g.pg.g.state == .active)

/-- A request that gets to a poll group where the subsystem is INACTIVE. -/
def execInactive (r : FReq) : PgSt :=
  if r.isMgmt then g.pg.queue r
  else if g.pg.g.numNs ≤ r.index then nvmfRequestComplete (g.pg.start r) r
  else if (g.pg.g.ns r.index).channel = false then
    nvmfRequestComplete ((g.pg.countUp r).start r) r
  else g.pg.queue r

/-- **`spdk_nvmf_request_exec`.** -/
def exec (r : FReq) (q : QpairState) (o : ExecOutcome) : PollGroup :=
  { g with pg := if g.inactive then g.execInactive r else spdkNvmfRequestExec g.pg r q o }

end PollGroup

/-! ## Changes of state -/

/-- How far a change is. -/
inductive ChangePhase
  /-- In `state_changes`, behind another one. -/
  | waiting
  /-- `nvmf_subsystem_do_state_change` is called for it. -/
  | called
  /-- The message of the `spdk_for_each_channel` is on its way to a thread. -/
  | moving (k : ℕ)
  /-- The poll group of the thread passes the change on when it is done. -/
  | visiting (k : ℕ)
  /-- The completion of the `spdk_for_each_channel` is on its way, with a status, 0 or not. -/
  | swept (ok : Bool)
  /-- `_nvmf_subsystem_state_change_complete` is on its way. -/
  | finished (ok : Bool)
  deriving DecidableEq, Repr

/-- A `struct nvmf_subsystem_state_change_ctx`. -/
structure StateChange where
  /-- Whose callback it is. -/
  id : ℕ
  nsid : UInt32
  requested : SubsystemState
  original : SubsystemState := .inactive
  /-- The second `spdk_for_each_channel`, with `subsystem_state_change_revert_done`. -/
  reverting : Bool := false
  phase : ChangePhase := .waiting
  deriving DecidableEq, Repr

/-- The states that can be asked for (`spdk_nvmf_subsystem_start`, `_stop`, `_pause`, `_resume`). -/
def SubsystemState.Settled (st : SubsystemState) : Prop :=
  st = .inactive ∨ st = .active ∨ st = .paused

instance (st : SubsystemState) : Decidable st.Settled := inferInstanceAs (Decidable (_ ∨ _))

/-- **`subsystem_state_change_on_pg`**: the poll group afterwards, and the status with which it
passes the change on, `none` if it does so later.  `ok` is whether what has to be allocated is. -/
def subsystemStateChangeOnPg (channels : List Bool) (state : SubsystemState) (c : StateChange)
    (g : PollGroup) (ok : Bool) (q : FReq → QpairState) (done : FReq → Bool) :
    PollGroup × Option Bool :=
  match c.requested with
  | .inactive =>
    if ok = false then (g, some false)
    else (g.nvmfPollGroupRemoveSubsystem, if g.qpairs = 0 then some true else none)
  | .active =>
    match state with
    | .activating => (g.nvmfPollGroupAddSubsystem channels ok, some ok)
    | .resuming => (g.resume channels ok q done, some (g.resumed ok))
    | _ => (g, none)
  | .paused => (g.pause c.nsid, if (g.pause c.nsid).pg.g.cb then none else some true)
  | _ => (g, none)

/-- A subsystem in the poll groups of a target. -/
structure SubsysWorld where
  state : SubsystemState := .inactive
  /-- `state_changes`. -/
  changes : List StateChange := []
  /-- The poll groups, by thread. -/
  group : ℕ → Option PollGroup := fun _ => none
  /-- The callbacks that were made, with their status. -/
  answered : List (StateChange × Bool) := []
  /-- The `nsid` of the last pause that was carried out, none where it was the taking back of a
  resume. -/
  pausedFor : Option UInt32 := none

/-- The first change of a list is the one that `nvmf_subsystem_do_state_change` is called for. -/
def callFirst : List StateChange → List StateChange
  | [] => []
  | c :: cs => { c with phase := .called } :: cs

namespace SubsysWorld

variable (n : ℕ) (channels : List Bool) (s : SubsysWorld)

/-- **`nvmf_subsystem_state_change`**: what finds the list empty is not left to another change. -/
def nvmfSubsystemStateChange (id : ℕ) (nsid : UInt32) (requested : SubsystemState) : SubsysWorld :=
  let phase := if s.changes.isEmpty then .called else .waiting
  { s with changes := s.changes ++ [{ id, nsid, requested, phase }] }

/-- **`_nvmf_subsystem_state_change_complete`**: the callback, and then the next change. -/
def nvmfSubsystemStateChangeComplete (c : StateChange) (ok : Bool) : SubsysWorld :=
  { s with changes := callFirst s.changes.tail, answered := s.answered ++ [(c, ok)] }

/-- The change that is carried out becomes another one. -/
def setHead (c : StateChange) : SubsysWorld := { s with changes := c :: s.changes.tail }

def setGroup (k : ℕ) (g : PollGroup) : SubsysWorld :=
  { s with group := Function.update s.group k (some g) }

/-- Where a `spdk_for_each_channel` goes from a thread on; there are `n` threads. -/
def next (k : ℕ) : ChangePhase :=
  match nextFrom (fun j => (s.group j).isSome) n k with
  | some j => .moving j
  | none => .swept true

/-- **`subsystem_state_change_continue`**, from the thread `k`. -/
def subsystemStateChangeContinue (k : ℕ) (ok : Bool) : ChangePhase :=
  if ok then s.next n (k + 1) else .swept false

/-- The callback of the poll group of the thread `k`, where it has one. -/
def callback (k : ℕ) : SubsysWorld :=
  match s.changes with
  | c :: cs =>
    if c.phase = .visiting k then
      { s with changes := { c with phase := s.subsystemStateChangeContinue n k true } :: cs }
    else s
  | [] => s

/-- **`nvmf_subsystem_do_state_change`.** -/
def nvmfSubsystemDoStateChange (c : StateChange) : Option SubsysWorld :=
  if s.state = c.requested then some (s.setHead { c with phase := .finished true })
  else do
    let intermediate ← nvmfSubsystemGetIntermediateState s.state c.requested
    let c := { c with original := s.state }
    match nvmfSubsystemSetState s.state intermediate with
    | none => some (s.setHead { c with phase := .finished false })
    | some state => some ({ s with state }.setHead { c with phase := s.next n 0 })

/-- The change has failed on a poll group: it is taken back, if the state can be set. -/
def revert (c : StateChange) : Option SubsysWorld := do
  let intermediate ← nvmfSubsystemGetIntermediateState c.requested c.original
  match nvmfSubsystemSetState s.state intermediate with
  | none => some (s.setHead { c with phase := .finished false })
  | some state => some ({ s with state }.setHead
      { c with requested := c.original, reverting := true, phase := s.next n 0 })

/-- A pause is remembered. -/
def notePause (c : StateChange) : SubsysWorld :=
  if c.requested = .paused then
    { s with pausedFor := if c.reverting then none else some c.nsid }
  else s

/-- **`subsystem_state_change_done`.** -/
def subsystemStateChangeDone (c : StateChange) (ok : Bool) : Option SubsysWorld :=
  if ok then
    match nvmfSubsystemSetState s.state c.requested with
    | some state =>
      some (({ s with state }.notePause c).setHead { c with phase := .finished true })
    | none => s.revert n c
  else s.revert n c

/-- **`subsystem_state_change_revert_done`.** -/
def subsystemStateChangeRevertDone (c : StateChange) : SubsysWorld :=
  let s := { s with state := (nvmfSubsystemSetState s.state c.requested).getD s.state }
  (s.notePause c).setHead { c with phase := .finished false }

/-- The group of a thread changes; if that fires the callback of a pause, the change goes on. -/
def serve (k : ℕ) (g g' : PollGroup) : SubsysWorld :=
  if g.pg.g.cb = true ∧ g'.pg.g.cb = false then (s.setGroup k g').callback n k else s.setGroup k g'

end SubsysWorld

/-! ## Runs -/

/-- What happens. -/
inductive SubsysLabel
  /-- `nvmf_subsystem_state_change`. -/
  | ask (id : ℕ) (nsid : UInt32) (requested : SubsystemState)
  /-- `nvmf_subsystem_do_state_change`, which is called without the mutex: others may ask for
  changes before it. -/
  | start
  /-- The message of a change gets to its thread. -/
  | visit (ok : Bool) (q : FReq → QpairState) (done : FReq → Bool)
  /-- `nvmf_poll_group_remove_subsystem_msg` is run again. -/
  | removeMsg (k : ℕ)
  /-- The completion of the `spdk_for_each_channel` gets to its thread. -/
  | swept
  /-- `_nvmf_subsystem_state_change_complete`. -/
  | finish
  | exec (k : ℕ) (r : FReq) (q : QpairState) (o : ExecOutcome)
  | complete (k : ℕ) (r : FReq)
  /-- A qpair gets a controller of the subsystem. -/
  | connect (k : ℕ)
  /-- A qpair is destroyed (`_nvmf_qpair_destroy`), with its requests that wait. -/
  | gone (k : ℕ) (mine : FReq → Bool)
  /-- `nvmf_tgt_create_poll_group`. -/
  | create (k : ℕ)
  /-- `nvmf_tgt_destroy_poll_group`. -/
  | destroy (k : ℕ)

/-- **One step.** -/
def subsysStep (n : ℕ) (channels : List Bool) (s : SubsysWorld) : SubsysLabel → Option SubsysWorld
  | .ask id nsid requested =>
    -- only `spdk_nvmf_subsystem_pause` has a namespace
    if requested.Settled ∧ (requested ≠ .paused → nsid = 0) then
      some (s.nvmfSubsystemStateChange id nsid requested)
    else none
  | .start => do
    let c ← s.changes.head?
    if c.phase = .called then s.nvmfSubsystemDoStateChange n c else none
  | .visit ok q done => do
    let c ← s.changes.head?
    match c.phase with
    | .moving k =>
      match s.group k with
      -- "It is possible that the channel was deleted before this message had a chance to execute."
      | none => some (s.setHead { c with phase := s.subsystemStateChangeContinue n k true })
      | some g =>
        let res := subsystemStateChangeOnPg channels s.state c g ok q done
        let phase := res.2.elim (.visiting k) (s.subsystemStateChangeContinue n k)
        some ((s.setGroup k { res.1 with swept := true }).setHead { c with phase })
    | _ => none
  | .removeMsg k => do
    let g ← s.group k
    if g.inactive = true ∧ g.qpairs = 0 then
      some ((s.setGroup k g.nvmfPollGroupRemoveSubsystemMsg).callback n k)
    else none
  | .swept => do
    let c ← s.changes.head?
    match c.phase with
    | .swept ok =>
      if c.reverting then some (s.subsystemStateChangeRevertDone c)
      else s.subsystemStateChangeDone n c ok
    | _ => none
  | .finish => do
    let c ← s.changes.head?
    match c.phase with
    | .finished ok => some (s.nvmfSubsystemStateChangeComplete c ok)
    | _ => none
  | .exec k r q o => do
    let g ← s.group k
    -- only a CONNECT goes back to the queue
    if o = .requeued ∧ ¬ (r.isFabric ∧ r.connect ∧ q = .connecting) then none
    else some (s.serve n k g (g.exec r q o))
  | .complete k r => do
    let g ← s.group k
    if r ∈ g.pg.outstanding then
      some (s.serve n k g { g with pg := nvmfRequestComplete g.pg r })
    else none
  | .connect k => do
    let g ← s.group k
    some (s.setGroup k { g with qpairs := g.qpairs + 1 })
  | .gone k mine => do
    let g ← s.group k
    if 0 < g.qpairs then
      some (s.setGroup k { g with
        qpairs := g.qpairs - 1
        pg := { g.pg with queued := g.pg.queued.filter fun r => !mine r } })
    else none
  | .create k =>
    if k < n ∧ s.group k = none then some (s.setGroup k { pg := { g := freshSgroup channels } })
    else none
  | .destroy k => do
    let g ← s.group k
    if g.qpairs = 0 then some { s with group := Function.update s.group k none } else none

/-- **A subsystem with namespaces**, some with a bdev, on `n` threads. -/
def subsysSys (n : ℕ) (channels : List Bool) : Sys SubsysWorld SubsysLabel where
  init := {}
  step := subsysStep n channels

/-- What the rest of the target keeps to.  The context of a removal is allocated.  A request of a
namespace comes from a qpair with a controller, which there is on a poll group where the subsystem
is active only; a qpair is destroyed when its requests are completed.  The opcode of an Asynchronous
Event Request is seen on the admin queue alone, and there on an enabled qpair.  A poll group is not
destroyed while a change waits for it or with requests of the subsystem. -/
def SubsysSafe (s : SubsysWorld) : SubsysLabel → Prop
  | .visit ok q _ => ∀ c ∈ s.changes.head?,
      (c.requested = .inactive → ok = true) ∧ ∀ r, r.isAer = true → q r = .enabled
  | .exec k r q _ => ∀ g ∈ s.group k, (r.isAer = true → r.admin = true ∧ q = .enabled) ∧
      (r.isMgmt = false → 0 < g.qpairs)
  | .connect k => ∀ g ∈ s.group k, g.inactive = false ∧ g.pg.g.state = .active
  | .gone k mine => ∀ g ∈ s.group k, (∀ r ∈ g.pg.outstanding, mine r = false) ∧
      (g.qpairs = 1 → ∀ r, mine r = false → r.isMgmt = true)
  | .destroy k => ∀ g ∈ s.group k, g.pg.outstanding = [] ∧
      ∀ c ∈ s.changes.head?, c.phase ≠ .visiting k
  | _ => True

end NdpHeaan
