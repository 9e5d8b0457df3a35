import Mathlib.Data.List.Basic
import NdpHeaan.Machinery.Run

/-!
# Target/Outstanding — the counters a pause waits for

A poll group counts the requests of a subsystem that it has started and not completed: admin and
fabrics commands in `mgmt_io_outstanding`, the others per namespace in `io_outstanding`.
`nvmf_check_subsystem_active` counts up, `_nvmf_request_complete` counts down, and an Asynchronous
Event Request, which stays with the controller, is taken out again when it is processed.  A pause
sets the state, so that new requests are queued, and its callback is made when the counters are
zero.

The completion knows an Asynchronous Event Request by its opcode alone.  The opcode 0x0c is VERIFY
on an I/O queue, and on a queue that is not enabled the request is completed without being
processed: both are counted up and never down.
-/

open Machinery

namespace NdpHeaan

/-! ## The poll group -/

/-- A request of the subsystem: one of a qpair with a controller, or a CONNECT that names the
subsystem.  (All others find no `sgroup` and count nowhere.) -/
structure FReq where
  /-- The request itself. -/
  id : ℕ
  /-- `cmd->nvme_cmd.opc`. -/
  opc : UInt8
  /-- `fctype` is CONNECT. -/
  connect : Bool := false
  /-- `fctype` is one of the AUTHENTICATION commands. -/
  auth : Bool := false
  /-- `qpair->qid` is 0. -/
  admin : Bool
  nsid : UInt32 := 0
  deriving DecidableEq, Repr

namespace FReq

variable (r : FReq)

/-- `SPDK_NVME_OPC_FABRIC`. -/
def isFabric : Bool := r.opc == 0x7f

/-- `is_aer`; a CONNECT, which may come without a controller, has another opcode. -/
def isAer : Bool := r.opc == 0x0c

/-- What is counted in `mgmt_io_outstanding`. -/
def isMgmt : Bool := r.isFabric || r.admin

/-- `nsid - 1`. -/
def index : ℕ := (r.nsid - 1).toNat

end FReq

/-- `sgroup->state`, while the subsystem is in the poll group. -/
inductive SgroupState
  | active
  | pausing
  | paused
  deriving DecidableEq, Repr

/-- The counter of a namespace in `struct spdk_nvmf_subsystem_pg_ns_info`. -/
structure PgNs where
  /-- `channel` is not `NULL`. -/
  channel : Bool
  /-- `state` is PAUSING, not ACTIVE. -/
  pausing : Bool := false
  io : ℕ := 0
  deriving DecidableEq, Repr

/-- `struct spdk_nvmf_subsystem_poll_group`, with the numbers of calls of
`nvmf_poll_group_pause_subsystem` and of the callbacks that were made. -/
structure Sgroup where
  state : SgroupState := .active
  mgmt : ℕ := 0
  numNs : ℕ
  ns : ℕ → PgNs
  /-- `cb_fn` is set. -/
  cb : Bool := false
  pauses : ℕ := 0
  fired : ℕ := 0

namespace Sgroup

variable (g : Sgroup)

/-- An `io_outstanding` is changed. -/
def setIo (i : ℕ) (f : ℕ → ℕ) : Sgroup :=
  { g with ns := Function.update g.ns i { g.ns i with io := f (g.ns i).io } }

def countUp (r : FReq) : Sgroup :=
  if r.isMgmt then { g with mgmt := g.mgmt + 1 } else g.setIo r.index (· + 1)

def countDown (r : FReq) : Sgroup :=
  if r.isMgmt then { g with mgmt := g.mgmt - 1 }
  else if r.index < g.numNs then g.setIo r.index (· - 1)
  else g

/-- Nothing is left that a pause waits for. -/
def Drained : Prop :=
  g.mgmt = 0 ∧ ∀ i < g.numNs, (g.ns i).pausing = true → (g.ns i).io = 0

instance : Decidable g.Drained := inferInstanceAs (Decidable (_ ∧ _))

/-- The end of `_nvmf_request_complete`. -/
def checkPaused : Sgroup :=
  if g.state = .pausing ∧ g.Drained then
    { g with state := .paused, cb := false, fired := g.fired + 1 }
  else g

/-- The namespaces that a pause is for: all, or the one it names. -/
def Selected (nsid : UInt32) (i : ℕ) : Prop := nsid = 0xFFFFFFFF ∨ (nsid - 1).toNat = i

instance (nsid : UInt32) (i : ℕ) : Decidable (Selected nsid i) :=
  inferInstanceAs (Decidable (_ ∨ _))

/-- The states that a pause sets. -/
def mark (nsid : UInt32) : Sgroup :=
  { g with
    state := .pausing
    ns := fun i =>
      if i < g.numNs ∧ Selected nsid i then { g.ns i with pausing := true } else g.ns i }

/-- **`nvmf_poll_group_pause_subsystem`.** -/
def nvmfPollGroupPauseSubsystem (nsid : UInt32) : Sgroup :=
  let g := { g with pauses := g.pauses + 1 }
  if g.state = .paused then { g with fired := g.fired + 1 } else
  let g := g.mark nsid
  if 0 < g.mgmt ∨ ∃ i < g.numNs, Selected nsid i ∧ 0 < (g.ns i).io then { g with cb := true }
  else { g with state := .paused, fired := g.fired + 1 }

/-- The states that `nvmf_poll_group_resume_subsystem` sets. -/
def activate : Sgroup :=
  { g with state := .active, ns := fun i => { g.ns i with pausing := false } }

end Sgroup

/-- The poll group: its counters, the requests that wait for it, and those that were started and not
completed. -/
structure PgSt where
  g : Sgroup
  queued : List FReq := []
  outstanding : List FReq := []

/-- `qpair->state`. -/
inductive QpairState
  | connecting
  | authenticating
  | enabled
  | other
  deriving DecidableEq, Repr

/-- What the processing of a command returns: COMPLETE, ASYNCHRONOUS, or ASYNCHRONOUS with a CONNECT
back in the queue. -/
inductive ExecOutcome
  | complete
  | asynchronous
  | requeued
  deriving DecidableEq, Repr

section Exec

variable (s : PgSt) (r : FReq)

/-- `TAILQ_INSERT_TAIL(&sgroup->queued, …)`. -/
def PgSt.queue : PgSt := { s with queued := s.queued ++ [r] }

/-- `TAILQ_INSERT_TAIL(&qpair->outstanding, …)`. -/
def PgSt.start : PgSt := { s with outstanding := s.outstanding ++ [r] }

def PgSt.countUp : PgSt := { s with g := s.g.countUp r }

/-- `sgroup->mgmt_io_outstanding--`. -/
def PgSt.uncount : PgSt := { s with g := { s.g with mgmt := s.g.mgmt - 1 } }

/-- **`_nvmf_request_complete`.** -/
def nvmfRequestComplete : PgSt :=
  let s := { s with outstanding := s.outstanding.erase r }
  if r.isAer then s else { s with g := (s.g.countDown r).checkPaused }

/-- **`nvmf_check_subsystem_active`.** -/
def nvmfCheckSubsystemActive : PgSt × Bool :=
  if r.isMgmt then
    if s.g.state ≠ .active then (s.queue r, false) else (s.countUp r, true)
  else if s.g.numNs ≤ r.index then (nvmfRequestComplete (s.start r) r, false)
  else if (s.g.ns r.index).channel = false then
    (nvmfRequestComplete ((s.countUp r).start r) r, false)
  else if (s.g.ns r.index).pausing then (s.queue r, false)
  else (s.countUp r, true)

/-- **`nvmf_check_qpair_active`**: whether the request goes on. -/
def nvmfCheckQpairActive (q : QpairState) : Bool :=
  match q with
  | .enabled => true
  | .connecting => r.isFabric && r.connect
  | .authenticating => r.isFabric && r.auth
  | .other => false

/-- The processing of a request that goes on. -/
def processCmd (o : ExecOutcome) : PgSt :=
  let s := s.start r
  -- `nvmf_ctrlr_process_admin_cmd`: "We do not want to treat AERs as outstanding commands"
  let s := if !r.isFabric && r.admin && r.isAer then s.uncount else s
  match o with
  | .complete => nvmfRequestComplete s r
  | .asynchronous => s
  -- `nvmf_ctrlr_cmd_connect`: "Subsystem is not ready to handle a connect."
  | .requeued => PgSt.queue { s.uncount with outstanding := s.outstanding.erase r } r

/-- **`spdk_nvmf_request_exec`.** -/
def spdkNvmfRequestExec (q : QpairState) (o : ExecOutcome) : PgSt :=
  let res := nvmfCheckSubsystemActive s r
  if res.2 = false then res.1
  else if nvmfCheckQpairActive r q = false then nvmfRequestComplete (res.1.start r) r
  else processCmd res.1 r o

end Exec

/-- **`nvmf_poll_group_resume_subsystem`**: `ok` is whether `poll_group_update_subsystem` succeeds,
and a queued request finds its qpair in the state `q` and is done at once where `done` says so. -/
def nvmfPollGroupResumeSubsystem (s : PgSt) (ok : Bool) (q : FReq → QpairState)
    (done : FReq → Bool) : PgSt :=
  if s.g.state = .active ∨ ok = false then s else
  s.queued.foldl (fun s r =>
      spdkNvmfRequestExec s r (q r) (if done r then .complete else .asynchronous))
    { s with g := s.g.activate, queued := [] }

/-- What happens to the poll group. -/
inductive PgEvent
  | exec (r : FReq) (q : QpairState) (o : ExecOutcome)
  | complete (r : FReq)
  | pause (nsid : UInt32)
  | resume (ok : Bool) (q : FReq → QpairState) (done : FReq → Bool)

/-- Only a CONNECT goes back to the queue; the state changes of a subsystem come one at a time
(`subsystem->state_changes`). -/
def pgStep (s : PgSt) : PgEvent → Option PgSt
  | .exec r q o =>
    if o = .requeued ∧ ¬ (r.isFabric ∧ r.connect ∧ q = .connecting) then none
    else some (spdkNvmfRequestExec s r q o)
  | .complete r => if r ∈ s.outstanding then some (nvmfRequestComplete s r) else none
  | .pause nsid =>
    if s.g.cb then none else some { s with g := s.g.nvmfPollGroupPauseSubsystem nsid }
  | .resume ok q done =>
    if s.g.cb then none else some (nvmfPollGroupResumeSubsystem s ok q done)

/-- **A poll group with the namespaces of a subsystem**, some with a channel. -/
def pgSys (channels : List Bool) : Sys PgSt PgEvent where
  init := { g := { numNs := channels.length, ns := fun i => { channel := channels.getD i false } } }
  step := pgStep

/-! ## The statements -/

/-- The admin and fabrics requests that were started and not completed, without the parked
Asynchronous Event Requests. -/
def PgSt.mgmtCount (s : PgSt) : ℕ := s.outstanding.countP fun r => r.isMgmt && !r.isAer

/-- The I/O requests of a namespace that were started and not completed. -/
def PgSt.ioCount (s : PgSt) (i : ℕ) : ℕ := s.outstanding.countP fun r => !r.isMgmt && r.index == i

/-- **The counters are exact.** -/
structure CountsExact (s : PgSt) : Prop where
  mgmt : s.g.mgmt = s.mgmtCount
  io : ∀ i < s.g.numNs, (s.g.ns i).io = s.ioCount i

/-- Nothing is left of what a pause waits for. -/
def PgSt.Drained (s : PgSt) : Prop :=
  s.mgmtCount = 0 ∧ ∀ i < s.g.numNs, (s.g.ns i).pausing = true → s.ioCount i = 0

/-- **Each pause has one callback**, which is pending exactly while the subsystem is pausing, not
later than everything it waits for is done and not before. -/
structure PausesExact (s : PgSt) : Prop where
  pending : s.g.cb = true ↔ s.g.state = .pausing
  once : s.g.fired + (if s.g.cb then 1 else 0) = s.g.pauses
  waits : s.g.state = .pausing → ¬ s.Drained
  safe : s.g.state = .paused → s.Drained

/-- An Asynchronous Event Request's opcode is seen on the admin queue alone, and there on an enabled
qpair, unless the request is queued or names no namespace. -/
def PgSafe (s : PgSt) : PgEvent → Prop
  | .exec r q _ => r.isAer = true →
      if r.admin then s.g.state = .active → q = .enabled
      else s.g.numNs ≤ r.index ∨
        ((s.g.ns r.index).channel = true ∧ (s.g.ns r.index).pausing = true)
  | .resume _ q _ => ∀ r ∈ s.queued, r.isAer = true → r.admin = true ∧ q r = .enabled
  | _ => True

/-! ## Pauses, in terms of the counters -/

/-- What holds of the counters and the state of a pause, whatever is outstanding. -/
structure PauseSound (g : Sgroup) : Prop where
  pending : g.cb = true ↔ g.state = .pausing
  once : g.fired + (if g.cb then 1 else 0) = g.pauses
  flags : g.state = .active → ∀ i < g.numNs, (g.ns i).pausing = false
  waits : g.state = .pausing → ¬ g.Drained
  safe : g.state = .paused → g.Drained

section Pauses

variable {g : Sgroup} {r : FReq}

theorem setIo_ns (i : ℕ) (f : ℕ → ℕ) (j : ℕ) :
    (g.setIo i f).ns j = if j = i then { g.ns i with io := f (g.ns i).io } else g.ns j :=
  Function.update_apply ..

@[simp] theorem setIo_pausing (i : ℕ) (f : ℕ → ℕ) (j : ℕ) :
    ((g.setIo i f).ns j).pausing = (g.ns j).pausing := by
  rw [setIo_ns]
  split
  · subst j
    rfl
  · rfl

/-- Counters that are no larger are drained when the larger ones are. -/
theorem Sgroup.Drained.countDown (h : g.Drained) (r : FReq) : (g.countDown r).Drained := by
  unfold Sgroup.countDown
  split
  · refine ⟨?_, h.2⟩
    show g.mgmt - 1 = 0
    rw [h.1]
  split
  · refine ⟨h.1, fun i hi hp => ?_⟩
    rw [setIo_pausing] at hp
    have hzero := h.2 i hi hp
    rw [setIo_ns]
    split
    · subst i
      show (g.ns r.index).io - 1 = 0
      rw [hzero]
    · exact hzero
  · exact h

theorem countDown_frame (g : Sgroup) (r : FReq) :
    (g.countDown r).state = g.state ∧ (g.countDown r).cb = g.cb ∧
      (g.countDown r).fired = g.fired ∧ (g.countDown r).pauses = g.pauses ∧
      (g.countDown r).numNs = g.numNs ∧
      ∀ i, ((g.countDown r).ns i).pausing = (g.ns i).pausing := by
  unfold Sgroup.countDown
  split
  · exact ⟨rfl, rfl, rfl, rfl, rfl, fun _ => rfl⟩
  split
  · exact ⟨rfl, rfl, rfl, rfl, rfl, setIo_pausing _ _⟩
  · exact ⟨rfl, rfl, rfl, rfl, rfl, fun _ => rfl⟩

/-- The check at the end of a completion, on counters that have just gone down. -/
theorem PauseSound.checkPaused (hpending : g.cb = true ↔ g.state = .pausing)
    (honce : g.fired + (if g.cb then 1 else 0) = g.pauses)
    (hflags : g.state = .active → ∀ i < g.numNs, (g.ns i).pausing = false)
    (hsafe : g.state = .paused → g.Drained) : PauseSound g.checkPaused := by
  unfold Sgroup.checkPaused
  split_ifs with h
  · obtain ⟨hstate, hdrained⟩ := h
    rw [hpending.mpr hstate] at honce
    exact ⟨by simp, by simpa using honce, by simp, by simp, fun _ => hdrained⟩
  · exact ⟨hpending, honce, hflags, fun hstate hdrained => h ⟨hstate, hdrained⟩, hsafe⟩

/-- **A completion keeps it.** -/
theorem PauseSound.finish (h : PauseSound g) (r : FReq) :
    PauseSound (g.countDown r).checkPaused := by
  obtain ⟨hstate, hcb, hfired, hpauses, hnum, hp⟩ := countDown_frame g r
  refine .checkPaused ?_ ?_ ?_ ?_
  · rw [hcb, hstate]
    exact h.pending
  · rw [hfired, hcb, hpauses]
    exact h.once
  · intro hact i hi
    rw [hp]
    exact h.flags (hstate ▸ hact) i (hnum ▸ hi)
  · intro hpaused
    exact (h.safe (hstate ▸ hpaused)).countDown r

/-- **So does a request that is let in.** -/
theorem PauseSound.start (h : PauseSound g) (hmgmt : r.isMgmt = true → g.state = .active)
    (hio : r.isMgmt = false → (g.ns r.index).pausing = false) : PauseSound (g.countUp r) := by
  unfold Sgroup.countUp
  split
  · rename_i hr
    have hact := hmgmt hr
    exact ⟨h.pending, h.once, h.flags, fun hw => absurd (hact.symm.trans hw) (by decide),
      fun hs => absurd (hact.symm.trans hs) (by decide)⟩
  · rename_i hr
    have hnot := hio (by simpa using hr)
    -- the namespace is not one that is waited for
    have hdrained : (g.setIo r.index (· + 1)).Drained ↔ g.Drained := by
      refine and_congr Iff.rfl (forall_congr' fun i => forall_congr' fun _ => ?_)
      rw [setIo_pausing]
      refine forall_congr' fun hp => ?_
      rw [setIo_ns, if_neg (fun heq => by rw [heq, hnot] at hp; cases hp)]
    refine ⟨h.pending, h.once, fun hact i hi => ?_, fun hw => hdrained.not.mpr (h.waits hw),
      fun hs => hdrained.mpr (h.safe hs)⟩
    rw [setIo_pausing]
    exact h.flags hact i hi

@[simp] theorem mark_io (nsid : UInt32) (i : ℕ) : ((g.mark nsid).ns i).io = (g.ns i).io := by
  unfold Sgroup.mark
  dsimp only
  split <;> rfl

theorem mark_pausing {nsid : UInt32} {i : ℕ} (hi : i < g.numNs) (hp : (g.ns i).pausing = false) :
    ((g.mark nsid).ns i).pausing = true ↔ Sgroup.Selected nsid i := by
  unfold Sgroup.mark
  by_cases hsel : Sgroup.Selected nsid i
  · simp [hi, hsel]
  · simp [hsel, hp]

/-- **A pause**, where none is pending. -/
theorem PauseSound.pause (h : PauseSound g) (hcb : g.cb = false) (nsid : UInt32) :
    PauseSound (g.nvmfPollGroupPauseSubsystem nsid) := by
  have honce : g.fired = g.pauses := by simpa [hcb] using h.once
  unfold Sgroup.nvmfPollGroupPauseSubsystem
  dsimp only
  by_cases hpaused : g.state = .paused
  · rw [if_pos hpaused]
    exact ⟨h.pending, by simp [hcb, honce], h.flags, h.waits, h.safe⟩
  rw [if_neg hpaused]
  -- so it is active, and no other namespace is marked
  have hflags : ∀ i < g.numNs, (g.ns i).pausing = false := by
    refine h.flags ?_
    cases hs : g.state with
    | active => rfl
    | pausing => simp [h.pending.mpr hs] at hcb
    | paused => exact absurd hs hpaused
  have hmark : ∀ i < g.numNs,
      (({ g with pauses := g.pauses + 1 }.mark nsid).ns i).pausing = true ↔
        Sgroup.Selected nsid i :=
    fun i hi => mark_pausing hi (hflags i hi)
  split_ifs with hbusy
  · refine ⟨by simp [Sgroup.mark], by simp [Sgroup.mark, honce], by simp [Sgroup.mark],
      fun _ hdrained => ?_, by simp [Sgroup.mark]⟩
    rcases hbusy with hmgmt | ⟨i, hi, hsel, hpos⟩
    · exact absurd hdrained.1 (Nat.ne_of_gt hmgmt)
    · exact absurd (hdrained.2 i hi ((hmark i hi).mpr hsel)) (Nat.ne_of_gt hpos)
  · obtain ⟨hmgmt, hidle⟩ := not_or.mp hbusy
    refine ⟨by simp [Sgroup.mark, hcb], by simp [Sgroup.mark, hcb, honce], by simp, by simp,
      fun _ => ⟨Nat.eq_zero_of_not_pos hmgmt, fun i hi hp => ?_⟩⟩
    have hsel := (hmark i hi).mp hp
    exact Nat.eq_zero_of_not_pos fun hpos => hidle ⟨i, hi, hsel, hpos⟩

/-- **A resume**, where no pause is pending. -/
theorem PauseSound.activate (h : PauseSound g) (hcb : g.cb = false) : PauseSound g.activate where
  pending := by simp [Sgroup.activate, hcb]
  once := h.once
  flags := fun _ _ _ => rfl
  waits := by simp [Sgroup.activate]
  safe := by simp [Sgroup.activate]

end Pauses

/-! ## The counts -/

/-- The counters against the list of requests; an opcode 0x0c in it is a parked request. -/
structure Counts (g : Sgroup) (out : List FReq) : Prop where
  mgmt : g.mgmt = out.countP fun r => r.isMgmt && !r.isAer
  io : ∀ i < g.numNs, (g.ns i).io = out.countP fun r => !r.isMgmt && r.index == i
  aer : ∀ r ∈ out, r.isAer = true → r.isMgmt = true

section Counting

variable {g g' : Sgroup} {out : List FReq} {r : FReq}

theorem Counts.perm {out' : List FReq} (h : Counts g out) (hperm : out.Perm out') :
    Counts g out' where
  mgmt := by rw [h.mgmt, hperm.countP_eq]
  io := fun i hi => by rw [h.io i hi, hperm.countP_eq]
  aer := fun r hr => h.aer r (hperm.mem_iff.mpr hr)

/-- The pauses do not touch the counters. -/
theorem Counts.congr (h : Counts g out) (hmgmt : g'.mgmt = g.mgmt) (hnum : g'.numNs = g.numNs)
    (hio : ∀ i, (g'.ns i).io = (g.ns i).io) : Counts g' out where
  mgmt := hmgmt.trans h.mgmt
  io := fun i hi => (hio i).trans (h.io i (hnum ▸ hi))
  aer := h.aer

theorem Counts.checkPaused (h : Counts g out) : Counts g.checkPaused out := by
  unfold Sgroup.checkPaused
  split_ifs
  · exact h.congr rfl rfl fun _ => rfl
  · exact h

theorem Counts.pause (h : Counts g out) (nsid : UInt32) :
    Counts (g.nvmfPollGroupPauseSubsystem nsid) out := by
  unfold Sgroup.nvmfPollGroupPauseSubsystem
  dsimp only
  split
  · exact h.congr rfl rfl fun _ => rfl
  split
  · exact h.congr rfl rfl fun i => mark_io nsid i
  · exact h.congr rfl rfl fun i => mark_io nsid i

/-- A request is started. -/
theorem Counts.start (h : Counts g out) (hr : r.isAer = false) :
    Counts (g.countUp r) (r :: out) := by
  have haer : ∀ r' ∈ r :: out, r'.isAer = true → r'.isMgmt = true := by
    intro r' hr' haer
    rcases List.mem_cons.mp hr' with rfl | hold
    · rw [hr] at haer
      cases haer
    · exact h.aer r' hold haer
  unfold Sgroup.countUp
  split_ifs with hm
  · refine ⟨?_, fun i hi => ?_, haer⟩
    · rw [List.countP_cons_of_pos (by simp [hm, hr]), ← h.mgmt]
    · rw [List.countP_cons_of_neg (by simp [hm])]
      exact h.io i hi
  · refine ⟨?_, fun i hi => ?_, haer⟩
    · rw [List.countP_cons_of_neg (by simp [hm])]
      exact h.mgmt
    · rw [setIo_ns]
      split_ifs with heq
      · subst i
        rw [List.countP_cons_of_pos (by simp [hm]), ← h.io _ hi]
      · rw [List.countP_cons_of_neg (by simp [hm, Ne.symm heq])]
        exact h.io i hi

/-- A request is completed. -/
theorem Counts.finish (h : Counts g (r :: out)) (hr : r.isAer = false) :
    Counts (g.countDown r) out := by
  have haer : ∀ r' ∈ out, r'.isAer = true → r'.isMgmt = true :=
    fun r' hr' => h.aer r' (List.mem_cons_of_mem _ hr')
  have hmgmt := h.mgmt
  unfold Sgroup.countDown
  split_ifs with hm hindex
  · rw [List.countP_cons_of_pos (by simp [hm, hr])] at hmgmt
    refine ⟨by simp [hmgmt], fun i hi => ?_, haer⟩
    have hio := h.io i hi
    rwa [List.countP_cons_of_neg (by simp [hm])] at hio
  · rw [List.countP_cons_of_neg (by simp [hm])] at hmgmt
    refine ⟨hmgmt, fun i hi => ?_, haer⟩
    have hio := h.io i hi
    rw [setIo_ns]
    split_ifs with heq
    · subst i
      rw [List.countP_cons_of_pos (by simp [hm])] at hio
      simp [hio]
    · rwa [List.countP_cons_of_neg (by simp [hm, Ne.symm heq])] at hio
  · rw [List.countP_cons_of_neg (by simp [hm])] at hmgmt
    refine ⟨hmgmt, fun i hi => ?_, haer⟩
    have hio := h.io i hi
    rwa [List.countP_cons_of_neg ?_] at hio
    simp only [hm, Bool.not_false, Bool.true_and, beq_iff_eq]
    exact fun heq => hindex (heq ▸ hi)

/-- A parked request is not counted. -/
theorem Counts.parked_iff (haer : r.isAer = true) (hm : r.isMgmt = true) :
    Counts g (r :: out) ↔ Counts g out := by
  have hmgmt : (r :: out).countP (fun r => r.isMgmt && !r.isAer) =
      out.countP fun r => r.isMgmt && !r.isAer := List.countP_cons_of_neg (by simp [haer])
  have hio : ∀ i, (r :: out).countP (fun r => !r.isMgmt && r.index == i) =
      out.countP fun r => !r.isMgmt && r.index == i :=
    fun i => List.countP_cons_of_neg (by simp [hm])
  constructor
  · intro h
    exact ⟨hmgmt ▸ h.mgmt, fun i hi => hio i ▸ h.io i hi,
      fun r' hr' => h.aer r' (List.mem_cons_of_mem _ hr')⟩
  · intro h
    refine ⟨hmgmt ▸ h.mgmt, fun i hi => (hio i).symm ▸ h.io i hi, fun r' hr' haer' => ?_⟩
    rcases List.mem_cons.mp hr' with rfl | hold
    · exact hm
    · exact h.aer r' hold haer'

/-- Up and down again. -/
theorem countDown_countUp (h : r.isMgmt = false → r.index < g.numNs) :
    (g.countUp r).countDown r = g := by
  unfold Sgroup.countUp Sgroup.countDown
  cases hm : r.isMgmt with
  | true => simp
  | false =>
    have hindex : r.index < (g.setIo r.index (· + 1)).numNs := h hm
    simp only [Bool.false_eq_true, if_false, hindex, if_true]
    simp [Sgroup.setIo]

theorem countDown_of_le (hm : r.isMgmt = false) (h : g.numNs ≤ r.index) : g.countDown r = g := by
  unfold Sgroup.countDown
  rw [hm, if_neg (by simp), if_neg (Nat.not_lt.mpr h)]

theorem erase_start_perm (out : List FReq) (r : FReq) : ((out ++ [r]).erase r).Perm out := by
  have hperm := (List.perm_append_singleton r out).erase r
  rwa [List.erase_cons_head] at hperm

end Counting

/-! ## Every run -/

/-- **What holds in every safe run.** -/
structure PgSound (s : PgSt) : Prop where
  pauses : PauseSound s.g
  counts : Counts s.g s.outstanding

section Run

variable {s s' : PgSt} {r : FReq} {q : QpairState} {o : ExecOutcome}

theorem PgSound.exact (h : PgSound s) : CountsExact s := ⟨h.counts.mgmt, h.counts.io⟩

theorem PgSound.drained_iff (h : PgSound s) : s.Drained ↔ s.g.Drained := by
  unfold PgSt.Drained Sgroup.Drained
  rw [h.exact.mgmt]
  exact and_congr Iff.rfl (forall_congr' fun i => forall_congr' fun hi => by rw [h.exact.io i hi])

theorem PgSound.pausesExact (h : PgSound s) : PausesExact s :=
  ⟨h.pauses.pending, h.pauses.once, fun hw => h.drained_iff.not.mpr (h.pauses.waits hw),
    fun hs => h.drained_iff.mpr (h.pauses.safe hs)⟩

theorem PgSound.init (channels : List Bool) : PgSound (pgSys channels).init where
  pauses := ⟨by simp [pgSys], by simp [pgSys], fun _ _ _ => rfl, by simp [pgSys], by simp [pgSys]⟩
  counts := ⟨rfl, fun _ _ => rfl, by simp [pgSys]⟩

/-- **A request is completed.** -/
theorem PgSound.complete (h : PgSound s) (hr : r ∈ s.outstanding) :
    PgSound (nvmfRequestComplete s r) := by
  have hcounts := h.counts.perm (List.perm_cons_erase hr)
  unfold nvmfRequestComplete
  cases haer : r.isAer with
  | true => exact ⟨h.pauses, (Counts.parked_iff haer (h.counts.aer r hr haer)).mp hcounts⟩
  | false => exact ⟨h.pauses.finish r, (hcounts.finish haer).checkPaused⟩

/-- A request that is turned away before anything else was counted nowhere, or up and down again. -/
theorem PgSound.turnedAway (h : PgSound s) {g : Sgroup} (hg : g.countDown r = s.g)
    (haer : r.isAer = true → g = s.g) :
    PgSound (nvmfRequestComplete ({ s with g := g }.start r) r) := by
  have hcounts := h.counts.perm (erase_start_perm s.outstanding r).symm
  unfold nvmfRequestComplete PgSt.start
  cases haer' : r.isAer with
  | true =>
    rw [haer haer']
    exact ⟨h.pauses, hcounts⟩
  | false =>
    dsimp only
    rw [if_neg (by simp), hg]
    exact ⟨.checkPaused h.pauses.pending h.pauses.once h.pauses.flags h.pauses.safe,
      hcounts.checkPaused⟩

/-- A request is let in: the subsystem is active, or its namespace has a channel and is. -/
def LetIn (s : PgSt) (r : FReq) : Prop :=
  if r.isMgmt then s.g.state = .active
  else r.index < s.g.numNs ∧ (s.g.ns r.index).pausing = false

/-- **What `nvmf_check_subsystem_active` does.** -/
theorem checkSubsystemActive_cases (s : PgSt) (r : FReq) :
    nvmfCheckSubsystemActive s r = (s.queue r, false) ∧
        (r.isMgmt = true → s.g.state ≠ .active) ∨
      (∃ g : Sgroup, nvmfCheckSubsystemActive s r =
          (nvmfRequestComplete ({ s with g := g }.start r) r, false) ∧ g.countDown r = s.g ∧
        r.isMgmt = false ∧ (g = s.g ∨ r.index < s.g.numNs ∧ (s.g.ns r.index).channel = false)) ∨
      nvmfCheckSubsystemActive s r = (s.countUp r, true) ∧ LetIn s r ∧
        (r.isMgmt = false → (s.g.ns r.index).pausing = false) := by
  unfold nvmfCheckSubsystemActive LetIn
  cases hm : r.isMgmt with
  | true =>
    by_cases hact : s.g.state = .active
    · simp [hact]
    · simp [hact]
  | false =>
    simp only [Bool.false_eq_true, if_false]
    by_cases hrange : s.g.numNs ≤ r.index
    · exact .inr (.inl ⟨s.g, if_pos hrange, countDown_of_le hm hrange, trivial, .inl rfl⟩)
    rw [if_neg hrange]
    have hindex := Nat.not_le.mp hrange
    by_cases hchannel : (s.g.ns r.index).channel = false
    · exact .inr (.inl ⟨s.g.countUp r, if_pos hchannel, countDown_countUp fun _ => hindex, trivial,
        .inr ⟨hindex, hchannel⟩⟩)
    rw [if_neg hchannel]
    by_cases hp : (s.g.ns r.index).pausing = true
    · exact .inl ⟨if_pos hp, fun h => absurd h (by simp)⟩
    · have hp := Bool.eq_false_iff.mpr hp
      exact .inr (.inr ⟨by simp [hp], ⟨hindex, hp⟩, fun _ => hp⟩)

/-- A request that is let in is started. -/
theorem PgSound.letIn (h : PgSound s) (hr : r.isAer = false) (hin : LetIn s r) :
    PgSound ((s.countUp r).start r) := by
  unfold LetIn at hin
  refine ⟨h.pauses.start (fun hm => ?_) (fun hm => ?_), ?_⟩
  · rwa [if_pos hm] at hin
  · rw [if_neg (by simp [hm])] at hin
    exact hin.2
  · exact (h.counts.start hr).perm (List.perm_append_singleton r s.outstanding).symm

theorem mem_start : r ∈ (s.start r).outstanding :=
  List.mem_append_right _ (List.mem_singleton_self r)

theorem not_isFabric_of_isAer (h : r.isAer = true) : r.isFabric = false := by
  unfold FReq.isAer at h
  unfold FReq.isFabric
  rw [beq_iff_eq.mp h]
  rfl

/-- An Asynchronous Event Request that is let in comes on an enabled admin queue. -/
theorem PgSafe.aer (hsafe : PgSafe s (.exec r q o)) (hin : LetIn s r) (haer : r.isAer = true) :
    r.admin = true ∧ q = .enabled := by
  have hfab := not_isFabric_of_isAer haer
  have hsafe := hsafe haer
  unfold LetIn FReq.isMgmt at hin
  cases hadmin : r.admin with
  | true =>
    rw [hadmin, if_pos rfl] at hsafe
    exact ⟨rfl, hsafe (by simpa [hadmin] using hin)⟩
  | false =>
    rw [hadmin, if_neg (by simp)] at hsafe
    rw [hfab, hadmin, if_neg (by simp)] at hin
    rcases hsafe with hrange | ⟨-, hp⟩
    · exact absurd hin.1 (Nat.not_lt.mpr hrange)
    · rw [hin.2] at hp
      cases hp

/-- Counted and taken back. -/
theorem uncount_countUp (hm : r.isMgmt = true) :
    ((s.countUp r).start r).uncount = s.start r := by
  simp [PgSt.countUp, PgSt.start, PgSt.uncount, Sgroup.countUp, hm]

/-- It is parked, or completed at once. -/
theorem PgSound.park (h : PgSound s) (haer : r.isAer = true) (hadmin : r.admin = true)
    (ho : o ≠ .requeued) : PgSound (processCmd (s.countUp r) r o) := by
  have hm : r.isMgmt = true := by simp [FReq.isMgmt, hadmin]
  have hstart : PgSound (s.start r) :=
    ⟨h.pauses, ((Counts.parked_iff haer hm).mpr h.counts).perm
      (List.perm_append_singleton r s.outstanding).symm⟩
  unfold processCmd
  dsimp only
  rw [if_pos (by simp [not_isFabric_of_isAer haer, hadmin, haer]), uncount_countUp hm]
  cases o with
  | complete => exact hstart.complete mem_start
  | asynchronous => exact hstart
  | requeued => exact absurd rfl ho

/-- A request that is counted is processed. -/
theorem PgSound.process (h : PgSound s) (hr : r.isAer = false) (hin : LetIn s r)
    (hreq : o = .requeued → r.isFabric = true) : PgSound (processCmd (s.countUp r) r o) := by
  have hstart := h.letIn hr hin
  unfold processCmd
  dsimp only
  rw [if_neg (by simp [hr])]
  cases o with
  | complete => exact hstart.complete mem_start
  | asynchronous => exact hstart
  | requeued =>
    dsimp only
    rw [uncount_countUp (by simp [FReq.isMgmt, hreq rfl])]
    exact ⟨h.pauses, h.counts.perm (erase_start_perm s.outstanding r).symm⟩

/-- **A request is executed.** -/
theorem PgSound.exec (h : PgSound s) (hsafe : PgSafe s (.exec r q o))
    (hreq : o = .requeued → r.isFabric = true) : PgSound (spdkNvmfRequestExec s r q o) := by
  unfold spdkNvmfRequestExec
  rcases checkSubsystemActive_cases s r with ⟨heq, hqueued⟩ | ⟨g, heq, hg, hm, hor⟩ |
    ⟨heq, hin, hp⟩
  · rw [heq]
    exact ⟨h.pauses, h.counts⟩
  · rw [heq]
    refine h.turnedAway hg fun haer => hor.resolve_right fun ⟨hindex, hchannel⟩ => ?_
    have hsafe := hsafe haer
    rw [if_neg (by simpa using (Bool.or_eq_false_iff.mp hm).2)] at hsafe
    rcases hsafe with hrange | ⟨hchannel', -⟩
    · exact absurd hindex (Nat.not_lt.mpr hrange)
    · rw [hchannel] at hchannel'
      cases hchannel'
  · rw [heq]
    dsimp only
    rw [if_neg (by simp)]
    cases haer : r.isAer with
    | true =>
      obtain ⟨hadmin, rfl⟩ := hsafe.aer hin haer
      rw [if_neg (by simp [nvmfCheckQpairActive])]
      refine h.park haer hadmin fun ho => ?_
      rw [not_isFabric_of_isAer haer] at hreq
      exact absurd (hreq ho) (by simp)
    | false =>
      split
      · exact (h.letIn haer hin).complete mem_start
      · exact h.process haer hin hreq

theorem PgSound.resume (h : PgSound s) (hcb : s.g.cb = false) {ok : Bool} {q : FReq → QpairState}
    {done : FReq → Bool} (hsafe : PgSafe s (.resume ok q done)) :
    PgSound (nvmfPollGroupResumeSubsystem s ok q done) := by
  unfold nvmfPollGroupResumeSubsystem
  split_ifs with hact
  · exact h
  · refine List.foldlRecOn (motive := PgSound) _ _ ?_ fun s' hs' r hr => ?_
    · exact ⟨h.pauses.activate hcb, h.counts.congr rfl rfl fun _ => rfl⟩
    · refine hs'.exec (fun haer => ?_) fun ho => ?_
      · obtain ⟨hadmin, hq⟩ := hsafe r hr haer
        rw [if_pos hadmin]
        exact fun _ => hq
      · split at ho <;> cases ho

/-- **Every step.** -/
theorem PgSound.step (h : PgSound s) {e : PgEvent} (hsafe : PgSafe s e)
    (hstep : pgStep s e = some s') : PgSound s' := by
  cases e with
  | exec r q o =>
    rw [pgStep] at hstep
    split_ifs at hstep with hreq
    obtain rfl := Option.some.inj hstep
    refine h.exec hsafe fun ho => ?_
    by_contra hfab
    exact hreq ⟨ho, fun hc => hfab hc.1⟩
  | complete r =>
    rw [pgStep] at hstep
    split_ifs at hstep with hr
    obtain rfl := Option.some.inj hstep
    exact h.complete hr
  | pause nsid =>
    rw [pgStep] at hstep
    split_ifs at hstep with hcb
    obtain rfl := Option.some.inj hstep
    have hcb := Bool.eq_false_iff.mpr hcb
    exact ⟨h.pauses.pause hcb nsid, h.counts.pause nsid⟩
  | resume ok q done =>
    rw [pgStep] at hstep
    split_ifs at hstep with hcb
    obtain rfl := Option.some.inj hstep
    exact h.resume (Bool.eq_false_iff.mpr hcb) hsafe

/-- **In every run in which the opcode 0x0c is an Asynchronous Event Request on an enabled qpair,
the counters are exact, and each pause has its callback exactly when what it waits for is done.** -/
theorem outstanding_exact {channels : List Bool} (h : (pgSys channels).Reach PgSafe s) :
    CountsExact s ∧ PausesExact s := by
  have hsound : PgSound s := h.invariant (.init channels) fun _ _ _ hs hsafe => hs.step hsafe
  exact ⟨hsound.exact, hsound.pausesExact⟩

end Run

/-- An Asynchronous Event Request. -/
def FReq.aer : FReq := { id := 0, opc := 0x0c, admin := true }

/-- A READ of the first namespace. -/
def FReq.read : FReq := { id := 1, opc := 0x02, admin := false, nsid := 1 }

/-- A VERIFY of the first namespace. -/
def FReq.verify : FReq := { id := 2, opc := 0x0c, admin := false, nsid := 1 }

/-- A parked request, a READ in flight, and a pause that waits for the READ. -/
theorem outstanding_exact_sample : ∃ s,
    (pgSys [true]).run (pgSys [true]).init
      [.exec .aer .enabled .asynchronous, .exec .read .enabled .asynchronous, .pause 0xFFFFFFFF,
        .complete .read] = some s ∧
      s.outstanding = [.aer] ∧ s.g.fired = 1 ∧ CountsExact s ∧ PausesExact s := by
  refine ⟨_, rfl, by decide, by decide, ?_⟩
  refine @outstanding_exact _ [true] (.of_run [.exec .aer .enabled .asynchronous,
    .exec .read .enabled .asynchronous, .pause 0xFFFFFFFF, .complete .read] ?_ .init rfl)
  rintro l hl t
  obtain rfl | rfl | rfl | rfl : l = _ ∨ l = _ ∨ l = _ ∨ l = _ := by simpa using hl
  · exact fun _ _ => rfl
  · exact fun haer => absurd haer (by decide)
  · trivial
  · trivial

/-- **A VERIFY that is completed at once, or an Asynchronous Event Request on a qpair that is going
down, leaves its count behind; the pause that follows waits for nothing.** -/
theorem outstanding_leaks :
    (∃ s, (pgSys [true]).run (pgSys [true]).init
        [.exec .verify .enabled .complete, .pause 0xFFFFFFFF] = some s ∧
      s.outstanding = [] ∧ (s.g.ns 0).io = 1 ∧ s.g.state = .pausing ∧
      ¬ CountsExact s ∧ ¬ PausesExact s) ∧
    ∃ s, (pgSys [true]).run (pgSys [true]).init
        [.exec .aer .other .complete, .pause 0xFFFFFFFF] = some s ∧
      s.outstanding = [] ∧ s.g.mgmt = 1 ∧ s.g.state = .pausing ∧
      ¬ CountsExact s ∧ ¬ PausesExact s := by
  refine ⟨⟨_, rfl, by decide, by decide, by decide, fun h => ?_, fun h => ?_⟩,
    ⟨_, rfl, by decide, by decide, by decide, fun h => ?_, fun h => ?_⟩⟩
  · exact absurd (h.io 0 (by decide)) (by decide)
  · exact h.waits (by decide) ⟨by decide, by decide⟩
  · exact absurd h.mgmt (by decide)
  · exact h.waits (by decide) ⟨by decide, by decide⟩

end NdpHeaan
