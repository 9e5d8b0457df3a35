import NdpHeaan.Machinery.Run
import NdpHeaan.Target.DataIo
import NdpHeaan.Target.Dispatch

/-!
# Target/FusedPair — a COMPARE and the WRITE behind it

The first half of a fused command waits in `qpair->first_fused_req` for the second.  Behind the
second, `nvmf_bdev_ctrlr_compare_and_write_cmd` is called with both: it fails, and both are
completed, or the device has them, or there is no memory and both go to the io-wait queue, from
where each comes back through `nvmf_ctrlr_process_io_cmd` on its own.

Two things tie the halves together, and neither is told whose it is.  The pointer of the queue pair
keeps a first half whose second is turned away by a check in front (the namespace, the ANA state,
the reservation), and the next fused command takes it for its own.  The mark `req->first_fused` is
set before the device is asked and taken back only on completion, so a second half that comes back
from the io-wait queue and is turned away leaves it on the struct, for whichever command the struct
carries next.  Where none of that happens, the pairs are faithful.
-/

open Machinery

namespace NdpHeaan

/-! ## The queue pair -/

/-- A command with its data, and the request struct the transport gives it. -/
structure FusedReq where
  slot : ℕ
  io : IoReq
  data : DataReq

/-- What becomes of a command that is not fused. -/
inductive UnfusedEnd
  | complete
  | asynchronous
  /-- `-ENOMEM`: it goes to the io-wait queue. -/
  | nomem
  deriving DecidableEq, Repr

/-- What the device answers. -/
structure DeviceEnd where
  /-- The return code of `spdk_bdev_comparev_and_writev_blocks`. -/
  rc : ℤ := 0
  unfused : UnfusedEnd := .asynchronous

/-- A queue pair.  A request is its number in the order of the commands; `first_fused_req` may
outlive the request, so it is a struct. -/
structure FusedSt where
  cmds : List FusedReq := []
  /-- The request that a struct carries, or carried last. -/
  owner : ℕ → Option ℕ := fun _ => none
  /-- `req->first_fused_req` of a struct, where `req->first_fused` is set. -/
  firstFused : ℕ → Option ℕ := fun _ => none
  /-- `qpair->first_fused_req`. -/
  pending : Option ℕ := none
  /-- The io-wait queue. -/
  waiting : List ℕ := []
  /-- What the device has. -/
  flying : List ℕ := []
  /-- The calls of `spdk_bdev_comparev_and_writev_blocks`. -/
  submitted : List (ℕ × ℕ) := []
  /-- The calls of `_nvmf_request_complete`. -/
  completed : List ℕ := []

namespace FusedSt

variable (s : FusedSt)

/-- The `fuse` of a request. -/
def fuseAt (i : ℕ) : Option Fuse := s.cmds[i]?.map fun r => r.io.fuse

/-- The opcode of a request. -/
def opcAt (i : ℕ) : Option Opc := s.cmds[i]?.map fun r => r.io.opc

/-- The struct of a request. -/
def slotAt (i : ℕ) : ℕ := (s.cmds[i]?.map FusedReq.slot).getD 0

/-- A command arrives. -/
def arrive (req : FusedReq) : FusedSt :=
  { s with
    cmds := s.cmds ++ [req]
    owner := Function.update s.owner req.slot (some s.cmds.length) }

/-- `_nvmf_request_complete`. -/
def complete (i : ℕ) : FusedSt := { s with completed := s.completed ++ [i] }

/-- `qpair->first_fused_req = …`. -/
def setPending (p : Option ℕ) : FusedSt := { s with pending := p }

/-- `nvmf_bdev_ctrl_queue_io` of these requests. -/
def queueIo (is : List ℕ) : FusedSt := { s with waiting := s.waiting ++ is }

/-- The device takes a request. -/
def fly (i : ℕ) : FusedSt := { s with flying := s.flying ++ [i] }

/-- `req->first_fused_req = …`, with `req->first_fused`. -/
def setFirstFused (i : ℕ) (first : Option ℕ) : FusedSt :=
  { s with firstFused := Function.update s.firstFused (s.slotAt i) first }

/-- The pending request is completed as `ABORTED_MISSING_FUSED`. -/
def abortPending : FusedSt :=
  match s.pending with
  | some f => (s.setPending none).complete f
  | none => s

/-- A command that is not fused, behind the checks. -/
def unfusedEnd (i : ℕ) : UnfusedEnd → FusedSt
  | .complete => s.complete i
  | .asynchronous => s.fly i
  | .nomem => s.queueIo [i]

end FusedSt

/-- `spdk_nvme_cpl_is_error`, of the code that a handler left. -/
def cplIsError (sc : Option Sc) : Bool := sc.any fun sc => sc ≠ .success

/-- The end of `nvmf_ctrlr_process_io_fused_cmd`, from where it saves the first request. -/
def compareAndWrite (d : Bdev) (s : FusedSt) (f i : ℕ) (cmpReq writeReq : DataReq) (rc : ℤ) :
    FusedSt :=
  let s := (s.setPending none).setFirstFused i (some (s.slotAt f))
  let r := nvmfBdevCtrlrCompareAndWriteCmd d cmpReq writeReq rc
  let s := { s with submitted := s.submitted ++ r.calls.map fun _ => (f, i) }
  match r.status with
  | .complete =>
    if cplIsError r.sc then ((s.complete f).setFirstFused i none).complete i else s.complete i
  | .asynchronous => if r.queued = 2 then s.queueIo [f, i] else s.fly i

/-- **`nvmf_ctrlr_process_io_cmd`** of a request, with the completion where it returns COMPLETE. -/
def execIo (d : Bdev) (s : FusedSt) (i : ℕ) (e : IoEnv) (o : DeviceEnd) : FusedSt :=
  match s.cmds[i]? with
  | none => s
  | some req =>
    let first := s.pending.bind fun f => s.cmds[f]?
    let st := processIoCmd e (first.map FusedReq.io) req.io
    let s' := if st.aborted.isSome then s.abortPending else s
    match st.action with
    | .complete .. => s'.complete i
    | .fusedFirst => s'.setPending (some i)
    | .handler .compareAndWriteCmd _ =>
      match s.pending, first with
      | some f, some cmp => compareAndWrite d s f i cmp.data req.data o.rc
      | _, _ => s'
    | _ => s'.unfusedEnd i o.unfused

/-- What happens to the queue pair. -/
inductive FusedEvent
  /-- The next command is executed. -/
  | exec (req : FusedReq) (e : IoEnv) (o : DeviceEnd)
  /-- The first of the io-wait queue is executed again. -/
  | retry (e : IoEnv) (o : DeviceEnd)
  /-- `nvmf_bdev_ctrlr_complete_cmd`. -/
  | finish (i : ℕ)
  /-- A command that is not fused ends in a callback of its own. -/
  | finishOwn (i : ℕ)

/-- `nvmf_bdev_ctrlr_complete_cmd`: a marked request completes its first one. -/
def bdevCtrlrCompleteCmd (s : FusedSt) (i : ℕ) : FusedSt :=
  match (s.firstFused (s.slotAt i)).bind s.owner with
  | some f => ((s.complete f).setFirstFused i none).complete i
  | none => s.complete i

/-- A command is executed on a free struct, and a FIRST is directly followed by its SECOND. -/
def Admits (s : FusedSt) (req : FusedReq) : Prop :=
  (∀ r ∈ s.cmds.getLast?, r.io.fuse = .first → req.io.fuse = .second) ∧
    ∀ j ∈ s.owner req.slot, j ∈ s.completed

instance (s : FusedSt) (req : FusedReq) : Decidable (Admits s req) :=
  inferInstanceAs (Decidable (_ ∧ _))

/-- A step of the queue pair. -/
def fusedStep (d : Bdev) (s : FusedSt) : FusedEvent → Option FusedSt
  | .exec req e o =>
    if Admits s req then some (execIo d (s.arrive req) s.cmds.length e o) else none
  | .retry e o =>
    match s.waiting with
    | [] => none
    | i :: rest => some (execIo d { s with waiting := rest } i e o)
  | .finish i =>
    if i ∈ s.flying then some (bdevCtrlrCompleteCmd { s with flying := s.flying.erase i } i)
    else none
  | .finishOwn i =>
    if i ∈ s.flying ∧ s.fuseAt i = some .none then
      some ({ s with flying := s.flying.erase i }.complete i)
    else none

/-- **A queue pair that gets commands**, from the empty state. -/
def fusedSys (d : Bdev) : Sys FusedSt FusedEvent := ⟨{}, fusedStep d⟩

/-! ## Faithful pairs -/

/-- A request and the one directly behind it are a fused COMPARE and WRITE. -/
structure FusedSt.IsPair (s : FusedSt) (f i : ℕ) : Prop where
  next : i = f + 1
  first : s.fuseAt f = some .first
  compare : s.opcAt f = some .compare
  second : s.fuseAt i = some .second
  write : s.opcAt i = some .write

/-- **The pairs are executed faithfully.** -/
structure PairsFaithful (s : FusedSt) : Prop where
  submitted : ∀ p ∈ s.submitted, s.IsPair p.1 p.2
  completed : ∀ f, s.fuseAt f = some .first → f + 1 ∈ s.completed → s.completed.count f = 1

/-- A command passes the checks in front of the fused commands. -/
def IoEnv.Passes (e : IoEnv) (r : IoReq) : Prop :=
  e.Serves ∧ nvmfNsReservationRequestCheck e.nsInfo e.hostid r.toNvmeCmd = .success

/-- While the first half `f` is pending, another that passes the checks is a COMPARE too, a WRITE
that passes them as a second half is its own, and its own second half passes them. -/
structure Undisturbed (f i : ℕ) (req : FusedReq) (e : IoEnv) : Prop where
  first : req.io.fuse = .first → e.Passes req.io → req.io.opc = .compare
  second : req.io.fuse = .second → e.Passes req.io → req.io.opc = .write → i = f + 1
  own : i = f + 1 → e.Passes req.io

/-- **Nothing comes between the halves of a pair**, and no command gets a marked struct. -/
def FusedSafe (s : FusedSt) : FusedEvent → Prop
  | .exec req e _ =>
    (∀ f, s.pending = some f → Undisturbed f s.cmds.length req e) ∧ s.firstFused req.slot = none
  | .retry e _ => ∀ i req f, s.waiting.head? = some i → s.cmds[i]? = some req →
      s.pending = some f → Undisturbed f i req e
  | .finish _ | .finishOwn _ => True

end NdpHeaan
