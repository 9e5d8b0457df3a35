import NdpHeaan.Target.Reservation

/-!
# Target/Dispatch — which I/O commands reach a handler

`nvmf_ctrlr_process_io_cmd` checks the reservation by one table of opcodes and dispatches by
another.  A step takes a request and the queue pair's first fused request, and says which commands
go to which handler.  Everything the check lists is held to the rule for reads or the one for
writes; the near-data commands and COPY are not listed, and go through whatever the reservation.
-/

namespace NdpHeaan

/-! ## The model -/

/-- A request on an I/O queue. -/
structure IoReq extends NvmeCmd where
  /-- `spdk_nvmf_request_using_zcopy`. -/
  zcopy : Bool := false
  /-- `nvmf_ctrlr_use_zcopy` picks unfused reads and writes only. -/
  zcopy_spec : zcopy = true → (toNvmeCmd.opc = .read ∨ toNvmeCmd.opc = .write) ∧ fuse = .none

/-- `enum spdk_nvme_ana_state`. -/
inductive AnaState
  | optimized
  | nonOptimized
  | inaccessible
  | persistentLoss
  | change
  deriving DecidableEq, Repr

/-- `ctrlr->cdata.oncs`. -/
structure Oncs where
  compare : Bool
  writeZeroes : Bool
  dsm : Bool
  reservations : Bool
  copy : Bool
  deriving DecidableEq, Repr

/-- What the dispatch of a command reads beside the command. -/
structure IoEnv where
  /-- The target is built with `HEAAN_LIB`. -/
  heaanLib : Bool
  /-- `ctrlr->vcprop.cc.bits.en`. -/
  en : Bool
  /-- The namespace is there and has a device. -/
  nsOk : Bool
  anaState : AnaState
  /-- `ctrlr->hostid`. -/
  hostid : Uuid
  nsInfo : NsInfo
  oncs : Oncs
  /-- `qpair->transport->opts.disable_command_passthru`. -/
  disableCommandPassthru : Bool

/-- The handlers in `ctrlr_bdev.c`. -/
inductive IoHandler
  | readCmd
  | writeCmd
  | flushCmd
  | customEchoCmd
  | customGrepCmd
  | customHeaanCipaddCmd
  | compareCmd
  | writeZeroesCmd
  | dsmCmd
  | copyCmd
  | compareAndWriteCmd
  | zcopyStart
  /-- Any other opcode is passed on to the device as it is. -/
  | nvmePassthruIo
  deriving DecidableEq, Repr

/-- What becomes of a command. -/
inductive IoAction
  /-- It is completed with a status. -/
  | complete (sct : Sct) (sc : Sc) (dnr : Bool)
  /-- These commands go to a handler. -/
  | handler (h : IoHandler) (reqs : List IoReq)
  /-- It is sent to the subsystem's thread. -/
  | reservationRequest
  /-- It waits for the second half of a fused command. -/
  | fusedFirst

/-- A step of a queue pair. -/
structure IoStep where
  action : IoAction
  /-- `qpair->first_fused_req` behind the step. -/
  firstFusedReq : Option IoReq
  /-- The first fused request completed as `ABORTED_MISSING_FUSED`. -/
  aborted : Option IoReq := none

/-- `_nvme_ana_state_to_path_status`, for the states that fail. -/
def nvmeAnaStateToPathStatus : AnaState → Sc
  | .inaccessible => .asymmetricAccessInaccessible
  | .persistentLoss => .asymmetricAccessPersistentLoss
  | .change => .asymmetricAccessTransition
  | .optimized | .nonOptimized => .internalPathError

/-- `nvmf_ctrlr_process_io_fused_cmd`. -/
def processIoFusedCmd (first : Option IoReq) (r : IoReq) : IoStep :=
  match r.fuse with
  | .first =>
    match first with
    | some f => ⟨.fusedFirst, some r, some f⟩
    | none =>
      if r.opc ≠ .compare then ⟨.complete .generic .invalidOpcode false, none, none⟩
      else ⟨.fusedFirst, some r, none⟩
  | .second =>
    match first with
    | none => ⟨.complete .generic .abortedMissingFused false, none, none⟩
    | some f =>
      if r.opc ≠ .write then ⟨.complete .generic .invalidOpcode false, none, some f⟩
      else ⟨.handler .compareAndWriteCmd [f, r], none, none⟩
  | _ => ⟨.complete .generic .invalidField false, first, none⟩

/-- A case of the switch that jumps to `invalid_opcode` where it is not supported. -/
def IoAction.gated (supported : Bool) (a : IoAction) : IoAction :=
  if !supported then .complete .generic .invalidOpcode true else a

@[simp] theorem IoAction.gated_eq_handler {supported : Bool} {a : IoAction} {h : IoHandler}
    {reqs : List IoReq} : IoAction.gated supported a = .handler h reqs ↔
      supported = true ∧ a = .handler h reqs := by
  cases supported <;> simp [gated]

/-- The switch over the opcode. -/
def ioSwitch (e : IoEnv) (r : IoReq) : IoAction :=
  match r.opc with
  | .read => .handler .readCmd [r]
  | .write => .handler .writeCmd [r]
  | .flush => .handler .flushCmd [r]
  | .customEcho => .handler .customEchoCmd [r]
  | .customGrep => .handler .customGrepCmd [r]
  | .customHeaanAdd =>
    if e.heaanLib then .handler .customHeaanCipaddCmd [r]
    -- without the library the case is not compiled, and the default applies
    else .gated (!e.disableCommandPassthru) (.handler .nvmePassthruIo [r])
  | .compare => .gated e.oncs.compare (.handler .compareCmd [r])
  | .writeZeroes => .gated e.oncs.writeZeroes (.handler .writeZeroesCmd [r])
  | .datasetManagement => .gated e.oncs.dsm (.handler .dsmCmd [r])
  | .reservationRegister | .reservationAcquire | .reservationRelease | .reservationReport =>
    .gated e.oncs.reservations .reservationRequest
  | .copy => .gated e.oncs.copy (.handler .copyCmd [r])
  | .writeUncorrectable | .other _ =>
    .gated (!e.disableCommandPassthru) (.handler .nvmePassthruIo [r])

/-- **`nvmf_ctrlr_process_io_cmd`**. -/
def processIoCmd (e : IoEnv) (first : Option IoReq) (r : IoReq) : IoStep :=
  if !e.en then ⟨.complete .generic .commandSequenceError false, first, none⟩ else
  if !e.nsOk then ⟨.complete .generic .invalidNamespaceOrFormat true, first, none⟩ else
  if e.anaState ≠ .optimized ∧ e.anaState ≠ .nonOptimized then
    ⟨.complete .path (nvmeAnaStateToPathStatus e.anaState) false, first, none⟩ else
  if nvmfNsReservationRequestCheck e.nsInfo e.hostid r.toNvmeCmd ≠ .success then
    ⟨.complete .generic .reservationConflict false, first, none⟩ else
  if r.fuse ≠ .none then processIoFusedCmd first r else
  ⟨if r.zcopy then .handler .zcopyStart [r] else ioSwitch e r, none, first⟩

/-! ## What a handler is called for -/

/-- A command gets as far as the reservation check. -/
structure IoEnv.Serves (e : IoEnv) : Prop where
  en : e.en = true
  nsOk : e.nsOk = true
  ana : e.anaState = .optimized ∨ e.anaState = .nonOptimized

section Steps

variable {e : IoEnv} {first : Option IoReq} {r : IoReq} {h : IoHandler} {reqs : List IoReq}

/-- An opcode that goes to a handler of its own goes there alone, and only where it is supported. -/
theorem ioSwitch_handler (hs : ioSwitch e r = .handler h reqs) (hp : h ≠ .nvmePassthruIo) :
    reqs = [r] ∧ (r.opc = .copy → e.oncs.copy = true) ∧
      (r.opc = .customHeaanAdd → e.heaanLib = true) := by
  unfold ioSwitch at hs
  split at hs
  case h_6 ho =>
    split at hs
    · rename_i hlib
      exact ⟨(IoAction.handler.inj hs).2.symm, by simp [ho], fun _ => hlib⟩
    · obtain ⟨-, hs⟩ := IoAction.gated_eq_handler.mp hs
      exact absurd (IoAction.handler.inj hs).1.symm hp
  all_goals simp_all

/-- A fused command gets to a handler only as the second half, and as a WRITE. -/
theorem processIoFusedCmd_handler (hs : (processIoFusedCmd first r).action = .handler h reqs) :
    r.opc = .write := by
  unfold processIoFusedCmd at hs
  split at hs
  · split at hs
    · cases hs
    · split at hs <;> cases hs
  · split at hs
    · cases hs
    · split at hs
      · cases hs
      · rename_i ho
        exact not_not.mp ho
  · cases hs

/-- **Inversion of the dispatch**: a handler of a command's own is called for a command that passed
the check — alone, or as the second half of a fused pair. -/
theorem processIoCmd_handler (hs : (processIoCmd e first r).action = .handler h reqs)
    (hp : h ≠ .nvmePassthruIo) :
    e.Serves ∧ nvmfNsReservationRequestCheck e.nsInfo e.hostid r.toNvmeCmd = .success ∧
      ((r.fuse = .none ∧ reqs = [r] ∧ (r.opc = .copy → e.oncs.copy = true) ∧
          (r.opc = .customHeaanAdd → e.heaanLib = true)) ∨
        r.opc = .write) := by
  unfold processIoCmd at hs
  split at hs
  · cases hs
  rename_i hen
  split at hs
  · cases hs
  rename_i hns
  split at hs
  · cases hs
  rename_i hana
  split at hs
  · cases hs
  rename_i hcheck
  have hana : e.anaState = .optimized ∨ e.anaState = .nonOptimized := by
    rwa [← not_or, not_not] at hana
  refine ⟨⟨by simpa using hen, by simpa using hns, hana⟩, not_not.mp hcheck, ?_⟩
  split at hs
  · exact Or.inr (processIoFusedCmd_handler hs)
  · rename_i hfuse
    refine Or.inl ⟨not_not.mp hfuse, ?_⟩
    dsimp only at hs
    split at hs
    · rename_i hz
      refine ⟨(IoAction.handler.inj hs).2.symm, ?_⟩
      rcases (r.zcopy_spec hz).1 with ho | ho <;> simp [ho]
    · exact ioSwitch_handler hs hp

/-- **A command the check does not list is dispatched, whatever the reservation.** -/
theorem processIoCmd_of_unchecked (he : e.Serves) (hf : r.fuse = .none)
    (ho : r.opc.unchecked = true) : (processIoCmd e first r).action = ioSwitch e r := by
  have hz : r.zcopy = false := by
    by_contra hz
    rcases (r.zcopy_spec (by simpa using hz)).1 with h | h <;> rw [h] at ho <;> cases ho
  have hana : ¬ (e.anaState ≠ .optimized ∧ e.anaState ≠ .nonOptimized) :=
    fun h => he.ana.elim h.1 h.2
  have hcheck := check_eq_success_of_unchecked e.nsInfo e.hostid ho
  simp [processIoCmd, he.en, he.nsOk, hana, hcheck, hf, hz]

end Steps

/-! ## Reservations and the dispatch -/

/-- Commands that make the target write blocks of the namespace. -/
def Opc.writesBlocks : Opc → Bool
  | .write | .writeZeroes | .datasetManagement | .copy | .customHeaanAdd => true
  | _ => false

/-- Commands that make the target read blocks of the namespace. -/
def Opc.readsBlocks : Opc → Bool
  | .read | .compare | .customEcho | .customGrep | .customHeaanAdd => true
  | _ => false

/-- **A step respects the reservation**: a command that reaches its handler and writes blocks would
get through the check as a plain WRITE, one that reads blocks as a plain READ. -/
def RespectsReservation (e : IoEnv) (first : Option IoReq) (r : IoReq) : Prop :=
  ∀ h reqs, (processIoCmd e first r).action = .handler h reqs → h ≠ .nvmePassthruIo →
    ∀ q ∈ reqs,
      (q.opc.writesBlocks = true →
        nvmfNsReservationRequestCheck e.nsInfo e.hostid .plainWrite = .success) ∧
      (q.opc.readsBlocks = true →
        nvmfNsReservationRequestCheck e.nsInfo e.hostid .plainRead = .success)

theorem respectsReservation_def (e : IoEnv) (first : Option IoReq) (r : IoReq) :
    RespectsReservation e first r ↔
      ∀ h reqs, (processIoCmd e first r).action = .handler h reqs → h ≠ .nvmePassthruIo →
        ∀ q ∈ reqs, (q.opc.writesBlocks = true → e.nsInfo.MayWrite e.hostid) ∧
          (q.opc.readsBlocks = true → e.nsInfo.MayRead e.hostid) := by
  have hw := check_eq_success_iff_mayWrite e.nsInfo e.hostid (c := .plainWrite) rfl
  have hr := check_eq_success_iff_mayRead e.nsInfo e.hostid (c := .plainRead) rfl
  simp only [RespectsReservation, hw, hr]

/-- The commands that reach a handler without being listed: the ones that write… -/
def IoEnv.SlipsWrite (e : IoEnv) (o : Opc) : Prop :=
  (o = .copy ∧ e.oncs.copy = true) ∨ (o = .customHeaanAdd ∧ e.heaanLib = true)

/-- …and the ones that read. -/
def IoEnv.SlipsRead (e : IoEnv) (o : Opc) : Prop :=
  o = .customEcho ∨ o = .customGrep ∨ (o = .customHeaanAdd ∧ e.heaanLib = true)

section Slips

variable {e : IoEnv} {first : Option IoReq} {r : IoReq} {o : Opc}

theorem Opc.writesBlocks_cases (h : o.writesBlocks = true) :
    o.checkedAsWrite = true ∨ o = .copy ∨ o = .customHeaanAdd := by
  cases o <;> simp_all [writesBlocks, checkedAsWrite]

theorem Opc.readsBlocks_cases (h : o.readsBlocks = true) :
    o.checkedAsRead = true ∨ o = .customEcho ∨ o = .customGrep ∨ o = .customHeaanAdd := by
  cases o <;> simp_all [readsBlocks, checkedAsRead]

/-- A command that slips is not listed, and the switch has a handler for it. -/
theorem IoEnv.handler_of_slips (h : e.SlipsWrite r.opc ∨ e.SlipsRead r.opc) :
    r.opc.unchecked = true ∧ ∃ h, h ≠ .nvmePassthruIo ∧ ioSwitch e r = .handler h [r] := by
  rcases h with (⟨ho, hc⟩ | ⟨ho, hl⟩) | ho | ho | ⟨ho, hl⟩ <;> rw [ho] <;> refine ⟨rfl, ?_⟩
  · exact ⟨.copyCmd, by decide, by simp [ioSwitch, ho, hc]⟩
  · exact ⟨.customHeaanCipaddCmd, by decide, by simp [ioSwitch, ho, hl]⟩
  · exact ⟨.customEchoCmd, by decide, by simp [ioSwitch, ho]⟩
  · exact ⟨.customGrepCmd, by decide, by simp [ioSwitch, ho]⟩
  · exact ⟨.customHeaanCipaddCmd, by decide, by simp [ioSwitch, ho, hl]⟩

theorem IoEnv.SlipsWrite.writesBlocks (h : e.SlipsWrite o) : o.writesBlocks = true := by
  rcases h with ⟨rfl, -⟩ | ⟨rfl, -⟩ <;> rfl

theorem IoEnv.SlipsRead.readsBlocks (h : e.SlipsRead o) : o.readsBlocks = true := by
  rcases h with rfl | rfl | ⟨rfl, -⟩ <;> rfl

/-- So a step that respects the reservation is from a host that may do what slips. -/
theorem RespectsReservation.of_slips (hres : RespectsReservation e first r) (he : e.Serves)
    (hf : r.fuse = .none) (hs : e.SlipsWrite r.opc ∨ e.SlipsRead r.opc) :
    (r.opc.writesBlocks = true → e.nsInfo.MayWrite e.hostid) ∧
      (r.opc.readsBlocks = true → e.nsInfo.MayRead e.hostid) := by
  obtain ⟨ho, h, hp, hsw⟩ := IoEnv.handler_of_slips hs
  exact (respectsReservation_def e first r).mp hres h [r]
    ((processIoCmd_of_unchecked he hf ho).trans hsw) hp r (List.mem_singleton_self r)

end Slips

/-- **The dispatch respects the reservation exactly when** a command the check does not list comes
from a host that may write, or read, all the same. -/
theorem respectsReservation_iff (e : IoEnv) (first : Option IoReq) (r : IoReq) :
    RespectsReservation e first r ↔
      (e.Serves → r.fuse = .none →
        (e.SlipsWrite r.opc → e.nsInfo.MayWrite e.hostid) ∧
        (e.SlipsRead r.opc → e.nsInfo.MayRead e.hostid)) := by
  constructor
  · intro hres he hf
    exact ⟨fun hs => (hres.of_slips he hf (Or.inl hs)).1 hs.writesBlocks,
      fun hs => (hres.of_slips he hf (Or.inr hs)).2 hs.readsBlocks⟩
  · intro hcond
    rw [respectsReservation_def]
    intro h reqs hact hp q hq
    obtain ⟨he, hcheck, ⟨hf, rfl, hcopy, hheaan⟩ | hw⟩ := processIoCmd_handler hact hp
    · obtain rfl := List.mem_singleton.mp hq
      obtain ⟨hwrite, hread⟩ := hcond he hf
      refine ⟨fun hq => ?_, fun hq => ?_⟩
      · rcases Opc.writesBlocks_cases hq with ho | ho | ho
        · exact (check_eq_success_iff_mayWrite _ _ ho).mp hcheck
        · exact hwrite (Or.inl ⟨ho, hcopy ho⟩)
        · exact hwrite (Or.inr ⟨ho, hheaan ho⟩)
      · rcases Opc.readsBlocks_cases hq with ho | ho | ho | ho
        · exact (check_eq_success_iff_mayRead _ _ ho).mp hcheck
        · exact hread (Or.inl ho)
        · exact hread (Or.inr (Or.inl ho))
        · exact hread (Or.inr (Or.inr ⟨ho, hheaan ho⟩))
    · -- a fused pair was checked as its WRITE, and who may write may read
      have hmay : e.nsInfo.MayWrite e.hostid :=
        (check_eq_success_iff_mayWrite _ _ (by rw [hw]; rfl)).mp hcheck
      exact ⟨fun _ => hmay, fun _ => hmay.mayRead⟩

/-- A namespace reserved for writing by host 1, seen by host 2. -/
def IoEnv.reserved : IoEnv where
  heaanLib := true
  en := true
  nsOk := true
  anaState := .optimized
  hostid := 2
  nsInfo := ⟨some .writeExclusive, 1, List.replicate 16 0, by decide⟩
  oncs := ⟨true, true, true, true, true⟩
  disableCommandPassthru := false

/-- Its plain WRITE is a conflict, and its HEaaN add writes to the namespace. -/
theorem heaan_slips_reservation :
    nvmfNsReservationRequestCheck IoEnv.reserved.nsInfo IoEnv.reserved.hostid .plainWrite
      = .reservationConflict ∧
    ∃ r : IoReq, r.byte = 0xe0 ∧ ¬ RespectsReservation .reserved none r := by
  refine ⟨by decide, ⟨⟨0xe0, .none, 0⟩, false, nofun⟩, rfl, fun h => ?_⟩
  have hw := (h .customHeaanCipaddCmd _ rfl (by decide) _ (List.mem_singleton_self _)).1 rfl
  exact absurd hw (by decide)

end NdpHeaan
