import NdpHeaan.Target.Device

/-!
# Target/Reservation — who may read and write a reserved namespace

`nvmf_ns_reservation_request_check` decides by the type of the reservation, its holder and its
registrants whether a host's command gets through.  It knows a command by its opcode: what its
switch does not list passes.  `MayRead` and `MayWrite` say in terms of the reservation alone what
the listed reads and writes are held to.
-/

namespace NdpHeaan

/-! ## Commands -/

/-- `enum spdk_nvme_nvm_opcode`, as far as the I/O path knows it. -/
inductive Opc
  | flush
  | write
  | read
  | writeUncorrectable
  | compare
  | writeZeroes
  | datasetManagement
  | reservationRegister
  | reservationReport
  | reservationAcquire
  | reservationRelease
  | copy
  | customEcho
  | customGrep
  | customHeaanAdd
  | other (b : UInt8)
  deriving DecidableEq, Repr

/-- The opcode of a byte. -/
def Opc.ofByte : UInt8 → Opc
  | 0x00 => .flush
  | 0x01 => .write
  | 0x02 => .read
  | 0x04 => .writeUncorrectable
  | 0x05 => .compare
  | 0x08 => .writeZeroes
  | 0x09 => .datasetManagement
  | 0x0d => .reservationRegister
  | 0x0e => .reservationReport
  | 0x11 => .reservationAcquire
  | 0x15 => .reservationRelease
  | 0x19 => .copy
  | 0xd0 => .customEcho
  | 0xd1 => .customGrep
  | 0xe0 => .customHeaanAdd
  | b => .other b

/-- The two bits of `cmd->fuse`. -/
inductive Fuse
  | none
  | first
  | second
  | reserved
  deriving DecidableEq, Repr

/-- `struct spdk_nvme_cmd`, as far as the check and the dispatch read it. -/
structure NvmeCmd where
  /-- `cmd->opc`. -/
  byte : UInt8
  fuse : Fuse := .none
  /-- `cdw10_bits.resv_acquire.racqa`. -/
  racqa : Fin 8 := 0
  deriving DecidableEq, Repr

def NvmeCmd.opc (c : NvmeCmd) : Opc := .ofByte c.byte

/-- A plain READ. -/
def NvmeCmd.plainRead : NvmeCmd := { byte := 0x02 }

/-- A plain WRITE. -/
def NvmeCmd.plainWrite : NvmeCmd := { byte := 0x01 }

/-! ## Reservations -/

/-- `enum spdk_nvme_reservation_type`. -/
inductive ReservationType
  | writeExclusive
  | exclusiveAccess
  | writeExclusiveRegOnly
  | exclusiveAccessRegOnly
  | writeExclusiveAllRegs
  | exclusiveAccessAllRegs
  /-- `0x7` and above, which no command sets. -/
  | reserved
  deriving DecidableEq, Repr

/-- `struct spdk_uuid`. -/
abbrev Uuid := BitVec 128

/-- `SPDK_NVMF_MAX_NUM_REGISTRANTS`. -/
def maxNumRegistrants : ℕ := 16

/-- The reservation in `struct spdk_nvmf_subsystem_pg_ns_info`. -/
structure NsInfo where
  /-- `rtype`; `none` is the value 0. -/
  rtype : Option ReservationType
  holderId : Uuid
  regHostid : List Uuid
  /-- It is an array. -/
  length_eq : regHostid.length = maxNumRegistrants

/-- `nvmf_ns_info_ctrlr_is_registrant`. -/
def nvmfNsInfoCtrlrIsRegistrant (i : NsInfo) (hostid : Uuid) : Bool :=
  i.regHostid.any fun id => id == hostid

@[simp] theorem isRegistrant_iff (i : NsInfo) (hostid : Uuid) :
    nvmfNsInfoCtrlrIsRegistrant i hostid = true ↔ hostid ∈ i.regHostid := by
  simp [nvmfNsInfoCtrlrIsRegistrant]

/-- The type is one for all registrants. -/
def ReservationType.AllRegs (t : ReservationType) : Prop :=
  t = .writeExclusiveAllRegs ∨ t = .exclusiveAccessAllRegs

instance (t : ReservationType) : Decidable t.AllRegs := inferInstanceAs (Decidable (_ ∨ _))

/-- The switch over the opcode, for a host that is not the holder. -/
def nonHolderSwitch (rtype : ReservationType) (isRegistrant : Bool) (c : NvmeCmd) : Sc :=
  match c.opc with
  | .read | .compare =>
    if rtype = .exclusiveAccess then .reservationConflict
    else if (rtype = .exclusiveAccessRegOnly ∨ rtype = .exclusiveAccessAllRegs) ∧
        ¬ isRegistrant then
      .reservationConflict
    else .success
  | .flush | .write | .writeUncorrectable | .writeZeroes | .datasetManagement =>
    if rtype = .writeExclusive ∨ rtype = .exclusiveAccess then .reservationConflict
    else if ¬ isRegistrant then .reservationConflict
    else .success
  | .reservationAcquire =>
    -- `SPDK_NVME_RESERVE_ACQUIRE` is 0
    if c.racqa = 0 then .reservationConflict
    else if ¬ isRegistrant then .reservationConflict
    else .success
  | .reservationRelease => if ¬ isRegistrant then .reservationConflict else .success
  | _ => .success

/-- **`nvmf_ns_reservation_request_check`**: the status it leaves, which is a conflict exactly when
it returns `-EPERM`. -/
def nvmfNsReservationRequestCheck (i : NsInfo) (hostid : Uuid) (c : NvmeCmd) : Sc :=
  match i.rtype with
  | none => .success
  | some rtype =>
    let isRegistrant := nvmfNsInfoCtrlrIsRegistrant i hostid
    if rtype.AllRegs ∧ isRegistrant then .success
    else if i.holderId = hostid then .success
    else nonHolderSwitch rtype isRegistrant c

/-- **What lets a command through a reservation**: all registrants hold it, the host holds it, or
the switch is content. -/
theorem check_eq_success_iff (i : NsInfo) (hostid : Uuid) (c : NvmeCmd) :
    nvmfNsReservationRequestCheck i hostid c = .success ↔
      ∀ t, i.rtype = some t → (t.AllRegs ∧ hostid ∈ i.regHostid) ∨ i.holderId = hostid ∨
        nonHolderSwitch t (nvmfNsInfoCtrlrIsRegistrant i hostid) c = .success := by
  unfold nvmfNsReservationRequestCheck
  cases i.rtype with
  | none => simp
  | some t =>
    simp only [Option.some.injEq, forall_eq', isRegistrant_iff]
    split_ifs with hall hhold
    · simp [hall]
    · simp [hhold]
    · simp [hall, hhold]

/-! ## What the listed commands are held to -/

namespace NsInfo

variable (i : NsInfo) (hostid : Uuid)

/-- A host may write: there is no reservation, or it is the holder's, or it is one for registrants
and the host is registered. -/
def MayWrite : Prop :=
  ∀ t, i.rtype = some t → i.holderId = hostid ∨
    (t ≠ .writeExclusive ∧ t ≠ .exclusiveAccess ∧ hostid ∈ i.regHostid)

/-- A host may read: there is no reservation, or it is the holder's, or it does not exclude the
reads of others — of others that are not registered, where it is one for registrants. -/
def MayRead : Prop :=
  ∀ t, i.rtype = some t → i.holderId = hostid ∨
    (t ≠ .exclusiveAccess ∧
      (t = .exclusiveAccessRegOnly ∨ t = .exclusiveAccessAllRegs → hostid ∈ i.regHostid))

/-- **Who may write may read.** -/
theorem MayWrite.mayRead {i : NsInfo} {hostid : Uuid} (h : i.MayWrite hostid) :
    i.MayRead hostid :=
  fun t ht => (h t ht).imp_right fun ⟨_, hea, hreg⟩ => ⟨hea, fun _ => hreg⟩

end NsInfo

/-- The opcodes that the check holds to the rule for writes. -/
def Opc.checkedAsWrite : Opc → Bool
  | .flush | .write | .writeUncorrectable | .writeZeroes | .datasetManagement => true
  | _ => false

/-- The opcodes that the check holds to the rule for reads. -/
def Opc.checkedAsRead : Opc → Bool
  | .read | .compare => true
  | _ => false

/-- The opcodes that the check does not list. -/
def Opc.unchecked : Opc → Bool
  | .copy | .customEcho | .customGrep | .customHeaanAdd => true
  | .reservationRegister | .reservationReport | .other _ => true
  | _ => false

section Switch

variable {t : ReservationType} {b : Bool} {c : NvmeCmd}

theorem switch_eq_success_of_write (hc : c.opc.checkedAsWrite = true) :
    nonHolderSwitch t b c = .success ↔
      t ≠ .writeExclusive ∧ t ≠ .exclusiveAccess ∧ b = true := by
  have heq : nonHolderSwitch t b c =
      if t = .writeExclusive ∨ t = .exclusiveAccess then .reservationConflict
      else if ¬ b then .reservationConflict else .success := by
    unfold nonHolderSwitch
    cases h : c.opc <;> first | rfl | (rw [h] at hc; cases hc)
  rw [heq]
  split_ifs with hex hreg
  · exact iff_of_false (by decide) fun ⟨h1, h2, _⟩ => hex.elim h1 h2
  · exact iff_of_true rfl ⟨fun h => hex (.inl h), fun h => hex (.inr h), hreg⟩
  · exact iff_of_false (by decide) fun ⟨_, _, h⟩ => hreg h

theorem switch_eq_success_of_read (hc : c.opc.checkedAsRead = true) :
    nonHolderSwitch t b c = .success ↔
      t ≠ .exclusiveAccess ∧
        (t = .exclusiveAccessRegOnly ∨ t = .exclusiveAccessAllRegs → b = true) := by
  have heq : nonHolderSwitch t b c =
      if t = .exclusiveAccess then .reservationConflict
      else if (t = .exclusiveAccessRegOnly ∨ t = .exclusiveAccessAllRegs) ∧ ¬ b then
        .reservationConflict
      else .success := by
    unfold nonHolderSwitch
    cases h : c.opc <;> first | rfl | (rw [h] at hc; cases hc)
  rw [heq]
  split_ifs with hex hreg
  · exact iff_of_false (by decide) fun h => h.1 hex
  · exact iff_of_false (by decide) fun h => hreg.2 (h.2 hreg.1)
  · exact iff_of_true rfl ⟨hex, fun ht => by_contra fun hb => hreg ⟨ht, hb⟩⟩

theorem switch_eq_success_of_unchecked (hc : c.opc.unchecked = true) :
    nonHolderSwitch t b c = .success := by
  unfold nonHolderSwitch
  cases h : c.opc <;> first | rfl | (rw [h] at hc; cases hc)

end Switch

section Check

variable (i : NsInfo) (hostid : Uuid) {c : NvmeCmd}

/-- **A listed write passes exactly when the host may write…** -/
theorem check_eq_success_iff_mayWrite (hc : c.opc.checkedAsWrite = true) :
    nvmfNsReservationRequestCheck i hostid c = .success ↔ i.MayWrite hostid := by
  rw [check_eq_success_iff]
  refine forall₂_congr fun t _ => ?_
  rw [switch_eq_success_of_write hc, isRegistrant_iff]
  constructor
  · rintro (⟨rfl | rfl, hreg⟩ | h)
    · exact Or.inr ⟨by decide, by decide, hreg⟩
    · exact Or.inr ⟨by decide, by decide, hreg⟩
    · exact h
  · exact Or.inr

/-- **…a listed read exactly when it may read…** -/
theorem check_eq_success_iff_mayRead (hc : c.opc.checkedAsRead = true) :
    nvmfNsReservationRequestCheck i hostid c = .success ↔ i.MayRead hostid := by
  rw [check_eq_success_iff]
  refine forall₂_congr fun t _ => ?_
  rw [switch_eq_success_of_read hc, isRegistrant_iff]
  constructor
  · rintro (⟨rfl | rfl, hreg⟩ | h)
    · exact Or.inr ⟨by decide, fun _ => hreg⟩
    · exact Or.inr ⟨by decide, fun _ => hreg⟩
    · exact h
  · exact Or.inr

/-- **…and what is not listed always passes.** -/
theorem check_eq_success_of_unchecked (hc : c.opc.unchecked = true) :
    nvmfNsReservationRequestCheck i hostid c = .success :=
  (check_eq_success_iff i hostid c).mpr fun _ _ =>
    Or.inr (Or.inr (switch_eq_success_of_unchecked hc))

end Check

end NdpHeaan
