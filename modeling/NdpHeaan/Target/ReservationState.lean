import NdpHeaan.Machinery.Run
import NdpHeaan.Target.DataIo
import NdpHeaan.Target.Reservation

/-!
# Target/ReservationState — the reservation of a namespace and the commands that change it

A namespace keeps a list of registrants, each a host with its key, and at most one reservation: a
type, a key and a pointer to the registrant that holds it.  Three commands from any host change it:

* REGISTER adds a registrant, removes one or replaces its key;
* ACQUIRE takes the reservation, or takes it from its holder (PREEMPT) and throws registrants out;
* RELEASE gives it back, or clears everything.

Every registrant goes out through `nvmf_ns_reservation_remove_registrant`, which passes a
reservation for all registrants on and releases any other with its holder.
-/

open Machinery

namespace NdpHeaan

/-! ## The state -/

/-- `struct spdk_nvmf_registrant`. -/
structure Registrant where
  /-- Its address. -/
  ptr : ℕ
  hostid : Uuid
  rkey : UInt64
  deriving DecidableEq, Repr

/-- The reservation in `struct spdk_nvmf_ns`. -/
structure NsResv where
  registrants : List Registrant := []
  crkey : UInt64 := 0
  /-- `rtype`; `none` is the value 0. -/
  rtype : Option ReservationType := none
  /-- `holder`, an address. -/
  holder : Option ℕ := none
  gen : UInt32 := 0
  ptplActivated : Bool := false
  /-- `nvmf_ns_is_ptpl_capable`. -/
  ptplCapable : Bool := false
  /-- The address the next `calloc` returns. -/
  nextPtr : ℕ := 0
  deriving DecidableEq, Repr

namespace NsResv

variable (ns : NsResv)

/-- **`nvmf_ns_reservation_get_registrant`.** -/
def getRegistrant (hostid : Uuid) : Option Registrant :=
  ns.registrants.find? fun reg => reg.hostid = hostid

/-- `*ns->holder`. -/
def holderReg : Option Registrant :=
  ns.holder.bind fun p => ns.registrants.find? fun reg => reg.ptr = p

/-- **`nvmf_ns_reservation_all_registrants_type`.** -/
def allRegistrantsType : Prop := ∃ t, ns.rtype = some t ∧ t.AllRegs

instance : Decidable ns.allRegistrantsType :=
  match h : ns.rtype with
  | none => isFalse fun ⟨_, ht, _⟩ => by rw [h] at ht; cases ht
  | some t => decidable_of_iff t.AllRegs
      ⟨fun ht => ⟨t, h, ht⟩, fun ⟨t', ht, hall⟩ => by rw [h] at ht; cases ht; exact hall⟩

/-- **`nvmf_ns_reservation_registrant_is_holder`**, for a registrant that is there. -/
def registrantIsHolder (reg : Registrant) : Prop :=
  ns.allRegistrantsType ∨ ns.holder = some reg.ptr

instance (reg : Registrant) : Decidable (ns.registrantIsHolder reg) :=
  inferInstanceAs (Decidable (_ ∨ _))

/-- **`nvmf_ns_reservation_add_registrant`**, where `calloc` succeeds. -/
def addRegistrant (hostid : Uuid) (nrkey : UInt64) : NsResv :=
  { ns with
    registrants := ns.registrants ++ [⟨ns.nextPtr, hostid, nrkey⟩]
    gen := ns.gen + 1
    nextPtr := ns.nextPtr + 1 }

/-- `reg->rkey = …`. -/
def setRkey (ptr : ℕ) (rkey : UInt64) : NsResv :=
  { ns with registrants := ns.registrants.map fun reg =>
      if reg.ptr = ptr then { reg with rkey := rkey } else reg }

/-- **`nvmf_ns_reservation_release_reservation`.** -/
def releaseReservation : NsResv := { ns with rtype := none, crkey := 0, holder := none }

/-- **`nvmf_ns_reservation_check_release_on_remove_registrant`**: the list is without the registrant
already. -/
def checkReleaseOnRemove (reg : Registrant) : NsResv :=
  if ns.holder = none then ns else
  match ns.registrants.head? with
  | some next =>
    if ns.allRegistrantsType then { ns with holder := some next.ptr }
    else if ns.registrantIsHolder reg then ns.releaseReservation
    else ns
  | none => if ns.registrantIsHolder reg then ns.releaseReservation else ns

/-- `TAILQ_REMOVE`. -/
def takeOut (reg : Registrant) : NsResv :=
  { ns with registrants := ns.registrants.filter fun other => other.ptr ≠ reg.ptr }

/-- **`nvmf_ns_reservation_remove_registrant`.** -/
def removeRegistrant (reg : Registrant) : NsResv :=
  let ns := (ns.takeOut reg).checkReleaseOnRemove reg
  { ns with gen := ns.gen + 1 }

/-- The loops that remove registrants. -/
def removeRegistrants (p : Registrant → Bool) : NsResv :=
  ns.registrants.foldl (fun ns reg => if p reg then ns.removeRegistrant reg else ns) ns

/-- **`nvmf_ns_reservation_remove_registrants_by_key`.** -/
def removeRegistrantsByKey (rkey : UInt64) : NsResv :=
  ns.removeRegistrants fun reg => reg.rkey = rkey

/-- …and the number it returns. -/
def countByKey (rkey : UInt64) : ℕ := ns.registrants.countP fun reg => reg.rkey = rkey

/-- **`nvmf_ns_reservation_remove_all_other_registrants`.** -/
def removeAllOtherRegistrants (reg : Registrant) : NsResv :=
  ns.removeRegistrants fun other => other.ptr ≠ reg.ptr

/-- **`nvmf_ns_reservation_clear_all_registrants`.** -/
def clearAllRegistrants : NsResv := ns.removeRegistrants fun _ => true

/-- **`nvmf_ns_reservation_acquire_reservation`.** -/
def acquireReservation (rkey : UInt64) (rtype : Option ReservationType) (holder : Registrant) :
    NsResv :=
  { ns with rtype := rtype, crkey := rkey, holder := some holder.ptr }

/-- `ns->rtype = …`. -/
def setRtype (rtype : Option ReservationType) : NsResv := { ns with rtype := rtype }

end NsResv

/-! ## The commands -/

namespace DataReq

variable (r : DataReq)

/-- `resv_register.rrega`, `resv_acquire.racqa` and `resv_release.rrela`. -/
def resvAction : ℕ := (r.cdw10 &&& 0x7).toNat

/-- `iekey`, in all three. -/
def iekey : Bool := r.cdw10.toNat.testBit 3

/-- `resv_register.cptpl`. -/
def cptpl : ℕ := (r.cdw10 >>> 30).toNat

/-- `resv_acquire.rtype` and `resv_release.rtype`. -/
def resvType : ℕ := ((r.cdw10 >>> 8) &&& 0xFF).toNat

/-- There is data for a key structure. -/
def HasKey (size : ℕ) : Prop := r.iov ≠ [] ∧ size ≤ r.length.toNat

instance (size : ℕ) : Decidable (r.HasKey size) := inferInstanceAs (Decidable (_ ∧ _))

/-- A 64-bit key at an offset of a key structure. -/
def keyAt (size offset : ℕ) : UInt64 := .ofNat (leWord (readIov size r.iov).1 offset 8)

/-- `key.crkey`. -/
def keyCrkey : UInt64 := r.keyAt 16 0

/-- `key.nrkey`, and `key.prkey` of an ACQUIRE. -/
def keySecond : UInt64 := r.keyAt 16 8

end DataReq

/-- The `enum` value of a type. -/
def ReservationType.ofField : ℕ → Option ReservationType
  | 0 => none
  | 1 => some .writeExclusive
  | 2 => some .exclusiveAccess
  | 3 => some .writeExclusiveRegOnly
  | 4 => some .exclusiveAccessRegOnly
  | 5 => some .writeExclusiveAllRegs
  | 6 => some .exclusiveAccessAllRegs
  | _ => some .reserved

/-- What a handler leaves. -/
structure ResvEnd where
  ns : NsResv
  status : Sc
  updateSgroup : Bool
  deriving DecidableEq, Repr

section Handlers

variable (ns : NsResv) (hostid : Uuid) (allocOk : Bool)

/-- CPTPL, where the namespace is capable of it: whether the state is switched. -/
def changePtpl (cptpl : ℕ) : NsResv × Bool :=
  if cptpl = 2 then
    if ns.ptplActivated then ({ ns with ptplActivated := false }, true) else (ns, false)
  else if cptpl = 3 then
    if ns.ptplActivated then (ns, false) else ({ ns with ptplActivated := true }, true)
  else (ns, false)

/-- `SPDK_NVME_RESERVE_REGISTER_KEY`. -/
def registerKey (nrkey : UInt64) (update : Bool) : ResvEnd :=
  match ns.getRegistrant hostid with
  | none =>
    if nrkey = 0 then ⟨ns, .invalidField, update⟩
    else if !allocOk then ⟨ns, .internalDeviceError, update⟩
    else ⟨ns.addRegistrant hostid nrkey, .success, true⟩
  | some reg =>
    if reg.rkey ≠ nrkey then ⟨ns, .reservationConflict, update⟩ else ⟨ns, .success, update⟩

/-- `SPDK_NVME_RESERVE_UNREGISTER_KEY`. -/
def unregisterKey (iekey : Bool) (crkey : UInt64) (update : Bool) : ResvEnd :=
  match ns.getRegistrant hostid with
  | none => ⟨ns, .reservationConflict, update⟩
  | some reg =>
    if !iekey && reg.rkey ≠ crkey then ⟨ns, .reservationConflict, update⟩
    else ⟨ns.removeRegistrant reg, .success, true⟩

/-- `SPDK_NVME_RESERVE_REPLACE_KEY`. -/
def replaceKey (iekey : Bool) (crkey nrkey : UInt64) (update : Bool) : ResvEnd :=
  if nrkey = 0 then ⟨ns, .invalidField, update⟩ else
  match ns.getRegistrant hostid with
  | some reg =>
    if !iekey && reg.rkey ≠ crkey then ⟨ns, .reservationConflict, update⟩
    else if reg.rkey = nrkey then ⟨ns, .success, update⟩
    else ⟨ns.setRkey reg.ptr nrkey, .success, true⟩
  | none =>
    if iekey then
      if !allocOk then ⟨ns, .internalDeviceError, update⟩
      else ⟨ns.addRegistrant hostid nrkey, .success, true⟩
    else ⟨ns, .reservationConflict, update⟩

/-- The switch over RREGA. -/
def registerAction (rrega : ℕ) (iekey : Bool) (crkey nrkey : UInt64) (update : Bool) : ResvEnd :=
  match rrega with
  | 0 => registerKey ns hostid allocOk nrkey update
  | 1 => unregisterKey ns hostid iekey crkey update
  | 2 => replaceKey ns hostid allocOk iekey crkey nrkey update
  | _ => ⟨ns, .invalidField, update⟩

/-- **`nvmf_ns_reservation_register`.** -/
def nvmfNsReservationRegister (r : DataReq) : ResvEnd :=
  if ¬ r.HasKey 16 then ⟨ns, .invalidField, false⟩ else
  if r.cptpl = 3 ∧ ns.ptplCapable = false then ⟨ns, .invalidField, false⟩ else
  let res := changePtpl ns r.cptpl
  registerAction res.1 hostid allocOk r.resvAction r.iekey r.keyCrkey r.keySecond res.2

/-- `SPDK_NVME_RESERVE_PREEMPT`, by a registrant. -/
def preempt (reg : Registrant) (rtype : Option ReservationType) (crkey prkey : UInt64) : ResvEnd :=
  match ns.holder with
  | none => ⟨ns.removeRegistrantsByKey prkey, .success, true⟩
  | some holder =>
    if ¬ ns.allRegistrantsType then
      if ns.registrantIsHolder reg ∧ ns.crkey = prkey then
        -- "preempt itself"
        ⟨ns.setRtype rtype, .success, true⟩
      else if ns.crkey = prkey then
        match ns.registrants.find? fun other => other.ptr = holder with
        | some held =>
          ⟨(ns.removeRegistrant held).acquireReservation crkey rtype reg, .success, true⟩
        -- `ns->holder` points nowhere
        | none => ⟨ns, .success, true⟩
      else if prkey ≠ 0 then ⟨ns.removeRegistrantsByKey prkey, .success, true⟩
      else ⟨ns, .reservationConflict, false⟩
    else if prkey = 0 then ⟨ns.removeAllOtherRegistrants reg, .success, true⟩
    else if ns.countByKey prkey = 0 then
      ⟨ns.removeRegistrantsByKey prkey, .reservationConflict, false⟩
    else ⟨ns.removeRegistrantsByKey prkey, .success, true⟩

/-- The switch over RACQA, for a registrant. -/
def acquireAction (r : DataReq) (reg : Registrant) : ResvEnd :=
  let rtype := ReservationType.ofField r.resvType
  match r.resvAction with
  | 0 =>
    if ns.registrantIsHolder reg ∧ ns.rtype = rtype then ⟨ns, .success, false⟩
    else if ns.holder = none then ⟨ns.acquireReservation r.keyCrkey rtype reg, .success, true⟩
    else ⟨ns, .reservationConflict, false⟩
  | 1 => preempt ns reg rtype r.keyCrkey r.keySecond
  | _ => ⟨ns, .invalidField, false⟩

/-- **`nvmf_ns_reservation_acquire`.** -/
def nvmfNsReservationAcquire (r : DataReq) : ResvEnd :=
  if ¬ r.HasKey 16 then ⟨ns, .invalidField, true⟩ else
  if r.iekey ∨ r.resvType > 6 then ⟨ns, .invalidField, false⟩ else
  match ns.getRegistrant hostid with
  | none => ⟨ns, .reservationConflict, false⟩
  | some reg =>
    if reg.rkey ≠ r.keyCrkey then ⟨ns, .reservationConflict, false⟩ else acquireAction ns r reg

/-- The switch over RRELA, for a registrant. -/
def releaseAction (r : DataReq) (reg : Registrant) : ResvEnd :=
  match r.resvAction with
  | 0 =>
    if ns.holder = none then ⟨ns, .success, false⟩
    else if ns.rtype ≠ ReservationType.ofField r.resvType then ⟨ns, .invalidField, false⟩
    else if ¬ ns.registrantIsHolder reg then ⟨ns, .success, false⟩
    else ⟨ns.releaseReservation, .success, true⟩
  | 1 => ⟨ns.clearAllRegistrants, .success, true⟩
  | _ => ⟨ns, .invalidField, false⟩

/-- **`nvmf_ns_reservation_release`.** -/
def nvmfNsReservationRelease (r : DataReq) : ResvEnd :=
  if ¬ r.HasKey 8 then ⟨ns, .invalidField, true⟩ else
  if r.iekey then ⟨ns, .invalidField, false⟩ else
  match ns.getRegistrant hostid with
  | none => ⟨ns, .reservationConflict, false⟩
  | some reg =>
    if reg.rkey ≠ r.keyAt 8 0 then ⟨ns, .reservationConflict, false⟩ else releaseAction ns r reg

end Handlers

/-- A command with a key structure of two one-byte keys. -/
def DataReq.ofKeys (cdw10 : UInt32) (crkey second : UInt8) : DataReq where
  cdw10 := cdw10
  cdw11 := 0
  cdw12 := 0
  cdw13 := 0
  length := 16
  iov := [crkey :: List.replicate 7 0 ++ second :: List.replicate 7 0]
  length_eq := rfl

/-- The three commands. -/
inductive ResvOp
  | register
  | acquire
  | release
  deriving DecidableEq, Repr

/-- A command of a host, and whether `calloc` succeeds. -/
structure ResvCmd where
  op : ResvOp
  hostid : Uuid
  r : DataReq
  allocOk : Bool := true

/-- The switch of `nvmf_ns_reservation_request`. -/
def nvmfNsReservationRequest (ns : NsResv) (c : ResvCmd) : ResvEnd :=
  match c.op with
  | .register => nvmfNsReservationRegister ns c.hostid c.allocOk c.r
  | .acquire => nvmfNsReservationAcquire ns c.hostid c.r
  | .release => nvmfNsReservationRelease ns c.hostid c.r

/-- **A namespace under reservation commands**, from the empty state. -/
def resvSys (ptplCapable : Bool) : Sys NsResv ResvCmd :=
  ⟨{ ptplCapable := ptplCapable }, fun ns c => some (nvmfNsReservationRequest ns c).ns⟩

/-! ## What a command can do -/

/-- **The changes a command can make**, once REGISTER has dealt with CPTPL. -/
inductive ResvChange (ns : NsResv) (c : ResvCmd) : NsResv → Prop
  | same : ResvChange ns c ns
  | add (hop : c.op = .register) (hnew : ns.getRegistrant c.hostid = none)
      (haction : c.r.resvAction = 0 ∨ c.r.resvAction = 2 ∧ c.r.iekey = true)
      (hkey : c.r.keySecond ≠ 0) : ResvChange ns c (ns.addRegistrant c.hostid c.r.keySecond)
  | remove {reg : Registrant} (hreg : reg ∈ ns.registrants) :
      ResvChange ns c (ns.removeRegistrant reg)
  | rekey {reg : Registrant} (hop : c.op = .register) (haction : c.r.resvAction = 2)
      (hreg : ns.getRegistrant c.hostid = some reg) (hkey : c.r.keySecond ≠ 0)
      (hne : reg.rkey ≠ c.r.keySecond) : ResvChange ns c (ns.setRkey reg.ptr c.r.keySecond)
  | acquire {reg : Registrant} (hop : c.op = .acquire) (haction : c.r.resvAction = 0)
      (hreg : ns.getRegistrant c.hostid = some reg) (hholder : ns.holder = none) :
      ResvChange ns c
        (ns.acquireReservation reg.rkey (ReservationType.ofField c.r.resvType) reg)
  | retype {reg : Registrant} (hop : c.op = .acquire) (haction : c.r.resvAction = 1)
      (hreg : ns.getRegistrant c.hostid = some reg) (hholder : ns.holder = some reg.ptr)
      (hall : ¬ ns.allRegistrantsType) (hkey : ns.crkey = c.r.keySecond) :
      ResvChange ns c (ns.setRtype (ReservationType.ofField c.r.resvType))
  | takeOver {reg held : Registrant} (hop : c.op = .acquire) (haction : c.r.resvAction = 1)
      (hreg : ns.getRegistrant c.hostid = some reg) (hheld : held ∈ ns.registrants)
      (hholder : ns.holder = some held.ptr) (hne : reg.ptr ≠ held.ptr)
      (hall : ¬ ns.allRegistrantsType) (hkey : ns.crkey = c.r.keySecond) :
      ResvChange ns c ((ns.removeRegistrant held).acquireReservation reg.rkey
        (ReservationType.ofField c.r.resvType) reg)
  | removeMany (p : Registrant → Bool) : ResvChange ns c (ns.removeRegistrants p)
  | release : ResvChange ns c ns.releaseReservation

/-- One of the changes, and none at all where the command fails. -/
structure ResvOutcome (ns : NsResv) (c : ResvCmd) (e : ResvEnd) : Prop where
  change : ResvChange ns c e.ns
  unchanged : e.status ≠ .success → e.ns = ns

section Outcome

variable {ns : NsResv} {c : ResvCmd} {reg : Registrant}

/-- Nothing is changed. -/
theorem ResvOutcome.same (sc : Sc) (update : Bool) : ResvOutcome ns c ⟨ns, sc, update⟩ :=
  ⟨.same, fun _ => rfl⟩

/-- A change that succeeds. -/
theorem ResvOutcome.done {ns' : NsResv} (h : ResvChange ns c ns') (update : Bool) :
    ResvOutcome ns c ⟨ns', .success, update⟩ :=
  ⟨h, fun hne => absurd rfl hne⟩

/-- A loop over registrants that removes none. -/
theorem removeRegistrants_of_none {p : Registrant → Bool}
    (h : ∀ reg ∈ ns.registrants, p reg = false) : ns.removeRegistrants p = ns := by
  have hfold : ∀ (l : List Registrant), (∀ reg ∈ l, p reg = false) → ∀ ns : NsResv,
      l.foldl (fun ns reg => if p reg then ns.removeRegistrant reg else ns) ns = ns := by
    intro l
    induction l with
    | nil => exact fun _ _ => rfl
    | cons reg l ih =>
      intro hl ns
      rw [List.foldl_cons, hl reg (List.mem_cons_self ..)]
      exact ih (fun reg' hreg' => hl reg' (List.mem_cons_of_mem _ hreg')) ns
  exact hfold _ h ns

theorem mem_of_getRegistrant (h : ns.getRegistrant c.hostid = some reg) :
    reg ∈ ns.registrants ∧ reg.hostid = c.hostid :=
  ⟨List.mem_of_find?_eq_some h, by simpa using List.find?_some h⟩

theorem registerAction_outcome (hop : c.op = .register) (update : Bool) :
    ResvOutcome ns c (registerAction ns c.hostid c.allocOk c.r.resvAction c.r.iekey c.r.keyCrkey
      c.r.keySecond update) := by
  unfold registerAction
  split
  · rename_i haction
    unfold registerKey
    cases hreg : ns.getRegistrant c.hostid with
    | none =>
      dsimp only
      split_ifs with hzero halloc
      · exact .same ..
      · exact .same ..
      · exact .done (.add hop hreg (.inl haction) hzero) _
    | some reg =>
      dsimp only
      split_ifs
      · exact .same ..
      · exact .same ..
  · unfold unregisterKey
    cases hreg : ns.getRegistrant c.hostid with
    | none => exact .same ..
    | some reg =>
      dsimp only
      split_ifs
      · exact .same ..
      · exact .done (.remove (mem_of_getRegistrant hreg).1) _
  · rename_i haction
    unfold replaceKey
    by_cases hzero : c.r.keySecond = 0
    · rw [if_pos hzero]
      exact .same ..
    rw [if_neg hzero]
    cases hreg : ns.getRegistrant c.hostid with
    | some reg =>
      dsimp only
      split_ifs with hkey hsame
      · exact .same ..
      · exact .same ..
      · exact .done (.rekey hop haction hreg hzero hsame) _
    | none =>
      dsimp only
      split_ifs with hiekey halloc
      · exact .same ..
      · exact .done (.add hop hreg (.inr ⟨haction, hiekey⟩) hzero) _
      · exact .same ..
  · exact .same ..

theorem preempt_outcome (hop : c.op = .acquire) (haction : c.r.resvAction = 1)
    (hreg : ns.getRegistrant c.hostid = some reg) (hkey : reg.rkey = c.r.keyCrkey) :
    ResvOutcome ns c (preempt ns reg (ReservationType.ofField c.r.resvType) c.r.keyCrkey
      c.r.keySecond) := by
  unfold preempt
  cases hholder : ns.holder with
  | none => exact .done (.removeMany _) _
  | some holder =>
    dsimp only
    by_cases hall : ns.allRegistrantsType
    · rw [if_neg (not_not.mpr hall)]
      split_ifs with hzero hcount
      · exact .done (.removeMany _) _
      · -- there is none to remove
        have hnone : ns.removeRegistrantsByKey c.r.keySecond = ns :=
          removeRegistrants_of_none fun reg hr => by
            simpa using List.countP_eq_zero.mp hcount reg hr
        rw [hnone]
        exact .same ..
      · exact .done (.removeMany _) _
    · rw [if_pos hall]
      split_ifs with hself hcrkey hprkey
      · exact .done (.retype hop haction hreg (hself.1.resolve_left hall) hall hself.2) _
      · cases hheld : ns.registrants.find? fun other => other.ptr = holder with
        | none => exact .same ..
        | some held =>
          have hptr : held.ptr = holder := by simpa using List.find?_some hheld
          dsimp only
          rw [← hkey]
          refine .done (.takeOver hop haction hreg (List.mem_of_find?_eq_some hheld)
            (by rw [hholder, hptr]) (fun heq => hself ⟨.inr ?_, hcrkey⟩) hall hcrkey) _
          rw [hholder, heq, hptr]
      · exact .done (.removeMany _) _
      · exact .same ..

theorem acquire_outcome (hop : c.op = .acquire) :
    ResvOutcome ns c (nvmfNsReservationAcquire ns c.hostid c.r) := by
  unfold nvmfNsReservationAcquire
  split
  · exact .same ..
  split
  · exact .same ..
  cases hreg : ns.getRegistrant c.hostid with
  | none => exact .same ..
  | some reg =>
    dsimp only
    by_cases hkey : reg.rkey = c.r.keyCrkey
    swap
    · rw [if_pos hkey]
      exact .same ..
    rw [if_neg (not_not.mpr hkey)]
    unfold acquireAction
    split
    · rename_i haction
      dsimp only
      split_ifs with hsame hfree
      · exact .same ..
      · rw [← hkey]
        exact .done (.acquire hop haction hreg hfree) _
      · exact .same ..
    · rename_i haction
      exact preempt_outcome hop haction hreg hkey
    · exact .same ..

theorem release_outcome : ResvOutcome ns c (nvmfNsReservationRelease ns c.hostid c.r) := by
  unfold nvmfNsReservationRelease
  split
  · exact .same ..
  split
  · exact .same ..
  cases ns.getRegistrant c.hostid with
  | none => exact .same ..
  | some reg =>
    dsimp only
    split
    · exact .same ..
    unfold releaseAction
    split
    · split_ifs
      · exact .same ..
      · exact .same ..
      · exact .done .release _
      · exact .same ..
    · exact .done (.removeMany _) _
    · exact .same ..

/-- CPTPL is about `ptpl_activated` alone. -/
theorem changePtpl_eq (ns : NsResv) (cptpl : ℕ) :
    ∃ on, (changePtpl ns cptpl).1 = { ns with ptplActivated := on } ∧
      (on = true → ns.ptplActivated = true ∨ cptpl = 3) := by
  unfold changePtpl
  split_ifs with htwo hact hthree hact
  · exact ⟨false, rfl, by simp⟩
  · exact ⟨ns.ptplActivated, rfl, .inl⟩
  · exact ⟨ns.ptplActivated, rfl, .inl⟩
  · exact ⟨true, rfl, fun _ => .inr hthree⟩
  · exact ⟨ns.ptplActivated, rfl, .inl⟩

/-- **What a command does**: it sets `ptpl_activated`, and makes one of the changes. -/
theorem nvmfNsReservationRequest_outcome (ns : NsResv) (c : ResvCmd) :
    ∃ on, (on = true → ns.ptplActivated = true ∨ ns.ptplCapable = true) ∧
      ResvOutcome { ns with ptplActivated := on } c (nvmfNsReservationRequest ns c) := by
  unfold nvmfNsReservationRequest
  cases hop : c.op with
  | acquire => exact ⟨ns.ptplActivated, .inl, acquire_outcome hop⟩
  | release => exact ⟨ns.ptplActivated, .inl, release_outcome⟩
  | register =>
    dsimp only
    unfold nvmfNsReservationRegister
    split
    · exact ⟨ns.ptplActivated, .inl, .same ..⟩
    split
    · exact ⟨ns.ptplActivated, .inl, .same ..⟩
    · rename_i hcap
      obtain ⟨on, hon, hor⟩ := changePtpl_eq ns c.r.cptpl
      refine ⟨on, fun h => (hor h).imp_right fun hthree => by simpa [hthree] using hcap, ?_⟩
      dsimp only
      rw [hon]
      exact registerAction_outcome hop _

end Outcome

end NdpHeaan
