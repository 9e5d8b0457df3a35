import NdpHeaan.Target.ReservationInvariant

/-!
# Target/ReservationPersist — the reservation through a restart

While Persist Through Power Loss is activated, every change is written to a file
(`nvmf_ns_update_reservation_info`) and read back when the namespace is opened again
(`nvmf_ns_reservation_restore`).  The file has the registrants, the type, `crkey` and, for a single
holder, its host; the reader insists that `crkey` is the key of a registrant, and takes a file
without registrants for none at all.
-/

open Machinery

namespace NdpHeaan

/-! ## The two functions -/

/-- `spdk_uuid_fmt_lower` and `spdk_uuid_parse`, over the `char` arrays of the file. -/
structure UuidText where
  Text : Type
  /-- An array of zeros. -/
  empty : Text
  fmtLower : Uuid → Text
  parse : Text → Option Uuid
  /-- What is written is read back. -/
  parse_fmtLower : ∀ u, parse (fmtLower u) = some u

/-- `struct _nvmf_ns_registrant`, in the file. -/
structure RegInfo (Text : Type) where
  hostUuid : Text
  rkey : UInt64

/-- `struct spdk_nvmf_reservation_info`. -/
structure ResvInfo (Text : Type) where
  ptplActivated : Bool
  rtype : Option ReservationType
  crkey : UInt64
  bdevUuid : Text
  holderUuid : Text
  /-- `registrants[0 .. num_regs)`. -/
  registrants : List (RegInfo Text)

section Persist

variable (U : UuidText)

/-- The entry of a registrant. -/
def UuidText.regInfo (reg : Registrant) : RegInfo U.Text := ⟨U.fmtLower reg.hostid, reg.rkey⟩

/-- **`nvmf_ns_update_reservation_info`**: the info it hands to `nvmf_ns_reservation_update`, if
any. The array of the info has `SPDK_NVMF_MAX_NUM_REGISTRANTS` entries; behind it nothing is
defined. -/
def nvmfNsUpdateReservationInfo (bdev : Option Uuid) (ns : NsResv) : Option (ResvInfo U.Text) :=
  match bdev with
  | none => none
  | some uuid =>
    if ns.ptplCapable = false ∨ maxNumRegistrants < ns.registrants.length then none else
    some {
      ptplActivated := ns.ptplActivated
      rtype := ns.rtype
      crkey := if ns.rtype = none then 0 else ns.crkey
      bdevUuid := U.fmtLower uuid
      holderUuid :=
        if ns.rtype = none ∨ ns.allRegistrantsType then U.empty
        else match ns.holderReg with
          | some holder => U.fmtLower holder.hostid
          | none => U.empty
      registrants := ns.registrants.map U.regInfo }

/-- The loop of `nvmf_ns_reservation_restore`, from its `i`-th round: the holder it has found,
`none` where `calloc` fails. -/
def restoreLoop (allocOk : ℕ → Bool) (crkey : UInt64) (holderUuid : Uuid) :
    ℕ → List (RegInfo U.Text) → NsResv → Option ℕ → NsResv × Option (Option ℕ)
  | _, [], ns, holder => (ns, some holder)
  | i, info :: infos, ns, holder =>
    if !allocOk i then (ns, none) else
    let reg : Registrant := ⟨ns.nextPtr, (U.parse info.hostUuid).getD 0, info.rkey⟩
    restoreLoop allocOk crkey holderUuid (i + 1) infos
      { ns with registrants := ns.registrants ++ [reg], nextPtr := ns.nextPtr + 1 }
      (if crkey ≠ 0 ∧ holderUuid = reg.hostid then some reg.ptr else holder)

/-- What `nvmf_ns_reservation_restore` leaves. -/
structure RestoreEnd where
  ns : NsResv
  rc : ℤ

/-- **`nvmf_ns_reservation_restore`.**  A text that cannot be parsed leaves what was on the stack.
-/
def nvmfNsReservationRestore (bdev : Uuid) (stack : Uuid × Uuid) (allocOk : ℕ → Bool) (ns : NsResv)
    (info : ResvInfo U.Text) : RestoreEnd :=
  if info.ptplActivated = false ∨ info.registrants = [] then ⟨ns, 0⟩ else
  if ¬ (info.registrants.any fun reg => info.crkey = reg.rkey) ∧ info.crkey ≠ 0 then ⟨ns, -22⟩ else
  if (U.parse info.bdevUuid).getD stack.1 ≠ bdev then ⟨ns, -22⟩ else
  let ns := { ns with
    crkey := info.crkey, rtype := info.rtype, ptplActivated := info.ptplActivated }
  match restoreLoop U allocOk info.crkey ((U.parse info.holderUuid).getD stack.2) 0
      info.registrants ns none with
  | (ns, none) => ⟨ns, -12⟩
  | (ns, some holder) =>
    if ns.allRegistrantsType then
      ⟨{ ns with holder := ns.registrants.head?.map Registrant.ptr }, 0⟩
    else ⟨{ ns with holder := holder }, 0⟩

end Persist

/-! ## The statement -/

/-- A host and its key. -/
def Registrant.entry (reg : Registrant) : Uuid × UInt64 := (reg.hostid, reg.rkey)

/-- **The reservation survives a restart**: what is written down can be restored, to the same state.
-/
def SurvivesRestart (U : UuidText) (bdev : Uuid) (stack : Uuid × Uuid) (ns : NsResv) : Prop :=
  ∃ info, nvmfNsUpdateReservationInfo U (some bdev) ns = some info ∧
    ∃ ns', nvmfNsReservationRestore U bdev stack (fun _ => true) { ptplCapable := ns.ptplCapable }
        info = ⟨ns', 0⟩ ∧
      ns'.ptplActivated = ns.ptplActivated ∧ ns'.rtype = ns.rtype ∧ ns'.crkey = ns.crkey ∧
      ns'.registrants.map Registrant.entry = ns.registrants.map Registrant.entry ∧
      (¬ ns.allRegistrantsType →
        ns'.holderReg.map Registrant.hostid = ns.holderReg.map Registrant.hostid)

/-! ## The loop -/

section Loop

variable {U : UuidText}

/-- The registrants anew, at addresses from `base` on. -/
def relocate : ℕ → List Registrant → List Registrant
  | _, [] => []
  | base, reg :: regs => { reg with ptr := base } :: relocate (base + 1) regs

theorem relocate_entry : ∀ (base : ℕ) (regs : List Registrant),
    (relocate base regs).map Registrant.entry = regs.map Registrant.entry
  | _, [] => rfl
  | base, reg :: regs => by
    rw [relocate, List.map_cons, List.map_cons, relocate_entry (base + 1) regs]
    rfl

theorem relocate_ptr : ∀ (base : ℕ) (regs : List Registrant),
    (relocate base regs).map Registrant.ptr = List.range' base regs.length
  | _, [] => rfl
  | base, reg :: regs => by
    rw [relocate, List.map_cons, relocate_ptr (base + 1) regs]
    rfl

/-- The last of the registrants with the holder's host. -/
def pickHolder (crkey : UInt64) (holderUuid : Uuid) : List Registrant → Option ℕ → Option ℕ
  | [], holder => holder
  | reg :: regs, holder =>
    pickHolder crkey holderUuid regs
      (if crkey ≠ 0 ∧ holderUuid = reg.hostid then some reg.ptr else holder)

/-- **The loop restores the registrants it is given.** -/
theorem restoreLoop_eq (crkey : UInt64) (holderUuid : Uuid) :
    ∀ (regs : List Registrant) (i : ℕ) (ns : NsResv) (holder : Option ℕ),
      restoreLoop U (fun _ => true) crkey holderUuid i (regs.map U.regInfo) ns holder =
        ({ ns with
            registrants := ns.registrants ++ relocate ns.nextPtr regs
            nextPtr := ns.nextPtr + regs.length },
          some (pickHolder crkey holderUuid (relocate ns.nextPtr regs) holder))
  | [], i, ns, holder => by simp [restoreLoop, relocate, pickHolder]
  | reg :: regs, i, ns, holder => by
    have hparse : (U.parse (U.regInfo reg).hostUuid).getD 0 = reg.hostid := by
      rw [UuidText.regInfo, U.parse_fmtLower]
      rfl
    rw [List.map_cons, restoreLoop]
    simp only [Bool.not_true, Bool.false_eq_true, if_false, hparse]
    rw [restoreLoop_eq crkey holderUuid regs]
    simp only [relocate, pickHolder, List.length_cons, List.append_assoc, List.singleton_append]
    rw [Nat.add_assoc, Nat.add_comm 1]
    rfl

theorem pickHolder_of_ne {crkey : UInt64} {holderUuid : Uuid} :
    ∀ {regs : List Registrant} {holder : Option ℕ},
      (∀ reg ∈ regs, ¬ (crkey ≠ 0 ∧ holderUuid = reg.hostid)) →
      pickHolder crkey holderUuid regs holder = holder
  | [], _, _ => rfl
  | reg :: regs, holder, h => by
    rw [pickHolder, if_neg (h reg (List.mem_cons_self ..))]
    exact pickHolder_of_ne fun other hother => h other (List.mem_cons_of_mem _ hother)

/-- The registrant with the holder's host, where there is one. -/
theorem pickHolder_of_mem {crkey : UInt64} {reg : Registrant} (hkey : crkey ≠ 0) :
    ∀ {regs : List Registrant} {holder : Option ℕ}, (regs.map Registrant.hostid).Nodup →
      reg ∈ regs → pickHolder crkey reg.hostid regs holder = some reg.ptr
  | first :: regs, holder, hnodup, hmem => by
    rw [List.map_cons, List.nodup_cons] at hnodup
    rw [pickHolder]
    rcases List.mem_cons.mp hmem with rfl | hrest
    · rw [if_pos ⟨hkey, rfl⟩]
      exact pickHolder_of_ne fun other hother heq =>
        hnodup.1 (heq.2 ▸ List.mem_map_of_mem hother)
    · exact pickHolder_of_mem hkey hnodup.2 hrest

end Loop

/-! ## The round trip -/

section RoundTrip

variable {U : UuidText} {bdev : Uuid} {stack : Uuid × Uuid} {ns : NsResv}

/-- The info that is written. -/
theorem updateReservationInfo_eq (U : UuidText) (bdev : Uuid) (hcap : ns.ptplCapable = true)
    (hlen : ns.registrants.length ≤ maxNumRegistrants) :
    ∃ holderUuid, nvmfNsUpdateReservationInfo U (some bdev) ns = some {
        ptplActivated := ns.ptplActivated
        rtype := ns.rtype
        crkey := if ns.rtype = none then 0 else ns.crkey
        bdevUuid := U.fmtLower bdev
        holderUuid := holderUuid
        registrants := ns.registrants.map U.regInfo } ∧
      (ns.rtype ≠ none → ¬ ns.allRegistrantsType → ∀ holder, ns.holderReg = some holder →
        holderUuid = U.fmtLower holder.hostid) := by
  refine ⟨_, if_neg ?_, fun htype hall holder hholder => ?_⟩
  · rw [hcap]
    simpa using hlen
  · rw [if_neg (not_or.mpr ⟨htype, hall⟩), hholder]

/-- **What is restored of an info with registrants whose key check passes.** -/
theorem restore_eq (bdev : Uuid) (stack : Uuid × Uuid) (rtype : Option ReservationType)
    {crkey : UInt64} (holderUuid : U.Text) {regs : List Registrant} (capable : Bool)
    (hregs : regs ≠ [])
    (hkey : crkey ≠ 0 → ∃ reg ∈ regs, reg.rkey = crkey) :
    ∃ ns', nvmfNsReservationRestore U bdev stack (fun _ => true) { ptplCapable := capable }
        ⟨true, rtype, crkey, U.fmtLower bdev, holderUuid, regs.map U.regInfo⟩ = ⟨ns', 0⟩ ∧
      ns'.ptplActivated = true ∧ ns'.rtype = rtype ∧ ns'.crkey = crkey ∧
      ns'.registrants = relocate 0 regs ∧
      (¬ ns'.allRegistrantsType →
        ns'.holder =
          pickHolder crkey ((U.parse holderUuid).getD stack.2) (relocate 0 regs) none) := by
  unfold nvmfNsReservationRestore
  rw [if_neg (by simpa using hregs), if_neg ?_, if_neg ?_]
  · dsimp only
    rw [restoreLoop_eq]
    dsimp only
    split_ifs with hall
    · exact ⟨_, rfl, rfl, rfl, rfl, rfl, fun hsingle => absurd hall hsingle⟩
    · exact ⟨_, rfl, rfl, rfl, rfl, rfl, fun _ => rfl⟩
  · rw [U.parse_fmtLower]
    simp
  · rintro ⟨hflag, hne⟩
    obtain ⟨reg, hreg, heq⟩ := hkey hne
    exact hflag (List.any_eq_true.mpr
      ⟨U.regInfo reg, List.mem_map_of_mem hreg, by simp [UuidText.regInfo, heq]⟩)

/-- …and the two infos it takes nothing from. -/
theorem restore_key {rtype : Option ReservationType} {crkey : UInt64} {holderUuid : U.Text}
    {regs : List Registrant} {capable : Bool} {ns' : NsResv}
    (h : nvmfNsReservationRestore U bdev stack (fun _ => true) { ptplCapable := capable }
      ⟨true, rtype, crkey, U.fmtLower bdev, holderUuid, regs.map U.regInfo⟩ = ⟨ns', 0⟩)
    (hact : ns'.ptplActivated = true) :
    regs ≠ [] ∧ (crkey ≠ 0 → ∃ reg ∈ regs, reg.rkey = crkey) := by
  unfold nvmfNsReservationRestore at h
  split at h
  · obtain rfl := (RestoreEnd.mk.inj h).1
    cases hact
  · rename_i hregs
    refine ⟨by simpa using hregs, fun hne => ?_⟩
    split at h
    · exact absurd (RestoreEnd.mk.inj h).2 (by decide)
    · rename_i hflag
      have hany := not_not.mp fun hnone => hflag ⟨hnone, hne⟩
      obtain ⟨info, hinfo, heq⟩ := List.any_eq_true.mp hany
      obtain ⟨reg, hreg, rfl⟩ := List.mem_map.mp hinfo
      exact ⟨reg, hreg, (of_decide_eq_true heq).symm⟩

/-- The single holder's host is found again. -/
theorem pickHolder_host {ns' : NsResv} {holder : Registrant} {crkey : UInt64} (h : ResvSound ns)
    (hkey : crkey ≠ 0) (hholder : holder ∈ ns.registrants)
    (hregs : ns'.registrants = relocate 0 ns.registrants)
    (hpick : ns'.holder = pickHolder crkey holder.hostid (relocate 0 ns.registrants) none) :
    ns'.holderReg.map Registrant.hostid = some holder.hostid := by
  have hentry := relocate_entry 0 ns.registrants
  have hhost : (relocate 0 ns.registrants).map Registrant.hostid =
      ns.registrants.map Registrant.hostid := by
    simpa [Function.comp_def, Registrant.entry] using congrArg (List.map Prod.fst) hentry
  obtain ⟨reg, hreg, heq⟩ := List.mem_map.mp (hhost ▸ List.mem_map_of_mem hholder)
  rw [← heq] at hpick ⊢
  rw [pickHolder_of_mem hkey (hhost ▸ h.regs.hostids) hreg] at hpick
  rw [holderReg_of_mem ?_ (hregs ▸ hreg) hpick]
  · rfl
  · rw [hregs, relocate_ptr]
    exact List.nodup_range'

/-- The key is written with the type. -/
theorem ResvSound.crkey_written (h : ResvSound ns) :
    (if ns.rtype = none then 0 else ns.crkey) ≠ 0 ↔ ns.rtype ≠ none := by
  split_ifs with htype
  · simp [htype]
  · exact iff_of_true (h.crkey_ne fun hnone => htype (h.idle hnone).1) htype

theorem ResvSound.survivesRestart (h : ResvSound ns) (hact : ns.ptplActivated = true)
    (hlen : ns.registrants.length ≤ maxNumRegistrants) (hregs : ns.registrants ≠ [])
    (htyped : ns.rtype = none → ns.holder = none)
    (hkey : ns.rtype ≠ none → ∃ reg ∈ ns.registrants, reg.rkey = ns.crkey) :
    SurvivesRestart U bdev stack ns := by
  obtain ⟨holderUuid, hinfo, huuid⟩ :=
    updateReservationInfo_eq U bdev (h.capable hact) hlen
  rw [hact] at hinfo
  have hcrkey : (if ns.rtype = none then 0 else ns.crkey) = ns.crkey := by
    split_ifs with htype
    · exact (h.idle (htyped htype)).2.symm
    · rfl
  rw [hcrkey] at hinfo
  have hwritten := h.crkey_written
  rw [hcrkey] at hwritten
  obtain ⟨ns', hrestore, hact', htype', hcrkey', hregs', hpick⟩ :=
    restore_eq bdev stack ns.rtype holderUuid ns.ptplCapable hregs
      fun hne => hkey (hwritten.mp hne)
  refine ⟨_, hinfo, ns', hrestore, hact'.trans hact.symm, htype', hcrkey', ?_, fun hall => ?_⟩
  · rw [hregs', relocate_entry]
  have hpick := hpick (by unfold NsResv.allRegistrantsType; rwa [htype'])
  cases hholder : ns.holder with
  | none =>
    -- no key, so nobody is taken for the holder
    have hzero : ns.crkey = 0 := (h.idle hholder).2
    rw [pickHolder_of_ne fun _ _ hne => hne.1 hzero] at hpick
    rw [NsResv.holderReg, NsResv.holderReg, hpick, hholder]
    rfl
  | some p =>
    obtain ⟨holder, hmem, rfl⟩ := h.holder_mem p hholder
    have hreg := holderReg_of_mem h.regs.ptrs hmem hholder
    have htype : ns.rtype ≠ none := fun hnone => by simp [htyped hnone] at hholder
    rw [huuid htype hall holder hreg, U.parse_fmtLower] at hpick
    rw [hreg]
    exact pickHolder_host h (hwritten.mpr htype) hmem hregs' hpick

/-- **In every state the commands reach, with Persist Through Power Loss activated and no more
registrants than there are entries, the reservation survives a restart exactly if there is a
registrant, there is no holder without a type, and `crkey` is the key of a registrant.** -/
theorem survivesRestart_iff (U : UuidText) (bdev : Uuid) (stack : Uuid × Uuid) {capable : Bool}
    (hreach : (resvSys capable).Reach (fun _ _ => True) ns) (hact : ns.ptplActivated = true)
    (hlen : ns.registrants.length ≤ maxNumRegistrants) :
    SurvivesRestart U bdev stack ns ↔
      ns.registrants ≠ [] ∧ (ns.rtype = none → ns.holder = none) ∧
        (ns.rtype ≠ none → ∃ reg ∈ ns.registrants, reg.rkey = ns.crkey) := by
  have h := sound_of_reach hreach
  refine ⟨fun ⟨info, hinfo, ns', hrestore, hact', _, hcrkey', _, _⟩ => ?_,
    fun ⟨hregs, htyped, hkey⟩ => h.survivesRestart hact hlen hregs htyped hkey⟩
  obtain ⟨holderUuid, hinfo', -⟩ :=
    updateReservationInfo_eq U bdev (h.capable hact) hlen
  obtain rfl := Option.some.inj (hinfo'.symm.trans hinfo)
  rw [hact] at hrestore hact'
  obtain ⟨hregs, hkey⟩ := restore_key hrestore hact'
  obtain ⟨ns'', hrestore', -, -, hcrkey'', -, -⟩ :=
    restore_eq bdev stack ns.rtype holderUuid ns.ptplCapable hregs hkey
  obtain rfl := (RestoreEnd.mk.inj (hrestore'.symm.trans hrestore)).1
  rw [h.crkey_written] at hkey
  rw [hcrkey'] at hcrkey''
  refine ⟨hregs, fun hnone => ?_, fun htype => ?_⟩
  · by_contra hholder
    rw [if_pos hnone] at hcrkey''
    exact h.crkey_ne hholder hcrkey''
  · rw [if_neg htype] at hkey
    exact hkey htype

end RoundTrip

/-- The identifier as its own text. -/
def UuidText.plain : UuidText := ⟨Option Uuid, none, some, id, fun _ => rfl⟩

/-- A host registers the key 5 and activates Persist Through Power Loss. -/
def ResvCmd.registerPtpl (hostid : Uuid) : ResvCmd :=
  ⟨.register, hostid, .ofKeys 0xC0000000 0 5, true⟩

/-- A host with the key 5 unregisters. -/
def ResvCmd.unregisterFive (hostid : Uuid) : ResvCmd := ⟨.register, hostid, .ofKeys 1 5 0, true⟩

/-- A host registers and acquires. -/
theorem survivesRestart_iff_sample : ∃ ns,
    (resvSys true).run {ptplCapable := true} [.registerPtpl 7, .acquireFive 7 1] = some ns ∧
      ns.holder = some 0 ∧ SurvivesRestart .plain 9 (0, 0) ns := by
  refine ⟨_, rfl, by decide, ?_⟩
  refine (survivesRestart_iff .plain 9 (0, 0)
    (.of_run [.registerPtpl 7, .acquireFive 7 1] (fun _ _ _ => trivial) .init rfl)
    (by decide) (by decide)).mpr ⟨by decide, by decide, fun _ => ?_⟩
  exact ⟨⟨0, 7, 5⟩, by decide, by decide⟩

/-- What the reader returns for what the writer wrote. -/
def restoreRc (ns : NsResv) : Option ℤ :=
  (nvmfNsUpdateReservationInfo .plain (some 9) ns).map fun info =>
    (nvmfNsReservationRestore .plain 9 (0, 0) (fun _ => true) { ptplCapable := true } info).rc

theorem SurvivesRestart.restoreRc {ns : NsResv} (h : SurvivesRestart .plain 9 (0, 0) ns)
    (hcap : ns.ptplCapable = true) : restoreRc ns = some 0 := by
  obtain ⟨info, hinfo, ns', hrestore, -⟩ := h
  rw [hcap] at hrestore
  rw [NdpHeaan.restoreRc, hinfo, Option.map_some, hrestore]

/-- **A holder that has replaced its key makes the file unreadable; a host that has unregistered
takes `ptpl_activated` with it.** -/
theorem restart_loses_reservation :
    (∃ ns, (resvSys true).run {ptplCapable := true}
        [.registerPtpl 7, .acquireFive 7 1, .replaceFive 7] = some ns ∧
      ns.ptplActivated = true ∧ ns.registrants = [⟨0, 7, 6⟩] ∧ restoreRc ns = some (-22) ∧
      ¬ SurvivesRestart .plain 9 (0, 0) ns) ∧
    ∃ ns, (resvSys true).run {ptplCapable := true} [.registerPtpl 7, .unregisterFive 7] = some ns ∧
      ns.ptplActivated = true ∧ ns.registrants = [] ∧ ¬ SurvivesRestart .plain 9 (0, 0) ns := by
  refine ⟨⟨_, rfl, by decide, by decide, by decide, ?_⟩, ⟨_, rfl, by decide, by decide, ?_⟩⟩
  · exact fun h => absurd (h.restoreRc (by decide)) (by decide)
  · rintro ⟨info, hinfo, ns', hrestore, hact, -⟩
    obtain rfl := Option.some.inj hinfo
    obtain rfl := congrArg RestoreEnd.ns hrestore
    exact absurd hact (by decide)

end NdpHeaan
