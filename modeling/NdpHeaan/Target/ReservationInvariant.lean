import Mathlib.Data.List.Nodup
import NdpHeaan.Target.ReservationState

/-!
# Target/ReservationInvariant — what holds of a reservation in every run

The handlers share the helpers that take a registrant out and give the reservation away, so some of
the state is consistent whatever the hosts send (`ResvSound`): the holder is a registrant, and there
is no type and no key without a holder.  Three more facts are relied on elsewhere and are not kept:

* a reservation has a type: ACQUIRE and PREEMPT take RTYPE 0;
* `crkey` is the key of a single holder: REPLACE KEY changes the registrant's alone;
* there are at most 16 registrants: nothing counts them.
-/

open Machinery

namespace NdpHeaan

/-! ## The statements -/

/-- **The reservation is consistent.** -/
structure ResvConsistent (ns : NsResv) : Prop where
  holder_iff : ns.holder = none ↔ ns.rtype = none
  holder_mem : ∀ p, ns.holder = some p → ∃ reg ∈ ns.registrants, reg.ptr = p
  crkey_eq : ¬ ns.allRegistrantsType → ∀ reg ∈ ns.registrants, ns.holder = some reg.ptr →
    ns.crkey = reg.rkey
  hostids : (ns.registrants.map Registrant.hostid).Nodup
  length_le : ns.registrants.length ≤ maxNumRegistrants

/-- What a command may not do where it succeeds. -/
structure ResvKeeps (ns : NsResv) (c : ResvCmd) : Prop where
  /-- ACQUIRE of a free reservation, and PREEMPT of the one holder, name a type. -/
  typed : c.op = .acquire → c.r.resvType = 0 →
    ¬ (c.r.resvAction = 0 ∧ ns.holder = none) ∧
    ¬ (c.r.resvAction = 1 ∧ ns.holder ≠ none ∧ ¬ ns.allRegistrantsType ∧ ns.crkey = c.r.keySecond)
  /-- The one holder does not take another key. -/
  keyKept : c.op = .register → c.r.resvAction = 2 → ∀ reg, ns.getRegistrant c.hostid = some reg →
    ns.holder = some reg.ptr → ¬ ns.allRegistrantsType → c.r.keySecond ≠ 0 →
    reg.rkey = c.r.keySecond
  /-- A new host comes while there is room. -/
  room : c.op = .register → (c.r.resvAction = 0 ∨ c.r.resvAction = 2 ∧ c.r.iekey = true) →
    ns.getRegistrant c.hostid = none → ns.registrants.length < maxNumRegistrants

/-- **The commands that keep it so**: those that are refused among them. -/
def ResvSafe (ns : NsResv) (c : ResvCmd) : Prop :=
  (nvmfNsReservationRequest ns c).status = .success → ResvKeeps ns c

/-- The registrants: one for a host, at addresses of their own, with keys. -/
structure RegsSound (regs : List Registrant) (nextPtr : ℕ) : Prop where
  hostids : (regs.map Registrant.hostid).Nodup
  ptrs : (regs.map Registrant.ptr).Nodup
  fresh : ∀ reg ∈ regs, reg.ptr < nextPtr
  rkey_ne : ∀ reg ∈ regs, reg.rkey ≠ 0

/-- **What holds in every run.** -/
structure ResvSound (ns : NsResv) : Prop where
  regs : RegsSound ns.registrants ns.nextPtr
  holder_mem : ∀ p, ns.holder = some p → ∃ reg ∈ ns.registrants, reg.ptr = p
  idle : ns.holder = none → ns.rtype = none ∧ ns.crkey = 0
  crkey_ne : ns.holder ≠ none → ns.crkey ≠ 0
  capable : ns.ptplActivated = true → ns.ptplCapable = true

/-! ## Taking a registrant out -/

section Remove

variable {ns : NsResv} {reg : Registrant}

theorem mem_takeOut {other : Registrant} :
    other ∈ (ns.takeOut reg).registrants ↔ other ∈ ns.registrants ∧ other.ptr ≠ reg.ptr := by
  simp [NsResv.takeOut]

theorem takeOut_sublist : (ns.takeOut reg).registrants.Sublist ns.registrants :=
  List.filter_sublist

/-- **What `nvmf_ns_reservation_remove_registrant` does to the reservation.** -/
inductive Removal (ns : NsResv) (reg : Registrant) : NsResv → Prop
  /-- There is none, or another registrant holds it. -/
  | kept (h : ns.holder = none ∨ ¬ ns.allRegistrantsType ∧ ns.holder ≠ some reg.ptr) :
      Removal ns reg { ns.takeOut reg with gen := ns.gen + 1 }
  /-- It is passed on to the first that is left. -/
  | passed {next : Registrant} (hholder : ns.holder ≠ none) (hall : ns.allRegistrantsType)
      (hnext : next ∈ (ns.takeOut reg).registrants) :
      Removal ns reg { ns.takeOut reg with gen := ns.gen + 1, holder := some next.ptr }
  /-- It is released. -/
  | released (h : ns.allRegistrantsType ∨ ns.holder = some reg.ptr) :
      Removal ns reg { (ns.takeOut reg).releaseReservation with gen := ns.gen + 1 }

theorem removal (ns : NsResv) (reg : Registrant) : Removal ns reg (ns.removeRegistrant reg) := by
  unfold NsResv.removeRegistrant NsResv.checkReleaseOnRemove
  by_cases hnone : ns.holder = none
  · rw [if_pos (show (ns.takeOut reg).holder = none from hnone)]
    exact .kept (.inl hnone)
  rw [if_neg (show ¬ (ns.takeOut reg).holder = none from hnone)]
  by_cases hholder : (ns.takeOut reg).registrantIsHolder reg
  swap
  · have hother := not_or.mp hholder
    rw [if_neg hholder]
    cases (ns.takeOut reg).registrants.head? with
    | none => exact .kept (.inr hother)
    | some next =>
      dsimp only
      rw [if_neg hother.1]
      exact .kept (.inr hother)
  rw [if_pos hholder]
  cases hhead : (ns.takeOut reg).registrants.head? with
  | none => exact .released hholder
  | some next =>
    dsimp only
    by_cases hall : (ns.takeOut reg).allRegistrantsType
    · rw [if_pos hall]
      exact .passed hnone hall (List.mem_of_head? hhead)
    · rw [if_neg hall]
      exact .released hholder

theorem removeRegistrant_registrants :
    (ns.removeRegistrant reg).registrants = (ns.takeOut reg).registrants := by
  have hrem := removal ns reg
  generalize ns.removeRegistrant reg = ns' at hrem ⊢
  cases hrem <;> rfl

/-- **The loops**: what survives the removal of a registrant survives them. -/
theorem removeRegistrants_induction {I : NsResv → Prop}
    (hstep : ∀ ns reg, I ns → I (ns.removeRegistrant reg)) (h : I ns) (p : Registrant → Bool) :
    I (ns.removeRegistrants p) := by
  unfold NsResv.removeRegistrants
  refine List.foldlRecOn (motive := I) _ _ h fun ns hns reg _ => ?_
  split
  · exact hstep ns reg hns
  · exact hns

end Remove

/-! ## Every run -/

section Regs

variable {regs : List Registrant} {nextPtr : ℕ}

theorem RegsSound.sublist {regs' : List Registrant} (h : RegsSound regs nextPtr)
    (hsub : regs'.Sublist regs) : RegsSound regs' nextPtr where
  hostids := h.hostids.sublist (hsub.map _)
  ptrs := h.ptrs.sublist (hsub.map _)
  fresh := fun reg hreg => h.fresh reg (hsub.subset hreg)
  rkey_ne := fun reg hreg => h.rkey_ne reg (hsub.subset hreg)

/-- A registrant is named by its address. -/
theorem RegsSound.eq_of_ptr (h : RegsSound regs nextPtr) {a b : Registrant} (ha : a ∈ regs)
    (hb : b ∈ regs) (hab : a.ptr = b.ptr) : a = b :=
  List.inj_on_of_nodup_map h.ptrs ha hb hab

theorem RegsSound.append (h : RegsSound regs nextPtr) {hostid : Uuid} {rkey : UInt64}
    (hnew : ∀ reg ∈ regs, reg.hostid ≠ hostid) (hkey : rkey ≠ 0) :
    RegsSound (regs ++ [⟨nextPtr, hostid, rkey⟩]) (nextPtr + 1) where
  hostids := by
    rw [List.map_append, List.nodup_append]
    refine ⟨h.hostids, List.nodup_singleton _, ?_⟩
    rintro a ha b hb
    obtain ⟨reg, hreg, rfl⟩ := List.mem_map.mp ha
    obtain rfl := List.mem_singleton.mp hb
    exact hnew reg hreg
  ptrs := by
    rw [List.map_append, List.nodup_append]
    refine ⟨h.ptrs, List.nodup_singleton _, ?_⟩
    rintro a ha b hb
    obtain ⟨reg, hreg, rfl⟩ := List.mem_map.mp ha
    obtain rfl := List.mem_singleton.mp hb
    exact (h.fresh reg hreg).ne
  fresh := fun reg hreg => by
    rcases List.mem_append.mp hreg with hold | hlast
    · exact (h.fresh reg hold).trans (Nat.lt_succ_self _)
    · obtain rfl := List.mem_singleton.mp hlast
      exact Nat.lt_succ_self _
  rkey_ne := fun reg hreg => by
    rcases List.mem_append.mp hreg with hold | hlast
    · exact h.rkey_ne reg hold
    · obtain rfl := List.mem_singleton.mp hlast
      exact hkey

end Regs

section Sound

variable {ns ns' : NsResv} {c : ResvCmd} {reg : Registrant}

/-- What `setRkey` does to one registrant. -/
def Registrant.rekey (ptr : ℕ) (rkey : UInt64) (reg : Registrant) : Registrant :=
  if reg.ptr = ptr then { reg with rkey := rkey } else reg

@[simp] theorem Registrant.rekey_ptr (ptr : ℕ) (rkey : UInt64) (reg : Registrant) :
    (reg.rekey ptr rkey).ptr = reg.ptr := by
  unfold Registrant.rekey
  split <;> rfl

@[simp] theorem Registrant.rekey_hostid (ptr : ℕ) (rkey : UInt64) (reg : Registrant) :
    (reg.rekey ptr rkey).hostid = reg.hostid := by
  unfold Registrant.rekey
  split <;> rfl

theorem setRkey_registrants (ptr : ℕ) (rkey : UInt64) :
    (ns.setRkey ptr rkey).registrants = ns.registrants.map (Registrant.rekey ptr rkey) := rfl

/-- Every namespace starts so. -/
theorem ResvSound.init (capable : Bool) : ResvSound { ptplCapable := capable } where
  regs := ⟨List.nodup_nil, List.nodup_nil, by simp, by simp⟩
  holder_mem := by simp
  idle := fun _ => ⟨rfl, rfl⟩
  crkey_ne := by simp
  capable := by simp

theorem ResvSound.releaseReservation (h : ResvSound ns) : ResvSound ns.releaseReservation where
  regs := h.regs
  holder_mem := by simp [NsResv.releaseReservation]
  idle := fun _ => ⟨rfl, rfl⟩
  crkey_ne := by simp [NsResv.releaseReservation]
  capable := h.capable

theorem ResvSound.removeRegistrant (h : ResvSound ns) (reg : Registrant) :
    ResvSound (ns.removeRegistrant reg) := by
  have hregs := h.regs.sublist (@takeOut_sublist ns reg)
  have hrem := removal ns reg
  generalize ns.removeRegistrant reg = ns' at hrem ⊢
  cases hrem with
  | kept hkept =>
    refine ⟨hregs, fun p hp => ?_, h.idle, h.crkey_ne, h.capable⟩
    have hp : ns.holder = some p := hp
    obtain ⟨other, hother, hptr⟩ := h.holder_mem p hp
    refine ⟨other, mem_takeOut.mpr ⟨hother, fun heq => ?_⟩, hptr⟩
    rcases hkept with hnone | ⟨-, hne⟩
    · rw [hnone] at hp
      cases hp
    · exact hne (by rw [hp, ← heq, hptr])
  | @passed next hholder hall hnext =>
    exact ⟨hregs, fun p hp => ⟨next, hnext, Option.some.inj hp⟩,
      fun hnone => absurd hnone (Option.some_ne_none _), fun _ => h.crkey_ne hholder, h.capable⟩
  | released =>
    exact ⟨hregs, fun p hp => absurd hp.symm (Option.some_ne_none p), fun _ => ⟨rfl, rfl⟩,
      fun hsome => absurd rfl hsome, h.capable⟩

theorem ResvSound.acquireReservation (h : ResvSound ns) (hreg : reg ∈ ns.registrants)
    (rtype : Option ReservationType) :
    ResvSound (ns.acquireReservation reg.rkey rtype reg) where
  regs := h.regs
  holder_mem := fun p hp => ⟨reg, hreg, Option.some.inj hp⟩
  idle := fun hnone => by cases hnone
  crkey_ne := fun _ => h.regs.rkey_ne reg hreg
  capable := h.capable

theorem ResvSound.setRkey (h : ResvSound ns) (ptr : ℕ) {rkey : UInt64} (hkey : rkey ≠ 0) :
    ResvSound (ns.setRkey ptr rkey) where
  regs := by
    rw [setRkey_registrants]
    refine ⟨?_, ?_, ?_, ?_⟩
    · simpa [Function.comp_def] using h.regs.hostids
    · simpa [Function.comp_def] using h.regs.ptrs
    · intro reg hreg
      obtain ⟨old, hold, rfl⟩ := List.mem_map.mp hreg
      rw [Registrant.rekey_ptr]
      exact h.regs.fresh old hold
    · intro reg hreg
      obtain ⟨old, hold, rfl⟩ := List.mem_map.mp hreg
      unfold Registrant.rekey
      split
      · exact hkey
      · exact h.regs.rkey_ne old hold
  holder_mem := fun p hp => by
    obtain ⟨old, hold, hptr⟩ := h.holder_mem p hp
    exact ⟨old.rekey ptr rkey, List.mem_map_of_mem hold, by rw [Registrant.rekey_ptr, hptr]⟩
  idle := h.idle
  crkey_ne := h.crkey_ne
  capable := h.capable

theorem ResvSound.addRegistrant (h : ResvSound ns) {hostid : Uuid} {rkey : UInt64}
    (hnew : ns.getRegistrant hostid = none) (hkey : rkey ≠ 0) :
    ResvSound (ns.addRegistrant hostid rkey) where
  regs := h.regs.append (fun reg hreg => by simpa using List.find?_eq_none.mp hnew reg hreg) hkey
  holder_mem := fun p hp => by
    obtain ⟨reg, hreg, hptr⟩ := h.holder_mem p hp
    exact ⟨reg, List.mem_append_left _ hreg, hptr⟩
  idle := h.idle
  crkey_ne := h.crkey_ne
  capable := h.capable

/-- **A command keeps it**, whatever its fields. -/
theorem ResvSound.change (h : ResvSound ns) (hc : ResvChange ns c ns') : ResvSound ns' := by
  cases hc with
  | same => exact h
  | add _ hnew _ hkey => exact h.addRegistrant hnew hkey
  | remove => exact h.removeRegistrant _
  | rekey _ _ _ hkey => exact h.setRkey _ hkey
  | acquire _ _ hreg => exact h.acquireReservation (mem_of_getRegistrant hreg).1 _
  | retype _ _ hreg hholder =>
    have hidle : ∀ {p : Prop}, ns.holder = none → p := fun hnone => by
      rw [hnone] at hholder
      cases hholder
    exact ⟨h.regs, h.holder_mem, fun hnone => hidle hnone, h.crkey_ne, h.capable⟩
  | takeOver _ _ hreg _ _ hne =>
    refine (h.removeRegistrant _).acquireReservation ?_ _
    rw [removeRegistrant_registrants]
    exact mem_takeOut.mpr ⟨(mem_of_getRegistrant hreg).1, hne⟩
  | removeMany p => exact removeRegistrants_induction (fun _ reg h => h.removeRegistrant reg) h p
  | release => exact h.releaseReservation

theorem ResvSound.setPtpl (h : ResvSound ns) {on : Bool}
    (hon : on = true → ns.ptplActivated = true ∨ ns.ptplCapable = true) :
    ResvSound { ns with ptplActivated := on } :=
  ⟨h.regs, h.holder_mem, h.idle, h.crkey_ne, fun hact => (hon hact).elim h.capable id⟩

theorem ResvSound.request (h : ResvSound ns) (c : ResvCmd) :
    ResvSound (nvmfNsReservationRequest ns c).ns := by
  obtain ⟨on, hon, hout⟩ := nvmfNsReservationRequest_outcome ns c
  exact (h.setPtpl hon).change hout.change

/-- A registrant is found at its address. -/
theorem holderReg_of_mem {reg : Registrant} (hptrs : (ns.registrants.map Registrant.ptr).Nodup)
    (hreg : reg ∈ ns.registrants) (hholder : ns.holder = some reg.ptr) :
    ns.holderReg = some reg := by
  have hsome : (ns.registrants.find? fun other => other.ptr = reg.ptr).isSome :=
    List.find?_isSome.mpr ⟨reg, hreg, by simp⟩
  obtain ⟨found, hfound⟩ := Option.isSome_iff_exists.mp hsome
  have hptr : found.ptr = reg.ptr := by simpa using List.find?_some hfound
  rw [NsResv.holderReg, hholder, Option.bind_some, hfound,
    List.inj_on_of_nodup_map hptrs (List.mem_of_find?_eq_some hfound) hreg hptr]

/-- The holder is found. -/
theorem ResvSound.holderReg_eq_some (h : ResvSound ns) {p : ℕ} (hholder : ns.holder = some p) :
    ∃ holder ∈ ns.registrants, ns.holderReg = some holder := by
  obtain ⟨holder, hmem, rfl⟩ := h.holder_mem p hholder
  exact ⟨holder, hmem, holderReg_of_mem h.regs.ptrs hmem hholder⟩

/-- **Every run.** -/
theorem sound_of_reach {capable : Bool} {P : NsResv → ResvCmd → Prop}
    (h : (resvSys capable).Reach P ns) : ResvSound ns := by
  refine h.invariant (.init capable) fun s c s' hs _ hstep => ?_
  obtain rfl := Option.some.inj hstep
  exact hs.request c

end Sound

/-! ## Consistent runs -/

section Consistent

variable {ns ns' : NsResv} {c : ResvCmd} {reg : Registrant}

/-- What is left to show of a sound state. -/
theorem ResvSound.consistent (h : ResvSound ns) (htyped : ns.rtype = none → ns.holder = none)
    (hcrkey : ¬ ns.allRegistrantsType → ∀ reg ∈ ns.registrants, ns.holder = some reg.ptr →
      ns.crkey = reg.rkey) (hlen : ns.registrants.length ≤ maxNumRegistrants) :
    ResvConsistent ns :=
  ⟨⟨fun hnone => (h.idle hnone).1, htyped⟩, h.holder_mem, hcrkey, h.regs.hostids, hlen⟩

theorem allRegistrantsType_typed (h : ns.allRegistrantsType) : ns.rtype ≠ none := by
  obtain ⟨t, ht, -⟩ := h
  rw [ht]
  exact Option.some_ne_none t

theorem ReservationType.ofField_eq_none {n : ℕ} (h : ReservationType.ofField n = none) : n = 0 := by
  unfold ReservationType.ofField at h
  split at h <;> first | rfl | cases h

theorem ResvConsistent.removeRegistrant (hs : ResvSound ns) (h : ResvConsistent ns)
    (reg : Registrant) : ResvConsistent (ns.removeRegistrant reg) := by
  have hs' := hs.removeRegistrant reg
  have hrem := removal ns reg
  have hlen : (ns.takeOut reg).registrants.length ≤ maxNumRegistrants :=
    takeOut_sublist.length_le.trans h.length_le
  generalize ns.removeRegistrant reg = ns' at hrem hs' ⊢
  cases hrem with
  | kept =>
    exact hs'.consistent h.holder_iff.mpr
      (fun hall other hother => h.crkey_eq hall other (mem_takeOut.mp hother).1) hlen
  | passed _ hall =>
    exact hs'.consistent (fun hnone => absurd hnone (allRegistrantsType_typed hall))
      (fun hsingle => absurd hall hsingle) hlen
  | released =>
    exact hs'.consistent (fun _ => rfl)
      (fun _ other _ hholder => absurd hholder.symm (Option.some_ne_none _)) hlen

/-- A registrant takes the reservation under its own key. -/
theorem ResvConsistent.acquireReservation (hs : ResvSound ns)
    (hlen : ns.registrants.length ≤ maxNumRegistrants) (hreg : reg ∈ ns.registrants) {n : ℕ}
    (hn : n ≠ 0) :
    ResvConsistent (ns.acquireReservation reg.rkey (ReservationType.ofField n) reg) := by
  refine (hs.acquireReservation hreg _).consistent
    (fun hnone => absurd (ReservationType.ofField_eq_none hnone) hn) (fun _ other hother hp => ?_)
    hlen
  rw [hs.regs.eq_of_ptr hother hreg (Option.some.inj hp).symm]
  rfl

/-- **A safe change keeps it.** -/
theorem ResvConsistent.change (hs : ResvSound ns) (h : ResvConsistent ns) (hsafe : ResvKeeps ns c)
    (hc : ResvChange ns c ns') : ResvConsistent ns' := by
  have hs' := hs.change hc
  cases hc with
  | same => exact h
  | add hop hnew haction hkey =>
    have hroom := hsafe.room hop haction hnew
    refine hs'.consistent h.holder_iff.mpr (fun hall reg hreg hholder => ?_) (by
      simpa [NsResv.addRegistrant, Nat.succ_le_iff] using hroom)
    rcases List.mem_append.mp hreg with hold | hlast
    · exact h.crkey_eq hall reg hold hholder
    · -- the holder is an old one
      obtain rfl := List.mem_singleton.mp hlast
      obtain ⟨other, hother, hptr⟩ := hs.holder_mem _ hholder
      exact absurd hptr (hs.regs.fresh other hother).ne
  | remove => exact h.removeRegistrant hs _
  | @rekey reg hop haction hreg hkey hne =>
    refine hs'.consistent h.holder_iff.mpr (fun hall other hother hholder => ?_) (by
      simpa [NsResv.setRkey] using h.length_le)
    rw [setRkey_registrants] at hother
    obtain ⟨old, hold, rfl⟩ := List.mem_map.mp hother
    rw [Registrant.rekey_ptr] at hholder
    have hholder : ns.holder = some old.ptr := hholder
    have hptr : old.ptr ≠ reg.ptr := fun hptr =>
      hne (hsafe.keyKept hop haction reg hreg (by rw [hholder, hptr]) hall hkey)
    rw [show old.rekey reg.ptr c.r.keySecond = old from if_neg hptr]
    exact h.crkey_eq hall old hold hholder
  | acquire hop haction hreg hholder =>
    exact .acquireReservation hs h.length_le (mem_of_getRegistrant hreg).1
      fun hzero => (hsafe.typed hop hzero).1 ⟨haction, hholder⟩
  | retype hop haction hreg hholder hall hkey =>
    refine hs'.consistent (fun hnone => ?_) (fun _ => h.crkey_eq hall) h.length_le
    refine absurd ⟨haction, ?_, hall, hkey⟩
      (hsafe.typed hop (ReservationType.ofField_eq_none hnone)).2
    rw [hholder]
    exact Option.some_ne_none _
  | @takeOver reg held hop haction hreg hheld hholder hne hall hkey =>
    have hsome : ns.holder ≠ none := by
      rw [hholder]
      exact Option.some_ne_none _
    have hrem := h.removeRegistrant hs held
    refine .acquireReservation (hs.removeRegistrant held) hrem.length_le ?_
      fun hzero => (hsafe.typed hop hzero).2 ⟨haction, hsome, hall, hkey⟩
    rw [removeRegistrant_registrants]
    exact mem_takeOut.mpr ⟨(mem_of_getRegistrant hreg).1, hne⟩
  | removeMany p =>
    exact (removeRegistrants_induction (I := fun ns => ResvSound ns ∧ ResvConsistent ns)
      (fun _ reg h => ⟨h.1.removeRegistrant reg, h.2.removeRegistrant h.1 reg⟩) ⟨hs, h⟩ p).2
  | release =>
    exact hs'.consistent (fun _ => rfl)
      (fun _ other _ hholder => absurd hholder.symm (Option.some_ne_none _)) h.length_le

theorem ResvConsistent.request (hs : ResvSound ns) (h : ResvConsistent ns)
    (hsafe : ResvSafe ns c) : ResvConsistent (nvmfNsReservationRequest ns c).ns := by
  obtain ⟨on, hon, hout⟩ := nvmfNsReservationRequest_outcome ns c
  -- `ptpl_activated` is in none of it
  have h' : ResvConsistent { ns with ptplActivated := on } :=
    ⟨h.holder_iff, h.holder_mem, h.crkey_eq, h.hostids, h.length_le⟩
  by_cases hsc : (nvmfNsReservationRequest ns c).status = .success
  · have hkeeps : ResvKeeps { ns with ptplActivated := on } c :=
      ⟨(hsafe hsc).typed, (hsafe hsc).keyKept, (hsafe hsc).room⟩
    exact h'.change (hs.setPtpl hon) hkeeps hout.change
  · rw [hout.unchanged hsc]
    exact h'

end Consistent

/-- A host registers the key 5. -/
def ResvCmd.registerFive (hostid : Uuid) : ResvCmd := ⟨.register, hostid, .ofKeys 0 0 5, true⟩

/-- A host with the key 5 acquires a reservation of a type. -/
def ResvCmd.acquireFive (hostid : Uuid) (rtype : UInt32) : ResvCmd :=
  ⟨.acquire, hostid, .ofKeys (rtype <<< 8) 5 0, true⟩

/-- A host replaces the key 5 by 6. -/
def ResvCmd.replaceFive (hostid : Uuid) : ResvCmd := ⟨.register, hostid, .ofKeys 2 5 6, true⟩

end NdpHeaan
