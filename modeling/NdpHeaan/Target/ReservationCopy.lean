import NdpHeaan.Target.ReservationInvariant

/-!
# Target/ReservationCopy — the poll group's copy of a reservation

The I/O path does not look at a namespace's reservation but at a copy that every poll group has, and
that `poll_group_update_subsystem` refreshes after a reservation command.  The list of registrants
becomes an array of 16 identifiers without a count, filled up with zeros; the holder becomes an
identifier that is written where there is a holder and left as it is where there is none.
-/

open Machinery

namespace NdpHeaan

/-! ## The copy -/

/-- `struct spdk_nvmf_subsystem_pg_ns_info`. -/
structure PgNsInfo extends NsInfo where
  /-- `channel` is not `NULL`. -/
  channel : Bool
  uuid : Uuid
  crkey : UInt64
  numBlocks : UInt64

/-- The array of identifiers after its `memset`. -/
def zeroHostids : List Uuid := List.replicate maxNumRegistrants 0

/-- An entry of zeros. -/
def PgNsInfo.zero : PgNsInfo where
  rtype := none
  holderId := 0
  regHostid := zeroHostids
  length_eq := List.length_replicate
  channel := false
  uuid := 0
  crkey := 0
  numBlocks := 0

/-- `struct spdk_nvmf_ns`, as far as the poll group reads it. -/
structure SubsysNs where
  resv : NsResv
  /-- `spdk_bdev_get_uuid`. -/
  uuid : Uuid
  numBlocks : UInt64
  /-- `spdk_bdev_get_io_channel` has a channel. -/
  channelOk : Bool

/-- The registrants' identifiers over the zeros of the array; those behind its end are dropped. -/
def fillHostids (ids : List Uuid) : List Uuid :=
  ids.take maxNumRegistrants ++ List.replicate (maxNumRegistrants - ids.length) 0

theorem length_fillHostids (ids : List Uuid) : (fillHostids ids).length = maxNumRegistrants := by
  rw [fillHostids, List.length_append, List.length_take, List.length_replicate]
  omega

/-- An entry after its turn, with the return code where the function returns there, and
`ns_changed`. -/
structure EntryEnd where
  info : PgNsInfo
  rc : ℤ
  nsChanged : Bool

/-- The branches over the channel of an entry with a namespace. -/
def updateChannel (ns : SubsysNs) (info : PgNsInfo) : EntryEnd :=
  if info.channel = false then
    -- "A namespace appeared but there is no channel yet"
    if ns.channelOk then ⟨{ info with channel := true }, 0, true⟩ else ⟨info, -12, true⟩
  else if info.uuid ≠ ns.uuid then
    -- "A namespace was here before, but was replaced by a new one."
    if ns.channelOk then ⟨{ PgNsInfo.zero with channel := true }, 0, true⟩ else ⟨.zero, -12, true⟩
  else ⟨info, 0, info.numBlocks ≠ ns.numBlocks⟩

/-- The copying of a namespace into its entry. -/
def copyNs (ns : SubsysNs) (info : PgNsInfo) : PgNsInfo where
  channel := info.channel
  uuid := ns.uuid
  numBlocks := ns.numBlocks
  crkey := ns.resv.crkey
  rtype := ns.resv.rtype
  holderId := match ns.resv.holderReg with
    | some holder => holder.hostid
    | none => info.holderId
  regHostid := fillHostids (ns.resv.registrants.map Registrant.hostid)
  length_eq := length_fillHostids _

/-- The body of the loop. -/
def updateEntry (ns : Option SubsysNs) (info : PgNsInfo) : EntryEnd :=
  match ns with
  | none => ⟨.zero, 0, info.channel⟩
  | some ns =>
    let res := updateChannel ns info
    if res.rc ≠ 0 then res
    else if maxNumRegistrants < ns.resv.registrants.length then
      ⟨copyNs ns res.info, -22, res.nsChanged⟩
    else ⟨copyNs ns res.info, 0, res.nsChanged⟩

/-- What `poll_group_update_subsystem` leaves. -/
structure UpdateEnd where
  infos : List PgNsInfo
  rc : ℤ
  nsChanged : Bool

/-- The loop over the entries. -/
def updateEntries : List (Option SubsysNs) → List PgNsInfo → Bool → UpdateEnd
  | ns :: nss, info :: infos, changed =>
    let res := updateEntry ns info
    if res.rc ≠ 0 then ⟨res.info :: infos, res.rc, changed || res.nsChanged⟩
    else
      let rest := updateEntries nss infos (changed || res.nsChanged)
      { rest with infos := res.info :: rest.infos }
  | _, infos, changed => ⟨infos, 0, changed⟩

/-- **`poll_group_update_subsystem`**, up to the events for `ns_changed`: `known` is whether the
poll group has room for the subsystem, `allocOk` whether `calloc` succeeds. -/
def pollGroupUpdateSubsystem (known allocOk : Bool) (nss : List (Option SubsysNs))
    (infos : List PgNsInfo) : UpdateEnd :=
  if !known then ⟨infos, -12, false⟩
  else if infos = [] ∧ nss ≠ [] then
    -- "First allocation"
    if allocOk then updateEntries nss (nss.map fun _ => .zero) false else ⟨[], -12, false⟩
  else updateEntries nss infos false

/-! ## The statement -/

/-- A host is taken for a registrant exactly if it is one. -/
def RegistrantExact (ns : NsResv) (info : NsInfo) (hostid : Uuid) : Prop :=
  nvmfNsInfoCtrlrIsRegistrant info hostid = true ↔ ∃ reg ∈ ns.registrants, reg.hostid = hostid

/-- …and for the holder exactly if it is the holder. -/
def HolderExact (ns : NsResv) (info : NsInfo) (hostid : Uuid) : Prop :=
  info.holderId = hostid ↔ ∃ holder, ns.holderReg = some holder ∧ holder.hostid = hostid

/-- The `holder_id` that an entry goes into the copying with. -/
def heldOver (ns : SubsysNs) (info : PgNsInfo) : Uuid :=
  if info.channel = true ∧ info.uuid ≠ ns.uuid then 0 else info.holderId

/-! ## The copying -/

section Copy

variable {ns : SubsysNs} {info : PgNsInfo} {hostid : Uuid}

theorem mem_fillHostids {ids : List Uuid} (hlen : ids.length ≤ maxNumRegistrants) :
    hostid ∈ fillHostids ids ↔ hostid ∈ ids ∨ ids.length < maxNumRegistrants ∧ hostid = 0 := by
  rw [fillHostids, List.take_of_length_le hlen, List.mem_append, List.mem_replicate]
  refine or_congr Iff.rfl (and_congr ?_ Iff.rfl)
  omega

theorem registrantExact_copyNs (hlen : ns.resv.registrants.length ≤ maxNumRegistrants) :
    RegistrantExact ns.resv (copyNs ns info).toNsInfo hostid ↔
      ns.resv.registrants.length = maxNumRegistrants ∨ hostid ≠ 0 ∨
        ∃ reg ∈ ns.resv.registrants, reg.hostid = hostid := by
  have hmem : nvmfNsInfoCtrlrIsRegistrant (copyNs ns info).toNsInfo hostid = true ↔
      (∃ reg ∈ ns.resv.registrants, reg.hostid = hostid) ∨
        ns.resv.registrants.length < maxNumRegistrants ∧ hostid = 0 := by
    rw [isRegistrant_iff, copyNs, mem_fillHostids (by simpa using hlen), List.mem_map,
      List.length_map]
  rw [RegistrantExact, hmem, or_iff_left_iff_imp, hlen.lt_iff_ne, and_imp]
  tauto

theorem holderExact_copyNs_of_holder {holder : Registrant} (h : ns.resv.holderReg = some holder) :
    HolderExact ns.resv (copyNs ns info).toNsInfo hostid := by
  simp [HolderExact, copyNs, h]

theorem holderExact_copyNs (hsound : ResvSound ns.resv) :
    HolderExact ns.resv (copyNs ns info).toNsInfo hostid ↔
      ns.resv.holder ≠ none ∨ info.holderId ≠ hostid := by
  cases hholder : ns.resv.holder with
  | none =>
    have hreg : ns.resv.holderReg = none := by rw [NsResv.holderReg, hholder, Option.bind_none]
    simp [HolderExact, copyNs, hreg]
  | some p =>
    obtain ⟨holder, -, hreg⟩ := hsound.holderReg_eq_some hholder
    exact iff_of_true (holderExact_copyNs_of_holder hreg) (.inl (Option.some_ne_none p))

theorem updateChannel_holderId (h : (updateChannel ns info).rc = 0) :
    (updateChannel ns info).info.holderId = heldOver ns info := by
  unfold updateChannel heldOver at *
  split_ifs at h ⊢ <;> simp_all [PgNsInfo.zero]

/-- **An entry that gets through** has the namespace copied over what it held. -/
theorem updateEntry_copies (h : (updateEntry (some ns) info).rc = 0) :
    ns.resv.registrants.length ≤ maxNumRegistrants ∧
      ∃ info', info'.holderId = heldOver ns info ∧
        (updateEntry (some ns) info).info = copyNs ns info' := by
  unfold updateEntry at h ⊢
  dsimp only at h ⊢
  by_cases hrc : (updateChannel ns info).rc = 0
  swap
  · rw [if_pos hrc] at h
    exact absurd h hrc
  rw [if_neg (not_not.mpr hrc)] at h ⊢
  split_ifs at h ⊢ with hlen
  · exact absurd h (by decide : (-22 : ℤ) ≠ 0)
  · exact ⟨not_lt.mp hlen, _, updateChannel_holderId hrc, rfl⟩

/-- The loop, at an entry. -/
theorem updateEntries_getElem? {nss : List (Option SubsysNs)} {infos : List PgNsInfo} {b : Bool}
    {i : ℕ} {ns : Option SubsysNs} (hrc : (updateEntries nss infos b).rc = 0)
    (hns : nss[i]? = some ns) (hinfo : infos[i]? = some info) :
    (updateEntries nss infos b).infos[i]? = some (updateEntry ns info).info ∧
      (updateEntry ns info).rc = 0 := by
  induction nss generalizing infos b i with
  | nil => cases hns
  | cons first nss ih =>
    cases infos with
    | nil => cases hinfo
    | cons entry infos =>
      rw [updateEntries] at hrc ⊢
      dsimp only at hrc ⊢
      by_cases hfirst : (updateEntry first entry).rc = 0
      swap
      · rw [if_pos hfirst] at hrc
        exact absurd hrc hfirst
      rw [if_neg (not_not.mpr hfirst)] at hrc ⊢
      cases i with
      | zero =>
        obtain rfl := Option.some.inj hns
        obtain rfl := Option.some.inj hinfo
        exact ⟨rfl, hfirst⟩
      | succ i => exact ih hrc hns hinfo

/-- …and of the whole function: an array that is allocated starts from zeros. -/
theorem pollGroupUpdate_getElem? {known allocOk : Bool} {nss : List (Option SubsysNs)}
    {infos : List PgNsInfo} (hok : (pollGroupUpdateSubsystem known allocOk nss infos).rc = 0)
    (hsize : infos = [] ∨ infos.length = nss.length) {i : ℕ} {ns : Option SubsysNs}
    (hns : nss[i]? = some ns) :
    (pollGroupUpdateSubsystem known allocOk nss infos).infos[i]? =
        some (updateEntry ns (infos.getD i .zero)).info ∧
      (updateEntry ns (infos.getD i .zero)).rc = 0 := by
  obtain ⟨hi, -⟩ := List.getElem?_eq_some_iff.mp hns
  unfold pollGroupUpdateSubsystem at hok ⊢
  split_ifs at hok ⊢ with hknown hfirst halloc
  · exact absurd hok (by decide : (-12 : ℤ) ≠ 0)
  · obtain ⟨rfl, -⟩ := hfirst
    exact updateEntries_getElem? hok hns (by simp [hi])
  · exact absurd hok (by decide : (-12 : ℤ) ≠ 0)
  · refine updateEntries_getElem? hok hns ?_
    rcases hsize with rfl | hlen
    · exact absurd ⟨rfl, List.ne_nil_of_length_pos (Nat.zero_lt_of_lt hi)⟩ hfirst
    · rw [List.getD_eq_getElem?_getD, List.getElem?_eq_getElem (hlen ▸ hi)]
      rfl

end Copy

/-- **After an update that succeeds**, for a namespace in any state the commands reach: a host is
taken for a registrant and for the holder exactly if it is one, exactly if its identifier is not
that of a free entry of the array and, where there is no holder, not the one left in the entry.
Where the check comes to the holder, it is never wrong about it. -/
theorem copy_exact_iff {capable known allocOk : Bool} {nss : List (Option SubsysNs)}
    {infos : List PgNsInfo} (hok : (pollGroupUpdateSubsystem known allocOk nss infos).rc = 0)
    (hsize : infos = [] ∨ infos.length = nss.length) {i : ℕ} {ns : SubsysNs}
    (hns : nss[i]? = some (some ns)) (hreach : (resvSys capable).Reach (fun _ _ => True) ns.resv)
    (hostid : Uuid) :
    ∃ info, (pollGroupUpdateSubsystem known allocOk nss infos).infos[i]? = some info ∧
      (RegistrantExact ns.resv info.toNsInfo hostid ∧ HolderExact ns.resv info.toNsInfo hostid ↔
        (ns.resv.registrants.length = maxNumRegistrants ∨ hostid ≠ 0 ∨
          ∃ reg ∈ ns.resv.registrants, reg.hostid = hostid) ∧
        (ns.resv.holder ≠ none ∨ heldOver ns (infos.getD i .zero) ≠ hostid)) ∧
      (info.rtype ≠ none → HolderExact ns.resv info.toNsInfo hostid) := by
  have hsound := sound_of_reach hreach
  obtain ⟨hinfo, hrc⟩ := pollGroupUpdate_getElem? hok hsize hns
  obtain ⟨hlen, info', hheld, hcopy⟩ := updateEntry_copies hrc
  rw [hcopy] at hinfo
  refine ⟨_, hinfo, ?_, fun htype => ?_⟩
  · rw [registrantExact_copyNs hlen, holderExact_copyNs hsound, hheld]
  · -- there is no type without a holder
    have hholder : ns.resv.holder ≠ none := fun hnone => htype (hsound.idle hnone).1
    exact (holderExact_copyNs hsound).mpr (.inl hholder)

/-- A namespace with a reservation. -/
def SubsysNs.ofResv (resv : NsResv) : SubsysNs := ⟨resv, 3, 100, true⟩

/-- Host 7 holds a reservation for registrants: it is told from host 8. -/
theorem copy_exact_iff_sample : ∃ resv,
    (resvSys false).run {} [.registerFive 7, .acquireFive 7 3] = some resv ∧
    ∃ info, (pollGroupUpdateSubsystem true true [some (.ofResv resv)] []).infos[0]? = some info ∧
      RegistrantExact resv info.toNsInfo 8 ∧ HolderExact resv info.toNsInfo 8 := by
  refine ⟨_, rfl, ?_⟩
  obtain ⟨info, hinfo, hexact, -⟩ := @copy_exact_iff false true true
    [some (.ofResv (nvmfNsReservationRequest (nvmfNsReservationRequest {} (.registerFive 7)).ns
      (.acquireFive 7 3)).ns)] [] (by decide) (.inl rfl) 0 _ rfl
    (.of_run [.registerFive 7, .acquireFive 7 3] (fun _ _ _ => trivial) .init rfl) 8
  exact ⟨info, hinfo, hexact.mpr ⟨.inr (.inl (by decide)), .inl (by decide)⟩⟩

/-- A host with the key 5 releases a reservation of a type. -/
def ResvCmd.releaseFive (hostid : Uuid) (rtype : UInt32) : ResvCmd :=
  ⟨.release, hostid, .ofKeys (rtype <<< 8) 5 0, true⟩

/-- **A host with the identifier 0 is taken for a registrant, and writes; a holder that has released
its reservation is left in the entry.** -/
theorem copy_not_exact :
    (∃ resv, (resvSys false).run {} [.registerFive 7, .acquireFive 7 3] = some resv ∧
      resv.registrants = [⟨0, 7, 5⟩] ∧
      ∃ info, pollGroupUpdateSubsystem true true [some (.ofResv resv)] [] = ⟨[info], 0, true⟩ ∧
        nvmfNsInfoCtrlrIsRegistrant info.toNsInfo 0 = true ∧
        nvmfNsReservationRequestCheck info.toNsInfo 0 .plainWrite = .success ∧
        ¬ RegistrantExact resv info.toNsInfo 0) ∧
    ∃ held resv, (resvSys false).run {} [.registerFive 7, .acquireFive 7 3] = some held ∧
      (resvSys false).run held [.releaseFive 7 3] = some resv ∧ resv.holder = none ∧
      ∃ before info, pollGroupUpdateSubsystem true true [some (.ofResv held)] [] =
          ⟨[before], 0, true⟩ ∧
        pollGroupUpdateSubsystem true true [some (.ofResv resv)] [before] = ⟨[info], 0, false⟩ ∧
        info.holderId = 7 ∧ ¬ HolderExact resv info.toNsInfo 7 := by
  refine ⟨⟨_, rfl, by decide, _, rfl, by decide, by decide, fun h => ?_⟩,
    ⟨_, _, rfl, rfl, by decide, _, _, rfl, rfl, by decide, fun h => ?_⟩⟩
  · obtain ⟨reg, hreg, hzero⟩ := h.mp (by decide)
    obtain rfl := List.mem_singleton.mp hreg
    exact absurd hzero (by decide)
  · obtain ⟨holder, hholder, -⟩ := h.mp (by decide)
    cases hholder

end NdpHeaan
