import NdpHeaan.Target.FusedInvariant

/-!
# Target/FusedRun — the runs in which the pairs are faithful

The dispatch is taken apart once, by the `fuse` of the command and what is pending (`execIo_*`).
Each case is a few moves of `PairSound`, and the invariant rule does the rest.
-/

open Machinery

namespace NdpHeaan

/-! ## What the dispatch does -/

section Dispatch

variable {e : IoEnv} {first : Option IoReq} {r : IoReq}

/-- A command that does not pass is completed, and what is pending stays. -/
theorem processIoCmd_of_not_passes (h : ¬ e.Passes r) :
    ∃ sct sc dnr, processIoCmd e first r = ⟨.complete sct sc dnr, first, none⟩ := by
  unfold processIoCmd
  by_cases hen : e.en = true
  swap
  · exact ⟨_, _, _, if_pos (by simpa using hen)⟩
  rw [if_neg (by simpa using hen)]
  by_cases hns : e.nsOk = true
  swap
  · exact ⟨_, _, _, if_pos (by simpa using hns)⟩
  rw [if_neg (by simpa using hns)]
  by_cases hana : e.anaState ≠ .optimized ∧ e.anaState ≠ .nonOptimized
  · exact ⟨_, _, _, if_pos hana⟩
  rw [if_neg hana]
  have hserves : e.Serves := ⟨hen, hns, by rwa [← not_or, not_not] at hana⟩
  exact ⟨_, _, _, if_pos fun hcheck => h ⟨hserves, hcheck⟩⟩

/-- A command that passes is fused, or it goes to the switch. -/
theorem processIoCmd_of_passes (h : e.Passes r) :
    processIoCmd e first r = if r.fuse ≠ .none then processIoFusedCmd first r
      else ⟨if r.zcopy then .handler .zcopyStart [r] else ioSwitch e r, none, first⟩ := by
  obtain ⟨he, hcheck⟩ := h
  have hana : ¬ (e.anaState ≠ .optimized ∧ e.anaState ≠ .nonOptimized) :=
    fun h => he.ana.elim h.1 h.2
  rw [processIoCmd, if_neg (by simp [he.en]), if_neg (by simp [he.nsOk]), if_neg hana,
    if_neg (not_not.mpr hcheck)]

/-- What the switch never does. -/
def IoAction.Unfused : IoAction → Prop
  | .fusedFirst | .handler .compareAndWriteCmd _ => False
  | _ => True

theorem IoAction.Unfused.gated {a : IoAction} (ha : a.Unfused) (supported : Bool) :
    (IoAction.gated supported a).Unfused := by
  cases supported
  · trivial
  · exact ha

theorem ioSwitch_unfused : (ioSwitch e r).Unfused := by
  unfold ioSwitch
  split
  case h_6 =>
    split
    · trivial
    · refine IoAction.Unfused.gated ?_ _
      trivial
  all_goals
    try refine IoAction.Unfused.gated ?_ _
    trivial

end Dispatch

/-! ## A command is executed -/

section Exec

variable {d : Bdev} {s : FusedSt} {f i : ℕ} {e : IoEnv} {o : DeviceEnd} {req cmp : FusedReq}

theorem execIo_of_not_passes (hreq : s.cmds[i]? = some req) (h : ¬ e.Passes req.io) :
    execIo d s i e o = s.complete i := by
  obtain ⟨sct, sc, dnr, hst⟩ :=
    @processIoCmd_of_not_passes e ((s.pending.bind fun f => s.cmds[f]?).map FusedReq.io) req.io h
  simp only [execIo, hreq, hst, Option.isSome_none, Bool.false_eq_true, if_false]

/-- A command that is not fused fails what is pending. -/
theorem execIo_unfused (hreq : s.cmds[i]? = some req) (h : e.Passes req.io)
    (hfuse : req.io.fuse = .none) (hpend : ∀ f, s.pending = some f → f < s.cmds.length) :
    ∃ u, execIo d s i e o = s.abortPending.unfusedEnd i u := by
  have habort : (if ((s.pending.bind fun f => s.cmds[f]?).map FusedReq.io).isSome
      then s.abortPending else s) = s.abortPending := by
    cases hp : s.pending with
    | none => simp [FusedSt.abortPending, hp]
    | some f => simp [hpend f hp]
  have haction : (if req.io.zcopy then IoAction.handler .zcopyStart [req.io]
      else ioSwitch e req.io).Unfused := by
    split
    · trivial
    · exact ioSwitch_unfused
  simp only [execIo, hreq, processIoCmd_of_passes h, hfuse, ne_eq, not_true_eq_false, if_false,
    habort]
  generalize (if req.io.zcopy then IoAction.handler .zcopyStart [req.io]
      else ioSwitch e req.io) = a at haction ⊢
  split
  · exact ⟨.complete, rfl⟩
  · cases haction
  · cases haction
  · exact ⟨o.unfused, rfl⟩

/-- A first half, where none is pending. -/
theorem execIo_first (hreq : s.cmds[i]? = some req) (h : e.Passes req.io)
    (hfuse : req.io.fuse = .first) (hpend : s.pending = none) :
    execIo d s i e o = if req.io.opc ≠ .compare then s.complete i else s.setPending (some i) := by
  simp only [execIo, hreq, processIoCmd_of_passes h, hfuse, processIoFusedCmd, hpend,
    Option.bind_none, Option.map_none]
  by_cases hopc : req.io.opc = .compare <;> simp [hopc]

/-- A first half, where another is pending: it takes its place, whatever it is. -/
theorem execIo_first_again (hreq : s.cmds[i]? = some req) (h : e.Passes req.io)
    (hfuse : req.io.fuse = .first) (hpend : s.pending = some f) (hcmp : s.cmds[f]? = some cmp) :
    execIo d s i e o = s.abortPending.setPending (some i) := by
  simp [execIo, hreq, processIoCmd_of_passes h, hfuse, processIoFusedCmd, hpend, hcmp]

/-- A second half without a first. -/
theorem execIo_second_alone (hreq : s.cmds[i]? = some req) (h : e.Passes req.io)
    (hfuse : req.io.fuse = .second) (hpend : s.pending = none) :
    execIo d s i e o = s.complete i := by
  simp [execIo, hreq, processIoCmd_of_passes h, hfuse, processIoFusedCmd, hpend]

/-- A second half behind a first. -/
theorem execIo_second (hreq : s.cmds[i]? = some req) (h : e.Passes req.io)
    (hfuse : req.io.fuse = .second) (hpend : s.pending = some f) (hcmp : s.cmds[f]? = some cmp) :
    execIo d s i e o = if req.io.opc ≠ .write then s.abortPending.complete i
      else compareAndWrite d s f i cmp.data req.data o.rc := by
  simp only [execIo, hreq, processIoCmd_of_passes h, hfuse, processIoFusedCmd, hpend,
    Option.bind_some, hcmp, Option.map_some]
  by_cases hopc : req.io.opc = .write <;> simp [hopc]

/-- The fourth value of the field is refused. -/
theorem execIo_reserved (hreq : s.cmds[i]? = some req) (h : e.Passes req.io)
    (hnone : req.io.fuse ≠ .none) (hfirst : req.io.fuse ≠ .first)
    (hsecond : req.io.fuse ≠ .second) : execIo d s i e o = s.complete i := by
  have hst : ∀ first, processIoFusedCmd first req.io
      = ⟨.complete .generic .invalidField false, first, none⟩ := by
    intro first
    unfold processIoFusedCmd
    split
    · contradiction
    · contradiction
    · rfl
  simp [execIo, hreq, processIoCmd_of_passes h, hnone, hst]

/-- **What the compare-and-write of a pair can come to**: an error, the io-wait queue for both, or
the device. -/
theorem compareAndWriteCmd_cases (d : Bdev) (cmpReq writeReq : DataReq) (rc : ℤ) :
    let r := nvmfBdevCtrlrCompareAndWriteCmd d cmpReq writeReq rc
    (r.status = .complete ∧ cplIsError r.sc = true) ∨
      (r.status = .asynchronous ∧ (r.queued = 2 ∨ r.queued = 0)) := by
  intro r
  unfold r nvmfBdevCtrlrCompareAndWriteCmd
  split
  · exact Or.inl ⟨rfl, rfl⟩
  split
  · exact Or.inl ⟨rfl, rfl⟩
  split
  · exact Or.inl ⟨rfl, rfl⟩
  unfold submitOp
  split
  · split
    · exact Or.inr ⟨rfl, Or.inl rfl⟩
    · exact Or.inl ⟨rfl, rfl⟩
  · exact Or.inr ⟨rfl, Or.inr rfl⟩

end Exec

/-! ## The invariant along a run -/

namespace PairSound

variable {d : Bdev} {s s' : FusedSt} {f i : ℕ} {e : IoEnv} {o : DeviceEnd} {req : FusedReq}

/-- A command alone in hand is completed, where no pending one waits for it. -/
theorem completeAlone (h : PairSound [i] s) (hp : ∀ g, s.pending = some g → g + 1 ≠ i) :
    PairSound [] (s.complete i) :=
  h.complete hp nofun

/-- Nothing waits where nothing is pending. -/
theorem next_ne_of_none (hp : s.pending = none) : ∀ g, s.pending = some g → g + 1 ≠ i := by
  intro g hg
  rw [hp] at hg
  cases hg

/-- A pair in hand is completed, the first half in front. -/
theorem completeFirst (h : PairSound [f, f + 1] s) (hp : s.pending = none)
    (hi : s.fuseAt (f + 1) ≠ some .first) : PairSound [f + 1] (s.complete f) := by
  refine h.complete (next_ne_of_none hp) ?_
  intro g hg hfirst
  obtain rfl := List.mem_singleton.mp hg
  exact absurd hfirst hi

/-- The compare-and-write of a pair. -/
theorem compareAndWrite (h : PairSound [f + 1] s) (hp : s.pending = some f)
    (hpair : s.IsPair f (f + 1)) (cmpReq writeReq : DataReq) (rc : ℤ) :
    PairSound [] (compareAndWrite d s f (f + 1) cmpReq writeReq rc) := by
  have hmem : f + 1 ∈ [f, f + 1] := List.mem_cons_of_mem _ (List.mem_singleton_self _)
  have hsecond : s.fuseAt (f + 1) ≠ some .first := by
    rw [hpair.second]
    decide
  have hown : s.owner (s.slotAt f) = some f := by
    have hboth := h.takePending hp
    exact h.own f (FusedSt.lt_of_fuseAt hpair.first) (hboth.notMem_completed List.mem_cons_self)
  have htied := (h.takePending hp).setFirstFused hmem hpair.second (some (s.slotAt f))
  have hasked := htied.submit (hpair.of_cmds rfl)
    (nvmfBdevCtrlrCompareAndWriteCmd d cmpReq writeReq rc).calls
  rcases compareAndWriteCmd_cases d cmpReq writeReq rc with ⟨hst, herr⟩ | ⟨hst, hq | hq⟩
  · simp only [NdpHeaan.compareAndWrite, hst, herr, if_true]
    have hfirst := hasked.completeFirst rfl hsecond
    have hclear := hfirst.setFirstFused (List.mem_singleton_self _) hpair.second none
    exact hclear.completeAlone nofun
  · simp only [NdpHeaan.compareAndWrite, hst, hq, if_true]
    exact hasked.queueBoth rfl hsecond
  · simp only [NdpHeaan.compareAndWrite, hst, hq]
    have hlink : ((s.setPending none).setFirstFused (f + 1) (some (s.slotAt f))).linked (f + 1)
        = some f := by
      change (Function.update s.firstFused (s.slotAt (f + 1)) (some (s.slotAt f))
        (s.slotAt (f + 1))).bind s.owner = some f
      rw [Function.update_self, Option.bind_some, hown]
    refine toDevice ?_ hsecond nofun (Or.inr ⟨f, hlink, hpair.first, rfl⟩)
    change PairSound (Option.toList (((s.setPending none).setFirstFused (f + 1)
      (some (s.slotAt f))).linked (f + 1)) ++ [f + 1]) _
    rw [hlink]
    exact hasked

/-- What is pending is failed. -/
theorem abortPending (h : PairSound [i] s) :
    PairSound [i] s.abortPending ∧ s.abortPending.pending = none := by
  unfold FusedSt.abortPending
  cases hp : s.pending with
  | none => exact ⟨h, hp⟩
  | some f =>
    have hf := (h.pend f hp).1
    exact ⟨(h.takePending hp).complete nofun fun g _ hfirst =>
      h.first_ne_next hfirst hf (FusedSt.lt_of_fuseAt hf), rfl⟩

theorem cmds_abortPending : s.abortPending.cmds = s.cmds := by
  unfold FusedSt.abortPending
  split <;> rfl

/-- A command that is not fused. -/
theorem unfusedEnd (h : PairSound [i] s) (hp : s.pending = none)
    (hfuse : s.fuseAt i = some .none) (u : UnfusedEnd) : PairSound [] (s.unfusedEnd i u) := by
  have hfirst : s.fuseAt i ≠ some .first := by
    rw [hfuse]
    decide
  have hclear : s.firstFused (s.slotAt i) = none := by
    have hmem := List.mem_singleton_self i
    refine h.clear i (h.lt_of_mem hmem) (h.notMem_completed hmem) ?_
    rw [hfuse]
    decide
  cases u with
  | complete => exact h.completeAlone (next_ne_of_none hp)
  | nomem => exact h.queueIo hfirst
  | asynchronous =>
    refine toDevice ?_ hfirst (next_ne_of_none hp) (Or.inl hclear)
    rwa [FusedSt.linked, hclear]

/-- **A command is executed.** -/
theorem execIo (h : PairSound [i] s) (hreq : s.cmds[i]? = some req)
    (hsafe : ∀ f, s.pending = some f → Undisturbed f i req e) :
    PairSound [] (execIo d s i e o) := by
  have hfuseAt : s.fuseAt i = some req.io.fuse := by rw [FusedSt.fuseAt, hreq, Option.map_some]
  obtain ⟨habort, hgone⟩ := h.abortPending
  by_cases hpass : e.Passes req.io
  swap
  · rw [execIo_of_not_passes hreq hpass]
    -- the second half of what is pending passes
    exact h.completeAlone fun g hg hnext => hpass ((hsafe g hg).own hnext.symm)
  cases hfuse : req.io.fuse with
  | none =>
    rw [hfuse] at hfuseAt
    obtain ⟨u, hu⟩ := execIo_unfused (d := d) (o := o) hreq hpass hfuse
      fun f hf => FusedSt.lt_of_fuseAt (h.pend f hf).1
    rw [hu]
    refine habort.unfusedEnd hgone ?_ u
    rwa [FusedSt.fuseAt, cmds_abortPending]
  | first =>
    rw [hfuse] at hfuseAt
    have hopcAt : req.io.opc = .compare → s.opcAt i = some .compare := fun hopc => by
      rw [FusedSt.opcAt, hreq, Option.map_some, hopc]
    cases hp : s.pending with
    | none =>
      rw [execIo_first hreq hpass hfuse hp]
      split
      · exact h.completeAlone (next_ne_of_none hp)
      · rename_i hopc
        exact h.park hp hfuseAt (hopcAt (not_not.mp hopc))
    | some f =>
      obtain ⟨cmp, hget, -⟩ := Option.map_eq_some_iff.mp (h.pend f hp).1
      rw [execIo_first_again hreq hpass hfuse hp hget]
      refine habort.park hgone ?_ ?_
      · rwa [FusedSt.fuseAt, cmds_abortPending]
      · rw [FusedSt.opcAt, cmds_abortPending]
        exact hopcAt ((hsafe f hp).first hfuse hpass)
  | second =>
    rw [hfuse] at hfuseAt
    cases hp : s.pending with
    | none =>
      rw [execIo_second_alone hreq hpass hfuse hp]
      exact h.completeAlone (next_ne_of_none hp)
    | some f =>
      obtain ⟨hfirst, hcmp, -⟩ := h.pend f hp
      obtain ⟨cmp, hget, -⟩ := Option.map_eq_some_iff.mp hfirst
      rw [execIo_second hreq hpass hfuse hp hget]
      split
      · exact habort.completeAlone (next_ne_of_none hgone)
      · rename_i hopc
        obtain rfl := (hsafe f hp).second hfuse hpass (not_not.mp hopc)
        refine h.compareAndWrite hp ⟨rfl, hfirst, hcmp, hfuseAt, ?_⟩ _ _ _
        rw [FusedSt.opcAt, hreq, Option.map_some, not_not.mp hopc]
  | reserved =>
    rw [execIo_reserved hreq hpass (by simp [hfuse]) (by simp [hfuse]) (by simp [hfuse])]
    refine h.completeAlone ?_
    rintro g hg rfl
    have hsecond := h.follows g (h.pend g hg).1 (h.lt_of_mem (List.mem_singleton_self _))
    rw [hfuseAt, hfuse] at hsecond
    cases hsecond

/-- The second half of what is pending is not with the device. -/
theorem pending_next (h : PairSound [] s) (hi : i ∈ s.flying) :
    ∀ g, s.pending = some g → g + 1 ≠ i := by
  rintro g hg rfl
  rcases (h.pend g hg).2.2 with hmem | hmem | hlast
  · cases hmem
  · have hle := h.once_le (g + 1)
    have hwaiting := List.count_pos_iff.mpr hmem
    have hflying := List.count_pos_iff.mpr hi
    rw [FusedSt.seen] at hle
    omega
  · exact absurd hlast (h.flying_live hi).1.ne

/-- The device is done with a request that is tied to none. -/
theorem finishAlone (h : PairSound [] s) (hi : i ∈ s.flying)
    (hnone : s.firstFused (s.slotAt i) = none) :
    PairSound [] ({ s with flying := s.flying.erase i }.complete i) := by
  have hback := h.fromDevice hi
  rw [FusedSt.linked, hnone] at hback
  exact completeAlone hback (h.pending_next hi)

/-- The device is done with a second half: its first is completed in front of it. -/
theorem finishBoth (h : PairSound [] s) (hi : f + 1 ∈ s.flying) (hlink : s.linked (f + 1) = some f)
    (hfirst : s.fuseAt f = some .first) :
    PairSound [] ((({ s with flying := s.flying.erase (f + 1) }.complete f).setFirstFused (f + 1)
      none).complete (f + 1)) := by
  have hback := h.fromDevice hi
  rw [hlink, Option.toList_some] at hback
  have hsecond := h.follows f hfirst (h.flying_live hi).1
  have hlt := (h.linked_live hi hlink).1
  have hone : PairSound [f + 1] ({ s with flying := s.flying.erase (f + 1) }.complete f) := by
    refine hback.complete (fun g hg => h.first_ne_next (h.pend g hg).1 hfirst hlt) ?_
    intro g hg hg'
    obtain rfl := List.mem_singleton.mp hg
    exact absurd hg' (h.fly _ hi).1
  exact (hone.setFirstFused (List.mem_singleton_self _) hsecond none).completeAlone
    (h.pending_next hi)

/-- The device is done with a request. -/
theorem finish (h : PairSound [] s) (hi : i ∈ s.flying) :
    PairSound [] (bdevCtrlrCompleteCmd { s with flying := s.flying.erase i } i) := by
  unfold bdevCtrlrCompleteCmd
  rcases (h.fly i hi).2 with hnone | ⟨f, hlink, hfirst, rfl⟩
  · have hlink : (s.firstFused (s.slotAt i)).bind s.owner = none := by rw [hnone]; rfl
    split
    · rename_i heq
      exact absurd (hlink.symm.trans heq) (Option.some_ne_none _).symm
    · exact h.finishAlone hi hnone
  · split
    · rename_i g heq
      obtain rfl := Option.some.inj (hlink.symm.trans heq)
      exact h.finishBoth hi hlink hfirst
    · rename_i heq
      exact absurd (hlink.symm.trans heq) (Option.some_ne_none _)

/-- A callback of its own is that of a command that is tied to none. -/
theorem finishOwn (h : PairSound [] s) (hi : i ∈ s.flying) (hfuse : s.fuseAt i = some .none) :
    PairSound [] ({ s with flying := s.flying.erase i }.complete i) := by
  obtain ⟨hlt, hlive⟩ := h.flying_live hi
  refine h.finishAlone hi (h.clear i hlt hlive ?_)
  rw [hfuse]
  decide

/-- **Every step that nothing disturbs keeps the invariant.** -/
theorem step {l : FusedEvent} (h : PairSound [] s) (hsafe : FusedSafe s l)
    (hs : fusedStep d s l = some s') : PairSound [] s' := by
  cases l with
  | exec req e o =>
    rw [fusedStep] at hs
    split at hs
    swap
    · cases hs
    rename_i hadm
    obtain rfl := Option.some.inj hs
    exact (h.arrive hadm hsafe.2).execIo FusedSt.getElem?_arrive_length hsafe.1
  | retry e o =>
    rw [fusedStep] at hs
    split at hs
    · cases hs
    rename_i i rest hw
    obtain rfl := Option.some.inj hs
    have hlt : i < s.cmds.length := h.waiting_lt (by rw [hw]; exact List.mem_cons_self)
    have hreq : s.cmds[i]? = some s.cmds[i] := List.getElem?_eq_getElem hlt
    exact (h.pop hw).execIo hreq fun f => hsafe i _ f (by rw [hw]; rfl) hreq
  | finish i =>
    rw [fusedStep] at hs
    split at hs
    · rename_i hi
      obtain rfl := Option.some.inj hs
      exact h.finish hi
    · cases hs
  | finishOwn i =>
    rw [fusedStep] at hs
    split at hs
    · rename_i hi
      obtain rfl := Option.some.inj hs
      exact h.finishOwn hi.1 hi.2
    · cases hs

/-- Between the commands, the first half of a completed second is nowhere but completed. -/
theorem faithful (h : PairSound [] s) : PairsFaithful s where
  submitted := h.pairs
  completed f hfirst hdone := by
    have hlt := FusedSt.lt_of_fuseAt hfirst
    have hcount := List.count_pos_iff.mpr hdone
    have hnext := h.once_le (f + 1)
    rw [FusedSt.seen] at hnext
    have hwaiting : f + 1 ∉ s.waiting := by
      rw [← List.count_eq_zero]
      omega
    have hflying : f + 1 ∉ s.flying := by
      rw [← List.count_eq_zero]
      omega
    have hpending : s.pending.toList.count f = 0 := by
      refine List.count_eq_zero.mpr fun hmem => ?_
      rcases (h.pend f (Option.mem_toList.mp hmem)).2.2 with hmem | hmem | hlast
      · cases hmem
      · exact hwaiting hmem
      · have hdone := h.lt_of_seen (i := f + 1) (by rw [FusedSt.seen]; omega)
        omega
    have hqueued : s.waiting.count f = 0 :=
      List.count_eq_zero.mpr fun hmem => hwaiting (h.wait f hmem hfirst)
    have haway : s.flying.count f = 0 :=
      List.count_eq_zero.mpr fun hmem => (h.fly f hmem).1 hfirst
    have htied : (s.flying.filterMap s.linked).count f = 0 := by
      refine List.count_eq_zero.mpr fun hmem => ?_
      obtain ⟨j, hj, hlink⟩ := List.mem_filterMap.mp hmem
      rcases (h.fly j hj).2 with hnone | ⟨g, hg, -, rfl⟩
      · rw [FusedSt.linked, hnone] at hlink
        cases hlink
      · obtain rfl := Option.some.inj (hg.symm.trans hlink)
        exact hflying hj
    have honce := h.once f
    rw [if_pos hlt, FusedSt.seen, List.count_nil] at honce
    omega

end PairSound

/-- **Where nothing comes between the halves of a pair, the pairs are faithful**: in every run all
of whose steps are safe, compare-and-write is called for a COMPARE and the WRITE directly behind
it, and a completed second half has its first completed once. -/
theorem pairs_faithful (d : Bdev) {s : FusedSt} (h : (fusedSys d).Reach FusedSafe s) :
    PairsFaithful s :=
  (h.invariant (I := PairSound []) .init fun _ _ _ hI hsafe hs => hI.step hsafe hs).faithful

/-! ## Runs -/

/-- The namespace of `IoEnv.reserved`, seen by the host that holds it. -/
def IoEnv.holding : IoEnv := { IoEnv.reserved with hostid := 1 }

/-- A command for the first block. -/
def FusedReq.firstBlock (slot : ℕ) (opc : UInt8) (fuse : Fuse) : FusedReq :=
  ⟨slot, ⟨{ NvmeCmd.plainRead with byte := opc, fuse }, false, nofun⟩,
    ⟨0, 0, 0, 0, 512, [List.replicate 512 0], length_zeroBlock⟩⟩

/-- A COMPARE, as a first half. -/
def FusedEvent.compare (slot : ℕ) (e : IoEnv) : FusedEvent :=
  .exec (.firstBlock slot 0x05 .first) e {}

/-- A WRITE, as a second half. -/
def FusedEvent.write (slot : ℕ) (e : IoEnv) (rc : ℤ) : FusedEvent :=
  .exec (.firstBlock slot 0x01 .second) e { rc }

/-- A pair that has to be tried twice. -/
theorem pairs_faithful_sample : ∃ s, (fusedSys .sample).Reach FusedSafe s ∧
    s.submitted = [(0, 1), (0, 1)] ∧ s.completed = [0, 1] ∧ PairsFaithful s := by
  have hown : Undisturbed 0 1 (.firstBlock 1 0x01 .second) .holding :=
    ⟨nofun, fun _ _ _ => rfl, fun _ => ⟨⟨rfl, rfl, Or.inl rfl⟩, by decide⟩⟩
  have hreach : (fusedSys .sample).Reach FusedSafe _ :=
    .step (l := .finish 1)
      (.step (l := .retry .holding {})
        (.step (l := .retry .holding {})
          (.step (l := .write 1 .holding (-ENOMEM))
            (.step (l := .compare 0 .holding) .init ⟨nofun, rfl⟩ rfl)
            ⟨fun f hf => by cases hf; exact hown, rfl⟩ rfl)
          (fun _ _ _ _ _ => nofun) rfl)
        (fun i req f hi hreq hf => by
          cases hi
          cases hreq
          cases hf
          exact hown) rfl)
      trivial rfl
  exact ⟨_, hreach, rfl, rfl, pairs_faithful .sample hreach⟩

/-- Three runs in which the pairs are not: the WRITE is a conflict and its COMPARE is left pending;
a COMPARE from the io-wait queue gets the WRITE of another; and a struct keeps its mark, so that the
READ it carries next completes the COMPARE again. -/
theorem pairs_unfaithful : ∃ turned mixed marked : FusedSt,
    (fusedSys .sample).Reach (fun _ _ => True) turned ∧
    (fusedSys .sample).Reach (fun _ _ => True) mixed ∧
    (fusedSys .sample).Reach (fun _ _ => True) marked ∧
    (turned.completed = [1] ∧ turned.pending = some 0 ∧ ¬ PairsFaithful turned) ∧
    (mixed.submitted = [(0, 1), (0, 3)] ∧ ¬ PairsFaithful mixed) ∧
    (marked.completed = [0, 1, 0, 2] ∧ ¬ PairsFaithful marked) := by
  refine ⟨_, _, _,
    .of_run [.compare 0 .reserved, .write 1 .reserved 0] (fun _ _ _ => trivial) .init rfl,
    .of_run [.compare 0 .holding, .write 1 .holding (-ENOMEM), .compare 2 .holding,
      .retry .holding {}, .write 3 .holding 0] (fun _ _ _ => trivial) .init rfl,
    .of_run [.compare 0 .holding, .write 1 .holding (-ENOMEM),
      .retry { IoEnv.holding with anaState := .inaccessible } {}, .retry .holding {},
      .exec (.firstBlock 1 0x02 .none) .holding {}, .finish 2] (fun _ _ _ => trivial) .init rfl,
    ⟨rfl, rfl, fun h => ?_⟩, ⟨rfl, fun h => ?_⟩, ⟨rfl, fun h => ?_⟩⟩
  · exact absurd (h.completed 0 rfl (by decide)) (by decide)
  · exact absurd (h.submitted (0, 3) (by decide)).next (by decide)
  · exact absurd (h.completed 0 rfl (by decide)) (by decide)

end NdpHeaan
