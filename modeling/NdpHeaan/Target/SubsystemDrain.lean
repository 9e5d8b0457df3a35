import NdpHeaan.Target.SubsystemAgree
import NdpHeaan.Target.SubsystemOrder

/-!
# Target/SubsystemDrain — changes of state come to an end

Whatever has happened, the changes that were asked for can all be carried out: what it takes is that
messages get to their threads, that requests are completed and, for a stop, that qpairs go away
(`stateChanges_drain`).  A poll group that a change waits for has something to wait for: a pause
ends with the last of its requests, and a removal when the qpairs are gone.
-/

open Machinery

namespace NdpHeaan

/-- What brings a change to its end. -/
def SubsysLabel.Winds : SubsysLabel → Prop
  | .start | .visit true _ _ | .removeMsg _ | .swept | .finish | .complete _ _ | .gone _ _ => True
  | _ => False

/-- The states that such steps lead to, where the rest of the target keeps to its rules. -/
def SubsysWinds (n : ℕ) (channels : List Bool) : SubsysWorld → SubsysWorld → Prop :=
  (subsysSys n channels).Steps fun s l => SubsysSafe s l ∧ l.Winds

section Winding

variable {n k : ℕ} {channels : List Bool} {s s' : SubsysWorld} {c : StateChange}
  {cs : List StateChange} {g : PollGroup} {l : SubsysLabel}

/-- The first change is brought to a phase, and nothing is lost on the way. -/
def WoundTo (n : ℕ) (channels : List Bool) (s : SubsysWorld) (changes : List StateChange) :
    Prop :=
  ∃ s', SubsysWinds n channels s s' ∧ SubsysSound n s' ∧ s'.changes = changes

theorem WoundTo.step (h : SubsysSound n s) (hsafe : SubsysSafe s l) (hl : l.Winds)
    (hstep : subsysStep n channels s l = some s') {changes : List StateChange}
    (hrest : SubsysSound n s' → WoundTo n channels s' changes) :
    WoundTo n channels s changes := by
  obtain ⟨t, hwinds, ht⟩ := hrest (h.step hsafe hstep)
  have hone : SubsysWinds n channels s s' := Sys.Steps.single ⟨hsafe, hl⟩ hstep
  exact ⟨t, hone.trans hwinds, ht⟩

variable (channels) in
theorem WoundTo.here (h : SubsysSound n s) : WoundTo n channels s s.changes :=
  ⟨s, Sys.Steps.refl s, h, rfl⟩

theorem WoundTo.trans {mid changes : List StateChange} (h : WoundTo n channels s mid)
    (hrest : ∀ t, SubsysSound n t → t.changes = mid → WoundTo n channels t changes) :
    WoundTo n channels s changes := by
  obtain ⟨t, hwinds, ht, hmid⟩ := h
  obtain ⟨u, hwinds', hu⟩ := hrest t ht hmid
  exact ⟨u, hwinds.trans hwinds', hu⟩

/-! ## One poll group -/

/-- A pause that is pending has a request to wait for. -/
theorem GroupSound.outstanding_ne_nil (h : GroupSound g) (hcb : g.pg.g.cb = true) :
    g.pg.outstanding ≠ [] := by
  intro hnil
  have hcounts := h.sound.counts
  rw [hnil] at hcounts
  exact h.sound.pauses.waits (h.cb_iff.mp hcb) ⟨hcounts.mgmt, fun i hi _ => hcounts.io i hi⟩

theorem step_complete {r : FReq} (hg : s.group k = some g) (hr : r ∈ g.pg.outstanding) :
    subsysStep n channels s (.complete k r) =
      some (s.serve n k g { g with pg := nvmfRequestComplete g.pg r }) := by
  dsimp only [subsysStep]
  rw [hg]
  exact if_pos hr

theorem step_gone {mine : FReq → Bool} (hg : s.group k = some g) (hq : 0 < g.qpairs) :
    subsysStep n channels s (.gone k mine) = some (s.setGroup k { g with
      qpairs := g.qpairs - 1
      pg := { g.pg with queued := g.pg.queued.filter fun r => !mine r } }) := by
  dsimp only [subsysStep]
  rw [hg]
  exact if_pos hq

theorem step_removeMsg (hg : s.group k = some g) (hin : g.inactive = true) (hq : g.qpairs = 0) :
    subsysStep n channels s (.removeMsg k) =
      some ((s.setGroup k g.nvmfPollGroupRemoveSubsystemMsg).callback n k) := by
  dsimp only [subsysStep]
  rw [hg]
  exact if_pos ⟨hin, hq⟩

/-- A change gets past a poll group. -/
def PassedOn (n : ℕ) (channels : List Bool) (k : ℕ) (c : StateChange) (cs : List StateChange)
    (s : SubsysWorld) : Prop :=
  ∃ w : SubsysWorld, WoundTo n channels s ({ c with phase := w.next n (k + 1) } :: cs)

theorem PassedOn.step (h : SubsysSound n s) (hsafe : SubsysSafe s l) (hl : l.Winds)
    (hstep : subsysStep n channels s l = some s')
    (hrest : SubsysSound n s' → PassedOn n channels k c cs s') : PassedOn n channels k c cs s := by
  obtain ⟨w, hw⟩ := hrest (h.step hsafe hstep)
  exact ⟨w, .step h hsafe hl hstep fun _ => hw⟩

/-- The callback of the poll group is made. -/
theorem passedOn_callback {w : SubsysWorld} (hc : w.changes = c :: cs)
    (hphase : c.phase = .visiting k) (h : SubsysSound n (w.callback n k)) :
    PassedOn n channels k c cs (w.callback n k) := by
  refine ⟨w, ?_⟩
  have hhere := WoundTo.here channels h
  rw [callback_of_visiting hc hphase] at hhere ⊢
  exact hhere

variable (channels) in
/-- **The poll group that a change waits for lets it go on.** -/
theorem passedOn_of_visiting (h : SubsysSound n s) (hc : s.changes = c :: cs)
    (hphase : c.phase = .visiting k) (hg : s.group k = some g) (m : ℕ)
    (hm : g.pg.outstanding.length + g.qpairs = m) : PassedOn n channels k c cs s := by
  -- by induction on what is left: requests to complete, and qpairs to destroy
  induction m using Nat.strongRecOn generalizing s g with
  | ind m ih =>
    have hcur : s.Current c := ⟨by rw [hc]; rfl, by rw [hphase]; trivial⟩
    obtain ⟨x, hx, haw⟩ := h.awaited c hcur k hphase
    obtain rfl := Option.some.inj (hg.symm.trans hx)
    by_cases hout : g.pg.outstanding = []
    · cases haw with
      | pause _ _ hcb => exact absurd hout ((h.groups k g hg).2.outstanding_ne_nil hcb)
      | remove hreq hin =>
        by_cases hq : g.qpairs = 0
        · exact .step (l := .removeMsg k) h trivial trivial (step_removeMsg hg hin hq)
            fun hnext => passedOn_callback hc hphase hnext
        · have hpos := Nat.pos_of_ne_zero hq
          refine .step (l := .gone k fun _ => true) h (fun y hy => ?_) trivial (step_gone hg hpos)
            fun hnext => ih (m - 1) (by omega) hnext hc setGroup_group_self ?_
          · obtain rfl := Option.some.inj (hg.symm.trans hy)
            rw [hout]
            exact ⟨fun r hr => (List.not_mem_nil hr).elim, fun _ r hmine => Bool.noConfusion hmine⟩
          · show g.pg.outstanding.length + (g.qpairs - 1) = m - 1
            omega
    · obtain ⟨r, hr⟩ := List.exists_mem_of_ne_nil _ hout
      refine .step (l := .complete k r) h trivial trivial (step_complete hg hr) fun hnext => ?_
      have hless := List.length_erase_of_mem hr
      have hpos := List.length_pos_of_mem hr
      unfold SubsysWorld.serve at hnext ⊢
      split
      · rename_i hcb
        rw [if_pos hcb] at hnext
        exact passedOn_callback hc hphase hnext
      · rename_i hcb
        rw [if_neg hcb] at hnext
        refine ih (m - 1) (by omega) hnext hc setGroup_group_self ?_
        show (nvmfRequestComplete g.pg r).outstanding.length + g.qpairs = m - 1
        rw [outstanding_complete]
        omega

/-! ## One sweep -/

/-- A message does not fail where what it needs is allocated. -/
theorem onPg_ne_failed {st : SubsystemState} {g' : PollGroup} {q : FReq → QpairState}
    {done : FReq → Bool}
    (hpg : subsystemStateChangeOnPg channels st c g true q done = (g', some false)) : False := by
  have hres := congrArg Prod.snd hpg
  unfold subsystemStateChangeOnPg at hres
  split at hres
  · rw [if_neg Bool.noConfusion] at hres
    dsimp only at hres
    split at hres
    · cases hres
    · cases hres
  · split at hres
    · cases hres
    · cases hres
    · cases hres
  · dsimp only at hres
    split at hres
    · cases hres
    · cases hres
  · cases hres

variable (channels) in
/-- **The message of a change gets past its poll group.** -/
theorem passedOn_of_moving (h : SubsysSound n s) (hc : s.changes = c :: cs)
    (hphase : c.phase = .moving k) : PassedOn n channels k c cs s := by
  have hhead : s.changes.head? = some c := by
    rw [hc]
    rfl
  have hsafe : SubsysSafe s (.visit true (fun _ => .enabled) fun _ => true) :=
    fun _ _ => ⟨fun _ => rfl, fun _ _ => rfl⟩
  obtain ⟨t, hstep⟩ : ∃ t, subsysStep n channels s (.visit true (fun _ => .enabled) fun _ => true) =
      some t := by
    dsimp only [subsysStep]
    rw [hhead]
    simp only [Option.bind_some, bind, hphase]
    split
    · exact ⟨_, rfl⟩
    · exact ⟨_, rfl⟩
  refine .step h hsafe trivial hstep fun hnext => ?_
  have hone : ∀ {d : StateChange} {ds : List StateChange}, s.changes = d :: ds → d = c ∧ ds = cs :=
    fun hd => List.cons.inj (hd.symm.trans hc)
  cases h.head.move hstep with
  | skip hd hphase' hg =>
    obtain ⟨rfl, rfl⟩ := hone hd
    obtain rfl := ChangePhase.moving.inj (hphase.symm.trans hphase')
    exact ⟨s, .here channels hnext⟩
  | @visit d ds j g g' res _ _ _ hd hphase' hg hpg =>
    obtain ⟨rfl, rfl⟩ := hone hd
    obtain rfl := ChangePhase.moving.inj (hphase.symm.trans hphase')
    cases res with
    | none =>
      exact passedOn_of_visiting channels (c := { d with phase := .visiting k }) hnext rfl rfl
        setGroup_group_self _ rfl
    | some ok =>
      cases ok with
      | true => exact ⟨s, .here channels hnext⟩
      | false => exact (onPg_ne_failed hpg).elim

/-- **A sweep gets to its end.** -/
theorem woundTo_swept (h : SubsysSound n s) (hc : s.changes = c :: cs) {w : SubsysWorld} {m : ℕ}
    (hphase : c.phase = w.next n m) :
    WoundTo n channels s ({ c with phase := .swept true } :: cs) := by
  -- by induction on the number of threads that are left
  induction hrest : n - m using Nat.strongRecOn generalizing s c w m with
  | ind left ih =>
    rcases next_cases n w m with ⟨k, hk, hnext⟩ | ⟨hend, -⟩
    · obtain ⟨hle, hlt, -⟩ := nextFrom_eq_some hnext
      obtain ⟨w', hpassed⟩ :=
        passedOn_of_moving channels h hc (hphase.trans hk)
      refine hpassed.trans fun t ht hct => ?_
      have hsweep := ih (n - (k + 1)) (by omega) ht hct rfl rfl
      exact hsweep
    · have hhere := WoundTo.here channels h
      rw [hc, show c = { c with phase := .swept true } from by rw [← hend, ← hphase]] at hhere
      exact hhere

/-! ## One change -/

variable (n channels) in
/-- The completion of a sweep can be run. -/
theorem exists_step_swept (h : HeadSound s) (hc : s.changes = c :: cs) {ok : Bool}
    (hphase : c.phase = .swept ok) : ∃ t, subsysStep n channels s .swept = some t := by
  have hhead : s.changes.head? = some c := by
    rw [hc]
    rfl
  dsimp only [subsysStep]
  rw [hhead]
  simp only [Option.bind_some, bind, hphase]
  split
  · exact ⟨_, rfl⟩
  · rename_i hrev
    have hway := h.way c hhead (by rw [hphase]; trivial) (by simpa using hrev)
    -- the state to go back to is one that can be asked for
    obtain ⟨t, ht⟩ : ∃ t, s.revert n c = some t := by
      obtain ⟨i, hi⟩ : ∃ i, nvmfSubsystemGetIntermediateState c.requested c.original = some i := by
        rcases hway.settled.1 with horig | horig | horig
        · exact ⟨_, by rw [horig]; rfl⟩
        · rw [horig]
          unfold nvmfSubsystemGetIntermediateState
          dsimp only
          split
          · exact ⟨_, rfl⟩
          · exact ⟨_, rfl⟩
        · exact ⟨_, by rw [horig]; rfl⟩
      unfold SubsysWorld.revert
      rw [hi]
      simp only [Option.bind_some, bind]
      split
      · exact ⟨_, rfl⟩
      · exact ⟨_, rfl⟩
    unfold SubsysWorld.subsystemStateChangeDone
    split
    · rw [hway.done]
      exact ⟨_, rfl⟩
    · exact ⟨t, ht⟩

variable (n channels) in
/-- The first change can be begun. -/
theorem exists_step_start (h : HeadSound s) (hc : s.changes = c :: cs)
    (hphase : c.phase = .called) : ∃ t, subsysStep n channels s .start = some t := by
  have hhead : s.changes.head? = some c := by
    rw [hc]
    rfl
  dsimp only [subsysStep]
  rw [hhead]
  simp only [Option.bind_some, bind, hphase, if_true]
  unfold SubsysWorld.nvmfSubsystemDoStateChange
  split
  · exact ⟨_, rfl⟩
  · rename_i hne
    have hidle := h.idle fun d hd hu => by
      obtain rfl := Option.some.inj (hhead.symm.trans hd)
      rw [hphase] at hu
      exact hu
    obtain ⟨i, hi, -⟩ := begun_or_refused hidle (h.requested c (hc ▸ .head _)) hne
    rw [hi]
    simp only [Option.bind_some, bind]
    split
    · exact ⟨_, rfl⟩
    · exact ⟨_, rfl⟩

/-- The first change comes to its end. -/
def Ends (n : ℕ) (channels : List Bool) (cs : List StateChange) (s : SubsysWorld) : Prop :=
  ∃ d : StateChange, (∃ ok, d.phase = .finished ok) ∧ WoundTo n channels s (d :: cs)

theorem Ends.of_woundTo {mid : List StateChange} (h : WoundTo n channels s mid)
    (hrest : ∀ t, SubsysSound n t → t.changes = mid → Ends n channels cs t) :
    Ends n channels cs s := by
  obtain ⟨t, hwinds, ht, hmid⟩ := h
  obtain ⟨d, hd, u, hwinds', hu⟩ := hrest t ht hmid
  exact ⟨d, hd, u, hwinds.trans hwinds', hu⟩

theorem Ends.step (h : SubsysSound n s) (hsafe : SubsysSafe s l) (hl : l.Winds)
    (hstep : subsysStep n channels s l = some s')
    (hrest : SubsysSound n s' → Ends n channels cs s') : Ends n channels cs s := by
  obtain ⟨d, hd, hw⟩ := hrest (h.step hsafe hstep)
  exact ⟨d, hd, .step h hsafe hl hstep fun _ => hw⟩

/-- A sweep that has got through is the end of the change. -/
theorem ends_of_swept_true (h : SubsysSound n s) (hc : s.changes = c :: cs)
    (hphase : c.phase = .swept true) : Ends n channels cs s := by
  have hone : ∀ {d : StateChange} {ds : List StateChange}, s.changes = d :: ds → d = c ∧ ds = cs :=
    fun hd => List.cons.inj (hd.symm.trans hc)
  obtain ⟨t, hstep⟩ := exists_step_swept n channels h.head hc hphase
  refine .step (l := .swept) h trivial trivial hstep fun hnext => ?_
  cases h.head.move hstep with
  | done hd =>
    obtain ⟨rfl, rfl⟩ := hone hd
    exact ⟨_, ⟨true, rfl⟩, .here channels hnext⟩
  | back hd hphase' =>
    rw [(hone hd).1, hphase] at hphase'
    cases hphase'
  | stuck hd hphase' =>
    rw [(hone hd).1, hphase] at hphase'
    cases hphase'
  | takenBack hd =>
    obtain ⟨rfl, rfl⟩ := hone hd
    exact ⟨_, ⟨false, rfl⟩, .here channels hnext⟩

/-- One that has failed is gone through once more, the other way. -/
theorem ends_of_swept_false (h : SubsysSound n s) (hc : s.changes = c :: cs)
    (hphase : c.phase = .swept false) : Ends n channels cs s := by
  have hone : ∀ {d : StateChange} {ds : List StateChange}, s.changes = d :: ds → d = c ∧ ds = cs :=
    fun hd => List.cons.inj (hd.symm.trans hc)
  obtain ⟨hreq, hrev⟩ := h.fails c ⟨by rw [hc]; rfl, by rw [hphase]; trivial⟩ hphase
  obtain ⟨t, hstep⟩ := exists_step_swept n channels h.head hc hphase
  refine .step (l := .swept) h trivial trivial hstep fun hnext => ?_
  cases h.head.move hstep with
  | done hd hphase' =>
    rw [(hone hd).1, hphase] at hphase'
    cases hphase'
  | back hd =>
    obtain ⟨rfl, rfl⟩ := hone hd
    refine .of_woundTo (woundTo_swept hnext rfl rfl) fun t ht hct => ?_
    exact ends_of_swept_true ht hct rfl
  | stuck hd _ _ hreq' =>
    rw [(hone hd).1, hreq] at hreq'
    cases hreq'
  | takenBack hd _ hrev' =>
    rw [(hone hd).1, hrev] at hrev'
    cases hrev'

variable (channels) in
/-- **A change is carried out, refused or taken back.** -/
theorem ends_of_head (h : SubsysSound n s) (hc : s.changes = c :: cs) : Ends n channels cs s := by
  have hone : ∀ {d : StateChange} {ds : List StateChange}, s.changes = d :: ds → d = c ∧ ds = cs :=
    fun hd => List.cons.inj (hd.symm.trans hc)
  -- a sweep, from the next poll group on
  have hsweep : ∀ {d : StateChange} {t w : SubsysWorld} {m : ℕ}, SubsysSound n t →
      t.changes = d :: cs → d.phase = w.next n m → Ends n channels cs t := fun ht hct hp =>
    .of_woundTo (woundTo_swept ht hct hp) fun _ hu hcu => ends_of_swept_true hu hcu rfl
  cases hphase : c.phase with
  | waiting => exact absurd hphase (h.head.first c (by rw [hc]; rfl))
  | called =>
    obtain ⟨t, hstep⟩ := exists_step_start n channels h.head hc hphase
    refine .step (l := .start) h trivial trivial hstep fun hnext => ?_
    cases h.head.move hstep with
    | same hd =>
      obtain ⟨rfl, rfl⟩ := hone hd
      exact ⟨_, ⟨true, rfl⟩, .here channels hnext⟩
    | refused hd =>
      obtain ⟨rfl, rfl⟩ := hone hd
      exact ⟨_, ⟨false, rfl⟩, .here channels hnext⟩
    | begun hd =>
      obtain ⟨rfl, rfl⟩ := hone hd
      exact hsweep hnext rfl rfl
  | moving k =>
    obtain ⟨w, hpassed⟩ := passedOn_of_moving channels h hc hphase
    exact .of_woundTo hpassed fun t ht hct => hsweep ht hct rfl
  | visiting k =>
    obtain ⟨g, hg, -⟩ := h.awaited c ⟨by rw [hc]; rfl, by rw [hphase]; trivial⟩ k hphase
    obtain ⟨w, hpassed⟩ := passedOn_of_visiting channels h hc hphase hg _ rfl
    exact .of_woundTo hpassed fun t ht hct => hsweep ht hct rfl
  | swept ok =>
    cases ok with
    | true => exact ends_of_swept_true h hc hphase
    | false => exact ends_of_swept_false h hc hphase
  | finished ok =>
    exact ⟨c, ⟨ok, hphase⟩, hc ▸ .here channels h⟩

variable (channels) in
/-- **All changes come to their end.** -/
theorem woundTo_nil (h : SubsysSound n s) : WoundTo n channels s [] := by
  induction hlen : s.changes.length generalizing s with
  | zero => exact List.eq_nil_of_length_eq_zero hlen ▸ .here channels h
  | succ m ih =>
    obtain ⟨c, cs, hcs, hm⟩ := List.length_eq_succ_iff.mp hlen
    obtain ⟨d, ⟨ok, hphase⟩, hd⟩ := ends_of_head channels h hcs.symm
    refine hd.trans fun t ht hct => ?_
    have hstep : subsysStep n channels t .finish =
        some { t with changes := callFirst cs, answered := t.answered ++ [(d, ok)] } := by
      dsimp only [subsysStep, SubsysWorld.nvmfSubsystemStateChangeComplete]
      rw [hct]
      simp only [List.head?_cons, Option.bind_some, bind, hphase, List.tail_cons]
    exact .step (l := .finish) ht trivial trivial hstep fun hnext =>
      ih hnext ((length_callFirst cs).trans hm)

/-! ## The result -/

/-- Nothing is asked for on the way, so the callbacks that are owed are made. -/
theorem ids_of_winds (h : HeadSound s) (hwinds : SubsysWinds n channels s s') : s'.ids = s.ids := by
  have hinv : HeadSound s' ∧ s'.ids = s.ids := by
    refine Sys.Steps.invariant (I := fun t => HeadSound t ∧ t.ids = s.ids) ?_ ⟨h, rfl⟩ hwinds
    rintro t l t' ⟨ht, hids⟩ ⟨-, hl⟩ hstep
    refine ⟨ht.step hstep, ?_⟩
    have hnone : l.asks = none := by
      cases l with
      | ask => exact hl.elim
      | _ => rfl
    rw [ht.ids_step hstep, hnone, hids]
    exact List.append_nil _
  exact hinv.2

/-- **The changes of state that were asked for can be carried out to the end**, from every state, by
messages, completions and the going away of qpairs; then each of them has had its callback. -/
theorem stateChanges_drain (hr : (subsysSys n channels).Reach SubsysSafe s) :
    ∃ s', SubsysWinds n channels s s' ∧ s'.changes = [] ∧
      s'.answered.map (·.1.id) = s.answered.map (·.1.id) ++ s.changes.map StateChange.id := by
  have h := SubsysSound.of_reach hr
  obtain ⟨s', hwinds, -, hnil⟩ := woundTo_nil channels h
  refine ⟨s', hwinds, hnil, ?_⟩
  have hids : s'.answered.map (·.1.id) ++ s'.changes.map StateChange.id = s.ids :=
    ids_of_winds h.head hwinds
  rw [hnil, List.map_nil, List.append_nil] at hids
  exact hids

end Winding

theorem stateChanges_drain_pauseDuringRead : ∃ s s' : SubsysWorld,
    (subsysSys 2 [true]).run (subsysSys 2 [true]).init pauseDuringRead = some s ∧
    s.changes.map StateChange.id = [2] ∧ SubsysWinds 2 [true] s s' ∧ s'.changes = [] := by
  obtain ⟨s, hrun, hids⟩ : ∃ s : SubsysWorld,
      (subsysSys 2 [true]).run (subsysSys 2 [true]).init pauseDuringRead = some s ∧
      s.changes.map StateChange.id = [2] := ⟨_, rfl, rfl⟩
  have hreach := Sys.Reach.of_guarded pauseDuringRead guarded_pauseDuringRead .init hrun
  obtain ⟨s', hwinds, hnil, -⟩ := stateChanges_drain hreach
  exact ⟨s, s', hrun, hids, hwinds, hnil⟩

end NdpHeaan
