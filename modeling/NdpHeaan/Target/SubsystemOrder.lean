import NdpHeaan.Target.SubsystemSound

/-!
# Target/SubsystemOrder — callbacks that are owed, and a stop that fails

A step neither drops a callback that is owed for a change of state nor makes one twice.  After a
stop that fails on a poll group the subsystem stays where it is (`stop_failed_forever`).
-/

open Machinery

namespace NdpHeaan

section Order

variable {n k : ℕ} {channels : List Bool} {s s' : SubsysWorld} {c : StateChange}
  {cs : List StateChange} {l : SubsysLabel}

/-! ## Callbacks -/

/-- Whose callback a request is. -/
def SubsysLabel.asks : SubsysLabel → Option ℕ
  | .ask id _ _ => some id
  | _ => none

/-- The callbacks that were made and those that are owed, in this order. -/
def SubsysWorld.ids (s : SubsysWorld) : List ℕ :=
  s.answered.map (·.1.id) ++ s.changes.map StateChange.id

theorem ids_of_called {g : PollGroup} (h : SubsysWorld.Called n k (s.setGroup k g) s') :
    s'.ids = s.ids := by
  rcases h with rfl | ⟨c, cs, hc, -, rfl⟩
  · rfl
  · have hold : s.changes = c :: cs := hc
    unfold SubsysWorld.ids
    rw [hold]
    rfl

theorem map_id_callFirst (cs : List StateChange) :
    (callFirst cs).map StateChange.id = cs.map StateChange.id := by
  cases cs <;> rfl

theorem answered_notePause : (s.notePause c).answered = s.answered := by
  unfold SubsysWorld.notePause
  split
  · rfl
  · rfl

/-- The first change keeps its callback. -/
theorem ids_of_head {c' : StateChange} (hc : s.changes = c :: cs) (hc' : s'.changes = c' :: cs)
    (hid : c'.id = c.id) (ha : s'.answered = s.answered) : s'.ids = s.ids := by
  unfold SubsysWorld.ids
  rw [hc, hc', ha, List.map_cons, List.map_cons, hid]

theorem HeadSound.ids_step (h : HeadSound s) (hstep : subsysStep n channels s l = some s') :
    s'.ids = s.ids ++ l.asks.toList := by
  have hnil : ∀ {x : SubsysWorld}, x.ids = s.ids → x.ids = s.ids ++ [] := fun hx => by
    rw [List.append_nil, hx]
  cases h.move hstep with
  | ask hset =>
    unfold SubsysWorld.ids SubsysWorld.nvmfSubsystemStateChange
    rw [List.map_append, ← List.append_assoc]
    rfl
  | same hc => exact hnil (ids_of_head hc rfl rfl rfl)
  | refused hc => exact hnil (ids_of_head hc rfl rfl rfl)
  | begun hc => exact hnil (ids_of_head hc rfl rfl rfl)
  | skip hc => exact hnil (ids_of_head hc rfl rfl rfl)
  | visit hc => exact hnil (ids_of_head hc rfl rfl rfl)
  | removeMsg hg hin hq hcall => exact hnil (ids_of_called (hcall ▸ called_callback))
  | done hc => exact hnil (ids_of_head hc rfl rfl answered_notePause)
  | back hc => exact hnil (ids_of_head hc rfl rfl rfl)
  | stuck hc => exact hnil (ids_of_head hc rfl rfl rfl)
  | takenBack hc => exact hnil (ids_of_head hc rfl rfl answered_notePause)
  | finish hc =>
    refine hnil ?_
    unfold SubsysWorld.ids
    rw [hc, List.map_append, List.append_assoc, map_id_callFirst]
    rfl
  | exec => exact hnil (ids_of_called (called_serve _ _))
  | complete => exact hnil (ids_of_called (called_serve _ _))
  | connect => exact hnil rfl
  | gone => exact hnil rfl
  | create => exact hnil rfl
  | destroy => exact hnil rfl

/-! ## A stop that fails -/

/-- The subsystem is where no change gets it away from. -/
structure Wedged (m : ℕ) (s : SubsysWorld) : Prop where
  sound : HeadSound s
  state : s.state = .deactivating
  head : ∀ c ∈ s.changes.head?, c.phase = .called ∨ c.phase = .finished false
  answered : ∀ e ∈ s.answered.drop m, e.2 = false

theorem Wedged.step {m : ℕ} (h : Wedged m s) (hstep : subsysStep n channels s l = some s') :
    Wedged m s' := by
  have hhead : ∀ {c : StateChange} {cs : List StateChange}, s.changes = c :: cs →
      c.phase = .called ∨ c.phase = .finished false := fun hc =>
    h.head _ (by rw [hc]; rfl)
  -- a change that is under way is not there
  have hnot : ∀ {c : StateChange} {cs : List StateChange}, s.changes = c :: cs →
      ¬ c.phase.Underway := fun hc hu => by
    rcases hhead hc with hphase | hphase <;> (rw [hphase] at hu; exact hu)
  have hsound' := h.sound.step hstep
  have hcalled : ∀ {k : ℕ} {g : PollGroup}, SubsysWorld.Called n k (s.setGroup k g) s' →
      Wedged m s' := fun hcall => by
    rcases hcall with rfl | ⟨c, cs, hc, hphase, -⟩
    · exact ⟨hsound', h.state, h.head, h.answered⟩
    · exact absurd (hphase ▸ trivial) (hnot hc)
  cases h.sound.move hstep with
  | ask hset =>
    refine ⟨hsound', h.state, fun c hc => ?_, h.answered⟩
    dsimp only [SubsysWorld.nvmfSubsystemStateChange] at hc
    cases hcs : s.changes with
    | nil =>
      rw [hcs] at hc
      exact .inl (Option.some.inj hc ▸ rfl)
    | cons d ds =>
      rw [hcs] at hc
      exact h.head c (hcs ▸ hc)
  | @same c cs hc hphase heq =>
    have hreq := h.sound.requested c (hc ▸ .head _)
    rw [← heq, h.state] at hreq
    exact absurd hreq (by decide)
  | refused hc hphase hne =>
    exact ⟨hsound', h.state, fun d hd => .inr (Option.some.inj hd ▸ rfl), h.answered⟩
  | begun hc hphase hway =>
    rw [h.state] at hway
    cases hway
  | skip hc hphase => exact absurd (hphase ▸ trivial) (hnot hc)
  | visit hc hphase => exact absurd (hphase ▸ trivial) (hnot hc)
  | removeMsg hg hin hq hcall => exact hcalled (hcall ▸ called_callback)
  | done hc hphase => exact absurd (hphase ▸ trivial) (hnot hc)
  | back hc hphase => exact absurd (hphase ▸ trivial) (hnot hc)
  | stuck hc hphase => exact absurd (hphase ▸ trivial) (hnot hc)
  | takenBack hc hphase => exact absurd (hphase ▸ trivial) (hnot hc)
  | @finish c cs ok hc hphase =>
    have hfalse : ok = false := by
      rcases hhead hc with hw | hf
      · rw [hw] at hphase
        cases hphase
      · exact ChangePhase.finished.inj (hphase.symm.trans hf)
    refine ⟨hsound', h.state, fun d hd => .inl (called_of_head hd), ?_⟩
    intro e he
    rcases List.mem_append.mp (List.drop_append .. ▸ he) with he | he
    · exact h.answered e he
    · rw [List.mem_singleton.mp (List.mem_of_mem_drop he)]
      exact hfalse
  | exec => exact hcalled (called_serve _ _)
  | complete => exact hcalled (called_serve _ _)
  | connect => exact ⟨hsound', h.state, h.head, h.answered⟩
  | gone => exact ⟨hsound', h.state, h.head, h.answered⟩
  | create => exact ⟨hsound', h.state, h.head, h.answered⟩
  | destroy => exact ⟨hsound', h.state, h.head, h.answered⟩

/-- **Once a stop has failed on a poll group, the subsystem stays DEACTIVATING and every change that
is asked for then fails**, whatever happens. -/
theorem stop_failed_forever {P : SubsysWorld → SubsysLabel → Prop} {ls : List SubsysLabel}
    (hr : (subsysSys n channels).Reach P s) (hc : s.changes = c :: cs)
    (hreq : c.requested = .inactive) (hrev : c.reverting = false) (hphase : c.phase = .swept false)
    (hrun : (subsysSys n channels).run s (.swept :: ls) = some s') :
    s'.state = .deactivating ∧ ∀ e ∈ s'.answered.drop s.answered.length, e.2 = false := by
  have hsound := HeadSound.of_reach hr
  obtain ⟨t, hm, hrest⟩ := Sys.run_cons_eq_some hrun
  have hstep : subsysStep n channels s .swept = some t := hm
  have hone : ∀ {d : StateChange} {ds : List StateChange}, s.changes = d :: ds → d = c :=
    fun hd => (List.cons.inj (hd.symm.trans hc)).1
  have hwedged : Wedged s.answered.length t := by
    have hsound' := hsound.step hstep
    cases hsound.move hstep with
    | done hd hphase' =>
      rw [hone hd, hphase] at hphase'
      cases hphase'
    | back hd _ _ hreq' =>
      rw [hone hd, hreq] at hreq'
      cases hreq'
    | stuck hd _ _ _ hstate =>
      refine ⟨hsound', hstate, fun d hd => .inr (Option.some.inj hd ▸ rfl), fun e he => ?_⟩
      rw [List.drop_length] at he
      cases he
    | takenBack hd _ hrev' =>
      rw [hone hd, hrev] at hrev'
      cases hrev'
  have hlast := Sys.run_invariant (fun _ _ _ hs hstep => hs.step hstep) hwedged hrest
  exact ⟨hlast.state, hlast.answered⟩

end Order

/-- A subsystem is started, and then stopped where there is no memory for it. -/
def stopWithoutMemory : List SubsysLabel :=
  [.create 0, .ask 1 0 .active, .start, .visit true (fun _ => .enabled) (fun _ => true), .swept,
   .finish, .ask 2 0 .inactive, .start, .visit false (fun _ => .enabled) (fun _ => true)]

theorem stop_failed_forever_stopWithoutMemory : ∃ s s' : SubsysWorld,
    (subsysSys 1 [true]).run (subsysSys 1 [true]).init stopWithoutMemory = some s ∧
    (subsysSys 1 [true]).run s [.swept, .finish, .ask 3 0 .active, .start, .finish] = some s' ∧
    s'.answered.map Prod.snd = [true, false, false] ∧ s'.state = .deactivating := by
  obtain ⟨s, s', hrun, hc, hrest, hans⟩ : ∃ s s' : SubsysWorld,
      (subsysSys 1 [true]).run (subsysSys 1 [true]).init stopWithoutMemory = some s ∧
      s.changes = [⟨2, 0, .inactive, .active, false, .swept false⟩] ∧
      (subsysSys 1 [true]).run s [.swept, .finish, .ask 3 0 .active, .start, .finish] = some s' ∧
      s'.answered.map Prod.snd = [true, false, false] := ⟨_, _, rfl, rfl, rfl, rfl⟩
  have hreach : (subsysSys 1 [true]).Reach (fun _ _ => True) s :=
    .of_run _ (fun _ _ _ => trivial) .init hrun
  exact ⟨s, s', hrun, hrest, hans, (stop_failed_forever hreach hc rfl rfl rfl hrest).1⟩

end NdpHeaan
