import NdpHeaan.Target.SubsystemSweep

/-!
# Target/SubsystemAgree — the poll groups follow the subsystem

When no change is under way every poll group that a change has got to stands where the subsystem
does (`subsystem_settled`), and where the subsystem is paused nothing is left of what the pause
waits for (`subsystem_paused`).  A poll group that is created later is active until the next change,
whatever the state of the subsystem is.
-/

open Machinery

namespace NdpHeaan

/-- The change that is on its way through the poll groups. -/
def SubsysWorld.Current (s : SubsysWorld) (c : StateChange) : Prop :=
  s.changes.head? = some c ∧ c.phase.Underway

/-- A poll group stands where the subsystem does; in a pause the namespaces it is for do not let
requests in. -/
structure SubsysWorld.Holds (s : SubsysWorld) (g : PollGroup) : Prop where
  agrees : s.state.Agrees g
  flagged : s.state = .paused → ∀ nsid ∈ s.pausedFor, g.Flagged nsid

/-- **What holds of a subsystem in its poll groups.** -/
structure SubsysSound (n : ℕ) (s : SubsysWorld) : Prop where
  head : HeadSound s
  groups : ∀ k, ∀ g ∈ s.group k, k < n ∧ GroupSound g
  pending : ∀ k, ∀ g ∈ s.group k, g.pg.g.cb = true →
    ∃ c, s.Current c ∧ c.phase = .visiting k ∧ c.requested = .paused
  awaited : ∀ c, s.Current c → ∀ k, c.phase = .visiting k →
    ∃ g, s.group k = some g ∧ WaitedFor c g
  fails : ∀ c, s.Current c → c.phase = .swept false → c.requested = .active ∧ c.reverting = false
  stands : ∀ c, s.Current c → ∀ k, ∀ g ∈ s.group k, g.swept = true → Stands c k g
  settled : (∀ c, ¬ s.Current c) →
    s.state.Settled ∧ ∀ k, ∀ g ∈ s.group k, g.swept = true → s.Holds g
  finished : ∀ c ∈ s.changes.head?, ∀ ok, c.phase = .finished ok →
    s.state = if ok then c.requested else c.original

section Worlds

variable {n k : ℕ} {channels : List Bool} {s s' w : SubsysWorld} {c c' : StateChange}
  {cs : List StateChange} {g g' : PollGroup} {l : SubsysLabel}

theorem subsysSound_init : SubsysSound n {} where
  head := headSound_init
  groups _ _ hg := by cases hg
  pending _ _ hg := by cases hg
  awaited _ hc := by cases hc.1
  fails _ hc := by cases hc.1
  stands _ hc := by cases hc.1
  settled _ := ⟨.inl rfl, fun _ _ hg => by cases hg⟩
  finished _ hc := by cases hc

theorem SubsysWorld.Current.unique (h : s.Current c) (h' : s.Current c') : c' = c :=
  Option.some.inj (h'.1.symm.trans h.1)

theorem not_current_of_head (hc : s.changes.head? = some c) (hphase : ¬ c.phase.Underway) :
    ∀ d, ¬ s.Current d := fun _ hd =>
  hphase (Option.some.inj (hd.1.symm.trans hc) ▸ hd.2)

/-- Where no poll group is waited for, none has a pause pending. -/
theorem SubsysSound.cb_false (h : SubsysSound n s) (hnot : ∀ c, s.Current c → c.phase ≠ .visiting k)
    (hg : s.group k = some g) : g.pg.g.cb = false := by
  rw [← Bool.not_eq_true]
  intro hcb
  obtain ⟨c, hc, hphase, -⟩ := h.pending k g hg hcb
  exact hnot c hc hphase

/-- …nor has one that the change on its way does not wait for. -/
theorem SubsysSound.cb_false_of_current (h : SubsysSound n s) (hcur : s.Current c)
    (hphase : c.phase ≠ .visiting k) (hg : s.group k = some g) : g.pg.g.cb = false := by
  refine h.cb_false (fun d hd => ?_) hg
  rw [hcur.unique hd]
  exact hphase

/-- The poll groups are as they were, and so is the change that is on its way. -/
theorem SubsysSound.still (h : SubsysSound n s) (hhead : HeadSound s')
    (hcur : ∀ c, s'.Current c ↔ s.Current c) (hg : s'.group = s.group) (hst : s'.state = s.state)
    (hp : s'.pausedFor = s.pausedFor)
    (hfin : ∀ c ∈ s'.changes.head?, ∀ ok, c.phase = .finished ok →
      s'.state = if ok then c.requested else c.original) : SubsysSound n s' where
  head := hhead
  groups := hg ▸ h.groups
  pending k g hk hcb := by
    obtain ⟨c, hc, hrest⟩ := h.pending k g (hg ▸ hk) hcb
    exact ⟨c, (hcur c).mpr hc, hrest⟩
  awaited c hc := hg ▸ h.awaited c ((hcur c).mp hc)
  fails c hc := h.fails c ((hcur c).mp hc)
  stands c hc := hg ▸ h.stands c ((hcur c).mp hc)
  settled hnot := by
    obtain ⟨hset, hall⟩ := h.settled fun c hc => hnot c ((hcur c).mpr hc)
    refine ⟨hst ▸ hset, fun k g hk hswept => ?_⟩
    have hold := hall k g (hg ▸ hk) hswept
    exact ⟨hst ▸ hold.agrees, hst ▸ hp ▸ hold.flagged⟩
  finished := hfin

/-- A change is put at the end of the list. -/
theorem SubsysSound.ask (h : SubsysSound n s)
    (hhead : HeadSound { s with changes := s.changes ++ [c] }) (hphase : c.phase.Unbegun) :
    SubsysSound n { s with changes := s.changes ++ [c] } := by
  have hfirst : s.changes = [] ∨ (s.changes ++ [c]).head? = s.changes.head? := by
    cases s.changes with
    | nil => exact .inl rfl
    | cons d ds => exact .inr rfl
  rcases hfirst with hnil | hsame
  · have hc : (s.changes ++ [c]).head? = some c := by
      rw [hnil]
      rfl
    have hnot := hphase.not_underway
    refine h.still hhead (fun d => iff_of_false (not_current_of_head hc hnot d) fun hd => ?_) rfl
      rfl rfl fun d hd ok hok => ?_
    · rw [SubsysWorld.Current, hnil] at hd
      cases hd.1
    · rw [Option.some.inj (hc.symm.trans hd), hok] at hphase
      exact hphase.elim
  · refine h.still hhead (fun d => ?_) rfl rfl rfl fun d hd => h.finished d (hsame ▸ hd)
    unfold SubsysWorld.Current
    rw [hsame]

/-- A change is on its way; it is enough to look at it. -/
theorem SubsysSound.of_current (hhead : HeadSound s) (hcur : s.Current c)
    (hgroups : ∀ k, ∀ g ∈ s.group k, k < n ∧ GroupSound g ∧
      (g.pg.g.cb = true → c.phase = .visiting k ∧ c.requested = .paused) ∧
      (g.swept = true → Stands c k g))
    (hawaited : ∀ k, c.phase = .visiting k → ∃ g, s.group k = some g ∧ WaitedFor c g)
    (hfails : c.phase = .swept false → c.requested = .active ∧ c.reverting = false) :
    SubsysSound n s where
  head := hhead
  groups k g hg := ⟨(hgroups k g hg).1, (hgroups k g hg).2.1⟩
  pending k g hg hcb := ⟨c, hcur, (hgroups k g hg).2.2.1 hcb⟩
  awaited d hd := by
    rw [hcur.unique hd]
    exact hawaited
  fails d hd := by
    rw [hcur.unique hd]
    exact hfails
  stands d hd k g hg := by
    rw [hcur.unique hd]
    exact (hgroups k g hg).2.2.2
  settled hnot := absurd hcur (hnot c)
  finished d hd ok hphase := by
    obtain rfl := Option.some.inj (hcur.1.symm.trans hd)
    have hunder := hcur.2
    rw [hphase] at hunder
    exact hunder.elim

/-- A change is sent to the poll groups. -/
theorem SubsysSound.sent (h : SubsysSound n s) (hhead : HeadSound s')
    (hc' : s'.changes.head? = some { c with phase := s.next n 0 }) (hg : s'.group = s.group)
    (hcb : ∀ k, ∀ g ∈ s.group k, g.pg.g.cb = false)
    (hahead : c.reverting = false → ∀ k, ∀ g ∈ s.group k, g.swept = true → c.original.Agrees g) :
    SubsysSound n s' := by
  refine .of_current hhead ⟨hc', underway_next⟩ (fun k g hk => ?_)
    (fun k hphase => absurd hphase next_ne_visiting) fun hphase => absurd hphase next_ne_failed
  rw [hg] at hk
  obtain ⟨hlt, hsound⟩ := h.groups k g hk
  refine ⟨hlt, hsound, fun hp => ?_, fun hswept => ?_⟩
  · rw [hcb k g hk] at hp
    cases hp
  · exact stands_next hlt (Option.isSome_of_mem hk) (fun hpast => absurd hpast (Nat.not_lt_zero k))
      fun _ hrev => hahead hrev k g hk hswept

/-- The change goes on from a poll group. -/
theorem SubsysSound.passOn (h : SubsysSound n s) (hcur : s.Current c) (hpos : c.phase.pos = some k)
    (hhead : HeadSound s') (hc' : s'.changes.head? = some { c with phase := w.next n (k + 1) })
    (hw : ∀ j, (s'.group j).isSome = true → (w.group j).isSome = true)
    (hothers : ∀ j, j ≠ k → s'.group j = s.group j)
    (hk : ∀ g ∈ s'.group k, k < n ∧ GroupSound g ∧ g.pg.g.cb = false ∧
      (g.swept = true → Arrived c g)) : SubsysSound n s' := by
  refine .of_current hhead ⟨hc', underway_next⟩ (fun j g hg => ?_)
    (fun j hphase => absurd hphase next_ne_visiting) fun hphase => absurd hphase next_ne_failed
  have hsome := hw j (Option.isSome_of_mem hg)
  by_cases hj : j = k
  · subst hj
    obtain ⟨hlt, hsound, hcb, harr⟩ := hk g hg
    refine ⟨hlt, hsound, fun hp => ?_, fun hswept => ?_⟩
    · rw [hcb] at hp
      cases hp
    · exact stands_next hlt hsome (fun _ => harr hswept) fun hle =>
        absurd hle (Nat.not_succ_le_self j)
  · rw [hothers j hj] at hg
    obtain ⟨hlt, hsound⟩ := h.groups j g hg
    refine ⟨hlt, hsound, fun hp => ?_, fun hswept => ?_⟩
    · obtain ⟨d, hd, hphase, -⟩ := h.pending j g hg hp
      rw [← hcur.unique hd, hphase] at hpos
      exact absurd (Option.some.inj hpos) hj
    · have hstands := h.stands c hcur j g hg hswept
      refine stands_next hlt hsome (fun hpast => ?_) fun hle hrev => ?_
      · refine hstands.passed (fun heq => ?_) ?_
        · rw [heq] at hpos
          cases hpos
        · rw [hpos]
          exact Nat.lt_of_le_of_ne (Nat.le_of_lt_succ hpast) hj
      · refine hstands.ahead ?_ (fun heq => ?_) hrev
        · rw [hpos]
          exact Nat.not_lt_of_lt hle
        · rw [heq] at hpos
          exact hj (Option.some.inj hpos)

theorem setGroup_group_self : (s.setGroup k g).group k = some g := Function.update_self ..

theorem setGroup_group_of_ne {j : ℕ} (hj : j ≠ k) : (s.setGroup k g).group j = s.group j :=
  Function.update_of_ne hj ..

theorem mem_setGroup {j : ℕ} (hg : g ∈ (s.setGroup k g').group j) :
    j = k ∧ g = g' ∨ j ≠ k ∧ g ∈ s.group j :=
  (mem_update.mp hg).imp_left fun ⟨hj, hg⟩ => ⟨hj, (Option.some.inj hg).symm⟩

/-- A poll group is replaced, which may be by none, with no effect on the change. -/
theorem SubsysSound.regroup (h : SubsysSound n s) {o : Option PollGroup}
    (hnew : ∀ g ∈ o, k < n ∧ GroupSound g ∧
      (g.pg.g.cb = true → ∃ c, s.Current c ∧ c.phase = .visiting k ∧ c.requested = .paused) ∧
      (g.swept = true → (∀ c, s.Current c → Stands c k g) ∧ ((∀ c, ¬ s.Current c) → s.Holds g)))
    (hawaited : ∀ c, s.Current c → c.phase = .visiting k → ∃ g, o = some g ∧ WaitedFor c g) :
    SubsysSound n { s with group := Function.update s.group k o } where
  head := h.head.congr rfl rfl
  groups j x hx := by
    rcases mem_update.mp hx with ⟨rfl, hxo⟩ | ⟨-, hx⟩
    · exact ⟨(hnew x hxo).1, (hnew x hxo).2.1⟩
    · exact h.groups j x hx
  pending j x hx hcb := by
    rcases mem_update.mp hx with ⟨rfl, hxo⟩ | ⟨-, hx⟩
    · exact (hnew x hxo).2.2.1 hcb
    · exact h.pending j x hx hcb
  awaited c hc j hphase := by
    by_cases hj : j = k
    · subst hj
      obtain ⟨x, rfl, haw⟩ := hawaited c hc hphase
      exact ⟨x, Function.update_self .., haw⟩
    · obtain ⟨x, hx, haw⟩ := h.awaited c hc j hphase
      exact ⟨x, (Function.update_of_ne hj ..).trans hx, haw⟩
  fails := h.fails
  stands c hc j x hx hswept := by
    rcases mem_update.mp hx with ⟨rfl, hxo⟩ | ⟨-, hx⟩
    · exact ((hnew x hxo).2.2.2 hswept).1 c hc
    · exact h.stands c hc j x hx hswept
  settled hnot := by
    obtain ⟨hset, hall⟩ := h.settled hnot
    refine ⟨hset, fun j x hx hswept => ?_⟩
    have hold : s.Holds x := by
      rcases mem_update.mp hx with ⟨rfl, hxo⟩ | ⟨-, hx⟩
      · exact ((hnew x hxo).2.2.2 hswept).2 hnot
      · exact hall j x hx hswept
    exact ⟨hold.agrees, hold.flagged⟩
  finished := h.finished

/-- A poll group goes on, with no effect on the change. -/
theorem SubsysSound.keep (h : SubsysSound n s) (hg : s.group k = some g) (hkeeps : Keeps g g')
    (hcb : g'.pg.g.cb = g.pg.g.cb) (hsound : GroupSound g') : SubsysSound n (s.setGroup k g') := by
  refine h.regroup (o := some g') ?_ fun c hc hphase => ?_
  · rintro _ ⟨⟩
    refine ⟨(h.groups k g hg).1, hsound, fun hcb' => h.pending k g hg (hcb ▸ hcb'),
      fun hswept => ?_⟩
    rw [hkeeps.swept] at hswept
    refine ⟨fun c hc => (h.stands c hc k g hg hswept).mono hkeeps, fun hnot => ?_⟩
    have hold := (h.settled hnot).2 k g hg hswept
    exact ⟨hkeeps.agrees _ hold.agrees, fun hp nsid hn =>
      hkeeps.flagged _ (hold.flagged hp nsid hn)⟩
  · obtain ⟨x, hx, haw⟩ := h.awaited c hc k hphase
    obtain rfl := Option.some.inj (hx.symm.trans hg)
    exact ⟨g', rfl, haw.mono hkeeps hcb⟩

/-- The message has got to a poll group, and the change waits for it or has failed there. -/
theorem SubsysSound.stay (h : SubsysSound n s) (hcur : s.Current c) (hphase : c.phase = .moving k)
    {p : ChangePhase} (hhead : HeadSound s') (hc' : s'.changes.head? = some { c with phase := p })
    (hg' : s'.group = (s.setGroup k g').group) (hk : k < n) (hsound : GroupSound g')
    (hp : p = .visiting k ∧ WaitedFor c g' ∨
      p = .swept false ∧ c.requested = .active ∧ c.reverting = false ∧ g'.pg.g.cb = false) :
    SubsysSound n s' := by
  have hunder : p.Underway := by
    rcases hp with ⟨rfl, -⟩ | ⟨rfl, -⟩ <;> trivial
  -- no poll group was waited for
  have hnone : ∀ {j : ℕ} {x : PollGroup}, x ∈ s.group j → x.pg.g.cb = false := fun hx =>
    h.cb_false_of_current hcur (by rw [hphase]; exact ChangePhase.noConfusion) hx
  -- a change that has failed has no poll group to be at
  have hfailed : ∀ (j : ℕ) (x : PollGroup), Stands { c with phase := .swept false } j x :=
    fun _ _ => ⟨fun hne => absurd rfl hne, fun hnot => absurd trivial hnot⟩
  refine .of_current hhead ⟨hc', hunder⟩ (fun j x hx => ?_) (fun j heq => ?_) fun heq => ?_
  · rcases mem_setGroup (hg' ▸ hx) with ⟨rfl, rfl⟩ | ⟨hj, hx⟩
    · refine ⟨hk, hsound, fun hcb => ?_, fun _ => ?_⟩
      · rcases hp with ⟨rfl, haw⟩ | ⟨-, -, -, hcb'⟩
        · cases haw with
          | pause hreq => exact ⟨rfl, hreq⟩
          | remove hreq hin =>
            have hactive := hsound.idle hin
            rw [hsound.cb_iff.mp hcb] at hactive
            cases hactive
        · rw [hcb'] at hcb
          cases hcb
      · rcases hp with ⟨rfl, -⟩ | ⟨rfl, -⟩
        · exact ⟨fun _ hlt => absurd hlt (Nat.lt_irrefl j), fun _ hne => absurd rfl hne⟩
        · exact hfailed j _
    · refine ⟨(h.groups j x hx).1, (h.groups j x hx).2, fun hcb => ?_, fun hswept => ?_⟩
      · rw [hnone hx] at hcb
        cases hcb
      · rcases hp with ⟨rfl, -⟩ | ⟨rfl, -⟩
        · have hold := h.stands c hcur j x hx hswept
          refine ⟨fun _ hlt => ?_, fun hlt _ hrev => ?_⟩
          · have harr := hold.passed (by rw [hphase]; exact ChangePhase.noConfusion)
              (by rw [hphase]; exact hlt)
            exact ⟨harr.agrees, harr.flagged⟩
          · exact hold.ahead (by rw [hphase]; exact hlt)
              (by rw [hphase]; exact ChangePhase.noConfusion) hrev
        · exact hfailed j x
  · rcases hp with ⟨rfl, haw⟩ | ⟨rfl, -⟩
    · obtain rfl := ChangePhase.visiting.inj heq
      refine ⟨g', by rw [hg']; exact setGroup_group_self, ?_⟩
      cases haw with
      | pause hreq hin hcb hflag => exact .pause hreq hin hcb hflag
      | remove hreq hin => exact .remove hreq hin
    · cases heq
  · rcases hp with ⟨rfl, -⟩ | ⟨rfl, hreq, hrev, -⟩
    · cases heq
    · exact ⟨hreq, hrev⟩

/-- The change has got through all poll groups. -/
theorem SubsysSound.arrive (h : SubsysSound n s) (hcur : s.Current c)
    (hphase : c.phase = .swept true) {ok : Bool} (hhead : HeadSound s')
    (hc' : s'.changes.head? = some { c with phase := .finished ok }) (hg : s'.group = s.group)
    (hst : s'.state = c.requested)
    (hp : c.requested = .paused → ∀ nsid ∈ s'.pausedFor, c.reverting = false ∧ nsid = c.nsid)
    (hfin : s'.state = if ok then c.requested else c.original) : SubsysSound n s' := by
  have hnot := not_current_of_head hc' id
  constructor
  case head => exact hhead
  case groups => exact hg ▸ h.groups
  case pending =>
    intro k g hk hcb
    have hfalse : g.pg.g.cb = false := h.cb_false_of_current hcur
      (by rw [hphase]; exact ChangePhase.noConfusion) (hg ▸ hk)
    rw [hfalse] at hcb
    cases hcb
  case awaited => exact fun d hd => absurd hd (hnot d)
  case fails => exact fun d hd => absurd hd (hnot d)
  case stands => exact fun d hd => absurd hd (hnot d)
  case settled =>
    have hset := h.head.requested c (List.mem_of_mem_head? hcur.1)
    refine fun _ => ⟨hst ▸ hset, fun k g hk hswept => ?_⟩
    have harr := (h.stands c hcur k g (hg ▸ hk) hswept).passed
      (by rw [hphase]; exact fun heq => Bool.noConfusion (ChangePhase.swept.inj heq))
      (by rw [hphase]; trivial)
    refine ⟨hst ▸ harr.agrees, fun hpaused nsid hn => ?_⟩
    rw [hst] at hpaused
    obtain ⟨hrev, rfl⟩ := hp hpaused nsid hn
    exact harr.flagged hpaused hrev
  case finished =>
    intro d hd ok' heq
    rw [← Option.some.inj (hc'.symm.trans hd)] at heq ⊢
    obtain rfl := ChangePhase.finished.inj heq
    exact hfin

/-- A poll group is created. -/
theorem SubsysSound.create (h : SubsysSound n s) (hk : k < n) (hg : s.group k = none) :
    SubsysSound n (s.setGroup k { pg := { g := freshSgroup channels } }) := by
  refine h.regroup (o := some _) ?_ fun c hc hphase => ?_
  · rintro _ ⟨⟩
    refine ⟨hk, groupSound_create channels, fun hcb => ?_, fun hswept => ?_⟩
    · cases hcb
    · cases hswept
  · obtain ⟨x, hx, -⟩ := h.awaited c hc k hphase
    rw [hg] at hx
    cases hx

/-- A poll group is destroyed that no change waits for. -/
theorem SubsysSound.destroy (h : SubsysSound n s)
    (hnot : ∀ c, s.Current c → c.phase ≠ .visiting k) :
    SubsysSound n { s with group := Function.update s.group k none } :=
  h.regroup (fun g hg => by cases hg) fun c hc hphase => absurd hphase (hnot c hc)

theorem callback_of_visiting (hc : s.changes = c :: cs) (hphase : c.phase = .visiting k) :
    s.callback n k = { s with changes := { c with phase := s.next n (k + 1) } :: cs } := by
  unfold SubsysWorld.callback
  rw [hc]
  exact if_pos hphase

theorem callback_of_not (hnot : ∀ c, s.Current c → c.phase ≠ .visiting k) : s.callback n k = s := by
  unfold SubsysWorld.callback
  split
  · rename_i c cs hc
    refine if_neg fun hphase => hnot c ⟨by rw [hc]; rfl, ?_⟩ hphase
    rw [hphase]
    trivial
  · rfl

/-- The poll group that the change waits for is done. -/
theorem SubsysSound.calledBack (h : SubsysSound n s) (hcur : s.Current c)
    (hphase : c.phase = .visiting k) (hg : s.group k = some g) (hsound : GroupSound g')
    (harr : Arrived c g') : SubsysSound n ((s.setGroup k g').callback n k) := by
  obtain ⟨cs, hc⟩ := head?_eq_some hcur.1
  have hset : HeadSound (s.setGroup k g') := h.head.congr rfl rfl
  have hhead : HeadSound ((s.setGroup k g').callback n k) := hset.called called_callback
  have hc' : (s.setGroup k g').changes = c :: cs := hc
  rw [callback_of_visiting hc' hphase] at hhead ⊢
  refine h.passOn hcur (by rw [hphase]; rfl) hhead rfl (fun j hj => hj)
    (fun j hj => setGroup_group_of_ne hj) fun x hx => ?_
  obtain rfl := Option.some.inj (setGroup_group_self.symm.trans hx)
  exact ⟨(h.groups k g hg).1, hsound, harr.agrees.cb hsound, fun _ => harr⟩

/-- **A poll group is served.** -/
theorem SubsysSound.serve (h : SubsysSound n s) (hg : s.group k = some g) (hkeeps : Keeps g g')
    (hsound : GroupSound g') : SubsysSound n (s.serve n k g g') := by
  unfold SubsysWorld.serve
  split
  · rename_i hcb
    -- so the change waits for this poll group, and it is a pause
    obtain ⟨c, hcur, hphase, hreq⟩ := h.pending k g hg hcb.1
    obtain ⟨x, hx, haw⟩ := h.awaited c hcur k hphase
    obtain rfl := Option.some.inj (hx.symm.trans hg)
    refine h.calledBack hcur hphase hg hsound ?_
    have hpaused : g'.pg.g.state = .paused := by
      rcases hkeeps.state with heq | ⟨-, -, hpaused⟩
      · rw [hcb.1, hcb.2] at heq
        cases heq
      · exact hpaused
    cases haw with
    | pause _ hin _ hflag =>
      refine ⟨?_, fun _ hrev => hkeeps.flagged _ (hflag hrev)⟩
      rw [hreq]
      exact ⟨hkeeps.inactive.trans hin, hpaused⟩
    | remove hreq' =>
      rw [hreq'] at hreq
      cases hreq
  · rename_i hcb
    refine h.keep hg hkeeps ?_ hsound
    exact hkeeps.state.resolve_right fun hfired => hcb ⟨hfired.1, hfired.2.1⟩

/-- **`nvmf_poll_group_remove_subsystem_msg`.** -/
theorem SubsysSound.removeMsg (h : SubsysSound n s) (hg : s.group k = some g)
    (hin : g.inactive = true) (hq : g.qpairs = 0) :
    SubsysSound n ((s.setGroup k g.nvmfPollGroupRemoveSubsystemMsg).callback n k) := by
  have hsound := (h.groups k g hg).2.removeMsg hin
  have hkeeps := keeps_removeMsg hin hq
  have hagrees := agrees_removeMsg hin hq
  by_cases hvisit : ∃ c, s.Current c ∧ c.phase = .visiting k
  · obtain ⟨c, hcur, hphase⟩ := hvisit
    refine h.calledBack hcur hphase hg hsound ?_
    obtain ⟨x, hx, haw⟩ := h.awaited c hcur k hphase
    obtain rfl := Option.some.inj (hx.symm.trans hg)
    cases haw with
    | pause _ hin' =>
      rw [hin'] at hin
      cases hin
    | remove hreq =>
      refine ⟨?_, fun hp => ?_⟩
      · rw [hreq]
        exact hagrees
      · rw [hreq] at hp
        cases hp
  · have hnot : ∀ c, s.Current c → c.phase ≠ .visiting k := fun c hc hp => hvisit ⟨c, hc, hp⟩
    have hnot' : ∀ c, (s.setGroup k g.nvmfPollGroupRemoveSubsystemMsg).Current c →
        c.phase ≠ .visiting k := hnot
    rw [callback_of_not hnot']
    refine h.keep hg hkeeps ?_ hsound
    rw [hagrees.cb hsound, h.cb_false hnot hg]

@[simp] theorem group_notePause : (s.notePause c).group = s.group := by
  unfold SubsysWorld.notePause
  split
  · rfl
  · rfl

theorem pausedFor_notePause (hreq : c.requested = .paused) :
    (s.notePause c).pausedFor = if c.reverting then none else some c.nsid := by
  unfold SubsysWorld.notePause
  rw [if_pos hreq]

/-- **One step.** -/
theorem SubsysSound.step (h : SubsysSound n s) (hsafe : SubsysSafe s l)
    (hstep : subsysStep n channels s l = some s') : SubsysSound n s' := by
  have hhead' := h.head.step hstep
  have hmem : ∀ {c : StateChange} {cs : List StateChange}, s.changes = c :: cs →
      s.changes.head? = some c := fun hc => by
    rw [hc]
    rfl
  -- a change that is not on its way leaves everything as it is
  have hidle : ∀ {c : StateChange} {cs : List StateChange}, s.changes = c :: cs →
      ¬ c.phase.Underway → ∀ d, ¬ s.Current d := fun hc hnot => not_current_of_head (hmem hc) hnot
  cases h.head.move hstep with
  | ask hset =>
    refine h.ask hhead' ?_
    dsimp only
    split <;> trivial
  | @same c cs hc hphase heq =>
    refine h.still hhead' (fun d => iff_of_false ?_ (hidle hc (by rw [hphase]; exact id) d)) rfl rfl
      rfl fun d hd ok hok => ?_
    · exact not_current_of_head rfl id d
    · rw [← Option.some.inj hd] at hok ⊢
      obtain rfl := ChangePhase.finished.inj hok
      exact heq
  | @refused c cs hc hphase hne =>
    refine h.still hhead' (fun d => iff_of_false ?_ (hidle hc (by rw [hphase]; exact id) d)) rfl rfl
      rfl fun d hd ok hok => ?_
    · exact not_current_of_head rfl id d
    · rw [← Option.some.inj hd] at hok ⊢
      obtain rfl := ChangePhase.finished.inj hok
      rfl
  | @begun c cs st hc hphase hway =>
    have hnone := hidle hc (by rw [hphase]; exact id)
    refine h.sent (c := { c with original := s.state }) hhead' rfl rfl (fun k g hg => ?_)
      fun _ k g hg hswept => ((h.settled hnone).2 k g hg hswept).agrees
    exact h.cb_false (fun d hd => absurd hd (hnone d)) hg
  | @skip c cs k ok q done hc hphase hg =>
    have hcur : s.Current c := ⟨hmem hc, by rw [hphase]; trivial⟩
    refine h.passOn hcur (by rw [hphase]; rfl) hhead' rfl (fun _ hj => hj) (fun _ _ => rfl)
      fun g hg' => ?_
    rw [show s.group k = some g from hg'] at hg
    cases hg
  | @visit c cs k g g' res ok q done hc hphase hg hpg =>
    have hcur : s.Current c := ⟨hmem hc, by rw [hphase]; trivial⟩
    obtain ⟨hk, hsound⟩ := h.groups k g hg
    obtain ⟨hok, hq⟩ := hsafe c hcur.1
    have hcb := h.cb_false_of_current hcur (by rw [hphase]; exact ChangePhase.noConfusion) hg
    have hahead : c.reverting = false → g.swept = true → c.original.Agrees g := by
      intro hrev hswept
      refine (h.stands c hcur k g hg hswept).ahead ?_ ?_ hrev
      · rw [hphase]
        exact Nat.lt_irrefl k
      · rw [hphase]
        exact ChangePhase.noConfusion
    obtain ⟨hsound', hres⟩ := visited hsound hcb (h.head.way c hcur.1 hcur.2)
      (h.head.back c hcur.1 hcur.2) hahead hok hq hpg
    cases hres with
    | arrived harr =>
      refine h.passOn hcur (by rw [hphase]; rfl) hhead' rfl (fun j hj => ?_)
        (fun j hj => setGroup_group_of_ne hj) fun x hx => ?_
      · by_cases hjk : j = k
        · subst hjk
          exact Option.isSome_of_mem hg
        · rwa [show (s.setGroup k _).group j = s.group j from setGroup_group_of_ne hjk] at hj
      · obtain rfl := Option.some.inj (setGroup_group_self.symm.trans hx)
        exact ⟨hk, hsound', harr.agrees.cb hsound', fun _ => harr⟩
    | awaited haw => exact h.stay hcur hphase hhead' rfl rfl hk hsound' (.inl ⟨rfl, haw⟩)
    | failed hreq hrev hcb' =>
      exact h.stay hcur hphase hhead' rfl rfl hk hsound' (.inr ⟨rfl, hreq, hrev, hcb'⟩)
  | @removeMsg k g _ hg hin hq hcall =>
    rw [hcall]
    exact h.removeMsg hg hin hq
  | @done c cs hc hphase hrev =>
    have hcur : s.Current c := ⟨hmem hc, by rw [hphase]; trivial⟩
    refine h.arrive hcur hphase hhead' rfl group_notePause state_notePause (fun hreq nsid hn => ?_)
      state_notePause
    refine ⟨hrev, ?_⟩
    have hn : (SubsysWorld.notePause { s with state := c.requested } c).pausedFor = some nsid := hn
    rw [pausedFor_notePause hreq, hrev] at hn
    exact (Option.some.inj hn).symm
  | @back c cs st hc hphase hrev hreq hback =>
    have hcur : s.Current c := ⟨hmem hc, by rw [hphase]; trivial⟩
    refine h.sent (c := { c with requested := c.original, reverting := true }) hhead' rfl rfl
      (fun k g hg => ?_) fun hr => by cases hr
    exact h.cb_false_of_current hcur (by rw [hphase]; exact ChangePhase.noConfusion) hg
  | @stuck c cs hc hphase hrev hreq hstate =>
    have hcur : s.Current c := ⟨hmem hc, by rw [hphase]; trivial⟩
    have hactive := (h.fails c hcur hphase).1
    rw [hreq] at hactive
    cases hactive
  | @takenBack c cs ok hc hphase hrev =>
    have hcur : s.Current c := ⟨hmem hc, by rw [hphase]; trivial⟩
    have hok : ok = true := by
      cases ok with
      | true => rfl
      | false =>
        have hfalse := (h.fails c hcur hphase).2
        rw [hrev] at hfalse
        cases hfalse
    subst hok
    have hreq := (h.head.back c hcur.1 hcur.2 hrev).1
    refine h.arrive hcur hphase hhead' rfl group_notePause (state_notePause.trans hreq.symm)
      (fun hpaused nsid hn => ?_) state_notePause
    have hn : (SubsysWorld.notePause { s with state := c.original } c).pausedFor = some nsid := hn
    rw [pausedFor_notePause hpaused, hrev] at hn
    cases hn
  | @finish c cs ok hc hphase =>
    refine h.still hhead' (fun d => iff_of_false ?_ (hidle hc (by rw [hphase]; exact id) d)) rfl rfl
      rfl fun d hd ok' hok => ?_
    · rintro ⟨hd, hunder⟩
      rw [called_of_head hd] at hunder
      exact hunder
    · rw [called_of_head hd] at hok
      cases hok
  | @exec k g r q o hg hreq =>
    obtain ⟨haer, hio⟩ := hsafe g hg
    have hsound := (h.groups k g hg).2
    exact h.serve hg (keeps_of_serves hsound (serves_pollGroupExec g r q o))
      (hsound.exec haer hio hreq)
  | @complete k g r hg hr =>
    have hsound := (h.groups k g hg).2
    exact h.serve hg (keeps_of_serves hsound (serves_complete g.pg r)) (hsound.complete hr)
  | connect hg =>
    exact h.keep hg (keeps_connect (hsafe _ hg).1) rfl (h.groups _ _ hg).2.connect
  | gone hg hq =>
    exact h.keep hg (keeps_gone hq _) rfl
      ((h.groups _ _ hg).2.gone (hsafe _ hg).1 (hsafe _ hg).2 hq)
  | create hk hg => exact h.create hk hg
  | destroy hg hq => exact h.destroy fun c hc => (hsafe _ hg).2 c hc.1

theorem SubsysSound.of_reach (h : (subsysSys n channels).Reach SubsysSafe s) : SubsysSound n s :=
  h.invariant subsysSound_init fun _ _ _ hs hsafe hstep => hs.step hsafe hstep

/-! ## Results -/

theorem OnTheWay.ne_paused {orig req st : SubsystemState} (h : OnTheWay orig req st) :
    st ≠ .paused := by
  cases h <;> exact SubsystemState.noConfusion

theorem OnTheWayBack.ne_paused {orig st : SubsystemState} (h : OnTheWayBack orig st) :
    st ≠ .paused := by
  cases h <;> exact SubsystemState.noConfusion

/-- **When no change is under way**, the subsystem is inactive, active or paused, every poll group
that a change has got to is so too, and a change that has its callback to come has taken the
subsystem where it was asked to if its status is 0, and else has left it where it was. -/
theorem subsystem_settled (hr : (subsysSys n channels).Reach SubsysSafe s)
    (hidle : ∀ c ∈ s.changes.head?, ¬ c.phase.Underway) :
    s.state.Settled ∧ (∀ k, ∀ g ∈ s.group k, g.swept = true → s.state.Agrees g) ∧
      ∀ c ∈ s.changes.head?, ∀ ok, c.phase = .finished ok →
        s.state = if ok then c.requested else c.original := by
  have h := SubsysSound.of_reach hr
  obtain ⟨hset, hall⟩ := h.settled fun c hc => hidle c hc.1 hc.2
  exact ⟨hset, fun k g hg hswept => (hall k g hg hswept).agrees, h.finished⟩

/-- **When the subsystem is paused**, a poll group that a change has got to has no admin or fabrics
request outstanding, and no request of a namespace that the pause is for. -/
theorem subsystem_paused (hr : (subsysSys n channels).Reach SubsysSafe s)
    (hstate : s.state = .paused) (hg : s.group k = some g) (hswept : g.swept = true) :
    g.pg.mgmtCount = 0 ∧ ∀ nsid ∈ s.pausedFor, ∀ i < g.pg.g.numNs, Sgroup.Selected nsid i →
      g.pg.ioCount i = 0 := by
  have h := SubsysSound.of_reach hr
  -- during a change the state is another one
  have hidle : ∀ c, ¬ s.Current c := by
    rintro c ⟨hc, hunder⟩
    have hnot : s.state ≠ .paused := by
      cases hrev : c.reverting with
      | false => exact (h.head.way c hc hunder hrev).ne_paused
      | true => exact (h.head.back c hc hunder hrev).2.ne_paused
    exact hnot hstate
  obtain ⟨hagrees, hflagged⟩ := (h.settled hidle).2 k g hg hswept
  rw [hstate] at hagrees
  have hsound := (h.groups k g hg).2.sound
  obtain ⟨hmgmt, hio⟩ := hsound.pauses.safe hagrees.2
  refine ⟨hsound.counts.mgmt.symm.trans hmgmt, fun nsid hn i hi hsel => ?_⟩
  exact (hsound.counts.io i hi).symm.trans (hio i hi (hflagged hstate nsid hn i hi hsel))

end Worlds

/-- A subsystem on two threads is started; a qpair of the second reads its namespace while a pause
of that namespace comes, and the pause is over when the read is. -/
def pauseDuringRead : List SubsysLabel :=
  [.create 0, .create 1, .ask 1 0 .active, .start,
   .visit true (fun _ => .enabled) (fun _ => true), .visit true (fun _ => .enabled) (fun _ => true),
   .swept, .finish, .connect 1,
   .exec 1 { id := 7, opc := 2, admin := false, nsid := 1 } .enabled .asynchronous,
   .ask 2 1 .paused, .start,
   .visit true (fun _ => .enabled) (fun _ => true), .visit true (fun _ => .enabled) (fun _ => true),
   .complete 1 { id := 7, opc := 2, admin := false, nsid := 1 }, .swept]

theorem guarded_pauseDuringRead : (subsysSys 2 [true]).Guarded SubsysSafe
    (subsysSys 2 [true]).init pauseDuringRead := by
  have hvisit : ∀ s, SubsysSafe s (.visit true (fun _ => .enabled) (fun _ => true)) :=
    fun _ _ _ => ⟨fun _ => rfl, fun _ _ => rfl⟩
  refine ⟨trivial, fun s hs => ?_⟩
  obtain rfl := Option.some.inj hs
  refine ⟨trivial, fun s hs => ?_⟩
  obtain rfl := Option.some.inj hs
  refine ⟨trivial, fun s hs => ?_⟩
  obtain rfl := Option.some.inj hs
  refine ⟨trivial, fun s hs => ?_⟩
  obtain rfl := Option.some.inj hs
  refine ⟨hvisit _, fun s hs => ?_⟩
  obtain rfl := Option.some.inj hs
  refine ⟨hvisit _, fun s hs => ?_⟩
  obtain rfl := Option.some.inj hs
  refine ⟨trivial, fun s hs => ?_⟩
  obtain rfl := Option.some.inj hs
  refine ⟨trivial, fun s hs => ?_⟩
  obtain rfl := Option.some.inj hs
  refine ⟨fun g hg => ?_, fun s hs => ?_⟩
  · obtain rfl := Option.some.inj hg
    exact ⟨rfl, rfl⟩
  obtain rfl := Option.some.inj hs
  refine ⟨fun g hg => ?_, fun s _ => ?_⟩
  · obtain rfl := Option.some.inj hg
    exact ⟨fun haer => absurd haer (by decide), fun _ => Nat.one_pos⟩
  -- from here on the guard does not read the state
  exact ⟨trivial, fun _ _ => ⟨trivial, fun s _ => ⟨hvisit s, fun s _ => ⟨hvisit s, fun _ _ =>
    ⟨trivial, fun _ _ => ⟨trivial, fun _ _ => trivial⟩⟩⟩⟩⟩⟩

theorem subsystem_settled_pauseDuringRead : ∃ s : SubsysWorld,
    (subsysSys 2 [true]).run (subsysSys 2 [true]).init pauseDuringRead = some s ∧
    s.state.Settled ∧ ∀ k, ∀ g ∈ s.group k, g.swept = true → s.state.Agrees g := by
  obtain ⟨s, hrun, hhead⟩ : ∃ s : SubsysWorld,
      (subsysSys 2 [true]).run (subsysSys 2 [true]).init pauseDuringRead = some s ∧
      s.changes.head?.map StateChange.phase = some (.finished true) := ⟨_, rfl, rfl⟩
  have hreach := Sys.Reach.of_guarded pauseDuringRead guarded_pauseDuringRead .init hrun
  have hidle : ∀ c ∈ s.changes.head?, ¬ c.phase.Underway := fun c hc => by
    rw [Option.mem_def.mp hc] at hhead
    rw [Option.some.inj hhead]
    exact id
  have hsettled := subsystem_settled hreach hidle
  exact ⟨s, hrun, hsettled.1, hsettled.2.1⟩

theorem subsystem_paused_pauseDuringRead : ∃ (s : SubsysWorld) (g : PollGroup),
    (subsysSys 2 [true]).run (subsysSys 2 [true]).init pauseDuringRead = some s ∧
    s.group 1 = some g ∧ s.pausedFor = some 1 ∧ g.pg.ioCount 0 = 0 := by
  obtain ⟨s, g, hrun, hstate, hg, hswept, hnum, hfor⟩ : ∃ (s : SubsysWorld) (g : PollGroup),
      (subsysSys 2 [true]).run (subsysSys 2 [true]).init pauseDuringRead = some s ∧
      s.state = .paused ∧ s.group 1 = some g ∧ g.swept = true ∧ g.pg.g.numNs = 1 ∧
      s.pausedFor = some 1 := ⟨_, _, rfl, rfl, rfl, rfl, rfl, rfl⟩
  have hreach := Sys.Reach.of_guarded pauseDuringRead guarded_pauseDuringRead .init hrun
  have hnone := (subsystem_paused hreach hstate hg hswept).2 1 hfor 0
  exact ⟨s, g, hrun, hg, hfor, hnone (by rw [hnum]; exact Nat.one_pos) (.inr rfl)⟩

end NdpHeaan
