import NdpHeaan.Target.SubsystemSound

/-!
# Target/SubsystemSweep — a poll group behind a change of state, at it and ahead of it

The sweep of a change has poll groups behind it, which are where the change takes them, and poll
groups ahead of it, which are where it found them; the poll group it waits for is in between.
-/

open Machinery

namespace NdpHeaan

/-- Where the sweep of a change is. -/
def ChangePhase.pos : ChangePhase → Option ℕ
  | .moving k | .visiting k => some k
  | _ => none

/-- A poll group behind the sweep. -/
structure Arrived (c : StateChange) (g : PollGroup) : Prop where
  agrees : c.requested.Agrees g
  flagged : c.requested = .paused → c.reverting = false → g.Flagged c.nsid

/-- The poll group that the change waits for. -/
inductive WaitedFor (c : StateChange) (g : PollGroup) : Prop
  | pause (hreq : c.requested = .paused) (hin : g.inactive = false) (hcb : g.pg.g.cb = true)
      (hflag : c.reverting = false → g.Flagged c.nsid) : WaitedFor c g
  | remove (hreq : c.requested = .inactive) (hin : g.inactive = true) : WaitedFor c g

/-- Where the poll group of the thread `k` is during a change.  Once the change has failed nothing
is said of those ahead. -/
structure Stands (c : StateChange) (k : ℕ) (g : PollGroup) : Prop where
  passed : c.phase ≠ .swept false → Passed c.phase.pos k → Arrived c g
  ahead : ¬ Passed c.phase.pos k → c.phase ≠ .visiting k → c.reverting = false →
    c.original.Agrees g

/-- What a poll group does between the messages of a change. -/
structure Keeps (g g' : PollGroup) : Prop where
  swept : g'.swept = g.swept
  inactive : g'.inactive = g.inactive
  agrees : ∀ st : SubsystemState, st.Agrees g → st.Agrees g'
  flagged : ∀ nsid, g.Flagged nsid → g'.Flagged nsid
  state : g'.pg.g.cb = g.pg.g.cb ∨
    g.pg.g.cb = true ∧ g'.pg.g.cb = false ∧ g'.pg.g.state = .paused

section Groups

variable {n k m : ℕ} {channels : List Bool} {st : SubsystemState} {c : StateChange}
  {g g' : PollGroup} {pg : PgSt} {rs : List FReq} {w : SubsysWorld}

theorem GroupSound.cb_iff (h : GroupSound g) : g.pg.g.cb = true ↔ g.pg.g.state = .pausing :=
  h.sound.pauses.pending

/-- No pause is pending where a poll group stands still. -/
theorem SubsystemState.Agrees.cb (ha : st.Agrees g) (h : GroupSound g) : g.pg.g.cb = false := by
  rw [← Bool.not_eq_true, h.cb_iff]
  cases st with
  | inactive => exact fun hp => SgroupState.noConfusion ((h.idle ha.1).symm.trans hp)
  | active => exact fun hp => SgroupState.noConfusion (ha.2.symm.trans hp)
  | paused => exact fun hp => SgroupState.noConfusion (ha.2.symm.trans hp)
  | activating | pausing | resuming | deactivating => exact ha.elim

theorem Stands.mono (h : Stands c k g) (hkeeps : Keeps g g') : Stands c k g' where
  passed hphase hpast :=
    ⟨hkeeps.agrees _ (h.passed hphase hpast).agrees, fun hreq hrev =>
      hkeeps.flagged _ ((h.passed hphase hpast).flagged hreq hrev)⟩
  ahead hpast hphase hrev := hkeeps.agrees _ (h.ahead hpast hphase hrev)

theorem WaitedFor.mono (h : WaitedFor c g) (hkeeps : Keeps g g') (hcb : g'.pg.g.cb = g.pg.g.cb) :
    WaitedFor c g' := by
  cases h with
  | pause hreq hin hcb' hflag =>
    exact .pause hreq (hkeeps.inactive.trans hin) (hcb.trans hcb') fun hrev =>
      hkeeps.flagged _ (hflag hrev)
  | remove hreq hin => exact .remove hreq (hkeeps.inactive.trans hin)

/-- Serving requests. -/
theorem keeps_of_serves (h : GroupSound g) (hserves : Serves rs g.pg pg) :
    Keeps g { g with pg := pg } := by
  have hcb := h.cb_iff
  -- where no pause is pending the state stays
  have hstate : g.pg.g.state ≠ .pausing → pg.g.state = g.pg.g.state := fun hnot =>
    hserves.state.elim And.left fun hp => absurd hp.1 hnot
  constructor
  case swept => rfl
  case inactive => rfl
  case agrees =>
    intro st ha
    cases st with
    | inactive => exact ⟨ha.1, ha.2.1, hserves.numNs.trans ha.2.2⟩
    | active => exact ⟨ha.1, (hstate (by rw [ha.2]; exact SgroupState.noConfusion)).trans ha.2⟩
    | paused => exact ⟨ha.1, (hstate (by rw [ha.2]; exact SgroupState.noConfusion)).trans ha.2⟩
    | activating | pausing | resuming | deactivating => exact ha.elim
  case flagged =>
    intro nsid hflag i hi hsel
    exact (hserves.flags i).trans (hflag i (hserves.numNs ▸ hi) hsel)
  case state =>
    exact hserves.state.imp And.right fun ⟨hp, hpaused, hcb'⟩ => ⟨hcb.mpr hp, hcb', hpaused⟩

theorem keeps_connect (hin : g.inactive = false) : Keeps g { g with qpairs := g.qpairs + 1 } where
  swept := rfl
  inactive := rfl
  agrees st ha := by
    cases st with
    | inactive =>
      rw [ha.1] at hin
      cases hin
    | active | paused => exact ha
    | activating | pausing | resuming | deactivating => exact ha.elim
  flagged _ hflag := hflag
  state := .inl rfl

theorem keeps_gone (hq : 0 < g.qpairs) (queued : List FReq) :
    Keeps g { g with qpairs := g.qpairs - 1, pg := { g.pg with queued := queued } } where
  swept := rfl
  inactive := rfl
  agrees st ha := by
    cases st with
    | inactive => exact absurd ha.2.1 (Nat.ne_of_gt hq)
    | active | paused => exact ha
    | activating | pausing | resuming | deactivating => exact ha.elim
  flagged _ hflag := hflag
  state := .inl rfl

theorem keeps_removeMsg (hin : g.inactive = true) (hq : g.qpairs = 0) :
    Keeps g g.nvmfPollGroupRemoveSubsystemMsg := by
  have hagrees := agrees_removeMsg hin hq
  unfold PollGroup.nvmfPollGroupRemoveSubsystemMsg at hagrees ⊢
  rw [if_pos hq] at hagrees ⊢
  constructor
  case swept => rfl
  case inactive => rfl
  case agrees =>
    intro st ha
    cases st with
    | inactive => exact hagrees
    | active | paused =>
      have hnot := ha.1
      rw [hin] at hnot
      cases hnot
    | activating | pausing | resuming | deactivating => exact ha.elim
  case flagged => exact fun _ _ i hi => absurd hi (Nat.not_lt_zero i)
  case state => exact .inl rfl

theorem next_ne_visiting : w.next n m ≠ .visiting k := by
  rcases next_cases n w m with ⟨j, hj, -⟩ | ⟨hj, -⟩
  · rw [hj]
    exact ChangePhase.noConfusion
  · rw [hj]
    exact ChangePhase.noConfusion

/-- The sweep goes on from the thread `m`. -/
theorem stands_next (hk : k < n) (hg : (w.group k).isSome = true) (hpast : k < m → Arrived c g)
    (hahead : m ≤ k → c.reverting = false → c.original.Agrees g) :
    Stands { c with phase := w.next n m } k g := by
  have hpos : (w.next n m).pos = nextFrom (fun j => (w.group j).isSome) n m := by
    rcases next_cases n w m with ⟨j, hj, hnext⟩ | ⟨hj, hnext⟩
    · rw [hj, hnext]
      rfl
    · rw [hj, hnext]
      rfl
  constructor
  case passed =>
    intro _ hp
    have hp : Passed (w.next n m).pos k := hp
    rw [hpos] at hp
    have hlt : k < m := by
      refine lt_of_passed_nextFrom ?_ hk hp
      exact hg
    have hpast := hpast hlt
    exact ⟨hpast.agrees, hpast.flagged⟩
  case ahead =>
    intro hp _ hrev
    refine hahead ?_ hrev
    by_contra hlt
    refine hp ?_
    show Passed (w.next n m).pos k
    rw [hpos]
    exact passed_nextFrom (Nat.not_le.mp hlt)

/-! ## One message -/

/-- What comes of the message of a change. -/
inductive VisitResult (c : StateChange) (g : PollGroup) : Option Bool → Prop
  | arrived (h : Arrived c g) : VisitResult c g (some true)
  | awaited (h : WaitedFor c g) : VisitResult c g none
  | failed (hreq : c.requested = .active) (hrev : c.reverting = false)
      (hcb : g.pg.g.cb = false) : VisitResult c g (some false)

/-- The message of a stop, or of a start that is taken back. -/
theorem visited_remove (h : GroupSound g) (hcb : g.pg.g.cb = false)
    (hreq : c.requested = .inactive) :
    GroupSound { g.nvmfPollGroupRemoveSubsystem with swept := true } ∧
      VisitResult c { g.nvmfPollGroupRemoveSubsystem with swept := true }
        (if g.qpairs = 0 then some true else none) := by
  refine ⟨h.remove hcb, ?_⟩
  split
  · rename_i hq
    refine .arrived ⟨?_, fun hp => ?_⟩
    · rw [hreq]
      exact agrees_remove hq
    · rw [hreq] at hp
      cases hp
  · exact .awaited (.remove hreq inactive_remove)

/-- The message of a pause, or of a resume that is taken back. -/
theorem visited_pause (h : GroupSound g) (hcb : g.pg.g.cb = false) (hreq : c.requested = .paused)
    (hactive : c.reverting = false → g.pg.g.state = .active) :
    GroupSound { g.pause c.nsid with swept := true } ∧
      VisitResult c { g.pause c.nsid with swept := true }
        (if (g.pause c.nsid).pg.g.cb then none else some true) := by
  have hflag : c.reverting = false → (g.pause c.nsid).Flagged c.nsid := fun hrev =>
    flagged_pause c.nsid (by rw [hactive hrev]; exact SgroupState.noConfusion)
  refine ⟨h.pause hcb c.nsid, ?_⟩
  rcases agrees_pause c.nsid hcb with ⟨hagrees, hcb'⟩ | ⟨-, hcb'⟩
  · rw [hcb', if_neg Bool.noConfusion]
    refine .arrived ⟨?_, fun _ => hflag⟩
    rw [hreq]
    exact hagrees
  · rw [hcb', if_pos rfl]
    exact .awaited (.pause hreq rfl hcb' hflag)

/-- The message of a start. -/
theorem visited_add (h : GroupSound g) (hcb : g.pg.g.cb = false) (hreq : c.requested = .active)
    (hrev : c.reverting = false) (ok : Bool) :
    GroupSound { g.nvmfPollGroupAddSubsystem channels ok with swept := true } ∧
      VisitResult c { g.nvmfPollGroupAddSubsystem channels ok with swept := true } (some ok) := by
  have hadd : GroupSound { g.nvmfPollGroupAddSubsystem channels ok with swept := true } :=
    h.add hcb ok
  refine ⟨hadd, ?_⟩
  cases ok with
  | true =>
    refine .arrived ⟨?_, fun hp => ?_⟩
    · rw [hreq]
      exact agrees_add
    · rw [hreq] at hp
      cases hp
  | false =>
    refine .failed hreq hrev ?_
    rw [← Bool.not_eq_true, hadd.cb_iff, hadd.idle inactive_remove]
    exact SgroupState.noConfusion

/-- The message of a resume. -/
theorem visited_resume (h : GroupSound g) (hcb : g.pg.g.cb = false) (hin : g.inactive = false)
    (hreq : c.requested = .active) (hrev : c.reverting = false) (ok : Bool)
    {q : FReq → QpairState} (hq : ∀ r, r.isAer = true → q r = .enabled) (done : FReq → Bool) :
    GroupSound { g.resume channels ok q done with swept := true } ∧
      VisitResult c { g.resume channels ok q done with swept := true } (some (g.resumed ok)) := by
  refine ⟨h.resume hcb hin ok hq done, ?_⟩
  rcases agrees_resume channels hin ok q done with ⟨hagrees, hres⟩ | ⟨heq, hres⟩
  · rw [hres]
    refine .arrived ⟨?_, fun hp => ?_⟩
    · rw [hreq]
      exact hagrees
    · rw [hreq] at hp
      cases hp
  · rw [hres, heq]
    exact .failed hreq hrev hcb

/-- **The message of a change gets to a poll group**, which is where the change found it or, where
that is taken back, anywhere. -/
theorem visited {q : FReq → QpairState} {done : FReq → Bool} {ok : Bool} {res : Option Bool}
    (h : GroupSound g) (hcb : g.pg.g.cb = false)
    (hway : c.reverting = false → OnTheWay c.original c.requested st)
    (hback : c.reverting = true → c.requested = c.original ∧ OnTheWayBack c.original st)
    (hahead : c.reverting = false → g.swept = true → c.original.Agrees g)
    (hok : c.requested = .inactive → ok = true) (hq : ∀ r, r.isAer = true → q r = .enabled)
    (hpg : subsystemStateChangeOnPg channels st c g ok q done = (g', res)) :
    GroupSound { g' with swept := true } ∧ VisitResult c { g' with swept := true } res := by
  -- a poll group that no change has got to is active
  have hstands : c.reverting = false → c.original.Agrees g ∨
      g.inactive = false ∧ g.pg.g.state = .active := fun hrev => by
    cases hswept : g.swept with
    | true => exact .inl (hahead hrev hswept)
    | false => exact .inr (h.fresh hswept)
  unfold subsystemStateChangeOnPg at hpg
  cases hrev : c.reverting with
  | true =>
    obtain ⟨hreq, hb⟩ := hback hrev
    generalize c.original = orig at hreq hb
    cases hb with
    | start =>
      rw [hok hreq] at hpg
      simp only [hreq, Bool.true_eq_false, if_false, Prod.mk.injEq] at hpg
      obtain ⟨rfl, rfl⟩ := hpg
      exact visited_remove h hcb hreq
    | resume =>
      simp only [hreq, Prod.mk.injEq] at hpg
      obtain ⟨rfl, rfl⟩ := hpg
      exact visited_pause h hcb hreq fun hr => by rw [hrev] at hr; cases hr
  | false =>
    have hw := hway hrev
    have hstand := hstands hrev
    generalize horig : c.original = orig at hw hstand
    generalize hreq : c.requested = req at hw
    cases hw with
    | start =>
      simp only [hreq, Prod.mk.injEq] at hpg
      obtain ⟨rfl, rfl⟩ := hpg
      exact visited_add h hcb hreq hrev ok
    | resume =>
      simp only [hreq, Prod.mk.injEq] at hpg
      obtain ⟨rfl, rfl⟩ := hpg
      exact visited_resume h hcb (hstand.elim And.left And.left) hreq hrev ok hq done
    | pause =>
      simp only [hreq, Prod.mk.injEq] at hpg
      obtain ⟨rfl, rfl⟩ := hpg
      exact visited_pause h hcb hreq fun _ => hstand.elim And.right And.right
    | stop | stopPaused =>
      rw [hok hreq] at hpg
      simp only [hreq, Bool.true_eq_false, if_false, Prod.mk.injEq] at hpg
      obtain ⟨rfl, rfl⟩ := hpg
      exact visited_remove h hcb hreq

end Groups

end NdpHeaan
