import NdpHeaan.Target.SubsystemGroup

/-!
# Target/SubsystemSound — what a step of a change of state can do

The state of a subsystem while a change is on its way is a table (`OnTheWay`), from which follows
what can be taken back where the change fails on a poll group: a start or a resume is, a stop is
not.
-/

open Machinery

namespace NdpHeaan

/-! ## The table of states -/

/-- The state of the subsystem during a change from one state to another. -/
inductive OnTheWay : SubsystemState → SubsystemState → SubsystemState → Prop
  | start : OnTheWay .inactive .active .activating
  | resume : OnTheWay .paused .active .resuming
  | pause : OnTheWay .active .paused .pausing
  | stop : OnTheWay .active .inactive .deactivating
  | stopPaused : OnTheWay .paused .inactive .deactivating

/-- …and while a change from a state is taken back. -/
inductive OnTheWayBack : SubsystemState → SubsystemState → Prop
  | start : OnTheWayBack .inactive .deactivating
  | resume : OnTheWayBack .paused .pausing

section Table

variable {orig req st : SubsystemState}

/-- A change is begun, or refused with the state as it is. -/
theorem begun_or_refused (hst : st.Settled ∨ st = .deactivating) (hreq : req.Settled)
    (hne : st ≠ req) : ∃ i, nvmfSubsystemGetIntermediateState st req = some i ∧
      (nvmfSubsystemSetState st i = none ∨
        ∃ st', nvmfSubsystemSetState st i = some st' ∧ OnTheWay st req st') := by
  rcases hst with (rfl | rfl | rfl) | rfl <;> rcases hreq with rfl | rfl | rfl
  · exact absurd rfl hne
  · exact ⟨_, rfl, .inr ⟨_, rfl, .start⟩⟩
  · exact ⟨_, rfl, .inl rfl⟩
  · exact ⟨_, rfl, .inr ⟨_, rfl, .stop⟩⟩
  · exact absurd rfl hne
  · exact ⟨_, rfl, .inr ⟨_, rfl, .pause⟩⟩
  · exact ⟨_, rfl, .inr ⟨_, rfl, .stopPaused⟩⟩
  · exact ⟨_, rfl, .inr ⟨_, rfl, .resume⟩⟩
  · exact absurd rfl hne
  · exact ⟨_, rfl, .inl rfl⟩
  · exact ⟨_, rfl, .inl rfl⟩
  · exact ⟨_, rfl, .inl rfl⟩

theorem OnTheWay.done (h : OnTheWay orig req st) : nvmfSubsystemSetState st req = some req := by
  cases h <;> rfl

theorem OnTheWayBack.done (h : OnTheWayBack orig st) :
    nvmfSubsystemSetState st orig = some orig := by
  cases h <;> rfl

/-- A start or a resume is taken back. -/
theorem OnTheWay.back (h : OnTheWay orig .active st) :
    ∃ i st', nvmfSubsystemGetIntermediateState .active orig = some i ∧
      nvmfSubsystemSetState st i = some st' ∧ OnTheWayBack orig st' := by
  cases h with
  | start => exact ⟨_, _, rfl, rfl, .start⟩
  | resume => exact ⟨_, _, rfl, rfl, .resume⟩

/-- A stop cannot be. -/
theorem OnTheWay.stuck (h : OnTheWay orig .inactive st) : st = .deactivating ∧
    ∃ i, nvmfSubsystemGetIntermediateState .inactive orig = some i ∧
      nvmfSubsystemSetState st i = none := by
  cases h with
  | stop => exact ⟨rfl, _, rfl, rfl⟩
  | stopPaused => exact ⟨rfl, _, rfl, rfl⟩

end Table

/-! ## What a step can do -/

/-- The change has got to the poll groups. -/
def ChangePhase.Underway : ChangePhase → Prop
  | .moving _ | .visiting _ | .swept _ => True
  | _ => False

/-- The change is not begun. -/
def ChangePhase.Unbegun : ChangePhase → Prop
  | .waiting | .called => True
  | _ => False

theorem ChangePhase.Unbegun.not_underway {p : ChangePhase} (h : p.Unbegun) : ¬ p.Underway := by
  cases p <;> first | exact h.elim | exact id

/-- **What holds of the list of changes and the state.** -/
structure HeadSound (s : SubsysWorld) : Prop where
  requested : ∀ c ∈ s.changes, c.requested.Settled
  waiting : ∀ c ∈ s.changes.tail, c.phase = .waiting
  /-- The first change is not left to itself. -/
  first : ∀ c ∈ s.changes.head?, c.phase ≠ .waiting
  unbegun : ∀ c ∈ s.changes, c.phase.Unbegun → c.reverting = false
  idle : (∀ c ∈ s.changes.head?, ¬ c.phase.Underway) → s.state.Settled ∨ s.state = .deactivating
  way : ∀ c ∈ s.changes.head?, c.phase.Underway → c.reverting = false →
    OnTheWay c.original c.requested s.state
  back : ∀ c ∈ s.changes.head?, c.phase.Underway → c.reverting = true →
    c.requested = c.original ∧ OnTheWayBack c.original s.state
  /-- A pause does not fail. -/
  fails : ∀ c ∈ s.changes.head?, c.phase = .swept false → c.requested ≠ .paused

/-- The poll group of a thread is served, with or without its callback. -/
def SubsysWorld.Called (n k : ℕ) (s s' : SubsysWorld) : Prop :=
  s' = s ∨ ∃ c cs, s.changes = c :: cs ∧ c.phase = .visiting k ∧
    s' = { s with changes := { c with phase := s.next n (k + 1) } :: cs }

/-- What a step does. -/
inductive SubsysMove (n : ℕ) (channels : List Bool) (s : SubsysWorld) :
    SubsysLabel → SubsysWorld → Prop
  | ask {id : ℕ} {nsid : UInt32} {requested : SubsystemState} (hset : requested.Settled) :
      SubsysMove n channels s (.ask id nsid requested)
        (s.nvmfSubsystemStateChange id nsid requested)
  /-- The subsystem is in the state that is asked for. -/
  | same {c : StateChange} {cs : List StateChange} (hc : s.changes = c :: cs)
      (hphase : c.phase = .called) (heq : s.state = c.requested) :
      SubsysMove n channels s .start { s with changes := { c with phase := .finished true } :: cs }
  | refused {c : StateChange} {cs : List StateChange} (hc : s.changes = c :: cs)
      (hphase : c.phase = .called) (hne : s.state ≠ c.requested) :
      SubsysMove n channels s .start
        { s with changes := { c with original := s.state, phase := .finished false } :: cs }
  | begun {c : StateChange} {cs : List StateChange} {st : SubsystemState}
      (hc : s.changes = c :: cs) (hphase : c.phase = .called)
      (hway : OnTheWay s.state c.requested st) :
      SubsysMove n channels s .start
        { s with
          state := st
          changes := { c with original := s.state, phase := s.next n 0 } :: cs }
  /-- The poll group is not there any more. -/
  | skip {c : StateChange} {cs : List StateChange} {k : ℕ} {ok : Bool} {q : FReq → QpairState}
      {done : FReq → Bool} (hc : s.changes = c :: cs) (hphase : c.phase = .moving k)
      (hg : s.group k = none) :
      SubsysMove n channels s (.visit ok q done)
        { s with changes := { c with phase := s.next n (k + 1) } :: cs }
  | visit {c : StateChange} {cs : List StateChange} {k : ℕ} {g g' : PollGroup}
      {res : Option Bool} {ok : Bool} {q : FReq → QpairState} {done : FReq → Bool}
      (hc : s.changes = c :: cs) (hphase : c.phase = .moving k) (hg : s.group k = some g)
      (hpg : subsystemStateChangeOnPg channels s.state c g ok q done = (g', res)) :
      SubsysMove n channels s (.visit ok q done)
        { s.setGroup k { g' with swept := true } with
          changes := { c with
            phase := res.elim (.visiting k) (s.subsystemStateChangeContinue n k) } :: cs }
  | removeMsg {k : ℕ} {g : PollGroup} {s' : SubsysWorld} (hg : s.group k = some g)
      (hin : g.inactive = true) (hq : g.qpairs = 0)
      (hcall : s' = (s.setGroup k g.nvmfPollGroupRemoveSubsystemMsg).callback n k) :
      SubsysMove n channels s (.removeMsg k) s'
  | done {c : StateChange} {cs : List StateChange} (hc : s.changes = c :: cs)
      (hphase : c.phase = .swept true) (hrev : c.reverting = false) :
      SubsysMove n channels s .swept
        { SubsysWorld.notePause { s with state := c.requested } c with
          changes := { c with phase := .finished true } :: cs }
  /-- A start or a resume has failed on a poll group. -/
  | back {c : StateChange} {cs : List StateChange} {st : SubsystemState}
      (hc : s.changes = c :: cs) (hphase : c.phase = .swept false) (hrev : c.reverting = false)
      (hreq : c.requested = .active) (hback : OnTheWayBack c.original st) :
      SubsysMove n channels s .swept
        { s with
          state := st
          changes := { c with
            requested := c.original, reverting := true, phase := s.next n 0 } :: cs }
  /-- A stop has. -/
  | stuck {c : StateChange} {cs : List StateChange} (hc : s.changes = c :: cs)
      (hphase : c.phase = .swept false) (hrev : c.reverting = false)
      (hreq : c.requested = .inactive) (hstate : s.state = .deactivating) :
      SubsysMove n channels s .swept
        { s with changes := { c with phase := .finished false } :: cs }
  | takenBack {c : StateChange} {cs : List StateChange} {ok : Bool} (hc : s.changes = c :: cs)
      (hphase : c.phase = .swept ok) (hrev : c.reverting = true) :
      SubsysMove n channels s .swept
        { SubsysWorld.notePause { s with state := c.original } c with
          changes := { c with phase := .finished false } :: cs }
  | finish {c : StateChange} {cs : List StateChange} {ok : Bool} (hc : s.changes = c :: cs)
      (hphase : c.phase = .finished ok) :
      SubsysMove n channels s .finish
        { s with changes := callFirst cs, answered := s.answered ++ [(c, ok)] }
  | exec {k : ℕ} {g : PollGroup} {r : FReq} {q : QpairState} {o : ExecOutcome}
      (hg : s.group k = some g) (hreq : o = .requeued → r.isFabric = true) :
      SubsysMove n channels s (.exec k r q o) (s.serve n k g (g.exec r q o))
  | complete {k : ℕ} {g : PollGroup} {r : FReq} (hg : s.group k = some g)
      (hr : r ∈ g.pg.outstanding) :
      SubsysMove n channels s (.complete k r)
        (s.serve n k g { g with pg := nvmfRequestComplete g.pg r })
  | connect {k : ℕ} {g : PollGroup} (hg : s.group k = some g) :
      SubsysMove n channels s (.connect k) (s.setGroup k { g with qpairs := g.qpairs + 1 })
  | gone {k : ℕ} {g : PollGroup} {mine : FReq → Bool} (hg : s.group k = some g)
      (hq : 0 < g.qpairs) :
      SubsysMove n channels s (.gone k mine) (s.setGroup k { g with
        qpairs := g.qpairs - 1
        pg := { g.pg with queued := g.pg.queued.filter fun r => !mine r } })
  | create {k : ℕ} (hk : k < n) (hg : s.group k = none) :
      SubsysMove n channels s (.create k) (s.setGroup k { pg := { g := freshSgroup channels } })
  | destroy {k : ℕ} {g : PollGroup} (hg : s.group k = some g) (hq : g.qpairs = 0) :
      SubsysMove n channels s (.destroy k) { s with group := Function.update s.group k none }

section Moves

variable {n k : ℕ} {channels : List Bool} {s s' : SubsysWorld} {c : StateChange}
  {cs : List StateChange} {l : SubsysLabel}

theorem head?_eq_some (h : s.changes.head? = some c) : ∃ cs, s.changes = c :: cs :=
  List.head?_eq_some_iff.mp h

theorem setHead_eq (hc : s.changes = c :: cs) (c' : StateChange) :
    s.setHead c' = { s with changes := c' :: cs } := by
  unfold SubsysWorld.setHead
  rw [hc, List.tail_cons]

theorem tail_callFirst (cs : List StateChange) : (callFirst cs).tail = cs.tail := by
  cases cs <;> rfl

theorem length_callFirst (cs : List StateChange) : (callFirst cs).length = cs.length := by
  cases cs <;> rfl

theorem called_of_head (h : c ∈ (callFirst cs).head?) : c.phase = .called := by
  cases cs with
  | nil => cases h
  | cons d ds => exact Option.some.inj h ▸ rfl

theorem mem_callFirst (h : c ∈ callFirst cs) :
    ∃ d ∈ cs, c.requested = d.requested ∧ c.reverting = d.reverting := by
  cases cs with
  | nil => cases h
  | cons d ds =>
    rcases List.mem_cons.mp h with rfl | h
    · exact ⟨d, .head _, rfl, rfl⟩
    · exact ⟨c, .tail _ h, rfl, rfl⟩

@[simp] theorem changes_notePause : (s.notePause c).changes = s.changes := by
  unfold SubsysWorld.notePause
  split
  · rfl
  · rfl

theorem HeadSound.move (h : HeadSound s) (hstep : subsysStep n channels s l = some s') :
    SubsysMove n channels s l s' := by
  cases l with
  | ask id nsid requested =>
    obtain ⟨hset, hs⟩ := Option.ite_none_right_eq_some.mp hstep
    obtain rfl := Option.some.inj hs
    exact .ask hset.1
  | start =>
    obtain ⟨c, hhead, hstep⟩ := Option.bind_eq_some_iff.mp hstep
    obtain ⟨cs, hc⟩ := head?_eq_some hhead
    obtain ⟨hphase, hstep⟩ := Option.ite_none_right_eq_some.mp hstep
    unfold SubsysWorld.nvmfSubsystemDoStateChange at hstep
    split at hstep
    · rename_i heq
      obtain rfl := Option.some.inj hstep
      rw [setHead_eq hc]
      exact .same hc hphase heq
    · rename_i hne
      have hidle : s.state.Settled ∨ s.state = .deactivating := by
        refine h.idle fun c' hc' hunder => ?_
        obtain rfl := Option.some.inj (hhead.symm.trans hc')
        rw [hphase] at hunder
        exact hunder
      have hreq := h.requested c (hc ▸ List.mem_cons_self ..)
      obtain ⟨i, hi, hset⟩ := begun_or_refused hidle hreq hne
      rw [hi] at hstep
      rcases hset with hset | ⟨st, hset, hway⟩
      · simp only [Option.bind_some, bind, hset] at hstep
        obtain rfl := Option.some.inj hstep
        rw [setHead_eq hc]
        exact .refused hc hphase hne
      · simp only [Option.bind_some, bind, hset] at hstep
        obtain rfl := Option.some.inj hstep
        rw [setHead_eq (s := { s with state := st }) hc]
        exact .begun hc hphase hway
  | visit ok q done =>
    obtain ⟨c, hhead, hstep⟩ := Option.bind_eq_some_iff.mp hstep
    obtain ⟨cs, hc⟩ := head?_eq_some hhead
    split at hstep
    · rename_i k hphase
      split at hstep
      · rename_i hg
        obtain rfl := Option.some.inj hstep
        rw [setHead_eq hc]
        exact .skip hc hphase hg
      · rename_i g hg
        obtain rfl := Option.some.inj hstep
        exact setHead_eq (s := s.setGroup k _) hc _ ▸ .visit hc hphase hg rfl
    · cases hstep
  | removeMsg k =>
    obtain ⟨g, hg, hstep⟩ := Option.bind_eq_some_iff.mp hstep
    obtain ⟨⟨hin, hq⟩, hs⟩ := Option.ite_none_right_eq_some.mp hstep
    obtain rfl := Option.some.inj hs
    exact .removeMsg hg hin hq rfl
  | swept =>
    obtain ⟨c, hhead, hstep⟩ := Option.bind_eq_some_iff.mp hstep
    obtain ⟨cs, hc⟩ := head?_eq_some hhead
    split at hstep
    · rename_i ok hphase
      have hunder : c.phase.Underway := by rw [hphase]; trivial
      cases hrev : c.reverting with
      | true =>
        obtain ⟨hreq, hback⟩ := h.back c hhead hunder hrev
        rw [hrev, if_pos rfl] at hstep
        obtain rfl := Option.some.inj hstep
        have hset : nvmfSubsystemSetState s.state c.requested = some c.original := by
          rw [hreq]
          exact hback.done
        unfold SubsysWorld.subsystemStateChangeRevertDone
        rw [hset, Option.getD_some, setHead_eq (by rw [changes_notePause]; exact hc)]
        exact .takenBack hc hphase hrev
      | false =>
        have hway := h.way c hhead hunder hrev
        rw [hrev, if_neg Bool.noConfusion] at hstep
        unfold SubsysWorld.subsystemStateChangeDone at hstep
        cases ok with
        | true =>
          rw [if_pos rfl, hway.done] at hstep
          obtain rfl := Option.some.inj hstep
          rw [setHead_eq (by rw [changes_notePause]; exact hc)]
          exact .done hc hphase hrev
        | false =>
          rw [if_neg Bool.noConfusion] at hstep
          unfold SubsysWorld.revert at hstep
          rcases h.requested c (hc ▸ List.mem_cons_self ..) with hreq | hreq | hreq
          · rw [hreq] at hway
            obtain ⟨hstate, i, hi, hset⟩ := hway.stuck
            rw [← hreq] at hi
            simp only [hi, Option.bind_some, bind, hset] at hstep
            obtain rfl := Option.some.inj hstep
            rw [setHead_eq hc]
            exact .stuck hc hphase hrev hreq hstate
          · rw [hreq] at hway
            obtain ⟨i, st, hi, hset, hback⟩ := hway.back
            rw [← hreq] at hi
            simp only [hi, Option.bind_some, bind, hset] at hstep
            obtain rfl := Option.some.inj hstep
            rw [setHead_eq (s := { s with state := st }) hc]
            exact .back hc hphase hrev hreq hback
          · exact absurd hreq (h.fails c hhead hphase)
    · cases hstep
  | finish =>
    obtain ⟨c, hhead, hstep⟩ := Option.bind_eq_some_iff.mp hstep
    obtain ⟨cs, hc⟩ := head?_eq_some hhead
    split at hstep
    · rename_i ok hphase
      obtain rfl := Option.some.inj hstep
      unfold SubsysWorld.nvmfSubsystemStateChangeComplete
      rw [hc, List.tail_cons]
      exact .finish hc hphase
    · cases hstep
  | exec k r q o =>
    obtain ⟨g, hg, hstep⟩ := Option.bind_eq_some_iff.mp hstep
    obtain ⟨hreq, hs⟩ := Option.ite_none_left_eq_some.mp hstep
    obtain rfl := Option.some.inj hs
    refine .exec hg fun ho => ?_
    by_contra hfab
    exact hreq ⟨ho, fun hand => hfab hand.1⟩
  | complete k r =>
    obtain ⟨g, hg, hstep⟩ := Option.bind_eq_some_iff.mp hstep
    obtain ⟨hr, hs⟩ := Option.ite_none_right_eq_some.mp hstep
    obtain rfl := Option.some.inj hs
    exact .complete hg hr
  | connect k =>
    obtain ⟨g, hg, hstep⟩ := Option.bind_eq_some_iff.mp hstep
    obtain rfl := Option.some.inj hstep
    exact .connect hg
  | gone k mine =>
    obtain ⟨g, hg, hstep⟩ := Option.bind_eq_some_iff.mp hstep
    obtain ⟨hq, hs⟩ := Option.ite_none_right_eq_some.mp hstep
    obtain rfl := Option.some.inj hs
    exact .gone hg hq
  | create k =>
    obtain ⟨⟨hk, hg⟩, hs⟩ := Option.ite_none_right_eq_some.mp hstep
    obtain rfl := Option.some.inj hs
    exact .create hk hg
  | destroy k =>
    obtain ⟨g, hg, hstep⟩ := Option.bind_eq_some_iff.mp hstep
    obtain ⟨hq, hs⟩ := Option.ite_none_right_eq_some.mp hstep
    obtain rfl := Option.some.inj hs
    exact .destroy hg hq

theorem next_cases (n : ℕ) (s : SubsysWorld) (k : ℕ) :
    (∃ j, s.next n k = .moving j ∧ nextFrom (fun j => (s.group j).isSome) n k = some j) ∨
      s.next n k = .swept true ∧ nextFrom (fun j => (s.group j).isSome) n k = none := by
  unfold SubsysWorld.next
  cases hnext : nextFrom (fun j => (s.group j).isSome) n k with
  | none => exact .inr ⟨rfl, rfl⟩
  | some j => exact .inl ⟨j, rfl, rfl⟩

theorem underway_next : (s.next n k).Underway := by
  rcases next_cases n s k with ⟨j, hj, -⟩ | ⟨hnone, -⟩
  · rw [hj]
    trivial
  · rw [hnone]
    trivial

theorem next_ne_failed : s.next n k ≠ .swept false := by
  rcases next_cases n s k with ⟨j, hj, -⟩ | ⟨hnone, -⟩
  · rw [hj]
    exact ChangePhase.noConfusion
  · rw [hnone]
    exact fun heq => Bool.noConfusion (ChangePhase.swept.inj heq)

theorem called_callback : SubsysWorld.Called n k s (s.callback n k) := by
  unfold SubsysWorld.callback
  split
  · rename_i c cs hc
    split
    · rename_i hphase
      exact .inr ⟨c, cs, hc, hphase, rfl⟩
    · exact .inl rfl
  · exact .inl rfl

theorem called_serve (g g' : PollGroup) :
    SubsysWorld.Called n k (s.setGroup k g') (s.serve n k g g') := by
  unfold SubsysWorld.serve
  split
  · exact called_callback
  · exact .inl rfl

/-! ## The list of changes, in every run -/

/-- The first change becomes another one. -/
theorem HeadSound.set (h : HeadSound s) (hc : s.changes = c :: cs) {c' : StateChange}
    (hc' : s'.changes = c' :: cs) (hreq : c'.requested.Settled) (hphase : ¬ c'.phase.Unbegun)
    (hidle : ¬ c'.phase.Underway → s'.state.Settled ∨ s'.state = .deactivating)
    (hway : c'.phase.Underway → c'.reverting = false → OnTheWay c'.original c'.requested s'.state)
    (hback : c'.phase.Underway → c'.reverting = true →
      c'.requested = c'.original ∧ OnTheWayBack c'.original s'.state)
    (hfails : c'.phase = .swept false → c'.requested ≠ .paused) : HeadSound s' := by
  have hhead : s'.changes.head? = some c' := by rw [hc']; rfl
  have hone : ∀ {d : StateChange}, d ∈ s'.changes.head? → d = c' := fun hd =>
    (Option.some.inj (hhead.symm.trans hd)).symm
  have hold : ∀ d ∈ cs, d ∈ s.changes := fun d hd => hc ▸ List.mem_cons_of_mem c hd
  constructor
  case requested =>
    intro d hd
    rw [hc'] at hd
    rcases List.mem_cons.mp hd with rfl | hd
    · exact hreq
    · exact h.requested d (hold d hd)
  case waiting =>
    rw [hc', List.tail_cons]
    have hwait := h.waiting
    rw [hc, List.tail_cons] at hwait
    exact hwait
  case first => exact fun d hd heq => hphase (hone hd ▸ heq ▸ trivial)
  case unbegun =>
    intro d hd hw
    rw [hc'] at hd
    rcases List.mem_cons.mp hd with rfl | hd
    · exact absurd hw hphase
    · exact h.unbegun d (hold d hd) hw
  case idle => exact fun hnot => hidle (hnot c' hhead)
  case way => exact fun d hd => hone hd ▸ hway
  case back => exact fun d hd => hone hd ▸ hback
  case fails => exact fun d hd => hone hd ▸ hfails

/-- Nothing happens to the changes. -/
theorem HeadSound.congr (h : HeadSound s) (hc : s'.changes = s.changes)
    (hstate : s'.state = s.state) : HeadSound s' := by
  constructor
  case requested => exact hc ▸ h.requested
  case waiting => exact hc ▸ h.waiting
  case first => exact hc ▸ h.first
  case unbegun => exact hc ▸ h.unbegun
  case idle => rw [hc, hstate]; exact h.idle
  case way => rw [hc, hstate]; exact h.way
  case back => rw [hc, hstate]; exact h.back
  case fails => exact hc ▸ h.fails

/-- The sweep of the first change goes on. -/
theorem HeadSound.advance (h : HeadSound s) (hc : s.changes = c :: cs) (hunder : c.phase.Underway)
    {p : ChangePhase} (hc' : s'.changes = { c with phase := p } :: cs) (hp : p.Underway)
    (hfails : p = .swept false → c.requested ≠ .paused) (hstate : s'.state = s.state) :
    HeadSound s' := by
  have hhead : s.changes.head? = some c := by rw [hc]; rfl
  refine h.set hc hc' (h.requested c (hc ▸ List.mem_cons_self ..)) (fun hu => hu.not_underway hp)
    (absurd hp) ?_ ?_ hfails
  · exact fun _ => hstate ▸ h.way c hhead hunder
  · exact fun _ => hstate ▸ h.back c hhead hunder

theorem HeadSound.called (h : HeadSound s) (hcall : SubsysWorld.Called n k s s') :
    HeadSound s' := by
  rcases hcall with rfl | ⟨c, cs, hc, hphase, rfl⟩
  · exact h
  · exact h.advance hc (by rw [hphase]; trivial) rfl underway_next
      (fun heq => absurd heq next_ne_failed) rfl

/-- Where a poll group fails, the change is not a pause. -/
theorem onPg_failed {state : SubsystemState} {g g' : PollGroup} {ok : Bool} {q : FReq → QpairState}
    {done : FReq → Bool}
    (h : subsystemStateChangeOnPg channels state c g ok q done = (g', some false)) :
    c.requested ≠ .paused := by
  intro hreq
  unfold subsystemStateChangeOnPg at h
  rw [hreq] at h
  dsimp only at h
  have hres := congrArg Prod.snd h
  dsimp only at hres
  split at hres
  · cases hres
  · cases hres

theorem OnTheWay.settled {orig req st : SubsystemState} (h : OnTheWay orig req st) :
    orig.Settled ∧ req.Settled := by
  cases h <;> exact ⟨by decide, by decide⟩

theorem OnTheWayBack.settled {orig st : SubsystemState} (h : OnTheWayBack orig st) :
    orig.Settled := by
  cases h <;> decide

@[simp] theorem state_notePause : (s.notePause c).state = s.state := by
  unfold SubsysWorld.notePause
  split
  · rfl
  · rfl

/-- The first change is over, for the poll groups. -/
theorem HeadSound.over (h : HeadSound s) (hc : s.changes = c :: cs) {c' : StateChange} {ok : Bool}
    (hc' : s'.changes = c' :: cs) (hreq : c'.requested = c.requested)
    (hphase : c'.phase = .finished ok) (hstate : s'.state.Settled ∨ s'.state = .deactivating) :
    HeadSound s' := by
  have hnot : ¬ c'.phase.Underway := by
    rw [hphase]
    exact id
  refine h.set hc hc' (hreq ▸ h.requested c (hc ▸ .head _)) ?_ (fun _ => hstate)
    (fun hu => absurd hu hnot) (fun hu => absurd hu hnot) ?_
  · rw [hphase]
    exact id
  · rw [hphase]
    exact ChangePhase.noConfusion

/-- The first change is sent to the poll groups, there or back. -/
theorem HeadSound.sent (h : HeadSound s) (hc : s.changes = c :: cs) {c' : StateChange}
    {w : SubsysWorld} (hc' : s'.changes = c' :: cs) (hreq : c'.requested.Settled)
    (hphase : c'.phase = w.next n k)
    (hway : c'.reverting = false → OnTheWay c'.original c'.requested s'.state)
    (hback : c'.reverting = true →
      c'.requested = c'.original ∧ OnTheWayBack c'.original s'.state) : HeadSound s' := by
  have hunder : c'.phase.Underway := hphase ▸ underway_next
  refine h.set hc hc' hreq (fun hu => hu.not_underway hunder) (absurd hunder) (fun _ => hway)
    (fun _ => hback) ?_
  exact fun heq => absurd (hphase.symm.trans heq) next_ne_failed

theorem headSound_init : HeadSound {} where
  requested _ hc := by cases hc
  waiting _ hc := by cases hc
  first _ hc := by cases hc
  unbegun _ hc := by cases hc
  idle _ := .inl (.inl rfl)
  way _ hc := by cases hc
  back _ hc := by cases hc
  fails _ hc := by cases hc

/-- A change is put at the end of the list. -/
theorem HeadSound.ask (h : HeadSound s) {c : StateChange} (hreq : c.requested.Settled)
    (hphase : c.phase = if s.changes.isEmpty then .called else .waiting)
    (hrev : c.reverting = false) : HeadSound { s with changes := s.changes ++ [c] } := by
  have hun : c.phase.Unbegun := by
    rw [hphase]
    split <;> trivial
  have hnot := hun.not_underway
  -- the first change is the first of the old list, or the new one if that was empty
  have hhead : ∀ d ∈ (s.changes ++ [c]).head?, d ∈ s.changes.head? ∨ d = c := by
    intro d hd
    cases hcs : s.changes with
    | nil =>
      rw [hcs] at hd
      exact .inr (Option.some.inj hd).symm
    | cons e es =>
      rw [hcs] at hd
      exact .inl hd
  have hall : ∀ d ∈ s.changes ++ [c], d ∈ s.changes ∨ d = c := fun d hd =>
    (List.mem_append.mp hd).imp_right List.mem_singleton.mp
  constructor
  case requested =>
    intro d hd
    rcases hall d hd with hd | rfl
    · exact h.requested d hd
    · exact hreq
  case waiting =>
    intro d hd
    cases hcs : s.changes with
    | nil =>
      rw [hcs] at hd
      cases hd
    | cons e es =>
      rw [hcs, List.cons_append, List.tail_cons] at hd
      rcases List.mem_append.mp hd with hd | hd
      · exact h.waiting d (by rw [hcs]; exact hd)
      · rw [List.mem_singleton.mp hd, hphase, hcs]
        rfl
  case first =>
    intro d hd
    cases hcs : s.changes with
    | nil =>
      rw [hcs] at hd hphase
      rw [← Option.some.inj hd, hphase]
      nofun
    | cons e es =>
      rw [hcs] at hd
      exact h.first d (hcs ▸ hd)
  case unbegun =>
    intro d hd hw
    rcases hall d hd with hd | rfl
    · exact h.unbegun d hd hw
    · exact hrev
  case idle =>
    intro hidle
    refine h.idle fun d hd => hidle d ?_
    rw [List.head?_append, Option.mem_def.mp hd]
    rfl
  case way =>
    intro d hd hu hr
    rcases hhead d hd with hd | rfl
    · exact h.way d hd hu hr
    · exact absurd hu hnot
  case back =>
    intro d hd hu hr
    rcases hhead d hd with hd | rfl
    · exact h.back d hd hu hr
    · exact absurd hu hnot
  case fails =>
    intro d hd heq
    rcases hhead d hd with hd | rfl
    · exact h.fails d hd heq
    · rw [heq] at hun
      exact hun.elim

/-- A change has had its callback. -/
theorem HeadSound.finish (h : HeadSound s) (hc : s.changes = c :: cs) {ok : Bool}
    (hphase : c.phase = .finished ok) (hc' : s'.changes = callFirst cs)
    (hstate : s'.state = s.state) : HeadSound s' := by
  have hold : ∀ d ∈ cs, d ∈ s.changes := fun d hd => hc ▸ List.mem_cons_of_mem c hd
  have hwait : ∀ d ∈ cs, d.phase = .waiting := by
    have hwait := h.waiting
    rw [hc, List.tail_cons] at hwait
    exact hwait
  have hnot : ∀ d ∈ s'.changes.head?, d.phase = .called := fun d hd =>
    called_of_head (hc' ▸ hd)
  constructor
  case requested =>
    intro d hd
    obtain ⟨e, he, hreq, -⟩ := mem_callFirst (hc' ▸ hd)
    exact hreq ▸ h.requested e (hold e he)
  case waiting =>
    rw [hc', tail_callFirst]
    exact fun d hd => hwait d (List.mem_of_mem_tail hd)
  case first =>
    intro d hd
    rw [hnot d hd]
    nofun
  case unbegun =>
    intro d hd _
    obtain ⟨e, he, -, hrev⟩ := mem_callFirst (hc' ▸ hd)
    exact hrev.trans (h.unbegun e (hold e he) (hwait e he ▸ trivial))
  case idle =>
    refine fun _ => hstate ▸ h.idle fun d hd => ?_
    rw [hc] at hd
    obtain rfl := Option.some.inj hd
    rw [hphase]
    exact id
  case way =>
    intro d hd hu
    rw [hnot d hd] at hu
    exact hu.elim
  case back =>
    intro d hd hu
    rw [hnot d hd] at hu
    exact hu.elim
  case fails =>
    intro d hd heq
    rw [hnot d hd] at heq
    cases heq

/-- **One step.** -/
theorem HeadSound.step (h : HeadSound s) (hstep : subsysStep n channels s l = some s') :
    HeadSound s' := by
  have hmem : ∀ {c : StateChange} {cs : List StateChange}, s.changes = c :: cs →
      c ∈ s.changes ∧ s.changes.head? = some c := fun hc => by
    rw [hc]
    exact ⟨.head _, rfl⟩
  -- a change that has not got to the poll groups has left the state alone
  have hidle : ∀ {c : StateChange} {cs : List StateChange}, s.changes = c :: cs →
      c.phase = .called → s.state.Settled ∨ s.state = .deactivating := fun hc hphase =>
    h.idle fun d hd hu => by
      obtain rfl := Option.some.inj ((hmem hc).2.symm.trans hd)
      rw [hphase] at hu
      exact hu
  cases h.move hstep with
  | ask hset => exact h.ask hset rfl rfl
  | same hc hphase heq => exact h.over hc rfl rfl rfl (hidle hc hphase)
  | refused hc hphase hne => exact h.over hc rfl rfl rfl (hidle hc hphase)
  | @begun c cs st hc hphase hway =>
    refine h.sent hc rfl (h.requested c (hmem hc).1) rfl (fun _ => hway) fun hrev => ?_
    rw [h.unbegun c (hmem hc).1 (hphase ▸ trivial)] at hrev
    cases hrev
  | skip hc hphase hg =>
    exact h.advance hc (by rw [hphase]; trivial) rfl underway_next
      (fun heq => absurd heq next_ne_failed) rfl
  | @visit c cs k g g' res ok q done hc hphase hg hpg =>
    have hunder : c.phase.Underway := by
      rw [hphase]
      trivial
    cases res with
    | none => exact h.advance hc hunder rfl trivial ChangePhase.noConfusion rfl
    | some ok' =>
      cases ok' with
      | true =>
        exact h.advance hc hunder rfl underway_next (fun heq => absurd heq next_ne_failed) rfl
      | false => exact h.advance hc hunder rfl trivial (fun _ => onPg_failed hpg) rfl
  | @removeMsg k g _ hg hin hq hcall =>
    have hset : HeadSound (s.setGroup k g.nvmfPollGroupRemoveSubsystemMsg) := h.congr rfl rfl
    exact hset.called (hcall ▸ called_callback)
  | @done c cs hc hphase hrev =>
    refine h.over hc rfl rfl rfl (.inl ?_)
    rw [state_notePause]
    exact h.requested c (hmem hc).1
  | @back c cs st hc hphase hrev hreq hback =>
    exact h.sent hc rfl hback.settled rfl (fun hr => by cases hr) fun _ => ⟨rfl, hback⟩
  | stuck hc hphase hrev hreq hstate => exact h.over hc rfl rfl rfl (.inr hstate)
  | @takenBack c cs ok hc hphase hrev =>
    have hunder : c.phase.Underway := by
      rw [hphase]
      trivial
    refine h.over hc rfl rfl rfl (.inl ?_)
    rw [state_notePause]
    exact (h.back c (hmem hc).2 hunder hrev).2.settled
  | finish hc hphase => exact h.finish hc hphase rfl rfl
  | @exec k g r q o hg hreq =>
    have hset : HeadSound (s.setGroup k (g.exec r q o)) := h.congr rfl rfl
    exact hset.called (called_serve _ _)
  | @complete k g r hg hr =>
    have hset : HeadSound (s.setGroup k { g with pg := nvmfRequestComplete g.pg r }) :=
      h.congr rfl rfl
    exact hset.called (called_serve _ _)
  | connect hg => exact h.congr rfl rfl
  | gone hg hq => exact h.congr rfl rfl
  | create hk hg => exact h.congr rfl rfl
  | destroy hg hq => exact h.congr rfl rfl

theorem HeadSound.of_reach {P : SubsysWorld → SubsysLabel → Prop}
    (h : (subsysSys n channels).Reach P s) : HeadSound s :=
  h.invariant headSound_init fun _ _ _ hs _ hstep => hs.step hstep

end Moves

end NdpHeaan
