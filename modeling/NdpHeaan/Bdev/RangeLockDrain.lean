import Mathlib.Data.Finset.Card
import NdpHeaan.Bdev.RangeLockRun

/-!
# Bdev/RangeLockDrain — the range locks of a bdev can always be wound up

When no new lock is asked for and no new I/O is submitted, the messages that are on their way, the
I/O in flight and the holders of the locks are enough: from every state that a run reaches, all
locks can be taken and given back.  That is so where no I/O in flight is split: a split one needs
children that the lock may hold back.  A lock is wound up by going through its phases; what a lock
that waits has in its way is wound up first.
-/

open Machinery

namespace NdpHeaan

variable {β : Type}

/-- What winds up the locks: messages get to their threads, I/O is completed, and holders give their
locks back. -/
def LockLabel.Winding : LockLabel β → Prop
  | .start _ | .poll _ | .complete _ | .unlock _ | .finish .. => True
  | .visit _ ok => ok = true
  | _ => False

/-- A lock can be brought to a context, with the other locks as they are. -/
structure BroughtTo (n c : ℕ) (s : LockState β) (y : LockCtx) (s' : LockState β) : Prop where
  leads : (lockSys β n).Leads LockLabel.Winding s s'
  ctx : s'.ctx = Function.update s.ctx c (some y)

section Winding

variable {n c : ℕ} {s s' : LockState β} {x y z : LockCtx}

theorem LockSound.leads (h : LockSound n s) (hl : (lockSys β n).Leads LockLabel.Winding s s') :
    LockSound n s' := by
  refine Sys.Leads.invariant (fun s l s' hs hl hstep => hs.step ?_ hstep) h hl
  cases l with
  | visit c ok => exact hl
  | lock => cases hl
  | destroy => cases hl
  | _ => trivial

theorem BroughtTo.refl (hx : s.ctx c = some x) : BroughtTo n c s x s :=
  ⟨.refl s, (Function.update_eq_self_iff.mpr hx.symm).symm⟩

theorem BroughtTo.ctx_self (h : BroughtTo n c s y s') : s'.ctx c = some y := by
  rw [h.ctx]
  exact Function.update_self ..

theorem BroughtTo.trans {s'' : LockState β} (h : BroughtTo n c s y s')
    (h' : BroughtTo n c s' z s'') :
    BroughtTo n c s z s'' where
  leads := h.leads.trans h'.leads
  ctx := by rw [h'.ctx, h.ctx, Function.update_idem]

/-- The I/O in the hands of a thread is completed. -/
theorem leads_finishAll {t : ℕ} : ∀ (ios : List (BdevIo β)) {ch : BdevChannel β} {s : LockState β},
    s.chan t = some ch → ch.submitted = ios →
    (lockSys β n).Leads LockLabel.Winding s (s.setChan t { ch with submitted := [] })
  | [], ch, s, hch, hios => by
      have hself : s.setChan t { ch with submitted := [] } = s := by
        rw [← hios]
        exact LockState.setChan_self hch
      rw [hself]
      exact .refl s
  | io :: ios, ch, s, hch, hios => by
      have hstep : (lockSys β n).step s (.finish t 0)
          = some (s.setChan t { ch with submitted := ios }) := by
        show lockStep n s (.finish t 0) = _
        simp only [lockStep, hch, hios, Option.bind_some, List.length_cons, Nat.zero_lt_succ,
          if_true, List.eraseIdx_cons_zero, bind]
      have hrest := leads_finishAll ios (s := s.setChan t { ch with submitted := ios })
        (Function.update_self ..) rfl
      rw [LockState.setChan_setChan] at hrest
      exact .head (l := .finish t 0) trivial hstep hrest

/-- …and no other context than those is changed by it. -/
theorem broughtTo_finishAll {t : ℕ} {ch : BdevChannel β} (hx : s.ctx c = some x)
    (hch : s.chan t = some ch) :
    BroughtTo n c s x (s.setChan t { ch with submitted := [] }) :=
  ⟨leads_finishAll ch.submitted hch rfl, (Function.update_eq_self_iff.mpr hx.symm).symm⟩

theorem next_bounds {k t : ℕ} (h : s.next n (k + 1) = some t) : k < t ∧ t < n :=
  ⟨(nextFrom_eq_some h).1, (nextFrom_eq_some h).2.1⟩

/-- The I/O that a thread waits for is completed, and the sweep goes on. -/
theorem exists_broughtTo_poll {t : ℕ} {ch : BdevChannel β} (hx : s.ctx c = some x)
    (hphase : x.phase = .checking t) (hch : s.chan t = some ch) : ∃ s' y pos, BroughtTo n c s y s' ∧
      y.phase = .locking pos ∧ ∀ k ∈ pos, t < k ∧ k < n := by
  let m := s.setChan t { ch with submitted := [] }
  have hstep : lockStep n m (.poll c)
      = some (m.setCtx c { x with phase := .locking (m.next n (t + 1)) }) := by
    have hm : m.chan t = some { ch with submitted := [] } := Function.update_self ..
    have hmx : m.ctx c = some x := hx
    simp only [lockStep, hmx, hphase, hm, Option.bind_some, Option.map_some, bind,
      LockState.bdevLockLbaRangeCheckIo, List.any_nil, Bool.false_eq_true, if_false]
  have hpoll : BroughtTo n c m { x with phase := .locking (m.next n (t + 1)) }
      (m.setCtx c { x with phase := .locking (m.next n (t + 1)) }) :=
    ⟨.single (l := .poll c) trivial hstep, rfl⟩
  exact ⟨_, _, m.next n (t + 1), (broughtTo_finishAll hx hch).trans hpoll, rfl,
    fun k hk => next_bounds hk⟩

/-- A thread gets its message: the sweep goes on, or the thread waits. -/
theorem exists_broughtTo_getChannel {t : ℕ} (hx : s.ctx c = some x)
    (hphase : x.phase = .locking (some t)) : ∃ s' y, BroughtTo n c s y s' ∧
      ((∃ ch, y.phase = .checking t ∧ s'.chan t = some ch) ∨
        ∃ pos, y.phase = .locking pos ∧ ∀ k ∈ pos, t < k ∧ k < n) := by
  have hbounds : ∀ {m : LockState β}, ∀ k ∈ m.next n (t + 1), t < k ∧ k < n := fun k hk =>
    next_bounds hk
  have hvisit : ∀ {s'}, lockVisit n s c x true = some s' →
      (lockSys β n).Leads LockLabel.Winding s s' := by
    intro s' hs
    refine .single (l := .visit c true) rfl ?_
    show lockStep n s (.visit c true) = _
    simp only [lockStep, hx, Option.bind_some, bind]
    exact hs
  cases hch : s.chan t with
  | none =>
    have hskip : lockVisit n s c x true =
        some (s.setCtx c { x with phase := .locking (s.next n (t + 1)) }) := by
      simp only [lockVisit, hphase, hch]
    exact ⟨_, _, ⟨hvisit hskip, rfl⟩, .inr ⟨_, rfl, hbounds⟩⟩
  | some ch =>
    have hget : lockVisit n s c x true = some (s.bdevLockLbaRangeGetChannel n c x t ch true) := by
      simp only [lockVisit, hphase, hch]
    have hleads := hvisit hget
    unfold LockState.bdevLockLbaRangeGetChannel at hleads
    split at hleads
    · exact ⟨_, _, ⟨hleads, rfl⟩, .inr ⟨_, rfl, hbounds⟩⟩
    rw [if_neg Bool.noConfusion] at hleads
    unfold LockState.bdevLockLbaRangeCheckIo at hleads
    dsimp only at hleads
    split at hleads
    · exact ⟨_, _, ⟨hleads, rfl⟩, .inl ⟨_, rfl, Function.update_self ..⟩⟩
    · exact ⟨_, _, ⟨hleads, rfl⟩, .inr ⟨_, rfl, hbounds⟩⟩

/-- A lock gets to its last thread. -/
theorem exists_broughtTo_locked : ∀ (m : ℕ) {s : LockState β} {x : LockCtx} {pos : Option ℕ},
    s.ctx c = some x → x.phase = .locking pos → (∀ k ∈ pos, n - k < m) →
    ∃ s' y, BroughtTo n c s y s' ∧ y.phase = .locking none
  | m, s, x, none, hx, hphase, _ => ⟨s, x, .refl hx, hphase⟩
  | 0, s, x, some t, _, _, hpos => absurd (hpos t rfl) (Nat.not_lt_zero _)
  | m + 1, s, x, some t, hx, hphase, hpos => by
      have hlt := hpos t rfl
      have hgo : ∃ s' y pos, BroughtTo n c s y s' ∧ y.phase = .locking pos ∧
          ∀ k ∈ pos, t < k ∧ k < n := by
        obtain ⟨s', y, hy, ⟨ch, hcheck, hch⟩ | ⟨pos, hlock, hpos⟩⟩ :=
          exists_broughtTo_getChannel (n := n) hx hphase
        · obtain ⟨s'', z, pos, hz, hlock, hpos⟩ :=
            exists_broughtTo_poll (n := n) hy.ctx_self hcheck hch
          exact ⟨s'', z, pos, hy.trans hz, hlock, hpos⟩
        · exact ⟨s', y, pos, hy, hlock, hpos⟩
      obtain ⟨s', y, pos', hy, hlock, hpos'⟩ := hgo
      obtain ⟨s'', z, hz, hend⟩ := exists_broughtTo_locked m hy.ctx_self hlock fun k hk => by
        obtain ⟨htk, hkn⟩ := hpos' k hk
        omega
      exact ⟨s'', z, hy.trans hz, hend⟩

/-- …and when it is given back, too. -/
theorem exists_broughtTo_unlocked : ∀ (m : ℕ) {s : LockState β} {x : LockCtx} {pos : Option ℕ},
    s.ctx c = some x → x.phase = .unlocking pos → (∀ k ∈ pos, n - k < m) →
    ∃ s' y, BroughtTo n c s y s' ∧ y.phase = .unlocking none
  | m, s, x, none, hx, hphase, _ => ⟨s, x, .refl hx, hphase⟩
  | 0, s, x, some t, _, _, hpos => absurd (hpos t rfl) (Nat.not_lt_zero _)
  | m + 1, s, x, some t, hx, hphase, hpos => by
      have hlt := hpos t rfl
      have hgo : ∃ s', BroughtTo n c s { x with phase := .unlocking (s.next n (t + 1)) } s' := by
        have hstep : ∃ chan, lockStep n s (.visit c true) =
            some { s.setCtx c { x with phase := .unlocking (s.next n (t + 1)) } with chan } := by
          simp only [lockStep, lockVisit, hx, hphase, Option.bind_some, bind]
          cases s.chan t with
          | none => exact ⟨s.chan, rfl⟩
          | some ch => exact ⟨_, rfl⟩
        obtain ⟨chan, hstep⟩ := hstep
        exact ⟨_, .single (l := .visit c true) rfl hstep, rfl⟩
      obtain ⟨s', hy⟩ := hgo
      obtain ⟨s'', z, hz, hend⟩ := exists_broughtTo_unlocked m hy.ctx_self rfl fun k hk => by
        obtain ⟨htk, hkn⟩ := next_bounds hk
        omega
      exact ⟨s'', z, hy.trans hz, hend⟩

theorem isSome_ctx_startPending (s : LockState β) (seg : Seg) (p d : ℕ) :
    ((s.startPending seg p).ctx d).isSome = (s.ctx d).isSome := by
  unfold LockState.startPending
  split
  · rfl
  · rename_i y hy
    split
    · by_cases hdp : d = p
      · simp [LockState.setCtx, hdp, hy]
      · simp [LockState.setCtx, hdp]
    · rfl

theorem isSome_ctx_foldl_startPending (seg : Seg) (d : ℕ) : ∀ (ps : List ℕ) (s : LockState β),
    ((ps.foldl (fun s p => s.startPending seg p) s).ctx d).isSome = (s.ctx d).isSome
  | [], _ => rfl
  | p :: ps, s => by
      rw [List.foldl_cons, isSome_ctx_foldl_startPending seg d ps, isSome_ctx_startPending]

/-- The lock is gone and the others are there. -/
structure Retired (n c : ℕ) (s s' : LockState β) : Prop where
  leads : (lockSys β n).Leads LockLabel.Winding s s'
  gone : s'.ctx c = none
  others : ∀ d, d ≠ c → (s'.ctx d).isSome = (s.ctx d).isSome

theorem BroughtTo.retired {s'' : LockState β} (h : BroughtTo n c s y s') (h' : Retired n c s' s'') :
    Retired n c s s'' where
  leads := h.leads.trans h'.leads
  gone := h'.gone
  others d hd := by rw [h'.others d hd, h.ctx, Function.update_of_ne hd]

/-- A lock that is given back. -/
theorem exists_retired_of_unlocking {pos : Option ℕ} (hx : s.ctx c = some x)
    (hphase : x.phase = .unlocking pos) : ∃ s', Retired n c s s' := by
  obtain ⟨m, y, hy, hend⟩ := exists_broughtTo_unlocked (n := n) (n + 1) hx hphase
    fun k _ => Nat.lt_succ_of_le (Nat.sub_le ..)
  refine ⟨m.bdevUnlockLbaRangeCb c y, hy.retired ⟨.single (l := .complete c) trivial ?_,
    Function.update_self .., fun d hd => ?_⟩⟩
  · show lockStep n m (.complete c) = _
    simp only [lockStep, lockComplete, hy.ctx_self, hend, Option.bind_some, bind]
  · unfold LockState.bdevUnlockLbaRangeCb
    dsimp only
    rw [Function.update_of_ne hd, isSome_ctx_foldl_startPending]

/-- A lock that is granted. -/
theorem LockSound.exists_retired_of_granted (h : LockSound n s) (hx : s.ctx c = some x)
    (hphase : x.phase = .granted) : ∃ s', Retired n c s s' := by
  have hstep : lockStep n s (.unlock c) = some (s.bdevUnlockLbaRange n c x) := by
    simp only [lockStep, hx, hphase, Option.bind_some, bind, if_true]
  rw [h.bdevUnlockLbaRange_eq hx hphase] at hstep
  have hy : BroughtTo n c s { x with phase := .unlocking (s.next n 0) } _ :=
    ⟨.single (l := .unlock c) trivial hstep, rfl⟩
  obtain ⟨s', hs'⟩ := exists_retired_of_unlocking hy.ctx_self rfl
  exact ⟨s', hy.retired hs'⟩

/-- A lock that is being taken. -/
theorem LockSound.exists_retired_of_locking (h : LockSound n s) {pos : Option ℕ}
    (hx : s.ctx c = some x) (hphase : x.phase = .locking pos) : ∃ s', Retired n c s s' := by
  obtain ⟨m, y, hy, hend⟩ := exists_broughtTo_locked (n := n) (n + 1) hx hphase
    fun k _ => Nat.lt_succ_of_le (Nat.sub_le ..)
  have hgrant : BroughtTo n c m { y with phase := .granted } (m.bdevLockLbaRangeCb c y) := by
    refine ⟨.single (l := .complete c) trivial ?_, ?_⟩
    · show lockStep n m (.complete c) = _
      simp only [lockStep, lockComplete, hy.ctx_self, hend, Option.bind_some, bind]
    · unfold LockState.bdevLockLbaRangeCb
      dsimp only
      split <;> rfl
  obtain ⟨s', hs'⟩ := (h.leads (hy.trans hgrant).leads).exists_retired_of_granted
    hgrant.ctx_self rfl
  exact ⟨s', (hy.trans hgrant).retired hs'⟩

/-- **A lock that does not wait can be wound up.** -/
theorem LockSound.exists_retired (h : LockSound n s) (hx : s.ctx c = some x)
    (hne : x.phase ≠ .pending) : ∃ s', Retired n c s s' := by
  cases hphase : x.phase with
  | pending => exact absurd hphase hne
  | started =>
    have hstep : lockStep n s (.start c)
        = some (s.setCtx c { x with phase := .locking (s.next n 0) }) := by
      simp only [lockStep, hx, hphase, Option.bind_some, bind, if_true]
    have hy : BroughtTo n c s { x with phase := .locking (s.next n 0) } _ :=
      ⟨.single (l := .start c) trivial hstep, rfl⟩
    obtain ⟨s', hs'⟩ := (h.leads hy.leads).exists_retired_of_locking hy.ctx_self rfl
    exact ⟨s', hy.retired hs'⟩
  | locking pos => exact h.exists_retired_of_locking hx hphase
  | checking t =>
    obtain ⟨ch, hch⟩ := Option.isSome_iff_exists.mp ((h.locks c x hx).checking t hphase)
    obtain ⟨m, y, pos, hy, hlock, -⟩ := exists_broughtTo_poll (n := n) hx hphase hch
    obtain ⟨s', hs'⟩ := (h.leads hy.leads).exists_retired_of_locking hy.ctx_self hlock
    exact ⟨s', hy.retired hs'⟩
  | granted => exact h.exists_retired_of_granted hx hphase
  | unlocking pos => exact exists_retired_of_unlocking hx hphase
  | failed => exact absurd hphase (h.not_failing hx).1
  | failing pos => exact absurd hphase ((h.not_failing hx).2 pos)

/-- All locks of a finite set can be wound up: one that waits has one in its way that does not. -/
theorem LockSound.exists_drained : ∀ (m : ℕ) {S : Finset ℕ} {s : LockState β}, S.card = m →
    LockSound n s → (∀ c, (s.ctx c).isSome → c ∈ S) →
    ∃ s', (lockSys β n).Leads LockLabel.Winding s s' ∧ ∀ c, s'.ctx c = none
  | m, S, s, hcard, h, hS => by
      by_cases hlive : ∃ c x, s.ctx c = some x ∧ x.phase ≠ .pending
      · obtain ⟨c, x, hx, hne⟩ := hlive
        have hc : c ∈ S := hS c (by simp [hx])
        obtain ⟨k, rfl⟩ : ∃ k, m = k + 1 :=
          Nat.exists_eq_succ_of_ne_zero (hcard ▸ (Finset.card_pos.mpr ⟨c, hc⟩).ne')
        obtain ⟨s', hs'⟩ := h.exists_retired hx hne
        have hrest : ∀ d, (s'.ctx d).isSome → d ∈ S.erase c := by
          intro d hd
          have hdc : d ≠ c := by
            rintro rfl
            rw [hs'.gone] at hd
            cases hd
          exact Finset.mem_erase.mpr ⟨hdc, hS d (hs'.others d hdc ▸ hd)⟩
        obtain ⟨s'', hs'', hnone⟩ := LockSound.exists_drained k
          (by rw [Finset.card_erase_of_mem hc, hcard]; rfl) (h.leads hs'.leads) hrest
        exact ⟨s'', hs'.leads.trans hs'', hnone⟩
      · refine ⟨s, .refl s, fun c => Option.eq_none_iff_forall_ne_some.mpr fun x hx => ?_⟩
        have hall : ∀ d, ∀ y ∈ s.ctx d, y.phase = .pending := fun d y hy => by
          by_contra hne
          exact hlive ⟨d, y, hy, hne⟩
        obtain ⟨d, y, hy, hyp, -⟩ := h.blocked c x hx (hall c x hx)
        exact hyp (hall d y hy)

/-- Only a lock that is asked for is a new one. -/
theorem LockSound.isSome_ctx_of_step (h : LockSound n s) {l : LockLabel β} {d : ℕ}
    (hsafe : LockSafe s l) (hstep : lockStep n s l = some s') (hd : (s'.ctx d).isSome) :
    (s.ctx d).isSome ∨ ∃ seg owner, l = .lock d seg owner := by
  have hlife := h.life hsafe hstep d
  generalize s.ctx d = o at hlife ⊢
  generalize s'.ctx d = o' at hlife hd
  cases hlife with
  | away | free => cases hd
  | lock => exact .inr ⟨_, _, rfl⟩
  | stays | grant | unlock => exact .inl rfl

/-- A run has asked for finitely many locks. -/
theorem exists_finset_ctx (h : (lockSys β n).Reach LockSafe s) :
    ∃ S : Finset ℕ, ∀ c, (s.ctx c).isSome → c ∈ S := by
  refine h.invariant_of_reach (I := fun s => ∃ S : Finset ℕ, ∀ c, (s.ctx c).isSome → c ∈ S)
    ⟨∅, fun c hc => by cases hc⟩ ?_
  intro s l s' hreach ⟨S, hS⟩ hsafe hstep
  have hnew : ∀ {d}, (s'.ctx d).isSome → d ∈ S ∨ ∃ seg owner, l = .lock d seg owner := fun hd =>
    ((LockSound.of_reach hreach).isSome_ctx_of_step hsafe hstep hd).imp (hS _) id
  by_cases hlock : ∃ c seg owner, l = .lock c seg owner
  · obtain ⟨c, seg, owner, rfl⟩ := hlock
    refine ⟨insert c S, fun d hd => ?_⟩
    rcases hnew hd with hold | ⟨_, _, heq⟩
    · exact Finset.mem_insert_of_mem hold
    · rw [(LockLabel.lock.inj heq).1]
      exact Finset.mem_insert_self ..
  · refine ⟨S, fun d hd => (hnew hd).resolve_right ?_⟩
    rintro ⟨seg, owner, heq⟩
    exact hlock ⟨d, seg, owner, heq⟩

/-- **The locks of a bdev can always be wound up**: from every state that a run reaches, the
messages on their way, the completion of I/O and the holders' unlocking lead to one without locks,
in which nothing is held back. -/
theorem rangeLock_drains (h : (lockSys β n).Reach LockSafe s) :
    ∃ ls s', (∀ l ∈ ls, LockLabel.Winding l) ∧ (lockSys β n).run s ls = some s' ∧
      (∀ c, s'.ctx c = none) ∧ ∀ t, ∀ ch ∈ s'.chan t, ch.held = [] := by
  have hs := LockSound.of_reach h
  obtain ⟨S, hS⟩ := exists_finset_ctx h
  obtain ⟨s', ⟨ls, hls, hrun⟩, hnone⟩ := hs.exists_drained S.card rfl hS
  refine ⟨ls, s', hls, hrun, hnone, fun t ch hch => ?_⟩
  refine List.eq_nil_iff_forall_not_mem.mpr fun io hio => ?_
  have hs' := hs.leads ⟨ls, hls, hrun⟩
  obtain ⟨r, hr, -⟩ := (hs'.chans t ch hch).held io hio
  obtain ⟨x, hx, -⟩ := (hs'.chans t ch hch).copies r hr
  simp [hnone r.ctx] at hx

theorem rangeLock_drains_twoThreads : ∃ s : LockState Unit,
    (lockSys Unit 2).run (lockSys Unit 2).init twoThreads = some s ∧
    ∃ ls s', (∀ l ∈ ls, LockLabel.Winding l) ∧ (lockSys Unit 2).run s ls = some s' ∧
      (∀ c, s'.ctx c = none) ∧ ∀ t, ∀ ch ∈ s'.chan t, ch.held = [] :=
  ⟨_, rfl, rangeLock_drains (reach_twoThreads rfl)⟩

end Winding

end NdpHeaan
