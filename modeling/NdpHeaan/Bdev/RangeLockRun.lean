import NdpHeaan.Bdev.RangeLockSound

/-!
# Bdev/RangeLockRun — runs of the range locks

What a step can do (`LockSound.Move`), what it keeps (`LockSound.step`), and how it looks to the
holder of a lock (`LockSound.life`).  In every run a granted lock keeps other writers out
(`rangeLock_exclusive`), and nothing is held back for a lock that is not there
(`rangeLock_unstranded`).
-/

open Machinery

namespace NdpHeaan

namespace LockSound

variable {β : Type} {n c : ℕ} {s : LockState β} {x y : LockCtx}

theorem not_failing (h : LockSound n s) (hx : s.ctx c = some x) :
    x.phase ≠ .failed ∧ ∀ pos, x.phase ≠ .failing pos := by
  constructor
  · intro hphase
    rcases (h.locks c x hx).phase with hp | hp | hp <;> rw [hphase] at hp <;> cases hp
  · intro pos hphase
    rcases (h.locks c x hx).phase with hp | hp | hp <;> rw [hphase] at hp <;> cases hp

/-- What a step does, when copies are allocated. -/
inductive Move (n : ℕ) (s : LockState β) : LockLabel β → LockState β → Prop
  | lock {c : ℕ} {seg : Seg} {owner : Option ℕ} (hc : s.ctx c = none)
      (howner : ∀ t ∈ owner, (s.chan t).isSome) :
      Move n s (.lock c seg owner) (s.bdevLockLbaRange n c seg owner)
  | start {c : ℕ} {x : LockCtx} (hx : s.ctx c = some x) (hphase : x.phase = .started) :
      Move n s (.start c) (s.setCtx c { x with phase := .locking (s.next n 0) })
  /-- The sweep of a lock comes to a thread without a channel. -/
  | skip {c t : ℕ} {x : LockCtx} (hx : s.ctx c = some x) (hphase : x.phase = .locking (some t))
      (hch : s.chan t = none) :
      Move n s (.visit c true) (s.setCtx c { x with phase := .locking (s.next n (t + 1)) })
  | getChannel {c t : ℕ} {x : LockCtx} {ch : BdevChannel β} (hx : s.ctx c = some x)
      (hphase : x.phase = .locking (some t)) (hch : s.chan t = some ch) :
      Move n s (.visit c true) (s.bdevLockLbaRangeGetChannel n c x t ch true)
  /-- The sweep of an unlock comes to a thread without a channel. -/
  | unskip {c t : ℕ} {x : LockCtx} (hx : s.ctx c = some x) (hphase : x.phase = .unlocking (some t))
      (hch : s.chan t = none) :
      Move n s (.visit c true) (s.setCtx c { x with phase := .unlocking (s.next n (t + 1)) })
  | unvisit {c t : ℕ} {x : LockCtx} {ch : BdevChannel β} (hx : s.ctx c = some x)
      (hphase : x.phase = .unlocking (some t)) (hch : s.chan t = some ch) :
      Move n s (.visit c true)
        ((s.setCtx c { x with phase := .unlocking (s.next n (t + 1)) }).setChan t
          (ch.unlockRange t x.seg c))
  | poll {c t : ℕ} {x : LockCtx} {ch : BdevChannel β} (hx : s.ctx c = some x)
      (hphase : x.phase = .checking t) (hch : s.chan t = some ch) :
      Move n s (.poll c) (s.bdevLockLbaRangeCheckIo n c x t ch)
  | grant {c : ℕ} {x : LockCtx} (hx : s.ctx c = some x) (hphase : x.phase = .locking none) :
      Move n s (.complete c) (s.bdevLockLbaRangeCb c x)
  | release {c : ℕ} {x : LockCtx} (hx : s.ctx c = some x) (hphase : x.phase = .unlocking none) :
      Move n s (.complete c) (s.bdevUnlockLbaRangeCb c x)
  | unlock {c : ℕ} {x : LockCtx} (hx : s.ctx c = some x) (hphase : x.phase = .granted) :
      Move n s (.unlock c) (s.bdevUnlockLbaRange n c x)
  | submit {t : ℕ} {ch : BdevChannel β} (hch : s.chan t = some ch) (io : BdevIo β) :
      Move n s (.submit t io) (s.setChan t (ch.bdevIoSubmit t io))
  | finish {t k : ℕ} {ch : BdevChannel β} (hch : s.chan t = some ch)
      (hk : k < ch.submitted.length) :
      Move n s (.finish t k) (s.setChan t { ch with submitted := ch.submitted.eraseIdx k })
  | create {t : ℕ} (ht : t < n) (hch : s.chan t = none) :
      Move n s (.create t) (s.setChan t { lockedRanges := s.inherited })
  | destroy {t : ℕ} {ch : BdevChannel β} (hch : s.chan t = some ch) :
      Move n s (.destroy t) { s with chan := Function.update s.chan t none }

theorem move_of_step (h : LockSound n s) {l : LockLabel β} {s' : LockState β} (hsafe : LockSafe s l)
    (hstep : lockStep n s l = some s') : Move n s l s' := by
  cases l with
  | lock c seg owner =>
    obtain ⟨⟨hc, howner⟩, hs⟩ := Option.ite_none_right_eq_some.mp hstep
    obtain rfl := Option.some.inj hs
    exact .lock hc howner
  | start c =>
    obtain ⟨x, hx, hstep⟩ := Option.bind_eq_some_iff.mp hstep
    obtain ⟨hphase, hs⟩ := Option.ite_none_right_eq_some.mp hstep
    obtain rfl := Option.some.inj hs
    exact .start hx hphase
  | visit c ok =>
    obtain rfl : ok = true := hsafe
    obtain ⟨x, hx, hstep⟩ := Option.bind_eq_some_iff.mp hstep
    unfold lockVisit at hstep
    split at hstep
    · rename_i t hphase
      split at hstep
      · rename_i hch
        obtain rfl := Option.some.inj hstep
        exact .skip hx hphase hch
      · rename_i ch hch
        obtain rfl := Option.some.inj hstep
        exact .getChannel hx hphase hch
    · rename_i t hphase
      cases hch : s.chan t with
      | none =>
        rw [hch] at hstep
        obtain rfl := Option.some.inj hstep
        exact .unskip hx hphase hch
      | some ch =>
        rw [hch] at hstep
        obtain rfl := Option.some.inj hstep
        exact .unvisit hx hphase hch
    · rename_i t hphase
      exact absurd hphase ((h.not_failing hx).2 (some t))
    · cases hstep
  | poll c =>
    obtain ⟨x, hx, hstep⟩ := Option.bind_eq_some_iff.mp hstep
    split at hstep
    · rename_i t hphase
      obtain ⟨ch, hch, rfl⟩ := Option.map_eq_some_iff.mp hstep
      exact .poll hx hphase hch
    · cases hstep
  | complete c =>
    obtain ⟨x, hx, hstep⟩ := Option.bind_eq_some_iff.mp hstep
    unfold lockComplete at hstep
    split at hstep
    · rename_i hphase
      obtain rfl := Option.some.inj hstep
      exact .grant hx hphase
    · rename_i hphase
      obtain rfl := Option.some.inj hstep
      exact .release hx hphase
    · rename_i hphase
      exact absurd hphase (h.not_failing hx).1
    · rename_i hphase
      exact absurd hphase ((h.not_failing hx).2 none)
    · cases hstep
  | unlock c =>
    obtain ⟨x, hx, hstep⟩ := Option.bind_eq_some_iff.mp hstep
    obtain ⟨hphase, hs⟩ := Option.ite_none_right_eq_some.mp hstep
    obtain rfl := Option.some.inj hs
    exact .unlock hx hphase
  | submit t io =>
    obtain ⟨ch, hch, hstep⟩ := Option.bind_eq_some_iff.mp hstep
    obtain rfl := Option.some.inj hstep
    exact .submit hch io
  | finish t k =>
    obtain ⟨ch, hch, hstep⟩ := Option.bind_eq_some_iff.mp hstep
    obtain ⟨hk, hs⟩ := Option.ite_none_right_eq_some.mp hstep
    obtain rfl := Option.some.inj hs
    exact .finish hch hk
  | create t =>
    obtain ⟨⟨ht, hch⟩, hs⟩ := Option.ite_none_right_eq_some.mp hstep
    obtain rfl := Option.some.inj hs
    exact .create ht hch
  | destroy t =>
    obtain ⟨ch, hch, hstep⟩ := Option.bind_eq_some_iff.mp hstep
    obtain ⟨-, hs⟩ := Option.ite_none_right_eq_some.mp hstep
    obtain rfl := Option.some.inj hs
    exact .destroy hch

/-- **One step.** -/
theorem step (h : LockSound n s) {l : LockLabel β} {s' : LockState β} (hsafe : LockSafe s l)
    (hstep : lockStep n s l = some s') : LockSound n s' := by
  cases h.move_of_step hsafe hstep with
  | lock hc howner => exact h.lock hc hsafe howner
  | start hx hphase =>
    exact h.advance hx (by rw [hphase]; trivial) trivial LockPhase.noConfusion
      (fun t => by rw [hphase]; exact LockPhase.noConfusion) (fun _ => LockPhase.noConfusion)
      fun t ch hch hp => absurd hp (h.not_passed_next hch)
  | skip hx hphase hch =>
    refine h.advance hx (by rw [hphase]; trivial) trivial LockPhase.noConfusion
      (fun t => by rw [hphase]; exact LockPhase.noConfusion) (fun _ => LockPhase.noConfusion)
      fun u cu hu hp => .inl ?_
    rw [hphase]
    refine lt_of_le_of_ne (h.le_of_passed_next hu hp) fun hut => ?_
    rw [hut, hch] at hu
    cases hu
  | getChannel hx hphase hch => exact h.getChannel hx hphase hch
  | unskip hx hphase hch =>
    refine h.unvisit hx hphase s.chan (fun ch hu => ?_) rfl fun _ _ => rfl
    rw [hch] at hu
    cases hu
  | @unvisit c t x ch hx hphase hch =>
    refine h.unvisit hx hphase (Function.update s.chan t (some (ch.unlockRange t x.seg c)))
      (fun ch' hu => ⟨ch, hch, ?_⟩) (by simp [hch]) fun u hut => Function.update_of_ne hut ..
    simpa [eq_comm] using hu
  | poll hx hphase hch => exact h.checkIo hx hphase hch
  | grant hx hphase => exact h.grant hx hphase
  | release hx hphase => exact h.release hx hphase
  | unlock hx hphase => exact h.unlock hx hphase
  | submit hch io => exact h.submit hch io
  | finish hch _ => exact h.finish hch _
  | create ht hch => exact h.create ht hch
  | destroy _ => exact h.destroy hsafe

theorem init : LockSound n (lockSys β n).init where
  chan_lt _ hch := by cases hch
  nodup := List.nodup_nil
  pending_nodup := List.nodup_nil
  listed _ := iff_of_false List.not_mem_nil fun ⟨_, hx, _⟩ => by cases hx
  waiting _ := iff_of_false List.not_mem_nil fun ⟨_, hx, _⟩ => by cases hx
  locks _ _ hx := by cases hx
  apart _ hc := by cases hc
  chans _ _ hch := by cases hch
  blocked _ _ hx := by cases hx

/-- **Every run.** -/
theorem of_reach (h : (lockSys β n).Reach LockSafe s) : LockSound n s :=
  h.invariant init fun _ _ _ ih hsafe hstep => ih.step hsafe hstep

end LockSound

/-! ## One lock -/

/-- **The life of a lock**: it is asked for, granted, given back and freed, each by its label. -/
inductive LockLife {β : Type} (d : ℕ) : LockLabel β → Option LockCtx → Option LockCtx → Prop
  | away {l : LockLabel β} : LockLife d l none none
  | stays {l : LockLabel β} {x y : LockCtx} (h : x.Stays y) : LockLife d l (some x) (some y)
  | lock {seg : Seg} {owner : Option ℕ} {y : LockCtx} (hseg : y.seg = seg)
      (howner : y.owner = owner)
      (hstage : y.phase.stage = .acquiring) : LockLife d (.lock d seg owner) none (some y)
  | grant {x : LockCtx} (hstage : x.phase.stage = .acquiring) :
      LockLife d (.complete d) (some x) (some { x with phase := .granted })
  | unlock {x : LockCtx} {pos : Option ℕ} (hstage : x.phase.stage = .granted) :
      LockLife d (.unlock d) (some x) (some { x with phase := .unlocking pos })
  | free {x : LockCtx} (hstage : x.phase.stage = .leaving) : LockLife d (.complete d) (some x) none

section Life

variable {β : Type} {n c d : ℕ} {s s' : LockState β} {x y : LockCtx} {l : LockLabel β}

theorem LockLife.same (o : Option LockCtx) : LockLife d l o o := by
  cases o with
  | none => exact .away
  | some x => exact .stays (.refl x)

/-- The others are not touched. -/
theorem LockLife.update {o : Option LockCtx} (h : LockLife c l (s.ctx c) o) :
    LockLife d l (s.ctx d) (Function.update s.ctx c o d) := by
  by_cases hdc : d = c
  · subst hdc
    rw [Function.update_self]
    exact h
  · rw [Function.update_of_ne hdc]
    exact .same _

/-- A lock goes on and stays where it is. -/
theorem LockLife.update_stays (hx : s.ctx c = some x) (h : x.Stays y) :
    LockLife d l (s.ctx d) (Function.update s.ctx c (some y) d) :=
  .update (hx ▸ .stays h)

theorem stays_phase {p : LockPhase} (h : p.stage = x.phase.stage) : x.Stays { x with phase := p } :=
  ⟨rfl, rfl, h⟩

theorem LockState.ctx_bdevLockLbaRange (n c : ℕ) (seg : Seg) (owner : Option ℕ) :
    ∃ y : LockCtx, y.seg = seg ∧ y.owner = owner ∧ y.phase.stage = .acquiring ∧
      (s.bdevLockLbaRange n c seg owner).ctx = Function.update s.ctx c (some y) := by
  unfold LockState.bdevLockLbaRange
  split
  · exact ⟨_, rfl, rfl, rfl, rfl⟩
  · exact ⟨_, rfl, rfl, rfl, rfl⟩

theorem LockState.ctx_bdevLockLbaRangeCheckIo {t : ℕ} {ch : BdevChannel β} :
    ∃ p : LockPhase, p.stage = .acquiring ∧
      (s.bdevLockLbaRangeCheckIo n c x t ch).ctx =
        Function.update s.ctx c (some { x with phase := p }) := by
  unfold LockState.bdevLockLbaRangeCheckIo
  split
  · exact ⟨_, rfl, rfl⟩
  · exact ⟨_, rfl, rfl⟩

theorem LockState.ctx_bdevLockLbaRangeGetChannel {t : ℕ} {ch : BdevChannel β} :
    ∃ y : LockCtx, y.seg = x.seg ∧ y.owner = x.owner ∧ y.phase.stage = .acquiring ∧
      (s.bdevLockLbaRangeGetChannel n c x t ch true).ctx = Function.update s.ctx c (some y) := by
  unfold LockState.bdevLockLbaRangeGetChannel
  split
  · exact ⟨{ x with phase := .locking (s.next n (t + 1)) }, rfl, rfl, rfl, rfl⟩
  · rw [if_neg Bool.noConfusion]
    obtain ⟨p, hp, hctx⟩ := LockState.ctx_bdevLockLbaRangeCheckIo
    exact ⟨{ x with ownerRange := _, phase := p }, rfl, rfl, hp, hctx⟩

theorem LockState.ctx_bdevLockLbaRangeCb : (s.bdevLockLbaRangeCb c x).ctx =
    Function.update s.ctx c (some { x with phase := .granted }) := by
  unfold LockState.bdevLockLbaRangeCb
  dsimp only
  split
  · rfl
  · rfl

/-- **Every step is a step in the life of every lock.** -/
theorem LockSound.life (h : LockSound n s) (hsafe : LockSafe s l) (hstep : lockStep n s l = some s')
    (d : ℕ) : LockLife d l (s.ctx d) (s'.ctx d) := by
  cases h.move_of_step hsafe hstep with
  | @lock c seg owner hc howner =>
    obtain ⟨y, hseg, hown, hstage, hy⟩ := LockState.ctx_bdevLockLbaRange (s := s) n c seg owner
    rw [hy]
    exact .update (hc ▸ .lock hseg hown hstage)
  | start hx hphase => exact .update_stays hx (stays_phase (by rw [hphase]; rfl))
  | skip hx hphase _ => exact .update_stays hx (stays_phase (by rw [hphase]; rfl))
  | getChannel hx hphase _ =>
    obtain ⟨y, hseg, howner, hstage, hy⟩ := LockState.ctx_bdevLockLbaRangeGetChannel
    rw [hy]
    exact .update_stays hx ⟨hseg, howner, by rw [hstage, hphase]; rfl⟩
  | unskip hx hphase _ => exact .update_stays hx (stays_phase (by rw [hphase]; rfl))
  | unvisit hx hphase _ => exact .update_stays hx (stays_phase (by rw [hphase]; rfl))
  | poll hx hphase _ =>
    obtain ⟨p, hstage, hp⟩ := LockState.ctx_bdevLockLbaRangeCheckIo
    rw [hp]
    exact .update_stays hx (stays_phase (by rw [hstage, hphase]; rfl))
  | grant hx hphase =>
    rw [LockState.ctx_bdevLockLbaRangeCb]
    exact .update (hx ▸ .grant (by rw [hphase]; rfl))
  | @release c x hx hphase =>
    obtain ⟨-, hwalked, -⟩ := LockSound.walk x.seg s.pending h h.pending_nodup fun _ => id
    by_cases hdc : d = c
    · subst hdc
      have hgone : (s.bdevUnlockLbaRangeCb d x).ctx d = none := Function.update_self ..
      rw [hgone, hx]
      exact .free (by rw [hphase]; rfl)
    · have hother : (s.bdevUnlockLbaRangeCb c x).ctx d =
          (s.pending.foldl (fun s p => s.startPending x.seg p) s).ctx d :=
        Function.update_of_ne hdc ..
      rw [hother]
      cases hd : s.ctx d with
      | none =>
        rw [hwalked.absent d hd]
        exact .away
      | some z =>
        obtain ⟨y, hy, hstays⟩ := hwalked.stays d z hd
        rw [hy]
        exact .stays hstays
  | unlock hx hphase =>
    rw [h.bdevUnlockLbaRange_eq hx hphase]
    exact .update (hx ▸ .unlock (by rw [hphase]; rfl))
  | submit | finish | create | destroy => exact .same _

end Life

/-! ## Results -/

section Results

variable {β : Type} {n c : ℕ} {s : LockState β} {x : LockCtx}

/-- What a granted lock keeps out: two granted locks have no block in common, no NVME_IO or
NVME_IO_MD is in anyone's hands, and a WRITE, UNMAP, WRITE_ZEROES, ZCOPY or COPY of the range is the
lock's own. -/
structure Exclusive (s : LockState β) (c : ℕ) (x : LockCtx) : Prop where
  apart : ∀ d, ∀ y ∈ s.ctx d, y.phase = .granted → d ≠ c → x.seg.Disj y.seg
  passed : ∀ t, ∀ ch ∈ s.chan t, ∀ io ∈ ch.submitted, ¬ io.type.IsNvme
  own : ∀ t, ∀ ch ∈ s.chan t, ∀ io ∈ ch.submitted, io.type.IsWrite →
    ∀ k, x.seg.Mem k → io.seg.Mem k → x.owner = some t ∧ io.ctx = c

theorem LockSound.exclusive (h : LockSound n s) (hx : s.ctx c = some x)
    (hphase : x.phase = .granted) :
    Exclusive s c x := by
  have hlisted : ∀ {d : ℕ} {y : LockCtx}, y ∈ s.ctx d → y.phase = .granted → d ∈ s.locked :=
    fun hy hg => (h.listed _).mpr ⟨_, hy, by rw [hg]; trivial⟩
  have hcopy : ∀ t, ∀ ch ∈ s.chan t, ∃ r ∈ ch.lockedRanges, r.ctx = c ∧
      CopySound x t ch.submitted r :=
    fun t ch hch => (h.chans t ch hch).exists_copy hx (by rw [hphase]; trivial)
  have hnot : ∀ t, x.phase ≠ .checking t := fun t => by
    rw [hphase]
    exact LockPhase.noConfusion
  constructor
  case apart =>
    intro d y hy hg hdc k hxk hyk
    have hov := h.apart c (hlisted hx hphase) d (hlisted hy hg) hdc.symm x hx y hy
    rw [(overlapped_iff x.seg y.seg).mpr ⟨k, hxk, hyk⟩] at hov
    cases hov
  case passed =>
    intro t ch hch io hio hnvme
    obtain ⟨r, -, -, hsound⟩ := hcopy t ch hch
    have hlock := hsound.clean (hnot t) io hio
    rw [isLocked_of_isNvme hnvme] at hlock
    cases hlock
  case own =>
    intro t ch hch io hio hwrite k hxk hiok
    obtain ⟨r, -, hrc, hsound⟩ := hcopy t ch hch
    have hlock := hsound.clean (hnot t) io hio
    rw [isLocked_of_isWrite hwrite] at hlock
    have hov : bdevLbaRangeOverlapped r.seg io.seg = true := by
      rw [hsound.seg]
      exact (overlapped_iff ..).mpr ⟨k, hxk, hiok⟩
    obtain ⟨howner, hctx⟩ := owner_of_not_blocks hlock hov
    exact ⟨(hsound.owner t howner).2, hctx.symm.trans hrc⟩

/-- **While a lock is granted, no one else writes to its range** with an I/O of the types that locks
look at: in every run, with any number of threads, locks and I/O, and whatever channels come and go.
-/
theorem rangeLock_exclusive (h : (lockSys β n).Reach LockSafe s) (hx : s.ctx c = some x)
    (hphase : x.phase = .granted) : Exclusive s c x :=
  (LockSound.of_reach h).exclusive hx hphase

/-- Two threads; the second has a write in its hands when the first locks two blocks, and one that
comes later is held back.  A second lock waits. -/
def twoThreads : List (LockLabel Unit) :=
  [.create 0, .create 1, .submit 1 { type := .write, seg := ⟨5, 1⟩, ctx := 1 },
   .lock 7 ⟨4, 2⟩ (some 0), .visit 7 true, .visit 7 true, .poll 7, .finish 1 0, .poll 7,
   .complete 7, .submit 0 { type := .write, seg := ⟨4, 2⟩, ctx := 7 },
   .submit 1 { type := .write, seg := ⟨5, 3⟩, ctx := 2 }, .lock 8 ⟨5, 1⟩ none]

theorem reach_twoThreads {s : LockState Unit}
    (hs : (lockSys Unit 2).run (lockSys Unit 2).init twoThreads = some s) :
    (lockSys Unit 2).Reach LockSafe s := by
  refine .of_run _ (fun l hl t => ?_) .init hs
  simp only [twoThreads, List.mem_cons, List.not_mem_nil, or_false] at hl
  rcases hl with rfl | rfl | rfl | rfl | rfl | rfl | rfl | rfl | rfl | rfl | rfl | rfl | rfl <;>
    simp [LockSafe]

theorem rangeLock_exclusive_twoThreads : ∃ s : LockState Unit,
    (lockSys Unit 2).run (lockSys Unit 2).init twoThreads = some s ∧
    s.ctx 7 = some ⟨⟨4, 2⟩, some 0, true, .granted⟩ ∧
    (s.chan 0).map (fun ch => ch.submitted.length) = some 1 ∧
    Exclusive s 7 ⟨⟨4, 2⟩, some 0, true, .granted⟩ :=
  ⟨_, rfl, rfl, rfl, rangeLock_exclusive (reach_twoThreads rfl) rfl rfl⟩

/-- **Nothing is held back without a lock, and no lock waits without one**: I/O that is held back is
concerned by the range of a lock that is there and has not yet left the channel, a lock that waits
overlaps one that does not wait, and when no lock is there no channel has a copy or holds anything
back. -/
structure Unstranded (s : LockState β) : Prop where
  held : ∀ t, ∀ ch ∈ s.chan t, ∀ io ∈ ch.held, ∃ c, ∃ x ∈ s.ctx c, x.phase.May t ∧
    ∃ r ∈ ch.lockedRanges, r.ctx = c ∧ r.seg = x.seg ∧ r.Concerns io
  waits : ∀ c, ∀ x ∈ s.ctx c, x.phase = .pending → ∃ d, ∃ y ∈ s.ctx d, y.phase ≠ .pending ∧
    ¬ x.seg.Disj y.seg
  idle : (∀ c, s.ctx c = none) → s.locked = [] ∧ s.pending = [] ∧
    ∀ t, ∀ ch ∈ s.chan t, ch.lockedRanges = [] ∧ ch.held = []

theorem rangeLock_unstranded (h : (lockSys β n).Reach LockSafe s) : Unstranded s := by
  have hs := LockSound.of_reach h
  have hheld : ∀ t, ∀ ch ∈ s.chan t, ∀ io ∈ ch.held, ∃ c, ∃ x ∈ s.ctx c, x.phase.May t ∧
      ∃ r ∈ ch.lockedRanges, r.ctx = c ∧ r.seg = x.seg ∧ r.Concerns io := by
    intro t ch hch io hio
    obtain ⟨r, hr, hconcerns⟩ := (hs.chans t ch hch).held io hio
    obtain ⟨x, hx, hcopy⟩ := (hs.chans t ch hch).copies r hr
    exact ⟨r.ctx, x, hx, hcopy.may, r, hr, rfl, hcopy.seg, hconcerns⟩
  refine ⟨hheld, fun c x hx hp => ?_, fun hidle => ⟨?_, ?_, fun t ch hch => ⟨?_, ?_⟩⟩⟩
  · obtain ⟨d, y, hy, hyp, hov⟩ := hs.blocked c x hx hp
    refine ⟨d, y, hy, hyp, fun hdisj => ?_⟩
    obtain ⟨k, hxk, hyk⟩ := (overlapped_iff ..).mp hov
    exact hdisj k hxk hyk
  · refine List.eq_nil_iff_forall_not_mem.mpr fun c hc => ?_
    obtain ⟨x, hx, -⟩ := (hs.listed c).mp hc
    simp [hidle c] at hx
  · refine List.eq_nil_iff_forall_not_mem.mpr fun c hc => ?_
    obtain ⟨x, hx, -⟩ := (hs.waiting c).mp hc
    simp [hidle c] at hx
  · refine List.eq_nil_iff_forall_not_mem.mpr fun r hr => ?_
    obtain ⟨x, hx, -⟩ := (hs.chans t ch hch).copies r hr
    simp [hidle r.ctx] at hx
  · refine List.eq_nil_iff_forall_not_mem.mpr fun io hio => ?_
    obtain ⟨c, x, hx, -⟩ := hheld t ch hch io hio
    simp [hidle c] at hx

theorem rangeLock_unstranded_twoThreads : ∃ s : LockState Unit,
    (lockSys Unit 2).run (lockSys Unit 2).init twoThreads = some s ∧
    (s.chan 1).map (fun ch => ch.held.length) = some 1 ∧ s.pending = [8] ∧ Unstranded s :=
  ⟨_, rfl, rfl, rfl, rangeLock_unstranded (reach_twoThreads rfl)⟩

end Results

end NdpHeaan
