import NdpHeaan.Bdev.RangeLockChannel

/-!
# Bdev/RangeLockSound — what the range locks of a bdev keep

A channel that is created while a lock is on its way starts with the copies and without I/O, so it
does not matter on which side of a sweep it appears, nor in which order the messages of two sweeps
arrive.  A lock that waits has one that does not wait in its way (`LockSound.blocked`): the walk
that ends an unlock leaves no lock behind that has nothing in its way any more.
-/

open Machinery

namespace NdpHeaan

/-- What holds of a lock by itself, the threads of `present` having a channel. -/
structure LockCtx.Sound (present : ℕ → Prop) (x : LockCtx) : Prop where
  phase : x.phase = .pending ∨ x.phase.Listed ∨ x.phase.Leaving
  pos : 0 < x.seg.len
  owner : ∀ t ∈ x.owner, present t
  checking : ∀ t, x.phase = .checking t → present t

theorem LockCtx.Sound.mono {P Q : ℕ → Prop} {x : LockCtx} (h : x.Sound P)
    (hPQ : ∀ t, x.owner = some t ∨ x.phase = .checking t → P t → Q t) : x.Sound Q :=
  { h with
    owner := fun t ht => hPQ t (.inl ht) (h.owner t ht)
    checking := fun t ht => hPQ t (.inr ht) (h.checking t ht) }

/-- A lock that does not wait is in the way of the range. -/
def Blocked (ctx : ℕ → Option LockCtx) (seg : Seg) : Prop :=
  ∃ d, ∃ y ∈ ctx d, y.phase ≠ .pending ∧ bdevLbaRangeOverlapped seg y.seg = true

/-- **What the locks of a bdev keep.** -/
structure LockSound {β : Type} (n : ℕ) (s : LockState β) : Prop where
  chan_lt : ∀ t, (s.chan t).isSome → t < n
  nodup : s.locked.Nodup
  pending_nodup : s.pending.Nodup
  listed : ∀ c, c ∈ s.locked ↔ ∃ x ∈ s.ctx c, x.phase.Listed
  waiting : ∀ c, c ∈ s.pending ↔ ∃ x ∈ s.ctx c, x.phase = .pending
  locks : ∀ c, ∀ x ∈ s.ctx c, x.Sound fun t => (s.chan t).isSome
  apart : ∀ c ∈ s.locked, ∀ d ∈ s.locked, c ≠ d → ∀ x ∈ s.ctx c, ∀ y ∈ s.ctx d,
    bdevLbaRangeOverlapped x.seg y.seg = false
  chans : ∀ t, ∀ ch ∈ s.chan t, ChanSound s.ctx t ch
  /-- What waits, waits for a lock that is not waiting. -/
  blocked : ∀ c, ∀ x ∈ s.ctx c, x.phase = .pending → Blocked s.ctx x.seg

/-! ## Steps -/

theorem mem_update_some {ctx : ℕ → Option LockCtx} {c d : ℕ} {y z : LockCtx} :
    z ∈ Function.update ctx c (some y) d ↔ d = c ∧ z = y ∨ d ≠ c ∧ z ∈ ctx d := by
  rw [mem_update, Option.mem_some, eq_comm (a := y)]

/-- `l'` is `l` but for `c`, which is in it when `P` holds. -/
structure Relists (c : ℕ) (P : Prop) (l l' : List ℕ) : Prop where
  nodup : l'.Nodup
  self : c ∈ l' ↔ P
  other : ∀ d, d ≠ c → (d ∈ l' ↔ d ∈ l)

namespace Relists

variable {c : ℕ} {P : Prop} {l : List ℕ}

theorem same (h : l.Nodup) (hP : c ∈ l ↔ P) : Relists c P l l := ⟨h, hP, fun _ _ => .rfl⟩

theorem append (h : l.Nodup) (hc : c ∉ l) (hP : P) : Relists c P l (l ++ [c]) where
  nodup := List.concat_eq_append ▸ h.concat hc
  self := by simp [hP]
  other d hd := by simp [hd]

theorem erase (h : l.Nodup) (hP : ¬ P) : Relists c P l (l.erase c) where
  nodup := h.erase c
  self := iff_of_false h.not_mem_erase hP
  other _ hd := List.mem_erase_of_ne hd

end Relists

theorem LockPhase.Listed.ne_pending {p : LockPhase} (h : p.Listed) : p ≠ .pending := by
  rintro rfl
  exact h

namespace LockSound

variable {β : Type} {n c : ℕ} {s : LockState β} {x y : LockCtx} {o : Option LockCtx}
  {chan : ℕ → Option (BdevChannel β)} {locked pending : List ℕ}

/-- A lock is replaced by what becomes of it, which may be nothing. -/
theorem replace (h : LockSound n s) (hpresent : ∀ t, (chan t).isSome = (s.chan t).isSome)
    (hself : ∀ y ∈ o, y.Sound fun t => (s.chan t).isSome)
    (hlocked : Relists c (∃ y ∈ o, y.phase.Listed) s.locked locked)
    (hpending : Relists c (∃ y ∈ o, y.phase = .pending) s.pending pending)
    (hapart : ∀ y ∈ o, y.phase.Listed → ∀ d ∈ s.locked, d ≠ c → ∀ z ∈ s.ctx d,
      bdevLbaRangeOverlapped y.seg z.seg = false)
    (hchans : ∀ t, ∀ ch ∈ chan t, ChanSound (Function.update s.ctx c o) t ch)
    (hblocked : ∀ y ∈ o, y.phase = .pending → Blocked (Function.update s.ctx c o) y.seg)
    (hway : ∀ x ∈ s.ctx c, x.phase ≠ .pending → ∀ d, ∀ z ∈ s.ctx d, z.phase = .pending →
      bdevLbaRangeOverlapped z.seg x.seg = true → Blocked (Function.update s.ctx c o) z.seg) :
    LockSound n { chan, ctx := Function.update s.ctx c o, locked, pending } := by
  have hlist : ∀ {d : ℕ} {z : LockCtx}, d ∈ locked → z ∈ Function.update s.ctx c o d →
      d = c ∧ z ∈ o ∧ z.phase.Listed ∨ d ≠ c ∧ z ∈ s.ctx d ∧ d ∈ s.locked := by
    intro d z hd hz
    rcases mem_update.mp hz with ⟨rfl, hzo⟩ | ⟨hdc, hzs⟩
    · obtain ⟨y, hy, hlist⟩ := hlocked.self.mp hd
      obtain rfl := Option.mem_unique hy hzo
      exact .inl ⟨rfl, hy, hlist⟩
    · exact .inr ⟨hdc, hzs, (hlocked.other d hdc).mp hd⟩
  constructor
  case chan_lt => exact fun t ht => h.chan_lt t (hpresent t ▸ ht)
  case nodup => exact hlocked.nodup
  case pending_nodup => exact hpending.nodup
  case listed =>
    intro d
    by_cases hdc : d = c
    · simpa [hdc] using hlocked.self
    · simpa [hdc] using (hlocked.other d hdc).trans (h.listed d)
  case waiting =>
    intro d
    by_cases hdc : d = c
    · simpa [hdc] using hpending.self
    · simpa [hdc] using (hpending.other d hdc).trans (h.waiting d)
  case locks =>
    intro d z hz
    have hsound : z.Sound fun t => (s.chan t).isSome := by
      rcases mem_update.mp hz with ⟨-, hz⟩ | ⟨-, hz⟩
      · exact hself z hz
      · exact h.locks d z hz
    exact hsound.mono fun t _ ht => (hpresent t).symm ▸ ht
  case apart =>
    intro d hd e he hde z hz w hw
    rcases hlist hd hz with ⟨hdc, hz, hzl⟩ | ⟨hdc, hz, hd⟩ <;>
      rcases hlist he hw with ⟨hec, hw, hwl⟩ | ⟨hec, hw, he⟩
    · exact absurd (hdc.trans hec.symm) hde
    · exact hapart z hz hzl e he hec w hw
    · rw [overlapped_comm]
      exact hapart w hw hwl d hd hdc z hz
    · exact h.apart d hd e he hde z hz w hw
  case chans => exact hchans
  case blocked =>
    intro d z hz hp
    rcases mem_update.mp hz with ⟨-, hz⟩ | ⟨-, hz⟩
    · exact hblocked z hz hp
    obtain ⟨e, w, hw, hwp, hov⟩ := h.blocked d z hz hp
    by_cases hec : e = c
    · exact hway w (hec ▸ hw) hwp d z hz hp hov
    · exact ⟨e, w, mem_update.mpr (.inr ⟨hec, hw⟩), hwp, hov⟩

/-- A lock that does not wait goes on; it may leave its list. -/
theorem move (h : LockSound n s) (hx : s.ctx c = some x) (hxp : x.phase ≠ .pending) (y : LockCtx)
    (hseg : y.seg = x.seg) (howner : y.owner = x.owner) (hy : y.phase.Listed ∨ y.phase.Leaving)
    (hlisted : y.phase.Listed → x.phase.Listed)
    (hcheck : ∀ t, y.phase = .checking t → (s.chan t).isSome)
    (hpresent : ∀ t, (chan t).isSome = (s.chan t).isSome)
    (hlocked : Relists c y.phase.Listed s.locked locked)
    (hchans : ∀ t, ∀ ch ∈ chan t, ChanSound (Function.update s.ctx c (some y)) t ch) :
    LockSound n
      { chan, ctx := Function.update s.ctx c (some y), locked, pending := s.pending } := by
  have hctx := h.locks c x hx
  have hyp : y.phase ≠ .pending := by
    intro hp
    rw [hp] at hy
    exact hy.elim id id
  refine h.replace hpresent ?_ (by simpa using hlocked) (.same h.pending_nodup ?_) ?_ hchans ?_ ?_
  · rintro _ ⟨⟩
    exact ⟨.inr hy, hseg ▸ hctx.pos, howner ▸ hctx.owner, hcheck⟩
  · simp [h.waiting, hx, hxp, hyp]
  · rintro _ ⟨⟩ hlist d hd hdc z hz
    rw [hseg]
    exact h.apart c ((h.listed c).mpr ⟨x, hx, hlisted hlist⟩) d hd hdc.symm x hx z hz
  · rintro _ ⟨⟩ hp
    exact absurd hp hyp
  · intro w hw _ d z _ _ hov
    obtain rfl := Option.mem_unique hx hw
    exact ⟨c, y, mem_update_some.mpr (.inl ⟨rfl, rfl⟩), hyp, hseg ▸ hov⟩

/-- …and stays in the list. -/
theorem keep (h : LockSound n s) (hx : s.ctx c = some x) (hxl : x.phase.Listed) (y : LockCtx)
    (hseg : y.seg = x.seg) (howner : y.owner = x.owner) (hy : y.phase.Listed)
    (hcheck : ∀ t, y.phase = .checking t → (s.chan t).isSome)
    (hpresent : ∀ t, (chan t).isSome = (s.chan t).isSome)
    (hchans : ∀ t, ∀ ch ∈ chan t, ChanSound (Function.update s.ctx c (some y)) t ch) :
    LockSound n { s with chan, ctx := Function.update s.ctx c (some y) } :=
  h.move hx hxl.ne_pending y hseg howner (.inl hy) (fun _ => hxl) hcheck hpresent
    (.same h.nodup (iff_of_true ((h.listed c).mpr ⟨x, hx, hxl⟩) hy)) hchans

/-- The I/O of a channel changes. -/
theorem setChan (h : LockSound n s) {t : ℕ} {ch ch' : BdevChannel β} (hch : s.chan t = some ch)
    (hsound : ChanSound s.ctx t ch') : LockSound n (s.setChan t ch') := by
  have hsome : ∀ u, ((s.setChan t ch').chan u).isSome = (s.chan u).isSome := by
    intro u
    by_cases hut : u = t
    · simp [LockState.setChan, hut, hch]
    · simp [LockState.setChan, hut]
  refine
    { h with
      chan_lt := fun u hu => h.chan_lt u (hsome u ▸ hu)
      locks := fun d z hz => (h.locks d z hz).mono fun u _ hu => (hsome u).symm ▸ hu
      chans := fun u cu hu => ?_ }
  by_cases hut : u = t
  · subst hut
    obtain rfl : ch' = cu := by simpa [LockState.setChan] using hu
    exact hsound
  · exact h.chans u cu (by simpa [LockState.setChan, hut] using hu)

/-- What a sweep has passed when it starts: no channel. -/
theorem not_passed_next (h : LockSound n s) {t : ℕ} {ch : BdevChannel β}
    (hch : s.chan t = some ch) :
    ¬ Passed (s.next n 0) t :=
  not_passed_nextFrom_zero (by simp [hch]) (h.chan_lt t (by simp [hch]))

/-- …and when it goes on from `k`: the channels it had passed and that of `k`. -/
theorem le_of_passed_next (h : LockSound n s) {t k : ℕ} {ch : BdevChannel β}
    (hch : s.chan t = some ch) (hp : Passed (s.next n (k + 1)) t) : t ≤ k :=
  Nat.lt_succ_iff.mp (lt_of_passed_nextFrom (by simp [hch]) (h.chan_lt t (by simp [hch])) hp)

theorem overlapsTailq_eq_true {seg : Seg} :
    s.overlapsTailq seg = true ↔ ∃ d ∈ s.locked, s.Overlaps seg d := by
  simp [LockState.overlapsTailq]

theorem overlapsTailq_eq_false {seg : Seg} (h : s.overlapsTailq seg = false) {d : ℕ}
    (hd : d ∈ s.locked) {y : LockCtx} (hy : s.ctx d = some y) :
    bdevLbaRangeOverlapped seg y.seg = false := by
  by_contra hov
  rw [Bool.not_eq_false] at hov
  rw [overlapsTailq_eq_true.mpr ⟨d, hd, y, hy, hov⟩] at h
  cases h

/-- A range that `locked_ranges` is in the way of stays blocked when `c` is not one of these. -/
theorem blocked_update (h : LockSound n s) {seg : Seg} (hov : s.overlapsTailq seg = true)
    (hc : c ∉ s.locked) : Blocked (Function.update s.ctx c o) seg := by
  obtain ⟨d, hd, z, hz, hov⟩ := overlapsTailq_eq_true.mp hov
  obtain ⟨w, hw, hlist⟩ := (h.listed d).mp hd
  obtain rfl := Option.mem_unique hz hw
  exact ⟨d, z, mem_update.mpr (.inr ⟨fun hdc => hc (hdc ▸ hd), hz⟩), hlist.ne_pending, hov⟩

/-- A lock that is not there, or that waits, is put into `locked_ranges`. -/
theorem enter (h : LockSound n s) (hold : ∀ x ∈ s.ctx c, x.phase = .pending)
    (hlisted : y.phase.Listed) (hy : y.Sound fun t => (s.chan t).isSome)
    (hhas : ∀ t ch, s.chan t = some ch → ¬ y.phase.Has t) (hfree : s.overlapsTailq y.seg = false) :
    LockSound n { s.setCtx c y with locked := s.locked ++ [c], pending := s.pending.erase c } := by
  have hnew : c ∉ s.locked := fun hmem => by
    obtain ⟨x, hx, hlist⟩ := (h.listed c).mp hmem
    exact hlist.ne_pending (hold x hx)
  refine h.replace (fun _ => rfl) ?_ (.append h.nodup hnew (by simpa using hlisted))
    (.erase h.pending_nodup (by simpa using hlisted.ne_pending)) ?_ ?_ ?_ ?_
  · rintro _ ⟨⟩
    exact hy
  · rintro _ ⟨⟩ - d hd - z hz
    exact overlapsTailq_eq_false hfree hd hz
  · intro t ch hch
    have hsound := h.chans t ch hch
    refine hsound.congr (fun d hd => Function.update_of_ne hd ..) (fun r hr hrc => ?_)
      fun z hz => ?_
    · obtain ⟨x, hx, hcopy⟩ := hsound.copies r hr
      have hmay := hcopy.may
      rw [hold x (hrc ▸ hx)] at hmay
      exact hmay
    · obtain rfl : y = z := by simpa using hz
      exact hhas t ch hch
  · rintro _ ⟨⟩ hp
    exact absurd hp hlisted.ne_pending
  · exact fun x hx hxp => absurd (hold x hx) hxp

/-- A new lock waits for one that is in its way. -/
theorem wait (h : LockSound n s) (hc : s.ctx c = none) (hphase : y.phase = .pending)
    (hy : y.Sound fun t => (s.chan t).isSome) (hov : s.overlapsTailq y.seg = true) :
    LockSound n { s.setCtx c y with pending := s.pending ++ [c] } := by
  have hlocked : c ∉ s.locked := by simp [h.listed, hc]
  have hpending : c ∉ s.pending := by simp [h.waiting, hc]
  refine h.replace (fun _ => rfl) ?_ (.same h.nodup (iff_of_false hlocked ?_))
    (.append h.pending_nodup hpending (by simpa using hphase)) ?_ ?_ ?_ ?_
  · rintro _ ⟨⟩
    exact hy
  · rintro ⟨_, ⟨⟩, hlist⟩
    exact hlist.ne_pending hphase
  · rintro _ ⟨⟩ hlist
    exact absurd hphase hlist.ne_pending
  · intro t ch hch
    refine (h.chans t ch hch).congr (fun d hd => Function.update_of_ne hd ..)
      ((h.chans t ch hch).ctx_ne hc) fun z hz => ?_
    obtain rfl : y = z := by simpa using hz
    rw [hphase]
    exact id
  · rintro _ ⟨⟩ -
    exact h.blocked_update hov hlocked
  · intro x hx
    rw [hc] at hx
    cases hx

/-- **A lock is asked for.** -/
theorem lock (h : LockSound n s) (hc : s.ctx c = none) {seg : Seg} (hlen : 0 < seg.len)
    {owner : Option ℕ} (howner : ∀ t ∈ owner, (s.chan t).isSome) :
    LockSound n (s.bdevLockLbaRange n c seg owner) := by
  unfold LockState.bdevLockLbaRange
  split
  · rename_i hov
    exact h.wait hc rfl ⟨.inl rfl, hlen, howner, fun _ => LockPhase.noConfusion⟩ hov
  · rename_i hov
    have hpending : s.pending.erase c = s.pending :=
      List.erase_of_not_mem (by simp [h.waiting, hc])
    have henter := h.enter (c := c) (y := { seg, owner, phase := .locking (s.next n 0) })
      (fun x hx => by simp [hc] at hx) trivial
      ⟨.inr (.inl trivial), hlen, howner, fun _ => LockPhase.noConfusion⟩
      (fun t ch hch hhas => h.not_passed_next hch hhas) (by simpa using hov)
    rw [hpending] at henter
    exact henter

/-- A lock goes on without a thread waiting, before and after: the channels that the sweep has now
passed and had not are those that have their copy. -/
theorem advance (h : LockSound n s) (hx : s.ctx c = some x) {p : LockPhase}
    (hlisted : x.phase.Listed) (hlisted' : p.Listed) (hgranted : p ≠ .granted)
    (hold : ∀ t, x.phase ≠ .checking t) (hnew : ∀ t, p ≠ .checking t)
    (hhas : ∀ t ch, s.chan t = some ch → p.Has t →
      x.phase.Has t ∨ ∃ r ∈ ch.lockedRanges, r.ctx = c) :
    LockSound n (s.setCtx c { x with phase := p }) := by
  refine h.keep hx hlisted { x with phase := p } rfl rfl hlisted' (fun t ht => absurd ht (hnew t))
    (fun _ => rfl) fun t ch hch => ?_
  refine (h.chans t ch hch).setCtx hx (fun r _ _ hcopy => ?_) (hhas t ch hch)
  exact hcopy.phase (hlisted'.may t) (hold t) (hnew t) fun hp => absurd hp hgranted

/-- **`bdev_lock_lba_range_check_io`.** -/
theorem checkIo (h : LockSound n s) (hx : s.ctx c = some x) {t : ℕ} {ch : BdevChannel β}
    (hphase : x.phase = .checking t) (hch : s.chan t = some ch) :
    LockSound n (s.bdevLockLbaRangeCheckIo n c x t ch) := by
  unfold LockState.bdevLockLbaRangeCheckIo
  split
  · have hself : s.setCtx c { x with phase := .checking t } = s := by
      rw [← hphase]
      exact LockState.setCtx_self hx
    rw [hself]
    exact h
  · rename_i hclean
    refine h.keep hx (by rw [hphase]; trivial) { x with phase := .locking (s.next n (t + 1)) } rfl
      rfl trivial (fun _ => LockPhase.noConfusion) (fun _ => rfl) fun u cu hu => ?_
    refine (h.chans u cu hu).setCtx hx (fun r _ hrc hcopy => ?_) fun hp => .inl ?_
    · by_cases hut : u = t
      · subst hut
        obtain rfl := Option.some.inj (hch.symm.trans hu)
        refine hcopy.checked hphase trivial LockPhase.noConfusion LockPhase.noConfusion ?_
        rw [hrc]
        simpa using hclean
      · refine hcopy.phase trivial ?_ LockPhase.noConfusion LockPhase.noConfusion
        rw [hphase]
        exact fun heq => hut (LockPhase.checking.inj heq).symm
    · rw [hphase]
      exact h.le_of_passed_next hu hp

/-- **`bdev_lock_lba_range_get_channel`.** -/
theorem getChannel (h : LockSound n s) (hx : s.ctx c = some x) {t : ℕ} {ch : BdevChannel β}
    (hphase : x.phase = .locking (some t)) (hch : s.chan t = some ch) :
    LockSound n (s.bdevLockLbaRangeGetChannel n c x t ch true) := by
  have hnot : ∀ u, x.phase ≠ .checking u := fun u => by
    rw [hphase]
    exact LockPhase.noConfusion
  unfold LockState.bdevLockLbaRangeGetChannel
  split
  · rename_i hany
    obtain ⟨r, hr, hrc⟩ := List.any_eq_true.mp hany
    refine h.advance hx (by rw [hphase]; trivial) trivial LockPhase.noConfusion hnot
      (fun _ => LockPhase.noConfusion) fun u cu hu hp => ?_
    rcases Nat.lt_or_eq_of_le (h.le_of_passed_next hu hp) with hlt | rfl
    · rw [hphase]
      exact .inl hlt
    · obtain rfl := Option.some.inj (hch.symm.trans hu)
      exact .inr ⟨r, hr, by simpa using (Bool.and_eq_true_iff.mp hrc).2⟩
  · rename_i hany
    rw [if_neg (Bool.noConfusion)]
    -- the channel has no copy yet: it gets one, and its thread looks at what it has in its hands
    have hsound := h.chans t ch hch
    have hne : ∀ r ∈ ch.lockedRanges, r.ctx ≠ c := by
      intro r hr hrc
      obtain ⟨z, hz, hcopy⟩ := hsound.copies r hr
      obtain rfl : x = z := by simpa [hrc, hx] using hz
      refine hany (List.any_eq_true.mpr ⟨r, hr, ?_⟩)
      simp [hcopy.seg, hrc]
    let ch' := { ch with lockedRanges := ch.lockedRanges ++ [x.copy c] }
    let y := { x with ownerRange := x.ownerRange || x.owner == some t, phase := .checking t }
    have hmid : LockSound n ((s.setChan t ch').setCtx c y) := by
      refine h.keep hx (by rw [hphase]; trivial) y rfl rfl trivial (fun u hu => ?_) (fun u => ?_)
        fun u cu hu => ?_
      · obtain rfl := LockPhase.checking.inj hu
        simp [hch]
      · by_cases hut : u = t
        · simp [LockState.setChan, hut, hch]
        · simp [LockState.setChan, hut]
      · by_cases hut : u = t
        · subst hut
          obtain rfl : ch' = cu := by simpa [LockState.setChan] using hu
          refine hsound.addCopy hne rfl fun ho => ?_
          show (x.ownerRange || x.owner == some u) = true
          rw [show x.owner = some u from ho, BEq.rfl, Bool.or_true]
        · have hu' : s.chan u = some cu := by simpa [LockState.setChan, hut] using hu
          refine (h.chans u cu hu').setCtx hx (fun r hr hrc hcopy => ?_) fun hp => .inl ?_
          · have hcheck : LockPhase.checking t ≠ .checking u := fun heq =>
              hut (LockPhase.checking.inj heq).symm
            have hmove := hcopy.phase (p := .checking t) trivial (hnot u) hcheck
              LockPhase.noConfusion
            exact { hmove with mine := fun ho => Bool.or_eq_true_iff.mpr (.inl (hcopy.mine ho)) }
          · rw [hphase]
            exact lt_of_le_of_ne hp hut
    have hctx : ((s.setChan t ch').setCtx c y).ctx c = some y := Function.update_self ..
    have hchan : ((s.setChan t ch').setCtx c y).chan t = some ch' := Function.update_self ..
    have hcheck := hmid.checkIo hctx rfl hchan
    unfold LockState.bdevLockLbaRangeCheckIo at hcheck
    rw [LockState.setCtx_setCtx, LockState.setCtx_setCtx] at hcheck
    exact hcheck

/-- **`bdev_lock_lba_range_cb`.** -/
theorem grant (h : LockSound n s) (hx : s.ctx c = some x) (hphase : x.phase = .locking none) :
    LockSound n (s.bdevLockLbaRangeCb c x) := by
  have hnot : ∀ t, x.phase ≠ .checking t := fun t => by
    rw [hphase]
    exact LockPhase.noConfusion
  have hother : ∀ {t : ℕ} {ch : BdevChannel β}, s.chan t = some ch → x.owner ≠ some t →
      ChanSound (Function.update s.ctx c (some { x with phase := .granted })) t ch := by
    intro t ch hch ho
    refine (h.chans t ch hch).setCtx hx (fun r _ _ hcopy => ?_) fun _ =>
      .inl (by rw [hphase]; trivial)
    exact hcopy.phase trivial (hnot t) LockPhase.noConfusion fun _ ho' => absurd ho' ho
  have hlisted : x.phase.Listed := by
    rw [hphase]
    trivial
  unfold LockState.bdevLockLbaRangeCb
  split
  · refine h.keep hx hlisted { x with phase := .granted } rfl rfl trivial
      (fun _ => LockPhase.noConfusion) (fun t => ?_) fun t ch hch => ?_
    · split
      · exact Option.isSome_map ..
      · rfl
    · by_cases ho : x.owner = some t
      · rw [if_pos ho] at hch
        obtain ⟨ch', hch', rfl⟩ := Option.map_eq_some_iff.mp hch
        exact (h.chans t ch' hch').own hx ho hphase
      · rw [if_neg ho] at hch
        exact hother hch ho
  · rename_i hrange
    refine h.keep hx hlisted { x with phase := .granted } rfl rfl trivial
      (fun _ => LockPhase.noConfusion) (fun _ => rfl) fun t ch hch => hother hch fun ho => ?_
    -- the sweep has passed the locking channel, so the lock knows of its copy
    obtain ⟨r, -, -, hcopy⟩ := (h.chans t ch hch).exists_copy hx (by rw [hphase]; trivial)
    exact hrange (hcopy.mine ho)

/-- The locking channel has its marked copy. -/
theorem exists_owned (h : LockSound n s) (hx : s.ctx c = some x) (hphase : x.phase = .granted)
    {t : ℕ} (howner : x.owner = some t) : ∃ ch, s.chan t = some ch ∧ ∃ r ∈ ch.lockedRanges,
      r.ctx = c ∧ r.seg = x.seg ∧ r.owner = some t := by
  obtain ⟨ch, hch⟩ := Option.isSome_iff_exists.mp ((h.locks c x hx).owner t howner)
  obtain ⟨r, hr, hrc, hcopy⟩ := (h.chans t ch hch).exists_copy hx (by rw [hphase]; trivial)
  exact ⟨ch, hch, r, hr, hrc, hcopy.seg, hcopy.owned hphase howner⟩

/-- **`_bdev_unlock_lba_range`** finds the lock of its caller: no other has the same range. -/
theorem bdevUnlockRange_eq (h : LockSound n s) (hx : s.ctx c = some x)
    (hphase : x.phase = .granted) :
    s.bdevUnlockRange n x.seg c =
      { s.setCtx c { x with phase := .unlocking (s.next n 0) } with
        locked := s.locked.erase c } := by
  have hmem : c ∈ s.locked := (h.listed c).mpr ⟨x, hx, by rw [hphase]; trivial⟩
  have hfind : (s.locked.find? fun d => (s.ctx d).any fun y =>
      y.seg == x.seg && (y.owner.isNone || d == c)) = some c := by
    cases hres : s.locked.find? fun d => (s.ctx d).any fun y =>
        y.seg == x.seg && (y.owner.isNone || d == c) with
    | none =>
      have hnone := List.find?_eq_none.mp hres c hmem
      simp [hx] at hnone
    | some d =>
      have hd := List.mem_of_find?_eq_some hres
      have hp := List.find?_some hres
      obtain ⟨y, hy, -⟩ := (h.listed d).mp hd
      have hseg : y.seg = x.seg := by
        simp only [Option.mem_def.mp hy, Option.any_some, Bool.and_eq_true, beq_iff_eq] at hp
        exact hp.1
      by_contra hdc
      have hov := h.apart d hd c hmem (fun heq => hdc (congrArg some heq)) y hy x hx
      rw [hseg, overlapped_self (h.locks c x hx).pos] at hov
      cases hov
  unfold LockState.bdevUnlockRange
  rw [hfind]
  simp only [hx]

theorem bdevUnlockLbaRange_eq (h : LockSound n s) (hx : s.ctx c = some x)
    (hphase : x.phase = .granted) :
    s.bdevUnlockLbaRange n c x =
      { s.setCtx c { x with phase := .unlocking (s.next n 0) } with
        locked := s.locked.erase c } := by
  rw [← h.bdevUnlockRange_eq hx hphase]
  unfold LockState.bdevUnlockLbaRange
  split
  · rfl
  · rename_i t howner
    obtain ⟨ch, hch, r, hr, hrc, hseg, ho⟩ := h.exists_owned hx hphase howner
    refine if_pos ?_
    rw [hch, Option.any_some, List.any_eq_true]
    exact ⟨r, hr, by simp [hrc, hseg, ho]⟩

/-- **A lock is given back.** -/
theorem unlock (h : LockSound n s) (hx : s.ctx c = some x) (hphase : x.phase = .granted) :
    LockSound n (s.bdevUnlockLbaRange n c x) := by
  rw [h.bdevUnlockLbaRange_eq hx hphase]
  refine h.move hx (by rw [hphase]; exact LockPhase.noConfusion)
    { x with phase := .unlocking (s.next n 0) } rfl rfl (.inr trivial) (fun hl => hl.elim)
    (fun _ => LockPhase.noConfusion) (fun _ => rfl) (.erase h.nodup id) fun t ch hch => ?_
  refine (h.chans t ch hch).setCtx hx (fun r _ _ hcopy => ?_) fun hp => hp.elim
  refine hcopy.phase (h.not_passed_next hch) ?_ LockPhase.noConfusion LockPhase.noConfusion
  rw [hphase]
  exact LockPhase.noConfusion

/-- **`bdev_unlock_lba_range_get_channel`**, or a thread without a channel. -/
theorem unvisit (h : LockSound n s) (hx : s.ctx c = some x) {t : ℕ}
    (hphase : x.phase = .unlocking (some t)) (chan : ℕ → Option (BdevChannel β))
    (hself : ∀ ch ∈ chan t, ∃ ch' ∈ s.chan t, ch = ch'.unlockRange t x.seg c)
    (hsome : (chan t).isSome = (s.chan t).isSome) (hother : ∀ u, u ≠ t → chan u = s.chan u) :
    LockSound n { s.setCtx c { x with phase := .unlocking (s.next n (t + 1)) } with chan } := by
  have hgone : c ∉ s.locked := by simp [h.listed, hx, hphase, LockPhase.Listed]
  refine h.move hx (by rw [hphase]; exact LockPhase.noConfusion)
    { x with phase := .unlocking (s.next n (t + 1)) } rfl rfl (.inr trivial) (fun hl => hl.elim)
    (fun _ => LockPhase.noConfusion) (fun u => ?_) (.same h.nodup (iff_of_false hgone id))
    fun u ch hu => ?_
  · by_cases hut : u = t
    · rw [hut, hsome]
    · rw [hother u hut]
  by_cases hut : u = t
  · subst hut
    obtain ⟨ch', hch', rfl⟩ := hself ch hu
    exact (h.chans u ch' hch').unlockRange hx id
  · rw [hother u hut] at hu
    refine (h.chans u ch hu).setCtx hx (fun r _ _ hcopy => ?_) fun hp => hp.elim
    refine hcopy.phase (fun hp => ?_) (by rw [hphase]; exact LockPhase.noConfusion)
      LockPhase.noConfusion LockPhase.noConfusion
    have hmay := hcopy.may
    rw [hphase] at hmay
    exact hmay (lt_of_le_of_ne (h.le_of_passed_next hu hp) hut)

/-- A context is freed when no channel has a copy and nothing waits for it alone. -/
theorem free (h : LockSound n s) (hx : s.ctx c = some x) (hphase : x.phase = .unlocking none)
    (hdone : ∀ d, ∀ z ∈ s.ctx d, z.phase = .pending →
      bdevLbaRangeOverlapped z.seg x.seg = true → s.overlapsTailq z.seg = true) :
    LockSound n { s with ctx := Function.update s.ctx c none } := by
  have hlocked : c ∉ s.locked := by simp [h.listed, hx, hphase, LockPhase.Listed]
  have hpending : c ∉ s.pending := by simp [h.waiting, hx, hphase]
  refine h.replace (fun _ => rfl) nofun (.same h.nodup (iff_of_false hlocked (by simp)))
    (.same h.pending_nodup (iff_of_false hpending (by simp))) nofun ?_ nofun ?_
  · intro t ch hch
    refine (h.chans t ch hch).congr (fun d hd => Function.update_of_ne hd ..)
      ((h.chans t ch hch).ctx_ne_of_not_may hx ?_) (by simp)
    rw [hphase]
    exact fun hnot => hnot trivial
  · -- what waited for the lock that is freed was found to wait for another one
    intro w hw _ d z hz hp hov
    obtain rfl := Option.mem_unique hx hw
    exact h.blocked_update (hdone d z hz hp hov) hlocked

/-- What a step of the walk through the waiting locks keeps. -/
structure Walked (s s' : LockState β) : Prop where
  chan : s'.chan = s.chan
  locked : ∀ d ∈ s.locked, d ∈ s'.locked
  stays : ∀ d, ∀ x ∈ s.ctx d, ∃ y ∈ s'.ctx d, x.Stays y
  absent : ∀ d, s.ctx d = none → s'.ctx d = none
  others : ∀ d, ∀ x ∈ s.ctx d, x.phase ≠ .pending → s'.ctx d = some x
  /-- What waits afterwards waited before. -/
  pending : ∀ d, ∀ y ∈ s'.ctx d, y.phase = .pending → y ∈ s.ctx d

theorem Walked.refl (s : LockState β) : Walked s s :=
  ⟨rfl, fun _ => id, fun _ x hx => ⟨x, hx, .refl x⟩, fun _ => id, fun _ _ hx _ => hx,
    fun _ _ hy _ => hy⟩

theorem Walked.trans {s s' s'' : LockState β} (h : Walked s s') (h' : Walked s' s'') :
    Walked s s'' where
  chan := h'.chan.trans h.chan
  locked d hd := h'.locked d (h.locked d hd)
  stays d x hx := by
    obtain ⟨y, hy, hxy⟩ := h.stays d x hx
    obtain ⟨z, hz, hyz⟩ := h'.stays d y hy
    exact ⟨z, hz, hxy.trans hyz⟩
  absent d hd := h'.absent d (h.absent d hd)
  others d x hx hp := h'.others d x (h.others d x hx hp) hp
  pending d y hy hp := h.pending d y (h'.pending d y hy hp) hp

theorem Walked.overlapsTailq {s s' : LockState β} (h : Walked s s') {seg : Seg}
    (hov : s.overlapsTailq seg = true) : s'.overlapsTailq seg = true := by
  obtain ⟨d, hd, y, hy, hov⟩ := overlapsTailq_eq_true.mp hov
  obtain ⟨z, hz, hyz⟩ := h.stays d y hy
  exact overlapsTailq_eq_true.mpr ⟨d, h.locked d hd, z, hz, by rw [hyz.seg]; exact hov⟩

/-- A step of the walk: a lock that waited for the range only is started. -/
theorem startPending (h : LockSound n s) (seg : Seg) {p : ℕ} (hp : p ∈ s.pending) :
    LockSound n (s.startPending seg p) ∧ Walked s (s.startPending seg p) ∧
      ∀ z ∈ (s.startPending seg p).ctx p, z.phase = .pending →
        bdevLbaRangeOverlapped z.seg seg = true →
        (s.startPending seg p).overlapsTailq z.seg = true := by
  obtain ⟨y, hy, hphase⟩ := (h.waiting p).mp hp
  have hy' : s.ctx p = some y := hy
  unfold LockState.startPending
  rw [hy']
  dsimp only
  split
  · rename_i hcond
    obtain ⟨-, hfree⟩ := Bool.and_eq_true_iff.mp hcond
    have hone : ∀ x ∈ s.ctx p, x = y := fun x hx => Option.some.inj (hx.symm.trans hy')
    have hsound := h.locks p y hy
    refine ⟨?_, ⟨rfl, fun d hd => List.mem_append_left _ hd, ?_, ?_, ?_, ?_⟩, fun z hz hpz => ?_⟩
    · exact h.enter (y := { y with phase := .started })
        (fun x hx => by rw [hone x hx]; exact hphase) trivial
        ⟨.inr (.inl trivial), hsound.pos, hsound.owner, fun _ => LockPhase.noConfusion⟩
        (fun _ _ _ => id) (by simpa using hfree)
    · intro d x hx
      by_cases hdp : d = p
      · subst hdp
        rw [hone x hx]
        exact ⟨_, Function.update_self .., rfl, rfl, by rw [hphase]; rfl⟩
      · exact ⟨x, mem_update_some.mpr (.inr ⟨hdp, hx⟩), .refl x⟩
    · intro d hd
      refine (Function.update_of_ne ?_ ..).trans hd
      rintro rfl
      rw [hy'] at hd
      cases hd
    · intro d x hx hpx
      refine mem_update_some.mpr (.inr ⟨?_, hx⟩)
      rintro rfl
      rw [hone x hx] at hpx
      exact hpx hphase
    · intro d z hz hpz
      rcases mem_update_some.mp hz with ⟨-, rfl⟩ | ⟨-, hz'⟩
      · cases hpz
      · exact hz'
    · rcases mem_update_some.mp hz with ⟨-, rfl⟩ | ⟨hpp, -⟩
      · cases hpz
      · exact absurd rfl hpp
  · rename_i hcond
    refine ⟨h, Walked.refl s, fun z hz _ hov => ?_⟩
    obtain rfl := Option.some.inj (hz.symm.trans hy')
    simpa [hov] using hcond

theorem mem_pending_startPending {seg : Seg} {p q : ℕ} (hq : q ∈ s.pending) (hqp : q ≠ p) :
    q ∈ (s.startPending seg p).pending := by
  unfold LockState.startPending
  split
  · exact hq
  · split
    · exact (List.mem_erase_of_ne hqp).mpr hq
    · exact hq

/-- The whole walk. -/
theorem walk (seg : Seg) : ∀ (ps : List ℕ) {s : LockState β}, LockSound n s → ps.Nodup →
    (∀ p ∈ ps, p ∈ s.pending) →
    LockSound n (ps.foldl (fun s p => s.startPending seg p) s) ∧
      Walked s (ps.foldl (fun s p => s.startPending seg p) s) ∧
      ∀ p ∈ ps, ∀ z ∈ (ps.foldl (fun s p => s.startPending seg p) s).ctx p, z.phase = .pending →
        bdevLbaRangeOverlapped z.seg seg = true →
        (ps.foldl (fun s p => s.startPending seg p) s).overlapsTailq z.seg = true
  | [], s, h, _, _ => ⟨h, Walked.refl s, fun p hp => by cases hp⟩
  | p :: ps, s, h, hnodup, hps => by
      obtain ⟨hsound, hwalked, hdone⟩ := h.startPending seg (hps p (List.mem_cons_self ..))
      obtain ⟨hp, hnodup'⟩ := List.nodup_cons.mp hnodup
      have hrest : ∀ q ∈ ps, q ∈ (s.startPending seg p).pending := fun q hq =>
        mem_pending_startPending (hps q (List.mem_cons_of_mem _ hq)) fun heq => hp (heq ▸ hq)
      obtain ⟨hsound', hwalked', hdone'⟩ := walk seg ps hsound hnodup' hrest
      refine ⟨hsound', hwalked.trans hwalked', fun q hq z hz hpz hov => ?_⟩
      rcases List.mem_cons.mp hq with rfl | hq
      · exact hwalked'.overlapsTailq (hdone z (hwalked'.pending q z hz hpz) hpz hov)
      · exact hdone' q hq z hz hpz hov

/-- **`bdev_unlock_lba_range_cb`.** -/
theorem release (h : LockSound n s) (hx : s.ctx c = some x) (hphase : x.phase = .unlocking none) :
    LockSound n (s.bdevUnlockLbaRangeCb c x) := by
  obtain ⟨hsound, hwalked, hdone⟩ := walk x.seg s.pending h h.pending_nodup fun _ => id
  have hx' := hwalked.others c x hx (by rw [hphase]; exact LockPhase.noConfusion)
  refine hsound.free hx' hphase fun d z hz hp hov => hdone d ?_ z hz hp hov
  exact (h.waiting d).mpr ⟨z, hwalked.pending d z hz hp, hp⟩

theorem mem_inherited {r : LbaRange} :
    r ∈ s.inherited ↔ ∃ d ∈ s.locked, ∃ y ∈ s.ctx d, { seg := y.seg, ctx := d } = r := by
  simp [LockState.inherited, List.mem_filterMap]

theorem map_ctx_inherited_sublist : (s.inherited.map LbaRange.ctx).Sublist s.locked := by
  have hkeys : s.inherited.map LbaRange.ctx = s.locked.filter fun d => (s.ctx d).isSome := by
    rw [LockState.inherited, List.map_filterMap, ← List.filterMap_eq_filter]
    refine List.filterMap_congr fun d _ => ?_
    cases hd : s.ctx d <;> simp [Option.guard, hd]
  rw [hkeys]
  exact List.filter_sublist

/-- A new channel has a copy of every locked range, and no I/O. -/
theorem chanSound_inherited (h : LockSound n s) {t : ℕ} (hch : s.chan t = none) :
    ChanSound s.ctx t ({ lockedRanges := s.inherited } : BdevChannel β) where
  keys := h.nodup.sublist map_ctx_inherited_sublist
  copies r hr := by
    obtain ⟨d, hd, y, hy, rfl⟩ := mem_inherited.mp hr
    obtain ⟨y', hy', hlist⟩ := (h.listed d).mp hd
    obtain rfl := Option.some.inj (hy.symm.trans hy')
    have howner : y.owner ≠ some t := fun ho => by
      have hsome := (h.locks d y hy).owner t ho
      rw [hch] at hsome
      cases hsome
    refine ⟨y, hy, ?_⟩
    exact
      { seg := rfl
        may := hlist.may t
        fresh := fun hcheck => by
          have hsome := (h.locks d y hy).checking t hcheck
          rw [hch] at hsome
          cases hsome
        clean := fun _ io hio => by cases hio
        mine := fun ho => absurd ho howner
        owned := fun _ ho => absurd ho howner
        owner := fun u hu => by cases hu }
  has d z hz hd :=
    ⟨{ seg := z.seg, ctx := d },
      mem_inherited.mpr ⟨d, (h.listed d).mpr ⟨z, hz, hd.listed⟩, z, hz, rfl⟩, rfl⟩
  held io hio := by cases hio

/-- **`bdev_channel_create`.** -/
theorem create (h : LockSound n s) {t : ℕ} (ht : t < n) (hch : s.chan t = none) :
    LockSound n (s.setChan t { lockedRanges := s.inherited }) := by
  refine
    { h with
      chan_lt := fun u hu => ?_
      locks := fun d z hz => (h.locks d z hz).mono fun u _ hu => ?_
      chans := fun u ch hu => ?_ } <;>
    by_cases hut : u = t
  · exact hut ▸ ht
  · exact h.chan_lt u (by simpa [LockState.setChan, hut] using hu)
  · simp [LockState.setChan, hut]
  · simpa [LockState.setChan, hut] using hu
  · subst hut
    obtain rfl : { lockedRanges := s.inherited } = ch := by simpa [LockState.setChan] using hu
    exact h.chanSound_inherited hch
  · exact h.chans u ch (by simpa [LockState.setChan, hut] using hu)

/-- **`bdev_channel_destroy`.** -/
theorem destroy (h : LockSound n s) {t : ℕ}
    (hfree : ∀ c, ∀ x ∈ s.ctx c, x.owner ≠ some t ∧ x.phase ≠ .checking t) :
    LockSound n { s with chan := Function.update s.chan t none } := by
  refine
    { h with
      chan_lt := fun u hu => ?_
      locks := fun d z hz => (h.locks d z hz).mono fun u hor hu => ?_
      chans := fun u ch hu => ?_ } <;>
    by_cases hut : u = t
  · simp [hut] at hu
  · exact h.chan_lt u (by simpa [hut] using hu)
  · subst hut
    exact (hor.elim (hfree d z hz).1 (hfree d z hz).2).elim
  · simpa [hut] using hu
  · simp [hut] at hu
  · exact h.chans u ch (by simpa [hut] using hu)

/-- **`bdev_io_submit`.** -/
theorem submit (h : LockSound n s) {t : ℕ} {ch : BdevChannel β} (hch : s.chan t = some ch)
    (io : BdevIo β) : LockSound n (s.setChan t (ch.bdevIoSubmit t io)) := by
  refine h.setChan hch ((h.chans t ch hch).io BdevChannel.lockedRanges_bdevIoSubmit
    (fun j hj => (BdevChannel.mem_submitted_bdevIoSubmit hj).imp id And.right) fun j hj => ?_)
  rcases BdevChannel.mem_held_bdevIoSubmit hj with hj | ⟨r, hr, hlock⟩
  · exact (h.chans t ch hch).held j hj
  · exact ⟨r, hr, concerns_of_isLocked hlock⟩

/-- **An I/O is completed.** -/
theorem finish (h : LockSound n s) {t : ℕ} {ch : BdevChannel β} (hch : s.chan t = some ch) (k : ℕ) :
    LockSound n (s.setChan t { ch with submitted := ch.submitted.eraseIdx k }) :=
  h.setChan hch ((h.chans t ch hch).io rfl (fun _ hj => .inl (List.mem_of_mem_eraseIdx hj))
    (h.chans t ch hch).held)

end LockSound

end NdpHeaan
