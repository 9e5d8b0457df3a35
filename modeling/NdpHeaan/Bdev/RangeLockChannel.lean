import Mathlib.Data.List.Nodup
import NdpHeaan.Bdev.RangeLock

/-!
# Bdev/RangeLockChannel — a channel and the locks of its bdev

What holds of a channel and a lock: where the sweep of the lock has passed, the channel has a copy
of the range (`ChanSound.has`), and a channel that has a copy has no I/O in its hands that the copy
blocks, unless its thread is still waiting for that (`CopySound.clean`).  The rules below are one
for each way in which a lock goes on or the I/O of a channel changes.
-/

open Machinery

namespace NdpHeaan

/-! ## Ranges -/

theorem overlapped_iff (r s : Seg) :
    bdevLbaRangeOverlapped r s = true ↔ ∃ k, r.Mem k ∧ s.Mem k := by
  unfold bdevLbaRangeOverlapped Seg.Mem
  constructor
  · intro h
    split at h
    · cases h
    split at h
    · cases h
    split at h
    · cases h
    exact ⟨max r.start s.start, by omega, by omega⟩
  · rintro ⟨k, hr, hs⟩
    rw [if_neg (by omega), if_neg (by omega), if_neg (by omega)]

theorem overlapped_comm (r s : Seg) : bdevLbaRangeOverlapped r s = bdevLbaRangeOverlapped s r := by
  rw [Bool.eq_iff_iff, overlapped_iff, overlapped_iff]
  simp only [and_comm]

theorem overlapped_self {r : Seg} (h : 0 < r.len) : bdevLbaRangeOverlapped r r = true :=
  (overlapped_iff r r).mpr ⟨r.start, by unfold Seg.Mem; omega⟩

/-- The types of I/O that write and that a lock holds back: those in the `switch` of
`bdev_io_range_is_locked`.  ZONE_APPEND and COMPARE_AND_WRITE write too, and pass every lock. -/
def BdevIoType.IsWrite : BdevIoType → Prop
  | .write | .unmap | .writeZeroes | .zcopy | .copy => True
  | _ => False

/-- The commands that are passed to the device as they are and that any lock holds back.
NVME_IOV_MD is not in the `switch` and passes. -/
def BdevIoType.IsNvme : BdevIoType → Prop
  | .nvmeIo | .nvmeIoMd => True
  | _ => False

section Ranges

variable {β : Type} {t : ℕ} {io : BdevIo β} {r : LbaRange}

/-- The I/O is one that the range blocks, whoever has locked it. -/
def LbaRange.Concerns (r : LbaRange) (io : BdevIo β) : Prop :=
  bdevIoRangeIsLocked 0 io { r with owner := none } = true

/-- Whether an I/O is blocked depends on the range through `LbaRange.blocks`. -/
theorem isLocked_mono {u : ℕ} {q : LbaRange} (hq : q.quiesce = r.quiesce)
    (hb : r.blocks t io = true → q.blocks u io = true) (h : bdevIoRangeIsLocked t io r = true) :
    bdevIoRangeIsLocked u io q = true := by
  unfold bdevIoRangeIsLocked at h ⊢
  rw [hq]
  split at h
  · rfl
  · rfl
  · simp only [Bool.and_eq_true] at h ⊢
    exact ⟨h.1, hb h.2⟩
  · exact hb h
  · exact hb h
  · exact hb h
  · exact hb h
  · exact hb h
  · cases h

theorem concerns_of_isLocked (h : bdevIoRangeIsLocked t io r = true) : r.Concerns io := by
  refine isLocked_mono (by rfl) (fun hb => ?_) h
  simp only [LbaRange.blocks, Bool.and_eq_true] at hb ⊢
  exact ⟨hb.1, rfl⟩

/-- A granted lock blocks no more than it did before. -/
theorem isLocked_of_own (h : bdevIoRangeIsLocked t io { r with owner := some t } = true) :
    bdevIoRangeIsLocked t io r = true := by
  refine isLocked_mono (by rfl) (fun hb => ?_) h
  simp only [LbaRange.blocks, Bool.and_eq_true, BEq.rfl, Bool.true_and] at hb ⊢
  exact ⟨hb.1, by simp_all⟩

theorem isLocked_of_isNvme (h : io.type.IsNvme) : bdevIoRangeIsLocked t io r = true := by
  unfold BdevIoType.IsNvme at h
  unfold bdevIoRangeIsLocked
  split at h <;> simp_all

theorem isLocked_of_isWrite (h : io.type.IsWrite) :
    bdevIoRangeIsLocked t io r = r.blocks t io := by
  unfold BdevIoType.IsWrite at h
  unfold bdevIoRangeIsLocked
  split at h <;> simp_all

/-- Only a lock's own I/O is not blocked where it overlaps. -/
theorem owner_of_not_blocks (h : r.blocks t io = false)
    (hov : bdevLbaRangeOverlapped r.seg io.seg = true) : r.owner = some t ∧ r.ctx = io.ctx := by
  simp only [LbaRange.blocks, hov, Bool.true_and, Bool.not_eq_false', Bool.and_eq_true,
    beq_iff_eq] at h
  exact h

end Ranges

/-! ## Channels -/

namespace BdevChannel

variable {β : Type} {t : ℕ} {ch : BdevChannel β} {io : BdevIo β}

@[simp] theorem lockedRanges_bdevIoSubmit :
    (ch.bdevIoSubmit t io).lockedRanges = ch.lockedRanges := by
  unfold bdevIoSubmit
  split <;> rfl

/-- The I/O that no range blocks goes to the device… -/
theorem mem_submitted_bdevIoSubmit {j : BdevIo β} (h : j ∈ (ch.bdevIoSubmit t io).submitted) :
    j ∈ ch.submitted ∨ j = io ∧ ∀ r ∈ ch.lockedRanges, bdevIoRangeIsLocked t j r = false := by
  unfold bdevIoSubmit at h
  split at h
  · exact .inl h
  · rename_i hany
    refine (List.mem_append.mp h).imp id fun hj => ?_
    obtain rfl := List.mem_singleton.mp hj
    exact ⟨rfl, by simpa using hany⟩

/-- …and what one blocks is held back. -/
theorem mem_held_bdevIoSubmit {j : BdevIo β} (h : j ∈ (ch.bdevIoSubmit t io).held) :
    j ∈ ch.held ∨ ∃ r ∈ ch.lockedRanges, bdevIoRangeIsLocked t j r = true := by
  unfold bdevIoSubmit at h
  split at h
  · rename_i hany
    refine (List.mem_append.mp h).imp id fun hj => ?_
    obtain rfl := List.mem_singleton.mp hj
    simpa using hany
  · exact .inl h

theorem lockedRanges_foldl : ∀ (ios : List (BdevIo β)) (ch : BdevChannel β),
    (ios.foldl (bdevIoSubmit t) ch).lockedRanges = ch.lockedRanges
  | [], _ => rfl
  | io :: ios, ch => by rw [List.foldl_cons, lockedRanges_foldl ios, lockedRanges_bdevIoSubmit]

theorem mem_submitted_foldl {j : BdevIo β} : ∀ (ios : List (BdevIo β)) (ch : BdevChannel β),
    j ∈ (ios.foldl (bdevIoSubmit t) ch).submitted →
    j ∈ ch.submitted ∨ ∀ r ∈ ch.lockedRanges, bdevIoRangeIsLocked t j r = false
  | [], _, h => .inl h
  | io :: ios, ch, h => by
      rcases mem_submitted_foldl ios _ h with h | h
      · exact (mem_submitted_bdevIoSubmit h).imp id And.right
      · rw [lockedRanges_bdevIoSubmit] at h
        exact .inr h

theorem mem_held_foldl {j : BdevIo β} : ∀ (ios : List (BdevIo β)) (ch : BdevChannel β),
    j ∈ (ios.foldl (bdevIoSubmit t) ch).held →
    j ∈ ch.held ∨ ∃ r ∈ ch.lockedRanges, bdevIoRangeIsLocked t j r = true
  | [], _, h => .inl h
  | io :: ios, ch, h => by
      rcases mem_held_foldl ios _ h with h | h
      · exact mem_held_bdevIoSubmit h
      · rw [lockedRanges_bdevIoSubmit] at h
        exact .inr h

end BdevChannel

/-- With one element for each key, erasing the first with a key leaves those with another. -/
theorem mem_eraseP_key {α κ : Type*} {key : α → κ} {p : α → Bool} {c : κ} {a : α} :
    ∀ {l : List α}, (l.map key).Nodup → (∀ b ∈ l, p b = true ↔ key b = c) →
      (a ∈ l.eraseP p ↔ a ∈ l ∧ key a ≠ c)
  | [], _, _ => by simp
  | b :: l, hnodup, hp => by
      obtain ⟨hb, hl⟩ := List.nodup_cons.mp hnodup
      have hhead := hp b (List.mem_cons_self ..)
      by_cases hbc : key b = c
      · rw [List.eraseP_cons_of_pos (hhead.mpr hbc)]
        constructor
        · intro ha
          refine ⟨List.mem_cons_of_mem _ ha, fun hac => hb ?_⟩
          exact List.mem_map.mpr ⟨a, ha, hac.trans hbc.symm⟩
        · rintro ⟨ha, hac⟩
          exact (List.mem_cons.mp ha).resolve_left fun hab => hac (hab ▸ hbc)
      · rw [List.eraseP_cons_of_neg (mt hhead.mp hbc), List.mem_cons,
          mem_eraseP_key hl fun d hd => hp d (List.mem_cons_of_mem _ hd), List.mem_cons,
            or_and_right]
        refine or_congr_left ⟨fun hab => ⟨hab, hab ▸ hbc⟩, And.left⟩

/-! ## The invariant -/

/-- What the holder of a lock can tell of it. -/
inductive LockStage
  | acquiring
  | granted
  | leaving
  | failing
  deriving DecidableEq

namespace LockPhase

/-- The lock is in `locked_ranges`. -/
def Listed : LockPhase → Prop
  | .started | .locking _ | .checking _ | .granted => True
  | _ => False

/-- The lock is in neither list: its copies are being removed. -/
def Leaving : LockPhase → Prop
  | .unlocking _ => True
  | _ => False

/-- The channel of the thread may have a copy. -/
def May : LockPhase → ℕ → Prop
  | .started, _ | .locking _, _ | .checking _, _ | .granted, _ => True
  | .unlocking pos, t => ¬ Passed pos t
  | _, _ => False

/-- The channel of the thread has a copy. -/
def Has : LockPhase → ℕ → Prop
  | .locking pos, t => Passed pos t
  | .checking cur, t => t ≤ cur
  | .granted, _ => True
  | _, _ => False

theorem Listed.may {p : LockPhase} (h : p.Listed) (t : ℕ) : p.May t := by
  cases p with
  | pending => cases h
  | unlocking => cases h
  | failed => cases h
  | failing => cases h
  | _ => trivial

theorem Has.listed {p : LockPhase} {t : ℕ} (h : p.Has t) : p.Listed := by
  cases p with
  | pending => cases h
  | unlocking => cases h
  | failed => cases h
  | failing => cases h
  | _ => trivial

/-- Where a lock is, seen from its holder. -/
def stage : LockPhase → LockStage
  | .pending | .started | .locking _ | .checking _ => .acquiring
  | .granted => .granted
  | .unlocking _ => .leaving
  | .failed | .failing _ => .failing

end LockPhase

/-- A lock stays where it is, seen from its holder. -/
structure LockCtx.Stays (x y : LockCtx) : Prop where
  seg : y.seg = x.seg
  owner : y.owner = x.owner
  stage : y.phase.stage = x.phase.stage

theorem LockCtx.Stays.refl (x : LockCtx) : x.Stays x := ⟨rfl, rfl, rfl⟩

theorem LockCtx.Stays.trans {x y z : LockCtx} (h : x.Stays y) (h' : y.Stays z) : x.Stays z :=
  ⟨h'.seg.trans h.seg, h'.owner.trans h.owner, h'.stage.trans h.stage⟩

/-- **What a copy of a locked range is for**, on the channel of the thread `t` with this I/O in its
hands. -/
structure CopySound {β : Type} (x : LockCtx) (t : ℕ) (ios : List (BdevIo β)) (r : LbaRange) :
    Prop where
  seg : r.seg = x.seg
  may : x.phase.May t
  /-- What a thread waits for is that its own new copy blocks nothing… -/
  fresh : x.phase = .checking t → r = x.copy r.ctx
  /-- …and from then on it does not. -/
  clean : x.phase ≠ .checking t → ∀ io ∈ ios, bdevIoRangeIsLocked t io r = false
  /-- The copy on the locking channel is one that the lock knows of… -/
  mine : x.owner = some t → x.ownerRange = true
  /-- …and is marked when the lock is granted. -/
  owned : x.phase = .granted → x.owner = some t → r.owner = some t
  owner : ∀ u ∈ r.owner, u = t ∧ x.owner = some t

/-- **What a channel's list of locked ranges is for.** -/
structure ChanSound {β : Type} (ctx : ℕ → Option LockCtx) (t : ℕ) (ch : BdevChannel β) : Prop where
  keys : (ch.lockedRanges.map LbaRange.ctx).Nodup
  copies : ∀ r ∈ ch.lockedRanges, ∃ x ∈ ctx r.ctx, CopySound x t ch.submitted r
  has : ∀ c, ∀ x ∈ ctx c, x.phase.Has t → ∃ r ∈ ch.lockedRanges, r.ctx = c
  held : ∀ io ∈ ch.held, ∃ r ∈ ch.lockedRanges, r.Concerns io

/-! ## A lock moves on -/

namespace CopySound

variable {β : Type} {t : ℕ} {ios ios' : List (BdevIo β)} {r : LbaRange} {x y : LockCtx}

/-- A lock that no thread is waiting with goes on to a phase in which none is. -/
theorem phase (h : CopySound x t ios r) {p : LockPhase} (hmay : p.May t)
    (hold : x.phase ≠ .checking t) (hnew : p ≠ .checking t)
    (hgranted : p = .granted → x.owner = some t → r.owner = some t) :
    CopySound { x with phase := p } t ios r where
  seg := h.seg
  may := hmay
  fresh := fun hp => absurd hp hnew
  clean := fun _ => h.clean hold
  mine := h.mine
  owned := hgranted
  owner := h.owner

/-- The thread is done waiting. -/
theorem checked (h : CopySound x t ios r) {p : LockPhase} (hx : x.phase = .checking t)
    (hmay : p.May t) (hp : p ≠ .checking t) (hgranted : p ≠ .granted)
    (hclean : ∀ io ∈ ios, bdevIoRangeIsLocked t io (x.copy r.ctx) = false) :
    CopySound { x with phase := p } t ios r where
  seg := h.seg
  may := hmay
  fresh := fun hp' => absurd hp' hp
  clean := fun _ io hio => by
    rw [h.fresh hx]
    exact hclean io hio
  mine := h.mine
  owned := fun hp' => absurd hp' hgranted
  owner := h.owner

/-- The I/O in the hands of the channel changes: what is new is not blocked. -/
theorem io (h : CopySound x t ios r)
    (hio : ∀ io ∈ ios', io ∈ ios ∨ bdevIoRangeIsLocked t io r = false) : CopySound x t ios' r :=
  { h with clean := fun hx io hmem => (hio io hmem).elim (h.clean hx io) id }

/-- The lock is granted to this channel. -/
theorem own (h : CopySound x t ios r) (howner : x.owner = some t) (hx : x.phase ≠ .checking t) :
    CopySound { x with phase := .granted } t ios { r with owner := some t } where
  seg := h.seg
  may := trivial
  fresh := LockPhase.noConfusion
  clean := fun _ io hio => by
    rw [Bool.eq_false_iff]
    exact fun hlock => Bool.eq_false_iff.mp (h.clean hx io hio) (isLocked_of_own hlock)
  mine := h.mine
  owned := fun _ _ => rfl
  owner := fun _ hu => ⟨(Option.some.inj hu).symm, howner⟩

end CopySound

namespace ChanSound

variable {β : Type} {ctx ctx' : ℕ → Option LockCtx} {t c : ℕ} {ch : BdevChannel β} {x y : LockCtx}

/-- A lock's context is replaced. -/
theorem setCtx (h : ChanSound ctx t ch) (hx : ctx c = some x)
    (hcopy : ∀ r ∈ ch.lockedRanges, r.ctx = c → CopySound x t ch.submitted r →
      CopySound y t ch.submitted r)
    (hhas : y.phase.Has t → x.phase.Has t ∨ ∃ r ∈ ch.lockedRanges, r.ctx = c) :
    ChanSound (Function.update ctx c (some y)) t ch where
  keys := h.keys
  copies r hr := by
    obtain ⟨z, hz, hsound⟩ := h.copies r hr
    by_cases hrc : r.ctx = c
    · obtain rfl : x = z := by simpa [hrc, hx] using hz
      exact ⟨y, by simp [hrc], hcopy r hr hrc hsound⟩
    · exact ⟨z, by simpa [hrc] using hz, hsound⟩
  has d z hz hd := by
    by_cases hdc : d = c
    · subst hdc
      obtain rfl : y = z := by simpa using hz
      exact (hhas hd).elim (h.has d x hx) id
    · exact h.has d z (by simpa [hdc] using hz) hd
  held := h.held

/-- The copy that a channel must have, and what is known of it. -/
theorem exists_copy (h : ChanSound ctx t ch) (hx : ctx c = some x) (hhas : x.phase.Has t) :
    ∃ r ∈ ch.lockedRanges, r.ctx = c ∧ CopySound x t ch.submitted r := by
  obtain ⟨r, hr, hrc⟩ := h.has c x hx hhas
  obtain ⟨z, hz, hsound⟩ := h.copies r hr
  obtain rfl : x = z := by simpa [hrc, hx] using hz
  exact ⟨r, hr, hrc, hsound⟩

/-- A channel has no copies of a lock that is not there. -/
theorem ctx_ne (h : ChanSound ctx t ch) (hc : ctx c = none) : ∀ r ∈ ch.lockedRanges, r.ctx ≠ c := by
  rintro r hr rfl
  obtain ⟨x, hx, -⟩ := h.copies r hr
  simp [hc] at hx

/-- …nor of one that may have none. -/
theorem ctx_ne_of_not_may (h : ChanSound ctx t ch) (hx : ctx c = some x) (hmay : ¬ x.phase.May t) :
    ∀ r ∈ ch.lockedRanges, r.ctx ≠ c := by
  rintro r hr rfl
  obtain ⟨z, hz, hsound⟩ := h.copies r hr
  obtain rfl : x = z := by simpa [hx] using hz
  exact hmay hsound.may

/-- What concerns a lock of which the channel has no copy may change. -/
theorem congr (h : ChanSound ctx t ch) (hctx : ∀ d, d ≠ c → ctx' d = ctx d)
    (hne : ∀ r ∈ ch.lockedRanges, r.ctx ≠ c) (hhas : ∀ y ∈ ctx' c, ¬ y.phase.Has t) :
    ChanSound ctx' t ch where
  keys := h.keys
  copies r hr := by
    rw [hctx _ (hne r hr)]
    exact h.copies r hr
  has d z hz hd := by
    by_cases hdc : d = c
    · subst hdc
      exact absurd hd (hhas z hz)
    · exact h.has d z (hctx d hdc ▸ hz) hd
  held := h.held

/-- The I/O of a channel changes: what is new in its hands is not blocked, and what is held back is
concerned by a range. -/
theorem io (h : ChanSound ctx t ch) {ch' : BdevChannel β}
    (hranges : ch'.lockedRanges = ch.lockedRanges)
    (hsub : ∀ io ∈ ch'.submitted, io ∈ ch.submitted ∨
      ∀ r ∈ ch.lockedRanges, bdevIoRangeIsLocked t io r = false)
    (hheld : ∀ io ∈ ch'.held, ∃ r ∈ ch.lockedRanges, r.Concerns io) : ChanSound ctx t ch' where
  keys := by
    rw [hranges]
    exact h.keys
  copies r hr := by
    rw [hranges] at hr
    obtain ⟨x, hx, hsound⟩ := h.copies r hr
    exact ⟨x, hx, hsound.io fun io hio => (hsub io hio).imp id fun hlock => hlock r hr⟩
  has := by
    rw [hranges]
    exact h.has
  held := by
    rw [hranges]
    exact hheld

/-- A channel gets its copy of a range, and its thread looks at the I/O in its hands. -/
theorem addCopy (h : ChanSound ctx t ch) (hne : ∀ r ∈ ch.lockedRanges, r.ctx ≠ c)
    (hcheck : y.phase = .checking t) (hrange : y.owner = some t → y.ownerRange = true) :
    ChanSound (Function.update ctx c (some y)) t
      { ch with lockedRanges := ch.lockedRanges ++ [y.copy c] } where
  keys := by
    rw [List.map_append, List.map_singleton, ← List.concat_eq_append]
    refine List.Nodup.concat (fun hc => ?_) h.keys
    obtain ⟨r, hr, hrc⟩ := List.mem_map.mp hc
    exact hne r hr hrc
  copies r hr := by
    rcases List.mem_append.mp hr with hr | hr
    · rw [Function.update_of_ne (hne r hr)]
      exact h.copies r hr
    · obtain rfl := List.mem_singleton.mp hr
      refine ⟨y, by simp [LockCtx.copy], ?_⟩
      exact
        { seg := rfl
          may := by rw [hcheck]; trivial
          fresh := fun _ => rfl
          clean := fun hne => absurd hcheck hne
          mine := hrange
          owned := fun hg => by rw [hcheck] at hg; cases hg
          owner := fun u hu => by cases hu }
  has d z hz hd := by
    by_cases hdc : d = c
    · exact ⟨y.copy c, List.mem_append_right _ (List.mem_singleton_self _), hdc.symm⟩
    · obtain ⟨r, hr, hrd⟩ := h.has d z (by simpa [hdc] using hz) hd
      exact ⟨r, List.mem_append_left _ hr, hrd⟩
  held io hio := by
    obtain ⟨r, hr, hconcerns⟩ := h.held io hio
    exact ⟨r, List.mem_append_left _ hr, hconcerns⟩

/-- The lock is granted to this channel. -/
theorem own (h : ChanSound ctx t ch) (hx : ctx c = some x) (howner : x.owner = some t)
    (hphase : x.phase = .locking none) :
    ChanSound (Function.update ctx c (some { x with phase := .granted })) t (ch.own t c) := by
  have hctx : ∀ q : LbaRange,
      (if q.ctx = c then { q with owner := some t } else q).ctx = q.ctx := fun q => by
    split <;> rfl
  constructor
  case keys =>
    have heq : (ch.own t c).lockedRanges.map LbaRange.ctx = ch.lockedRanges.map LbaRange.ctx := by
      unfold BdevChannel.own
      rw [List.map_map]
      exact List.map_congr_left fun q _ => hctx q
    rw [heq]
    exact h.keys
  case copies =>
    intro r hr
    obtain ⟨q, hq, rfl⟩ := List.mem_map.mp hr
    obtain ⟨z, hz, hsound⟩ := h.copies q hq
    rw [hctx q]
    by_cases hqc : q.ctx = c
    · obtain rfl : x = z := by simpa [hqc, hx] using hz
      rw [if_pos hqc]
      refine ⟨_, by simp [hqc], hsound.own howner ?_⟩
      rw [hphase]
      exact LockPhase.noConfusion
    · rw [if_neg hqc]
      exact ⟨z, by simpa [hqc] using hz, hsound⟩
  case has =>
    intro d z hz hd
    have hold : ∃ r ∈ ch.lockedRanges, r.ctx = d := by
      by_cases hdc : d = c
      · subst hdc
        exact h.has d x hx (by rw [hphase]; trivial)
      · exact h.has d z (by simpa [hdc] using hz) hd
    obtain ⟨r, hr, hrd⟩ := hold
    exact ⟨_, List.mem_map_of_mem hr, (hctx r).trans hrd⟩
  case held =>
    intro io hio
    obtain ⟨r, hr, hconcerns⟩ := h.held io hio
    refine ⟨_, List.mem_map_of_mem hr, ?_⟩
    split
    · exact hconcerns
    · exact hconcerns

/-- The copies that remain when that of one lock is removed. -/
theorem mem_eraseP (h : ChanSound ctx t ch) (hx : ctx c = some x) {r : LbaRange} :
    r ∈ ch.lockedRanges.eraseP (fun r => r.seg == x.seg && r.ctx == c) ↔
      r ∈ ch.lockedRanges ∧ r.ctx ≠ c := by
  refine mem_eraseP_key h.keys fun q hq => ?_
  obtain ⟨z, hz, hsound⟩ := h.copies q hq
  constructor
  · intro hb
    simpa using (Bool.and_eq_true_iff.mp hb).2
  · intro hqc
    obtain rfl : x = z := by simpa [hqc, hx] using hz
    simp [hsound.seg, hqc]

/-- The copy of a lock that leaves is removed, and the I/O that was held back is submitted again. -/
theorem unlockRange (h : ChanSound ctx t ch) (hx : ctx c = some x) (hy : ¬ y.phase.Has t) :
    ChanSound (Function.update ctx c (some y)) t (ch.unlockRange t x.seg c) := by
  have hranges : (ch.unlockRange t x.seg c).lockedRanges
      = ch.lockedRanges.eraseP fun r => r.seg == x.seg && r.ctx == c :=
    BdevChannel.lockedRanges_foldl _ _
  constructor
  case keys =>
    rw [hranges]
    exact h.keys.sublist (List.eraseP_sublist.map _)
  case copies =>
    intro r hr
    rw [hranges] at hr
    obtain ⟨hmem, hrc⟩ := (h.mem_eraseP hx).mp hr
    obtain ⟨z, hz, hsound⟩ := h.copies r hmem
    refine ⟨z, by simpa [hrc] using hz, hsound.io fun io hio => ?_⟩
    exact (BdevChannel.mem_submitted_foldl _ _ hio).imp id fun hlock => hlock r hr
  case has =>
    intro d z hz hd
    have hdc : d ≠ c := by
      rintro rfl
      obtain rfl : y = z := by simpa using hz
      exact hy hd
    obtain ⟨r, hr, hrd⟩ := h.has d z (by simpa [hdc] using hz) hd
    rw [hranges]
    exact ⟨r, (h.mem_eraseP hx).mpr ⟨hr, hrd ▸ hdc⟩, hrd⟩
  case held =>
    intro io hio
    rw [hranges]
    rcases BdevChannel.mem_held_foldl _ _ hio with hnil | ⟨r, hr, hlock⟩
    · cases hnil
    · exact ⟨r, hr, concerns_of_isLocked hlock⟩

end ChanSound

end NdpHeaan
