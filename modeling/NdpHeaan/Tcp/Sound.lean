import Mathlib.Data.List.Nodup
import NdpHeaan.Tcp.Qpair

/-!
# Tcp/Sound — a TCP qpair between two steps

At rest every slot is free or works in one of six states, a slot is in line for buffers exactly
while it needs some, what it holds of the pool is what the log says, and a data PDU that is still
out belongs to a request that waits for just that data.  A step breaks this for the slots it is
working on: `SoundBut Q X` leaves out the slots `X`, which a step *enters* and *leaves* one at a
time.

    Sound ──enter t──▸ SoundBut {t} ──setReq t──▸ SoundBut {t} ──leave t, or put t──▸ Sound
-/

open Machinery

namespace NdpHeaan

/-! ## What the pool is owed -/

/-- What slot `t` holds of the pool after one more effect; `none` once it got buffers while it held
some, or returned others than it held. -/
def poolStep (t : ℕ) (held : Option ℕ) : TcpEffect → Option ℕ
  | .getBufs u n => if u = t then if held = some 0 then some n else none else held
  | .putBufs u n => if u = t then if held = some n then some 0 else none else held
  | _ => held

/-- What slot `t` holds of the pool, by the log. -/
def poolHeld (t : ℕ) (log : List TcpEffect) : Option ℕ := log.foldl (poolStep t) (some 0)

@[simp] theorem poolHeld_append (t : ℕ) (log : List TcpEffect) (e : TcpEffect) :
    poolHeld t (log ++ [e]) = poolStep t (poolHeld t log) e := by
  rw [poolHeld, List.foldl_append, List.foldl_cons, List.foldl_nil, poolHeld]

/-- The effect moves no buffers. -/
def TcpEffect.offPool : TcpEffect → Bool
  | .getBufs .. | .putBufs .. => false
  | _ => true

theorem poolStep_of_offPool {e : TcpEffect} (he : e.offPool = true) (t : ℕ) (held : Option ℕ) :
    poolStep t held e = held := by
  cases e <;> simp [TcpEffect.offPool] at he <;> rfl

/-! ## Requests at rest -/

namespace TcpReq

variable (r : TcpReq)

/-- How many buffers of the pool it holds. -/
def held : ℕ := if r.dataFromPool then r.iov.length else 0

/-- In the free queue. -/
structure Idle : Prop where
  state : r.state = .free
  dataFromPool : r.dataFromPool = false
  pdu : r.pdu = none

/-- Its iovecs hold its data, of which a part is there. -/
def Fed : Prop :=
  r.iov.sum = r.length.toNat ∧ r.received = r.h2cOffset.toNat ∧
    r.h2cOffset.toNat ≤ r.length.toNat

/-- As a step leaves a request. -/
def AtRest : Prop :=
  match r.state with
  | .needBuffer => r.pdu = none ∧ r.held = 0 ∧ r.h2cOffset = 0 ∧ r.received = 0
  | .transferringH2c => r.pdu = none ∧ r.Fed ∧ (r.h2cOffset = r.length → r.length = 0)
  | .awaitingR2tAck => (r.pdu = none ∨ r.pdu = some .r2t) ∧ r.Fed
  | .readyToExecute | .executing => r.pdu = none
  | .transferringC2h => r.pdu ≠ some .r2t
  | _ => False

/-- It waits for the data of this PDU. -/
def Carries (p : DataPdu) : Prop :=
  r.h2cOffset = p.datao ∧
    if p.inCapsule then r.state = .transferringH2c ∧ p.datao = 0 ∧ p.dataLen = r.length
    else
      (r.state = .transferringH2c ∨ r.state = .awaitingR2tAck) ∧
        p.datao.toNat + p.dataLen.toNat ≤ r.length.toNat

/-- In a state that waits for data of the host. -/
def TakesData : Prop := r.state = .transferringH2c ∨ r.state = .awaitingR2tAck

variable {r}

theorem Carries.takesData {p : DataPdu} (h : r.Carries p) : r.TakesData := by
  obtain ⟨-, h⟩ := h
  split at h
  · exact .inl h.1
  · exact h.1

theorem Carries.le {p : DataPdu} (h : r.Carries p) :
    r.h2cOffset.toNat + p.dataLen.toNat ≤ r.length.toNat := by
  obtain ⟨hoffset, h⟩ := h
  rw [hoffset]
  split at h
  · rw [h.2.1, h.2.2]
    simp
  · exact h.2

theorem AtRest.ne_free (h : r.AtRest) : r.state ≠ .free := by
  intro hs
  simp [AtRest, hs] at h

theorem AtRest.pdu_of_ready (h : r.AtRest) (hs : r.state = .readyToExecute) : r.pdu = none := by
  simpa [AtRest, hs] using h

theorem AtRest.pdu_of_executing (h : r.AtRest) (hs : r.state = .executing) : r.pdu = none := by
  simpa [AtRest, hs] using h

theorem AtRest.of_needBuffer (h : r.AtRest) (hs : r.state = .needBuffer) :
    r.pdu = none ∧ r.held = 0 ∧ r.h2cOffset = 0 ∧ r.received = 0 := by
  simpa [AtRest, hs] using h

theorem AtRest.fed (h : r.AtRest) (hs : r.TakesData) : r.Fed := by
  rcases hs with hs | hs <;> simp only [AtRest, hs] at h
  · exact h.2.1
  · exact h.2

end TcpReq

/-! ## The line for buffers -/

namespace Waiter

@[simp] theorem slot?_own (t : ℕ) : slot? (.own t) = some t := rfl

@[simp] theorem slot?_other (n : ℕ) : slot? (.other n) = none := rfl

theorem own_mem_iff {queue : List Waiter} {t : ℕ} :
    .own t ∈ queue ↔ t ∈ queue.filterMap slot? := by
  rw [List.mem_filterMap]
  constructor
  · exact fun hw => ⟨_, hw, rfl⟩
  · rintro ⟨w, hw, hslot⟩
    cases w with
    | own u => cases hslot; exact hw
    | other n => cases hslot

theorem filterMap_erase (t : ℕ) : ∀ queue : List Waiter,
    (queue.erase (.own t)).filterMap slot? = (queue.filterMap slot?).erase t
  | [] => rfl
  | .other n :: queue => by
      rw [List.erase_cons_tail (by simp), List.filterMap_cons_none (slot?_other n),
        List.filterMap_cons_none (slot?_other n), filterMap_erase t queue]
  | .own u :: queue => by
      by_cases hu : u = t
      · rw [hu, List.erase_cons_head, List.filterMap_cons_some (slot?_own t), List.erase_cons_head]
      · rw [List.erase_cons_tail (by simpa using hu), List.filterMap_cons_some (slot?_own u),
          List.filterMap_cons_some (slot?_own u), List.erase_cons_tail (by simpa using hu),
          filterMap_erase t queue]

end Waiter

/-! ## The invariant -/

/-- The tags of a qpair. -/
def QpCtx.slots (Q : QpCtx) : List ℕ := List.range' 1 Q.resourceCount

/-- **A qpair is in order, but for the slots `X` that a step is working on.** -/
structure SoundBut (Q : QpCtx) (X : Set ℕ) (s : TcpQpair) : Prop where
  slots : (s.working ++ s.free).Perm Q.slots
  idle : ∀ t ∈ s.free, (s.reqs t).Idle
  working : ∀ t ∈ X, t ∈ s.working
  rest : ∀ t ∈ s.working, t ∉ X → (s.reqs t).AtRest
  queued : ∀ t, .own t ∈ s.pending ↔
    t ∈ s.working ∧ t ∉ X ∧ (s.reqs t).state = .needBuffer
  once : (s.pending.filterMap Waiter.slot?).Nodup
  pairs : ∀ t ∈ Q.slots, ∀ u, (s.reqs t).fusedPair = some u → u ∈ Q.slots
  first : ∀ u, s.fusedFirst = some u → u ∈ Q.slots
  pool : ∀ t ∈ Q.slots, poolHeld t s.log = some (s.reqs t).held
  young : ∀ t ∈ s.working, (s.reqs t).arrival < s.arrivals
  distinct : ∀ t ∈ s.working, ∀ u ∈ s.working,
    (s.reqs t).arrival = (s.reqs u).arrival → t = u
  data : ∀ p ∈ s.pdus, p.dataLen ≠ 0 →
    p.slot ∈ s.working ∧ p.slot ∉ X ∧ (s.reqs p.slot).Carries p
  lone : ((s.pdus.filter fun p => p.dataLen ≠ 0).map DataPdu.slot).Nodup

/-- **A qpair is in order.** -/
abbrev Sound (Q : QpCtx) (s : TcpQpair) : Prop := SoundBut Q ∅ s

theorem sound_init (Q : QpCtx) (below : TcpReq) : Sound Q (.init Q below) := by
  have hnew : ∀ t ∈ Q.slots, (TcpQpair.init Q below).reqs t = {} := by
    intro t ht
    have hpos : t ≠ 0 := by
      have := (List.mem_range'_1.mp ht).1
      omega
    exact if_neg hpos
  exact {
    slots := .refl _
    idle := fun t ht => by rw [hnew t ht]; exact ⟨rfl, rfl, rfl⟩
    working := fun t ht => absurd ht (Set.notMem_empty t)
    rest := fun t ht => absurd ht List.not_mem_nil
    queued := fun t =>
      ⟨fun ht => absurd ht List.not_mem_nil, fun ht => absurd ht.1 List.not_mem_nil⟩
    once := .nil
    pairs := fun t ht u hu => by rw [hnew t ht] at hu; cases hu
    first := nofun
    pool := fun t ht => by rw [hnew t ht]; rfl
    young := fun t ht => absurd ht List.not_mem_nil
    distinct := fun t ht => absurd ht List.not_mem_nil
    data := fun p hp => absurd hp List.not_mem_nil
    lone := .nil }

namespace SoundBut

variable {Q : QpCtx} {X : Set ℕ} {s : TcpQpair} {t : ℕ} {f : TcpReq → TcpReq}

theorem nodup (h : SoundBut Q X s) : (s.working ++ s.free).Nodup :=
  h.slots.nodup_iff.mpr List.nodup_range'

theorem mem_slots (h : SoundBut Q X s) : t ∈ Q.slots ↔ t ∈ s.working ∨ t ∈ s.free := by
  rw [← h.slots.mem_iff, List.mem_append]

theorem notMem_free (h : SoundBut Q X s) (ht : t ∈ s.working) : t ∉ s.free :=
  fun hf => List.disjoint_of_nodup_append h.nodup ht hf

theorem notMem_working {rest : List ℕ} (h : SoundBut Q X s) (hfree : s.free = t :: rest) :
    t ∉ s.working :=
  fun ht => h.notMem_free ht (hfree ▸ List.mem_cons_self ..)

/-- A slot of the array that is not free works. -/
theorem mem_working (h : SoundBut Q X s) (ht : t ∈ Q.slots) (hs : (s.reqs t).state ≠ .free) :
    t ∈ s.working :=
  (h.mem_slots.mp ht).resolve_right fun hf => hs (h.idle t hf).state

theorem mem_slots_of_working (h : SoundBut Q X s) (ht : t ∈ s.working) : t ∈ Q.slots :=
  h.mem_slots.mpr (.inl ht)

/-- A data PDU that is out is for a request that takes data. -/
theorem no_pdu (h : SoundBut Q X s) (hs : ¬ (s.reqs t).TakesData) :
    ∀ p ∈ s.pdus, p.slot = t → p.dataLen = 0 := by
  intro p hp hpt
  by_contra hlen
  exact hs (hpt ▸ (h.data p hp hlen).2.2.takesData)

/-! ### Changes that leave every slot as it is -/

theorem emit {e : TcpEffect} (h : SoundBut Q X s) (he : e.offPool = true) :
    SoundBut Q X (s.emit e) :=
  { h with
    pool := fun t ht => by
      rw [TcpQpair.log_emit, poolHeld_append, poolStep_of_offPool he]
      exact h.pool t ht }

theorem rx (h : SoundBut Q X s) (active : Bool) (recv : RecvState) (hdr : RxHdr) (cmd : TcpCmd) :
    SoundBut Q X { s with active, recv, hdr, cmd } :=
  { h with }

theorem terminate (h : SoundBut Q X s) (e : TermReq) : SoundBut Q X (s.terminate e) :=
  (h.rx s.active .quiescing s.hdr s.cmd).emit rfl

theorem others (h : SoundBut Q X s) {queue : List Waiter}
    (hq : queue.filterMap Waiter.slot? = s.pending.filterMap Waiter.slot?) :
    SoundBut Q X { s with pending := queue } :=
  { h with
    queued := fun t => by
      rw [Waiter.own_mem_iff, hq, ← Waiter.own_mem_iff]
      exact h.queued t
    once := hq ▸ h.once }

theorem setFirst (h : SoundBut Q X s) {v : Option ℕ} (hv : ∀ u, v = some u → u ∈ Q.slots) :
    SoundBut Q X { s with fusedFirst := v } :=
  { h with first := hv }

theorem erasePdu (h : SoundBut Q X s) (p : DataPdu) :
    SoundBut Q X { s with pdus := s.pdus.erase p } :=
  { h with
    data := fun q hq => h.data q (List.mem_of_mem_erase hq)
    lone := h.lone.sublist ((List.erase_sublist.filter _).map _) }

/-! ### Changes of one slot -/

/-- A slot changes without leaving the set it is in, and the log says what it holds then. -/
theorem setReq_log (h : SoundBut Q X s) {log : List TcpEffect}
    (hpool : ∀ u ∈ Q.slots,
      poolHeld u log = some (if u = t then (f (s.reqs t)).held else (s.reqs u).held))
    (harrival : (f (s.reqs t)).arrival = (s.reqs t).arrival)
    (hpair : ∀ u, (f (s.reqs t)).fusedPair = some u → (s.reqs t).fusedPair = some u ∨ u ∈ Q.slots)
    (hidle : t ∈ s.free → (f (s.reqs t)).Idle)
    (hrest : t ∉ X → (s.reqs t).AtRest → (f (s.reqs t)).AtRest)
    (hneed : t ∉ X →
      ((f (s.reqs t)).state = .needBuffer ↔ (s.reqs t).state = .needBuffer))
    (hdata : t ∉ X → ∀ p ∈ s.pdus, (s.reqs t).Carries p → (f (s.reqs t)).Carries p) :
    SoundBut Q X { s.setReq t f with log } := by
  have harr : ∀ u, ((s.setReq t f).reqs u).arrival = (s.reqs u).arrival :=
    TcpQpair.field_setReq TcpReq.arrival harrival
  refine { h with
    idle := fun u hu => ?_, rest := fun u hu hx => ?_, queued := fun u => ?_,
    pairs := fun u hu v hv => ?_, pool := fun u hu => ?_, young := fun u hu => ?_,
    distinct := fun u hu v hv => ?_, data := fun p hp hlen => ?_ }
  · rw [TcpQpair.reqs_setReq]
    split_ifs with hut
    · exact hidle (hut ▸ hu)
    · exact h.idle u hu
  · rw [TcpQpair.reqs_setReq]
    split_ifs with hut
    · exact hrest (hut ▸ hx) (hut ▸ h.rest u hu hx)
    · exact h.rest u hu hx
  · rw [TcpQpair.reqs_setReq, TcpQpair.pending_setReq, h.queued u]
    split_ifs with hut
    · subst hut
      exact and_congr_right fun _ => and_congr_right fun hx => (hneed hx).symm
    · rfl
  · rw [TcpQpair.reqs_setReq] at hv
    split_ifs at hv with hut
    · exact (hpair v hv).elim (h.pairs t (hut ▸ hu) v) id
    · exact h.pairs u hu v hv
  · rw [TcpQpair.reqs_setReq, hpool u hu, apply_ite TcpReq.held]
  · rw [harr]
    exact h.young u hu
  · rw [harr, harr]
    exact h.distinct u hu v hv
  · obtain ⟨hw, hx, hc⟩ := h.data p hp hlen
    refine ⟨hw, hx, ?_⟩
    rw [TcpQpair.reqs_setReq]
    split_ifs with hut
    · exact hdata (hut ▸ hx) p hp (hut ▸ hc)
    · exact hc

/-- A slot changes without leaving the set it is in, and keeps its buffers. -/
theorem setReq_of (h : SoundBut Q X s) (hheld : (f (s.reqs t)).held = (s.reqs t).held)
    (harrival : (f (s.reqs t)).arrival = (s.reqs t).arrival)
    (hpair : ∀ u, (f (s.reqs t)).fusedPair = some u → (s.reqs t).fusedPair = some u ∨ u ∈ Q.slots)
    (hidle : t ∈ s.free → (f (s.reqs t)).Idle)
    (hrest : t ∉ X → (s.reqs t).AtRest → (f (s.reqs t)).AtRest)
    (hneed : t ∉ X →
      ((f (s.reqs t)).state = .needBuffer ↔ (s.reqs t).state = .needBuffer))
    (hdata : t ∉ X → ∀ p ∈ s.pdus, (s.reqs t).Carries p → (f (s.reqs t)).Carries p) :
    SoundBut Q X (s.setReq t f) := by
  refine h.setReq_log (fun u hu => ?_) harrival hpair hidle hrest hneed hdata
  rw [h.pool u hu]
  split_ifs with hut
  · rw [hheld, hut]
  · rfl

/-- A slot the step works on may change freely, but keeps its buffers. -/
theorem setReq (h : SoundBut Q X s) (hx : t ∈ X)
    (harrival : (f (s.reqs t)).arrival = (s.reqs t).arrival)
    (hheld : (f (s.reqs t)).held = (s.reqs t).held)
    (hpair : ∀ u, (f (s.reqs t)).fusedPair = some u → (s.reqs t).fusedPair = some u ∨ u ∈ Q.slots) :
    SoundBut Q X (s.setReq t f) :=
  h.setReq_of hheld harrival hpair
    (fun hf => absurd hf (h.notMem_free (h.working t hx))) (absurd hx) (absurd hx) (absurd hx)

end SoundBut

/-- The requests differ in what nothing at rest depends on. -/
def TcpReq.Alike (r r' : TcpReq) : Prop :=
  r' = { r with
    cmd := r'.cmd, status := r'.status, xfer := r'.xfer, hasInCapsuleData := r'.hasInCapsuleData,
    fusedFailed := r'.fusedFailed, fusedPair := r'.fusedPair }

namespace SoundBut

variable {Q : QpCtx} {X : Set ℕ} {s : TcpQpair} {t : ℕ} {f : TcpReq → TcpReq}

theorem mark (h : SoundBut Q X s) (hf : (s.reqs t).Alike (f (s.reqs t)))
    (hpair : ∀ u, (f (s.reqs t)).fusedPair = some u →
      (s.reqs t).fusedPair = some u ∨ u ∈ Q.slots) :
    SoundBut Q X (s.setReq t f) := by
  refine h.setReq_of ?_ ?_ hpair (fun ht => ?_) (fun _ hr => ?_) (fun _ => ?_)
    fun _ p _ hc => ?_
  · rw [hf]
    rfl
  · rw [hf]
  · rw [hf]
    exact ⟨(h.idle t ht).state, (h.idle t ht).dataFromPool, (h.idle t ht).pdu⟩
  · rw [hf]
    exact hr
  · rw [hf]
  · rw [hf]
    exact hc

/-! ### Entering and leaving a slot -/

theorem enter (h : SoundBut Q X s) (ht : t ∈ s.working) (hs : (s.reqs t).state ≠ .needBuffer)
    (hp : ∀ p ∈ s.pdus, p.slot = t → p.dataLen = 0) : SoundBut Q (insert t X) s :=
  { h with
    working := fun u hu => hu.elim (fun he => he ▸ ht) (h.working u)
    rest := fun u hu hx => h.rest u hu fun hmem => hx (.inr hmem)
    queued := fun u => by
      rw [h.queued u, Set.mem_insert_iff, not_or]
      refine and_congr_right fun _ => ⟨fun hu => ⟨⟨?_, hu.1⟩, hu.2⟩, fun hu => ⟨hu.1.2, hu.2⟩⟩
      rintro rfl
      exact hs hu.2
    data := fun p hpm hlen => by
      obtain ⟨hw, hx, hc⟩ := h.data p hpm hlen
      exact ⟨hw, fun hmem => hmem.elim (fun he => hlen (hp p hpm he)) hx, hc⟩ }

/-- A request in line for buffers is taken off the queue. -/
theorem unqueue (h : SoundBut Q X s) (ht : t ∈ s.working)
    (hs : (s.reqs t).state = .needBuffer) :
    SoundBut Q (insert t X) { s with pending := s.pending.erase (.own t) } :=
  have hp := h.no_pdu (t := t) (by simp [TcpReq.TakesData, hs])
  { h with
    working := fun u hu => hu.elim (fun he => he ▸ ht) (h.working u)
    rest := fun u hu hx => h.rest u hu fun hmem => hx (.inr hmem)
    queued := fun u => by
      change Waiter.own u ∈ s.pending.erase (.own t) ↔ _
      rw [Waiter.own_mem_iff, Waiter.filterMap_erase, h.once.mem_erase_iff, ← Waiter.own_mem_iff,
        h.queued u, Set.mem_insert_iff, not_or]
      tauto
    once := by
      rw [Waiter.filterMap_erase]
      exact h.once.erase t
    data := fun p hpm hlen => by
      obtain ⟨hw, hx, hc⟩ := h.data p hpm hlen
      exact ⟨hw, fun hmem => hmem.elim (fun he => hlen (hp p hpm he)) hx, hc⟩ }

theorem rest_insert (h : SoundBut Q (insert t X) s) (hrest : (s.reqs t).AtRest) :
    ∀ u ∈ s.working, u ∉ X → (s.reqs u).AtRest := by
  intro u hu hxu
  by_cases hut : u = t
  · exact hut ▸ hrest
  · exact h.rest u hu fun hmem => hmem.elim hut hxu

theorem data_insert (h : SoundBut Q (insert t X) s) : ∀ p ∈ s.pdus, p.dataLen ≠ 0 →
    p.slot ∈ s.working ∧ p.slot ∉ X ∧ (s.reqs p.slot).Carries p := by
  intro p hpm hlen
  obtain ⟨hw, hxp, hc⟩ := h.data p hpm hlen
  exact ⟨hw, fun hmem => hxp (.inr hmem), hc⟩

theorem leave (h : SoundBut Q (insert t X) s) (hx : t ∉ X) (hrest : (s.reqs t).AtRest)
    (hs : (s.reqs t).state ≠ .needBuffer) : SoundBut Q X s :=
  { h with
    working := fun u hu => h.working u (.inr hu)
    rest := h.rest_insert hrest
    queued := fun u => by
      rw [h.queued u, Set.mem_insert_iff, not_or]
      refine and_congr_right fun _ => ⟨fun hu => ⟨hu.1.2, hu.2⟩, fun hu => ⟨⟨?_, hu.1⟩, hu.2⟩⟩
      rintro rfl
      exact hs hu.2
    data := h.data_insert }

/-- A request joins the line for buffers. -/
theorem queue (h : SoundBut Q (insert t X) s) (hx : t ∉ X) (hrest : (s.reqs t).AtRest)
    (hs : (s.reqs t).state = .needBuffer) :
    SoundBut Q X { s with pending := s.pending ++ [.own t] } :=
  have ht : t ∈ s.working := h.working t (.inl rfl)
  { h with
    working := fun u hu => h.working u (.inr hu)
    rest := h.rest_insert hrest
    queued := fun u => by
      change Waiter.own u ∈ s.pending ++ [.own t] ↔ _
      rw [List.mem_append, h.queued u, List.mem_singleton, Waiter.own.injEq, Set.mem_insert_iff]
      by_cases hut : u = t
      · subst hut
        exact ⟨fun _ => ⟨ht, hx, hs⟩, fun _ => .inr rfl⟩
      · tauto
    once := by
      have hout : t ∉ s.pending.filterMap Waiter.slot? := by
        rw [← Waiter.own_mem_iff, h.queued t]
        exact fun hq => hq.2.1 (.inl rfl)
      rw [List.filterMap_append, List.nodup_append_comm]
      exact List.nodup_cons.mpr ⟨hout, h.once⟩
    data := h.data_insert }

/-- `nvmf_tcp_req_get` enters the slot it takes. -/
theorem get {rest : List ℕ} (h : SoundBut Q X s) (hfree : s.free = t :: rest) :
    SoundBut Q (insert t X) (nvmfTcpReqGet t s) := by
  have hnodup := h.nodup
  rw [hfree] at hnodup
  have hout : t ∉ s.working := h.notMem_working hfree
  have hrest : t ∉ rest := (List.nodup_cons.mp (List.Nodup.of_append_right hnodup)).1
  have hne : ∀ {u}, u ∈ s.working → u ≠ t := fun hu he => hout (he ▸ hu)
  have hsame : ∀ {u}, u ≠ t → (nvmfTcpReqGet t s).reqs u = s.reqs u :=
    reqs_nvmfTcpReqGet_of_ne s
  have hself := reqs_nvmfTcpReqGet_self t s
  have hmem : ∀ {u}, u ∈ (nvmfTcpReqGet t s).working ↔ u ∈ s.working ∨ u = t := by
    simp [nvmfTcpReqGet]
  refine {
    slots := ?_, idle := fun u hu => ?_, working := fun u hu => ?_, rest := fun u hu hx => ?_,
    queued := fun u => ?_, once := h.once, pairs := fun u hu v hv => ?_, first := h.first,
    pool := fun u hu => ?_, young := fun u hu => ?_, distinct := fun u hu v hv huv => ?_,
    data := fun p hp hlen => ?_, lone := h.lone }
  · have hslots := h.slots
    rw [hfree] at hslots
    simpa [nvmfTcpReqGet, hfree] using hslots
  · have hu' : u ∈ rest := by simpa [nvmfTcpReqGet, hfree] using hu
    rw [hsame (fun he => hrest (he ▸ hu'))]
    exact h.idle u (hfree ▸ List.mem_cons_of_mem t hu')
  · exact hmem.mpr (hu.elim .inr fun hu => .inl (h.working u hu))
  · obtain ⟨hut, hxu⟩ := not_or.mp hx
    rw [hsame hut]
    exact h.rest u ((hmem.mp hu).resolve_right hut) hxu
  · rw [Set.mem_insert_iff, not_or, hmem]
    constructor
    · intro hq
      obtain ⟨hw, hx, hs⟩ := (h.queued u).mp hq
      rw [hsame (hne hw)]
      exact ⟨.inl hw, ⟨hne hw, hx⟩, hs⟩
    · rintro ⟨hw, ⟨hut, hx⟩, hs⟩
      rw [hsame hut] at hs
      exact (h.queued u).mpr ⟨hw.resolve_right hut, hx, hs⟩
  · exact h.pairs u hu v ((field_nvmfTcpReqGet TcpReq.fusedPair rfl u).symm.trans hv)
  · exact (h.pool u hu).trans (congrArg some (field_nvmfTcpReqGet TcpReq.held rfl u).symm)
  · rcases hmem.mp hu with hu | rfl
    · rw [hsame (hne hu)]
      exact Nat.lt_succ_of_lt (h.young u hu)
    · rw [hself]
      exact Nat.lt_succ_self _
  · rcases hmem.mp hu with hu | hu <;> rcases hmem.mp hv with hv | hv
    · rw [hsame (hne hu), hsame (hne hv)] at huv
      exact h.distinct u hu v hv huv
    · rw [hsame (hne hu), hv, hself] at huv
      exact absurd huv (h.young u hu).ne
    · rw [hu, hself, hsame (hne hv)] at huv
      exact absurd huv.symm (h.young v hv).ne
    · rw [hu, hv]
  · obtain ⟨hw, hx, hc⟩ := h.data p hp hlen
    rw [hsame (hne hw)]
    exact ⟨hmem.mpr (.inl hw), not_or.mpr ⟨hne hw, hx⟩, hc⟩

/-- `nvmf_tcp_req_put` leaves a slot for good. -/
theorem put (h : SoundBut Q (insert t X) s) (hx : t ∉ X)
    (hpool : (s.reqs t).dataFromPool = false) (hpdu : (s.reqs t).pdu = none) :
    SoundBut Q X (nvmfTcpReqPut t s) := by
  have ht : t ∈ s.working := h.working t (.inl rfl)
  have hnodup : s.working.Nodup := h.nodup.of_append_left
  have hsame : ∀ {u}, u ≠ t → (nvmfTcpReqPut t s).reqs u = s.reqs u :=
    reqs_nvmfTcpReqPut_of_ne s
  have hself := reqs_nvmfTcpReqPut_self t s
  have hmem : ∀ {u}, u ∈ (nvmfTcpReqPut t s).working ↔ u ≠ t ∧ u ∈ s.working :=
    hnodup.mem_erase_iff
  refine {
    slots := ?_, idle := fun u hu => ?_, working := fun u hu => ?_, rest := fun u hu hxu => ?_,
    queued := fun u => ?_, once := h.once, pairs := fun u hu v hv => ?_, first := h.first,
    pool := fun u hu => ?_, young := fun u hu => ?_, distinct := fun u hu v hv huv => ?_,
    data := fun p hp hlen => ?_, lone := h.lone }
  · have hswap : (s.working.erase t ++ (s.free ++ [t])).Perm (s.working ++ s.free) := by
      rw [← List.append_assoc]
      refine (List.perm_append_singleton ..).trans ?_
      rw [← List.cons_append]
      exact (List.perm_cons_erase ht).symm.append_right _
    exact hswap.trans h.slots
  · by_cases hut : u = t
    · subst hut
      rw [hself]
      exact ⟨rfl, hpool, hpdu⟩
    · rw [hsame hut]
      have hu' : u ∈ s.free ++ [t] := hu
      exact h.idle u
        ((List.mem_append.mp hu').resolve_right fun he => hut (List.mem_singleton.mp he))
  · exact hmem.mpr ⟨fun he => hx (he ▸ hu), h.working u (.inr hu)⟩
  · obtain ⟨hut, hu⟩ := hmem.mp hu
    rw [hsame hut]
    exact h.rest u hu (not_or.mpr ⟨hut, hxu⟩)
  · change Waiter.own u ∈ s.pending ↔ _
    rw [h.queued u, Set.mem_insert_iff, not_or, hmem]
    constructor
    · rintro ⟨hw, ⟨hut, hxu⟩, hs⟩
      rw [hsame hut]
      exact ⟨⟨hut, hw⟩, hxu, hs⟩
    · rintro ⟨⟨hut, hw⟩, hxu, hs⟩
      rw [hsame hut] at hs
      exact ⟨hw, ⟨hut, hxu⟩, hs⟩
  · exact h.pairs u hu v ((field_nvmfTcpReqPut TcpReq.fusedPair rfl u).symm.trans hv)
  · exact (h.pool u hu).trans (congrArg some (field_nvmfTcpReqPut TcpReq.held rfl u).symm)
  · obtain ⟨hut, hu⟩ := hmem.mp hu
    rw [hsame hut]
    exact h.young u hu
  · obtain ⟨hut, hu⟩ := hmem.mp hu
    obtain ⟨hvt, hv⟩ := hmem.mp hv
    rw [hsame hut, hsame hvt] at huv
    exact h.distinct u hu v hv huv
  · obtain ⟨hw, hxp, hc⟩ := h.data p hp hlen
    obtain ⟨hpt, hxp⟩ := not_or.mp hxp
    rw [hsame hpt]
    exact ⟨hmem.mpr ⟨hpt, hw⟩, hxp, hc⟩

end SoundBut

end NdpHeaan
