import NdpHeaan.Machinery.CachedPool
import NdpHeaan.Target.Echo
import NdpHeaan.Target.GrepCmd
import NdpHeaan.Target.HeaanAdd

/-!
# Target/IoPool — the near-data commands and the pool of `bdev_io`s

Every accepted submission takes a `bdev_io` from the thread's cache, or from the pool behind it, and
the callback it is delivered to is the only one that can give it back.

    submit ──take──▸ in flight ──deliver──▸ callback ──`spdk_bdev_free_io`──▸ cache or pool

The system runs any number of commands at once.  Its log keeps, for every delivery, how many times
the callback has released what it was entered with.  The callbacks of ECHO and GREP release it on
every path.  Those of HEaaN add do on the paths on which they end the command, and on no other.
-/

open Machinery

namespace NdpHeaan

/-! ## The commands, side by side -/

/-- A near-data command. -/
inductive NdpCmd
  | echo (d : Bdev) (r : DataReq)
  | grep (d : Bdev) (r : DataReq)
  | heaan (r : HeaanReq) (lib : HeaanLib)

/-- A state of one. -/
inductive NdpSt
  | echo (s : EchoSt)
  | grep (s : GrepSt)
  | heaan (s : St)

/-- What the reactor does for one. -/
inductive NdpAct
  | echo (l : EchoLabel)
  | grep (l : GrepLabel)
  | heaan (l : Label)

/-- The state a command starts in. -/
def NdpCmd.init : NdpCmd → NdpSt
  | .echo _ r => .echo { iov := r.iov }
  | .grep _ r => .grep { iov := r.iov, length := r.length, xfer := r.grepXfer }
  | .heaan _ _ => .heaan { disk := fun _ => 0 }

/-- One step of a command, on what the device holds at the time. -/
def NdpCmd.step (disk : ℕ → UInt8) : NdpCmd → NdpSt → NdpAct → Option NdpSt
  | .echo d r, .echo s, .echo l => (echoStep d r disk s l).map .echo
  | .grep d r, .grep s, .grep l => (grepStep d r disk s l).map .grep
  | .heaan r lib, .heaan s, .heaan l => (heaanStep r lib { s with disk := disk } l).map .heaan
  | _, _, _ => none

/-- The I/O in flight whose completion is delivered, by its place. -/
def NdpAct.delivers : NdpAct → Option ℕ
  | .echo (.exec _ _) => none
  | .echo (.first _ _ _) => some 0
  | .echo (.second _ _ _ _) => some 0
  | .grep (.attempt _ _ _ _) => none
  | .grep (.deliver _ _ _ _ _) => some 0
  | .heaan (.exec _ _) => none
  | .heaan (.deliver k _ _) => some k

/-- What a statement means to the pool. -/
inductive IoUse
  /-- A submission is accepted. -/
  | accept
  /-- `spdk_bdev_free_io`. -/
  | release
  deriving DecidableEq, Repr

def CmdEffect.use {O : Type} : CmdEffect O → Option IoUse
  | .submit _ rc => if rc = 0 then some .accept else none
  | .freeIo => some .release
  | _ => none

def Effect.use : Effect → Option IoUse
  | .submit _ rc => if rc = 0 then some .accept else none
  | .freeIo _ => some .release
  | _ => none

/-- What a command has done to the pool so far. -/
def NdpSt.uses : NdpSt → List IoUse
  | .echo s => s.trace.filterMap CmdEffect.use
  | .grep s => s.trace.filterMap CmdEffect.use
  | .heaan s => s.trace.filterMap Effect.use

/-- The I/Os a command has in flight. -/
def NdpSt.inFlight : NdpSt → ℕ
  | .echo s => if s.phase = .firstRead ∨ s.phase = .secondRead then 1 else 0
  | .grep s => if s.phase = .reading then 1 else 0
  | .heaan s => s.inflight.length

/-! ## The pool -/

section Pool

variable {κ : Type} [DecidableEq κ]

/-- **`bdev_channel_get_io`**, so many times; `waiting` says that the channel's `io_wait_queue` is
not empty. -/
def bdevChannelGetIo (waiting : Bool) (ch : κ) (n : ℕ) (p : CachedPool κ ℕ) :
    Option (List ℕ × CachedPool κ ℕ) := p.takeMany waiting ch n

/-- **`spdk_bdev_free_io`.**  Waking the waiters is left to the reactor. -/
def spdkBdevFreeIo (cacheSize : ℕ) (ch : κ) (io : ℕ) (p : CachedPool κ ℕ) : CachedPool κ ℕ :=
  p.give cacheSize ch io

/-- A target: its commands, the channel each runs on, the size of the caches, and the `bdev_io`s
that lie in the caches and in the pool at first. -/
structure NdpTarget (κ : Type) where
  cmds : ℕ → NdpCmd
  chan : ℕ → κ
  cacheSize : ℕ
  ios : CachedPool κ ℕ

/-- A state of the target. -/
structure NdpWorld (κ : Type) where
  st : ℕ → NdpSt
  ios : CachedPool κ ℕ
  /-- The `bdev_io`s a command has in flight, in the order of its I/Os. -/
  flight : ℕ → List ℕ
  /-- Every delivered `bdev_io`, with the number of times its callback has released it. -/
  log : List (ℕ × ℕ) := []

/-- A step of the target: of which command, what the device holds, and whether its channel has
waiters. -/
structure NdpLabel where
  cmd : ℕ
  act : NdpAct
  disk : ℕ → UInt8
  waiting : Bool := false

/-- One step: the accepted submissions take their `bdev_io`s, then the delivered one is released. -/
def ndpStep (T : NdpTarget κ) (w : NdpWorld κ) (l : NdpLabel) : Option (NdpWorld κ) :=
  let s := w.st l.cmd
  ((T.cmds l.cmd).step l.disk s l.act).bind fun s' =>
  let accepted := s'.uses.count .accept - s.uses.count .accept
  let released := s'.uses.count .release - s.uses.count .release
  (bdevChannelGetIo l.waiting (T.chan l.cmd) accepted w.ios).bind fun q =>
  match l.act.delivers with
  | none => some
    { w with
      st := Function.update w.st l.cmd s'
      ios := q.2
      flight := Function.update w.flight l.cmd (w.flight l.cmd ++ q.1) }
  | some k => (w.flight l.cmd)[k]?.map fun io =>
    { st := Function.update w.st l.cmd s'
      ios := (spdkBdevFreeIo T.cacheSize (T.chan l.cmd) io)^[released] q.2
      flight := Function.update w.flight l.cmd ((w.flight l.cmd).eraseIdx k ++ q.1)
      log := w.log ++ [(io, released)] }

/-- **The near-data commands as one system.** -/
def ndpSys (T : NdpTarget κ) : Sys (NdpWorld κ) NdpLabel where
  init := { st := fun i => (T.cmds i).init, ios := T.ios, flight := fun _ => [] }
  step := ndpStep T

end Pool

/-! ## The statement -/

/-- The reads and writes of HEaaN add whose callback releases them: those that fail, the last read
if the addition fails, and the last write. -/
def St.Releases (lib : HeaanLib) (s : St) (k : ℕ) (success : Bool) : Prop :=
  ∀ io, s.inflight[k]? = some io → success = true →
    match io.cb with
    | .fill => asInt32 (s.ctx.pendingFills - 1) < 0 ∨
        (asInt32 (s.ctx.pendingFills - 1) = 0 ∧
          ((s.delivered k io true).ctx.addResult lib).1 ≠ 0)
    | .write => asInt32 (s.ctx.pendingFills - 1) ≤ 0

/-- **The condition on a step**: a delivery to HEaaN add is one of those. -/
def NdpCmd.Releases (disk : ℕ → UInt8) : NdpCmd → NdpSt → NdpAct → Prop
  | .heaan _ lib, .heaan s, .heaan (.deliver k success _) =>
    St.Releases lib { s with disk := disk } k success
  | _, _, _ => True

/-- …read as a guard of the system. -/
def NdpTarget.Releases {κ : Type} (T : NdpTarget κ) (w : NdpWorld κ) (l : NdpLabel) : Prop :=
  (T.cmds l.cmd).Releases l.disk (w.st l.cmd) l.act

/-- **The `bdev_io`s are conserved**: every one that was delivered has been released once, and once
nothing is in flight those outside the caches and the pool are the ones that were outside before. -/
structure Conserved {κ : Type} (T : NdpTarget κ) (w : NdpWorld κ) : Prop where
  once : ∀ e ∈ w.log, e.2 = 1
  quiescent : (∀ i, (w.st i).inFlight = 0) → w.ios.held = T.ios.held

/-! ## What one command does to the pool -/

/-- A command that has not been called has nothing in flight. -/
def NdpSt.Fresh : NdpSt → Prop
  | .heaan s => s.handler = .idle → s.inflight = []
  | _ => True

/-- **A step, as the pool sees it**: what is delivered was in flight, and what is accepted is; a
step without a delivery releases nothing, one with a delivery does so once where the condition `R`
holds. -/
structure PoolStep (R : Prop) (delivers : Option ℕ) (s s' : NdpSt) (us : List IoUse) : Prop where
  uses : s'.uses = s.uses ++ us
  index : ∀ k ∈ delivers, k < s.inFlight
  inFlight : s'.inFlight + delivers.toList.length = s.inFlight + us.count .accept
  released_none : delivers = none → us.count .release = 0
  released_some : delivers.isSome → (us.count .release = 1 ↔ R)
  fresh : s'.Fresh

/-- A step without a delivery, from its log. -/
theorem PoolStep.of_quiet {R : Prop} {s s' : NdpSt} {us : List IoUse}
    (huses : s'.uses = s.uses ++ us)
    (hflight : s'.inFlight = s.inFlight + us.count .accept) (hus : us.count .release = 0)
    (hfresh : s'.Fresh) : PoolStep R none s s' us :=
  ⟨huses, nofun, hflight, fun _ => hus, nofun, hfresh⟩

/-- A step with a delivery, from its log. -/
theorem PoolStep.of_delivery {R : Prop} {s s' : NdpSt} {us : List IoUse} {k : ℕ}
    (huses : s'.uses = s.uses ++ us) (hk : k < s.inFlight)
    (hflight : s'.inFlight + 1 = s.inFlight + us.count .accept)
    (hus : us.count .release = 1 ↔ R) (hfresh : s'.Fresh) : PoolStep R (some k) s s' us := by
  refine ⟨huses, fun j hj => ?_, hflight, nofun, fun _ => hus, hfresh⟩
  rwa [← Option.some.inj hj]

/-- …where there is one I/O at a time, and it is released. -/
theorem PoolStep.of_single {s s' : NdpSt} {us : List IoUse} (huses : s'.uses = s.uses ++ us)
    (hone : s.inFlight = 1) (hflight : s'.inFlight = us.count .accept)
    (hus : us.count .release = 1) (hfresh : s'.Fresh) : PoolStep True (some 0) s s' us :=
  .of_delivery huses (by omega) (by omega) (iff_of_true hus trivial) hfresh

section Echo

variable {d : Bdev} {r : DataReq} {disk : ℕ → UInt8} {s s' : EchoSt} {l : EchoLabel}

theorem uses_echo_next {t : EchoSt} {phase : EchoPhase} {es : List (CmdEffect EchoObj)}
    {us : List IoUse} (ht : t.trace = s.trace) (hus : es.filterMap CmdEffect.use = us) :
    (NdpSt.echo (t.next phase es)).uses = (NdpSt.echo s).uses ++ us := by
  rw [NdpSt.uses, NdpSt.uses, EchoSt.next_trace, ht, List.filterMap_append, hus]

/-- The handler of ECHO takes a `bdev_io` where its read is accepted. -/
theorem echoExec_io (hphase : s.phase = .idle) (ctxOk : Bool) (rc : ℤ) :
    ∃ us, PoolStep True none (.echo s) (.echo (nvmfBdevCtrlrCustomEchoCmd r ctxOk rc s)) us := by
  have hnone : (NdpSt.echo s).inFlight = 0 := if_neg (by rw [hphase]; nofun)
  unfold nvmfBdevCtrlrCustomEchoCmd
  split_ifs with hctx hrc
  · exact ⟨[], .of_quiet (uses_echo_next rfl rfl) hnone.symm rfl trivial⟩
  · refine ⟨[], .of_quiet (uses_echo_next rfl ?_) hnone.symm rfl trivial⟩
    simp [List.filterMap_cons, CmdEffect.use, hrc]
  · obtain rfl := not_not.mp hrc
    exact ⟨[.accept], .of_quiet (uses_echo_next rfl rfl) (by rw [hnone]; rfl) rfl trivial⟩

/-- Its first callback releases what it was entered with, and takes one for the second read. -/
theorem echoFirst_io (hphase : s.phase = .firstRead) (success firstOk : Bool) (rc : ℤ) :
    ∃ us, PoolStep True (some 0) (.echo s)
      (.echo (nvmfBdevCtrlrFirstReadComplete d r disk success firstOk rc s)) us := by
  have hone : (NdpSt.echo s).inFlight = 1 := if_pos (Or.inl hphase)
  have htrace : (s.transfer d disk r.echoFirstOp success).trace = s.trace :=
    EchoSt.transfer_trace ..
  unfold nvmfBdevCtrlrFirstReadComplete
  dsimp only
  split_ifs with hsuccess hfirst hrc
  · exact ⟨[.release], .of_single (uses_echo_next htrace rfl) hone rfl rfl trivial⟩
  · exact ⟨[.release], .of_single (uses_echo_next htrace rfl) hone rfl rfl trivial⟩
  · refine ⟨[.release], .of_single (uses_echo_next ?_ ?_) hone rfl rfl trivial⟩
    · exact htrace
    · simp [List.filterMap_cons, CmdEffect.use, hrc]
  · obtain rfl := not_not.mp hrc
    refine ⟨[.accept, .release], .of_single (uses_echo_next ?_ rfl) hone rfl rfl trivial⟩
    exact htrace

/-- Its second callback has one end for all paths. -/
theorem echoSecond_io (hphase : s.phase = .secondRead) (success secondOk resultOk dataOk : Bool) :
    ∃ us, PoolStep True (some 0) (.echo s)
      (.echo (nvmfBdevCtrlrSecondReadComplete d r disk success secondOk resultOk dataOk s)) us := by
  have hone : (NdpSt.echo s).inFlight = 1 := if_pos (Or.inr hphase)
  have htrace : (s.transfer d disk r.echoSecondOp success).trace = s.trace :=
    EchoSt.transfer_trace ..
  unfold nvmfBdevCtrlrSecondReadComplete
  dsimp only
  split_ifs
  all_goals
    refine ⟨[.release], .of_single (uses_echo_next ?_ rfl) hone rfl rfl trivial⟩
    exact htrace

/-- **ECHO releases what is delivered to it**, on every path of its two callbacks. -/
theorem echoStep_io (h : echoStep d r disk s l = some s') :
    ∃ us, PoolStep True (NdpAct.echo l).delivers (.echo s) (.echo s') us := by
  cases l with
  | exec ctxOk rc =>
    rw [echoStep] at h
    split at h
    · rename_i hphase
      exact Option.some.inj h ▸ echoExec_io hphase ctxOk rc
    · cases h
  | first success firstOk rc =>
    rw [echoStep] at h
    split at h
    · rename_i hphase
      exact Option.some.inj h ▸ echoFirst_io hphase success firstOk rc
    · cases h
  | second success secondOk resultOk dataOk =>
    rw [echoStep] at h
    split at h
    · rename_i hphase
      exact Option.some.inj h ▸ echoSecond_io hphase success secondOk resultOk dataOk
    · cases h

end Echo

section Grep

variable {d : Bdev} {r : DataReq} {disk : ℕ → UInt8} {s s' : GrepSt} {l : GrepLabel}

theorem uses_grep_next {t : GrepSt} {phase : GrepPhase} {es : List (CmdEffect GrepObj)}
    {us : List IoUse} (ht : t.trace = s.trace) (hus : es.filterMap CmdEffect.use = us) :
    (NdpSt.grep (t.next phase es)).uses = (NdpSt.grep s).uses ++ us := by
  rw [NdpSt.uses, NdpSt.uses, GrepSt.next_trace, ht, List.filterMap_append, hus]

/-- An attempt of GREP takes a `bdev_io` where its read is accepted. -/
theorem grepDispatch_io (hphase : s.phase = .idle ∨ s.phase = .queued) (e : IoEnv)
    (bufferOk ctxOk : Bool) (rc : ℤ) :
    ∃ us, PoolStep True none (.grep s) (.grep (grepDispatch d r e bufferOk ctxOk rc s)) us := by
  have hnone : (NdpSt.grep s).inFlight = 0 := by
    rcases hphase with h | h <;> simp [NdpSt.inFlight, h]
  have hends := grepDispatch_ends d r e bufferOk ctxOk rc s
  generalize grepDispatch d r e bufferOk ctxOk rc s = t at hends
  cases hends with
  | gate | refused | noBuffer | outside | noCtx =>
    exact ⟨[], .of_quiet (uses_grep_next rfl rfl) hnone.symm rfl trivial⟩
  | queued ht hrange hctx hrc =>
    exact ⟨[], .of_quiet (uses_grep_next rfl rfl) hnone.symm rfl trivial⟩
  | rejected ht hrange hctx hrc hmem =>
    refine ⟨[], .of_quiet (uses_grep_next rfl ?_) hnone.symm rfl trivial⟩
    simp [List.filterMap_cons, CmdEffect.use, hrc]
  | reads ht hrange hctx hrc =>
    exact ⟨[.accept], .of_quiet (uses_grep_next rfl rfl) (by rw [hnone]; rfl) rfl trivial⟩

/-- **GREP releases what is delivered to it**: its callback has one end for all paths. -/
theorem grepStep_io (h : grepStep d r disk s l = some s') :
    ∃ us, PoolStep True (NdpAct.grep l).delivers (.grep s) (.grep s') us := by
  rcases grepStep_cases h with ⟨e, bufferOk, ctxOk, rc, rfl, hphase, rfl⟩ |
    ⟨success, part, behind, resultOk, reallocOk, rfl, hphase, rfl⟩
  · exact grepDispatch_io hphase e bufferOk ctxOk rc
  · obtain ⟨es, sc, hes, htrace, -, hdone⟩ := completeCmdCustom_log success behind resultOk
      reallocOk (s.transfer d r disk success part)
    have hnil : es.filterMap CmdEffect.use = [] := by
      refine List.filterMap_eq_nil_iff.mpr fun e he => ?_
      rcases hes e he with rfl | rfl | rfl <;> rfl
    refine ⟨[.release], .of_single ?_ (if_pos hphase) (if_neg (by rw [hdone]; nofun)) rfl trivial⟩
    rw [NdpSt.uses, htrace]
    simp [NdpSt.uses, List.filterMap_cons, CmdEffect.use, hnil, GrepSt.transfer]

end Grep

section Heaan

variable {r : HeaanReq} {lib : HeaanLib} {al : Alloc} {rc : ℕ → ℤ} {s s' : St} {k : ℕ} {io : Io}
  {success : Bool}

/-- The read loops accept what they log as accepted… -/
theorem uses_submitReads : ∀ (k : ℕ) (ios : List Io),
    (submitReads rc k ios).effects.filterMap Effect.use
      = List.replicate (submitReads rc k ios).accepted.length .accept
  | _, [] => rfl
  | k, io :: ios => by
      rw [submitReads]
      split
      · rename_i h
        simp [Effect.use, h]
      · simp [Effect.use, uses_submitReads (k + 1) ios, List.replicate_succ]

/-- …and so does the write loop. -/
theorem uses_submitWrites : ∀ (k : ℕ) (ios : List Io),
    (submitWrites rc k ios).effects.filterMap Effect.use
      = List.replicate (submitWrites rc k ios).accepted.length .accept
  | _, [] => rfl
  | k, io :: ios => by
      rw [submitWrites]
      by_cases h : rc k = 0
      · simp [Effect.use, h, uses_submitWrites (k + 1) ios, List.replicate_succ]
      · simp [Effect.use, h, uses_submitWrites (k + 1) ios]

@[simp] theorem uses_dmaFree (s : St) (b : Buf) : (s.dmaFree b).filterMap Effect.use = [] := by
  refine List.filterMap_eq_nil_iff.mpr fun e he => ?_
  rw [St.mem_dmaFree he]
  rfl

@[simp] theorem uses_readInputs (s : St) :
    (readInputs s).trace.filterMap Effect.use = s.trace.filterMap Effect.use := by
  simp [readInputs, List.filterMap_cons, Effect.use]

@[simp] theorem uses_buffers (al : Alloc) : al.buffers.filterMap Effect.use = [] := by
  refine List.filterMap_eq_nil_iff.mpr fun e he => ?_
  obtain ⟨o, rfl⟩ := Alloc.mem_buffers he
  rfl

@[simp] theorem uses_allocated (r : HeaanReq) (al : Alloc) (s : St) :
    (NdpSt.heaan (r.allocated al s)).uses = (NdpSt.heaan s).uses := by
  simp only [NdpSt.uses, HeaanReq.allocated, St.emit_trace, List.filterMap_append]
  split <;> simp [List.filterMap_cons, Effect.use]

/-- The handler takes a `bdev_io` for each read it has in flight when it returns. -/
theorem heaanExec_io (hin : s.inflight = []) : ∃ us, PoolStep True none (.heaan s)
    (.heaan (nvmfBdevCtrlrCustomHeaanCipaddCmd r al rc s)) us := by
  have hfresh : (NdpSt.heaan (nvmfBdevCtrlrCustomHeaanCipaddCmd r al rc s)).Fresh :=
    fun h => absurd h handler_exec_ne_idle
  have hnone : (NdpSt.heaan s).inFlight = 0 := by rw [NdpSt.inFlight, hin]; rfl
  rcases exec_cases r al rc s with heq | heq | ⟨sc, -, heq⟩ | ⟨p, -, -, heq⟩ <;>
    rw [heq] at hfresh ⊢
  · refine ⟨[], .of_quiet ?_ rfl rfl hfresh⟩
    simp [NdpSt.uses, St.crash, Effect.use]
  · refine ⟨[], .of_quiet ?_ rfl rfl hfresh⟩
    rw [← uses_allocated r al s]
    simp [NdpSt.uses, St.crash, Effect.use]
  · refine ⟨[], .of_quiet ?_ rfl rfl hfresh⟩
    rw [← uses_allocated r al s]
    simp [NdpSt.uses, St.reject, List.filterMap_cons, Effect.use]
  · refine ⟨List.replicate (submitReads rc 0 p.reads).accepted.length .accept,
      .of_quiet ?_ ?_ (by simp [List.count_replicate]) hfresh⟩
    · rw [← uses_allocated r al s]
      unfold execParsed
      dsimp only
      split <;> simp [NdpSt.uses, List.filterMap_cons, Effect.use, uses_submitReads]
    · rw [hnone, List.count_replicate_self, Nat.zero_add]
      unfold execParsed
      dsimp only
      split <;> rfl

/-- When a read is released, in terms of the counter its callback has set. -/
theorem releases_fill_iff (hio : s.inflight[k]? = some io) (hcb : io.cb = .fill) :
    s.Releases lib k success ↔
      (countDown io success (s.delivered k io success)).ctx.pendingFills < 0 ∨
      ((countDown io success (s.delivered k io success)).ctx.pendingFills = 0 ∧
        ((countDown io success (s.delivered k io success)).ctx.addResult lib).1 ≠ 0) := by
  cases success with
  | false => exact iff_of_true nofun (Or.inl (by rw [entered_pending_false]; decide))
  | true =>
    rw [entered_pending_true, countDown_ctx, St.Releases]
    simp only [hio, Option.some.injEq, forall_eq', hcb, true_implies]
    rfl

/-- …and a write. -/
theorem releases_write_iff (hio : s.inflight[k]? = some io) (hcb : io.cb = .write) :
    s.Releases lib k success ↔
      (countDown io success (s.delivered k io success)).ctx.pendingFills ≤ 0 := by
  cases success with
  | false => exact iff_of_true nofun (by rw [entered_pending_false]; decide)
  | true =>
    rw [entered_pending_true, St.Releases]
    simp only [hio, Option.some.injEq, forall_eq', hcb, true_implies]

/-- A callback of HEaaN add, behind its first lines: what it accepts is in flight, and it releases
once where `R` holds. -/
structure PathIo (R : Prop) (c t : St) (us : List IoUse) : Prop where
  uses : (NdpSt.heaan t).uses = (NdpSt.heaan c).uses ++ us
  inFlight : t.inflight.length = c.inflight.length + us.count .accept
  released : us.count .release = 1 ↔ R

/-- The read callback releases where it ends the command. -/
theorem fillComplete_io {c : St} (hc : countDown io success s = c) :
    ∃ us, PathIo (c.ctx.pendingFills < 0 ∨
        (c.ctx.pendingFills = 0 ∧ (c.ctx.addResult lib).1 ≠ 0)) c
      (nvmfHeaanBufferFillComplete lib rc io success s) us := by
  rcases fillComplete_cases lib rc io success s with ⟨hp, heq⟩ | ⟨hp, heq⟩ | ⟨hp, heq⟩ <;>
    rw [hc] at hp heq <;> rw [heq]
  · exact ⟨[], (List.append_nil _).symm, rfl, iff_of_false nofun (by omega)⟩
  · by_cases hadd : (c.ctx.addResult lib).1 = 0
    · rw [fillDone, if_neg (not_not.mpr hadd)]
      refine ⟨List.replicate
        (submitWrites rc 0 (ioList .write .target 0 c.ctx.targetExt)).accepted.length .accept,
        ?_, ?_, iff_of_false ?_ ?_⟩
      · simp [NdpSt.uses, List.filterMap_cons, Effect.use, uses_submitWrites]
      · simp [List.count_replicate_self]
      · simp [List.count_replicate]
      · exact fun h => h.elim (by omega) fun h => h.2 hadd
    · rw [fillDone, if_pos hadd]
      refine ⟨[.release], ?_, rfl, iff_of_true rfl (Or.inr ⟨hp, hadd⟩)⟩
      simp [NdpSt.uses, addFailed, List.filterMap_cons, Effect.use]
  · refine ⟨[.release], ?_, rfl, iff_of_true rfl (Or.inl hp)⟩
    simp [NdpSt.uses, fillFailed, List.filterMap_cons, Effect.use]

/-- …and so does the write callback. -/
theorem writeComplete_io {c : St} (hc : countDown io success s = c) :
    ∃ us, PathIo (c.ctx.pendingFills ≤ 0) c (nvmfHeaanCipWriteComplete io success s) us := by
  rcases writeComplete_cases io success s with ⟨hp, heq⟩ | ⟨hp, heq⟩ | ⟨hp, heq⟩ <;>
    rw [hc] at hp heq <;> rw [heq]
  · exact ⟨[], (List.append_nil _).symm, rfl, iff_of_false nofun (by omega)⟩
  · refine ⟨[.release], ?_, rfl, iff_of_true rfl hp.le⟩
    simp [NdpSt.uses, writeDone, List.filterMap_cons, Effect.use]
  · refine ⟨[.release], ?_, rfl, iff_of_true rfl hp.le⟩
    simp [NdpSt.uses, writeFailed, List.filterMap_cons, Effect.use]

/-- Whatever its callback, an I/O is released under the condition on the state it meets. -/
theorem runCallback_io (hio : s.inflight[k]? = some io) :
    ∃ us, PathIo (s.Releases lib k success) (countDown io success (s.delivered k io success))
      (runCallback lib rc io success (s.delivered k io success)) us := by
  unfold runCallback
  split
  · rename_i hcb
    rw [releases_fill_iff hio hcb]
    exact fillComplete_io rfl
  · rename_i hcb
    rw [releases_write_iff hio hcb]
    exact writeComplete_io rfl

/-- **HEaaN add releases what is delivered to it exactly on the paths that end the command.** -/
theorem heaanDeliver_io (hfresh : (NdpSt.heaan s).Fresh) (hio : s.inflight[k]? = some io) :
    ∃ us, PoolStep (s.Releases lib k success) (some k) (.heaan s)
      (.heaan (runCallback lib rc io success (s.delivered k io success))) us := by
  obtain ⟨htrace, -, hin, -, -⟩ := entered_eq s k io success
  obtain ⟨us, huses, hflight, hreleased⟩ := @runCallback_io lib rc s k io success hio
  have hk : k < s.inflight.length := (List.getElem?_eq_some_iff.mp hio).1
  refine ⟨us, .of_delivery ?_ hk ?_ hreleased fun h => ?_⟩
  · rw [huses, NdpSt.uses, htrace]
    cases success <;> simp [NdpSt.uses, List.filterMap_cons, Effect.use]
  · simp only [NdpSt.inFlight]
    rw [hflight, hin, List.length_eraseIdx_of_lt hk]
    omega
  · rw [handler_runCallback, (delivered_eq s k io success).2.1] at h
    rw [hfresh h] at hio
    cases hio

end Heaan

/-- The device's contents mean nothing to the pool. -/
theorem PoolStep.of_disk {R : Prop} {o : Option ℕ} {s : St} {disk : ℕ → UInt8} {s' : NdpSt}
    {us : List IoUse} (h : PoolStep R o (.heaan { s with disk := disk }) s' us) :
    PoolStep R o (.heaan s) s' us :=
  ⟨h.uses, h.index, h.inFlight, h.released_none, h.released_some, h.fresh⟩

/-- **What a step of a command does to the pool.** -/
theorem NdpCmd.step_io {c : NdpCmd} {disk : ℕ → UInt8} {s s' : NdpSt} {a : NdpAct}
    (hfresh : s.Fresh) (h : c.step disk s a = some s') :
    ∃ us, PoolStep (c.Releases disk s a) a.delivers s s' us := by
  unfold NdpCmd.step at h
  split at h
  · obtain ⟨t, ht, rfl⟩ := Option.map_eq_some_iff.mp h
    exact echoStep_io ht
  · obtain ⟨t, ht, rfl⟩ := Option.map_eq_some_iff.mp h
    exact grepStep_io ht
  · rename_i r lib s l
    obtain ⟨t, ht, rfl⟩ := Option.map_eq_some_iff.mp h
    rcases heaanStep_cases ht with ⟨al, rc, rfl, hidle, rfl⟩ | ⟨k, success, rc, io, rfl, hio, rfl⟩
    · obtain ⟨us, hus⟩ := @heaanExec_io r al rc { s with disk := disk } (hfresh hidle)
      exact ⟨us, hus.of_disk⟩
    · obtain ⟨us, hus⟩ :=
        @heaanDeliver_io lib rc { s with disk := disk } k io success hfresh hio
      exact ⟨us, hus.of_disk⟩
  · cases h

/-! ## The commands together -/

section World

variable {κ : Type} [DecidableEq κ] {T : NdpTarget κ} {w w' : NdpWorld κ} {l : NdpLabel}

/-- **Inversion of a step**: the command steps, its accepted submissions take their `bdev_io`s, and
a delivered one is logged with its releases. -/
theorem ndpStep_cases (hfresh : (w.st l.cmd).Fresh) (h : ndpStep T w l = some w') :
    ∃ s' us ids p, PoolStep (T.Releases w l) l.act.delivers (w.st l.cmd) s' us ∧
      w.ios.takeMany l.waiting (T.chan l.cmd) (us.count .accept) = some (ids, p) ∧
      w'.st = Function.update w.st l.cmd s' ∧
      ((l.act.delivers = none ∧ w'.ios = p ∧ w'.log = w.log ∧
          w'.flight = Function.update w.flight l.cmd (w.flight l.cmd ++ ids)) ∨
        ∃ k io, l.act.delivers = some k ∧ (w.flight l.cmd)[k]? = some io ∧
          w'.ios = (spdkBdevFreeIo T.cacheSize (T.chan l.cmd) io)^[us.count .release] p ∧
          w'.log = w.log ++ [(io, us.count .release)] ∧
          w'.flight = Function.update w.flight l.cmd ((w.flight l.cmd).eraseIdx k ++ ids)) := by
  unfold ndpStep at h
  obtain ⟨s', hs', h⟩ := Option.bind_eq_some_iff.mp h
  obtain ⟨us, hus⟩ := NdpCmd.step_io hfresh hs'
  have hdiff : ∀ u, s'.uses.count u - (w.st l.cmd).uses.count u = us.count u := fun u => by
    rw [hus.uses, List.count_append, Nat.add_sub_cancel_left]
  rw [hdiff, hdiff] at h
  obtain ⟨⟨ids, p⟩, htake, h⟩ := Option.bind_eq_some_iff.mp h
  refine ⟨s', us, ids, p, hus, htake, ?_⟩
  split at h
  · rename_i hnone
    obtain rfl := Option.some.inj h
    exact ⟨rfl, Or.inl ⟨hnone, rfl, rfl, rfl⟩⟩
  · rename_i k hsome
    obtain ⟨io, hio, rfl⟩ := Option.map_eq_some_iff.mp h
    exact ⟨rfl, Or.inr ⟨k, io, hsome, hio, rfl, rfl, rfl⟩⟩

/-- Every I/O in flight has its `bdev_io`. -/
structure Aligned (w : NdpWorld κ) : Prop where
  fresh : ∀ i, (w.st i).Fresh
  length : ∀ i, (w.flight i).length = (w.st i).inFlight

theorem Aligned.step (h : Aligned w) (hstep : ndpStep T w l = some w') : Aligned w' := by
  obtain ⟨s', us, ids, p, hus, htake, hst, hcases⟩ := ndpStep_cases (h.fresh _) hstep
  have hids := CachedPool.length_takeMany htake
  have hlen := h.length l.cmd
  have hflight := hus.inFlight
  have hnew : ∃ ios, w'.flight = Function.update w.flight l.cmd ios ∧ ios.length = s'.inFlight := by
    rcases hcases with ⟨hnone, -, -, hf⟩ | ⟨k, io, hsome, hio, -, -, hf⟩
    · refine ⟨_, hf, ?_⟩
      rw [hnone, Option.toList_none, List.length_nil] at hflight
      rw [List.length_append]
      omega
    · refine ⟨_, hf, ?_⟩
      have hk := (List.getElem?_eq_some_iff.mp hio).1
      rw [hsome, Option.toList_some, List.length_singleton] at hflight
      rw [List.length_append, List.length_eraseIdx_of_lt hk]
      omega
  obtain ⟨ios, hf, hios⟩ := hnew
  constructor
  · intro i
    rw [hst]
    by_cases hi : i = l.cmd
    · subst hi
      rw [Function.update_self]
      exact hus.fresh
    · rw [Function.update_of_ne hi]
      exact h.fresh i
  · intro i
    rw [hst, hf]
    by_cases hi : i = l.cmd
    · subst hi
      rw [Function.update_self, Function.update_self]
      exact hios
    · rw [Function.update_of_ne hi, Function.update_of_ne hi]
      exact h.length i

theorem aligned_init : Aligned (ndpSys T).init := by
  refine ⟨fun i => ?_, fun i => ?_⟩
  · change (T.cmds i).init.Fresh
    cases T.cmds i with
    | echo d r => trivial
    | grep d r => trivial
    | heaan r lib => exact fun _ => rfl
  · change 0 = (T.cmds i).init.inFlight
    cases T.cmds i <;> rfl

/-- Every delivered `bdev_io` was released once, and those idle at first are idle or in flight. -/
structure Balanced (T : NdpTarget κ) (w : NdpWorld κ) : Prop extends Aligned w where
  once : ∀ e ∈ w.log, e.2 = 1
  idle : ∀ io, T.ios.Idle io ↔ w.ios.Idle io ∨ ∃ i, io ∈ w.flight i

/-- **A step that meets the condition keeps the balance.**  What is taken goes from the idle ones to
those in flight, and what is delivered goes back. -/
theorem Balanced.step (h : Balanced T w) (hrel : T.Releases w l) (hstep : ndpStep T w l = some w') :
    Balanced T w' := by
  have haligned : Aligned w' := h.toAligned.step hstep
  obtain ⟨s', us, ids, p, hus, htake, -, hcases⟩ := ndpStep_cases (h.fresh _) hstep
  rcases hcases with ⟨hnone, hios, hlog, hf⟩ | ⟨k, io, hsome, hio, hios, hlog, hf⟩
  · refine ⟨haligned, hlog ▸ h.once, fun b => ?_⟩
    rw [h.idle, CachedPool.idle_takeMany htake, hios, hf, exists_mem_update_iff,
      exists_mem_iff w.flight l.cmd, List.mem_append]
    simp only [or_assoc, or_comm, or_left_comm]
  · have hone : us.count .release = 1 := (hus.released_some (by rw [hsome]; rfl)).mpr hrel
    rw [hone] at hlog hios
    have hmem : ∀ b, b ∈ w.flight l.cmd ↔ b = io ∨ b ∈ (w.flight l.cmd).eraseIdx k := fun b => by
      rw [← (eraseIdx_perm hio).mem_iff, List.mem_cons]
    refine ⟨haligned, fun e he => ?_, fun b => ?_⟩
    · rw [hlog] at he
      rcases List.mem_append.mp he with he | he
      · exact h.once e he
      · rw [List.mem_singleton.mp he]
    · rw [h.idle, CachedPool.idle_takeMany htake, hios, hf, exists_mem_update_iff,
        exists_mem_iff w.flight l.cmd, hmem, List.mem_append, Function.iterate_one, spdkBdevFreeIo,
        CachedPool.idle_give]
      simp only [or_assoc, or_comm, or_left_comm]

theorem balanced_init : Balanced T (ndpSys T).init :=
  ⟨aligned_init, nofun, fun io => ⟨Or.inl, fun h => h.elim id fun ⟨_, h⟩ => by cases h⟩⟩

end World

/-! ## When the `bdev_io`s are conserved -/

section Conserved

variable {κ : Type}

theorem Balanced.conserved {T : NdpTarget κ} {w : NdpWorld κ} (hw : Balanced T w) :
    Conserved T w := by
  refine ⟨hw.once, fun hquiet => Set.ext fun io => not_congr ?_⟩
  have hnone : ¬ ∃ i, io ∈ w.flight i := by
    rintro ⟨i, hi⟩
    have hlen := hw.length i
    rw [hquiet i, List.length_eq_zero_iff] at hlen
    rw [hlen] at hi
    cases hi
  rw [hw.idle, or_iff_left hnone]

/-- **In every run whose deliveries to HEaaN add are all of the kind its callbacks release, the
`bdev_io`s are conserved** — for any number of commands, on any channels, in any order. -/
theorem ios_conserved [DecidableEq κ] (T : NdpTarget κ) (w : NdpWorld κ)
    (h : (ndpSys T).Reach T.Releases w) : Conserved T w :=
  (h.invariant balanced_init fun _ _ _ ih hrel hstep => ih.step hrel hstep).conserved

/-- Nothing that is delivered to HEaaN add has succeeded. -/
def NdpAct.Fails : NdpAct → Prop
  | .heaan (.deliver _ success _) => success = false
  | _ => True

theorem NdpAct.Fails.releases {T : NdpTarget κ} {w : NdpWorld κ} {l : NdpLabel}
    (h : l.act.Fails) : T.Releases w l := by
  unfold NdpTarget.Releases NdpCmd.Releases
  split
  · rename_i hact
    rw [hact] at h
    intro io _ hsuccess
    rw [hsuccess] at h
    cases h
  · trivial

/-- **…and in every run in which no I/O of HEaaN add succeeds**, which is up to the device alone. -/
theorem conserved_of_fails [DecidableEq κ] (T : NdpTarget κ) (w : NdpWorld κ)
    (h : (ndpSys T).Reach (fun _ l => l.act.Fails) w) : Conserved T w :=
  (h.invariant balanced_init fun _ _ _ ih hfails hstep =>
    ih.step hfails.releases hstep).conserved

end Conserved

/-- One channel without a cache, five `bdev_io`s, an ECHO, and HEaaN adds. -/
def NdpTarget.sample : NdpTarget Unit :=
  ⟨fun i => if i = 0 then .echo .sample .echoSample else .heaan .several bytewiseLib, fun _ => (),
    0, ⟨fun _ => [], [0, 1, 2, 3, 4]⟩⟩

/-- An ECHO that runs to its end, and between its reads a HEaaN add whose three reads fail. -/
theorem ios_conserved_sample : ∃ w : NdpWorld Unit,
    (ndpSys .sample).Reach (NdpTarget.Releases .sample) w ∧
    w.log.map Prod.snd = [1, 1, 1, 1, 1] ∧ Conserved .sample w := by
  have hrun : ((ndpSys .sample).run (ndpSys .sample).init
      [⟨0, .echo (.exec true 0), fun _ => 0, false⟩,
       ⟨1, .heaan (.exec .ok fun _ => 0), fun _ => 0, false⟩,
       ⟨1, .heaan (.deliver 1 false fun _ => 0), fun _ => 0, false⟩,
       ⟨0, .echo (.first true true 0), fun _ => 0, false⟩,
       ⟨1, .heaan (.deliver 1 false fun _ => 0), fun _ => 0, false⟩,
       ⟨1, .heaan (.deliver 0 false fun _ => 0), fun _ => 0, false⟩,
       ⟨0, .echo (.second true true true true), fun _ => 0, false⟩]).map
        (fun w => w.log.map Prod.snd) = some [1, 1, 1, 1, 1] := by
    decide +kernel
  obtain ⟨w, hw, hlog⟩ := Option.map_eq_some_iff.mp hrun
  have hreach : (ndpSys .sample).Reach (NdpTarget.Releases .sample) w := by
    refine .of_run _ (fun l hl v => ?_) .init hw
    have hfails : l.act.Fails := by
      simp only [List.mem_cons, List.not_mem_nil, or_false] at hl
      rcases hl with rfl | rfl | rfl | rfl | rfl | rfl | rfl <;> trivial
    exact hfails.releases
  exact ⟨w, hreach, hlog, ios_conserved _ _ hreach⟩

/-- A HEaaN add that succeeds in everything keeps the `bdev_io`s of its reads and of one of its
writes. -/
theorem not_conserved_several : ∃ w : NdpWorld Unit,
    (ndpSys .sample).Reach (fun _ _ => True) w ∧
    (w.st 1).inFlight = 0 ∧ w.log.map Prod.snd = [0, 0, 0, 0, 1] ∧ ¬ Conserved .sample w := by
  have hrun : ((ndpSys .sample).run (ndpSys .sample).init
      (severalRun.map fun l => ⟨1, .heaan l, fun _ => 0, false⟩)).map
        (fun w => ((w.st 1).inFlight, w.log.map Prod.snd)) = some (0, [0, 0, 0, 0, 1]) := by
    decide +kernel
  obtain ⟨w, hw, hval⟩ := Option.map_eq_some_iff.mp hrun
  obtain ⟨hquiet, hlog⟩ := Prod.mk.inj hval
  refine ⟨w, .of_run _ (fun _ _ _ => trivial) .init hw, hquiet, hlog, fun h => ?_⟩
  have hzero : 0 ∈ w.log.map Prod.snd := by
    rw [hlog]
    exact List.mem_cons_self ..
  obtain ⟨e, he, hnone⟩ := List.mem_map.mp hzero
  cases hnone.symm.trans (h.once e he)

end NdpHeaan
