import NdpHeaan.Target.HeaanAdd

/-!
# Target/HeaanAnswer — when HEaaN add does not lose its completion

A completion is raised only inside a callback, when the counter comes down to zero or below.  So a
command hangs when its last callback leaves the counter positive, or when there is no callback at
all: empty input lists, an empty target list, or a rejected write.  Those are the only ways.  Along
`heaanAnswering` steps the counter never exceeds the number of I/Os in flight (`Awaited`), whatever
fails, in whatever order, and however the 32-bit counter wraps.
-/

open Machinery

namespace NdpHeaan

/-- **Steps that leave something to wait for.**  A parsed command has an input extent; the callback
that ends the read phase without an error finds a target extent, and its writes are accepted. -/
def heaanAnswering (r : HeaanReq) (lib : HeaanLib) (s : St) : Label → Prop
  | .exec _ _ => r.noData = false → (∃ p, (heaanParse r).2 = .parsed p) →
      0 < r.cdw11.toNat + r.cdw12.toNat
  | .deliver k success rc => ∀ io, s.inflight[k]? = some io → io.cb = .fill → success = true →
      s.ctx.pendingFills = 1 → ((s.delivered k io true).ctx.addResult lib).1 = 0 →
        0 < r.cdw13.toNat ∧ ∀ i < r.cdw13.toNat, rc i = 0

/-- A callback is still to come, and it is counted. -/
structure Awaited (r : HeaanReq) (s : St) : Prop where
  handler : s.handler ≠ .idle
  inflight_pos : 0 < s.inflight.length
  le_pending : -2 ^ 31 ≤ s.ctx.pendingFills
  pending_lt : s.ctx.pendingFills < 2 ^ 31
  pending_le : s.ctx.pendingFills ≤ s.inflight.length
  /-- The one value that counting down turns into a large one. -/
  wrap : s.ctx.pendingFills = -2 ^ 31 → 2 ^ 31 ≤ s.inflight.length
  targetExtentsCount : s.ctx.targetExtentsCount = r.cdw13
  targetExt : s.ctx.targetExt.length = r.cdw13.toNat

/-- **The invariant**: the command has not got past its checks, or it is completed, or a callback is
still to come. -/
inductive Answered (r : HeaanReq) (s : St) : Prop
  | early (handler : s.handler ≠ .returned) (inflight : s.inflight = [])
  | completed (h : .complete ∈ s.trace)
  | awaited (h : Awaited r s)

variable {r : HeaanReq} {lib : HeaanLib} {al : Alloc} {rc : ℕ → ℤ} {s s' : St}

/-- A counter set up with a number of I/Os that are all in flight. -/
theorem Awaited.of_count {n : ℕ} (hhandler : s.handler ≠ .idle) (hn : 0 < n)
    (hle : n ≤ s.inflight.length) (hpending : s.ctx.pendingFills = asInt32 (n % 2 ^ 32 : ℕ))
    (hcount : s.ctx.targetExtentsCount = r.cdw13) (hext : s.ctx.targetExt.length = r.cdw13.toNat) :
    Awaited r s := by
  have h1 := le_asInt32 (n % 2 ^ 32 : ℕ)
  have h2 := asInt32_lt (n % 2 ^ 32 : ℕ)
  have h3 := @asInt32_le (n % 2 ^ 32 : ℕ) (by omega)
  refine ⟨hhandler, by omega, by omega, by omega, by omega, fun hw => ?_, hcount, hext⟩
  by_contra hlt
  -- a count below the sign bit is kept as it is
  rw [hpending, asInt32_eq (by omega) (by omega)] at hw
  omega

/-- **The handler** completes the request or leaves reads in flight. -/
theorem answered_exec (hinflight : s.inflight = []) (hpos : heaanAnswering r lib s (.exec al rc)) :
    Answered r (nvmfBdevCtrlrCustomHeaanCipaddCmd r al rc s) := by
  rcases exec_cases r al rc s with h | h | ⟨sc, -, h⟩ | ⟨p, hnd, hp, h⟩
  · rw [h]
    exact .early Handler.noConfusion hinflight
  · rw [h]
    exact .early Handler.noConfusion hinflight
  · rw [h]
    exact .completed (List.mem_append_right _ (by simp))
  · rw [h]
    cases hrej : (submitReads rc 0 p.reads).rejected with
    | true =>
      refine .completed ?_
      simp only [execParsed, hrej, if_true]
      exact List.mem_append_right _ (List.mem_append_right _ (by simp))
    | false =>
      rw [execParsed_of_accepted (submitReads_of_not_rejected hrej)]
      refine .awaited (.of_count (n := r.cdw11.toNat + r.cdw12.toNat) Handler.noConfusion
        (hpos hnd ⟨p, hp⟩) ?_ ?_ rfl (length_of_parsed hp).2.2)
      · exact (Parsed.length_reads hp).ge
      · rw [HeaanReq.ctxParsed_pendingFills, UInt32.toNat_add]

/-- The callback that ends the read phase completes the request or leaves writes in flight. -/
theorem answered_fillDone {io : Io} (hhandler : s.handler ≠ .idle)
    (hcount : s.ctx.targetExtentsCount = r.cdw13) (hext : s.ctx.targetExt.length = r.cdw13.toNat)
    (hwrites : (s.ctx.addResult lib).1 = 0 → 0 < r.cdw13.toNat ∧ ∀ i < r.cdw13.toNat, rc i = 0) :
    Answered r (fillDone lib rc io s) := by
  unfold fillDone
  dsimp only
  split
  · exact .completed (List.mem_append_right _ (List.mem_append_right _ (by simp)))
  · rename_i hadd
    obtain ⟨hpos, hrc⟩ := hwrites (not_not.mp hadd)
    have hall : submitWrites rc 0 (ioList .write .target 0 s.ctx.targetExt) = _ :=
      submitWrites_of_all fun j hj => by
        rw [length_ioList, hext] at hj
        rw [Nat.zero_add]
        exact hrc j hj
    refine .awaited (.of_count (n := r.cdw13.toNat) hhandler hpos ?_ ?_ hcount hext)
    · rw [startWrites_inflight, storeResult_targetExt, readInputs_ctx, hall, List.length_append,
        length_ioList, hext]
      exact Nat.le_add_left _ _
    · rw [startWrites_ctx, storeResult_pending, readInputs_ctx, hcount,
        Nat.mod_eq_of_lt r.cdw13.toNat_lt]

/-- A failed I/O completes the request, whichever callback it has. -/
theorem complete_of_failure (io : Io) : .complete ∈ (runCallback lib rc io false s).trace := by
  unfold runCallback
  split
  · rcases fillComplete_cases lib rc io false s with ⟨h, -⟩ | ⟨h, -⟩ | ⟨-, heq⟩
    · cases h
    · cases h
    · rw [heq]
      exact List.mem_append_right _ (by simp)
  · rcases writeComplete_cases io false s with ⟨h, -⟩ | ⟨h, -⟩ | ⟨-, heq⟩
    · cases h
    · cases h
    · rw [heq]
      exact List.mem_append_right _ (by simp)

/-- Counting down leaves a callback to come, as long as the counter stays positive. -/
theorem Awaited.countDown (h : Awaited r s) {k : ℕ} {io : Io} (hio : s.inflight[k]? = some io)
    (hpos : 0 < (countDown io true (s.delivered k io true)).ctx.pendingFills) :
    Awaited r (NdpHeaan.countDown io true (s.delivered k io true)) := by
  obtain ⟨-, hhandler, hinflight, hpending, htargetExt, htargetCount⟩ := delivered_eq s k io true
  have hk : k < s.inflight.length := (List.getElem?_eq_some_iff.mp hio).1
  have hlen : (NdpHeaan.countDown io true (s.delivered k io true)).inflight.length
      = s.inflight.length - 1 := by
    rw [countDown_inflight, hinflight, List.length_eraseIdx_of_lt hk]
  have hcount := countDown_pending_true io (s.delivered k io true)
  rw [hpending] at hcount
  have hlt := asInt32_lt (s.ctx.pendingFills - 1)
  have hle : asInt32 (s.ctx.pendingFills - 1) ≤ (s.inflight.length - 1 : ℕ) := by
    by_cases hw : s.ctx.pendingFills = -2 ^ 31
    · have := h.wrap hw
      omega
    · have h1 := h.le_pending
      have h2 := h.pending_lt
      have h3 := h.pending_le
      rw [asInt32_eq (by omega) (by omega)]
      omega
  have hctx := countDown_ctx io true (s.delivered k io true)
  refine ⟨?_, by omega, by omega, by omega, by omega, by omega, ?_, ?_⟩
  · rw [countDown_handler, hhandler]
    exact h.handler
  · rw [hctx, htargetCount]
    exact h.targetExtentsCount
  · rw [hctx, htargetExt]
    exact h.targetExt

/-- **A callback** completes the request or leaves another one to come. -/
theorem Awaited.deliver (h : Awaited r s) {k : ℕ} {io : Io} {success : Bool}
    (hio : s.inflight[k]? = some io) (hgo : heaanAnswering r lib s (.deliver k success rc)) :
    Answered r (runCallback lib rc io success (s.delivered k io success)) := by
  cases success with
  | false => exact .completed (complete_of_failure io)
  | true =>
    obtain ⟨-, hhandler, -, hpending, htargetExt, htargetCount⟩ := delivered_eq s k io true
    have hctx := countDown_ctx io true (s.delivered k io true)
    unfold runCallback
    split
    · rename_i hcb
      rcases fillComplete_cases lib rc io true (s.delivered k io true) with
        ⟨hpos, heq⟩ | ⟨h0, heq⟩ | ⟨-, heq⟩
      · rw [heq]
        exact .awaited (h.countDown hio hpos)
      · rw [heq]
        refine answered_fillDone ?_ ?_ ?_ fun hadd => hgo io hio hcb rfl ?_ ?_
        · rw [countDown_handler, hhandler]
          exact h.handler
        · rw [hctx, htargetCount]
          exact h.targetExtentsCount
        · rw [hctx, htargetExt]
          exact h.targetExt
        · rw [countDown_pending_true, hpending] at h0
          have h1 := h.le_pending
          have h2 := h.pending_lt
          by_cases hw : s.ctx.pendingFills = -2 ^ 31
          · rw [hw] at h0
            exact absurd h0 (by decide +kernel)
          · rw [asInt32_eq (by omega) (by omega)] at h0
            omega
        · exact hadd
      · rw [heq]
        exact .completed (List.mem_append_right _ (by simp))
    · rcases writeComplete_cases io true (s.delivered k io true) with
        ⟨hpos, heq⟩ | ⟨-, heq⟩ | ⟨-, heq⟩
      · rw [heq]
        exact .awaited (h.countDown hio hpos)
      · rw [heq]
        exact .completed (List.mem_append_right _ (by simp))
      · rw [heq]
        exact .completed (List.mem_append_right _ (by simp))

/-- **An answering step keeps the invariant.** -/
theorem Answered.step {l : Label} (h : Answered r s) (hgo : heaanAnswering r lib s l)
    (hstep : heaanStep r lib s l = some s') : Answered r s' := by
  cases h with
  | completed h => exact .completed (mem_trace_of_step hstep h)
  | early hhandler hinflight =>
    rcases heaanStep_cases hstep with ⟨al, rc, rfl, -, rfl⟩ | ⟨k, success, rc, io, rfl, hio, rfl⟩
    · exact answered_exec hinflight hgo
    · simp [hinflight] at hio
  | awaited h =>
    rcases heaanStep_cases hstep with
      ⟨al, rc, rfl, hidle, rfl⟩ | ⟨k, success, rc, io, rfl, hio, rfl⟩
    · exact absurd hidle h.handler
    · exact h.deliver hio hgo

/-- **Along answering steps no completion is lost**: once the handler has returned and nothing is in
flight, the request has been completed. -/
theorem heaan_complete_of_quiet (r : HeaanReq) (lib : HeaanLib) (disk : ℕ → UInt8) {s : St}
    (h : (heaanSys r lib disk).Reach (heaanAnswering r lib) s) (hreturned : s.handler = .returned)
    (hquiet : s.inflight = []) : .complete ∈ s.trace := by
  have hI : Answered r s :=
    h.invariant (Answered.early Handler.noConfusion rfl) fun _ _ _ hI hP hs => hI.step hP hs
  cases hI with
  | early hhandler _ => exact absurd hreturned hhandler
  | completed h => exact h
  | awaited h =>
    have := h.inflight_pos
    simp [hquiet] at this

/-- Several reads and writes: every step is answering, and a command with nothing in flight any more
is completed. -/
theorem heaan_complete_of_quiet_sample :
    ∃ s, (heaanSys .several bytewiseLib fun _ => 1).Reach (heaanAnswering .several bytewiseLib) s ∧
      s.handler = .returned ∧ s.inflight = [] ∧ .complete ∈ s.trace := by
  have hrun : (((heaanSys .several bytewiseLib fun _ => 1).run { disk := fun _ => 1 }
      severalRun).map fun s => (s.handler, s.inflight)) = some (.returned, []) := by
    decide +kernel
  obtain ⟨s, hs, hend⟩ := Option.map_eq_some_iff.mp hrun
  obtain ⟨hreturned, hquiet⟩ := Prod.mk.inj hend
  have hreach : (heaanSys .several bytewiseLib fun _ => 1).Reach
      (heaanAnswering .several bytewiseLib) s := by
    refine Sys.Reach.of_run _ (fun l hl t => ?_) .init hs
    rcases mem_severalRun hl with rfl | ⟨k, rfl⟩
    · exact fun _ _ => by decide
    · exact fun _ _ _ _ _ _ => ⟨by decide, fun _ _ => rfl⟩
  exact ⟨s, hreach, hreturned, hquiet, heaan_complete_of_quiet _ _ _ hreach hreturned hquiet⟩

/-- Three empty lists, whose buffers are not granted: the handler returns, nothing is in flight, and
nobody completes the request. -/
theorem heaan_hangs_on_empty_lists :
    ∃ s, (heaanSys (.sample 64 4096 0 0 0 []) bytewiseLib fun _ => 1).Reach (fun _ _ => True) s ∧
      s.handler = .returned ∧ s.inflight = [] ∧ .complete ∉ s.trace := by
  have hrun : (((heaanSys (.sample 64 4096 0 0 0 []) bytewiseLib fun _ => 1).run
      { disk := fun _ => 1 } [.exec { buf := fun _ => false } fun _ => 0]).map fun s =>
        (s.handler, s.inflight, decide (.complete ∈ s.trace))) = some (.returned, [], false) := by
    decide +kernel
  obtain ⟨s, hs, hend⟩ := Option.map_eq_some_iff.mp hrun
  obtain ⟨hreturned, hend⟩ := Prod.mk.inj hend
  obtain ⟨hquiet, hcomplete⟩ := Prod.mk.inj hend
  exact ⟨s, Sys.Reach.of_run _ (fun _ _ _ => trivial) .init hs, hreturned, hquiet,
    of_decide_eq_false hcomplete⟩

end NdpHeaan
