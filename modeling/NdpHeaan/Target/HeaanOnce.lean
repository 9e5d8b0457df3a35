import NdpHeaan.Target.HeaanAdd

/-!
# Target/HeaanOnce — when HEaaN add completes at most once

A command ends well when its log says so: one completion, no response written behind it, nothing
freed twice, no callback on a freed context (`AtMostOnce`).  The code does not ensure this — one
counter serves both as a count and as a failure mark, and the first failure frees the context while
other I/Os are in flight.  It does hold along every run whose steps are `heaanClean`, by an
invariant with one clause for each phase:

    idle ──▸ reading ──▸ writing ──▸ finished
-/

open Machinery

namespace NdpHeaan

/-! ## Orderly logs -/

/-- May the first effect come before the second? -/
def Effect.mayPrecede : Effect → Effect → Bool
  | .complete, .complete => false
  | .complete, .rspSct _ => false
  | .complete, .rspSc _ => false
  | .free o, .free o' => o != o'
  | .free .ctx, .callback _ _ => false
  | _, _ => true

/-- **At most once**: what the log of a command must look like. -/
structure AtMostOnce (t : List Effect) : Prop where
  /-- The request is completed at most once. -/
  completeOnce : t.Pairwise fun e e' => e = .complete → e' ≠ .complete
  /-- The response is not written once the request has been completed. -/
  noLateResponse : t.Pairwise fun e e' =>
    e = .complete → (∀ sct, e' ≠ .rspSct sct) ∧ ∀ sc, e' ≠ .rspSc sc
  /-- The context and its buffers are freed at most once. -/
  freeOnce : t.Pairwise fun e e' => ∀ o, e = .free o → e' ≠ .free o
  /-- No callback runs on a freed context. -/
  noUseAfterFree : t.Pairwise fun e e' => e = .free .ctx → ∀ io success, e' ≠ .callback io success

/-- A log in which no effect comes too early. -/
def Orderly (t : List Effect) : Prop := t.Pairwise fun e e' => e.mayPrecede e' = true

instance (t : List Effect) : Decidable (Orderly t) := inferInstanceAs (Decidable (t.Pairwise _))

theorem Orderly.atMostOnce {t : List Effect} (h : Orderly t) : AtMostOnce t where
  completeOnce := h.imp fun hab ha hb => by
    subst ha hb
    cases hab
  noLateResponse := h.imp fun hab ha => by
    subst ha
    refine ⟨fun _ hb => ?_, fun _ hb => ?_⟩
    · subst hb
      cases hab
    · subst hb
      cases hab
  freeOnce := h.imp fun hab o ha hb => by
    subst ha hb
    simp [Effect.mayPrecede] at hab
  noUseAfterFree := h.imp fun hab ha _ _ hb => by
    subst ha hb
    cases hab

/-- Effects that may come before anything. -/
def Effect.calm : Effect → Bool
  | .free _ | .complete => false
  | _ => true

theorem Effect.mayPrecede_of_calm {e : Effect} (e' : Effect) (h : e.calm = true) :
    e.mayPrecede e' = true := by
  cases e with
  | free | complete => cases h
  | _ => rfl

/-- The inputs are freed at the end of the read phase. -/
def Effect.freesInput : Effect → Bool
  | .free (.buf .input0) | .free (.buf .input1) => true
  | _ => false

/-- …which comes before anything that is not such a free. -/
theorem Effect.mayPrecede_of_freesInput {e e' : Effect} (h : e.freesInput = true)
    (h' : e'.freesInput = false) : e.mayPrecede e' = true := by
  unfold Effect.freesInput at h
  split at h
  · cases e' with
    | free o => cases o with
      | buf b => cases b <;> first | rfl | cases h'
      | _ => rfl
    | _ => rfl
  · cases e' with
    | free o => cases o with
      | buf b => cases b <;> first | rfl | cases h'
      | _ => rfl
    | _ => rfl
  · cases h

theorem Orderly.append {t u : List Effect} (ht : Orderly t) (hu : Orderly u)
    (h : ∀ e ∈ t, ∀ e' ∈ u, e.mayPrecede e' = true) : Orderly (t ++ u) :=
  List.pairwise_append.mpr ⟨ht, hu, h⟩

theorem orderly_of_calm {t : List Effect} (h : ∀ e ∈ t, e.calm = true) : Orderly t :=
  List.Pairwise.imp_of_mem (fun he _ _ => Effect.mayPrecede_of_calm _ (h _ he))
    (List.pairwise_of_forall (R := fun _ _ => True) fun _ _ => trivial)

/-- A log is orderly when it is calm up to an orderly end. -/
theorem Orderly.calm_append {t u : List Effect} (hu : Orderly u) (ht : ∀ e ∈ t, e.calm = true) :
    Orderly (t ++ u) :=
  (orderly_of_calm ht).append hu fun e he e' _ => e.mayPrecede_of_calm e' (ht e he)

/-- A log is orderly when nothing behind the frees of the inputs is such a free. -/
theorem Orderly.early_append {t u : List Effect} (ht : Orderly t)
    (hearly : ∀ e ∈ t, e.calm = true ∨ e.freesInput = true) (hu : Orderly u)
    (hlate : ∀ e ∈ u, e.freesInput = false) : Orderly (t ++ u) :=
  ht.append hu fun e he e' he' => (hearly e he).elim (e.mayPrecede_of_calm e') fun h =>
    Effect.mayPrecede_of_freesInput h (hlate e' he')

theorem Effect.freesInput_of_calm {e : Effect} (h : e.calm = true) : e.freesInput = false := by
  cases e with
  | free => cases h
  | _ => rfl

/-- …in particular when everything behind them is calm. -/
theorem Orderly.append_calm {t u : List Effect} (ht : Orderly t)
    (hearly : ∀ e ∈ t, e.calm = true ∨ e.freesInput = true) (hu : ∀ e ∈ u, e.calm = true) :
    Orderly (t ++ u) :=
  ht.early_append hearly (orderly_of_calm hu) fun e he => Effect.freesInput_of_calm (hu e he)

theorem Orderly.sublist {t u : List Effect} (h : Orderly u) (htu : t.Sublist u) : Orderly t :=
  List.Pairwise.sublist htu h

/-- What `spdk_dma_free` logs is at most the free. -/
theorem St.dmaFree_sublist (s : St) (b : Buf) :
    (s.dmaFree b).Sublist [.free (.buf b)] := by
  unfold St.dmaFree
  split
  · exact List.Sublist.refl _
  · exact List.nil_sublist _

/-! ## The ends of a command -/

section Ends

variable (s : St) (io : Io) (sc : Sc)

theorem orderly_reject : Orderly [.free .ctx, .rspSct .generic, .rspSc sc, .complete] := by
  simp [Orderly, Effect.mayPrecede]

/-- The end of a command whose read was rejected. -/
theorem orderly_readRejected : Orderly (s.dmaFree .input0 ++ s.dmaFree .input1 ++
    s.dmaFree .target ++ [Effect.free .ctx, .rspSct .generic, .rspSc .internalDeviceError,
      .complete]) :=
  Orderly.sublist (by simp [Orderly, Effect.mayPrecede])
    ((((s.dmaFree_sublist .input0).append (s.dmaFree_sublist .input1)).append
      (s.dmaFree_sublist .target)).append (List.Sublist.refl _))

/-- The end of a command whose addition failed. -/
theorem orderly_addFailed : Orderly ([Effect.rspSct .generic, .rspSc .internalDeviceError] ++
    s.dmaFree .input0 ++ s.dmaFree .input1 ++ s.dmaFree .target ++
      [Effect.free .ctx, .freeIo io, .complete]) :=
  Orderly.sublist (by simp [Orderly, Effect.mayPrecede])
    (((((List.Sublist.refl _).append (s.dmaFree_sublist .input0)).append
      (s.dmaFree_sublist .input1)).append (s.dmaFree_sublist .target)).append
        (List.Sublist.refl _))

/-- The end of a command whose write failed. -/
theorem orderly_writeFailed : Orderly ([Effect.rspSct .generic, .rspSc .internalDeviceError,
    .freeIo io, .complete] ++ s.dmaFree .target ++ [Effect.free .ctx]) :=
  Orderly.sublist (by simp [Orderly, Effect.mayPrecede])
    (((List.Sublist.refl _).append (s.dmaFree_sublist .target)).append (List.Sublist.refl _))

/-- The end of a successful command. -/
theorem orderly_writeDone : Orderly ([Effect.rspSct .generic, .rspSc .success] ++
    s.dmaFree .target ++ [Effect.free .ctx, .freeIo io, .complete]) :=
  Orderly.sublist (by simp [Orderly, Effect.mayPrecede])
    (((List.Sublist.refl _).append (s.dmaFree_sublist .target)).append (List.Sublist.refl _))

/-- The end of the read phase: the inputs are freed. -/
theorem orderly_storeResult (n : ℕ) : Orderly (.writeCiphertext (s.ctx.buffer .target).isSome n ::
    (s.dmaFree .input0 ++ s.dmaFree .input1)) :=
  Orderly.sublist (by simp [Orderly, Effect.mayPrecede])
    (((s.dmaFree_sublist .input0).append (s.dmaFree_sublist .input1)).cons_cons _)

end Ends

/-! ## The phases of a command -/

/-- The reads are in flight, and counted. -/
structure Reading (s : St) : Prop where
  handler : s.handler ≠ .idle
  calm : ∀ e ∈ s.trace, e.calm = true
  fills : ∀ io ∈ s.inflight, io.cb = .fill
  pending : s.ctx.pendingFills = s.inflight.length
  pending_lt : s.inflight.length < 2 ^ 31
  targetExt : s.ctx.targetExt.length = s.ctx.targetExtentsCount.toNat
  targetExt_lt : s.ctx.targetExtentsCount.toNat < 2 ^ 31

/-- The writes are in flight; the counter also counts those that were rejected. -/
structure Writing (s : St) : Prop where
  handler : s.handler ≠ .idle
  orderly : Orderly s.trace
  early : ∀ e ∈ s.trace, e.calm = true ∨ e.freesInput = true
  writes : ∀ io ∈ s.inflight, io.cb = .write
  pending_ge : (s.inflight.length : ℤ) ≤ s.ctx.pendingFills
  pending_lt : s.ctx.pendingFills < 2 ^ 31

/-- Nothing is in flight any more. -/
structure Finished (s : St) : Prop where
  handler : s.handler ≠ .idle
  orderly : Orderly s.trace
  inflight : s.inflight = []

/-- **The invariant**: a command is in one of its phases. -/
inductive OncePhase (s : St) : Prop
  | idle (trace : s.trace = []) (inflight : s.inflight = [])
  | reading (h : Reading s)
  | writing (h : Writing s)
  | finished (h : Finished s)

/-- Every phase has an orderly log. -/
theorem OncePhase.orderly {s : St} (h : OncePhase s) : Orderly s.trace := by
  cases h with
  | idle htrace => rw [htrace]; exact List.Pairwise.nil
  | reading h => exact orderly_of_calm h.calm
  | writing h => exact h.orderly
  | finished h => exact h.orderly

/-! ## The steps that keep it -/

/-- **Steps that do no harm.**  The handler gets through its read loops with at most `2 ^ 31 - 1`
extents on either side, and no read is rejected behind an accepted one; a failed I/O is a write, and
the only I/O in flight. -/
def heaanClean (r : HeaanReq) (s : St) : Label → Prop
  | .exec _ rc => r.noData = false → (∃ p, (heaanParse r).2 = .parsed p) →
      r.cdw11.toNat + r.cdw12.toNat < 2 ^ 31 ∧ r.cdw13.toNat < 2 ^ 31 ∧
        ∀ k < r.cdw11.toNat + r.cdw12.toNat, rc k ≠ 0 → rc 0 ≠ 0
  | .deliver _ success _ => success = true ∨ ∃ io, s.inflight = [io] ∧ io.cb = .write

/-- With no read rejected behind an accepted one, a read loop accepts everything or nothing. -/
theorem submitReads_all_or_nothing {rc : ℕ → ℤ} {ios : List Io}
    (h : ∀ k < ios.length, rc k ≠ 0 → rc 0 ≠ 0) :
    submitReads rc 0 ios = ⟨ios, ios.map fun io => .submit io 0, false⟩ ∨
      (submitReads rc 0 ios).accepted = [] ∧ (submitReads rc 0 ios).rejected = true := by
  by_cases h0 : rc 0 = 0
  · refine Or.inl (submitReads_of_all fun k hk => ?_)
    rw [Nat.zero_add]
    exact not_not.mp fun hne => h k hk hne h0
  · cases ios with
    | nil => exact Or.inl rfl
    | cons io ios =>
      rw [submitReads, if_pos h0]
      exact Or.inr ⟨rfl, rfl⟩

/-- The allocations of the handler are calm. -/
theorem calm_allocated {r : HeaanReq} {al : Alloc} {s : St} (h : s.trace = []) :
    ∀ e ∈ (r.allocated al s).trace, e.calm = true := by
  intro e he
  rcases HeaanReq.mem_allocated he with he | ⟨o, rfl⟩
  · simp [h] at he
  · rfl

/-- The handler's tail: the reads are in flight, or the first one was rejected and all is over. -/
theorem oncePhase_execParsed {r : HeaanReq} {al : Alloc} {rc : ℕ → ℤ} {p : Parsed} {s : St}
    (hp : (heaanParse r).2 = .parsed p) (hcalm : ∀ e ∈ s.trace, e.calm = true)
    (hreads : r.cdw11.toNat + r.cdw12.toNat < 2 ^ 31) (hwrites : r.cdw13.toNat < 2 ^ 31)
    (hrc : ∀ k < r.cdw11.toNat + r.cdw12.toNat, rc k ≠ 0 → rc 0 ≠ 0) :
    OncePhase (execParsed r al rc p s) := by
  have hlen := Parsed.length_reads hp
  have htrace : ∀ e ∈ s.trace ++ al.buffers ++ (submitReads rc 0 p.reads).effects,
      e.calm = true := by
    intro e he
    rcases List.mem_append.mp he with he | he
    · rcases List.mem_append.mp he with he | he
      · exact hcalm e he
      · obtain ⟨o, rfl⟩ := Alloc.mem_buffers he
        rfl
    · obtain ⟨io, -, c, rfl⟩ := mem_submitReads he
      rfl
  rw [← hlen] at hrc
  rcases submitReads_all_or_nothing hrc with h | ⟨hacc, hrej⟩
  · rw [execParsed_of_accepted h]
    rw [h] at htrace
    refine .reading ⟨Handler.noConfusion, htrace, fun io hio => Parsed.cb_of_mem_reads hio, ?_, ?_,
      (length_of_parsed hp).2.2, ?_⟩
    · rw [HeaanReq.ctxParsed_pendingFills, UInt32.toNat_add, Nat.mod_eq_of_lt (by omega), hlen]
      exact asInt32_eq (by omega) (by omega)
    · rw [hlen]
      exact hreads
    · exact hwrites
  · unfold execParsed
    simp only [hrej, if_true]
    exact .finished ⟨Handler.noConfusion, (orderly_readRejected _).calm_append htrace, hacc⟩

/-- **The handler starts a phase.** -/
theorem oncePhase_exec {r : HeaanReq} {al : Alloc} {rc : ℕ → ℤ} {s : St} (htrace : s.trace = [])
    (hinflight : s.inflight = []) (hclean : heaanClean r s (.exec al rc)) :
    OncePhase (nvmfBdevCtrlrCustomHeaanCipaddCmd r al rc s) := by
  have hcalm := @calm_allocated r al s htrace
  rcases exec_cases r al rc s with h | h | ⟨sc, -, h⟩ | ⟨p, hnd, hp, h⟩
  · rw [h]
    refine .finished ⟨Handler.noConfusion, orderly_of_calm fun e he => ?_, hinflight⟩
    rw [St.crash, St.emit_trace, htrace] at he
    obtain rfl := List.mem_singleton.mp he
    rfl
  · rw [h]
    refine .finished ⟨Handler.noConfusion, Orderly.calm_append ?_ hcalm, hinflight⟩
    exact List.pairwise_singleton ..
  · rw [h]
    exact .finished ⟨Handler.noConfusion, (orderly_reject sc).calm_append hcalm, hinflight⟩
  · obtain ⟨hreads, hwrites, hrc⟩ := hclean hnd ⟨p, hp⟩
    rw [h]
    exact oncePhase_execParsed hp hcalm hreads hwrites hrc

/-- The end of the read phase: the addition failed and all is over, or the writes are in flight. -/
theorem oncePhase_fillDone {lib : HeaanLib} {rc : ℕ → ℤ} {io : Io} {s : St}
    (hhandler : s.handler ≠ .idle) (hcalm : ∀ e ∈ s.trace, e.calm = true)
    (hinflight : s.inflight = [])
    (htarget : s.ctx.targetExt.length = s.ctx.targetExtentsCount.toNat)
    (htarget_lt : s.ctx.targetExtentsCount.toNat < 2 ^ 31) :
    OncePhase (fillDone lib rc io s) := by
  have hinputs : ∀ e ∈ (readInputs s).trace, e.calm = true := by
    intro e he
    rw [readInputs, St.emit_trace] at he
    rcases List.mem_append.mp he with he | he
    · exact hcalm e he
    · simp only [List.mem_cons, List.not_mem_nil, or_false] at he
      rcases he with rfl | rfl <;> rfl
  unfold fillDone
  simp only
  split
  · exact .finished ⟨hhandler, (orderly_addFailed _ io).calm_append hinputs, hinflight⟩
  · generalize lib.writeCiphertextToMem _ = bytes
    have hlen := (@accepted_submitWrites_sublist rc 0
      (ioList .write .target 0 s.ctx.targetExt)).length_le
    rw [length_ioList, htarget] at hlen
    have hearly : ∀ e ∈ (storeResult bytes (readInputs s)).trace,
        e.calm = true ∨ e.freesInput = true := by
      intro e he
      rw [storeResult_trace] at he
      rcases List.mem_append.mp he with he | he
      · exact Or.inl (hinputs e he)
      · rcases mem_stored he with rfl | rfl | rfl
        · exact Or.inl rfl
        · exact Or.inr rfl
        · exact Or.inr rfl
    have hsubmit : ∀ e ∈ (submitWrites rc 0 (ioList .write .target 0 s.ctx.targetExt)).effects,
        e.calm = true := by
      intro e he
      obtain ⟨io, -, c, rfl⟩ := mem_submitWrites he
      rfl
    refine .writing ⟨hhandler, ?_, ?_, ?_, ?_, ?_⟩
    · exact ((orderly_storeResult _ _).calm_append hinputs).append_calm hearly hsubmit
    · intro e he
      rw [startWrites_trace] at he
      exact (List.mem_append.mp he).elim (hearly e) fun he => Or.inl (hsubmit e he)
    · intro io' hio'
      rw [startWrites_inflight, storeResult_inflight, readInputs_inflight, hinflight,
        List.nil_append] at hio'
      exact cb_of_mem_ioList ((accepted_submitWrites_sublist ..).subset hio')
    · rw [startWrites_inflight, startWrites_ctx, storeResult_pending, storeResult_inflight,
        readInputs_inflight, hinflight, List.nil_append, readInputs_ctx,
        asInt32_eq (by omega) (by omega)]
      exact Int.ofNat_le.mpr hlen
    · rw [startWrites_ctx, storeResult_pending, readInputs_ctx, asInt32_eq (by omega) (by omega)]
      omega

/-- Entering a callback is calm. -/
theorem calm_countDown {io : Io} {success : Bool} :
    ∀ e ∈ Effect.callback io success :: (if success then [] else [.rspSc .internalDeviceError]),
      e.calm = true := by
  cases success <;> simp [Effect.calm]

/-- **A read is delivered** in the read phase. -/
theorem Reading.deliver {lib : HeaanLib} {rc : ℕ → ℤ} {s : St} (h : Reading s) {k : ℕ} {io : Io}
    (hio : s.inflight[k]? = some io) :
    OncePhase (nvmfHeaanBufferFillComplete lib rc io true (s.delivered k io true)) := by
  obtain ⟨htrace, hhandler, hinflight, hpending, htargetExt, htargetCount⟩ :=
    delivered_eq s k io true
  have hk : k < s.inflight.length := (List.getElem?_eq_some_iff.mp hio).1
  have hlen : (s.inflight.eraseIdx k).length = s.inflight.length - 1 :=
    List.length_eraseIdx_of_lt hk
  have hlt := h.pending_lt
  have hcount : (countDown io true (s.delivered k io true)).ctx.pendingFills
      = ((s.inflight.eraseIdx k).length : ℤ) := by
    rw [countDown_pending_true, hpending, h.pending, asInt32_eq (by omega) (by omega), hlen]
    omega
  have hcalm : ∀ e ∈ (countDown io true (s.delivered k io true)).trace, e.calm = true := by
    intro e he
    rw [countDown_trace, htrace] at he
    exact (List.mem_append.mp he).elim (h.calm e) (calm_countDown e)
  have hctx := countDown_ctx io true (s.delivered k io true)
  rcases fillComplete_cases lib rc io true (s.delivered k io true) with
    ⟨-, heq⟩ | ⟨h0, heq⟩ | ⟨hneg, -⟩
  · rw [heq]
    refine .reading ⟨?_, hcalm, ?_, ?_, ?_, ?_, ?_⟩
    · rw [countDown_handler, hhandler]
      exact h.handler
    · rw [countDown_inflight, hinflight]
      exact fun io' hio' => h.fills io' ((List.eraseIdx_sublist ..).subset hio')
    · rw [hcount, countDown_inflight, hinflight]
    · rw [countDown_inflight, hinflight]
      omega
    · rw [hctx, htargetExt, htargetCount]
      exact h.targetExt
    · rw [hctx, htargetCount]
      exact h.targetExt_lt
  · rw [heq]
    refine oncePhase_fillDone ?_ hcalm ?_ ?_ ?_
    · rw [countDown_handler, hhandler]
      exact h.handler
    · rw [countDown_inflight, hinflight]
      exact List.length_eq_zero_iff.mp (by omega)
    · rw [hctx, htargetExt, htargetCount]
      exact h.targetExt
    · rw [hctx, htargetCount]
      exact h.targetExt_lt
  · omega

/-- **A write is delivered** in the write phase; it fails only as the last one in flight. -/
theorem Writing.deliver {s : St} (h : Writing s) {k : ℕ} {io : Io} {success : Bool}
    (hio : s.inflight[k]? = some io) (hclean : success = true ∨ s.inflight.length = 1) :
    OncePhase (nvmfHeaanCipWriteComplete io success (s.delivered k io success)) := by
  obtain ⟨htrace, hhandler, hinflight, hpending, -, -⟩ := delivered_eq s k io success
  have hk : k < s.inflight.length := (List.getElem?_eq_some_iff.mp hio).1
  have hlen : (s.inflight.eraseIdx k).length = s.inflight.length - 1 :=
    List.length_eraseIdx_of_lt hk
  have hge := h.pending_ge
  have hlt := h.pending_lt
  have hidle : (countDown io success (s.delivered k io success)).handler ≠ .idle := by
    rw [countDown_handler, hhandler]
    exact h.handler
  have hcount : success = true →
      (countDown io success (s.delivered k io success)).ctx.pendingFills
        = s.ctx.pendingFills - 1 := by
    rintro rfl
    rw [countDown_pending_true, hpending, asInt32_eq (by omega) (by omega)]
  have hlast : (countDown io success (s.delivered k io success)).ctx.pendingFills ≤ 0 →
      (countDown io success (s.delivered k io success)).inflight = [] := by
    intro h0
    rw [countDown_inflight, hinflight]
    refine List.length_eq_zero_iff.mp ?_
    rcases hclean with hs | hone
    · rw [hcount hs] at h0
      omega
    · omega
  have hearly : ∀ e ∈ (countDown io success (s.delivered k io success)).trace,
      e.calm = true ∨ e.freesInput = true := by
    intro e he
    rw [countDown_trace, htrace] at he
    exact (List.mem_append.mp he).elim (h.early e) fun he => Or.inl (calm_countDown e he)
  have horderly : Orderly (countDown io success (s.delivered k io success)).trace := by
    rw [countDown_trace, htrace]
    exact h.orderly.append_calm h.early calm_countDown
  have htarget : ∀ e ∈ (countDown io success (s.delivered k io success)).dmaFree .target,
      e.freesInput = false := by
    intro e he
    obtain rfl := St.mem_dmaFree he
    rfl
  rcases writeComplete_cases io success (s.delivered k io success) with
    ⟨hpos, heq⟩ | ⟨h0, heq⟩ | ⟨hneg, heq⟩
  · rw [heq]
    have hs : success = true := by
      cases success with
      | false => cases hpos
      | true => rfl
    refine .writing ⟨hidle, horderly, hearly, ?_, ?_, ?_⟩
    · rw [countDown_inflight, hinflight]
      exact fun io' hio' => h.writes io' ((List.eraseIdx_sublist ..).subset hio')
    · rw [countDown_inflight, hinflight, hlen, hcount hs]
      omega
    · rw [hcount hs]
      omega
  · rw [heq]
    refine .finished ⟨hidle, horderly.early_append hearly (orderly_writeDone _ io) ?_,
      hlast (Int.le_of_eq h0)⟩
    intro e he
    simp only [List.mem_append, List.mem_cons, List.not_mem_nil, or_false] at he
    rcases he with ((rfl | rfl) | he) | rfl | rfl | rfl
    all_goals first | exact htarget e he | rfl
  · rw [heq]
    refine .finished ⟨hidle, horderly.early_append hearly (orderly_writeFailed _ io) ?_,
      hlast (Int.le_of_lt hneg)⟩
    intro e he
    simp only [List.mem_append, List.mem_cons, List.not_mem_nil, or_false] at he
    rcases he with ((rfl | rfl | rfl | rfl) | he) | rfl
    all_goals first | exact htarget e he | rfl

/-- **A clean step keeps the invariant.** -/
theorem OncePhase.step {r : HeaanReq} {lib : HeaanLib} {s s' : St} {l : Label} (h : OncePhase s)
    (hclean : heaanClean r s l) (hstep : heaanStep r lib s l = some s') : OncePhase s' := by
  rcases heaanStep_cases hstep with ⟨al, rc, rfl, hidle, rfl⟩ | ⟨k, success, rc, io, rfl, hio, rfl⟩
  · cases h with
    | idle htrace hinflight => exact oncePhase_exec htrace hinflight hclean
    | reading h => exact absurd hidle h.handler
    | writing h => exact absurd hidle h.handler
    | finished h => exact absurd hidle h.handler
  · have hmem : io ∈ s.inflight := List.mem_of_getElem? hio
    cases h with
    | idle _ hinflight => simp [hinflight] at hmem
    | finished h => simp [h.inflight] at hmem
    | reading h =>
      -- a failed read is never clean
      have hs : success = true := by
        rcases hclean with hs | ⟨io', hone, hcb⟩
        · exact hs
        · have := h.fills io' (by simp [hone])
          rw [hcb] at this
          cases this
      obtain rfl := hs
      rw [runCallback, h.fills io hmem]
      exact h.deliver hio
    | writing h =>
      rw [runCallback, h.writes io hmem]
      refine h.deliver hio (hclean.imp_right ?_)
      rintro ⟨io', hone, -⟩
      rw [hone, List.length_singleton]

/-- **Along clean steps a command completes at most once and never touches a released context.** -/
theorem heaan_atMostOnce (r : HeaanReq) (lib : HeaanLib) (disk : ℕ → UInt8) {s : St}
    (h : (heaanSys r lib disk).Reach (heaanClean r) s) : AtMostOnce s.trace :=
  (h.invariant (OncePhase.idle rfl rfl) fun _ _ _ hI hP hs => hI.step hP hs).orderly.atMostOnce

/-- Several reads and writes out of order, and nothing fails: every step is clean, and the command
completes. -/
theorem heaan_atMostOnce_sample :
    ∃ s, (heaanSys .several bytewiseLib fun _ => 1).Reach (heaanClean .several) s ∧
      .complete ∈ s.trace ∧ AtMostOnce s.trace := by
  have hrun : (((heaanSys .several bytewiseLib fun _ => 1).run { disk := fun _ => 1 }
      severalRun).map fun s => decide (.complete ∈ s.trace)) = some true := by
    decide +kernel
  obtain ⟨s, hs, hcomplete⟩ := Option.map_eq_some_iff.mp hrun
  have hreach : (heaanSys .several bytewiseLib fun _ => 1).Reach (heaanClean .several) s := by
    refine Sys.Reach.of_run _ (fun l hl t => ?_) .init hs
    rcases mem_severalRun hl with rfl | ⟨k, rfl⟩
    · exact fun _ _ => ⟨by decide, by decide, fun _ _ h => absurd rfl h⟩
    · exact Or.inl rfl
  exact ⟨s, hreach, of_decide_eq_true hcomplete, heaan_atMostOnce _ _ _ hreach⟩

/-- Two of the reads in flight fail: the request is completed twice. -/
theorem heaan_completes_twice :
    ∃ s, (heaanSys .several bytewiseLib fun _ => 1).Reach (fun _ _ => True) s ∧
      ¬ AtMostOnce s.trace := by
  have hrun : (((heaanSys .several bytewiseLib fun _ => 1).run { disk := fun _ => 1 }
      [.exec Alloc.ok fun _ => 0, .deliver 0 false fun _ => 0,
        .deliver 0 false fun _ => 0]).map fun s =>
          decide (s.trace.Pairwise fun e e' => e = .complete → e' ≠ .complete)) = some false := by
    decide +kernel
  obtain ⟨s, hs, htwice⟩ := Option.map_eq_some_iff.mp hrun
  refine ⟨s, Sys.Reach.of_run _ (fun _ _ _ => trivial) .init hs, fun h => ?_⟩
  exact of_decide_eq_false htwice h.completeOnce

end NdpHeaan
