import NdpHeaan.Target.Echo
import NdpHeaan.Target.GrepRetry

/-!
# Target/Overrun — data operations and the buffers they are handed

The bdev layer checks a range of blocks against the device, never against the iovecs it is handed.
So each handler has to hold its number of blocks against its buffers itself.  READ, WRITE and
COMPARE do.  The fused pair looks at the second of its two requests only, and the near-data commands
do not look at all.
-/

open Machinery

namespace NdpHeaan

/-! ## The statement -/

/-- The commands whose handlers hand iovecs to a data operation. -/
inductive IoCmd
  | read (r : DataReq)
  | write (r : DataReq)
  | compare (r : DataReq)
  | compareAndWrite (cmpReq writeReq : DataReq)
  | echo (r : DataReq)
  | grep (r : DataReq)

/-- Steps of ECHO in which the bdev layer answers as it does. -/
def EchoAnswered (d : Bdev) (r : DataReq) (_ : EchoSt) : EchoLabel → Prop
  | .exec _ rc => r.echoFirstOp.Answers d rc
  | .first _ _ rc => r.echoSecondOp.Answers d rc
  | .second _ _ _ _ => True

/-- Steps of GREP in which the bdev layer answers as it does. -/
def GrepAnswered (d : Bdev) (r : DataReq) (_ : GrepSt) : GrepLabel → Prop
  | .attempt _ _ _ rc => r.grepOp.Answers d rc
  | .deliver _ _ _ _ _ => True

/-- **A command submits an operation**: in some run it is called, and accepted. -/
def IoCmd.Submits (d : Bdev) : IoCmd → DataOp → Prop
  | .read r, op => op.Answers d 0 ∧ (op, 0) ∈ (nvmfBdevCtrlrReadCmd d r 0).calls
  | .write r, op => op.Answers d 0 ∧ (op, 0) ∈ (nvmfBdevCtrlrWriteCmd d r 0).calls
  | .compare r, op => op.Answers d 0 ∧ (op, 0) ∈ (nvmfBdevCtrlrCompareCmd d r 0).calls
  | .compareAndWrite cmpReq writeReq, op => op.Answers d 0 ∧
    (op, 0) ∈ (nvmfBdevCtrlrCompareAndWriteCmd d cmpReq writeReq 0).calls
  | .echo r, op => ∃ disk s, (echoSys d r disk).Reach (EchoAnswered d r) s ∧ .submit op 0 ∈ s.trace
  | .grep r, op => ∃ disk s, (grepSys d r disk).Reach (GrepAnswered d r) s ∧ .submit op 0 ∈ s.trace

/-- **No overrun**: whatever is submitted fits the buffers it is handed. -/
def IoCmd.NoOverrun (d : Bdev) (c : IoCmd) : Prop := ∀ op, c.Submits d op → op.Fits d

/-- **The condition**, on the command alone. -/
def IoCmd.BlocksFit (d : Bdev) : IoCmd → Prop
  | .read _ | .write _ | .compare _ => True
  | .compareAndWrite cmpReq writeReq =>
    (writeReq.rwStartLba = cmpReq.rwStartLba ∧ writeReq.rwNumBlocks = cmpReq.rwNumBlocks) →
    nvmfBdevCtrlrLbaInRange d.blockcnt writeReq.rwStartLba writeReq.rwNumBlocks = true →
    writeReq.rwNumBlocks.toNat * d.blocklen.toNat ≤ writeReq.iov.flatten.length →
    writeReq.rwNumBlocks.toNat ≤ d.acwu.toNat →
      writeReq.rwNumBlocks.toNat * d.blocklen.toNat ≤ cmpReq.iov.flatten.length
  | .echo r =>
    r.cdw10.toNat + r.cdw11.toNat ≤ d.blockcnt.toNat →
      r.cdw11.toNat * d.blocklen.toNat ≤ r.iov.flatten.length ∧
      (r.cdw12.toNat + r.cdw13.toNat ≤ d.blockcnt.toNat →
        r.cdw13.toNat * d.blocklen.toNat ≤ r.iov.flatten.length)
  | .grep r => r.GrepReads d → r.cdw12.toNat * d.blocklen.toNat ≤ r.iov.flatten.length

/-! ## What the near-data commands submit -/

section Submits

variable {d : Bdev} {r : DataReq} {disk : ℕ → UInt8} {op : DataOp}

/-- A read of the request's own fits, in terms of its dword. -/
theorem readvOp_fits_iff (offset num : UInt32) :
    (r.readvOp offset.toUInt64 num.toUInt64).Fits d ↔
      num.toNat * d.blocklen.toNat ≤ r.iov.flatten.length := by
  simp [DataOp.Fits, DataReq.readvOp]

theorem readvOp_answers_iff (offset num : UInt32) :
    (r.readvOp offset.toUInt64 num.toUInt64).Answers d 0 ↔
      offset.toNat + num.toNat ≤ d.blockcnt.toNat := by
  rw [DataOp.answers_zero_iff]
  simp [DataReq.readvOp]

/-! ### ECHO -/

theorem mem_trace_customEchoCmd {ctxOk : Bool} {rc : ℤ} {s : EchoSt}
    (h : .submit op 0 ∈ (nvmfBdevCtrlrCustomEchoCmd r ctxOk rc s).trace) :
    .submit op 0 ∈ s.trace ∨ (op = r.echoFirstOp ∧ rc = 0) := by
  unfold nvmfBdevCtrlrCustomEchoCmd at h
  split_ifs at h
  all_goals
    rw [EchoSt.next_trace, List.mem_append] at h
    refine h.imp_right fun h => ?_
    simp at h
  · exact absurd h.2.symm ‹_›
  · exact ⟨h.1, h.2.symm⟩

theorem mem_trace_firstReadComplete {success firstOk : Bool} {rc : ℤ} {s : EchoSt}
    (h : .submit op 0 ∈ (nvmfBdevCtrlrFirstReadComplete d r disk success firstOk rc s).trace) :
    .submit op 0 ∈ s.trace ∨ (op = r.echoSecondOp ∧ rc = 0) := by
  unfold nvmfBdevCtrlrFirstReadComplete at h
  dsimp only at h
  split_ifs at h
  all_goals
    rw [EchoSt.next_trace, List.mem_append, EchoSt.transfer_trace] at h
    refine h.imp_right fun h => ?_
    simp at h
  · exact absurd h.2.symm ‹_›
  · exact ⟨h.1, h.2.symm⟩

theorem mem_trace_secondReadComplete {success secondOk resultOk dataOk : Bool} {s : EchoSt}
    (h : .submit op 0 ∈
      (nvmfBdevCtrlrSecondReadComplete d r disk success secondOk resultOk dataOk s).trace) :
    .submit op 0 ∈ s.trace := by
  unfold nvmfBdevCtrlrSecondReadComplete at h
  dsimp only at h
  split_ifs at h
  all_goals
    rw [EchoSt.next_trace, List.mem_append, EchoSt.transfer_trace] at h
    exact h.resolve_right (by simp)

/-- Only an accepted handler leaves the command at its first read. -/
theorem phase_customEchoCmd {ctxOk : Bool} {rc : ℤ} {s : EchoSt}
    (h : (nvmfBdevCtrlrCustomEchoCmd r ctxOk rc s).phase = .firstRead) : rc = 0 := by
  unfold nvmfBdevCtrlrCustomEchoCmd at h
  split_ifs at h with hctx hrc
  · cases h
  · cases h
  · exact not_not.mp hrc

theorem phase_firstReadComplete (success firstOk : Bool) (rc : ℤ) (s : EchoSt) :
    (nvmfBdevCtrlrFirstReadComplete d r disk success firstOk rc s).phase ≠ .firstRead := by
  unfold nvmfBdevCtrlrFirstReadComplete
  dsimp only
  split_ifs <;> exact EchoPhase.noConfusion

theorem phase_secondReadComplete (success secondOk resultOk dataOk : Bool) (s : EchoSt) :
    (nvmfBdevCtrlrSecondReadComplete d r disk success secondOk resultOk dataOk s).phase
      ≠ .firstRead := by
  unfold nvmfBdevCtrlrSecondReadComplete
  dsimp only
  split_ifs <;> exact EchoPhase.noConfusion

/-- What ECHO has submitted lies on the device, and so did the read before it. -/
structure EchoSubmitted (d : Bdev) (r : DataReq) (s : EchoSt) : Prop where
  reading : s.phase = .firstRead → r.echoFirstOp.Answers d 0
  ops : ∀ op, .submit op 0 ∈ s.trace → r.echoFirstOp.Answers d 0 ∧
    (op = r.echoFirstOp ∨ (op = r.echoSecondOp ∧ r.echoSecondOp.Answers d 0))

theorem EchoSubmitted.step {s s' : EchoSt} {l : EchoLabel} (h : EchoSubmitted d r s)
    (hans : EchoAnswered d r s l) (hstep : echoStep d r disk s l = some s') :
    EchoSubmitted d r s' := by
  cases l with
  | exec ctxOk rc =>
    rw [echoStep] at hstep
    split at hstep
    · obtain rfl := Option.some.inj hstep
      refine ⟨fun hphase => phase_customEchoCmd hphase ▸ hans, fun op hop => ?_⟩
      rcases mem_trace_customEchoCmd hop with hop | ⟨rfl, rfl⟩
      · exact h.ops op hop
      · exact ⟨hans, Or.inl rfl⟩
    · cases hstep
  | first success firstOk rc =>
    rw [echoStep] at hstep
    split at hstep
    · rename_i hphase
      obtain rfl := Option.some.inj hstep
      refine ⟨fun hp => (phase_firstReadComplete _ _ _ _ hp).elim, fun op hop => ?_⟩
      rcases mem_trace_firstReadComplete hop with hop | ⟨rfl, rfl⟩
      · exact h.ops op hop
      · exact ⟨h.reading hphase, Or.inr ⟨rfl, hans⟩⟩
    · cases hstep
  | second success secondOk resultOk dataOk =>
    rw [echoStep] at hstep
    split at hstep
    · obtain rfl := Option.some.inj hstep
      refine ⟨fun hp => (phase_secondReadComplete _ _ _ _ _ hp).elim, fun op hop => ?_⟩
      exact h.ops op (mem_trace_secondReadComplete hop)
    · cases hstep

theorem echoSubmitted_of_reach {s : EchoSt} (h : (echoSys d r disk).Reach (EchoAnswered d r) s) :
    EchoSubmitted d r s :=
  h.invariant ⟨nofun, nofun⟩ fun _ _ _ ih hans hstep => ih.step hans hstep

/-- **What ECHO submits.**  Either read is limited by the device alone. -/
theorem echo_submits_iff : (IoCmd.echo r).Submits d op ↔ r.echoFirstOp.Answers d 0 ∧
    (op = r.echoFirstOp ∨ (op = r.echoSecondOp ∧ r.echoSecondOp.Answers d 0)) := by
  constructor
  · rintro ⟨disk, s, hs, hop⟩
    exact (echoSubmitted_of_reach hs).ops op hop
  · rintro ⟨hfirst, hop⟩
    have hread : (echoSys d r fun _ => 0).Reach (EchoAnswered d r) _ :=
      .step (l := .exec true 0) .init hfirst rfl
    rcases hop with rfl | ⟨rfl, hsecond⟩
    · exact ⟨_, _, hread, by simp [nvmfBdevCtrlrCustomEchoCmd, EchoSt.next]⟩
    · refine ⟨_, _, .step (l := .first true true 0) hread hsecond rfl, ?_⟩
      simp [nvmfBdevCtrlrFirstReadComplete, EchoSt.next]

/-! ### GREP -/

theorem shape_completeCmdCustom (success : Bool) (behind : List UInt8) (resultOk : Bool)
    (reallocOk : ℕ → Bool) (s : GrepSt) :
    (nvmfBdevCtrlrCompleteCmdCustom success behind resultOk reallocOk s).iov.map List.length
      = s.iov.map List.length := by
  unfold nvmfBdevCtrlrCompleteCmdCustom
  dsimp only
  split
  · rfl
  · rfl
  · rfl
  · split
    · exact (map_length_fillIov ..).trans (map_length_setIov ..)
    · rfl

/-- What GREP has submitted passed its checks; while it waits, a retry finds the same sizes. -/
structure GrepSubmitted (d : Bdev) (r : DataReq) (s : GrepSt) : Prop where
  shape : s.iov.map List.length = r.iov.map List.length
  length : s.phase = .idle ∨ s.phase = .queued → s.length = r.length
  reading : s.phase = .reading → r.GrepReads d
  ops : ∀ op, .submit op 0 ∈ s.trace → r.GrepReads d ∧ op = r.grepOp

theorem GrepSubmitted.step {s s' : GrepSt} {l : GrepLabel} (h : GrepSubmitted d r s)
    (hstep : grepStep d r disk s l = some s') : GrepSubmitted d r s' := by
  rcases grepStep_cases hstep with ⟨e, bufferOk, ctxOk, rc, -, hphase, rfl⟩ |
    ⟨success, part, behind, resultOk, reallocOk, -, -, rfl⟩
  · obtain ⟨u, hu⟩ := grepDispatch_attempt d r e bufferOk ctxOk rc s
    have hreads : ∀ op, .submit op 0 ∈ u → r.GrepReads d ∧ op = r.grepOp := fun op hop => by
      obtain ⟨rfl, hdata, hne, hrange⟩ := hu.submitted op hop
      exact ⟨⟨h.length hphase ▸ hdata, length_eq_of_shape h.shape ▸ hne, hrange⟩, rfl⟩
    refine ⟨hu.shape.trans h.shape, fun _ => hu.length.trans (h.length hphase),
      fun hread => (hreads _ (hu.reading hread)).1, fun op hop => ?_⟩
    rw [hu.trace, List.mem_append] at hop
    exact hop.elim (h.ops op) (hreads op)
  · obtain ⟨es, sc, hes, htrace, -, hdone⟩ := completeCmdCustom_log success behind resultOk
      reallocOk (s.transfer d r disk success part)
    refine ⟨?_, fun hp => ?_, fun hp => ?_, fun op hop => ?_⟩
    · rw [shape_completeCmdCustom]
      exact (map_length_fillIov ..).trans h.shape
    · rw [hdone] at hp
      rcases hp with hp | hp <;> cases hp
    · rw [hdone] at hp
      cases hp
    · rw [htrace, List.mem_append] at hop
      refine h.ops op (hop.resolve_right fun hop => ?_)
      simp only [List.mem_append, List.mem_cons, reduceCtorEq, List.not_mem_nil, or_false,
        false_or] at hop
      rcases hes _ hop with hop | hop | hop <;> cases hop

theorem grepSubmitted_init : GrepSubmitted d r (grepSys d r disk).init :=
  ⟨rfl, fun _ => rfl, nofun, nofun⟩

theorem grepSubmitted_of_reach {P : GrepSt → GrepLabel → Prop} {s : GrepSt}
    (h : (grepSys d r disk).Reach P s) : GrepSubmitted d r s :=
  h.invariant grepSubmitted_init fun _ _ _ ih _ hstep => ih.step hstep

/-- **What GREP submits**, on whichever attempt: its own checks leave the iovecs out. -/
theorem grep_submits_iff : (IoCmd.grep r).Submits d op ↔ r.GrepReads d ∧ op = r.grepOp := by
  constructor
  · rintro ⟨disk, s, hs, hop⟩
    exact (grepSubmitted_of_reach hs).ops op hop
  · rintro ⟨hr, rfl⟩
    have hinit : Waiting r (grepSys d r fun _ => 0).init := waiting_init
    have hserves : grepGate IoEnv.reserved = none := grepGate_eq_none ⟨rfl, rfl, Or.inl rfl⟩
    have hans : r.grepOp.Answers d 0 :=
      DataOp.answers_zero_iff.mpr ⟨(lbaInRange_iff _ _ _).mp hr.inRange, nofun⟩
    refine ⟨_, _, .step (l := .attempt .reserved true true 0) .init hans hinit.step, ?_⟩
    rw [hinit.dispatch hserves hr, if_neg (not_not.mpr rfl), GrepSt.next_trace]
    simp

end Submits

/-! ## When nothing is overrun -/

/-- **A command never hands an operation more blocks than its buffers hold, exactly when its own
dwords ask for no more** — for READ, WRITE and COMPARE whatever they ask for. -/
theorem noOverrun_iff (d : Bdev) (c : IoCmd) : c.NoOverrun d ↔ c.BlocksFit d := by
  cases c with
  | read r => exact iff_of_true (fun _ h => mem_calls_rwCmd h.2) trivial
  | write r => exact iff_of_true (fun _ h => mem_calls_rwCmd h.2) trivial
  | compare r => exact iff_of_true (fun _ h => mem_calls_rwCmd h.2) trivial
  | compareAndWrite cmpReq writeReq =>
    constructor
    · intro h hsame hrange hfits hacwu
      let op : DataOp := ⟨.comparevAndWritev, writeReq.rwStartLba, writeReq.rwNumBlocks,
        [cmpReq.iov.flatten.length, writeReq.iov.flatten.length]⟩
      have hans : op.Answers d 0 := DataOp.answers_zero_iff.mpr
        ⟨(lbaInRange_iff _ _ _).mp hrange, fun _ => hacwu⟩
      exact h op ⟨hans, mem_calls_compareAndWrite.mpr ⟨hsame, hrange, hfits, rfl, rfl⟩⟩ _
        (List.mem_cons_self ..)
    · rintro h op ⟨hans, hop⟩
      obtain ⟨hsame, hrange, hfits, rfl, -⟩ := mem_calls_compareAndWrite.mp hop
      intro n hn
      rcases List.mem_pair.mp hn with rfl | rfl
      · exact h hsame hrange hfits ((DataOp.answers_zero_iff.mp hans).2 rfl)
      · exact hfits
  | echo r =>
    constructor
    · intro h hfirst
      have hfirst := (readvOp_answers_iff (r := r) _ _).mpr hfirst
      refine ⟨(readvOp_fits_iff _ _).mp (h _ (echo_submits_iff.mpr ⟨hfirst, Or.inl rfl⟩)), ?_⟩
      intro hsecond
      have hsecond := (readvOp_answers_iff (r := r) _ _).mpr hsecond
      exact (readvOp_fits_iff _ _).mp (h _ (echo_submits_iff.mpr ⟨hfirst, Or.inr ⟨rfl, hsecond⟩⟩))
    · intro h op hop
      obtain ⟨hfirst, hop⟩ := echo_submits_iff.mp hop
      obtain ⟨hfits, hfits'⟩ := h ((readvOp_answers_iff _ _).mp hfirst)
      rcases hop with rfl | ⟨rfl, hsecond⟩
      · exact (readvOp_fits_iff _ _).mpr hfits
      · exact (readvOp_fits_iff _ _).mpr (hfits' ((readvOp_answers_iff _ _).mp hsecond))
  | grep r =>
    constructor
    · exact fun h hr => (readvOp_fits_iff _ _).mp (h _ (grep_submits_iff.mpr ⟨hr, rfl⟩))
    · intro h op hop
      obtain ⟨hr, rfl⟩ := grep_submits_iff.mp hop
      exact (readvOp_fits_iff _ _).mpr (h hr)

/-- One block is read into the two bytes of a keyword. -/
theorem not_noOverrun_grepSample : ¬ (IoCmd.grep .grepSample).NoOverrun .sample := by
  intro h
  have hreads : DataReq.grepSample.GrepReads .sample := ⟨by decide, by decide, by decide⟩
  have hfits := (readvOp_fits_iff _ _).mp (h _ (grep_submits_iff.mpr ⟨hreads, rfl⟩))
  revert hfits
  decide

end NdpHeaan
