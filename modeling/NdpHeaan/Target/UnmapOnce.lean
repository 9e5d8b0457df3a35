import NdpHeaan.Target.Unmap

/-!
# Target/UnmapOnce — when Dataset Management completes its request

The request of a deallocate command is completed by the caller of the handler, where the return
value says so, or by the callback that takes the reference count to zero.  Two ways out belong to
neither:

* a range over the limit returns with `…_COMPLETE` and keeps the context — with unmaps in flight,
  the last of their callbacks completes the request once more;
* a retry with nothing in flight that is rejected returns with `…_COMPLETE` to
  `nvmf_bdev_ctrlr_unmap_resubmit`, which does not look.
-/

open Machinery

namespace NdpHeaan

/-! ## The statement -/

/-- The status a request is completed with. -/
def UnmapEffect.completed? : UnmapEffect → Option NvmeStatus
  | .complete status => some status
  | _ => none

/-- The status an unmap ends with. -/
def UnmapEffect.unmapped? : UnmapEffect → Option NvmeStatus
  | .callback status => some status
  | _ => none

def UnmapSt.completions (s : UnmapSt) : List NvmeStatus := s.trace.filterMap UnmapEffect.completed?

def UnmapSt.unmapped (s : UnmapSt) : List NvmeStatus := s.trace.filterMap UnmapEffect.unmapped?

/-- Nothing is in flight, and no retry is queued. -/
def UnmapSt.Quiet (s : UnmapSt) : Prop := s.started = true ∧ s.inflight = 0 ∧ s.waiting = false
  deriving Decidable

/-- **Exactly once**: the request is completed once, its context is freed once and not used behind
that, and a success means that every range was accepted and unmapped. -/
structure UnmapOnce (ranges : List DsmRange) (s : UnmapSt) : Prop where
  once : s.completions.length = 1
  freed : s.trace.count .free = s.trace.count .alloc ∧ s.trace.count .alloc ≤ 1
  unused : .useAfterFree ∉ s.trace
  status : .success ∈ s.completions →
    s.accepted = ranges ∧ s.unmapped = List.replicate ranges.length .success

/-- The steps of a run that completes its request: the first call comes to no range over the limit,
and a retry is in step, and not rejected where nothing is in flight. -/
def UnmapSafe (d : Bdev) (maxDiscardSizeKib : UInt64) (r : DataReq) (s : UnmapSt) :
    UnmapLabel → Prop
  | .exec _ rc => ∀ ys x, Accepts (overMaxDiscard d maxDiscardSizeKib) rc ys →
      ys ++ [x] <+: r.dsmRanges → overMaxDiscard d maxDiscardSizeKib x = false
  | .retry rc => RetryInStep r s (.retry rc) ∧ (s.inflight = 0 → rc 0 = 0 ∨ rc 0 = -ENOMEM)
  | .unmapped _ => True

/-! ## What is logged besides the attempts -/

/-- A range is submitted or found too large. -/
def UnmapEffect.isAttempt : UnmapEffect → Bool
  | .submit .. => true
  | .overLimit _ => true
  | _ => false

/-- The log, less the attempts. -/
def UnmapSt.outside (s : UnmapSt) : List UnmapEffect := s.trace.filter fun e => !e.isAttempt

section Outside

variable {s s' : UnmapSt} {tooLong : DsmRange → Bool} {rc : ℕ → ℤ} {ranges : List DsmRange}

theorem outside_of_trace {es : List UnmapEffect} (h : s'.trace = s.trace ++ es) :
    s'.outside = s.outside ++ es.filter fun e => !e.isAttempt := by
  rw [UnmapSt.outside, h, List.filter_append, UnmapSt.outside]

/-- A loop only attempts. -/
theorem LoopEnds.outside_eq {res : UnmapSt × UnmapLoopEnd} (h : LoopEnds tooLong rc s ranges res) :
    res.1.outside = s.outside := by
  cases h <;>
    simp [UnmapSt.outside, acceptAll_eq, UnmapSt.refuse, UnmapSt.queueIo, UnmapSt.reject,
      UnmapEffect.isAttempt]

theorem completions_eq : s.completions = s.outside.filterMap UnmapEffect.completed? := by
  rw [UnmapSt.completions, UnmapSt.outside, List.filterMap_filter]
  congr 1
  funext e
  cases e <;> rfl

theorem unmapped_eq : s.unmapped = s.outside.filterMap UnmapEffect.unmapped? := by
  rw [UnmapSt.unmapped, UnmapSt.outside, List.filterMap_filter]
  congr 1
  funext e
  cases e <;> rfl

theorem count_outside {e : UnmapEffect} (he : e.isAttempt = false) :
    s.outside.count e = s.trace.count e :=
  List.count_filter (by simp [he])

theorem mem_outside {e : UnmapEffect} (he : e.isAttempt = false) :
    e ∈ s.outside ↔ e ∈ s.trace := by
  simp [UnmapSt.outside, he]

end Outside

/-! ## The invariant -/

/-- **A command under way**: a callback for each accepted unmap that is not in flight any more, and
a response that has seen no failure only where there was none. -/
def UnmapSt.Ongoing (s : UnmapSt) : Prop :=
  ∃ sts : List NvmeStatus, s.outside = .alloc :: sts.map .callback ∧
    s.inflight + sts.length = s.accepted.length ∧
    (s.rsp = .success → s.refused = [] ∧ ∀ st ∈ sts, st = .success)

/-- **The log of a command that is over.** -/
inductive OverLog (ranges accepted : List DsmRange) : List UnmapEffect → Prop
  | early {rsp : NvmeStatus} (h : rsp ≠ .success) : OverLog ranges accepted [.complete rsp]
  | failed {rsp : NvmeStatus} (h : rsp ≠ .success) :
      OverLog ranges accepted [.allocFailed, .complete rsp]
  | rejected {rsp : NvmeStatus} (h : rsp ≠ .success) :
      OverLog ranges accepted [.alloc, .free, .complete rsp]
  | unmapped {rsp : NvmeStatus} {sts : List NvmeStatus}
      (h : rsp = .success → accepted = ranges ∧ sts = List.replicate ranges.length .success) :
      OverLog ranges accepted (.alloc :: sts.map .callback ++ [.complete rsp, .free])

/-- **The invariant of safe runs.** -/
structure Paced (ranges : List DsmRange) (s : UnmapSt) : Prop where
  live : s.live = true → 0 < s.count ∧ s.Ongoing
  ended : s.started = true → s.live = false → OverLog ranges s.accepted s.outside

section Paced

variable {d : Bdev} {maxDiscardSizeKib : UInt64} {r : DataReq} {rc : ℕ → ℤ} {s s' t : UnmapSt}
  {tooLong : DsmRange → Bool} {ranges xs : List DsmRange} {l : UnmapLabel}

@[simp] theorem refused_acceptAll : (s.acceptAll ranges).refused = s.refused := by
  simp [UnmapSt.refused, acceptAll_eq, UnmapEffect.refused?]

/-- What a loop accepts is in flight behind it. -/
theorem LoopEnds.accepted_eq {res : UnmapSt × UnmapLoopEnd}
    (h : LoopEnds tooLong rc s ranges res) : ∃ ys, res.1.accepted = s.accepted ++ ys ∧
      res.1.inflight = s.inflight + ys.length := by
  have hflight : ∀ ys : List DsmRange, (s.acceptAll ys).inflight = s.inflight + ys.length :=
    fun ys => by rw [acceptAll_eq]
  cases h with
  | through hys => exact ⟨_, accepted_acceptAll, hflight _⟩
  | refused hys hx hover => exact ⟨_, accepted_refuse.trans accepted_acceptAll, hflight _⟩
  | queued hys hx hover hmem => exact ⟨_, accepted_queueIo.trans accepted_acceptAll, hflight _⟩
  | rejected hys hx hover hne hmem =>
    exact ⟨_, (accepted_reject hne).trans accepted_acceptAll, hflight _⟩

/-- A loop keeps a command under way. -/
theorem UnmapSt.Ongoing.loop {e : UnmapLoopEnd} (h : s.Ongoing)
    (hends : LoopEnds tooLong rc s ranges (t, e)) : t.Ongoing := by
  obtain ⟨sts, hout, hlen, hclean⟩ := h
  refine ⟨sts, hends.outside_eq.trans hout, ?_, ?_⟩
  · obtain ⟨ys, haccepted, hinflight⟩ := hends.accepted_eq
    rw [haccepted, hinflight, List.length_append, ← hlen]
    omega
  · intro hrsp
    cases hends with
    | through hys =>
      rw [refused_acceptAll]
      exact hclean (by simpa [acceptAll_eq] using hrsp)
    | refused hys hx hover => cases hrsp
    | queued hys hx hover hmem =>
      have hsame := hclean (by simpa [acceptAll_eq, UnmapSt.queueIo] using hrsp)
      refine ⟨?_, hsame.2⟩
      rw [UnmapSt.refused, UnmapSt.queueIo, List.filterMap_append, ← UnmapSt.refused,
        refused_acceptAll, hsame.1]
      simp [UnmapEffect.refused?]
    | rejected hys hx hover hzero hmem => simp [UnmapSt.reject, NvmeStatus.success] at hrsp

theorem Paced.of_live (hlive : s.live = true) (hpos : 0 < s.count) (h : s.Ongoing) :
    Paced ranges s :=
  ⟨fun _ => ⟨hpos, h⟩, fun _ hn => absurd (hlive.symm.trans hn) (by decide)⟩

theorem Paced.of_over (hlive : s.live = false) (h : OverLog ranges s.accepted s.outside) :
    Paced ranges s :=
  ⟨fun h => absurd (hlive.symm.trans h) (by decide), fun _ _ => h⟩

/-- The first call. -/
theorem Paced.start (hidle : s.inflight = 0) (htrace : s.trace = [])
    (hsafe : UnmapSafe d maxDiscardSizeKib r s (.exec true rc)) :
    Paced r.dsmRanges
      ((unmapSubmit d maxDiscardSizeKib r rc { s with started := true }.begin).1.answer
        (unmapSubmit d maxDiscardSizeKib r rc { s with started := true }.begin).2) := by
  have hongoing : { s with started := true }.begin.Ongoing :=
    ⟨[], by simp [UnmapSt.outside, UnmapSt.begin, htrace, UnmapEffect.isAttempt],
      by simp only [UnmapSt.accepted, UnmapSt.begin, htrace, hidle]; rfl,
      fun _ => ⟨by simp [UnmapSt.refused, UnmapSt.begin, htrace, UnmapEffect.refused?], nofun⟩⟩
  obtain ⟨t, e, hends, hcases⟩ :=
    unmapSubmit_cases d maxDiscardSizeKib r rc { s with started := true }.begin
  have hlive : t.live = true := hends.live_eq
  rcases hcases with ⟨rfl, heq⟩ | ⟨rfl, heq⟩ | ⟨rfl, hzero, heq⟩ | ⟨rfl, hpos, heq⟩
  · -- the limit: not in a safe run
    cases hends with
    | refused hys hx hover => exact absurd (hover.symm.trans (hsafe _ _ hys hx)) (by decide)
  · rw [heq]
    refine .of_live hlive ?_ (hongoing.loop hends)
    cases hends with
    | queued hys hx hover hmem => exact Nat.succ_pos _
  · rw [heq]
    cases hends with
    | through hys =>
      rw [acceptAll_eq] at hzero
      simp [UnmapSt.begin, DataReq.dsmNr] at hzero
    | @rejected ys x hys hx hover hne hmem =>
      rw [acceptAll_eq] at hzero
      obtain rfl : ys = [] := by simpa [UnmapSt.reject, UnmapSt.begin] using hzero
      refine .of_over rfl ?_
      have hout : ∀ rsp : NvmeStatus, ([UnmapEffect.alloc, .submit x (rc 0), .free,
          .complete rsp].filter fun e => !e.isAttempt) = [.alloc, .free, .complete rsp] :=
        fun rsp => rfl
      simp only [UnmapSt.answer, UnmapSt.outside, UnmapSt.reject, UnmapSt.acceptAll, List.foldl_nil,
        UnmapSt.begin, htrace, List.nil_append, List.cons_append, List.length_nil, hout]
      exact .rejected (by simp [NvmeStatus.success])
  · rw [heq]
    exact .of_live hlive (Nat.pos_of_ne_zero hpos) (hongoing.loop hends)

/-- **A loop that leaves the count at zero has accepted nothing**: there was nothing to read, or the
first range was refused or rejected. -/
theorem LoopEnds.of_count_zero {e : UnmapLoopEnd} (h : LoopEnds tooLong rc s ranges (t, e))
    (hzero : t.count = 0) : s.count = 0 ∧
      (ranges = [] ∨ ∃ x, [x] <+: ranges ∧ (tooLong x = true ∨ rc 0 ≠ 0 ∧ rc 0 ≠ -ENOMEM)) := by
  have hnil : ∀ {ys : List DsmRange}, (s.acceptAll ys).count = 0 → s.count = 0 ∧ ys = [] := by
    intro ys hys
    rw [acceptAll_eq] at hys
    obtain ⟨hcount, hlength⟩ := Nat.add_eq_zero_iff.mp hys
    exact ⟨hcount, List.length_eq_zero_iff.mp hlength⟩
  cases h with
  | through hys =>
    obtain ⟨hcount, rfl⟩ := hnil hzero
    exact ⟨hcount, .inl rfl⟩
  | refused hys hx hover =>
    obtain ⟨hcount, rfl⟩ := hnil hzero
    exact ⟨hcount, .inr ⟨_, hx, .inl hover⟩⟩
  | queued hys hx hover hmem => exact absurd hzero (Nat.succ_ne_zero _)
  | rejected hys hx hover hne hmem =>
    obtain ⟨hcount, rfl⟩ := hnil hzero
    exact ⟨hcount, .inr ⟨_, hx, .inr ⟨hne, hmem⟩⟩⟩

/-- A retry: something is in flight behind it. -/
theorem Paced.retry (h : Paced r.dsmRanges s) (hcounted : Counted r s)
    (hlisted : Listed (overMaxDiscard d maxDiscardSizeKib) r.dsmRanges s) (hw : s.waiting = true)
    (hlive : s.live = true) (hsafe : UnmapSafe d maxDiscardSizeKib r s (.retry rc)) :
    Paced r.dsmRanges
      (unmapSubmit d maxDiscardSizeKib r rc { s with waiting := false }.dequeue).1 := by
  have hongoing : { s with waiting := false }.dequeue.Ongoing := (h.live hlive).2
  have hcount : s.count - 1 = s.inflight := by
    have := hcounted.live hlive
    rw [hw, Bool.toNat_true] at this
    omega
  -- what is read begins with the range the command was queued with
  obtain ⟨hindex, range, hpre, hrange⟩ := hlisted.index hw
  have hall := append_rangesIn_of_inStep (s := s) hpre hindex hsafe.1
  have hfirst : [range] <+: rangesIn (r.dsmNr - s.rangeIndex) r.iov.flatten := by
    rwa [← hall, List.prefix_append_right_inj] at hpre
  obtain ⟨t, e, hends, hcases⟩ :=
    unmapSubmit_cases d maxDiscardSizeKib r rc { s with waiting := false }.dequeue
  have hlive' : t.live = true := hends.live_eq.trans hlive
  have hpos : 0 < t.count := by
    refine Nat.pos_of_ne_zero fun hzero => ?_
    obtain ⟨hidle, hnil | ⟨x, hx, hbad⟩⟩ := hends.of_count_zero hzero
    · have hlength := hfirst.length_le
      rw [show rangesIn (r.dsmNr - s.rangeIndex) r.iov.flatten = [] from hnil] at hlength
      exact absurd hlength (Nat.not_succ_le_zero 0)
    · obtain rfl : x = range := by
        have hsame := List.prefix_of_prefix_length_le hx hfirst (Nat.le_refl 1)
        simpa using hsame
      rcases hbad with hover | ⟨hne, hmem⟩
      · exact absurd (hover.symm.trans hrange) (by decide)
      · exact (hsafe.2 (hcount.symm.trans hidle)).elim hne hmem
  rcases hcases with ⟨-, heq⟩ | ⟨-, heq⟩ | ⟨-, hzero, -⟩ | ⟨-, -, heq⟩
  · rw [heq]
    exact .of_live hlive' hpos (hongoing.loop hends)
  · rw [heq]
    exact .of_live hlive' hpos (hongoing.loop hends)
  · omega
  · rw [heq]
    exact .of_live hlive' hpos (hongoing.loop hends)

/-- A callback keeps a command under way. -/
theorem UnmapSt.Ongoing.callback {status : NvmeStatus} (h : s.Ongoing) (hpos : 0 < s.inflight)
    (hinflight : s'.inflight = s.inflight - 1)
    (hrsp : s'.rsp = if s.rsp = .success then status else s.rsp)
    (htrace : s'.trace = s.trace ++ [.callback status]) : s'.Ongoing := by
  obtain ⟨sts, hout, hlen, hclean⟩ := h
  refine ⟨sts ++ [status], ?_, ?_, fun hs => ?_⟩
  · rw [outside_of_trace htrace, hout, List.map_append]
    rfl
  · have haccepted : s'.accepted = s.accepted := by
      rw [UnmapSt.accepted, htrace, List.filterMap_append]
      exact List.append_nil _
    rw [haccepted, ← hlen, hinflight, List.length_append, List.length_singleton]
    omega
  · have hrefused : s'.refused = s.refused := by
      rw [UnmapSt.refused, htrace, List.filterMap_append]
      exact List.append_nil _
    rw [hrsp] at hs
    split_ifs at hs with hbefore
    · obtain ⟨hnone, hall⟩ := hclean hbefore
      refine ⟨hrefused.trans hnone, fun st hst => ?_⟩
      rcases List.mem_append.mp hst with hst | hst
      · exact hall st hst
      · exact (List.mem_singleton.mp hst).trans hs
    · exact absurd hs hbefore

/-- **A response that is a success**, with nothing in flight and no retry queued: all ranges were
unmapped. -/
theorem UnmapSt.Ongoing.all_unmapped (hlisted : Listed tooLong ranges s) (hs : s.started = true)
    (hw : s.waiting = false) (hidle : s.inflight = 0) {sts : List NvmeStatus}
    (hout : s.outside = .alloc :: sts.map .callback)
    (hlen : s.inflight + sts.length = s.accepted.length) (hrefused : s.refused = [])
    (hall : ∀ st ∈ sts, st = .success) :
    s.accepted = ranges ∧ sts = List.replicate ranges.length .success := by
  have haccepted : s.accepted = ranges := by
    rcases hlisted.ended hs hw with h | h | ⟨range, h, -⟩
    · exact h
    · rw [← mem_outside rfl, hout] at h
      simp at h
    · rw [hrefused] at h
      cases h
  refine ⟨haccepted, List.eq_replicate_iff.mpr ⟨?_, hall⟩⟩
  rw [← haccepted, ← hlen, hidle, Nat.zero_add]

/-- A callback: the last one completes the request. -/
theorem Paced.unmapped (h : Paced r.dsmRanges s) (hcounted : Counted r s)
    (hlisted : Listed (overMaxDiscard d maxDiscardSizeKib) r.dsmRanges s) (hpos : 0 < s.inflight)
    (hlive : s.live = true) (status : NvmeStatus) :
    Paced r.dsmRanges (nvmfBdevCtrlrUnmapCpl status { s with inflight := s.inflight - 1 }) := by
  let m : UnmapSt := { s with
    count := s.count - 1
    rsp := if s.rsp = .success then status else s.rsp
    inflight := s.inflight - 1
    trace := s.trace ++ [.callback status] }
  have hm : m.Ongoing := (h.live hlive).2.callback hpos rfl rfl rfl
  have hcpl : nvmfBdevCtrlrUnmapCpl status { s with inflight := s.inflight - 1 }
      = if m.count = 0 then { m with live := false, trace := m.trace ++ [.complete m.rsp, .free] }
        else m := rfl
  rw [hcpl]
  split_ifs with hzero
  · have hmlisted : Listed (overMaxDiscard d maxDiscardSizeKib) r.dsmRanges m :=
      hlisted.log [.callback status] rfl rfl rfl rfl rfl
    have hcount : s.count - 1 = s.inflight - 1 + s.waiting.toNat := by
      have := hcounted.live hlive
      omega
    obtain ⟨hidle, hw⟩ := idle_of_count hcount hzero
    obtain ⟨sts, hout, hlen, hclean⟩ := hm
    have haccepted : (m.trace ++ [UnmapEffect.complete m.rsp, .free]).filterMap
        UnmapEffect.accepted? = m.accepted := by
      rw [List.filterMap_append]
      exact List.append_nil _
    refine .of_over rfl ?_
    rw [outside_of_trace (s := m) rfl, hout, UnmapSt.accepted, haccepted]
    refine .unmapped fun hsuccess => ?_
    obtain ⟨hrefused, hall⟩ := hclean hsuccess
    exact UnmapSt.Ongoing.all_unmapped hmlisted (hcounted.started hlive) hw hidle hout hlen hrefused
      hall
  · exact .of_live hlive (Nat.pos_of_ne_zero hzero) hm

/-- **A safe step keeps it.** -/
theorem Paced.step (h : Paced r.dsmRanges s) (hcounted : Counted r s)
    (hlisted : r.dsmNr * 16 ≤ r.length.toNat →
      Listed (overMaxDiscard d maxDiscardSizeKib) r.dsmRanges s)
    (had : r.dsmAd = true) (hsafe : UnmapSafe d maxDiscardSizeKib r s l)
    (hs : UnmapMoves d maxDiscardSizeKib r s l s') : Paced r.dsmRanges s' := by
  cases hs with
  | @early allocOk rc rsp es hnew hes hrsp hfailed =>
    obtain ⟨hlive, htrace⟩ := hcounted.fresh hnew
    refine .of_over hlive ?_
    rcases hes with rfl | rfl
    · rw [UnmapSt.outside, htrace]
      exact .early (hrsp had)
    · rw [UnmapSt.outside, htrace]
      exact .failed (hrsp had)
  | start hnew hsized =>
    obtain ⟨hlive, htrace⟩ := hcounted.fresh hnew
    exact Paced.start (hcounted.dead hlive).1 htrace hsafe
  | retry hw hlive => exact h.retry hcounted (hlisted (hcounted.sized hlive)) hw hlive hsafe
  | unmapped hpos hlive => exact h.unmapped hcounted (hlisted (hcounted.sized hlive)) hpos hlive _

/-- The retries of a safe run are in step. -/
theorem UnmapSafe.inStep (h : UnmapSafe d maxDiscardSizeKib r s l) : RetryInStep r s l := by
  cases l with
  | exec => trivial
  | retry => exact h.1
  | unmapped => trivial

/-- **Every safe run keeps it.** -/
theorem paced_of_reach (had : r.dsmAd = true)
    (h : (unmapSys d maxDiscardSizeKib r).Reach (UnmapSafe d maxDiscardSizeKib r) s) :
    Paced r.dsmRanges s := by
  refine h.invariant_of_reach ⟨nofun, nofun⟩ fun s l s' hr hI hP hs => ?_
  have hcounted := counted_of_reach hr
  refine hI.step hcounted (fun hlen => ?_) had hP (hcounted.moves hs)
  exact hr.invariant_of_reach listed_init fun _ _ _ hr' hI' hP' hs' =>
    hI'.step (counted_of_reach hr') had hlen hP'.inStep ((counted_of_reach hr').moves hs')

/-- The callbacks of a log complete nothing and free nothing. -/
theorem filterMap_callbacks (sts : List NvmeStatus) :
    (sts.map UnmapEffect.callback).filterMap UnmapEffect.completed? = [] ∧
    (sts.map UnmapEffect.callback).filterMap UnmapEffect.unmapped? = sts ∧
    (sts.map UnmapEffect.callback).count .free = 0 ∧
    (sts.map UnmapEffect.callback).count .alloc = 0 := by
  refine ⟨?_, ?_, ?_, ?_⟩
  · simp [UnmapEffect.completed?]
  · simp [List.filterMap_map, Function.comp_def, UnmapEffect.unmapped?]
  · simp [List.count_eq_zero]
  · simp [List.count_eq_zero]

/-- A log that is over completed the request once. -/
theorem OverLog.once (h : OverLog ranges s.accepted s.outside) : UnmapOnce ranges s := by
  have hspec : (s.outside.filterMap UnmapEffect.completed?).length = 1 ∧
      (s.outside.count .free = s.outside.count .alloc ∧ s.outside.count .alloc ≤ 1) ∧
      .useAfterFree ∉ s.outside ∧
      (.success ∈ s.outside.filterMap UnmapEffect.completed? → s.accepted = ranges ∧
        s.outside.filterMap UnmapEffect.unmapped? = List.replicate ranges.length .success) := by
    generalize s.outside = out at h
    cases h with
    | early hrsp =>
      exact ⟨rfl, by simp, by simp, fun h => absurd (List.mem_singleton.mp h).symm hrsp⟩
    | failed hrsp =>
      exact ⟨rfl, by simp, by simp, fun h => absurd (List.mem_singleton.mp h).symm hrsp⟩
    | rejected hrsp =>
      exact ⟨rfl, by simp, by simp, fun h => absurd (List.mem_singleton.mp h).symm hrsp⟩
    | @unmapped rsp sts hrsp =>
      obtain ⟨hcompleted, hunmapped, hfree, halloc⟩ := filterMap_callbacks sts
      simp only [List.cons_append, List.filterMap_cons, List.filterMap_append, hcompleted,
        hunmapped, List.count_cons, List.count_append, hfree, halloc, UnmapEffect.completed?,
        UnmapEffect.unmapped?, List.filterMap_nil, List.nil_append, List.append_nil]
      refine ⟨rfl, by simp, by simp, fun h => hrsp (List.mem_singleton.mp h).symm⟩
  obtain ⟨honce, hfreed, hunused, hstatus⟩ := hspec
  rw [count_outside rfl, count_outside rfl] at hfreed
  rw [mem_outside rfl] at hunused
  exact ⟨completions_eq ▸ honce, hfreed, hunused, by rwa [completions_eq, unmapped_eq]⟩

end Paced

/-! ## When the request is completed exactly once -/

/-- **In every run of a deallocate command whose steps are safe**, the request has been completed
exactly once by the time nothing is in flight and no retry is queued. -/
theorem unmap_completes_once {d : Bdev} {maxDiscardSizeKib : UInt64} {r : DataReq} {s : UnmapSt}
    (had : r.dsmAd = true)
    (hreach : (unmapSys d maxDiscardSizeKib r).Reach (UnmapSafe d maxDiscardSizeKib r) s)
    (hquiet : s.Quiet) : UnmapOnce r.dsmRanges s := by
  obtain ⟨hstarted, hidle, hw⟩ := hquiet
  have hpaced := paced_of_reach had hreach
  refine (hpaced.ended hstarted ?_).once
  by_contra hlive
  have hcount := (counted_of_reach hreach).live (by simpa using hlive)
  have hpos := (hpaced.live (by simpa using hlive)).1
  rw [hcount, hidle, hw] at hpos
  exact absurd hpos (by decide)

/-- A range of one block and one of three, where a subsystem with a limit of 1 KiB allows two. -/
def DataReq.dsmLarge : DataReq :=
  ⟨1, 4, 0, 0, 32, [[0, 0, 0, 0, 1, 0, 0, 0, 7, 0, 0, 0, 0, 0, 0, 0],
    [0, 0, 0, 0, 3, 0, 0, 0, 9, 0, 0, 0, 0, 0, 0, 0]], rfl⟩

/-- Two ranges, the second rejected. -/
theorem unmap_completes_once_sample : ∃ s,
    (unmapSys .dsmSample 0 (.dsmPair 7 9)).run {}
      [.exec true fun j => if j = 0 then 0 else -22, .unmapped .success] = some s ∧
    s.completions = [⟨0, 6⟩] ∧ UnmapOnce (DataReq.dsmPair 7 9).dsmRanges s := by
  refine ⟨_, rfl, by decide, ?_⟩
  refine @unmap_completes_once .dsmSample 0 (.dsmPair 7 9) _ (by decide)
    (.of_run [.exec true fun j => if j = 0 then 0 else -22, .unmapped .success] ?_ .init rfl)
    (by decide)
  rintro l hl t
  obtain rfl | rfl : l = _ ∨ l = _ := by simpa using hl
  · exact fun ys x _ _ => rfl
  · trivial

/-- **A retry that is rejected with nothing in flight leaves the request open; a range over the
limit behind an accepted one completes it twice.** -/
theorem unmap_not_once :
    (∃ s, (unmapSys .dsmSample 0 (.dsmPair 7 9)).run {}
      [.exec true fun _ => -ENOMEM, .retry fun _ => -22] = some s ∧ s.Quiet ∧ s.completions = []) ∧
    ∃ s, (unmapSys .dsmSample 1 (.dsmLarge)).run {} [.exec true fun _ => 0, .unmapped .success]
      = some s ∧ s.Quiet ∧ s.completions = [⟨0, 2⟩, ⟨0, 2⟩] :=
  ⟨⟨_, rfl, by decide, by decide⟩, _, rfl, by decide, by decide⟩

end NdpHeaan
