import NdpHeaan.Target.GrepCmd

/-!
# Target/GrepRetry — what a retried grep answers

The handler clears the iovecs before it knows whether its read is accepted.  An attempt that follows
a refused one therefore searches for the empty string, which occurs in every line: the host is shown
the data itself, under a success it may not have deserved.

Both kinds of run come to `grepAnswer` of a keyword, the payload's own or the empty one, so the
comparison is one of listings.
-/

open Machinery

namespace NdpHeaan

/-! ## The statement -/

/-- A run in which the submissions are refused for want of memory, once for each dispatch `es`, then
accepted; nothing else fails, and the heap holds `behind` behind the copy. -/
def retryWord (es : List IoEnv) (e : IoEnv) (behind : List UInt8) : List GrepLabel :=
  es.map (GrepLabel.attempt · true true (-ENOMEM)) ++
    [GrepLabel.attempt e true true 0, .deliver true [] behind true fun _ => true]

/-- **`n` retries are invisible**: a run with so many refusals ends with the status and the data of
one with none. -/
def RetryInvisible (d : Bdev) (r : DataReq) (disk : ℕ → UInt8) (behind : List UInt8) (n : ℕ) :
    Prop :=
  ∀ e₀ es e s₀ s, es.length = n →
    (grepSys d r disk).run (grepSys d r disk).init (retryWord [] e₀ behind) = some s₀ →
    (grepSys d r disk).run (grepSys d r disk).init (retryWord es e behind) = some s →
      CmdEffect.statuses .success s.trace = CmdEffect.statuses .success s₀.trace ∧ s.iov = s₀.iov

namespace DataReq

variable (d : Bdev) (r : DataReq) (disk : ℕ → UInt8)

/-- The handler gets to the read. -/
structure GrepReads : Prop where
  dataLen : ¬ r.grepDataLen > r.length
  iov : r.iov.length ≠ 0
  inRange : nvmfBdevCtrlrLbaInRange d.blockcnt r.cdw11.toUInt64 r.cdw12.toUInt64 = true

/-- What the read leaves in the cleared iovecs. -/
def grepData : List (List UInt8) :=
  fillIov (d.readBlocks disk r.cdw11.toUInt64 r.cdw12.toUInt64) (setIov 0 r.iov)

/-- The status and the data a keyword is answered with. -/
def grepAnswer (keyword : List UInt8) : Sc × List (List UInt8) :=
  if matchingLines keyword (r.grepData d disk) = [] then (.internalDeviceError, r.grepData d disk)
  else (.success, fillIov ((listing (matchingLines keyword (r.grepData d disk))).dropLast ++ [0])
    (setIov 0 r.iov))

end DataReq

/-- The first `n` bytes of a listing as the host is shown it: the last newline is a terminator, and
zeros follow. -/
def shown (n : ℕ) (lines : List (List UInt8)) : List UInt8 :=
  ((listing lines).dropLast ++ [0] ++ List.replicate n 0).take n

/-! ## The answer to a keyword -/

section Answer

variable {d : Bdev} {r : DataReq} {disk : ℕ → UInt8} {keyword behind : List UInt8} {s s' : GrepSt}

theorem map_length_grepData : (r.grepData d disk).map List.length = r.iov.map List.length := by
  rw [DataReq.grepData, map_length_fillIov, map_length_setIov]

theorem listing_eq_nil_iff {lines : List (List UInt8)} : listing lines = [] ↔ lines = [] := by
  cases lines with
  | nil => exact iff_of_true rfl rfl
  | cons line lines => simp [listing]

/-- The command is over, and has answered a keyword. -/
structure AnswersKeyword (d : Bdev) (r : DataReq) (disk : ℕ → UInt8) (keyword : List UInt8)
    (s : GrepSt) : Prop where
  status : CmdEffect.statuses .success s.trace = [(r.grepAnswer d disk keyword).1]
  iov : s.iov = (r.grepAnswer d disk keyword).2
  done : s.phase = .done
  /-- A result goes back to the host, in 4096 bytes. -/
  reply : matchingLines keyword (r.grepData d disk) ≠ [] →
    s.xfer = .controllerToHost ∧ s.length = 4096

/-- **Inversion of the callback, with memory for all it allocates**: it answers with the lines in
which its keyword occurs. -/
theorem completeCmdCustom_scan (success : Bool) (behind : List UInt8) (s : GrepSt) :
    ∃ u, (nvmfBdevCtrlrCompleteCmdCustom success behind true (fun _ => true) s).trace
        = s.trace ++ u ∧
      if matchingLines (grepKeyword s.keyword behind) s.iov = [] then
        CmdEffect.statuses .success u = [.internalDeviceError] ∧
        (nvmfBdevCtrlrCompleteCmdCustom success behind true (fun _ => true) s).iov = s.iov
      else
        CmdEffect.statuses .success u = [.success] ∧
        (nvmfBdevCtrlrCompleteCmdCustom success behind true (fun _ => true) s).iov
          = fillIov ((listing (matchingLines (grepKeyword s.keyword behind) s.iov)).dropLast ++ [0])
            (setIov 0 s.iov) ∧
        (nvmfBdevCtrlrCompleteCmdCustom success behind true (fun _ => true) s).xfer
          = .controllerToHost ∧
        (nvmfBdevCtrlrCompleteCmdCustom success behind true (fun _ => true) s).length = 4096 := by
  obtain ⟨hfin, hbytes⟩ := @scanLines_bytes (grepKeyword s.keyword behind) (fun _ => true)
    (fun _ => rfl) {} (grepLines s.iov)
  have hmatch : (scanLines (grepKeyword s.keyword behind) (fun _ => true) {}
      (grepLines s.iov)).buf.bytes
        = listing (matchingLines (grepKeyword s.keyword behind) s.iov) := hbytes
  unfold nvmfBdevCtrlrCompleteCmdCustom grepOutcome
  by_cases hiov : s.iov.length > 0
  · simp only [if_pos hiov, Bool.not_true, Bool.false_eq_true, if_false, hfin, if_true, hmatch]
    by_cases hnil : matchingLines (grepKeyword s.keyword behind) s.iov = []
    · have hpos : ¬ (listing (matchingLines (grepKeyword s.keyword behind) s.iov)).length > 0 := by
        rw [listing_eq_nil_iff.mpr hnil]
        exact Nat.lt_irrefl 0
      simp only [if_neg hpos, if_pos hnil]
      exact ⟨_, rfl, rfl, rfl⟩
    · have hpos : (listing (matchingLines (grepKeyword s.keyword behind) s.iov)).length > 0 :=
        List.length_pos_iff.mpr (mt listing_eq_nil_iff.mp hnil)
      simp only [if_pos hpos, if_neg hnil]
      exact ⟨_, rfl, rfl, rfl, rfl, rfl⟩
  · have hnil : s.iov = [] := List.length_eq_zero_iff.mp (Nat.eq_zero_of_not_pos hiov)
    have hnone : matchingLines (grepKeyword s.keyword behind) s.iov = [] := by
      rw [hnil]
      rfl
    simp only [if_neg hiov, if_pos hnone]
    exact ⟨_, rfl, rfl, rfl⟩

/-- **The callback answers its keyword**, once a successful read is in the cleared iovecs. -/
theorem completeCmdCustom_answer {payload : List UInt8} (hkeyword : s.keyword = payload)
    (hiov : s.iov = r.grepData d disk)
    (hquiet : ∀ t, CmdEffect.statuses .success (s.trace ++ t) = CmdEffect.statuses .success t) :
    AnswersKeyword d r disk (grepKeyword payload behind)
      (nvmfBdevCtrlrCompleteCmdCustom true behind true (fun _ => true) s) := by
  subst hkeyword
  obtain ⟨-, -, -, -, -, hdone⟩ := completeCmdCustom_log true behind true (fun _ => true) s
  obtain ⟨u, htrace, hscan⟩ := completeCmdCustom_scan true behind s
  have hset : setIov 0 (r.grepData d disk) = setIov 0 r.iov := setIov_congr 0 map_length_grepData
  rw [hiov] at hscan
  rw [← hquiet u, ← htrace] at hscan
  split_ifs at hscan with hnil
  · obtain ⟨hstatus, hsame⟩ := hscan
    refine ⟨?_, ?_, hdone, fun h => absurd hnil h⟩
    · rw [DataReq.grepAnswer, if_pos hnil]
      exact hstatus
    · rw [DataReq.grepAnswer, if_pos hnil]
      exact hsame
  · obtain ⟨hstatus, hfill, hreply⟩ := hscan
    refine ⟨?_, ?_, hdone, fun _ => hreply⟩
    · rw [DataReq.grepAnswer, if_neg hnil]
      exact hstatus
    · rw [DataReq.grepAnswer, if_neg hnil, ← hset]
      exact hfill

end Answer

/-! ## The runs -/

/-- The command waits for its next attempt: of what it was given, only the payload may be gone. -/
structure Waiting (r : DataReq) (s : GrepSt) : Prop where
  phase : s.phase = .idle ∨ s.phase = .queued
  shape : s.iov.map List.length = r.iov.map List.length
  length : s.length = r.length
  quiet : ∀ t, CmdEffect.statuses .success (s.trace ++ t) = CmdEffect.statuses .success t

section Runs

variable {d : Bdev} {r : DataReq} {disk : ℕ → UInt8} {behind : List UInt8} {s s' : GrepSt}
  {e : IoEnv} {es : List IoEnv} {rc : ℤ}

/-- An attempt that gets to the read clears the iovecs and submits. -/
theorem Waiting.dispatch (h : Waiting r s) (hgate : grepGate e = none) (hr : r.GrepReads d) :
    grepDispatch d r e true true rc s =
      if rc ≠ 0 then
        if rc = -ENOMEM then
          { s with attempts := s.attempts + 1, iov := setIov 0 r.iov }.next .queued
            [.alloc (.keyword s.attempts), .alloc (.ctx s.attempts), .submit r.grepOp rc]
        else
          { s with attempts := s.attempts + 1, iov := setIov 0 r.iov }.next .done
            [.alloc (.keyword s.attempts), .alloc (.ctx s.attempts), .submit r.grepOp rc,
              .rspSc .internalDeviceError, .complete]
      else
        { s with attempts := s.attempts + 1, iov := setIov 0 r.iov, keyword := s.iov.flatten }.next
          .reading
            [.alloc (.keyword s.attempts), .alloc (.ctx s.attempts), .submit r.grepOp rc] := by
  have hlen : s.iov.length = r.iov.length := length_eq_of_shape h.shape
  rw [grepDispatch, hgate]
  simp only [nvmfBdevCtrlrCustomGrepCmd, h.length, hlen, hr.inRange, setIov_congr 0 h.shape,
    Bool.not_true, Bool.false_eq_true, if_false]
  rw [if_neg (not_or.mpr ⟨hr.dataLen, hr.iov⟩)]

/-- …and any other ends the command. -/
theorem Waiting.dispatch_done (h : Waiting r s) (hno : ¬ (grepGate e = none ∧ r.GrepReads d)) :
    (grepDispatch d r e true true rc s).phase = .done := by
  have hreads : GrepTaken r e true s →
      nvmfBdevCtrlrLbaInRange d.blockcnt r.cdw11.toUInt64 r.cdw12.toUInt64 = true → False := by
    rintro ⟨hgate, hdata, hne, -⟩ hrange
    rw [h.length] at hdata
    rw [length_eq_of_shape h.shape] at hne
    exact hno ⟨hgate, hdata, hne, hrange⟩
  have hends := grepDispatch_ends d r e true true rc s
  generalize grepDispatch d r e true true rc s = t at hends
  cases hends with
  | gate | refused | noBuffer | outside | noCtx | rejected => rfl
  | queued ht hrange => exact (hreads ht hrange).elim
  | reads ht hrange => exact (hreads ht hrange).elim

/-- A refused attempt leaves the command waiting, with the payload gone. -/
theorem Waiting.refused (h : Waiting r s) (hgate : grepGate e = none) (hr : r.GrepReads d) :
    Waiting r (grepDispatch d r e true true (-ENOMEM) s) ∧
      (grepDispatch d r e true true (-ENOMEM) s).iov = setIov 0 r.iov := by
  rw [h.dispatch hgate hr, if_pos (by decide), if_pos rfl]
  refine ⟨⟨Or.inr rfl, map_length_setIov _ _, h.length, fun t => ?_⟩, rfl⟩
  rw [GrepSt.next_trace, List.append_assoc]
  exact h.quiet _

/-- The payload the accepted attempt finds. -/
def GrepSt.payload (s : GrepSt) (r : DataReq) (es : List IoEnv) : List UInt8 :=
  if es = [] then s.iov.flatten else (setIov 0 r.iov).flatten

/-- The step of an attempt in a word. -/
theorem Waiting.step (h : Waiting r s) :
    (grepSys d r disk).step s (.attempt e true true rc)
      = some (grepDispatch d r e true true rc s) := if_pos h.phase

/-- A word goes on behind an attempt only if that got to the read. -/
theorem Waiting.reads_of_run (h : Waiting r s) {l : GrepLabel} {ls : List GrepLabel}
    (hrun : (grepSys d r disk).run (grepDispatch d r e true true rc s) (l :: ls) = some s') :
    grepGate e = none ∧ r.GrepReads d := by
  by_contra hno
  cases (grep_run_done (h.dispatch_done hno) hrun).1

/-- **A run with any number of refusals answers the payload that was left**, if the command gets to
its read at all. -/
theorem Waiting.answer : ∀ {es : List IoEnv} {s : GrepSt}, Waiting r s →
    (grepSys d r disk).run s (retryWord es e behind) = some s' →
      r.GrepReads d ∧ AnswersKeyword d r disk (grepKeyword (s.payload r es) behind) s'
  | [], s, h, hrun => by
      obtain ⟨m, hm, hrun⟩ := Sys.run_cons_eq_some hrun
      obtain rfl := Option.some.inj (h.step.symm.trans hm)
      obtain ⟨hgate, hr⟩ := h.reads_of_run hrun
      obtain ⟨m, hm, hrun⟩ := Sys.run_cons_eq_some hrun
      rw [h.dispatch hgate hr, if_neg (not_not.mpr rfl)] at hm
      obtain rfl := Option.some.inj hm
      obtain rfl := Option.some.inj hrun
      refine ⟨hr, completeCmdCustom_answer rfl rfl fun t => ?_⟩
      change CmdEffect.statuses .success (s.trace ++ _ ++ t) = _
      rw [List.append_assoc]
      exact h.quiet _
  | e' :: es, s, h, hrun => by
      obtain ⟨m, hm, hrun⟩ := Sys.run_cons_eq_some hrun
      obtain rfl := Option.some.inj (h.step.symm.trans hm)
      obtain ⟨hgate, hr⟩ : grepGate e' = none ∧ r.GrepReads d := by
        cases es <;> exact h.reads_of_run hrun
      obtain ⟨hnext, hiov⟩ := h.refused hgate hr
      have hpayload : (grepDispatch d r e' true true (-ENOMEM) s).payload r es
          = s.payload r (e' :: es) := by
        unfold GrepSt.payload
        rw [hiov, if_neg (List.cons_ne_nil e' es), ite_self]
      exact hpayload ▸ hnext.answer hrun

/-- **Such a run exists** wherever the command gets to its read. -/
theorem Waiting.exists_run (hgate : grepGate e = none) (hr : r.GrepReads d) :
    ∀ (n : ℕ) {s : GrepSt}, Waiting r s →
      ∃ s', (grepSys d r disk).run s (retryWord (List.replicate n e) e behind) = some s'
  | 0, s, h => by
      obtain ⟨s', hs'⟩ : ∃ s', (grepSys d r disk).run (grepDispatch d r e true true 0 s)
          [.deliver true [] behind true fun _ => true] = some s' := by
        rw [h.dispatch hgate hr, if_neg (not_not.mpr rfl)]
        exact ⟨_, rfl⟩
      exact ⟨s', Option.bind_eq_some_iff.mpr ⟨_, h.step, hs'⟩⟩
  | n + 1, s, h => by
      obtain ⟨s', hs'⟩ := Waiting.exists_run hgate hr n (h.refused hgate hr).1
      exact ⟨s', Option.bind_eq_some_iff.mpr ⟨_, h.step, hs'⟩⟩

theorem waiting_init : Waiting r (grepSys d r disk).init :=
  ⟨Or.inl rfl, rfl, rfl, fun _ => rfl⟩

end Runs

/-! ## Two answers -/

section Compare

variable {d : Bdev} {r : DataReq} {disk : ℕ → UInt8} {behind : List UInt8}

/-- A cleared payload is the empty keyword, if it has a byte. -/
theorem grepKeyword_setIov (h : r.iov.flatten ≠ []) :
    grepKeyword (setIov 0 r.iov).flatten behind = [] := by
  rw [flatten_setIov]
  cases hn : r.iov.flatten.length with
  | zero => exact absurd (List.length_eq_zero_iff.mp hn) h
  | succ n => simp [grepKeyword, cString, List.replicate_succ]

/-- …which occurs in every line. -/
theorem matchingLines_nil (iov : List (List UInt8)) : matchingLines [] iov = grepLines iov :=
  List.filter_eq_self.mpr fun _ _ => decide_eq_true List.nil_infix

theorem linesFrom_ne_nil (line : List UInt8) : ∀ {bs : List UInt8}, bs ≠ [] →
    linesFrom line bs ≠ []
  | b :: bs, _ => by
      rw [linesFrom]
      split
      · exact List.cons_ne_nil _ _
      · rename_i h
        exact linesFrom_ne_nil _ (not_or.mp h).2

/-- There is a line where there is a byte. -/
theorem grepLines_eq_nil_iff {iov : List (List UInt8)} : grepLines iov = [] ↔ iov.flatten = [] := by
  rw [grepLines, List.flatMap_eq_nil_iff, List.flatten_eq_nil_iff]
  refine forall₂_congr fun v _ => ⟨fun h => ?_, fun h => by rw [h]; rfl⟩
  by_contra hv
  exact linesFrom_ne_nil [] hv h

theorem flatten_grepData_eq_nil_iff : (r.grepData d disk).flatten = [] ↔ r.iov.flatten = [] := by
  rw [← List.length_eq_zero_iff, ← List.length_eq_zero_iff, List.length_flatten,
    map_length_grepData, ← List.length_flatten]

/-- Two listings are shown the same exactly when the iovecs hold the same. -/
theorem fillIov_eq_iff {lines lines' : List (List UInt8)} :
    fillIov ((listing lines).dropLast ++ [0]) (setIov 0 r.iov)
        = fillIov ((listing lines').dropLast ++ [0]) (setIov 0 r.iov) ↔
      shown r.iov.flatten.length lines = shown r.iov.flatten.length lines' := by
  rw [List.eq_iff_flatten_eq, flatten_fillIov_setIov, flatten_fillIov_setIov, map_length_fillIov,
    map_length_fillIov, and_iff_left rfl]
  rfl

/-- **The empty keyword is answered like another** exactly when that occurs somewhere, and its lines
are shown like all lines. -/
theorem grepAnswer_nil_eq_iff (h : r.iov.flatten ≠ []) (keyword : List UInt8) :
    r.grepAnswer d disk [] = r.grepAnswer d disk keyword ↔
      matchingLines keyword (r.grepData d disk) ≠ [] ∧
        shown r.iov.flatten.length (grepLines (r.grepData d disk))
          = shown r.iov.flatten.length (matchingLines keyword (r.grepData d disk)) := by
  have hall : grepLines (r.grepData d disk) ≠ [] :=
    mt grepLines_eq_nil_iff.mp (mt flatten_grepData_eq_nil_iff.mp h)
  rw [DataReq.grepAnswer, DataReq.grepAnswer, matchingLines_nil, if_neg hall]
  by_cases hnil : matchingLines keyword (r.grepData d disk) = []
  · rw [if_pos hnil]
    exact iff_of_false (fun h => by cases congrArg Prod.fst h) fun h => h.1 hnil
  · rw [if_neg hnil, Prod.mk.injEq, fillIov_eq_iff]
    exact ⟨fun h => ⟨hnil, h.2⟩, fun h => ⟨rfl, h.2⟩⟩

/-- Without a byte of data every keyword has the same answer. -/
theorem grepAnswer_of_empty (h : r.iov.flatten = []) (keyword keyword' : List UInt8) :
    r.grepAnswer d disk keyword = r.grepAnswer d disk keyword' := by
  have hlines : grepLines (r.grepData d disk) = [] :=
    grepLines_eq_nil_iff.mpr (flatten_grepData_eq_nil_iff.mpr h)
  simp [DataReq.grepAnswer, matchingLines, hlines]

end Compare

/-! ## When a retry is invisible -/

/-- **`n` retries are invisible exactly when** there are none, or the command never gets to its
read, or has no data, or its keyword occurs in a line and the lines with it are shown like all. -/
theorem retryInvisible_iff (d : Bdev) (r : DataReq) (disk : ℕ → UInt8) (behind : List UInt8)
    (n : ℕ) :
    RetryInvisible d r disk behind n ↔
      n = 0 ∨ ¬ r.GrepReads d ∨ r.iov.flatten = [] ∨
        (matchingLines (grepKeyword r.iov.flatten behind) (r.grepData d disk) ≠ [] ∧
          shown r.iov.flatten.length (grepLines (r.grepData d disk))
            = shown r.iov.flatten.length
                (matchingLines (grepKeyword r.iov.flatten behind) (r.grepData d disk))) := by
  have hsame : ∀ {es : List IoEnv}, es = [] →
      (grepSys d r disk).init.payload r es = r.iov.flatten := fun h => if_pos h
  have hgone : ∀ {es : List IoEnv}, es ≠ [] →
      (grepSys d r disk).init.payload r es = (setIov 0 r.iov).flatten := fun h => if_neg h
  constructor
  · intro h
    by_contra hno
    simp only [not_or, not_not] at hno
    obtain ⟨hn, hr, hdata, hshown⟩ := hno
    have hgate : grepGate .reserved = none := grepGate_eq_none ⟨rfl, rfl, Or.inl rfl⟩
    obtain ⟨s₀, hs₀⟩ := @Waiting.exists_run d r disk behind .reserved hgate hr 0 _ waiting_init
    obtain ⟨s, hs⟩ := @Waiting.exists_run d r disk behind .reserved hgate hr n _ waiting_init
    obtain ⟨hstatus, hiov⟩ := h _ _ _ s₀ s List.length_replicate hs₀ hs
    obtain ⟨-, hstatus₀, hiov₀, -⟩ := waiting_init.answer hs₀
    obtain ⟨-, hstatus₁, hiov₁, -⟩ := waiting_init.answer hs
    have hne : List.replicate n IoEnv.reserved ≠ [] := fun h => hn (by simpa using h)
    rw [@hsame (List.replicate 0 .reserved) rfl] at hstatus₀ hiov₀
    rw [hgone hne, grepKeyword_setIov hdata] at hstatus₁ hiov₁
    refine hshown ((grepAnswer_nil_eq_iff hdata _).mp (Prod.ext ?_ ?_))
    · exact List.singleton_inj.mp (hstatus₁.symm.trans (hstatus.trans hstatus₀))
    · exact hiov₁.symm.trans (hiov.trans hiov₀)
  · intro hcond e₀ es e s₀ s hlen hs₀ hs
    obtain ⟨hr, hstatus₀, hiov₀, -⟩ := waiting_init.answer hs₀
    obtain ⟨-, hstatus, hiov, -⟩ := waiting_init.answer hs
    have heq : r.grepAnswer d disk (grepKeyword ((grepSys d r disk).init.payload r es) behind)
        = r.grepAnswer d disk (grepKeyword r.iov.flatten behind) := by
      by_cases hes : es = []
      · rw [hsame hes]
      · rw [hgone hes]
        rcases hcond with h | h | h | h
        · exact absurd (List.length_eq_zero_iff.mp (hlen.trans h)) hes
        · exact absurd hr h
        · exact grepAnswer_of_empty h _ _
        · by_cases hdata : r.iov.flatten = []
          · exact grepAnswer_of_empty hdata _ _
          · rw [grepKeyword_setIov hdata]
            exact (grepAnswer_nil_eq_iff hdata _).mpr h
    rw [hsame rfl] at hstatus₀ hiov₀
    rw [heq] at hstatus hiov
    exact ⟨hstatus.trans hstatus₀.symm, hiov.trans hiov₀.symm⟩

/-- A letter that is nowhere on the device: one retry turns "not found" into a listing of the
block. -/
theorem not_retryInvisible_grepSample :
    ¬ RetryInvisible .sample .grepSample (fun _ => 98) [] 1 := by
  intro h
  have hrun₀ : ((grepSys .sample .grepSample fun _ => 98).run
      { iov := [[97, 0]], length := 2, xfer := .hostToController }
      (retryWord [] .reserved [])).map (fun s => CmdEffect.statuses .success s.trace)
        = some [.internalDeviceError] := by decide +kernel
  have hrun : ((grepSys .sample .grepSample fun _ => 98).run
      { iov := [[97, 0]], length := 2, xfer := .hostToController }
      (retryWord [.reserved] .reserved [])).map (fun s => CmdEffect.statuses .success s.trace)
        = some [.success] := by decide +kernel
  obtain ⟨s₀, hs₀, hstatus₀⟩ := Option.map_eq_some_iff.mp hrun₀
  obtain ⟨s, hs, hstatus⟩ := Option.map_eq_some_iff.mp hrun
  have hsame := (h _ [.reserved] _ s₀ s rfl hs₀ hs).1
  rw [hstatus₀, hstatus] at hsame
  cases hsame

end NdpHeaan
