import NdpHeaan.Tcp.Moves

/-!
# Tcp/Fused — the two halves of a fused command on a TCP qpair

A FIRST waits in `fused_first` for the command behind it.  A SECOND is linked to it, and the two are
executed together once both are ready; anything else fails it, as a SECOND that follows no FIRST
fails.  This is kept by every move of a qpair that gives a request back only once nothing links to
it (`Calm`): COMPLETED clears neither `fused_first` nor the pointer of the partner.
-/

open Machinery

namespace NdpHeaan

/-! ## Fused commands -/

/-- The command and its fuse, if it is handed to the controller. -/
def TcpEffect.exec? : TcpEffect → Option (ℕ × Fuse)
  | .exec k fuse => some (k, fuse)
  | _ => none

/-- What is handed to the controller, in this order. -/
def execs (log : List TcpEffect) : List (ℕ × Fuse) := log.filterMap TcpEffect.exec?

/-- Each FIRST is followed by the SECOND that was received after it, and no SECOND comes alone. -/
def InPairs : List (ℕ × Fuse) → Prop
  | [] => True
  | (_, .none) :: l => InPairs l
  | (k, .first) :: (k', .second) :: l => k' = k + 1 ∧ InPairs l
  | _ => False

theorem InPairs.append : ∀ {l l' : List (ℕ × Fuse)}, InPairs l → InPairs l' → InPairs (l ++ l')
  | [], _, _, h' => h'
  | (_, .none) :: l, _, h, h' => InPairs.append (l := l) h h'
  | (_, .first) :: (_, .second) :: l, _, h, h' => ⟨h.1, InPairs.append (l := l) h.2 h'⟩
  | (_, .second) :: _, _, h, _ => h.elim
  | (_, .reserved) :: _, _, h, _ => h.elim
  | [(_, .first)], _, h, _ => h.elim
  | (_, .first) :: (_, .none) :: _, _, h, _ => h.elim
  | (_, .first) :: (_, .first) :: _, _, h, _ => h.elim
  | (_, .first) :: (_, .reserved) :: _, _, h, _ => h.elim

theorem execs_append (log : List TcpEffect) (e : TcpEffect) :
    execs (log ++ [e]) = execs log ++ e.exec?.toList := by
  cases he : e.exec? <;> simp [execs, he]

/-- An error the transport has found by itself. -/
def TcpStatus.isOwnError : TcpStatus → Bool
  | .invalidOpcode | .abortedMissingFused | .transientTransportError | .abortedByRequest => true
  | .zeroed | .ctrlr _ => false

/-- `r'` is the SECOND that was received right after the FIRST `r`. -/
def TcpReq.Leads (r r' : TcpReq) : Prop :=
  r.cmd.fuse = .first ∧ r'.cmd.fuse = .second ∧ r'.arrival = r.arrival + 1

/-- **The bookkeeping of fused commands is sound.** -/
structure FusedSound (Q : QpCtx) (s : TcpQpair) : Prop where
  first : ∀ u, s.fusedFirst = some u → u ∈ s.working ∧ (s.reqs u).cmd.fuse = .first
  pairs : ∀ t ∈ Q.slots, ∀ u, (s.reqs t).fusedPair = some u →
    t ∈ s.working ∧ u ∈ s.working ∧ (s.reqs u).fusedPair = some t ∧
      ((s.reqs t).Leads (s.reqs u) ∨ (s.reqs u).Leads (s.reqs t))
  execs : InPairs (execs s.log)
  /-- A request that can have no partner is marked, and does not stay where one waits for it. -/
  alone : ∀ t ∈ s.working, (s.reqs t).Open → (s.reqs t).cmd.fuse ≠ .none →
    (s.reqs t).fusedPair = none → s.fusedFirst ≠ some t →
      (s.reqs t).fusedFailed = true ∧ (s.reqs t).state ≠ .readyToExecute
  /-- A fused request that was not executed is answered with an error of the transport. -/
  missing : ∀ k fuse status, .respond k fuse status ∈ s.log → fuse ≠ .none →
    .exec k fuse ∈ s.log ∨ status.isOwnError = true

/-! ## What a run keeps -/

/-- The requests are alike as far as fused commands go. -/
def TcpReq.SameMarks (r r' : TcpReq) : Prop :=
  r'.cmd.fuse = r.cmd.fuse ∧ r'.fusedPair = r.fusedPair ∧ r'.fusedFailed = r.fusedFailed ∧
    r'.arrival = r.arrival

/-- A FIRST that waits for the command with the number `next`. -/
structure TcpReq.Leading (next : ℕ) (r : TcpReq) : Prop where
  fuse : r.cmd.fuse = .first
  pair : r.fusedPair = none
  failed : r.fusedFailed = false
  arrival : r.arrival + 1 = next

namespace TcpReq.SameMarks

variable {r r' q q' : TcpReq} {next : ℕ}

theorem leading (h : r.SameMarks r') (hr : r.Leading next) : r'.Leading next :=
  ⟨h.1.trans hr.fuse, h.2.1.trans hr.pair, h.2.2.1.trans hr.failed, by rw [h.2.2.2, hr.arrival]⟩

theorem leads (hr : r.SameMarks r') (hq : q.SameMarks q') (h : r.Leads q) : r'.Leads q' :=
  ⟨hr.1.trans h.1, hq.1.trans h.2.1, by rw [hr.2.2.2, hq.2.2.2, h.2.2]⟩

end TcpReq.SameMarks

/-- **The links are as `nvmf_tcp_check_fused_ordering` makes them**, but for the requests `X` it has
not seen; `next` is the number of the command it is to see next. -/
structure LinkedBut (X : Set ℕ) (next : ℕ) (s : TcpQpair) : Prop where
  active : s.active = true
  nodup : (s.working ++ s.free).Nodup
  clean : ∀ t ∈ s.free, (s.reqs t).fusedPair = none ∧ (s.reqs t).fusedFailed = false
  first : ∀ u, s.fusedFirst = some u → u ∈ s.working ∧ (s.reqs u).Leading next
  pairs : ∀ t ∈ s.working, ∀ u, (s.reqs t).fusedPair = some u →
    u ∈ s.working ∧ (s.reqs u).fusedPair = some t ∧ (s.reqs t).fusedFailed = false ∧
      ((s.reqs t).Leads (s.reqs u) ∨ (s.reqs u).Leads (s.reqs t))
  failed : ∀ t ∈ s.working, (s.reqs t).fusedFailed = true →
    (s.reqs t).cmd.fuse ≠ .none ∧ (s.reqs t).fusedPair = none
  marked : ∀ t ∈ s.working, t ∉ X → (s.reqs t).Open → (s.reqs t).cmd.fuse ≠ .none →
    (s.reqs t).fusedFailed = true ∨ s.fusedFirst = some t ∨ (s.reqs t).fusedPair ≠ none
  executing : ∀ t ∈ s.working, (s.reqs t).state = .executing →
    .exec (s.reqs t).arrival (s.reqs t).cmd.fuse ∈ s.log
  execs : InPairs (execs s.log)
  missing : ∀ k fuse status, .respond k fuse status ∈ s.log → fuse ≠ .none →
    .exec k fuse ∈ s.log ∨ status.isOwnError = true

/-- The effect neither runs a request nor answers it. -/
def TcpEffect.offFused : TcpEffect → Bool
  | .exec .. | .respond .. => false
  | _ => true

namespace LinkedBut

variable {Q : QpCtx} {X : Set ℕ} {next : ℕ} {s : TcpQpair} {t u : ℕ} {f : TcpReq → TcpReq}

theorem notMem_free (h : LinkedBut X next s) (ht : t ∈ s.working) : t ∉ s.free :=
  fun hf => List.disjoint_of_nodup_append h.nodup ht hf

/-- Nobody's partner has none. -/
theorem ne_partner (h : LinkedBut X next s) (hpair : (s.reqs t).fusedPair = none) :
    ∀ v ∈ s.working, (s.reqs v).fusedPair ≠ some t := by
  intro v hv hvt
  have hback := (h.pairs v hv t hvt).2.1
  rw [hpair] at hback
  cases hback

theorem mono (h : LinkedBut X next s) (t : ℕ) : LinkedBut (insert t X) next s :=
  { h with marked := fun v hv hX => h.marked v hv fun hmem => hX (.inr hmem) }

theorem around (h : LinkedBut X next s) (recv : RecvState) (hdr : RxHdr) (cmd : TcpCmd)
    (pending : List Waiter) (pdus : List DataPdu) :
    LinkedBut X next { s with recv, hdr, cmd, pending, pdus } :=
  { h with }

/-! ### The log -/

theorem emit {e : TcpEffect} (h : LinkedBut X next s) (he : e.offFused = true) :
    LinkedBut X next (s.emit e) := by
  have hexec : e.exec? = none := by cases e <;> simp [TcpEffect.offFused] at he <;> rfl
  refine { h with
    executing := fun v hv hs => List.mem_append_left _ (h.executing v hv hs)
    execs := ?_
    missing := fun k fuse status hmem hfuse => ?_ }
  · rw [TcpQpair.log_emit, execs_append, hexec]
    simpa using h.execs
  · have hold : .respond k fuse status ∈ s.log := by
      refine (List.mem_append.mp hmem).resolve_right fun hlast => ?_
      rw [← List.mem_singleton.mp hlast] at he
      cases he
    exact (h.missing k fuse status hold hfuse).imp_left (List.mem_append_left _)

theorem emit_respond {k : ℕ} {fuse : Fuse} {status : TcpStatus} (h : LinkedBut X next s)
    (hstatus : fuse ≠ .none → .exec k fuse ∈ s.log ∨ status.isOwnError = true) :
    LinkedBut X next (s.emit (.respond k fuse status)) := by
  refine { h with
    executing := fun v hv hs => List.mem_append_left _ (h.executing v hv hs)
    execs := ?_
    missing := fun k' fuse' status' hmem hfuse => ?_ }
  · rw [TcpQpair.log_emit, execs_append]
    simpa [TcpEffect.exec?] using h.execs
  · have hany : .exec k' fuse' ∈ s.log ∨ status'.isOwnError = true := by
      rcases List.mem_append.mp hmem with hmem | hmem
      · exact h.missing k' fuse' status' hmem hfuse
      · cases List.mem_singleton.mp hmem
        exact hstatus hfuse
    exact hany.imp_left (List.mem_append_left _)

/-- Requests go to the controller. -/
theorem emit_execs {es : List TcpEffect} (h : LinkedBut X next s)
    (hpairs : InPairs (NdpHeaan.execs es)) (hes : ∀ e ∈ es, e.exec?.isSome = true) :
    LinkedBut X next { s with log := s.log ++ es } := by
  refine { h with
    executing := fun v hv hs => List.mem_append_left _ (h.executing v hv hs)
    execs := ?_
    missing := fun k fuse status hmem hfuse => ?_ }
  · have happend : NdpHeaan.execs (s.log ++ es) = NdpHeaan.execs s.log ++ NdpHeaan.execs es :=
      List.filterMap_append ..
    rw [happend]
    exact h.execs.append hpairs
  · have hold : .respond k fuse status ∈ s.log :=
      (List.mem_append.mp hmem).resolve_right fun hlast => by cases hes _ hlast
    exact (h.missing k fuse status hold hfuse).imp_left (List.mem_append_left _)

/-! ### Requests -/

/-- A request goes on, with its links as they are. -/
theorem setReq (h : LinkedBut X next s) (hmarks : (s.reqs t).SameMarks (f (s.reqs t)))
    (hopen : t ∉ X → (f (s.reqs t)).Open → (s.reqs t).Open)
    (hrun : (f (s.reqs t)).state = .executing → (s.reqs t).state = .executing ∨
      .exec (s.reqs t).arrival (s.reqs t).cmd.fuse ∈ s.log) :
    LinkedBut X next (s.setReq t f) := by
  have hsame : ∀ v, (s.reqs v).SameMarks ((s.setReq t f).reqs v) := by
    intro v
    rw [TcpQpair.reqs_setReq]
    split_ifs with hv
    · exact hv ▸ hmarks
    · exact ⟨rfl, rfl, rfl, rfl⟩
  refine { h with
    clean := fun v hv => ?_, first := fun v hv => ?_, pairs := fun v hv w hw => ?_,
    failed := fun v hv hfail => ?_, marked := fun v hv hX hr hfuse => ?_,
    executing := fun v hv hs => ?_ }
  · rw [(hsame v).2.1, (hsame v).2.2.1]
    exact h.clean v hv
  · exact ⟨(h.first v hv).1, (hsame v).leading (h.first v hv).2⟩
  · rw [(hsame v).2.1] at hw
    obtain ⟨hwork, hback, hfail, hleads⟩ := h.pairs v hv w hw
    rw [(hsame w).2.1, (hsame v).2.2.1]
    exact ⟨hwork, hback, hfail, hleads.imp ((hsame v).leads (hsame w)) ((hsame w).leads (hsame v))⟩
  · rw [(hsame v).2.2.1] at hfail
    rw [(hsame v).1, (hsame v).2.1]
    exact h.failed v hv hfail
  · rw [(hsame v).1] at hfuse
    rw [(hsame v).2.1, (hsame v).2.2.1]
    refine h.marked v hv hX ?_ hfuse
    rw [TcpQpair.reqs_setReq] at hr
    split_ifs at hr with hvt
    · subst hvt
      exact hopen hX hr
    · exact hr
  · rw [(hsame v).1, (hsame v).2.2.2]
    rw [TcpQpair.reqs_setReq] at hs
    split_ifs at hs with hvt
    · subst hvt
      exact (hrun hs).elim (h.executing v hv) id
    · exact h.executing v hv hs

/-- A request that nothing links to is marked, or no longer has to be. -/
theorem setReq_alone (h : LinkedBut (insert t X) next s) (ht : t ∈ s.working)
    (hfirst : s.fusedFirst ≠ some t) (hpair : (s.reqs t).fusedPair = none)
    (hkeep : (f (s.reqs t)).cmd.fuse = (s.reqs t).cmd.fuse ∧
      (f (s.reqs t)).arrival = (s.reqs t).arrival ∧ (f (s.reqs t)).fusedPair = none)
    (hfailed : (f (s.reqs t)).fusedFailed = true → (s.reqs t).cmd.fuse ≠ .none)
    (hmarked : (f (s.reqs t)).Open → (s.reqs t).cmd.fuse ≠ .none →
      (f (s.reqs t)).fusedFailed = true)
    (hrun : (f (s.reqs t)).state = .executing → (s.reqs t).state = .executing) :
    LinkedBut X next (s.setReq t f) := by
  obtain ⟨hfuse, harrival, hpair'⟩ := hkeep
  have hother : ∀ {v}, v ≠ t → (s.setReq t f).reqs v = s.reqs v := fun hv =>
    TcpQpair.reqs_setReq_of_ne _ _ _ hv
  refine { h with
    clean := fun v hv => ?_, first := fun v hv => ?_, pairs := fun v hv w hw => ?_,
    failed := fun v hv hfail => ?_, marked := fun v hv hX hr hv' => ?_,
    executing := fun v hv hs => ?_ }
  · rw [hother fun he => h.notMem_free ht (he ▸ hv)]
    exact h.clean v hv
  · rw [hother fun he => hfirst (he ▸ hv)]
    exact h.first v hv
  · have hvt : v ≠ t := by
      rintro rfl
      rw [TcpQpair.reqs_setReq_self, hpair'] at hw
      cases hw
    rw [hother hvt] at hw ⊢
    rw [hother fun hwt => h.ne_partner hpair v hv (hwt ▸ hw)]
    exact h.pairs v hv w hw
  · by_cases hvt : v = t
    · subst hvt
      rw [TcpQpair.reqs_setReq_self] at hfail ⊢
      exact ⟨hfuse ▸ hfailed hfail, hpair'⟩
    · rw [hother hvt] at hfail ⊢
      exact h.failed v hv hfail
  · by_cases hvt : v = t
    · subst hvt
      rw [TcpQpair.reqs_setReq_self] at hr hv' ⊢
      exact .inl (hmarked hr (hfuse ▸ hv'))
    · rw [hother hvt] at hr hv' ⊢
      exact h.marked v hv (fun hmem => hmem.elim hvt hX) hr hv'
  · by_cases hvt : v = t
    · subst hvt
      rw [TcpQpair.reqs_setReq_self] at hs ⊢
      rw [hfuse, harrival]
      exact h.executing v hv (hrun hs)
    · rw [hother hvt] at hs ⊢
      exact h.executing v hv hs

/-- `fused_first` moves on; the request it was, if any, is left to the caller. -/
theorem dropFirst (h : LinkedBut X next s) (hu : s.fusedFirst = some u) (next' : ℕ) :
    LinkedBut (insert u X) next' { s with fusedFirst := none } :=
  { h with
    first := nofun
    marked := fun v hv hX hr hfuse => by
      refine (h.marked v hv (fun hmem => hX (.inr hmem)) hr hfuse).imp_right (.imp_left ?_)
      intro hv'
      rw [hu] at hv'
      exact absurd (Option.some.inj hv').symm fun he => hX (.inl he) }

/-- A new FIRST waits. -/
theorem setFirst (h : LinkedBut (insert t X) next s) (hnone : s.fusedFirst = none)
    (ht : t ∈ s.working) {next' : ℕ} (hr : (s.reqs t).Leading next') :
    LinkedBut X next' { s with fusedFirst := some t } :=
  { h with
    first := fun v hv => by
      cases hv
      exact ⟨ht, hr⟩
    marked := fun v hv hX hopen hfuse => by
      by_cases hvt : v = t
      · exact .inr (.inl (hvt ▸ rfl))
      · refine (h.marked v hv (fun hmem => hmem.elim hvt hX) hopen hfuse).imp_right (.imp_left ?_)
        rw [hnone]
        exact nofun }

/-- Nothing has to be noted of a request that is not fused. -/
theorem leave (h : LinkedBut (insert t X) next s) (hnone : s.fusedFirst = none)
    (hfuse : (s.reqs t).cmd.fuse = .none) (next' : ℕ) : LinkedBut X next' s :=
  { h with
    first := fun v hv => by
      rw [hnone] at hv
      cases hv
    marked := fun v hv hX hopen hv' => by
      refine h.marked v hv (fun hmem => ?_) hopen hv'
      rcases hmem with rfl | hmem
      · exact hv' hfuse
      · exact hX hmem }

end LinkedBut

/-! ## Requests that wait for their partner -/

/-- **A request stays in READY_TO_EXECUTE only for its partner**: for one that may still come, or
for one that is not ready or in `Y`. -/
def SettledBut (Y : Set ℕ) (s : TcpQpair) : Prop :=
  ∀ v ∈ s.working, v ∉ Y → (s.reqs v).state = .readyToExecute →
    (s.reqs v).cmd.fuse ≠ .none ∧ (s.reqs v).fusedFailed = false ∧
      (s.fusedFirst = some v ∨ ∃ w, (s.reqs v).fusedPair = some w ∧
        (w ∈ Y ∨ (s.reqs w).state ≠ .readyToExecute))

namespace SettledBut

variable {Y : Set ℕ} {s : TcpQpair} {t : ℕ} {f : TcpReq → TcpReq}

theorem mono (h : SettledBut Y s) (t : ℕ) : SettledBut (insert t Y) s := by
  intro v hv hY hready
  obtain ⟨hfuse, hfailed, hwaits⟩ := h v hv (fun hmem => hY (.inr hmem)) hready
  exact ⟨hfuse, hfailed, hwaits.imp_right (.imp fun w hw => ⟨hw.1, hw.2.imp_left .inr⟩)⟩

/-- A request goes on, but not to READY_TO_EXECUTE, unless it is one of `Y`. -/
theorem setReq (h : SettledBut Y s) (hmarks : (s.reqs t).SameMarks (f (s.reqs t)))
    (hready : (f (s.reqs t)).state = .readyToExecute → t ∈ Y ∨ (s.reqs t).state = .readyToExecute) :
    SettledBut Y (s.setReq t f) := by
  intro v hv hY hs
  have hstate : ∀ w, w ∉ Y → ((s.setReq t f).reqs w).state = .readyToExecute →
      (s.reqs w).state = .readyToExecute := by
    intro w hw hs
    rw [TcpQpair.reqs_setReq] at hs
    split_ifs at hs with hwt
    · subst hwt
      exact (hready hs).resolve_left hw
    · exact hs
  have hsame : (s.reqs v).SameMarks ((s.setReq t f).reqs v) := by
    rw [TcpQpair.reqs_setReq]
    split_ifs with hvt
    · exact hvt ▸ hmarks
    · exact ⟨rfl, rfl, rfl, rfl⟩
  rw [hsame.1, hsame.2.1, hsame.2.2.1]
  obtain ⟨hfuse, hfailed, hwaits⟩ := h v hv hY (hstate v hY hs)
  refine ⟨hfuse, hfailed, hwaits.imp_right (.imp fun w hw => ⟨hw.1, ?_⟩)⟩
  rcases hw.2 with hw | hw
  · exact .inl hw
  · by_cases hwY : w ∈ Y
    · exact .inl hwY
    · exact .inr fun hs => hw (hstate w hwY hs)

/-- A request goes to another state. -/
theorem setReq_past (h : SettledBut Y s) (hs : (f (s.reqs t)).state ≠ .readyToExecute) :
    SettledBut Y (s.setReq t f) := by
  have hstate : ∀ {w}, ((s.setReq t f).reqs w).state = .readyToExecute →
      w ≠ t ∧ (s.reqs w).state = .readyToExecute := by
    intro w hw
    rw [TcpQpair.reqs_setReq] at hw
    split_ifs at hw with hwt
    · exact absurd hw hs
    · exact ⟨hwt, hw⟩
  intro v hv hY hready
  obtain ⟨hvt, hready⟩ := hstate hready
  obtain ⟨hfuse, hfailed, hwaits⟩ := h v hv hY hready
  rw [TcpQpair.reqs_setReq_of_ne _ _ _ hvt]
  exact ⟨hfuse, hfailed, hwaits.imp_right (.imp fun w hw =>
    ⟨hw.1, hw.2.imp_right fun hnot hw' => hnot (hstate hw').2⟩)⟩

/-- Nobody waits for `fused_first` any more but the request it was. -/
theorem setFirst {u : ℕ} (h : SettledBut Y s) (hu : ∀ v, s.fusedFirst = some v → v = u)
    (first : Option ℕ) : SettledBut (insert u Y) { s with fusedFirst := first } := by
  intro v hv hY hready
  obtain ⟨hfuse, hfailed, hwaits⟩ := h v hv (fun hmem => hY (.inr hmem)) hready
  refine ⟨hfuse, hfailed, .inr ?_⟩
  obtain ⟨w, hw, hstate⟩ := hwaits.resolve_left fun hv' => hY (.inl (hu v hv'))
  exact ⟨w, hw, hstate.imp_left .inr⟩

/-- A request that is nobody's partner does not wait. -/
theorem leave (h : SettledBut (insert t Y) s)
    (hpair : ∀ v ∈ s.working, (s.reqs v).fusedPair ≠ some t)
    (hs : (s.reqs t).state ≠ .readyToExecute) : SettledBut Y s := by
  intro v hv hY hready
  have hvt : v ≠ t := fun he => hs (he ▸ hready)
  obtain ⟨hfuse, hfailed, hwaits⟩ := h v hv (fun hmem => hmem.elim hvt hY) hready
  refine ⟨hfuse, hfailed, hwaits.imp_right (.imp fun w hw => ⟨hw.1, hw.2.imp_left fun hmem => ?_⟩)⟩
  exact hmem.resolve_left fun hwt => hpair v hv (hwt ▸ hw.1)

end SettledBut

/-- **The links are sound, and whoever waits has something to wait for.** -/
structure Fused (s : TcpQpair) : Prop where
  linked : LinkedBut ∅ s.arrivals s
  settled : SettledBut ∅ s

/-! ## Answers -/

section Answer

variable {Q : QpCtx} {X Y : Set ℕ} {next : ℕ} {s : TcpQpair} {t : ℕ} {f : TcpReq → TcpReq}

theorem LinkedBut.answer (h : LinkedBut X next s) (hmarks : (s.reqs t).SameMarks (f (s.reqs t)))
    (hstatus : (s.reqs t).cmd.fuse ≠ .none →
      .exec (s.reqs t).arrival (s.reqs t).cmd.fuse ∈ s.log ∨
        (f (s.reqs t)).status.isOwnError = true) :
    LinkedBut X next (requestTransferOut Q t (s.setReq t f)) := by
  obtain ⟨out, hout⟩ := requestTransferOut_setReq Q t s f
  rw [hout, hmarks.1, hmarks.2.2.2]
  refine emit_respond (h.setReq hmarks ?_ ?_) hstatus <;> simp [TcpReq.Open, TcpReq.TakesData]

theorem SettledBut.answer (h : SettledBut Y s) (hmarks : (s.reqs t).SameMarks (f (s.reqs t))) :
    SettledBut Y (requestTransferOut Q t (s.setReq t f)) := by
  obtain ⟨out, hout⟩ := requestTransferOut_setReq Q t s f
  rw [hout]
  exact h.setReq (f := fun r => { f r with state := .transferringC2h, pdu := some out }) hmarks
    nofun

end Answer

/-! ## READY_TO_EXECUTE -/

theorem LinkedBut.execReq {X : Set ℕ} {next : ℕ} {s : TcpQpair} {t : ℕ} (h : LinkedBut X next s)
    (hfuse : (s.reqs t).cmd.fuse = .none) : LinkedBut X next (execReq t s) := by
  have hemit : LinkedBut X next { s with
      log := s.log ++ [.exec (s.reqs t).arrival (s.reqs t).cmd.fuse] } := by
    refine h.emit_execs ?_ ?_
    · rw [hfuse]
      trivial
    · simp [TcpEffect.exec?]
  refine hemit.setReq (f := fun r => { r with state := .executing }) ⟨rfl, rfl, rfl, rfl⟩ ?_ ?_
  · simp [TcpReq.Open, TcpReq.TakesData]
  · exact fun _ => .inr (List.mem_append_right _ (List.mem_singleton_self _))

/-- The two halves of a pair go to the controller. -/
def execPair (t u : ℕ) (s : TcpQpair) : TcpQpair :=
  { (s.setReq t fun r => { r with state := .executing, fusedPair := none }).setReq u fun r =>
      { r with state := .executing, fusedPair := none } with
    log := s.log ++ [.exec (s.reqs t).arrival (s.reqs t).cmd.fuse,
      .exec (s.reqs u).arrival (s.reqs u).cmd.fuse] }

section ExecPair

variable {X : Set ℕ} {next : ℕ} {s : TcpQpair} {t u : ℕ}

theorem unpair_execReq (htu : t ≠ u) :
    unpair t u (execReq t (execReq u s)) = execPair u t s ∧
      unpair t u (execReq u (execReq t s)) = execPair t u s := by
  constructor <;>
    simp [unpair, execReq, execPair, TcpQpair.setReq, TcpQpair.emit, htu, htu.symm] <;>
    funext v <;> by_cases hvt : v = t <;> by_cases hvu : v = u <;>
    simp [hvt, hvu, htu, htu.symm]

theorem reqs_execPair (htu : t ≠ u) (v : ℕ) :
    (execPair t u s).reqs v = if v = t ∨ v = u then
      { s.reqs v with state := .executing, fusedPair := none } else s.reqs v := by
  by_cases hvu : v = u
  · subst hvu
    simp [execPair, TcpQpair.setReq, htu.symm]
  · by_cases hvt : v = t
    · subst hvt
      simp [execPair, TcpQpair.setReq, htu]
    · simp [execPair, TcpQpair.setReq, hvt, hvu]

theorem LinkedBut.execPair (h : LinkedBut X next s) (ht : t ∈ s.working)
    (hpair : (s.reqs t).fusedPair = some u) (hleads : (s.reqs t).Leads (s.reqs u)) :
    LinkedBut X next (execPair t u s) := by
  obtain ⟨hu, hback, hfail, -⟩ := h.pairs t ht u hpair
  have hfail' := (h.pairs u hu t hback).2.2.1
  have htu : t ≠ u := by
    rintro rfl
    have := hleads.2.2
    omega
  have hemit : LinkedBut X next { s with log := s.log ++ [.exec (s.reqs t).arrival
      (s.reqs t).cmd.fuse, .exec (s.reqs u).arrival (s.reqs u).cmd.fuse] } := by
    refine h.emit_execs ?_ (by simp [TcpEffect.exec?])
    rw [hleads.1, hleads.2.1, hleads.2.2]
    exact ⟨rfl, trivial⟩
  have hreqs := reqs_execPair (s := s) htu
  have hother : ∀ {v}, v ≠ t → v ≠ u → (NdpHeaan.execPair t u s).reqs v = s.reqs v := by
    intro v hvt hvu
    rw [hreqs, if_neg (not_or.mpr ⟨hvt, hvu⟩)]
  -- a link that is left joins two other requests
  have hlink : ∀ {v w}, v ∈ s.working →
      ((NdpHeaan.execPair t u s).reqs v).fusedPair = some w →
      v ≠ t ∧ v ≠ u ∧ w ≠ t ∧ w ≠ u ∧ (s.reqs v).fusedPair = some w := by
    intro v w hv hw
    rw [hreqs] at hw
    split_ifs at hw with hvtu
    obtain ⟨hvt, hvu⟩ := not_or.mp hvtu
    have hw' := (h.pairs v hv w hw).2.1
    refine ⟨hvt, hvu, ?_, ?_, hw⟩
    · rintro rfl
      exact hvu (Option.some.inj (hw'.symm.trans hpair))
    · rintro rfl
      exact hvt (Option.some.inj (hw'.symm.trans hback))
  refine { hemit with
    clean := fun v hv => ?_, first := fun v hv => ?_, pairs := fun v hv w hw => ?_,
    failed := fun v hv hf => ?_, marked := fun v hv hX hr hf => ?_, executing := fun v hv hs => ?_ }
  · rw [hother (fun he => h.notMem_free ht (he ▸ hv)) fun he => h.notMem_free hu (he ▸ hv)]
    exact h.clean v hv
  · obtain ⟨hvw, hvfirst⟩ := h.first v hv
    have hnone := hvfirst.pair
    rw [hother]
    · exact ⟨hvw, hvfirst⟩
    · rintro rfl
      rw [hpair] at hnone
      cases hnone
    · rintro rfl
      rw [hback] at hnone
      cases hnone
  · obtain ⟨hvt, hvu, hwt, hwu, hold⟩ := hlink hv hw
    rw [hother hvt hvu, hother hwt hwu]
    exact h.pairs v hv w hold
  · rw [hreqs] at hf ⊢
    split_ifs at hf ⊢ with hvtu
    · rcases hvtu with rfl | rfl
      · rw [hfail] at hf
        cases hf
      · rw [hfail'] at hf
        cases hf
    · exact h.failed v hv hf
  · rw [hreqs] at hr hf ⊢
    split_ifs at hr hf ⊢ with hvtu
    · simp [TcpReq.Open, TcpReq.TakesData] at hr
    · exact h.marked v hv hX hr hf
  · rw [hreqs] at hs ⊢
    split_ifs at hs ⊢ with hvtu
    · refine List.mem_append_right _ ?_
      rcases hvtu with rfl | rfl
      · exact List.mem_cons_self ..
      · exact List.mem_cons_of_mem _ (List.mem_singleton_self _)
    · exact List.mem_append_left _ (h.executing v hv hs)

theorem SettledBut.execPair (h : SettledBut (insert t ∅) s) (hlinked : LinkedBut X next s)
    (ht : t ∈ s.working) (hpair : (s.reqs t).fusedPair = some u) (htu : t ≠ u) {a b : ℕ}
    (hab : a = t ∧ b = u ∨ a = u ∧ b = t) : SettledBut ∅ (execPair a b s) := by
  have hne : a ≠ b := by
    rcases hab with ⟨rfl, rfl⟩ | ⟨rfl, rfl⟩
    · exact htu
    · exact htu.symm
  have hmem : ∀ v, v = a ∨ v = b ↔ v = t ∨ v = u := by
    rcases hab with ⟨rfl, rfl⟩ | ⟨rfl, rfl⟩
    · exact fun v => Iff.rfl
    · exact fun v => or_comm
  intro v hv _ hready
  rw [reqs_execPair hne] at hready ⊢
  split_ifs at hready ⊢ with hvtu
  rw [hmem] at hvtu
  obtain ⟨hvt, hvu⟩ := not_or.mp hvtu
  obtain ⟨hfuse, hfailed, hwaits⟩ := h v hv (fun he => he.elim hvt id) hready
  refine ⟨hfuse, hfailed, hwaits.imp_right (.imp fun w hw => ⟨hw.1, .inr ?_⟩)⟩
  rw [reqs_execPair hne]
  split_ifs with hwtu
  · exact nofun
  · refine hw.2.resolve_left fun he => ?_
    obtain rfl : w = t := he.elim id fun hmem => absurd hmem (Set.notMem_empty w)
    exact hvu (Option.some.inj ((hlinked.pairs v hv w hw.1).2.1.symm.trans hpair))

end ExecPair

namespace Fused

variable {Q : QpCtx} {s : TcpQpair} {t : ℕ}

/-- **READY_TO_EXECUTE**: a request runs, fails or waits, and a partner that waits runs with it. -/
theorem readyToExecute (h : LinkedBut ∅ s.arrivals s) (hs : SettledBut (insert t ∅) s)
    (ht : t ∈ s.working) (hready : (s.reqs t).state = .readyToExecute) :
    Fused (readyToExecute Q t s) := by
  unfold NdpHeaan.readyToExecute
  dsimp only
  split_ifs with hnone hfail
  · have hpair : (s.reqs t).fusedPair = none := by
      cases hpair : (s.reqs t).fusedPair with
      | none => rfl
      | some u =>
        rcases (h.pairs t ht u hpair).2.2.2 with hleads | hleads
        · cases hnone.symm.trans hleads.1
        · cases hnone.symm.trans hleads.2.1
    have hrun : SettledBut (insert t ∅) (execReq t s) :=
      hs.setReq (f := fun r => { r with state := .executing }) ⟨rfl, rfl, rfl, rfl⟩ nofun
    have hlinked := h.execReq hnone
    refine ⟨hlinked, hrun.leave (hlinked.ne_partner ?_) ?_⟩ <;> simp [execReq, hpair]
  · have hpair := (h.failed t ht hfail).2
    have hlinked : LinkedBut ∅ s.arrivals (requestTransferOut Q t (s.setReq t fun r =>
        { r with status := .abortedMissingFused })) :=
      h.answer ⟨rfl, rfl, rfl, rfl⟩ fun _ => .inr rfl
    have hsettled : SettledBut (insert t ∅) (requestTransferOut Q t (s.setReq t fun r =>
        { r with status := .abortedMissingFused })) := hs.answer ⟨rfl, rfl, rfl, rfl⟩
    refine ⟨hlinked, hsettled.leave (hlinked.ne_partner ?_) ?_⟩ <;>
      simp [requestTransferOut, hpair]
  · rw [Bool.not_eq_true] at hfail
    split
    · rename_i hpair
      have hfirst : s.fusedFirst = some t := by
        have hmarked := h.marked t ht (Set.notMem_empty t) (.inr (.inr (.inr hready))) hnone
        rw [hfail, hpair] at hmarked
        simpa using hmarked
      refine ⟨h, fun v hv _ hvready => ?_⟩
      by_cases hvt : v = t
      · subst hvt
        exact ⟨hnone, hfail, .inl hfirst⟩
      · obtain ⟨hfuse, hfailed, hwaits⟩ := hs v hv (fun he => he.elim hvt id) hvready
        refine ⟨hfuse, hfailed, hwaits.imp_right (.imp fun w hw => ⟨hw.1, .inr ?_⟩)⟩
        refine hw.2.resolve_left fun he => h.ne_partner hpair v hv ?_
        rw [hw.1, he.elim id fun hmem => absurd hmem (Set.notMem_empty w)]
    · rename_i u hpair
      obtain ⟨hu, hback, -, hleads⟩ := h.pairs t ht u hpair
      split_ifs with hwait
      · refine ⟨h, fun v hv _ hvready => ?_⟩
        by_cases hvt : v = t
        · subst hvt
          exact ⟨hnone, hfail, .inr ⟨u, hpair, .inr hwait⟩⟩
        · obtain ⟨hfuse, hfailed, hwaits⟩ := hs v hv (fun he => he.elim hvt id) hvready
          refine ⟨hfuse, hfailed, hwaits.imp_right (.imp fun w hw => ⟨hw.1, .inr ?_⟩)⟩
          refine hw.2.resolve_left fun he => hwait ?_
          obtain rfl : w = t := he.elim id fun hmem => absurd hmem (Set.notMem_empty w)
          have hvu := Option.some.inj ((h.pairs v hv w hw.1).2.1.symm.trans hpair)
          exact hvu ▸ hvready
      · have htu : t ≠ u := by
          rintro rfl
          rcases hleads with hleads | hleads <;> have := hleads.2.2 <;> omega
        rcases hleads with hleads | hleads
        · rw [hleads.1, (unpair_execReq htu).2]
          exact ⟨h.execPair ht hpair hleads, hs.execPair h ht hpair htu (.inl ⟨rfl, rfl⟩)⟩
        · rw [hleads.2.1, (unpair_execReq htu).1]
          exact ⟨h.execPair hu hback hleads, hs.execPair h ht hpair htu (.inr ⟨rfl, rfl⟩)⟩

end Fused

/-! ## A command arrives -/

section Arrive

variable {Q : QpCtx} {X : Set ℕ} {next : ℕ} {s : TcpQpair} {t u : ℕ}

/-- The SECOND `t` is linked to the FIRST that waits. -/
def linkPair (t u : ℕ) (s : TcpQpair) : TcpQpair :=
  { (s.setReq u fun r => { r with fusedPair := some t }).setReq t fun r =>
      { r with fusedPair := some u } with fusedFirst := none }

theorem reqs_linkPair (htu : t ≠ u) (v : ℕ) :
    (linkPair t u s).reqs v = { s.reqs v with
      fusedPair := if v = t then some u else if v = u then some t else (s.reqs v).fusedPair } := by
  by_cases hvt : v = t
  · subst hvt
    simp [linkPair, TcpQpair.setReq, htu]
  · by_cases hvu : v = u
    · subst hvu
      simp [linkPair, TcpQpair.setReq, hvt]
    · simp [linkPair, TcpQpair.setReq, hvt, hvu]

theorem LinkedBut.linkPair (h : LinkedBut (insert t X) next s) (hu : s.fusedFirst = some u)
    (ht : t ∈ s.working) (htu : t ≠ u) (hpair : (s.reqs t).fusedPair = none)
    (hfailed : (s.reqs t).fusedFailed = false) (hfuse : (s.reqs t).cmd.fuse = .second)
    (harrival : (s.reqs t).arrival = next) (next' : ℕ) :
    LinkedBut X next' (linkPair t u s) := by
  obtain ⟨huw, hlead⟩ := h.first u hu
  have hreqs := reqs_linkPair (s := s) htu
  have hleads : (s.reqs u).Leads (s.reqs t) :=
    ⟨hlead.fuse, hfuse, harrival.trans hlead.arrival.symm⟩
  have hpairs : ∀ v, ((NdpHeaan.linkPair t u s).reqs v).fusedPair =
      if v = t then some u else if v = u then some t else (s.reqs v).fusedPair := fun v => by
    rw [hreqs]
  refine { h with
    clean := fun v hv => ?_, first := nofun, pairs := fun v hv w hw => ?_,
    failed := fun v hv hf => ?_, marked := fun v hv hX hr hf => ?_, executing := fun v hv hs => ?_ }
  · have hvt : v ≠ t := fun he => h.notMem_free ht (he ▸ hv)
    have hvu : v ≠ u := fun he => h.notMem_free huw (he ▸ hv)
    rw [hreqs, if_neg hvt, if_neg hvu]
    exact h.clean v hv
  · rw [hpairs] at hw ⊢
    rw [hreqs v, hreqs w]
    split_ifs at hw with hvt hvu
    · cases hw
      subst hvt
      rw [if_neg htu.symm, if_pos rfl]
      exact ⟨huw, rfl, hfailed, .inr hleads⟩
    · cases hw
      subst hvu
      rw [if_pos rfl]
      exact ⟨ht, rfl, hlead.failed, .inl hleads⟩
    · have hwt : w ≠ t := fun he => h.ne_partner hpair v hv (he ▸ hw)
      have hwu : w ≠ u := fun he => h.ne_partner hlead.pair v hv (he ▸ hw)
      rw [if_neg hwt, if_neg hwu]
      exact h.pairs v hv w hw
  · rw [hreqs] at hf ⊢
    have hvt : v ≠ t := by
      rintro rfl
      cases hfailed.symm.trans hf
    have hvu : v ≠ u := by
      rintro rfl
      cases hlead.failed.symm.trans hf
    rw [if_neg hvt, if_neg hvu]
    exact h.failed v hv hf
  · rw [hpairs]
    rw [hreqs] at hr hf ⊢
    split_ifs with hvt hvu
    · exact .inr (.inr nofun)
    · exact .inr (.inr nofun)
    · refine (h.marked v hv (fun hmem => hmem.elim hvt hX) hr hf).imp_right fun hmark => .inr ?_
      exact hmark.resolve_left fun hv' => hvu (Option.some.inj (hv'.symm.trans hu))
  · rw [hreqs] at hs ⊢
    exact h.executing v hv hs

theorem SettledBut.linkPair (h : SettledBut ∅ s) (hu : s.fusedFirst = some u) (htu : t ≠ u)
    (hs : (s.reqs t).state ≠ .readyToExecute) : SettledBut ∅ (linkPair t u s) := by
  have hreqs := reqs_linkPair (s := s) htu
  intro v hv _ hready
  have hstate : ∀ w, ((NdpHeaan.linkPair t u s).reqs w).state = (s.reqs w).state := fun w => by
    rw [hreqs]
  rw [hstate] at hready
  have hvt : v ≠ t := fun he => hs (he ▸ hready)
  obtain ⟨hfuse, hfailed, hwaits⟩ := h v hv (Set.notMem_empty v) hready
  rw [hreqs, if_neg hvt]
  refine ⟨hfuse, hfailed, .inr ?_⟩
  by_cases hvu : v = u
  · exact ⟨t, if_pos hvu, .inr (by rwa [hstate])⟩
  · obtain ⟨w, hw, hnot⟩ := hwaits.resolve_left fun hv' =>
      hvu (Option.some.inj (hv'.symm.trans hu))
    exact ⟨w, (if_neg hvu).trans hw, hnot.imp_right fun hnot => by rwa [hstate]⟩

/-- The FIRST that waited fails, and is answered if it was ready. -/
theorem failFirst_fused (h : LinkedBut X next s) (hs : SettledBut ∅ s) (hu : s.fusedFirst = some u)
    (next' : ℕ) : LinkedBut X next' (failFirst Q u s) ∧ SettledBut ∅ (failFirst Q u s) := by
  obtain ⟨huw, hlead⟩ := h.first u hu
  have hmark : LinkedBut X next' ({ s with fusedFirst := none }.setReq u fun r =>
      { r with fusedFailed := true }) := by
    refine (h.dropFirst hu next').setReq_alone huw nofun hlead.pair ⟨rfl, rfl, hlead.pair⟩
      (fun _ => ?_) (fun _ _ => rfl) id
    rw [hlead.fuse]
    exact nofun
  have hothers : SettledBut (insert u ∅) { s with fusedFirst := none } :=
    hs.setFirst (fun v hv => Option.some.inj (hv.symm.trans hu)) none
  rw [failFirst_eq h.active hlead.fuse]
  split_ifs with hready
  · have hlinked : LinkedBut X next' (requestTransferOut Q u
        (({ s with fusedFirst := none }.setReq u
        fun r => { r with fusedFailed := true }).setReq u
          fun r => { r with status := .abortedMissingFused })) :=
      hmark.answer ⟨rfl, rfl, rfl, rfl⟩ fun _ => .inr rfl
    have hsettled : SettledBut (insert u ∅) (requestTransferOut Q u
        ({ s with fusedFirst := none }.setReq u fun r =>
          { r with fusedFailed := true, status := .abortedMissingFused })) := by
      obtain ⟨out, hout⟩ := requestTransferOut_setReq Q u { s with fusedFirst := none } fun r =>
        { r with fusedFailed := true, status := .abortedMissingFused }
      rw [hout]
      exact hothers.setReq_past (f := fun r => { r with
        fusedFailed := true, status := .abortedMissingFused, state := .transferringC2h,
        pdu := some out }) nofun
    rw [TcpQpair.setReq_setReq] at hlinked
    refine ⟨hlinked, hsettled.leave (hlinked.ne_partner ?_) ?_⟩ <;>
      simp [requestTransferOut, hlead.pair]
  · have hsettled : SettledBut (insert u ∅) ({ s with fusedFirst := none }.setReq u fun r =>
        { r with fusedFailed := true }) := hothers.setReq_past hready
    refine ⟨hmark, hsettled.leave (hmark.ne_partner ?_) ?_⟩
    · simpa using hlead.pair
    · simpa using hready

theorem failFirst_frame (hactive : s.active = true) (hfuse : (s.reqs u).cmd.fuse = .first)
    (htu : t ≠ u) : (failFirst Q u s).reqs t = s.reqs t ∧ (failFirst Q u s).working = s.working ∧
      (failFirst Q u s).arrivals = s.arrivals ∧ (failFirst Q u s).fusedFirst = none := by
  rw [failFirst_eq hactive hfuse]
  split_ifs
  · exact ⟨by simp [requestTransferOut, htu], rfl, rfl, rfl⟩
  · exact ⟨by simp [htu], rfl, rfl, rfl⟩

/-- What is noted of a command that completes no pair. -/
theorem noteFused_fused (h : LinkedBut (insert t ∅) next s) (hs : SettledBut ∅ s)
    (hnone : s.fusedFirst = none) (ht : t ∈ s.working) (hpair : (s.reqs t).fusedPair = none)
    (hfailed : (s.reqs t).fusedFailed = false) (harrival : (s.reqs t).arrival + 1 = s.arrivals)
    (hfuse : (s.reqs t).cmd.fuse ≠ .reserved) (hstate : (s.reqs t).state ≠ .readyToExecute) :
    Fused (noteFused t s) := by
  have hothers : ∀ first, SettledBut (insert t ∅) { s with fusedFirst := first } :=
    hs.setFirst fun v hv => by rw [hnone] at hv; cases hv
  unfold noteFused
  split
  · rename_i hfirst
    have hlinked := h.setFirst hnone ht ⟨hfirst, hpair, hfailed, harrival⟩
    exact ⟨hlinked, (hothers (some t)).leave (hlinked.ne_partner hpair) hstate⟩
  · rename_i hsecond
    have hfused : (s.reqs t).cmd.fuse ≠ .none := by
      rw [hsecond]
      exact nofun
    have hleft : LinkedBut (insert t ∅) s.arrivals s :=
      { h with first := fun v hv => by rw [hnone] at hv; cases hv }
    refine ⟨hleft.setReq_alone ht (by simp [hnone]) hpair ⟨rfl, rfl, hpair⟩ (fun _ => hfused)
      (fun _ _ => rfl) id, hs.setReq_past hstate⟩
  · rename_i hfirst hsecond
    refine ⟨h.leave hnone ?_ s.arrivals, hs⟩
    generalize (s.reqs t).cmd.fuse = fuse at hfirst hsecond hfuse
    cases fuse <;> first | rfl | contradiction

theorem reqs_taken_self : ((nvmfTcpReqGet t s).setReq t fun r => { r with cmd := s.cmd }).reqs t =
    { s.reqs t with
      state := .new, cmd := s.cmd, status := .zeroed, h2cOffset := 0, hasInCapsuleData := false,
      arrival := s.arrivals, received := 0 } := by
  rw [TcpQpair.reqs_setReq_self, reqs_nvmfTcpReqGet_self]

theorem reqs_taken_of_ne {v : ℕ} (hv : v ≠ t) :
    ((nvmfTcpReqGet t s).setReq t fun r => { r with cmd := s.cmd }).reqs v = s.reqs v := by
  rw [TcpQpair.reqs_setReq_of_ne _ _ _ hv, reqs_nvmfTcpReqGet_of_ne s hv]

/-- A slot is taken for a command: its links… -/
theorem linked_taken {rest : List ℕ} (h : Fused s) (hfree : s.free = t :: rest) :
    LinkedBut (insert t ∅) s.arrivals ((nvmfTcpReqGet t s).setReq t fun r =>
      { r with cmd := s.cmd }) := by
  have hl := h.linked
  have hmem : t ∈ s.free := hfree ▸ List.mem_cons_self ..
  have hold : ∀ {v}, v ∈ s.working → v ≠ t := fun hv he => hl.notMem_free hv (he ▸ hmem)
  have hwork : ∀ {v}, v ∈ s.working ++ [t] → v ≠ t → v ∈ s.working := fun hv hvt =>
    (List.mem_append.mp hv).resolve_right fun he => hvt (List.mem_singleton.mp he)
  have hnodup := hl.nodup
  rw [hfree] at hnodup
  obtain ⟨hpair, hfailed⟩ := hl.clean t hmem
  refine {
    active := hl.active, nodup := ?_, clean := fun v hv => ?_, first := fun v hv => ?_,
    pairs := fun v hv w hw => ?_, failed := fun v hv hf => ?_,
    marked := fun v hv hX hr hf => ?_, executing := fun v hv hs => ?_, execs := hl.execs,
    missing := hl.missing }
  · change ((s.working ++ [t]) ++ s.free.tail).Nodup
    rwa [hfree, List.tail_cons, List.append_assoc, List.singleton_append]
  · have hv' : v ∈ rest := by
      change v ∈ s.free.tail at hv
      rwa [hfree, List.tail_cons] at hv
    have hvt : v ≠ t := by
      rintro rfl
      exact (List.nodup_cons.mp hnodup.of_append_right).1 hv'
    rw [reqs_taken_of_ne hvt]
    exact hl.clean v (hfree ▸ List.mem_cons_of_mem _ hv')
  · obtain ⟨hvw, hlead⟩ := hl.first v hv
    rw [reqs_taken_of_ne (hold hvw)]
    exact ⟨List.mem_append_left _ hvw, hlead⟩
  · have hvt : v ≠ t := by
      rintro rfl
      rw [reqs_taken_self, hpair] at hw
      cases hw
    rw [reqs_taken_of_ne hvt] at hw ⊢
    obtain ⟨hww, hback⟩ := hl.pairs v (hwork hv hvt) w hw
    rw [reqs_taken_of_ne (hold hww)]
    exact ⟨List.mem_append_left _ hww, hback⟩
  · have hvt : v ≠ t := by
      rintro rfl
      rw [reqs_taken_self, hfailed] at hf
      cases hf
    rw [reqs_taken_of_ne hvt] at hf ⊢
    exact hl.failed v (hwork hv hvt) hf
  · have hvt : v ≠ t := fun he => hX (.inl he)
    rw [reqs_taken_of_ne hvt] at hr hf ⊢
    exact hl.marked v (hwork hv hvt) (Set.notMem_empty v) hr hf
  · have hvt : v ≠ t := by
      rintro rfl
      rw [reqs_taken_self] at hs
      cases hs
    rw [reqs_taken_of_ne hvt] at hs ⊢
    exact hl.executing v (hwork hv hvt) hs

/-- …and those that wait for it: none. -/
theorem settled_taken (h : Fused s) (hmem : t ∈ s.free) :
    SettledBut ∅ ((nvmfTcpReqGet t s).setReq t fun r => { r with cmd := s.cmd }) := by
  intro v hv _ hready
  have hvt : v ≠ t := by
    rintro rfl
    rw [reqs_taken_self] at hready
    cases hready
  have hvw : v ∈ s.working :=
    (List.mem_append.mp hv).resolve_right fun he => hvt (List.mem_singleton.mp he)
  rw [reqs_taken_of_ne hvt] at hready ⊢
  obtain ⟨hfuse, hfail, hwaits⟩ := h.settled v hvw (Set.notMem_empty v) hready
  refine ⟨hfuse, hfail, hwaits.imp_right (.imp fun w hw => ⟨hw.1, .inr ?_⟩)⟩
  have hwt : w ≠ t := fun he =>
    h.linked.notMem_free (h.linked.pairs v hvw w hw.1).1 (he ▸ hmem)
  rw [reqs_taken_of_ne hwt]
  exact hw.2.resolve_left (Set.notMem_empty w)

/-- **`nvmf_tcp_check_fused_ordering`** links a command to the one before it, or notes that there is
none to link to. -/
theorem Fused.receive {rest : List ℕ} (h : Fused s) (hfree : s.free = t :: rest)
    (hfuse : s.cmd.fuse ≠ .reserved) : Fused (receive Q t s) := by
  have hmem : t ∈ s.free := hfree ▸ List.mem_cons_self ..
  obtain ⟨hpair, hfailed⟩ := h.linked.clean t hmem
  unfold NdpHeaan.receive
  have hself : (((nvmfTcpReqGet t s).setReq t fun r => { r with cmd := s.cmd }).emit
      (.arrive s.arrivals s.cmd.fuse)).reqs t = { s.reqs t with
        state := .new, cmd := s.cmd, status := .zeroed, h2cOffset := 0, hasInCapsuleData := false,
        arrival := s.arrivals, received := 0 } := reqs_taken_self
  have hl : LinkedBut (insert t ∅) s.arrivals (((nvmfTcpReqGet t s).setReq t fun r =>
      { r with cmd := s.cmd }).emit (.arrive s.arrivals s.cmd.fuse)) :=
    (linked_taken h hfree).emit rfl
  have hs : SettledBut ∅ (((nvmfTcpReqGet t s).setReq t fun r =>
      { r with cmd := s.cmd }).emit (.arrive s.arrivals s.cmd.fuse)) :=
    settled_taken h hmem
  have ht : t ∈ (((nvmfTcpReqGet t s).setReq t fun r =>
      { r with cmd := s.cmd }).emit (.arrive s.arrivals s.cmd.fuse)).working :=
    List.mem_append_right _ (List.mem_singleton_self t)
  have harrivals : (((nvmfTcpReqGet t s).setReq t fun r =>
      { r with cmd := s.cmd }).emit (.arrive s.arrivals s.cmd.fuse)).arrivals =
        s.arrivals + 1 := rfl
  have hfirst : (((nvmfTcpReqGet t s).setReq t fun r =>
      { r with cmd := s.cmd }).emit (.arrive s.arrivals s.cmd.fuse)).fusedFirst =
        s.fusedFirst := rfl
  generalize (((nvmfTcpReqGet t s).setReq t fun r =>
      { r with cmd := s.cmd }).emit (.arrive s.arrivals s.cmd.fuse)) = s₁ at *
  unfold nvmfTcpCheckFusedOrdering
  split
  · rename_i hnone
    refine noteFused_fused hl hs hnone ht ?_ ?_ ?_ ?_ ?_ <;> rw [hself]
    all_goals first | assumption | exact harrivals.symm | exact nofun
  · rename_i u hu
    obtain ⟨huw, hlead⟩ := hl.first u hu
    have htu : t ≠ u := by
      rintro rfl
      have harrival := hlead.arrival
      rw [hself] at harrival
      exact absurd harrival (Nat.succ_ne_self _)
    rw [if_pos hlead.fuse]
    split_ifs with hsecond
    · exact ⟨hl.linkPair hu ht htu (by rw [hself]; exact hpair) (by rw [hself]; exact hfailed)
        hsecond (by rw [hself]) _, hs.linkPair hu htu (by rw [hself]; exact nofun)⟩
    · obtain ⟨hreqs, hwork, hcount, hnone⟩ := failFirst_frame (Q := Q) hl.active hlead.fuse htu
      obtain ⟨hl', hs'⟩ := failFirst_fused (Q := Q) hl hs hu s.arrivals
      refine noteFused_fused hl' hs' hnone (hwork ▸ ht) ?_ ?_ ?_ ?_ ?_ <;> rw [hreqs, hself]
      all_goals first | assumption | exact (hcount.trans harrivals).symm | exact nofun

end Arrive

/-! ## A slot is given back -/

section Free

variable {Q : QpCtx} {X : Set ℕ} {next : ℕ} {s : TcpQpair} {t : ℕ}

theorem LinkedBut.releaseBuffers (h : LinkedBut X next s) :
    LinkedBut X next (releaseBuffers Q t s) := by
  unfold NdpHeaan.releaseBuffers
  dsimp only
  split_ifs
  · exact (h.setReq (f := fun r => { r with dataFromPool := false, iov := [] }) ⟨rfl, rfl, rfl, rfl⟩
      (fun _ hr => hr) .inl).emit rfl
  · exact h.emit rfl
  · exact h

theorem LinkedBut.put (h : LinkedBut X next s) (ht : t ∈ s.working) (hfirst : s.fusedFirst ≠ some t)
    (hpair : (s.reqs t).fusedPair = none) (hfailed : (s.reqs t).fusedFailed = false) :
    LinkedBut X next (nvmfTcpReqPut t s) := by
  have hset : LinkedBut X next (s.setReq t fun r => { r with state := .free }) := by
    refine h.setReq ⟨rfl, rfl, rfl, rfl⟩ ?_ ?_ <;> simp [TcpReq.Open, TcpReq.TakesData]
  have hnone : ((s.setReq t fun r => { r with state := .free }).reqs t).fusedPair = none := by
    simpa using hpair
  have hold : ∀ {v}, v ∈ s.working.erase t → v ∈ s.working := List.mem_of_mem_erase
  refine {
    active := h.active, nodup := ?_, clean := fun v hv => ?_, first := fun v hv => ?_,
    pairs := fun v hv w hw => ?_, failed := fun v hv => hset.failed v (hold hv),
    marked := fun v hv => hset.marked v (hold hv),
    executing := fun v hv => hset.executing v (hold hv),
    execs := h.execs, missing := h.missing }
  · have hperm := ((List.perm_cons_erase ht).append_right s.free).trans
      (List.perm_append_singleton t (s.working.erase t ++ s.free)).symm
    rw [List.append_assoc] at hperm
    exact hperm.nodup_iff.mp h.nodup
  · rcases List.mem_append.mp hv with hv | hv
    · exact hset.clean v hv
    · rw [List.mem_singleton.mp hv]
      exact ⟨hnone, by simpa [nvmfTcpReqPut] using hfailed⟩
  · obtain ⟨hvw, hlead⟩ := hset.first v hv
    have hvt : v ≠ t := fun he => hfirst (he ▸ hv)
    exact ⟨(List.mem_erase_of_ne hvt).mpr hvw, hlead⟩
  · obtain ⟨hww, hback⟩ := hset.pairs v (hold hv) w hw
    have hwt : w ≠ t := fun he => hset.ne_partner hnone v (hold hv) (he ▸ hw)
    exact ⟨(List.mem_erase_of_ne hwt).mpr hww, hback⟩

theorem SettledBut.put {Y : Set ℕ} (h : SettledBut Y s) : SettledBut Y (nvmfTcpReqPut t s) := by
  have hset : SettledBut Y (s.setReq t fun r => { r with state := .free }) := h.setReq_past nofun
  exact fun v hv => hset v (List.mem_of_mem_erase hv)

theorem giveUp_frame : (giveUp Q t s).fusedFirst = s.fusedFirst ∧
    (giveUp Q t s).arrivals = s.arrivals ∧
    ((giveUp Q t s).reqs t).fusedPair = (s.reqs t).fusedPair ∧
    ((giveUp Q t s).reqs t).fusedFailed = false := by
  unfold giveUp NdpHeaan.releaseBuffers
  dsimp only
  split_ifs <;> exact ⟨rfl, rfl, by simp, by simp⟩

/-- A request that ended and that nothing links to no longer has a mark. -/
theorem LinkedBut.giveUp (h : LinkedBut ∅ next s) (ht : t ∈ s.working)
    (hfirst : s.fusedFirst ≠ some t) (hpair : (s.reqs t).fusedPair = none)
    (hs : (s.reqs t).state = .completed) : LinkedBut ∅ next (giveUp Q t s) := by
  have hrelease : LinkedBut ∅ next (NdpHeaan.releaseBuffers Q t s) := h.releaseBuffers
  have hreq : ((NdpHeaan.releaseBuffers Q t s).reqs t).fusedPair = none ∧
      ((NdpHeaan.releaseBuffers Q t s).reqs t).state = .completed := by
    rcases releaseBuffers_alike Q t t s with hr | ⟨-, hr⟩ <;> rw [hr] <;> exact ⟨hpair, hs⟩
  have hrest : (NdpHeaan.releaseBuffers Q t s).working = s.working ∧
      (NdpHeaan.releaseBuffers Q t s).fusedFirst = s.fusedFirst := by
    unfold NdpHeaan.releaseBuffers
    dsimp only
    split_ifs <;> exact ⟨rfl, rfl⟩
  refine (hrelease.mono t).setReq_alone (hrest.1 ▸ ht) (hrest.2 ▸ hfirst) hreq.1
    ⟨rfl, rfl, hreq.1⟩ nofun (fun hr => ?_) fun hr => hr
  simp [TcpReq.Open, TcpReq.TakesData, hreq.2] at hr

theorem SettledBut.giveUp {Y : Set ℕ} (h : SettledBut Y s) (hs : (s.reqs t).state = .completed) :
    SettledBut Y (giveUp Q t s) := by
  have hrelease : SettledBut Y (NdpHeaan.releaseBuffers Q t s) := by
    unfold NdpHeaan.releaseBuffers
    dsimp only
    split_ifs
    · exact h.setReq_past (f := fun r => { r with dataFromPool := false, iov := [] }) (by simp [hs])
    · exact h
    · exact h
  refine hrelease.setReq_past ?_
  rcases releaseBuffers_alike Q t t s with hr | ⟨-, hr⟩ <;> rw [hr] <;> simp [hs]

theorem Fused.free (h : Fused s) (ht : t ∈ s.working) (hfirst : s.fusedFirst ≠ some t)
    (hpair : (s.reqs t).fusedPair = none) :
    Fused (nvmfTcpReqPut t (NdpHeaan.giveUp Q t (s.setReq t fun r =>
      { r with pdu := none, state := .completed }))) := by
  have hl : LinkedBut ∅ s.arrivals (s.setReq t fun r =>
      { r with pdu := none, state := .completed }) := by
    refine h.linked.setReq ⟨rfl, rfl, rfl, rfl⟩ ?_ ?_ <;> simp [TcpReq.Open, TcpReq.TakesData]
  have hs : SettledBut ∅ (s.setReq t fun r => { r with pdu := none, state := .completed }) :=
    h.settled.setReq_past (by simp)
  have hdone : ((s.setReq t fun r => { r with pdu := none, state := .completed }).reqs t).state =
      .completed := by simp
  have hnone :
      ((s.setReq t fun r => { r with pdu := none, state := .completed }).reqs t).fusedPair =
        none := by
    simpa using hpair
  obtain ⟨hfirst', harrivals, hpair', hfailed'⟩ := giveUp_frame (Q := Q) (t := t)
    (s := s.setReq t fun r => { r with pdu := none, state := .completed })
  refine ⟨?_, (hs.giveUp hdone).put⟩
  have hgive := (hl.giveUp (Q := Q) ht hfirst hnone hdone).put (t := t) ?_ ?_
    (hpair'.trans hnone) hfailed'
  · exact harrivals.symm ▸ hgive
  · rwa [working_giveUp]
  · rwa [hfirst']

end Free

namespace Fused

variable {Q : QpCtx} {s s' : TcpQpair} {t : ℕ} {f : TcpReq → TcpReq}

/-- A request goes on, with its links as they are. -/
theorem setReq (h : Fused s) (hmarks : (s.reqs t).SameMarks (f (s.reqs t)))
    (hopen : (f (s.reqs t)).Open → (s.reqs t).Open)
    (hrun : (f (s.reqs t)).state = .executing → (s.reqs t).state = .executing)
    (hready : (f (s.reqs t)).state = .readyToExecute → (s.reqs t).state = .readyToExecute) :
    Fused (s.setReq t f) :=
  ⟨h.linked.setReq hmarks (fun _ => hopen) fun hr => .inl (hrun hr),
    h.settled.setReq hmarks fun hr => .inr (hready hr)⟩

/-- A request stays in its state. -/
theorem setReq_same (h : Fused s) (hmarks : (s.reqs t).SameMarks (f (s.reqs t)))
    (hstate : (f (s.reqs t)).state = (s.reqs t).state) : Fused (s.setReq t f) :=
  h.setReq hmarks (fun hr => by rwa [TcpReq.Open, TcpReq.TakesData, hstate] at hr)
    (fun hr => hstate ▸ hr) fun hr => hstate ▸ hr

theorem emit {e : TcpEffect} (h : Fused s) (he : e.offFused = true) : Fused (s.emit e) :=
  ⟨h.linked.emit he, h.settled⟩

theorem around (h : Fused s) (recv : RecvState) (hdr : RxHdr) (cmd : TcpCmd)
    (pending : List Waiter) (pdus : List DataPdu) :
    Fused { s with recv, hdr, cmd, pending, pdus } :=
  ⟨h.linked.around recv hdr cmd pending pdus, h.settled⟩

/-- A request that gets ready runs, fails or waits. -/
theorem run (h : Fused s) (ht : t ∈ s.working) (hopen : (s.reqs t).Open) :
    Fused (NdpHeaan.readyToExecute Q t (s.setReq t fun r => { r with state := .readyToExecute })) :=
  readyToExecute (h.linked.setReq ⟨rfl, rfl, rfl, rfl⟩ (fun _ _ => hopen) nofun)
    ((h.settled.mono t).setReq ⟨rfl, rfl, rfl, rfl⟩ fun _ => .inl (.inl rfl)) ht (by simp)

/-- **Every move that leaves no link behind keeps the links sound.** -/
theorem move {B : Prop} (h : Fused s) (hm : Move Q False B s s') : Fused s' := by
  cases hm with
  | quiet hactive hlog =>
    obtain rfl := hactive.resolve_right And.left
    rcases hlog with rfl | ⟨e, he, rfl⟩
    · exact h.around _ _ _ _ s.pdus
    · have hoff : e.offFused = true := by cases e <;> simp [TcpEffect.request?] at he <;> rfl
      exact (h.emit hoff).around _ _ _ _ s.pdus
  | touch ht hf =>
    refine h.setReq_same ⟨?_, ?_, ?_, ?_⟩ ?_ <;> rw [hf]
  | setPdu t pdu => exact h.setReq_same ⟨rfl, rfl, rfl, rfl⟩ rfl
  | count t n => exact h.setReq_same ⟨rfl, rfl, rfl, rfl⟩ rfl
  | receive hfree ht hactive hfuse hfirst => exact h.receive hfree (hfuse.resolve_left id)
  | wait ht hs => exact h.setReq ⟨rfl, rfl, rfl, rfl⟩ (fun _ => .inl hs) nofun nofun
  | askData ht hs hoffset hpdus =>
    exact h.setReq ⟨rfl, rfl, rfl, rfl⟩ (fun _ => .inr (.inl hs)) nofun nofun
  | @takeCapsule t pdo ht hs hoffset hpdus =>
    have hset : Fused (s.setReq t fun r => { r with state := .transferringH2c }) :=
      h.setReq ⟨rfl, rfl, rfl, rfl⟩ (fun _ => .inr (.inl hs)) nofun nofun
    exact hset.around s.recv s.hdr s.cmd s.pending _
  | ack ht hs =>
    exact h.setReq ⟨rfl, rfl, rfl, rfl⟩ (fun _ => .inr (.inr (.inl (.inr hs)))) nofun nofun
  | accept hslot ht hcapsule hc hfed hpdus =>
    exact emit (h.around s.recv s.hdr s.cmd s.pending _) rfl
  | mismatch ht hlen hc => exact emit (h.setReq_same ⟨rfl, rfl, rfl, rfl⟩ rfl) rfl
  | dropCapsule hcapsule => exact h.around s.recv s.hdr s.cmd s.pending _
  | takeData hp ht hcapsule hc =>
    exact (h.around s.recv s.hdr s.cmd s.pending _).setReq_same ⟨rfl, rfl, rfl, rfl⟩ rfl
  | run ht hs hpair => exact h.run ht (hs.imp_right .inl)
  | runData ht hs hall hstatus hpair =>
    exact (h.emit rfl).run ht (.inr (.inr (.inl (.inl hs))))
  | @answer t f ht hf hanswer =>
    have hmarks : (s.reqs t).SameMarks (f (s.reqs t)) := by
      refine ⟨?_, ?_, ?_, ?_⟩ <;> rw [hf]
    refine ⟨h.linked.answer hmarks fun _ => ?_, h.settled.answer hmarks⟩
    generalize (f (s.reqs t)).status = status at hanswer
    cases hanswer with
    | invalidOpcode hs => exact .inr rfl
    | aborted hs => exact .inr rfl
    | corrupt hs hstatus => exact .inr rfl
    | executed sc hs => exact .inl (h.linked.executing t ht hs)
  | free ht hs hfirst hpair => exact h.free ht hfirst hpair
  | get ha | slide ha | stall ha | release ha | fail t ha | rerun ha | unlink ha | put ha =>
    exact ha.elim

theorem init (Q : QpCtx) (below : TcpReq) : Fused (.init Q below) where
  linked := {
    active := rfl
    nodup := List.nodup_range'
    clean := fun t ht => by
      have hpos : t ≠ 0 := by
        have := (List.mem_range'_1.mp ht).1
        omega
      have hnew : (TcpQpair.init Q below).reqs t = {} := if_neg hpos
      rw [hnew]
      exact ⟨rfl, rfl⟩
    first := nofun
    pairs := fun _ ht => absurd ht List.not_mem_nil
    failed := fun _ ht => absurd ht List.not_mem_nil
    marked := fun _ ht => absurd ht List.not_mem_nil
    executing := fun _ ht => absurd ht List.not_mem_nil
    execs := trivial
    missing := fun _ _ _ hmem => absurd hmem List.not_mem_nil }
  settled := fun _ ht => absurd ht List.not_mem_nil

theorem fusedSound (h : Fused s) (hsound : Sound Q s) : FusedSound Q s where
  first := fun u hu => ⟨(h.linked.first u hu).1, (h.linked.first u hu).2.fuse⟩
  pairs := fun t ht u hu => by
    rcases hsound.mem_slots.mp ht with ht | ht
    · obtain ⟨huw, hback, -, hleads⟩ := h.linked.pairs t ht u hu
      exact ⟨ht, huw, hback, hleads⟩
    · rw [(h.linked.clean t ht).1] at hu
      cases hu
  execs := h.linked.execs
  alone := fun t ht hopen hfuse hpair hfirst => by
    have hfailed : (s.reqs t).fusedFailed = true := by
      have hmarked := h.linked.marked t ht (Set.notMem_empty t) hopen hfuse
      rw [hpair] at hmarked
      simpa [hfirst] using hmarked
    refine ⟨hfailed, fun hready => ?_⟩
    have hnot := (h.settled t ht (Set.notMem_empty t) hready).2.1
    rw [hfailed] at hnot
    cases hnot
  missing := h.linked.missing

end Fused

/-- **The bookkeeping of fused commands is sound in every state**, for commands in any order, data,
digest errors, aborts and completions, as long as no request is given back that is `fused_first` or
has a partner. -/
theorem fusedCommands_sound {Q : QpCtx} {below : TcpReq} {s : TcpQpair}
    (h : (tcpSys Q below).Reach (fun s e => InOrder s e ∧ Calm s e) s) : FusedSound Q s := by
  obtain ⟨hsound, hfused⟩ : Sound Q s ∧ Fused s :=
    keep_reach (A := False) (B := True)
      (fun _ _ hs hg => ⟨hg.1, .inr ⟨hs.linked.active, hg.2⟩, .inl trivial⟩)
      (.init Q below) (fun _ _ _ hs hm => hs.move hm) h
  exact hfused.fusedSound hsound

/-- A command without data. -/
def bareCmd (opc : UInt8) (fuse : Fuse) : TcpCmd :=
  { opc, fuse, sgl := ⟨0, 0, .dataBlock, .address⟩ }

/-- A FIRST and its SECOND. -/
def pairRun : List TcpEvent :=
  [.capsule bareHdr (bareCmd 0x00 .first) {}, .capsule bareHdr (bareCmd 0x00 .second) {}]

theorem pairRun_fusedSound :
    ∃ s, (tcpSys (sampleQpair false) {}).Reach (fun s e => InOrder s e ∧ Calm s e) s ∧
      execs s.log = [(0, .first), (1, .second)] ∧ FusedSound (sampleQpair false) s := by
  have hfirst := (Sys.Reach.init (M := tcpSys (sampleQpair false) {})
    (P := fun s e => InOrder s e ∧ Calm s e)).step (l := pairRun[0]) ⟨trivial, nofun⟩ rfl
  have hsecond := hfirst.step (l := pairRun[1]) ⟨trivial, nofun⟩ rfl
  exact ⟨_, hsecond, by decide, fusedCommands_sound hsecond⟩

/-- A FIRST with an opcode of two directions, which is answered at once. -/
def refusedFirstRun : List TcpEvent :=
  [.capsule bareHdr { sampleWrite 4096 .first with opc := 0x83 } {}, .writeDone 1 false]

/-- A pair whose FIRST gets wrong data. -/
def wrongFirstRun : List TcpEvent :=
  [.capsule bareHdr (sampleWrite 4096 .first) {}, .capsule bareHdr (sampleWrite 4096 .second) {},
   .writeDone 1 false, .h2cData 0 1 0 4096, .dataDone ⟨1, false, 0, 0, 4096⟩ false,
   .writeDone 1 false]

/-- **Both pointers are left behind**: `fused_first` at a request that was answered and given back,
and `fused_pair` of a SECOND at its FIRST. -/
theorem fusedLinks_dangle :
    (∃ s, (tcpSys (sampleQpair true) {}).run (.init (sampleQpair true) {}) refusedFirstRun =
      some s ∧
      s.fusedFirst = some 1 ∧ s.working = [] ∧ ¬ FusedSound (sampleQpair true) s) ∧
    ∃ s, (tcpSys (sampleQpair true) {}).run (.init (sampleQpair true) {}) wrongFirstRun = some s ∧
      (s.reqs 2).fusedPair = some 1 ∧ s.working = [2] ∧ ¬ FusedSound (sampleQpair true) s := by
  refine ⟨⟨_, rfl, by decide, by decide, fun h => ?_⟩, ⟨_, rfl, by decide, by decide, fun h => ?_⟩⟩
  · exact absurd (h.first 1 rfl).1 (by decide)
  · exact absurd (h.pairs 2 (by decide) 1 rfl).2.1 (by decide)

end NdpHeaan
