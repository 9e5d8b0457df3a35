import NdpHeaan.Tcp.Moves

/-!
# Tcp/Digest — data that arrived wrong is not executed

`data_crc32_calc_done` notes a digest that does not match in the status of the request.  The two
payload handlers look at it before the request goes on; `nvmf_tcp_r2t_complete` does not.  So a
request whose data is wrong is answered with an error unless its R2T is known to be sent only after
all of the data came in (`AckedInTime`), or data is accepted for it twice (`InOrder`).
-/

open Machinery

namespace NdpHeaan

/-- **No request runs on data that arrived wrong**, or is answered as if it had not. -/
structure Withheld (log : List TcpEffect) : Prop where
  exec : ∀ k fuse, .mismatch k ∈ log → .exec k fuse ∉ log
  respond : ∀ k fuse status, .mismatch k ∈ log → .respond k fuse status ∈ log →
    status = .transientTransportError

/-- The host has been told that the data of a request was wrong. -/
def ToldWrong (k : ℕ) (log : List TcpEffect) : Prop :=
  ∃ fuse, .respond k fuse .transientTransportError ∈ log

/-! ## What a run keeps -/

namespace TcpReq

variable (r : TcpReq)

/-- It has no data yet, or all of it and none wrong. -/
def Trusted : Prop :=
  r.state = .new ∨ r.state = .needBuffer ∨ r.state = .readyToExecute ∨ r.state = .executing

variable {r}

theorem Trusted.not_takesData (h : r.Trusted) : ¬ r.TakesData := by
  rintro (hs | hs) <;> rcases h with h | h | h | h <;> rw [hs] at h <;> cases h

end TcpReq

/-- **The status of a request knows of its data.** -/
structure Untainted (s : TcpQpair) : Prop extends Withheld s.log where
  taken : ∀ e ∈ s.log, ∀ k, e.request? = some k → k < s.arrivals
  unanswered : ∀ t ∈ s.working, (s.reqs t).Open →
    (∀ fuse, .exec (s.reqs t).arrival fuse ∉ s.log) ∧
      ∀ fuse status, .respond (s.reqs t).arrival fuse status ∉ s.log
  trusted : ∀ t ∈ s.working, (s.reqs t).Trusted → .mismatch (s.reqs t).arrival ∉ s.log
  noted : ∀ t ∈ s.working, (s.reqs t).TakesData → .mismatch (s.reqs t).arrival ∈ s.log →
    (s.reqs t).status = .transientTransportError ∧ (s.reqs t).length ≠ 0
  owed : s.active = true → ∀ k, .mismatch k ∈ s.log →
    ToldWrong k s.log ∨ ∃ t ∈ s.working, (s.reqs t).arrival = k ∧ (s.reqs t).TakesData

/-- The effect says nothing about what becomes of a request. -/
def TcpEffect.offVerdict : TcpEffect → Bool
  | .exec .. | .respond .. | .mismatch _ => false
  | _ => true

theorem ToldWrong.append {k : ℕ} {log : List TcpEffect} (h : ToldWrong k log) (e : TcpEffect) :
    ToldWrong k (log ++ [e]) :=
  h.imp fun _ hmem => List.mem_append_left _ hmem

theorem mem_of_mem_append {e e' : TcpEffect} {log : List TcpEffect} (hmem : e' ∈ log ++ [e])
    (hne : e' ≠ e) : e' ∈ log :=
  (List.mem_append.mp hmem).resolve_right fun hlast => hne (List.mem_singleton.mp hlast)

namespace Untainted

variable {Q : QpCtx} {s : TcpQpair} {t : ℕ} {f : TcpReq → TcpReq}

/-! ### Changes that leave the log as it is, or say nothing in it -/

theorem around (h : Untainted s) (recv : RecvState) (hdr : RxHdr) (cmd : TcpCmd)
    (pending : List Waiter) (fusedFirst : Option ℕ) (pdus : List DataPdu) :
    Untainted { s with recv, hdr, cmd, pending, fusedFirst, pdus } :=
  { h with }

theorem disconnect (h : Untainted s) : Untainted { s with active := false } :=
  { h with owed := nofun }

theorem emit {e : TcpEffect} (h : Untainted s) (he : e.offVerdict = true)
    (hyoung : ∀ k, e.request? = some k → k < s.arrivals) : Untainted (s.emit e) := by
  have hold : ∀ {e'}, e' ∈ s.log ++ [e] → e'.offVerdict = false → e' ∈ s.log := by
    intro e' hmem hoff
    refine mem_of_mem_append hmem fun heq => ?_
    rw [heq, he] at hoff
    cases hoff
  exact {
    exec := fun k fuse hmis hex => h.exec k fuse (hold hmis rfl) (hold hex rfl)
    respond := fun k fuse st hmis hresp => h.respond k fuse st (hold hmis rfl) (hold hresp rfl)
    taken := fun e' hmem k hk => by
      rcases List.mem_append.mp hmem with hmem | hmem
      · exact h.taken e' hmem k hk
      · exact hyoung k (List.mem_singleton.mp hmem ▸ hk)
    unanswered := fun u hu hr =>
      ⟨fun fuse hex => (h.unanswered u hu hr).1 fuse (hold hex rfl),
        fun fuse st hresp => (h.unanswered u hu hr).2 fuse st (hold hresp rfl)⟩
    trusted := fun u hu hr hmis => h.trusted u hu hr (hold hmis rfl)
    noted := fun u hu hr hmis => h.noted u hu hr (hold hmis rfl)
    owed := fun hactive k hmis => (h.owed hactive k (hold hmis rfl)).imp_left (·.append e) }

/-- An effect that names no request. -/
theorem emit_other {e : TcpEffect} (h : Untainted s) (he : e.request? = none) :
    Untainted (s.emit e) := by
  refine h.emit ?_ fun k hk => ?_
  · cases e <;> simp [TcpEffect.request?] at he <;> rfl
  · rw [he] at hk
    cases hk

/-- A request changes, and the log says of it what its new state wants. -/
theorem setReq (h : Untainted s) (harrival : (f (s.reqs t)).arrival = (s.reqs t).arrival)
    (hopen : (f (s.reqs t)).Open → (s.reqs t).Open)
    (htrusted : t ∈ s.working → (f (s.reqs t)).Trusted → .mismatch (s.reqs t).arrival ∉ s.log)
    (hnoted : t ∈ s.working → (f (s.reqs t)).TakesData → .mismatch (s.reqs t).arrival ∈ s.log →
      (f (s.reqs t)).status = .transientTransportError ∧ (f (s.reqs t)).length ≠ 0)
    (howed : t ∈ s.working → (s.reqs t).TakesData → .mismatch (s.reqs t).arrival ∈ s.log →
      s.active = true → (f (s.reqs t)).TakesData) :
    Untainted (s.setReq t f) := by
  have harr : ∀ u, ((s.setReq t f).reqs u).arrival = (s.reqs u).arrival :=
    TcpQpair.field_setReq TcpReq.arrival harrival
  refine { h with
    unanswered := fun u hu hr => ?_, trusted := fun u hu hr => ?_, noted := fun u hu hr hmis => ?_,
    owed := fun hactive k hmis => ?_ }
  · rw [harr]
    refine h.unanswered u hu ?_
    rw [TcpQpair.reqs_setReq] at hr
    split_ifs at hr with hut
    · exact hut ▸ hopen hr
    · exact hr
  · rw [harr]
    rw [TcpQpair.reqs_setReq] at hr
    split_ifs at hr with hut
    · subst hut
      exact htrusted hu hr
    · exact h.trusted u hu hr
  · rw [harr] at hmis
    rw [TcpQpair.reqs_setReq] at hr ⊢
    split_ifs at hr ⊢ with hut
    · subst hut
      exact hnoted hu hr hmis
    · exact h.noted u hu hr hmis
  · refine (h.owed hactive k hmis).imp_right ?_
    rintro ⟨u, hu, hk, hr⟩
    refine ⟨u, hu, (harr u).trans hk, ?_⟩
    rw [TcpQpair.reqs_setReq]
    split_ifs with hut
    · subst hut
      exact howed hu hr (hk ▸ hmis) hactive
    · exact hr

/-- A request stays in its state. -/
theorem setReq_same (h : Untainted s) (harrival : (f (s.reqs t)).arrival = (s.reqs t).arrival)
    (hstate : (f (s.reqs t)).state = (s.reqs t).state)
    (hnote : (s.reqs t).TakesData → (f (s.reqs t)).status = (s.reqs t).status ∧
      (f (s.reqs t)).length = (s.reqs t).length) : Untainted (s.setReq t f) := by
  have htakes : (f (s.reqs t)).TakesData ↔ (s.reqs t).TakesData := by
    rw [TcpReq.TakesData, hstate, TcpReq.TakesData]
  refine h.setReq harrival (fun hr => ?_) (fun ht hr => h.trusted t ht ?_) (fun ht hr hmis => ?_)
    fun _ hr _ _ => htakes.mpr hr
  · rwa [TcpReq.Open, htakes, hstate] at hr
  · rwa [TcpReq.Trusted, hstate] at hr
  · obtain ⟨hstatus, hlength⟩ := hnote (htakes.mp hr)
    rw [hstatus, hlength]
    exact h.noted t ht (htakes.mp hr) hmis

/-- A request that has no wrong data goes on, not yet executed. -/
theorem setReq_trusted (h : Untainted s) (harrival : (f (s.reqs t)).arrival = (s.reqs t).arrival)
    (hopen : (s.reqs t).Open) (hright : .mismatch (s.reqs t).arrival ∉ s.log) :
    Untainted (s.setReq t f) :=
  h.setReq harrival (fun _ => hopen) (fun _ _ => hright) (fun _ _ hmis => absurd hmis hright)
    fun _ _ hmis => absurd hmis hright

/-- A request goes to where nothing is expected of it. -/
theorem setReq_past (h : Untainted s) (harrival : (f (s.reqs t)).arrival = (s.reqs t).arrival)
    (hopen : ¬ (f (s.reqs t)).Open) (htrusted : ¬ (f (s.reqs t)).Trusted)
    (hactive : (s.reqs t).TakesData → s.active = false) : Untainted (s.setReq t f) :=
  h.setReq harrival (fun hr => absurd hr hopen) (fun _ hr => absurd hr htrusted)
    (fun _ hr => absurd (.inr (.inr (.inl hr))) hopen)
    fun _ hr _ hon => by rw [hactive hr] at hon; cases hon

/-! ### What becomes of a request -/

/-- A request is executed or answered. -/
theorem close {e : TcpEffect} (h : Untainted s) (hn : Named s) (ht : t ∈ s.working)
    (harrival : (f (s.reqs t)).arrival = (s.reqs t).arrival) (hopen : ¬ (f (s.reqs t)).Open)
    (htrusted : (f (s.reqs t)).Trusted → .mismatch (s.reqs t).arrival ∉ s.log)
    (he : (∃ fuse, e = .exec (s.reqs t).arrival fuse) ∧ .mismatch (s.reqs t).arrival ∉ s.log ∨
      ∃ fuse status, e = .respond (s.reqs t).arrival fuse status ∧
        (.mismatch (s.reqs t).arrival ∈ s.log → status = .transientTransportError)) :
    Untainted ((s.setReq t f).emit e) := by
  have hname : e.request? = some (s.reqs t).arrival := by
    rcases he with ⟨⟨fuse, rfl⟩, -⟩ | ⟨fuse, status, rfl, -⟩ <;> rfl
  have hmis : ∀ {k}, .mismatch k ∈ s.log ++ [e] → .mismatch k ∈ s.log := by
    intro k hk
    refine mem_of_mem_append hk ?_
    rcases he with ⟨⟨fuse, rfl⟩, -⟩ | ⟨fuse, status, rfl, -⟩ <;> exact nofun
  have harr : ∀ u, ((s.setReq t f).reqs u).arrival = (s.reqs u).arrival :=
    TcpQpair.field_setReq TcpReq.arrival harrival
  -- an effect of another request that works is an old one
  have hother : ∀ {u e'}, u ∈ s.working → u ≠ t → e'.request? = some (s.reqs u).arrival →
      e' ∈ s.log ++ [e] → e' ∈ s.log := by
    intro u e' hu hut hname' hmem
    refine mem_of_mem_append hmem fun heq => hut (hn.distinct u hu t ht ?_)
    rw [heq, hname] at hname'
    exact (Option.some.inj hname').symm
  have hself : ∀ {u}, ((s.setReq t f).reqs u).Open → u ≠ t := by
    rintro u hr rfl
    rw [TcpQpair.reqs_setReq_self] at hr
    exact hopen hr
  refine {
    exec := fun k fuse hk hex => ?_, respond := fun k fuse st hk hresp => ?_,
    taken := fun e' hmem k hk => ?_, unanswered := fun u hu hr => ?_,
    trusted := fun u hu hr hk => ?_, noted := fun u hu hr hk => ?_,
    owed := fun hactive k hk => ?_ }
  · rcases List.mem_append.mp hex with hex | hex
    · exact h.exec k fuse (hmis hk) hex
    · rcases he with ⟨⟨fuse', rfl⟩, hright⟩ | ⟨fuse', st, rfl, -⟩ <;>
        cases List.mem_singleton.mp hex
      exact hright (hmis hk)
  · rcases List.mem_append.mp hresp with hresp | hresp
    · exact h.respond k fuse st (hmis hk) hresp
    · rcases he with ⟨⟨fuse', rfl⟩, -⟩ | ⟨fuse', st', rfl, hwrong⟩ <;>
        cases List.mem_singleton.mp hresp
      exact hwrong (hmis hk)
  · rcases List.mem_append.mp hmem with hmem | hmem
    · exact h.taken e' hmem k hk
    · rw [List.mem_singleton.mp hmem, hname] at hk
      exact Option.some.inj hk ▸ hn.young t ht
  · have hut := hself hr
    rw [TcpQpair.reqs_emit, TcpQpair.reqs_setReq_of_ne _ _ _ hut] at hr ⊢
    obtain ⟨hexec, hrespond⟩ := h.unanswered u hu hr
    exact ⟨fun fuse hex => hexec fuse (hother hu hut rfl hex),
      fun fuse st hresp => hrespond fuse st (hother hu hut rfl hresp)⟩
  · rw [TcpQpair.reqs_emit] at hr hk
    rw [harr] at hk
    rw [TcpQpair.reqs_setReq] at hr
    split_ifs at hr with hut
    · subst hut
      exact htrusted hr (hmis hk)
    · exact h.trusted u hu hr (hmis hk)
  · have hut : u ≠ t := hself (.inr (.inr (.inl hr)))
    rw [TcpQpair.reqs_emit, TcpQpair.reqs_setReq_of_ne _ _ _ hut] at hr hk ⊢
    exact h.noted u hu hr (hmis hk)
  · rcases h.owed hactive k (hmis hk) with htold | ⟨u, hu, rfl, hr⟩
    · exact .inl (htold.append e)
    · by_cases hut : u = t
      · subst hut
        left
        rcases he with ⟨-, hright⟩ | ⟨fuse, st, rfl, hwrong⟩
        · exact absurd (hmis hk) hright
        · obtain rfl := hwrong (hmis hk)
          exact ⟨fuse, List.mem_append_right _ (List.mem_singleton_self _)⟩
      · refine .inr ⟨u, hu, harr u, ?_⟩
        rwa [TcpQpair.reqs_emit, TcpQpair.reqs_setReq_of_ne _ _ _ hut]

/-- A digest does not match. -/
theorem mismatch (h : Untainted s) (hn : Named s) (ht : t ∈ s.working)
    (htakes : (s.reqs t).TakesData) (hlength : (s.reqs t).length ≠ 0) :
    Untainted ((s.setReq t fun r => { r with status := .transientTransportError }).emit
      (.mismatch (s.reqs t).arrival)) := by
  have hset : Untainted (s.setReq t fun r => { r with status := .transientTransportError }) :=
    h.setReq rfl (fun hr => hr) (fun hw hr => h.trusted t hw hr) (fun _ _ _ => ⟨rfl, hlength⟩)
      fun _ hr _ _ => hr
  obtain ⟨hexec, hrespond⟩ := h.unanswered t ht (.inr (.inr (.inl htakes)))
  have hmis : ∀ {k}, .mismatch k ∈ s.log ++ [.mismatch (s.reqs t).arrival] →
      .mismatch k ∈ s.log ∨ k = (s.reqs t).arrival := by
    intro k hk
    refine (List.mem_append.mp hk).imp_right fun hlast => ?_
    cases List.mem_singleton.mp hlast
    rfl
  have harr : ∀ u, ((s.setReq t fun r =>
      { r with status := .transientTransportError }).reqs u).arrival = (s.reqs u).arrival :=
    TcpQpair.field_setReq TcpReq.arrival rfl
  have hselfTakes : ((s.setReq t fun r =>
      { r with status := .transientTransportError }).reqs t).TakesData := by
    rw [TcpQpair.reqs_setReq_self]
    exact htakes
  refine {
    exec := fun k fuse hk hex => ?_, respond := fun k fuse st hk hresp => ?_,
    taken := fun e' hmem k hk => ?_, unanswered := fun u hu hr => ?_,
    trusted := fun u hu hr hk => ?_, noted := fun u hu hr hk => ?_,
    owed := fun hactive k hk => ?_ }
  · have hex := mem_of_mem_append hex nofun
    rcases hmis hk with hk | rfl
    · exact h.exec k fuse hk hex
    · exact hexec fuse hex
  · have hresp := mem_of_mem_append hresp nofun
    rcases hmis hk with hk | rfl
    · exact h.respond k fuse st hk hresp
    · exact absurd hresp (hrespond fuse st)
  · rcases List.mem_append.mp hmem with hmem | hmem
    · exact h.taken e' hmem k hk
    · cases List.mem_singleton.mp hmem
      exact Option.some.inj hk ▸ hn.young t ht
  · obtain ⟨hexec, hrespond⟩ := hset.unanswered u hu hr
    exact ⟨fun fuse hex => hexec fuse (mem_of_mem_append hex nofun),
      fun fuse st hresp => hrespond fuse st (mem_of_mem_append hresp nofun)⟩
  · rcases hmis hk with hk | hk
    · exact hset.trusted u hu hr hk
    · rw [TcpQpair.reqs_emit, harr] at hk
      obtain rfl := hn.distinct u hu t ht hk
      exact hr.not_takesData hselfTakes
  · rcases hmis hk with hk | hk
    · exact hset.noted u hu hr hk
    · rw [TcpQpair.reqs_emit, harr] at hk
      obtain rfl := hn.distinct u hu t ht hk
      rw [TcpQpair.reqs_emit, TcpQpair.reqs_setReq_self]
      exact ⟨rfl, hlength⟩
  · rcases hmis hk with hk | rfl
    · exact (hset.owed hactive k hk).imp_left (·.append _)
    · exact .inr ⟨t, ht, harr t, hselfTakes⟩

/-! ### The functions of the state machine -/

theorem execReq (h : Untainted s) (hn : Named s) (ht : t ∈ s.working)
    (hs : (s.reqs t).Trusted) : Untainted (execReq t s) := by
  refine h.close hn ht rfl ?_ (fun _ => h.trusted t ht hs) (.inl ⟨⟨_, rfl⟩, h.trusted t ht hs⟩)
  simp [TcpReq.Open, TcpReq.TakesData]

theorem trusted_execReq {u : ℕ} (ht : (s.reqs t).Trusted) :
    ((NdpHeaan.execReq u s).reqs t).Trusted := by
  rw [NdpHeaan.execReq, TcpQpair.reqs_emit, TcpQpair.reqs_setReq]
  split_ifs
  · exact .inr (.inr (.inr rfl))
  · exact ht

/-- A request is answered. -/
theorem answer (h : Untainted s) (hn : Named s) (ht : t ∈ s.working)
    (harrival : (f (s.reqs t)).arrival = (s.reqs t).arrival)
    (hstatus : .mismatch (s.reqs t).arrival ∈ s.log →
      (f (s.reqs t)).status = .transientTransportError) :
    Untainted (requestTransferOut Q t (s.setReq t f)) := by
  obtain ⟨out, hout⟩ := requestTransferOut_setReq Q t s f
  rw [hout, harrival]
  refine h.close hn ht harrival ?_ (fun hr => ?_) (.inr ⟨_, _, rfl, hstatus⟩)
  · simp [TcpReq.Open, TcpReq.TakesData]
  · simp [TcpReq.Trusted] at hr

theorem unpair {u : ℕ} (h : Untainted s) : Untainted (unpair t u s) := by
  have hu : Untainted (s.setReq u fun r => { r with fusedPair := none }) :=
    h.setReq_same rfl rfl fun _ => ⟨rfl, rfl⟩
  exact hu.setReq_same rfl rfl fun _ => ⟨rfl, rfl⟩

theorem readyToExecute (h : Untainted s) (hn : Named s) (ht : t ∈ s.working)
    (hs : (s.reqs t).state = .readyToExecute) (hpair : s.PartnerWorks t) :
    Untainted (readyToExecute Q t s) := by
  have htrusted : (s.reqs t).Trusted := .inr (.inr (.inl hs))
  unfold NdpHeaan.readyToExecute
  dsimp only
  split_ifs
  · exact h.execReq hn ht htrusted
  · exact h.answer hn ht rfl fun hmis => absurd hmis (h.trusted t ht htrusted)
  · split
    · exact h
    · rename_i u hu
      split_ifs with hready
      · exact h
      · rw [not_not] at hready
        have huw := hpair u hu hready
        have hutrusted : (s.reqs u).Trusted := .inr (.inr (.inl hready))
        split
        · refine unpair (execReq (h.execReq hn huw hutrusted) ?_ ht (trusted_execReq htrusted))
          exact (SameNames.execReq u s).named hn
        · refine unpair (execReq (h.execReq hn ht htrusted) ?_ huw (trusted_execReq hutrusted))
          exact (SameNames.execReq t s).named hn
        · exact h.execReq hn ht htrusted

theorem giveUp (h : Untainted s) (hs : ¬ (s.reqs t).TakesData) : Untainted (giveUp Q t s) := by
  have hrelease : Untainted (releaseBuffers Q t s) := by
    unfold releaseBuffers
    dsimp only
    split_ifs
    · exact emit (h.setReq_same rfl rfl fun hr => absurd hr hs) rfl nofun
    · exact h.emit rfl nofun
    · exact h
  refine hrelease.setReq_same rfl rfl fun hr => absurd ?_ hs
  rcases releaseBuffers_alike Q t t s with hsame | ⟨-, hsame⟩ <;> rw [hsame] at hr <;> exact hr

theorem put (h : Untainted s) (hs : ¬ (s.reqs t).TakesData) : Untainted (nvmfTcpReqPut t s) := by
  have hfree : Untainted (s.setReq t fun r => { r with state := .free }) := by
    refine h.setReq_past rfl ?_ ?_ fun hr => absurd hr hs <;>
      simp [TcpReq.Open, TcpReq.Trusted, TcpReq.TakesData]
  have hold : ∀ {u}, u ∈ s.working.erase t → u ∈ s.working := List.mem_of_mem_erase
  refine { hfree with
    unanswered := fun u hu => hfree.unanswered u (hold hu)
    trusted := fun u hu => hfree.trusted u (hold hu)
    noted := fun u hu => hfree.noted u (hold hu)
    owed := fun hactive k hk => (hfree.owed hactive k hk).imp_right ?_ }
  rintro ⟨u, hu, harr, hr⟩
  have hut : u ≠ t := by
    rintro rfl
    simp [TcpReq.TakesData] at hr
  exact ⟨u, (List.mem_erase_of_ne hut).mpr hu, harr, hr⟩

/-- A slot that is taken gets a number of its own. -/
theorem get (h : Untainted s) (ht : t ∉ s.working) : Untainted (nvmfTcpReqGet t s) := by
  have hmem : ∀ {u}, u ≠ t → u ∈ (nvmfTcpReqGet t s).working → u ∈ s.working := fun hut hu =>
    (List.mem_append.mp hu).resolve_right fun he => hut (List.mem_singleton.mp he)
  have hsame : ∀ {u}, u ≠ t → (nvmfTcpReqGet t s).reqs u = s.reqs u := reqs_nvmfTcpReqGet_of_ne s
  have hself := reqs_nvmfTcpReqGet_self t s
  have hnew : ∀ {e : TcpEffect}, e.request? = some s.arrivals → e ∉ s.log := fun he hlog =>
    lt_irrefl _ (h.taken _ hlog _ he)
  refine { h with
    taken := fun e he k hk => Nat.lt_succ_of_lt (h.taken e he k hk),
    unanswered := fun u hu hr => ?_,
    trusted := fun u hu hr => ?_, noted := fun u hu hr hk => ?_,
    owed := fun hactive k hk => (h.owed hactive k hk).imp_right ?_ }
  · by_cases hut : u = t
    · rw [hut, hself]
      exact ⟨fun fuse => hnew rfl, fun fuse st => hnew rfl⟩
    · rw [hsame hut] at hr ⊢
      exact h.unanswered u (hmem hut hu) hr
  · by_cases hut : u = t
    · rw [hut, hself]
      exact hnew rfl
    · rw [hsame hut] at hr ⊢
      exact h.trusted u (hmem hut hu) hr
  · by_cases hut : u = t
    · rw [hut, hself] at hk
      exact absurd hk (hnew rfl)
    · rw [hsame hut] at hr hk ⊢
      exact h.noted u (hmem hut hu) hr hk
  · rintro ⟨u, hu, harr, hr⟩
    have hut : u ≠ t := fun he => ht (he ▸ hu)
    refine ⟨u, List.mem_append_left _ hu, ?_⟩
    rw [hsame hut]
    exact ⟨harr, hr⟩

theorem checkFusedOrdering (h : Untainted s) (hn : Named s) (hactive : s.active = true)
    (hfirst : ∀ u, s.fusedFirst = some u → (s.reqs u).state = .readyToExecute → u ∈ s.working) :
    Untainted (nvmfTcpCheckFusedOrdering Q t s) := by
  have hnote : ∀ {s' : TcpQpair}, Untainted s' → Untainted (noteFused t s') := by
    intro s' h'
    unfold noteFused
    split
    · exact h'.around s'.recv s'.hdr s'.cmd s'.pending _ s'.pdus
    · exact h'.setReq_same rfl rfl fun _ => ⟨rfl, rfl⟩
    · exact h'
  unfold nvmfTcpCheckFusedOrdering
  split
  · exact hnote h
  · rename_i u hu
    split_ifs with hfuse
    · have hlink : Untainted (s.setReq u fun r => { r with fusedPair := some t }) :=
        h.setReq_same rfl rfl fun _ => ⟨rfl, rfl⟩
      exact (hlink.setReq_same (t := t) (f := fun r => { r with fusedPair := some u })
        rfl rfl fun _ => ⟨rfl, rfl⟩).around s.recv s.hdr s.cmd s.pending none s.pdus
    · refine hnote ?_
      rw [failFirst_eq hactive hfuse]
      refine around ?_ _ _ _ _ none _
      split_ifs with hready
      · have huw := hfirst u hu hready
        refine h.answer hn huw rfl fun hmis => absurd hmis (h.trusted u huw ?_)
        exact .inr (.inr (.inl hready))
      · exact h.setReq_same rfl rfl fun _ => ⟨rfl, rfl⟩
    · exact hnote h

/-- A command is taken over. -/
theorem receive (h : Untainted s) (hn : Named s) (ht : t ∉ s.working) (hactive : s.active = true)
    (hfirst : ∀ u, s.fusedFirst = some u → (s.reqs u).state = .readyToExecute → u ∈ s.working) :
    Untainted (receive Q t s) := by
  have hget : Untainted (((nvmfTcpReqGet t s).setReq t fun r => { r with cmd := s.cmd }).emit
      (.arrive s.arrivals s.cmd.fuse)) := by
    refine emit ((h.get ht).setReq_same rfl rfl fun _ => ⟨rfl, rfl⟩) rfl fun k hk => ?_
    cases hk
    exact Nat.lt_succ_self _
  have hset : SameNames (nvmfTcpReqGet t s) (((nvmfTcpReqGet t s).setReq t fun r =>
      { r with cmd := s.cmd }).emit (.arrive s.arrivals s.cmd.fuse)) := .emit (.setReq rfl)
  refine hget.checkFusedOrdering (hset.named (hn.get ht)) hactive fun u hu hs => ?_
  rw [TcpQpair.reqs_emit, TcpQpair.reqs_setReq] at hs
  by_cases hut : u = t
  · rw [hut]
    exact List.mem_append_right _ (List.mem_singleton_self t)
  · rw [if_neg hut, reqs_nvmfTcpReqGet_of_ne s hut] at hs
    exact List.mem_append_left _ (hfirst u hu hs)

/-- A response is out, and its request is free. -/
theorem free (h : Untainted s) (hs : (s.reqs t).state = .transferringC2h) :
    Untainted (nvmfTcpReqPut t (NdpHeaan.giveUp Q t (s.setReq t fun r =>
      { r with pdu := none, state := .completed }))) := by
  have hset : Untainted (s.setReq t fun r => { r with pdu := none, state := .completed }) := by
    refine h.setReq_past rfl ?_ ?_ fun hr => absurd hr ?_ <;>
      simp [TcpReq.Open, TcpReq.Trusted, TcpReq.TakesData, hs]
  have hdone := (giveUp_self (Q := Q) (t := t) (s := s.setReq t fun r =>
    { r with pdu := none, state := .completed }) (by simp) (by simp)).state
  refine put (hset.giveUp ?_) ?_
  · simp [TcpReq.TakesData]
  · simp [TcpReq.TakesData, hdone]

/-- A request has all of its data, and none of it is known to be wrong. -/
theorem dataReady (h : Untainted s) (hn : Named s) (ht : t ∈ s.working)
    (hs : (s.reqs t).state = .transferringH2c)
    (hstatus : (s.reqs t).status ≠ .transientTransportError) :
    Untainted ((s.setReq t fun r => { r with state := .readyToExecute }).emit
      (.dataReady (s.reqs t).arrival (s.reqs t).received (s.reqs t).length.toNat)) := by
  have hright : .mismatch (s.reqs t).arrival ∉ s.log := fun hmis =>
    hstatus (h.noted t ht (.inl hs) hmis).1
  refine emit (h.setReq_trusted rfl (.inr (.inr (.inl (.inl hs)))) hright) rfl fun k hk => ?_
  cases hk
  exact hn.young t ht

/-- **Every move keeps a request with wrong data from being executed.** -/
theorem move {s' : TcpQpair} (hn : Named s) (h : Untainted s) (hm : Move Q True False s s') :
    Untainted s' := by
  cases hm with
  | @quiet active recv hdr cmd pending log hactive hlog =>
    have hlog' : Untainted { s with log } := by
      rcases hlog with rfl | ⟨e, he, rfl⟩
      · exact h
      · exact h.emit_other he
    rcases hactive with rfl | ⟨-, rfl⟩
    · exact hlog'.around recv hdr cmd pending s.fusedFirst s.pdus
    · exact hlog'.disconnect.around recv hdr cmd pending s.fusedFirst s.pdus
  | touch ht hf => exact h.setReq_same (by rw [hf]) (by rw [hf]) fun hr => absurd hr ht
  | setPdu t pdu => exact h.setReq_same rfl rfl fun _ => ⟨rfl, rfl⟩
  | count t n => exact h.setReq_same rfl rfl fun _ => ⟨rfl, rfl⟩
  | receive hfree ht hactive hfuse hfirst => exact h.receive hn ht hactive hfirst
  | wait ht hs => exact h.setReq_trusted rfl (.inl hs) (h.trusted _ ht (.inl hs))
  | askData ht hs hoffset hpdus =>
    exact h.setReq_trusted rfl (.inr (.inl hs)) (h.trusted _ ht (.inr (.inl hs)))
  | @takeCapsule t pdo ht hs hoffset hpdus =>
    have hset : Untainted (s.setReq t fun r => { r with state := .transferringH2c }) :=
      h.setReq_trusted rfl (.inr (.inl hs)) (h.trusted _ ht (.inr (.inl hs)))
    exact hset.around s.recv s.hdr s.cmd s.pending s.fusedFirst _
  | ack ht hs =>
    refine h.setReq rfl (fun _ => .inr (.inr (.inl (.inr hs)))) (fun _ hr => ?_)
      (fun _ _ hmis => h.noted _ ht (.inr hs) hmis) fun _ _ _ _ => .inl rfl
    simp [TcpReq.Trusted] at hr
  | accept hslot ht hcapsule hc hfed hpdus =>
    refine emit (h.around s.recv s.hdr s.cmd s.pending s.fusedFirst _) rfl fun k hk => ?_
    cases hk
    exact hn.young _ ht
  | @mismatch p ht hlen hc =>
    refine h.mismatch hn ht hc.takesData fun hzero => hlen ?_
    have hle := hc.le
    rw [hzero] at hle
    exact UInt32.toNat_inj.mp (Nat.eq_zero_of_add_eq_zero_left (Nat.le_zero.mp hle))
  | dropCapsule hcapsule => exact h.around s.recv s.hdr s.cmd s.pending s.fusedFirst _
  | takeData hp ht hcapsule hc =>
    exact (h.around s.recv s.hdr s.cmd s.pending s.fusedFirst _).setReq_same rfl rfl
      fun _ => ⟨rfl, rfl⟩
  | @run t ht hs hpair =>
    have hset : Untainted (s.setReq t fun r => { r with state := .readyToExecute }) :=
      h.setReq_trusted rfl (hs.imp_right .inl) (h.trusted _ ht (hs.imp_right .inl))
    exact hset.readyToExecute ((SameNames.setReq rfl).named hn) ht (by simp) (hpair.setReq ht rfl)
  | @runData t ht hs hall hstatus hpair =>
    have hpair' : (s.setReq t fun r => { r with state := .readyToExecute }).PartnerWorks t :=
      hpair.setReq ht rfl
    exact (h.dataReady hn ht hs (hstatus.resolve_left id)).readyToExecute
      ((SameNames.emit (.setReq rfl)).named hn) ht (by simp) hpair'
  | @answer t f ht hf hanswer =>
    refine h.answer hn ht (by rw [hf]) fun hmis => ?_
    generalize (f (s.reqs t)).status = status at hanswer
    cases hanswer with
    | invalidOpcode hs => exact absurd hmis (h.trusted t ht (.inl hs))
    | aborted hs => exact absurd hmis (h.trusted t ht (.inr (.inl hs)))
    | corrupt hs hstatus => rfl
    | executed sc hs => exact absurd hmis (h.trusted t ht (.inr (.inr (.inr hs))))
  | free ht hs hfirst hpair => exact h.free hs
  | get ha hfree ht => exact h.get ht
  | slide ha hactive hstate hf =>
    refine h.setReq_past (by rw [hf]) ?_ ?_ hactive <;> rcases hstate with hs | hs | hs <;>
      simp [TcpReq.Open, TcpReq.Trusted, TcpReq.TakesData, hs]
  | stall ha hactive ht hs hall =>
    refine emit (h.setReq_past rfl ?_ ?_ fun _ => hactive) rfl fun k hk => ?_
    · simp [TcpReq.Open, TcpReq.TakesData]
    · simp [TcpReq.Trusted]
    · cases hk
      exact hn.young _ ht
  | release ha hs => exact h.giveUp (by simp [TcpReq.TakesData, hs])
  | fail t ha => exact h.setReq_same rfl rfl fun _ => ⟨rfl, rfl⟩
  | rerun ha ht hs hpair => exact h.readyToExecute hn ht hs hpair
  | unlink ha hs hpair => exact h.setReq_same rfl rfl fun _ => ⟨rfl, rfl⟩
  | put ha hs hpair => exact h.put (by simp [TcpReq.TakesData, hs])

theorem init (Q : QpCtx) (below : TcpReq) : Untainted (.init Q below) where
  exec := fun _ _ hmem => absurd hmem List.not_mem_nil
  respond := fun _ _ _ hmem => absurd hmem List.not_mem_nil
  taken := fun _ hmem => absurd hmem List.not_mem_nil
  unanswered := fun _ ht => absurd ht List.not_mem_nil
  trusted := fun _ ht => absurd ht List.not_mem_nil
  noted := fun _ ht => absurd ht List.not_mem_nil
  owed := fun _ _ hmem => absurd hmem List.not_mem_nil

end Untainted

/-- A request whose data was wrong is known to be so, and waits for the rest of it, or for its R2T
to be sent. -/
def StillWaits (k : ℕ) (s : TcpQpair) : Prop :=
  ∃ t ∈ s.working, (s.reqs t).arrival = k ∧ (s.reqs t).status = .transientTransportError ∧
    ((s.reqs t).state = .awaitingR2tAck ∨
      (s.reqs t).state = .transferringH2c ∧ (s.reqs t).h2cOffset ≠ (s.reqs t).length)

/-- **Wrong data is never executed, and its request is answered with
COMMAND_TRANSIENT_TRANSPORT_ERROR**, for every division of the data and every interleaving, as long
as each H2CData PDU is in order when it comes in and no R2T is known to be sent too late. -/
theorem wrongData_withheld {Q : QpCtx} {below : TcpReq} {s : TcpQpair}
    (h : (tcpSys Q below).Reach (fun s e => InOrder s e ∧ AckedInTime s e) s) :
    Withheld s.log ∧
      (s.active = true → ∀ k, .mismatch k ∈ s.log → ToldWrong k s.log ∨ StillWaits k s) := by
  obtain ⟨hsound, hs⟩ : Sound Q s ∧ Untainted s :=
    keep_reach (A := True) (B := False) (fun _ _ _ hg => ⟨hg.1, .inl trivial, .inr hg.2⟩)
      (.init Q below) (fun _ _ hn hs hm => .move hn hs hm) h
  refine ⟨hs.toWithheld, fun hactive k hmis => (hs.owed hactive k hmis).imp_right ?_⟩
  rintro ⟨t, ht, rfl, hr⟩
  obtain ⟨hstatus, hlength⟩ := hs.noted t ht hr hmis
  refine ⟨t, ht, rfl, hstatus, ?_⟩
  rcases hr with hr | hr
  · have hrest := hsound.rest t ht (Set.notMem_empty t)
    simp only [TcpReq.AtRest, hr] at hrest
    exact .inr ⟨hr, fun hall => hlength (hrest.2.2 hall)⟩
  · exact .inl hr

/-- A WRITE of 4096 bytes whose data arrives wrong once its R2T is sent. -/
def wrongDataRun : List TcpEvent :=
  [.capsule bareHdr (sampleWrite 4096) {}, .writeDone 1 false, .h2cData 0 1 0 4096,
   .dataDone ⟨1, false, 0, 0, 4096⟩ false]

theorem wrongDataRun_withheld :
    ∃ s, (tcpSys (sampleQpair true) {}).Reach (fun s e => InOrder s e ∧ AckedInTime s e) s ∧
      .mismatch 0 ∈ s.log ∧ Withheld s.log ∧
      (s.active = true → ∀ k, .mismatch k ∈ s.log → ToldWrong k s.log ∨ StillWaits k s) := by
  have hask := (Sys.Reach.init (M := tcpSys (sampleQpair true) {})
    (P := fun s e => InOrder s e ∧ AckedInTime s e)).step (l := wrongDataRun[0])
      ⟨trivial, trivial⟩ rfl
  have hsent := hask.step (l := wrongDataRun[1]) ⟨trivial, fun _ => by decide⟩ rfl
  have htaken := hsent.step (l := wrongDataRun[2])
    ⟨⟨by decide, by decide, by decide⟩, trivial⟩ rfl
  have hdone := htaken.step (l := wrongDataRun[3]) ⟨trivial, trivial⟩ rfl
  exact ⟨_, hdone, by decide, wrongData_withheld hdone⟩

/-- The same data, before the R2T is known to be sent. -/
def lateAckRun : List TcpEvent :=
  [.capsule bareHdr (sampleWrite 4096) {}, .h2cData 0 1 0 4096,
   .dataDone ⟨1, false, 0, 0, 4096⟩ false, .writeDone 1 false]

/-- The data twice, the second time wrong. -/
def secondCopyRun : List TcpEvent :=
  [.capsule bareHdr (sampleWrite 4096) {}, .writeDone 1 false, .h2cData 0 1 0 4096,
   .h2cData 0 1 0 4096, .dataDone ⟨1, false, 0, 0, 4096⟩ true,
   .dataDone ⟨1, false, 0, 0, 4096⟩ false]

/-- **Wrong data is executed**: once all of it came in before the R2T was known to be sent, and if
it is accepted twice. -/
theorem wrongData_executed :
    (∃ s, (tcpSys (sampleQpair true) {}).run (.init (sampleQpair true) {}) lateAckRun = some s ∧
      .mismatch 0 ∈ s.log ∧ .exec 0 .none ∈ s.log) ∧
    ∃ s, (tcpSys (sampleQpair true) {}).run (.init (sampleQpair true) {}) secondCopyRun = some s ∧
      .mismatch 0 ∈ s.log ∧ .exec 0 .none ∈ s.log :=
  ⟨⟨_, rfl, by decide, by decide⟩, ⟨_, rfl, by decide, by decide⟩⟩

end NdpHeaan
