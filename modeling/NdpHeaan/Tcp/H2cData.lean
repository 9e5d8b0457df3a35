import Mathlib.Algebra.BigOperators.Group.List.Basic
import NdpHeaan.Tcp.Moves

/-!
# Tcp/H2cData — where the data of the host lands

`nvmf_tcp_h2c_data_hdr_handle` takes a PDU whose tag, offset and length fit a request.  While the
PDUs are in order (`InOrder`), what it takes for one request is consecutive from its first byte on
and ends inside it, and the request is executed with all of its data.  The three ways out of order
are three gaps of the checks: a tag of 0 is an index of -1, offset and length are added in 32 bits,
and the offset is only moved on once a digest has been computed.
-/

open Machinery

namespace NdpHeaan

/-! ## Ranges -/

/-- From `a` on, each range starts where the one before it ended. -/
def Consecutive : ℕ → List (ℕ × ℕ) → Prop
  | _, [] => True
  | a, (offset, len) :: ranges => offset = a ∧ Consecutive (a + len) ranges

/-- How many bytes the ranges are. -/
def rangesLen (ranges : List (ℕ × ℕ)) : ℕ := (ranges.map Prod.snd).sum

theorem consecutive_append : ∀ {ranges : List (ℕ × ℕ)} {a offset len : ℕ},
    Consecutive a (ranges ++ [(offset, len)]) ↔
      Consecutive a ranges ∧ offset = a + rangesLen ranges
  | [], a, offset, len => by simp [Consecutive, rangesLen]
  | (o, n) :: ranges, a, offset, len => by
      rw [List.cons_append, Consecutive, Consecutive, consecutive_append, and_assoc]
      simp [rangesLen, Nat.add_assoc]

/-- The range of an H2CData PDU of this request. -/
def TcpEffect.h2cRange? (k : ℕ) : TcpEffect → Option (ℕ × ℕ)
  | .h2cData _ k' datao dataLen _ _ => if k' = k then some (datao, dataLen) else none
  | _ => none

/-- The ranges accepted for a request. -/
def h2cRanges (k : ℕ) (log : List TcpEffect) : List (ℕ × ℕ) := log.filterMap (·.h2cRange? k)

/-- **The data of the host lands inside its own request.** -/
structure LandsInside (Q : QpCtx) (log : List TcpEffect) : Prop where
  /-- An accepted PDU refers to an element of `tqpair->reqs`. -/
  slot : ∀ slot k datao dataLen length iov,
    .h2cData slot k datao dataLen length iov ∈ log → 1 ≤ slot ∧ slot ≤ Q.resourceCount
  contained : ∀ slot k datao dataLen length iov,
    .h2cData slot k datao dataLen length iov ∈ log → datao + dataLen ≤ length
  inside : ∀ slot k datao dataLen length iov,
    .h2cData slot k datao dataLen length iov ∈ log → ∀ stale,
      ∃ pdu, nvmeTcpPduSetDataBuf stale iov datao dataLen = some pdu ∧ ∀ v ∈ pdu, v.Inside iov
  consecutive : ∀ k, Consecutive 0 (h2cRanges k log)
  ready : ∀ k received length, .dataReady k received length ∈ log → received = length

/-! ## What a run keeps -/

/-- How many bytes are out for a request in H2CData PDUs. -/
def h2cOut (t : ℕ) (pdus : List DataPdu) : ℕ :=
  ((pdus.filter fun p => p.slot = t ∧ p.inCapsule = false).map fun p => p.dataLen.toNat).sum

/-- The request has not asked for data yet. -/
def TcpReq.Early (r : TcpReq) : Prop := r.state = .new ∨ r.state = .needBuffer

/-- **What has been accepted for a request is what came in and what is out.** -/
structure Landed (Q : QpCtx) (s : TcpQpair) : Prop extends LandsInside Q s.log where
  fresh : ∀ k, s.arrivals ≤ k → h2cRanges k s.log = []
  early : ∀ t ∈ s.working, (s.reqs t).Early → h2cRanges (s.reqs t).arrival s.log = []
  total : ∀ t ∈ s.working, (s.reqs t).TakesData →
    rangesLen (h2cRanges (s.reqs t).arrival s.log) =
      (s.reqs t).h2cOffset.toNat + h2cOut t s.pdus

/-- The effect says nothing about data. -/
def TcpEffect.offData : TcpEffect → Bool
  | .h2cData .. | .dataReady .. => false
  | _ => true

theorem h2cRanges_append (k : ℕ) (log : List TcpEffect) (e : TcpEffect) :
    h2cRanges k (log ++ [e]) = h2cRanges k log ++ (e.h2cRange? k).toList := by
  cases he : e.h2cRange? k <;> simp [h2cRanges, he]

theorem h2cRanges_data_self (slot k datao dataLen length : ℕ) (iov : List ℕ)
    (log : List TcpEffect) : h2cRanges k (log ++ [.h2cData slot k datao dataLen length iov]) =
      h2cRanges k log ++ [(datao, dataLen)] := by
  rw [h2cRanges_append, TcpEffect.h2cRange?, if_pos rfl, Option.toList_some]

theorem h2cRanges_data_of_ne {k k' : ℕ} (hk : k ≠ k') (slot datao dataLen length : ℕ)
    (iov : List ℕ) (log : List TcpEffect) :
    h2cRanges k (log ++ [.h2cData slot k' datao dataLen length iov]) = h2cRanges k log := by
  rw [h2cRanges_append, TcpEffect.h2cRange?, if_neg hk.symm, Option.toList_none, List.append_nil]

theorem h2cRange?_of_ne {e : TcpEffect} (he : e.offData = true) (k : ℕ) : e.h2cRange? k = none := by
  cases e <;> simp [TcpEffect.offData] at he <;> rfl

theorem h2cOut_eq_zero {t : ℕ} {pdus : List DataPdu}
    (h : ∀ p ∈ pdus, p.slot = t → p.dataLen = 0) : h2cOut t pdus = 0 := by
  refine List.sum_eq_zero fun n hn => ?_
  obtain ⟨p, hp, rfl⟩ := List.mem_map.mp hn
  obtain ⟨hp, hmem⟩ := List.mem_filter.mp hp
  rw [h p hp (of_decide_eq_true hmem).1]
  rfl

theorem h2cOut_append (t : ℕ) (pdus : List DataPdu) (p : DataPdu) :
    h2cOut t (pdus ++ [p]) = h2cOut t pdus +
      if p.slot = t ∧ p.inCapsule = false then p.dataLen.toNat else 0 := by
  simp only [h2cOut, List.filter_append, List.map_append, List.sum_append]
  split_ifs with hp <;> simp [hp]

theorem h2cOut_erase {t : ℕ} {pdus : List DataPdu} {p : DataPdu} (hp : p ∈ pdus) :
    h2cOut t pdus = (if p.slot = t ∧ p.inCapsule = false then p.dataLen.toNat else 0) +
      h2cOut t (pdus.erase p) := by
  have hperm := ((List.perm_cons_erase hp).filter fun q =>
    q.slot = t ∧ q.inCapsule = false).map fun q => q.dataLen.toNat
  rw [h2cOut, hperm.sum_eq]
  split_ifs with hmem <;> simp [h2cOut, hmem]

namespace LandsInside

variable {Q : QpCtx} {log : List TcpEffect} {e : TcpEffect}

theorem append (h : LandsInside Q log) (he : e.offData = true) : LandsInside Q (log ++ [e]) := by
  have hold : ∀ {e'}, e' ∈ log ++ [e] → e'.offData = false → e' ∈ log := by
    intro e' hmem hoff
    refine (List.mem_append.mp hmem).resolve_right fun hlast => ?_
    rw [List.mem_singleton.mp hlast, he] at hoff
    cases hoff
  exact {
    slot := fun _ _ _ _ _ _ hmem => h.slot _ _ _ _ _ _ (hold hmem rfl)
    contained := fun _ _ _ _ _ _ hmem => h.contained _ _ _ _ _ _ (hold hmem rfl)
    inside := fun _ _ _ _ _ _ hmem => h.inside _ _ _ _ _ _ (hold hmem rfl)
    consecutive := fun k => by
      rw [h2cRanges_append, h2cRange?_of_ne he]
      simpa using h.consecutive k
    ready := fun _ _ _ hmem => h.ready _ _ _ (hold hmem rfl) }

/-- A PDU whose bytes follow those before it, and are all bytes of its request. -/
theorem append_data {slot k datao dataLen : ℕ} {length : UInt32} {iov : List ℕ}
    (h : LandsInside Q log) (hslot : slot ∈ Q.slots)
    (hrange : datao + dataLen ≤ length.toNat) (hsum : iov.sum = length.toNat)
    (hnext : rangesLen (h2cRanges k log) = datao) :
    LandsInside Q (log ++ [.h2cData slot k datao dataLen length.toNat iov]) := by
  have hlast : ∀ {e}, e ∈ log ++ [.h2cData slot k datao dataLen length.toNat iov] → e ∈ log ∨
      e = .h2cData slot k datao dataLen length.toNat iov := fun hmem =>
    (List.mem_append.mp hmem).imp_right List.mem_singleton.mp
  refine {
    slot := fun _ _ _ _ _ _ hmem => ?_, contained := fun _ _ _ _ _ _ hmem => ?_,
    inside := fun _ _ _ _ _ _ hmem stale => ?_, consecutive := fun k' => ?_,
    ready := fun _ _ _ hmem => ?_ }
  · rcases hlast hmem with hmem | hmem
    · exact h.slot _ _ _ _ _ _ hmem
    · cases hmem
      have hbounds := List.mem_range'_1.mp hslot
      omega
  · rcases hlast hmem with hmem | hmem
    · exact h.contained _ _ _ _ _ _ hmem
    · cases hmem
      exact hrange
  · rcases hlast hmem with hmem | hmem
    · exact h.inside _ _ _ _ _ _ hmem stale
    · cases hmem
      refine inside_setDataBuf (fun n hn => ?_) (hsum ▸ hrange)
      exact (List.single_le_sum (fun _ _ => Nat.zero_le _) n hn).trans_lt
        (hsum ▸ UInt32.toNat_lt _)
  · by_cases hk : k' = k
    · rw [hk, h2cRanges_data_self, consecutive_append, hnext, Nat.zero_add]
      exact ⟨h.consecutive k, rfl⟩
    · rw [h2cRanges_data_of_ne hk]
      exact h.consecutive k'
  · rcases hlast hmem with hmem | hmem
    · exact h.ready _ _ _ hmem
    · cases hmem

end LandsInside

namespace Landed

variable {Q : QpCtx} {s : TcpQpair} {t : ℕ} {f : TcpReq → TcpReq}

theorem emit {e : TcpEffect} (h : Landed Q s) (he : e.offData = true) : Landed Q (s.emit e) := by
  have hsame : ∀ k, h2cRanges k (s.log ++ [e]) = h2cRanges k s.log := fun k => by
    rw [h2cRanges_append, h2cRange?_of_ne he]
    exact List.append_nil _
  exact { h.toLandsInside.append he with
    fresh := fun k hk => (hsame k).trans (h.fresh k hk)
    early := fun u hu hr => (hsame _).trans (h.early u hu hr)
    total := fun u hu hr => (congrArg rangesLen (hsame _)).trans (h.total u hu hr) }

/-- A request changes, and so does what is out for it: the bytes that came in and those that are out
are as many as before, or none. -/
theorem setReq_pdus (h : Landed Q s) (pdus : List DataPdu)
    (harrival : (f (s.reqs t)).arrival = (s.reqs t).arrival)
    (hearly : (f (s.reqs t)).Early → (s.reqs t).Early)
    (hothers : ∀ u ≠ t, h2cOut u pdus = h2cOut u s.pdus)
    (htakes : (f (s.reqs t)).TakesData →
      (s.reqs t).TakesData ∧ (f (s.reqs t)).h2cOffset.toNat + h2cOut t pdus =
        (s.reqs t).h2cOffset.toNat + h2cOut t s.pdus ∨
      (s.reqs t).Early ∧ (f (s.reqs t)).h2cOffset.toNat + h2cOut t pdus = 0) :
    Landed Q ({ s with pdus }.setReq t f) := by
  have harr : ∀ u, (({ s with pdus }.setReq t f).reqs u).arrival = (s.reqs u).arrival :=
    TcpQpair.field_setReq TcpReq.arrival harrival
  refine { h with early := fun u hu hr => ?_, total := fun u hu hr => ?_ }
  · rw [harr]
    refine h.early u hu ?_
    rw [TcpQpair.reqs_setReq] at hr
    split_ifs at hr with hut
    · exact hut ▸ hearly hr
    · exact hr
  · rw [harr]
    by_cases hut : u = t
    · subst hut
      rw [TcpQpair.reqs_setReq_self] at hr ⊢
      rcases htakes hr with ⟨htakes, hsum⟩ | ⟨hr, hsum⟩
      · exact (h.total u hu htakes).trans hsum.symm
      · exact (congrArg rangesLen (h.early u hu hr)).trans hsum.symm
    · rw [TcpQpair.reqs_setReq_of_ne _ _ _ hut] at hr ⊢
      exact (h.total u hu hr).trans (congrArg _ (hothers u hut).symm)

/-- A request that asks for data has none yet, and none is out for it. -/
theorem setReq (h : Landed Q s) (harrival : (f (s.reqs t)).arrival = (s.reqs t).arrival)
    (hearly : (f (s.reqs t)).Early → (s.reqs t).Early)
    (htakes : (f (s.reqs t)).TakesData →
      (s.reqs t).TakesData ∧ (f (s.reqs t)).h2cOffset = (s.reqs t).h2cOffset ∨
      (s.reqs t).Early ∧ (f (s.reqs t)).h2cOffset = 0 ∧ h2cOut t s.pdus = 0) :
    Landed Q (s.setReq t f) := by
  refine h.setReq_pdus s.pdus harrival hearly (fun _ _ => rfl) fun hr => ?_
  exact (htakes hr).imp (fun hr => ⟨hr.1, by rw [hr.2]⟩)
    fun hr => ⟨hr.1, by rw [hr.2.1, hr.2.2]; rfl⟩

/-- A request goes to where it takes no data. -/
theorem setReq_past (h : Landed Q s) (harrival : (f (s.reqs t)).arrival = (s.reqs t).arrival)
    (hearly : ¬ (f (s.reqs t)).Early) (htakes : ¬ (f (s.reqs t)).TakesData) :
    Landed Q (s.setReq t f) :=
  h.setReq harrival (fun hr => absurd hr hearly) fun hr => absurd hr htakes

/-- A request stays where it is. -/
theorem setReq_same (h : Landed Q s) (harrival : (f (s.reqs t)).arrival = (s.reqs t).arrival)
    (hstate : (f (s.reqs t)).state = (s.reqs t).state)
    (hoffset : (f (s.reqs t)).h2cOffset = (s.reqs t).h2cOffset) : Landed Q (s.setReq t f) :=
  h.setReq harrival (fun hr => by rwa [TcpReq.Early, hstate] at hr)
    fun hr => .inl ⟨by rwa [TcpReq.TakesData, hstate] at hr, hoffset⟩

theorem around (h : Landed Q s) (active : Bool) (recv : RecvState) (hdr : RxHdr) (cmd : TcpCmd)
    (pending : List Waiter) (fusedFirst : Option ℕ) :
    Landed Q { s with active, recv, hdr, cmd, pending, fusedFirst } :=
  { h with }

theorem requestTransferOut (h : Landed Q s) : Landed Q (requestTransferOut Q t s) :=
  .emit (h.setReq_past rfl (by simp [TcpReq.Early]) (by simp [TcpReq.TakesData])) rfl

theorem execReq (h : Landed Q s) : Landed Q (execReq t s) :=
  .emit (h.setReq_past rfl (by simp [TcpReq.Early]) (by simp [TcpReq.TakesData])) rfl

theorem unpair {u : ℕ} (h : Landed Q s) : Landed Q (unpair t u s) := by
  have hu : Landed Q (s.setReq u fun r => { r with fusedPair := none }) := h.setReq_same rfl rfl rfl
  exact hu.setReq_same rfl rfl rfl

theorem readyToExecute (h : Landed Q s) : Landed Q (readyToExecute Q t s) := by
  unfold NdpHeaan.readyToExecute
  dsimp only
  split_ifs
  · exact h.execReq
  · exact .requestTransferOut (h.setReq_same rfl rfl rfl)
  · split
    · exact h
    · split_ifs
      · exact h
      · split
        · exact h.execReq.execReq.unpair
        · exact h.execReq.execReq.unpair
        · exact h.execReq

theorem giveUp (h : Landed Q s) : Landed Q (giveUp Q t s) := by
  have hrelease : Landed Q (releaseBuffers Q t s) := by
    unfold releaseBuffers
    dsimp only
    split_ifs
    · exact .emit (h.setReq_same rfl rfl rfl) rfl
    · exact h.emit rfl
    · exact h
  exact hrelease.setReq_same rfl rfl rfl

theorem put (h : Landed Q s) : Landed Q (nvmfTcpReqPut t s) := by
  have hfree : Landed Q (s.setReq t fun r => { r with state := .free }) :=
    h.setReq_past rfl (by simp [TcpReq.Early]) (by simp [TcpReq.TakesData])
  have hold : ∀ {u}, u ∈ s.working.erase t → u ∈ s.working := List.mem_of_mem_erase
  exact { hfree with
    early := fun u hu => hfree.early u (hold hu)
    total := fun u hu => hfree.total u (hold hu) }

/-- A slot that is taken gets a number of its own. -/
theorem get (h : Landed Q s) : Landed Q (nvmfTcpReqGet t s) := by
  have hmem : ∀ {u}, u ≠ t → u ∈ (nvmfTcpReqGet t s).working → u ∈ s.working := fun hut hu =>
    (List.mem_append.mp hu).resolve_right fun he => hut (List.mem_singleton.mp he)
  have hsame : ∀ {u}, u ≠ t → (nvmfTcpReqGet t s).reqs u = s.reqs u := reqs_nvmfTcpReqGet_of_ne s
  have hself := reqs_nvmfTcpReqGet_self t s
  refine { h with
    fresh := fun k hk => ?_, early := fun u hu hr => ?_, total := fun u hu hr => ?_ }
  · exact h.fresh k (Nat.le_of_succ_le hk)
  · by_cases hut : u = t
    · rw [hut, hself]
      exact h.fresh s.arrivals le_rfl
    · rw [hsame hut] at hr ⊢
      exact h.early u (hmem hut hu) hr
  · by_cases hut : u = t
    · rw [hut, hself] at hr
      rcases hr with hr | hr <;> cases hr
    · rw [hsame hut] at hr ⊢
      exact h.total u (hmem hut hu) hr

theorem checkFusedOrdering (h : Landed Q s) (hactive : s.active = true) :
    Landed Q (nvmfTcpCheckFusedOrdering Q t s) := by
  have hnote : ∀ {s' : TcpQpair}, Landed Q s' → Landed Q (noteFused t s') := by
    intro s' h'
    unfold noteFused
    split
    · exact h'.around s'.active s'.recv s'.hdr s'.cmd s'.pending _
    · exact h'.setReq_same rfl rfl rfl
    · exact h'
  unfold nvmfTcpCheckFusedOrdering
  split
  · exact hnote h
  · rename_i u hfirst
    split_ifs with hfuse
    · have hlink : Landed Q (s.setReq u fun r => { r with fusedPair := some t }) :=
        h.setReq_same rfl rfl rfl
      exact (hlink.setReq_same (t := t) (f := fun r => { r with fusedPair := some u })
        rfl rfl rfl).around s.active s.recv s.hdr s.cmd s.pending none
    · refine hnote ?_
      rw [failFirst_eq hactive hfuse]
      refine around ?_ _ _ _ _ _ none
      split_ifs
      · exact .requestTransferOut (h.setReq_same rfl rfl rfl)
      · exact h.setReq_same rfl rfl rfl
    · exact hnote h

theorem setPdus (h : Landed Q s) {pdus : List DataPdu}
    (hout : ∀ t, h2cOut t pdus = h2cOut t s.pdus) : Landed Q { s with pdus } :=
  { h with total := fun u hu hr => (h.total u hu hr).trans (by rw [hout]) }

/-- A request has all of its data. -/
theorem emit_dataReady (h : Landed Q s) (k : ℕ) {received length : ℕ} (hall : received = length) :
    Landed Q (s.emit (.dataReady k received length)) := by
  have hsame : ∀ k', h2cRanges k' (s.log ++ [.dataReady k received length]) = h2cRanges k' s.log :=
    fun k' => by simp [h2cRanges_append, TcpEffect.h2cRange?]
  have hold : ∀ {e}, e ∈ s.log ++ [.dataReady k received length] →
      e ≠ .dataReady k received length → e ∈ s.log := fun hmem hne =>
    (List.mem_append.mp hmem).resolve_right fun hlast => hne (List.mem_singleton.mp hlast)
  exact {
    slot := fun _ _ _ _ _ _ hmem => h.slot _ _ _ _ _ _ (hold hmem nofun)
    contained := fun _ _ _ _ _ _ hmem => h.contained _ _ _ _ _ _ (hold hmem nofun)
    inside := fun _ _ _ _ _ _ hmem => h.inside _ _ _ _ _ _ (hold hmem nofun)
    consecutive := fun k' => by
      rw [TcpQpair.log_emit, hsame]
      exact h.consecutive k'
    ready := fun k' received' length' hmem => by
      rcases List.mem_append.mp hmem with hmem | hmem
      · exact h.ready k' received' length' hmem
      · cases List.mem_singleton.mp hmem
        exact hall
    fresh := fun k' hk' => (hsame k').trans (h.fresh k' hk')
    early := fun u hu hr => (hsame _).trans (h.early u hu hr)
    total := fun u hu hr => (congrArg rangesLen (hsame _)).trans (h.total u hu hr) }

/-- **A PDU is accepted from the byte on where the last one ended.** -/
theorem accept {p : DataPdu} (hn : Named s) (h : Landed Q s) (hslot : p.slot ∈ Q.slots)
    (ht : p.slot ∈ s.working) (hcapsule : p.inCapsule = false) (hc : (s.reqs p.slot).Carries p)
    (hfed : (s.reqs p.slot).Fed) (hpdus : ∀ q ∈ s.pdus, q.slot = p.slot → q.dataLen = 0) :
    Landed Q ({ s with pdus := s.pdus ++ [p] }.emit
      (.h2cData p.slot (s.reqs p.slot).arrival p.datao.toNat p.dataLen.toNat
        (s.reqs p.slot).length.toNat (s.reqs p.slot).iov)) := by
  have hrange : p.datao.toNat + p.dataLen.toNat ≤ (s.reqs p.slot).length.toNat := by
    rw [← hc.1]
    exact hc.le
  have hlen : rangesLen (h2cRanges (s.reqs p.slot).arrival s.log) = p.datao.toNat := by
    rw [h.total p.slot ht hc.takesData, h2cOut_eq_zero hpdus, hc.1, Nat.add_zero]
  have hne : ∀ {u}, u ∈ s.working → u ≠ p.slot → (s.reqs u).arrival ≠ (s.reqs p.slot).arrival :=
    fun hu hup he => hup (hn.distinct _ hu _ ht he)
  refine { h.toLandsInside.append_data hslot hrange hfed.1 hlen with
    fresh := fun k hk => ?_, early := fun u hu hr => ?_, total := fun u hu hr => ?_ }
  · rw [TcpQpair.log_emit, h2cRanges_data_of_ne]
    · exact h.fresh k hk
    · exact fun he => absurd (he ▸ hn.young p.slot ht) (Nat.not_lt.mpr hk)
  · have hup : u ≠ p.slot := by
      rintro rfl
      rcases hc.takesData with hs | hs <;> rcases hr with hr | hr <;>
        rw [TcpQpair.reqs_emit] at hr <;> simp [hs] at hr
    rw [TcpQpair.log_emit]
    exact (h2cRanges_data_of_ne (hne hu hup) ..).trans (h.early u hu hr)
  · change rangesLen (h2cRanges (s.reqs u).arrival _) =
      (s.reqs u).h2cOffset.toNat + h2cOut u (s.pdus ++ [p])
    rw [h2cOut_append]
    by_cases hup : u = p.slot
    · subst hup
      rw [TcpQpair.log_emit, h2cRanges_data_self, if_pos ⟨rfl, hcapsule⟩, h2cOut_eq_zero hpdus,
        hc.1]
      simp [rangesLen] at hlen ⊢
      omega
    · rw [TcpQpair.log_emit, h2cRanges_data_of_ne (hne hu hup), if_neg fun hp => hup hp.1.symm,
        Nat.add_zero]
      exact h.total u hu hr

/-- The data of a PDU that was out comes in. -/
theorem takeData {p : DataPdu} (h : Landed Q s) (hp : p ∈ s.pdus) (hcapsule : p.inCapsule = false)
    (hc : (s.reqs p.slot).Carries p) :
    Landed Q ({ s with pdus := s.pdus.erase p }.setReq p.slot fun r =>
      { r with
        h2cOffset := r.h2cOffset + p.dataLen, received := r.received + p.dataLen.toNat }) := by
  refine h.setReq_pdus _ rfl (fun hr => hr) (fun u hu => ?_) fun hr => .inl ⟨hr, ?_⟩
  · rw [h2cOut_erase (t := u) hp, if_neg fun hmem => hu hmem.1.symm, Nat.zero_add]
  · rw [h2cOut_erase (t := p.slot) hp, if_pos ⟨rfl, hcapsule⟩, UInt32.toNat_add,
      Nat.mod_eq_of_lt (hc.le.trans_lt (UInt32.toNat_lt _)), Nat.add_assoc]

/-- **Every move of a qpair lands the data of the host where it belongs.** -/
theorem move {A B : Prop} {s' : TcpQpair} (hn : Named s) (h : Landed Q s) (hm : Move Q A B s s') :
    Landed Q s' := by
  cases hm with
  | quiet hactive hlog =>
    rcases hlog with rfl | ⟨e, he, rfl⟩
    · exact h.around _ _ _ _ _ s.fusedFirst
    · have hoff : e.offData = true := by cases e <;> simp [TcpEffect.request?] at he <;> rfl
      exact (h.emit hoff).around _ _ _ _ _ s.fusedFirst
  | touch ht hf => exact h.setReq_same (by rw [hf]) (by rw [hf]) (by rw [hf])
  | setPdu t pdu => exact h.setReq_same rfl rfl rfl
  | count t n => exact h.setReq_same rfl rfl rfl
  | receive hfree ht hactive hfuse hfirst =>
    refine checkFusedOrdering (.emit (h.get.setReq_same rfl rfl rfl) rfl) hactive
  | wait ht hs => exact h.setReq rfl (fun _ => .inl hs) (by simp [TcpReq.TakesData])
  | askData ht hs hoffset hpdus =>
    exact h.setReq rfl (by simp [TcpReq.Early]) fun _ =>
      .inr ⟨.inr hs, hoffset, h2cOut_eq_zero hpdus⟩
  | @takeCapsule t pdo ht hs hoffset hpdus =>
    refine h.setReq_pdus (f := fun r => { r with state := .transferringH2c })
      (s.pdus ++ [⟨t, true, pdo, 0, (s.reqs t).length⟩]) rfl (by simp [TcpReq.Early])
      (fun u hu => ?_) fun _ => .inr ⟨.inr hs, ?_⟩
    · simp [h2cOut_append]
    · simp [h2cOut_append, hoffset, h2cOut_eq_zero hpdus]
  | ack ht hs => exact h.setReq rfl (by simp [TcpReq.Early]) fun _ => .inl ⟨.inr hs, rfl⟩
  | accept hslot ht hcapsule hc hfed hpdus => exact accept hn h hslot ht hcapsule hc hfed hpdus
  | mismatch ht hlen hc => exact .emit (h.setReq_same rfl rfl rfl) rfl
  | @dropCapsule p hcapsule =>
    refine h.setPdus fun t => ?_
    by_cases hp : p ∈ s.pdus
    · rw [h2cOut_erase hp, if_neg (by simp [hcapsule]), Nat.zero_add]
    · rw [List.erase_of_not_mem hp]
  | takeData hp ht hcapsule hc => exact h.takeData hp hcapsule hc
  | run ht hs hpair =>
    exact readyToExecute (h.setReq_past rfl (by simp [TcpReq.Early]) (by simp [TcpReq.TakesData]))
  | runData ht hs hall hstatus hpair =>
    exact readyToExecute (emit_dataReady (h.setReq_past rfl (by simp [TcpReq.Early])
      (by simp [TcpReq.TakesData])) _ hall)
  | @answer t f ht hf hanswer =>
    obtain ⟨out, hout⟩ := requestTransferOut_setReq Q t s f
    rw [hout]
    refine .emit (h.setReq_past ?_ (by simp [TcpReq.Early]) (by simp [TcpReq.TakesData])) rfl
    rw [hf]
  | free ht hs hfirst hpair =>
    exact put (giveUp (h.setReq_past rfl (by simp [TcpReq.Early]) (by simp [TcpReq.TakesData])))
  | get ha hfree ht => exact h.get
  | slide ha hactive hstate hf =>
    refine h.setReq_past (by rw [hf]) ?_ ?_ <;> rcases hstate with hs | hs | hs <;>
      simp [TcpReq.Early, TcpReq.TakesData, hs]
  | stall ha hactive ht hs hall =>
    exact emit_dataReady (h.setReq_past rfl (by simp [TcpReq.Early]) (by simp [TcpReq.TakesData]))
      _ hall
  | release ha hs => exact h.giveUp
  | fail t ha => exact h.setReq_same rfl rfl rfl
  | rerun ha ht hs hpair => exact h.readyToExecute
  | unlink ha hs hpair => exact h.setReq_same rfl rfl rfl
  | put ha hs hpair => exact h.put

end Landed

theorem landed_init (Q : QpCtx) (below : TcpReq) : Landed Q (.init Q below) where
  slot := fun _ _ _ _ _ _ hmem => absurd hmem List.not_mem_nil
  contained := fun _ _ _ _ _ _ hmem => absurd hmem List.not_mem_nil
  inside := fun _ _ _ _ _ _ hmem => absurd hmem List.not_mem_nil
  consecutive := fun _ => trivial
  ready := fun _ _ _ hmem => absurd hmem List.not_mem_nil
  fresh := fun _ _ => rfl
  early := fun _ ht => absurd ht List.not_mem_nil
  total := fun _ ht => absurd ht List.not_mem_nil

/-- **The data of the host lands inside its own request in every run of a qpair, for every PDU of
the host and every interleaving, as long as each H2CData PDU is in order when it comes in.** -/
theorem hostData_landsInside {Q : QpCtx} {below : TcpReq} {s : TcpQpair}
    (h : (tcpSys Q below).Reach InOrder s) : LandsInside Q s.log := by
  have hlanded : Sound Q s ∧ Landed Q s :=
    keep_reach (A := True) (B := True) (fun _ _ _ hg => ⟨hg, .inl trivial, .inl trivial⟩)
      (landed_init Q below) (fun _ _ hn hs hm => .move hn hs hm) h
  exact hlanded.2.toLandsInside

/-- A WRITE of 8192 bytes and all of its data. -/
def wholeRun : List TcpEvent :=
  [.capsule bareHdr (sampleWrite 8192) {}, .writeDone 1 false, .h2cData 0 1 0 8192,
   .dataDone ⟨1, false, 0, 0, 8192⟩ true]

theorem wholeRun_landsInside :
    ∃ s, (tcpSys (sampleQpair false) {}).Reach InOrder s ∧
      .h2cData 1 0 0 8192 8192 [8192] ∈ s.log ∧ LandsInside (sampleQpair false) s.log := by
  have hask := (Sys.Reach.init (M := tcpSys (sampleQpair false) {}) (P := InOrder)).step
    (l := wholeRun[0]) trivial rfl
  have hsent := hask.step (l := wholeRun[1]) trivial rfl
  have htaken := hsent.step (l := wholeRun[2]) ⟨by decide, by decide, by decide⟩ rfl
  have hdone := htaken.step (l := wholeRun[3]) trivial rfl
  exact ⟨_, hdone, by decide, hostData_landsInside hdone⟩

/-- The second half of a WRITE of 8192 bytes, with a length that wraps around. -/
def wrappingRun : List TcpEvent :=
  [.capsule bareHdr (sampleWrite 8192) {}, .writeDone 1 false, .h2cData 0 1 0 4096,
   .dataDone ⟨1, false, 0, 0, 4096⟩ true, .h2cData 0 1 4096 0xFFFFF000]

/-- The first half of it, twice, before the digest of either is computed. -/
def repeatingRun : List TcpEvent :=
  [.capsule bareHdr (sampleWrite 8192) {}, .writeDone 1 false, .h2cData 0 1 0 4096,
   .h2cData 0 1 0 4096]

/-- **Data is accepted that does not belong**: 4294963200 bytes from byte 4096 of a request of 8192
on, and the same bytes a second time. -/
theorem h2cData_outside :
    (∃ s, (tcpSys (sampleQpair true) {}).run (.init (sampleQpair true) {}) wrappingRun = some s ∧
      ¬ LandsInside (sampleQpair true) s.log) ∧
    ∃ s, (tcpSys (sampleQpair true) {}).run (.init (sampleQpair true) {}) repeatingRun = some s ∧
      ¬ LandsInside (sampleQpair true) s.log := by
  refine ⟨⟨_, rfl, fun h => ?_⟩, ⟨_, rfl, fun h => ?_⟩⟩
  · have hrange := h.contained 1 0 4096 4294963200 8192 [8192] (by decide)
    omega
  · obtain ⟨-, hsecond, -⟩ := h.consecutive 0
    cases hsecond

end NdpHeaan
