import NdpHeaan.Tcp.WellFormed

/-!
# Tcp/Alike — the calls of the handlers are pinned by the bytes

    bytes ──one by one──▸ a state that waits ◂──the same state── bytes, in any pieces

With no capsule held, the passes without a read come to an end, and a run of whole calls has made
all of them.  A capsule that is held would go to its handler once more with every call of
`nvmf_tcp_sock_process`, and how many there are is up to the socket; a well-formed stream has none.
-/

open Machinery

namespace NdpHeaan

variable {D : DecodeCtx} {below : TcpReq} {d d' t : DecodeSt} {bs : List UInt8}
  {cs : List (List UInt8)}

/-! ## Passes without a read -/

theorem stops_of_not_works (h : ¬ d.rx.Works) : (decodeReader D).Stops d := fun _ =>
  if_neg fun hc => h hc.1

theorem stops_of_none (hnil : decodePass D [] d = none) (hready : d.rx.qp.recv ≠ .awaitPduReady)
    (hwaits : ¬ d.Waits) : (decodeReader D).Stops d
  | [] => hnil
  | _ :: _ => Option.eq_none_iff_forall_ne_some.mpr fun _ hs => hwaits (waits_of_pass hready hs)

/-- **Where no handler is due**, the receiver settles without a call. -/
theorem settles_of_idle (h : DecodeInv D d) (hreq : d.rx.qp.recv ≠ .awaitReq)
    (hpsh : d.rx.qp.recv = .awaitPduPsh → d.rx.raw.length < d.rx.qp.hdr.readLen) :
    ∃ t, (decodeReader D).Settles d t ∧ t.calls = d.calls := by
  by_cases hworks : d.rx.Works
  swap
  · exact ⟨d, .stops (stops_of_not_works hworks), rfl⟩
  by_cases hready : d.rx.qp.recv = .awaitPduReady
  · obtain ⟨hpass, hwaits⟩ := decodePass_ready h hworks hready
    refine ⟨d.begun, .pass (fun hw => ne_ready_of_waits hw hready) hpass (.waits hwaits), ?_⟩
    rw [DecodeSt.begun, if_pos hready]
  · refine ⟨d, .waits ⟨hworks, ?_⟩, rfl⟩
    obtain ⟨hquiescing, herror, -⟩ := hworks
    cases hrecv : d.rx.qp.recv with
    | awaitPduReady => exact hready hrecv
    | awaitPduCh => trivial
    | awaitPduPsh => exact hpsh hrecv
    | awaitReq => exact hreq hrecv
    | awaitPduPayload => trivial
    | quiescing => exact hquiescing hrecv
    | error => exact herror hrecv

/-- The state behind a pass in which a handler is called. -/
theorem recv_of_pass {s : RxSt} (hready : d.rx.qp.recv ≠ .awaitPduReady)
    (hs : decodePass D bs d = some d') (hpass : sockPass D.toRxCtx true {} bs d.rx = some s) :
    d'.rx.qp.recv = s.qp.recv := by
  obtain ⟨-, -, s', iov, hpass', -, rfl⟩ := decodePass_eq_some hs
  rw [begun_of_ne hready] at hpass' ⊢
  cases hpass.symm.trans hpass'
  split
  · rfl
  · exact recv_resume

/-- **A capsule is gone on from exactly if it is not held.** -/
theorem recv_of_capsule (h : DecodeInv D d) (hrecv : d.rx.qp.recv = .awaitReq)
    (hs : decodePass D bs d = some d') :
    (d'.rx.qp.recv = .awaitReq ↔ CapsuleHeld D.toRxCtx d.rx.qp.hdr d.rx.qp.cmd) ∧
      d'.rx.qp.recv ≠ .awaitPduPsh := by
  have hready : d.rx.qp.recv ≠ .awaitPduReady := by rw [hrecv]; nofun
  obtain ⟨hworks, -, s, iov, hpass, -⟩ := decodePass_eq_some hs
  rw [begun_of_ne hready] at hpass
  rw [recv_of_pass hready hs hpass]
  obtain ⟨u, rest, hu⟩ := List.exists_cons_of_ne_nil (h.free hrecv)
  cases passEnd hready hpass with
  | req _ _ hs =>
    subst hs
    have hmem := recv_capsule_cases (R := D.toRxCtx) (b := {}) hu hworks.2.2 hrecv
    rw [recv_handled]
    refine ⟨recv_capsule hu hworks.2.2 hrecv, fun hc => ?_⟩
    rw [hc] at hmem
    simp at hmem
  | short hshort =>
    rw [RxSt.Short, hrecv] at hshort
    exact hshort.elim
  | ch hr | psh hr | payload hr | idle hr => cases hrecv.symm.trans hr

theorem settles_of_capsule (h : DecodeInv D d) (hrecv : d.rx.qp.recv = .awaitReq)
    (hheld : ¬ CapsuleHeld D.toRxCtx d.rx.qp.hdr d.rx.qp.cmd) :
    ∃ t, (decodeReader D).Settles d t := by
  have hwaits : ¬ d.Waits := fun hw => by
    have hc := hw.2
    rw [hrecv] at hc
    exact hc
  cases hs : decodePass D [] d with
  | none => exact ⟨d, .stops (stops_of_none hs (by rw [hrecv]; nofun) hwaits)⟩
  | some d' =>
    obtain ⟨hreq, hpsh⟩ := recv_of_capsule h hrecv hs
    obtain ⟨t, ht, -⟩ := settles_of_idle (h.pass hs) (fun hc => hheld (hreq.mp hc))
      fun hc => absurd hc hpsh
    exact ⟨t, .pass hwaits hs ht⟩

/-! ## Runs -/

theorem DecodeInv.run (h : (decodeSys D below).run (.init D below) cs = some d) :
    DecodeInv D d :=
  Sys.run_invariant (I := DecodeInv D) (fun _ _ _ hI hs => hI.pass hs) (.init below) h

/-- **Every state of a run settles**, with no capsule held. -/
theorem settles_of_noneHeld (hheld : NoneHeld D below bs)
    (hrun : (decodeSys D below).run (.init D below) cs = some d) (hpre : cs.flatten <+: bs) :
    ∃ t, (decodeReader D).Settles d t := by
  have hI := DecodeInv.run hrun
  by_cases hworks : d.rx.Works
  swap
  · exact ⟨d, .stops (stops_of_not_works hworks)⟩
  by_cases hreq : d.rx.qp.recv = .awaitReq
  · exact settles_of_capsule hI hreq (hheld cs d hrun hpre hworks hreq)
  by_cases hfull : d.rx.qp.recv = .awaitPduPsh ∧ ¬ d.rx.raw.length < d.rx.qp.hdr.readLen
  swap
  · obtain ⟨t, ht, -⟩ := settles_of_idle hI hreq fun hr => not_not.mp fun hc => hfull ⟨hr, hc⟩
    exact ⟨t, ht⟩
  -- a header without anything behind the common one
  obtain ⟨hrecv, hge⟩ := hfull
  have hready : d.rx.qp.recv ≠ .awaitPduReady := by rw [hrecv]; nofun
  have hwaits : ¬ d.Waits := fun hw => by
    have hc := hw.2
    rw [hrecv] at hc
    exact hge hc
  cases hs : decodePass D [] d with
  | none => exact ⟨d, .stops (stops_of_none hs hready hwaits)⟩
  | some d' =>
    have hrun' := Sys.run_concat (l := []) hrun hs
    have hpre' : (cs ++ [[]]).flatten <+: bs := by simpa using hpre
    suffices ∃ t, (decodeReader D).Settles d' t from this.imp fun t ht => .pass hwaits hs ht
    by_cases hworks' : d'.rx.Works
    swap
    · exact ⟨d', .stops (stops_of_not_works hworks')⟩
    by_cases hreq' : d'.rx.qp.recv = .awaitReq
    · exact settles_of_capsule (hI.pass hs) hreq' (hheld _ d' hrun' hpre' hworks' hreq')
    obtain ⟨-, -, s, iov, hpass, -⟩ := decodePass_eq_some hs
    rw [begun_of_ne hready] at hpass
    have hnot : d'.rx.qp.recv ≠ .awaitPduPsh := by
      rw [recv_of_pass hready hs hpass]
      cases passEnd hready hpass with
      | short hshort =>
        rw [RxSt.Short, hrecv] at hshort
        exact absurd hshort hge
      | psh _ _ hs =>
        subst hs
        intro hc
        have hmem := recv_pshHandle (R := D.toRxCtx) (s := d.rx.readRaw [])
        rw [hc] at hmem
        simp at hmem
      | ch hr | req hr | payload hr | idle hr => cases hrecv.symm.trans hr
    obtain ⟨t, ht, -⟩ := settles_of_idle (hI.pass hs) hreq' fun hc => absurd hc hnot
    exact ⟨t, ht⟩

theorem WholeCalls.run (h : WholeCalls D below cs d) :
    (decodeSys D below).run (.init D below) cs = some d := by
  cases h with
  | none => rfl
  | last hrun hpass _ => exact Sys.run_concat hrun hpass

/-- **A call that has returned leaves no handler due**, with no capsule held. -/
theorem WholeCalls.settles (h : WholeCalls D below cs d) (hheld : NoneHeld D below bs)
    (hpre : cs.flatten <+: bs) : ∃ t, (decodeReader D).Settles d t ∧ t.calls = d.calls := by
  by_cases hworks : d.rx.Works
  swap
  · exact ⟨d, .stops (stops_of_not_works hworks), rfl⟩
  cases h with
  | none => exact settles_of_idle (.init below) nofun nofun
  | @last cs c d₀ _ hrun hpass hret =>
    have hI := DecodeInv.run hrun
    have hworks₀ := (decodePass_eq_some hpass).1
    -- the state it returned in is the one the pass began in
    have hsame : ∀ {r : RecvState}, d.rx.qp.recv = r → r ≠ .awaitPduCh → d₀.rx.qp.recv = r := by
      intro r hr hch
      rcases hret with hret | hret | hret
      · exact hret.symm.trans hr
      · exact absurd (hr.symm.trans hret.2) hch
      · exact absurd hworks hret
    refine settles_of_idle (hI.pass hpass) (fun hreq => ?_) fun hpsh => ?_
    · have hreq₀ := hsame hreq nofun
      have hpre₀ : cs.flatten <+: bs := (by simp : cs.flatten <+: (cs ++ [c]).flatten).trans hpre
      exact hheld cs d₀ hrun hpre₀ hworks₀ hreq₀ ((recv_of_capsule hI hreq₀ hpass).1.mp hreq)
    · have hpsh₀ := hsame hpsh nofun
      have hready : d₀.rx.qp.recv ≠ .awaitPduReady := by rw [hpsh₀]; nofun
      obtain ⟨-, hroom, s, iov, hsock, -⟩ := decodePass_eq_some hpass
      rw [begun_of_ne hready] at hroom hsock
      cases passEnd hready hsock with
      | short hshort =>
        obtain rfl := Option.some.inj ((decodePass_short hworks₀ hroom hshort).symm.trans hpass)
        have hwaits := (waits_part hworks₀ hshort).2
        rw [hpsh] at hwaits
        exact hwaits
      | psh _ _ hs =>
        have hmem := recv_pshHandle (R := D.toRxCtx) (s := d₀.rx.readRaw c)
        rw [← hs, ← recv_of_pass hready hpass hsock, hpsh] at hmem
        simp at hmem
      | ch hr | req hr | payload hr | idle hr => cases hpsh₀.symm.trans hr

/-- A run of whole calls is its bytes, one by one. -/
theorem WholeCalls.fed {n : DecodeSt} (h : WholeCalls D below cs d)
    (hheld : NoneHeld D below bs) (hpre : cs.flatten <+: bs)
    (hn : (decodeReader D).Settles (.init D below) n) :
    ∃ t, (decodeReader D).Fed n cs.flatten t ∧ t.calls = d.calls ∧
      (¬ d.rx.Works → (decodeReader D).Stops t) := by
  obtain ⟨t, ht, hcalls⟩ := h.settles hheld hpre
  refine ⟨t, decode_lawful.fed_of_run (.init below) (fun pre u hle hu => ?_) h.run hn ht, hcalls,
    fun hworks => ?_⟩
  · refine settles_of_noneHeld hheld hu (List.IsPrefix.trans ?_ hpre)
    obtain ⟨rest, rfl⟩ := hle
    simp
  · rw [ht.eq_of_stops (stops_of_not_works hworks)]
    exact stops_of_not_works hworks

/-! ## Alike -/

/-- **A stream none of whose capsules is held is decoded alike.** -/
theorem decodedAlike_of_noneHeld (hheld : NoneHeld D below bs) : DecodedAlike D below bs := by
  obtain ⟨n, hn, -⟩ := settles_of_idle (.init below : DecodeInv D (.init D below)) nofun nofun
  have hpart : ∀ {cs₁ cs₂ d₁ d₂}, WholeCalls D below cs₁ d₁ → WholeCalls D below cs₂ d₂ →
      cs₁.flatten <+: bs → cs₂.flatten = cs₁.flatten → d₂.calls = d₁.calls := by
    intro cs₁ cs₂ d₁ d₂ h₁ h₂ hpre heq
    obtain ⟨t₁, hfed₁, hcalls₁, -⟩ := h₁.fed hheld hpre hn
    obtain ⟨t₂, hfed₂, hcalls₂, -⟩ := h₂.fed hheld (heq ▸ hpre) hn
    rw [heq] at hfed₂
    rw [← hcalls₁, ← hcalls₂, hfed₁.unique hfed₂]
  -- a run that has come to its end is not the shorter one
  have hend : ∀ {cs₁ cs₂ d₁ d₂}, WholeCalls D below cs₁ d₁ → WholeCalls D below cs₂ d₂ →
      cs₁.flatten <+: cs₂.flatten → cs₂.flatten <+: bs → (cs₁.flatten = bs ∨ ¬ d₁.rx.Works) →
      cs₂.flatten = cs₁.flatten := by
    intro cs₁ cs₂ d₁ d₂ h₁ h₂ hle hpre hdone
    rcases hdone with hdone | hdone
    · exact (hdone ▸ hle).eq_of_length_le hpre.length_le ▸ hdone.symm
    · obtain ⟨rest, hrest⟩ := hle
      obtain ⟨t₁, hfed₁, -, hstops⟩ := h₁.fed hheld ((List.prefix_append _ rest).trans
        (hrest ▸ hpre)) hn
      obtain ⟨t₂, hfed₂, -⟩ := h₂.fed hheld hpre hn
      rw [← hrest] at hfed₂
      obtain ⟨m, hm, hmore⟩ := hfed₂.of_append
      obtain rfl := hfed₁.unique hm
      rw [← hrest, hmore.eq_nil_of_stops (hstops hdone), List.append_nil]
  refine ⟨hpart, fun {cs₁ cs₂ d₁ d₂} h₁ h₂ hpre₁ hpre₂ hdone₁ hdone₂ => ?_⟩
  rcases List.prefix_or_prefix_of_prefix hpre₁ hpre₂ with hle | hle
  · exact hpart h₁ h₂ hpre₁ (hend h₁ h₂ hle hpre₂ hdone₁)
  · exact hpart h₁ h₂ hpre₁ (hend h₂ h₁ hle hpre₁ hdone₂).symm

/-- A receiver whose first request is done whenever another is needed. -/
def sampleDecode : DecodeCtx where
  toRxCtx := sampleReceiver
  stale := 0
  between _ q := if q.1.free = [] then ({ q.1 with free := [1] }, q.2) else q
  free_between _ q := by
    split
    · nofun
    · assumption
  recv_between _ q := by split <;> rfl
  hdr_between _ q := by split <;> rfl
  cmd_between _ q := by split <;> rfl

-- a WRITE with its data in the capsule, in pieces of any size
example :
    ((decodeSys sampleDecode {}).run (.init sampleDecode {}) [[], [4, 0, 72], [72, 76, 0, 0, 0],
      cmdBytes 1 4 0x01, [], [], [1], [2, 3], [], [4], []]).map (fun d => d.calls.getLast?) =
    some (some (.payload (chBytes 4 72 72 76 ++ cmdBytes 1 4 0x01)
      [(.buffer 1 0 0, 1), (.buffer 1 0 1, 2), (.buffer 1 0 2, 3), (.buffer 1 0 3, 4)])) := by
  decide

/-- A FLUSH, a WRITE with four bytes in its capsule, and four bytes for an R2T. -/
def samplePdus : List (List UInt8) :=
  [chBytes 4 72 0 72 ++ cmdBytes 0 0 0x5a, chBytes 4 72 72 76 ++ cmdBytes 1 4 0x01 ++ [1, 2, 3, 4],
   chBytes 6 24 24 28 ++ [7, 0, 1, 0, 0, 0, 0, 0, 4, 0, 0, 0, 0, 0, 0, 0] ++ [5, 6, 7, 8]]

end NdpHeaan
