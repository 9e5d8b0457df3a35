import NdpHeaan.Target.BdevLayer
import NdpHeaan.Target.HeaanAdd

/-!
# Target/HeaanValidate — does HEaaN add reject a malformed extent before it acts?

The parser checks every extent of the three lists before the first I/O, and the bdev layer checks
each again when it is submitted.  The two agree on the range, but the parser divides and forgets the
remainder: an extent that is not made of whole blocks passes the parser and is refused by the bdev
layer, with the reads before it already in flight or the writes before it already on their way.

Runs are those in which the bdev layer answers every submission (`BdevAnswers`); all that is left to
chance is whether it finds an I/O.
-/

open Machinery

namespace NdpHeaan

/-- The bdev layer's answer to an I/O.  A namespace's descriptor is opened for writing. -/
def Io.bdevRc (d : Bdev) (io : Io) (ioOk : Bool) : ℤ :=
  match io.cb with
  | .fill => spdkBdevRead d io.ext.offset io.ext.length ioOk
  | .write => spdkBdevWrite d true io.ext.offset io.ext.length ioOk

/-- `rc` holds the bdev layer's answers to a list of I/Os. -/
def Answers (d : Bdev) (ios : List Io) (rc : ℕ → ℤ) : Prop :=
  ∀ k io, ios[k]? = some io → ∃ ioOk, rc k = io.bdevRc d ioOk

/-- The writes of a command, in submission order. -/
def HeaanCtx.writes (c : HeaanCtx) : List Io := ioList .write .target 0 c.targetExt

/-- **Runs on the bdev layer**: the return codes are its answers. -/
def BdevAnswers (r : HeaanReq) (s : St) : Label → Prop
  | .exec _ rc => ∀ p, (heaanParse r).2 = .parsed p → Answers r.bdev p.reads rc
  | .deliver _ _ rc => Answers r.bdev s.ctx.writes rc

/-- **Validated before acting**: whatever the command submits, the bdev layer accepts, unless it is
out of I/Os. -/
def ValidatesFirst (r : HeaanReq) : Prop :=
  ∀ lib disk s, (heaanSys r lib disk).Reach (BdevAnswers r) s → ∀ io rc,
    .submit io rc ∈ s.trace → rc = 0 ∨ rc = -ENOMEM

/-! ## The two checks -/

section Checks

variable {d : Bdev} {io : Io}

/-- **The bdev layer on an extent that passed the parser**: whole blocks are refused for want of an
I/O only, anything else is refused. -/
theorem Io.bdevRc_eq (hin : d.extentInRange io.ext = true) (ioOk : Bool) : io.bdevRc d ioOk =
    if d.Aligned io.ext then if ioOk then 0 else -ENOMEM else -EINVAL := by
  obtain ⟨hoff, hlen⟩ := bytesToBlocks_blocks d io.ext
  have hrest := bytesToBlocks_rest_iff d io.ext
  have hvalid : bdevIoValidBlocks d (io.ext.offset / d.blocklen.toUInt64)
      (io.ext.length / d.blocklen.toUInt64) = true := by
    rw [bdevIoValidBlocks_eq]
    exact hin
  unfold bdevRc
  by_cases ha : d.Aligned io.ext
  · split <;> cases ioOk <;>
      simp [spdkBdevRead, spdkBdevWrite, bdevSubmitBlocks, hrest.mpr ha, ha, hoff, hlen, hvalid]
  · split <;> simp [spdkBdevRead, spdkBdevWrite, mt hrest.mp ha, ha]

/-- So with I/Os to spare it never answers that it has none… -/
theorem Io.bdevRc_eq_zero_of (hin : d.extentInRange io.ext = true)
    (h : io.bdevRc d true = 0 ∨ io.bdevRc d true = -ENOMEM) :
    io.bdevRc d true = 0 ∧ d.Aligned io.ext := by
  by_cases ha : d.Aligned io.ext
  · exact ⟨by rw [Io.bdevRc_eq hin, if_pos ha, if_pos rfl], ha⟩
  · rw [Io.bdevRc_eq hin, if_neg ha] at h
    exact absurd h (by decide)

/-- …and whole blocks are the only thing it can be asked for without complaint. -/
theorem Io.bdevRc_of_aligned (hin : d.extentInRange io.ext = true) (ha : d.Aligned io.ext)
    (ioOk : Bool) : io.bdevRc d ioOk = 0 ∨ io.bdevRc d ioOk = -ENOMEM := by
  rw [Io.bdevRc_eq hin, if_pos ha]
  cases ioOk
  · exact Or.inr rfl
  · exact Or.inl rfl

theorem ext_of_mem_ioList {cb : Callback} {b : Buf} : ∀ {off : UInt64} {es : List Extent} {io : Io},
    io ∈ ioList cb b off es → io.ext ∈ es
  | off, e :: es, io, h => by
      rcases List.mem_cons.mp h with rfl | h
      · exact List.mem_cons_self ..
      · exact List.mem_cons_of_mem _ (ext_of_mem_ioList h)

/-- An extent of a loop has its I/O. -/
theorem exists_io_of_mem (cb : Callback) (b : Buf) {e : Extent} : ∀ (off : UInt64)
    {es : List Extent}, e ∈ es → ∃ io ∈ ioList cb b off es, io.ext = e ∧ io.cb = cb
  | off, e' :: es, h => by
      rcases List.mem_cons.mp h with rfl | h
      · exact ⟨_, List.mem_cons_self .., rfl, rfl⟩
      · obtain ⟨io, hio, hext, hcb⟩ := exists_io_of_mem cb b (off + e'.length) h
        exact ⟨io, List.mem_cons_of_mem _ hio, hext, hcb⟩

/-- The answers of a layer that never runs out of I/Os. -/
def plentiful (d : Bdev) (ios : List Io) (k : ℕ) : ℤ := (ios[k]?).elim 0 (·.bdevRc d true)

theorem answers_plentiful (ios : List Io) : Answers d ios (plentiful d ios) := fun k io h =>
  ⟨true, by rw [plentiful, h]; rfl⟩

end Checks

/-! ## Whole blocks suffice -/

section Suffices

variable {r : HeaanReq}

/-- **The condition**: the extents that are going to be submitted are whole blocks. -/
def HeaanReq.WholeBlocks (r : HeaanReq) : Prop :=
  ∀ p, r.noData = false → (heaanParse r).2 = .parsed p →
    (∀ e ∈ p.input0Ext ++ p.input1Ext, r.bdev.Aligned e) ∧
      (0 < r.cdw11.toNat + r.cdw12.toNat → ∀ e ∈ p.targetExt, r.bdev.Aligned e)

/-- **The invariant**: nothing malformed was submitted, and while something is in flight the context
holds the target list of a parsed payload. -/
structure Vetted (r : HeaanReq) (s : St) : Prop where
  accepted : ∀ io rc, .submit io rc ∈ s.trace → rc = 0 ∨ rc = -ENOMEM
  target : ∀ io ∈ s.inflight, ∃ p, r.noData = false ∧ (heaanParse r).2 = .parsed p ∧
    0 < r.cdw11.toNat + r.cdw12.toNat ∧ s.ctx.targetExt = p.targetExt

theorem Parsed.ext_of_mem_reads {p : Parsed} {io : Io} (h : io ∈ p.reads) :
    io.ext ∈ p.input0Ext ++ p.input1Ext :=
  List.mem_append.mpr ((List.mem_append.mp h).imp ext_of_mem_ioList ext_of_mem_ioList)

theorem Vetted.exec (hwhole : r.WholeBlocks) {al : Alloc} {rc : ℕ → ℤ} {s : St} (h : Vetted r s)
    (hin : s.inflight = []) (hrc : BdevAnswers r s (.exec al rc)) :
    Vetted r (nvmfBdevCtrlrCustomHeaanCipaddCmd r al rc s) := by
  refine ⟨fun io c hc => ?_, fun io hio => ?_⟩
  · rcases submit_of_exec hc with hc | ⟨p, j, hnd, hp, hj, rfl⟩
    · exact h.accepted io c hc
    · have hext := Parsed.ext_of_mem_reads (List.mem_of_getElem? hj)
      obtain ⟨ioOk, hcode⟩ := hrc p hp j io hj
      rw [hcode]
      exact Io.bdevRc_of_aligned (extentInRange_of_parsed hp _ (List.mem_append_left _ hext))
        ((hwhole p hnd hp).1 _ hext) ioOk
  · -- only a parsed command leaves something in flight
    rcases exec_cases r al rc s with heq | heq | ⟨sc, -, heq⟩ | ⟨p, hnd, hp, heq⟩
    · rw [heq] at hio
      exact absurd hio (by simp [St.crash, St.emit, hin])
    · rw [heq] at hio
      exact absurd hio (by simp [St.crash, St.emit, HeaanReq.allocated, hin])
    · rw [heq] at hio
      exact absurd hio (by simp [St.reject, St.emit, HeaanReq.allocated, hin])
    · have hfields : (execParsed r al rc p (r.allocated al s)).inflight
            = (submitReads rc 0 p.reads).accepted ∧
          (execParsed r al rc p (r.allocated al s)).ctx.targetExt = p.targetExt := by
        unfold execParsed
        dsimp only
        split <;> exact ⟨rfl, rfl⟩
      rw [heq] at hio ⊢
      rw [hfields.1] at hio
      refine ⟨p, hnd, hp, ?_, hfields.2⟩
      rw [← Parsed.length_reads hp]
      refine List.length_pos_iff.mpr fun hnil => ?_
      rw [hnil] at hio
      cases hio

theorem Vetted.deliver (hwhole : r.WholeBlocks) {lib : HeaanLib} {s : St} (h : Vetted r s) {k : ℕ}
    {io : Io} {success : Bool} {rc : ℕ → ℤ} (hio : s.inflight[k]? = some io)
    (hrc : BdevAnswers r s (.deliver k success rc)) :
    Vetted r (runCallback lib rc io success (s.delivered k io success)) := by
  obtain ⟨htrace, -, -, -, htarget, -⟩ := delivered_eq s k io success
  obtain ⟨p, hnd, hp, hpos, hext⟩ := h.target io (List.mem_of_getElem? hio)
  refine ⟨fun io' c hc => ?_, fun _ _ => ⟨p, hnd, hp, hpos, ?_⟩⟩
  · rcases submit_of_callback hc with hc | ⟨j, -, hj, rfl⟩
    · exact h.accepted io' c (htrace ▸ hc)
    · rw [htarget] at hj
      obtain ⟨ioOk, hcode⟩ := hrc j io' hj
      have hmem := ext_of_mem_ioList (List.mem_of_getElem? hj)
      rw [hext] at hmem
      rw [hcode]
      exact Io.bdevRc_of_aligned (extentInRange_of_parsed hp _ (List.mem_append_right _ hmem))
        ((hwhole p hnd hp).2 hpos _ hmem) ioOk
  · rw [targetExt_runCallback, htarget, hext]

theorem HeaanReq.WholeBlocks.validatesFirst (hwhole : r.WholeBlocks) : ValidatesFirst r := by
  intro lib disk s hreach
  have hvetted : Vetted r s := by
    refine hreach.invariant_of_reach ⟨nofun, nofun⟩ fun s l s' hr h hrc hstep => ?_
    rcases heaanStep_cases hstep with ⟨al, rc, rfl, hs, rfl⟩ | ⟨k, success, rc, io, rfl, hio, rfl⟩
    · exact h.exec hwhole (by rw [eq_init_of_idle hr hs]) hrc
    · exact h.deliver hwhole hio hrc
  exact hvetted.accepted

end Suffices

/-! ## …and are needed

A layer with I/Os to spare takes the command through its read loops and to its write loop, so it is
asked about every extent. -/

section Needed

variable {r : HeaanReq} {p : Parsed}

/-- The handler on a layer with I/Os to spare. -/
theorem reach_exec_plentiful (hp : (heaanParse r).2 = .parsed p) (lib : HeaanLib)
    (disk : ℕ → UInt8) : (heaanSys r lib disk).Reach (BdevAnswers r)
      (nvmfBdevCtrlrCustomHeaanCipaddCmd r .ok (plentiful r.bdev p.reads) { disk := disk }) := by
  refine Sys.Reach.step (l := .exec .ok (plentiful r.bdev p.reads)) .init (fun p' hp' => ?_) rfl
  obtain rfl := ParseEnd.parsed.inj (hp.symm.trans hp')
  exact answers_plentiful _

/-- …has every read accepted, and with it every input extent. -/
theorem ValidatesFirst.reads (h : ValidatesFirst r) (hnd : r.noData = false)
    (hp : (heaanParse r).2 = .parsed p) :
    (submitReads (plentiful r.bdev p.reads) 0 p.reads).rejected = false ∧
      ∀ e ∈ p.input0Ext ++ p.input1Ext, r.bdev.Aligned e := by
  have hreach := reach_exec_plentiful hp bytewiseLib fun _ => 0
  rw [exec_of_parsed rfl rfl hnd hp] at hreach
  have hin : ∀ {io}, io ∈ p.reads → r.bdev.extentInRange io.ext = true := fun hio =>
    extentInRange_of_parsed hp _ (List.mem_append_left _ (Parsed.ext_of_mem_reads hio))
  have hcode : ∀ {j io}, p.reads[j]? = some io →
      plentiful r.bdev p.reads j = io.bdevRc r.bdev true := fun hj => by rw [plentiful, hj]; rfl
  have hlogged : ∀ io c, .submit io c ∈ (submitReads (plentiful r.bdev p.reads) 0 p.reads).effects →
      c = 0 ∨ c = -ENOMEM := fun io c hc => by
    refine h bytewiseLib _ _ hreach io c ?_
    unfold execParsed
    dsimp only
    split
    · exact List.mem_append_left _ (List.mem_append_right _ hc)
    · exact List.mem_append_right _ hc
  have hrejected : (submitReads (plentiful r.bdev p.reads) 0 p.reads).rejected = false := by
    by_contra hrej
    obtain ⟨io, hio, c, hc, hmem⟩ := exists_rejected_of_submitReads (Bool.not_eq_false _ ▸ hrej)
    obtain ⟨j, io', hj, heq⟩ := exists_of_mem_submitReads hmem
    obtain ⟨rfl, rfl⟩ := Effect.submit.inj heq
    rw [Nat.zero_add, hcode hj] at hc hmem
    exact hc (Io.bdevRc_eq_zero_of (hin (List.mem_of_getElem? hj)) (hlogged _ _ hmem)).1
  refine ⟨hrejected, fun e he => ?_⟩
  obtain ⟨io, hio, rfl⟩ : ∃ io ∈ p.reads, io.ext = e := by
    rcases List.mem_append.mp he with he | he
    · obtain ⟨io, hio, hext, -⟩ := exists_io_of_mem .fill .input0 0 he
      exact ⟨io, List.mem_append_left _ hio, hext⟩
    · obtain ⟨io, hio, hext, -⟩ := exists_io_of_mem .fill .input1 0 he
      exact ⟨io, List.mem_append_right _ hio, hext⟩
  obtain ⟨j, hj⟩ := List.mem_iff_getElem?.mp hio
  have hzero := rc_eq_zero_of_not_rejected hrejected j (List.getElem?_eq_some_iff.mp hj).1
  rw [Nat.zero_add, hcode hj] at hzero
  exact (Io.bdevRc_eq_zero_of (hin hio) (Or.inl hzero)).2

/-- …and, if there is anything to read, is asked about every target extent. -/
theorem ValidatesFirst.writes (h : ValidatesFirst r) (hnd : r.noData = false)
    (hp : (heaanParse r).2 = .parsed p) (hpos : 0 < r.cdw11.toNat + r.cdw12.toNat) :
    ∀ e ∈ p.targetExt, r.bdev.Aligned e := by
  intro e he
  have hreach := reach_exec_plentiful hp bytewiseLib fun _ => 0
  rw [exec_of_parsed rfl rfl hnd hp,
    execParsed_of_accepted (submitReads_of_not_rejected (h.reads hnd hp).1)] at hreach
  have hlen := Parsed.length_reads hp
  -- the counter keeps 32 bits of the number of reads, and so does the run that counts it down
  have hpend : asInt32 (r.cdw11 + r.cdw12).toNat
      = asInt32 ((r.cdw11.toNat + r.cdw12.toNat - 1) % 2 ^ 32 + 1 : ℕ) := by
    rw [UInt32.toNat_add]
    exact asInt32_congr (by omega)
  obtain ⟨t, io, ht, hio, hcb, hone, htarget⟩ := exists_reach_last_read
    (fun t => ⟨plentiful r.bdev t.ctx.writes, answers_plentiful _⟩) _ hreach
    (fun io => Parsed.cb_of_mem_reads) (by rw [hlen]; omega) (by omega) hpend
  have hstep := heaanStep_deliver r bytewiseLib hio true (plentiful r.bdev t.ctx.writes)
  rw [deliver_last_read hcb hone] at hstep
  have hguard : BdevAnswers r t (.deliver 0 true (plentiful r.bdev t.ctx.writes)) :=
    answers_plentiful _
  have hnext := ht.step hguard hstep
  have htarget : t.ctx.targetExt = p.targetExt := htarget
  have hctx : (countDown io true (t.delivered 0 io true)).ctx.targetExt = t.ctx.targetExt := by
    rw [countDown_ctx, (delivered_eq t 0 io true).2.2.2.2.1]
  obtain ⟨io', hio', rfl, -⟩ := exists_io_of_mem .write .target 0 he
  obtain ⟨j, hj⟩ := List.mem_iff_getElem?.mp hio'
  have hwrites : t.ctx.writes[j]? = some io' := by rwa [HeaanCtx.writes, htarget]
  have hcode : plentiful r.bdev t.ctx.writes j = io'.bdevRc r.bdev true := by
    rw [plentiful, hwrites]
    rfl
  have hlogged := h _ _ _ hnext io' _ (submit_mem_fillDone rfl (by rw [hctx]; exact hwrites))
  rw [hcode] at hlogged
  exact (Io.bdevRc_eq_zero_of
    (extentInRange_of_parsed hp _ (List.mem_append_right _ he)) hlogged).2

end Needed

/-- **HEaaN add validates before it acts exactly when** the extents it is going to submit are whole
blocks: all those it reads, and, if there is anything to read, all those it writes. -/
theorem validatesFirst_iff (r : HeaanReq) : ValidatesFirst r ↔ r.WholeBlocks :=
  ⟨fun h _ hnd hp => ⟨(h.reads hnd hp).2, h.writes hnd hp⟩, fun h => h.validatesFirst⟩

/-- One and a half blocks at the start of the device pass the parser. -/
def HeaanReq.ragged : HeaanReq := .sample 64 4096 1 1 1 [0, 0, 768, 0, 1536, 512, 0, 1024, 512]

theorem not_validatesFirst_ragged :
    (∃ p, (heaanParse .ragged).2 = .parsed p) ∧ ¬ ValidatesFirst .ragged := by
  have hp : (heaanParse .ragged).2 = .parsed
      ⟨0, [⟨0, 768⟩], 768, 0, [⟨1536, 512⟩], 512, 0, [⟨1024, 512⟩], 512⟩ := by decide +kernel
  refine ⟨⟨_, hp⟩, fun h => ?_⟩
  have ha := (h.reads (by decide +kernel) hp).2 ⟨0, 768⟩ (List.mem_cons_self ..)
  exact absurd ha (by decide +kernel)

end NdpHeaan
