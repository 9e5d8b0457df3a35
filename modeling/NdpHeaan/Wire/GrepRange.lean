import NdpHeaan.Host.Passthru
import Mathlib.Data.Int.ModEq
import Mathlib.Data.Nat.Prime.Basic
import NdpHeaan.Target.GrepCmd

/-!
# Wire/GrepRange — do host and target mean the same blocks?

The host describes a file by byte extents and sends the last of them, each number cut to 32 bits.
The target takes the two dwords for a first block and a number of blocks.  The two meet only where
the byte numbers of the last extent happen to be the block numbers of the whole file; a file in one
block-aligned extent never has that luck.
-/

open Machinery

namespace NdpHeaan

/-! ## The blocks of a byte range -/

/-- The blocks from the one of the first byte to the one of the last. -/
def Bdev.blocks (d : Bdev) (s : Seg) : Seg :=
  ⟨s.start / d.blocklen.toNat,
    (s.start + s.len - 1) / d.blocklen.toNat + 1 - s.start / d.blocklen.toNat⟩

/-- A block holds a byte of a segment. -/
def Bdev.Holds (d : Bdev) (s : Seg) (b : ℕ) : Prop := ∃ k, s.Mem k ∧ k / d.blocklen.toNat = b

section Blocks

variable (d : Bdev) {s : Seg}

theorem Bdev.len_blocks_pos (h : 0 < s.len) : 0 < (d.blocks s).len := by
  have hle : s.start / d.blocklen.toNat ≤ (s.start + s.len - 1) / d.blocklen.toNat :=
    Nat.div_le_div_right (by omega)
  exact Nat.sub_pos_of_lt (Nat.lt_succ_of_le hle)

/-- **The blocks of a nonempty segment are the ones that hold a byte of it.** -/
theorem Bdev.mem_blocks_iff (h : 0 < s.len) {b : ℕ} : (d.blocks s).Mem b ↔ d.Holds s b := by
  have hpos := d.blocklen_pos
  have hle : s.start / d.blocklen.toNat ≤ (s.start + s.len - 1) / d.blocklen.toNat :=
    Nat.div_le_div_right (by omega)
  constructor
  · rintro ⟨h1, h2⟩
    have h1 : s.start / d.blocklen.toNat ≤ b := h1
    have h2 : b ≤ (s.start + s.len - 1) / d.blocklen.toNat := by
      unfold blocks at h2
      dsimp only at h2
      omega
    rcases Nat.eq_or_lt_of_le h1 with heq | hlt
    · exact ⟨s.start, ⟨Nat.le_refl _, by omega⟩, heq⟩
    · have hb : b * d.blocklen.toNat ≤ s.start + s.len - 1 := (Nat.le_div_iff_mul_le hpos).mp h2
      have hs : s.start < b * d.blocklen.toNat := (Nat.div_lt_iff_lt_mul hpos).mp hlt
      exact ⟨b * d.blocklen.toNat, ⟨Nat.le_of_lt hs, by omega⟩, Nat.mul_div_cancel _ hpos⟩
  · rintro ⟨k, ⟨h1, h2⟩, rfl⟩
    have h3 : s.start / d.blocklen.toNat ≤ k / d.blocklen.toNat := Nat.div_le_div_right h1
    have h4 : k / d.blocklen.toNat ≤ (s.start + s.len - 1) / d.blocklen.toNat :=
      Nat.div_le_div_right (by omega)
    refine ⟨h3, ?_⟩
    unfold blocks
    dsimp only
    omega

end Blocks

/-- The extents of a layout that hold a byte. -/
def FileLayout.used (l : FileLayout) : List Seg := l.segs.filter fun s => 0 < s.len

theorem FileLayout.mem_used {l : FileLayout} {s : Seg} : s ∈ l.used ↔ s ∈ l.segs ∧ 0 < s.len := by
  simp [used]

/-- The blocks of those extents are the blocks of the file. -/
theorem FileLayout.exists_blocks_iff (l : FileLayout) (d : Bdev) (b : ℕ) :
    (∃ s ∈ l.used.map d.blocks, s.Mem b) ↔ ∃ s ∈ l.segs, d.Holds s b := by
  simp only [List.mem_map, exists_exists_and_eq_and, mem_used]
  constructor
  · rintro ⟨s, ⟨hs, hpos⟩, hb⟩
    exact ⟨s, hs, (d.mem_blocks_iff hpos).mp hb⟩
  · rintro ⟨s, hs, hb⟩
    have hpos : 0 < s.len := by
      obtain ⟨k, hk, -⟩ := hb
      have h1 := hk.1
      have h2 := hk.2
      omega
    exact ⟨s, ⟨hs, hpos⟩, (d.mem_blocks_iff hpos).mpr hb⟩

/-! ## Agreement -/

/-- **Host and target agree on a grep**: if a command is sent, the read that
`nvmf_bdev_ctrlr_custom_grep_cmd` makes of its dwords covers the blocks that hold a byte of the
layout's extents, and no others. -/
def GrepAgrees (c : GrepCall) (d : Bdev) : Prop :=
  ∀ l cdw10 cdw11 cdw12 data, c.layout = some l →
    passthruGrep c = .sent cdw10 cdw11 cdw12 data →
      ∀ r : DataReq, r.cdw10 = cdw10 → r.cdw11 = cdw11 → r.cdw12 = cdw12 →
        ∀ b, r.grepOp.blocks.Mem b ↔ ∃ s ∈ l.segs, d.Holds s b

theorem GrepCall.Sends.agrees_iff {c : GrepCall} {l : FileLayout} {keyword : List UInt8}
    (h : c.Sends l keyword) (d : Bdev) :
    GrepAgrees c d ↔ ∀ b, (c.lastRange l).Mem b ↔ ∃ s ∈ l.segs, d.Holds s b := by
  have hrange : ∀ r : DataReq, r.cdw11 = (c.dwords l).1 → r.cdw12 = (c.dwords l).2 →
      r.grepOp.blocks = c.lastRange l := by
    intro r h11 h12
    refine Eq.trans ?_ (c.dwords_eq l)
    rw [DataOp.blocks, DataReq.grepOp, DataReq.readvOp, UInt32.toNat_toUInt64,
      UInt32.toNat_toUInt64, h11, h12]
  constructor
  · intro hag
    have hb := hag l _ _ _ _ h.layout h.passthru_eq ⟨_, _, _, 0, 0, [], rfl⟩ rfl rfl rfl
    rwa [hrange _ rfl rfl] at hb
  · intro hb l' cdw10 cdw11 cdw12 data hl hsent r _ h11 h12
    rw [h.passthru_eq] at hsent
    obtain ⟨-, rfl, rfl, -⟩ := GrepEnd.sent.inj hsent
    obtain rfl := Option.some.inj (h.layout.symm.trans hl)
    rwa [hrange r h11 h12]

/-- …which the ends of the extents decide. -/
theorem GrepCall.Sends.agrees_iff_runOf {c : GrepCall} {l : FileLayout} {keyword : List UInt8}
    (h : c.Sends l keyword) (d : Bdev) :
    GrepAgrees c d ↔ RunOf (c.lastRange l) (l.used.map d.blocks) := by
  have hpos : ∀ s ∈ l.used.map d.blocks, 0 < s.len := fun s hs => by
    obtain ⟨t, ht, rfl⟩ := List.mem_map.mp hs
    exact d.len_blocks_pos (FileLayout.mem_used.mp ht).2
  rw [h.agrees_iff d, ← runOf_iff hpos]
  exact forall_congr' fun b => iff_congr Iff.rfl (l.exists_blocks_iff d b).symm

/-- **Host and target agree exactly when** no command is sent, or the last extent's byte numbers,
cut to 32 bits, are the first block and the number of blocks of a file without gaps. -/
theorem grepAgrees_iff (c : GrepCall) (d : Bdev) :
    GrepAgrees c d ↔
      ∀ l keyword, c.Sends l keyword → RunOf (c.lastRange l) (l.used.map d.blocks) := by
  constructor
  · exact fun hag l keyword h => (h.agrees_iff_runOf d).mp hag
  · intro hcond
    rcases passthruGrep_cases c with ⟨err, heq⟩ | ⟨l, keyword, h, -⟩
    · intro l cdw10 cdw11 cdw12 data _ hsent
      rw [heq] at hsent
      cases hsent
    · exact (h.agrees_iff_runOf d).mpr (hcond l keyword h)

/-! ## One extent -/

/-- Where only `n` blocks of an even size are meant, no count of bytes says so. -/
theorem mul_mod_ne {bs n : ℕ} (heven : 2 ∣ bs) (hbs : 0 < bs) (hn : 0 < n) :
    n * bs % 2 ^ 32 ≠ n := by
  intro h
  have hlt : n < 2 ^ 32 := by
    rw [← h]
    exact Nat.mod_lt _ (by decide)
  have hdvd : 2 ^ 32 ∣ n * (bs - 1) := by
    have hmod : n * bs ≡ n [MOD 2 ^ 32] := by rw [Nat.ModEq, h, Nat.mod_eq_of_lt hlt]
    rw [Nat.mul_sub_one]
    exact (Nat.modEq_iff_dvd' (Nat.le_mul_of_pos_right n hbs)).mp hmod.symm
  have hcop : Nat.Coprime (2 ^ 32) (bs - 1) := by
    refine Nat.Coprime.pow_left 32 (Nat.coprime_two_left.mpr ?_)
    exact Nat.Even.sub_odd hbs (even_iff_two_dvd.mpr heven) odd_one
  exact absurd (Nat.le_of_dvd hn (hcop.dvd_of_dvd_mul_right hdvd)) (by omega)

/-- An aligned range of `n` blocks has `n` blocks. -/
theorem Bdev.len_blocks_aligned (d : Bdev) {s : Seg} {m n : ℕ}
    (hs : s.start = m * d.blocklen.toNat) (hl : s.len = n * d.blocklen.toNat) (hn : 0 < n) :
    (d.blocks s).len = n := by
  have hpos := d.blocklen_pos
  have hlast : (s.start + s.len - 1) / d.blocklen.toNat = m + n - 1 := by
    have hmul : (m + n - 1) * d.blocklen.toNat + d.blocklen.toNat = s.start + s.len := by
      rw [hs, hl, ← Nat.succ_mul, ← Nat.add_mul]
      congr 1
      omega
    refine Nat.div_eq_of_lt_le (by omega) ?_
    rw [Nat.succ_mul]
    omega
  rw [blocks]
  dsimp only
  rw [hlast, hs, Nat.mul_div_cancel _ hpos]
  omega

/-- **No grep of a file in one block-aligned extent is right**, on any device with an even block
size. -/
theorem GrepCall.Sends.not_agrees_aligned {c : GrepCall} {l : FileLayout} {keyword : List UInt8}
    (h : c.Sends l keyword) {d : Bdev} {x : ExtentInfo} {m n : ℕ} (hx : l.extents = [x])
    (heven : 2 ∣ d.blocklen.toNat) (hstart : x.lbaStart.toNat = m * d.blocklen.toNat)
    (hcount : x.lbaCount.toNat = n * d.blocklen.toNat) (hn : 0 < n) : ¬ GrepAgrees c d := by
  intro hag
  have hrun := (h.agrees_iff_runOf d).mp hag
  have hlen : 0 < x.seg.len := by
    rw [show x.seg.len = x.lbaCount.toNat from rfl, hcount]
    exact Nat.mul_pos hn d.blocklen_pos
  have hused : l.used.map d.blocks = [d.blocks x.seg] := by
    rw [FileLayout.used, FileLayout.segs, hx, List.map_singleton,
      List.filter_cons_of_pos (by simpa using hlen)]
    rfl
  have hrange : c.lastRange l = ⟨x.lbaStart.toNat % 2 ^ 32, x.lbaCount.toNat % 2 ^ 32⟩ := by
    rw [GrepCall.lastRange, hx]
    rfl
  rw [hused, hrange] at hrun
  obtain ⟨s, hs, hfirst⟩ := hrun.first (List.cons_ne_nil _ _)
  obtain ⟨t, ht, hlast⟩ := hrun.last (List.cons_ne_nil _ _)
  obtain rfl := List.mem_singleton.mp hs
  obtain rfl := List.mem_singleton.mp ht
  rw [hfirst, d.len_blocks_aligned hstart hcount hn] at hlast
  exact mul_mod_ne heven d.blocklen_pos hn (hcount ▸ (Nat.add_left_cancel hlast).symm)

/-- A file in one 4096-byte extent on 512-byte blocks: the command addresses block 8192, and the
file is in blocks 16 to 23. -/
theorem grep_not_agrees_bytes :
    ∃ (m : FileMap) (c : GrepCall) (d : Bdev),
      c.layout = getFileLayout m true true ∧ ¬ GrepAgrees c d := by
  obtain ⟨l, hl, hsegs, hexts⟩ : ∃ l,
      getFileLayout ⟨[⟨0, 8192, 4096, false⟩], by decide, by decide⟩ true true = some l ∧
        l.segs = [⟨8192, 4096⟩] ∧ l.extents = [⟨0, 8192, 4096, 8192, 4096⟩] := ⟨_, rfl, rfl, rfl⟩
  let c : GrepCall := ⟨true, true, some l, 0, 0, 0, true, 0, .ok [], none, false⟩
  have hsends : c.Sends l [] := ⟨rfl, rfl, rfl, rfl, rfl, rfl, rfl⟩
  have hrange : c.lastRange l = ⟨8192, 4096⟩ := by
    rw [GrepCall.lastRange, hexts]
    rfl
  refine ⟨_, c, ⟨65536, 512, 1, by decide⟩, hl.symm, fun h => ?_⟩
  have hb := (hsends.agrees_iff _).mp h 8192
  rw [hrange, hsegs] at hb
  obtain ⟨s, hs, k, hk, hkb⟩ := hb.mp (by decide)
  obtain rfl := List.mem_singleton.mp hs
  have h2 : k < 8192 + 4096 := hk.2
  have hkb : k / 512 = 8192 := hkb
  omega

end NdpHeaan
