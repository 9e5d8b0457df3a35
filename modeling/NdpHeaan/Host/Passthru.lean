import NdpHeaan.Host.FileLayout
import Mathlib.Logic.Function.Basic

/-!
# Host/Passthru — how `nvme-cli` builds the near-data commands

For a HEaaN add, `passthru` turns the layouts of two input files and of the target into a payload of
64-bit words in a 4096-byte buffer:

    start₀ (off len)*  start₁ (off len)*  startₜ (off len)*

The cursor `bufnum` is never compared with the length of the buffer, so a store is logged with its
index, and the buffer is the memory from its first word on.  For a grep, it puts the layout of the
target file into two command dwords, one extent over the other.
-/

open Machinery

namespace NdpHeaan

/-! ## Stores through a cursor -/

/-- The payload under construction. -/
structure Enc where
  bufnum : UInt32 := 0
  /-- The indices stored to, in order. -/
  stores : List ℕ := []
  /-- The memory from the buffer on. -/
  u64data : ℕ → UInt64

/-- `u64data[bufnum++] = w`. -/
def Enc.put (e : Enc) (w : UInt64) : Enc where
  bufnum := e.bufnum + 1
  stores := e.stores ++ [e.bufnum.toNat]
  u64data := Function.update e.u64data e.bufnum.toNat w

@[simp] theorem Enc.put_u64data (e : Enc) (w : UInt64) :
    (e.put w).u64data = Function.update e.u64data e.bufnum.toNat w := rfl

/-- One file: its start offset, then a pair of words for each extent. -/
def Enc.putLayout (e : Enc) (l : FileLayout) : Enc :=
  l.extents.foldl (fun e x => (e.put x.lbaStart).put x.lbaCount) (e.put l.startOffset)

/-- The memory holds these words from `b` on. -/
def HoldsWords (u64data : ℕ → UInt64) (b : ℕ) (ws : List UInt64) : Prop :=
  ∀ i (h : i < ws.length), u64data (b + i) = ws.get ⟨i, h⟩

theorem holdsWords_cons {u : ℕ → UInt64} {b : ℕ} {w : UInt64} {ws : List UInt64} :
    HoldsWords u b (w :: ws) ↔ u b = w ∧ HoldsWords u (b + 1) ws := by
  constructor
  · intro h
    refine ⟨h 0 (Nat.succ_pos _), fun i hi => ?_⟩
    have := h (i + 1) (Nat.succ_lt_succ hi)
    rwa [← Nat.add_assoc, Nat.add_right_comm] at this
  · rintro ⟨h0, h⟩ i hi
    cases i with
    | zero => exact h0
    | succ i =>
      rw [← Nat.add_assoc, Nat.add_right_comm]
      exact h i (Nat.lt_of_succ_lt_succ hi)

theorem holdsWords_append {u : ℕ → UInt64} : ∀ {b : ℕ} {ws ws' : List UInt64},
    HoldsWords u b (ws ++ ws') ↔ HoldsWords u b ws ∧ HoldsWords u (b + ws.length) ws'
  | b, [], ws' => ⟨fun h => ⟨fun i hi => absurd hi (Nat.not_lt_zero i), h⟩, fun h => h.2⟩
  | b, w :: ws, ws' => by
      rw [List.cons_append, holdsWords_cons, holdsWords_append, holdsWords_cons, and_assoc,
        List.length_cons, Nat.add_right_comm, ← Nat.add_assoc]

/-- The words of a file. -/
def FileLayout.words (l : FileLayout) : List UInt64 :=
  l.startOffset :: l.extents.flatMap fun x => [x.lbaStart, x.lbaCount]

theorem FileLayout.length_words (l : FileLayout) : l.words.length = 1 + 2 * l.extents.length := by
  rw [words, List.length_cons, List.length_flatMap]
  simp only [List.length_cons, List.length_nil, List.map_const', List.sum_replicate_nat]
  omega

theorem Enc.putLayout_eq (e : Enc) (l : FileLayout) : e.putLayout l = l.words.foldl Enc.put e := by
  rw [putLayout, FileLayout.words, List.foldl_cons, List.foldl_flatMap]
  rfl

/-- **What a run of stores leaves behind**, as long as the cursor does not wrap. -/
theorem Enc.put_all : ∀ (ws : List UInt64) (e : Enc), e.bufnum.toNat + ws.length < 2 ^ 32 →
    (ws.foldl Enc.put e).bufnum.toNat = e.bufnum.toNat + ws.length ∧
    (ws.foldl Enc.put e).stores = e.stores ++ List.range' e.bufnum.toNat ws.length ∧
    HoldsWords (ws.foldl Enc.put e).u64data e.bufnum.toNat ws ∧
    ∀ k < e.bufnum.toNat, (ws.foldl Enc.put e).u64data k = e.u64data k
  | [], e, _ => by
      refine ⟨rfl, ?_, fun i hi => absurd hi (Nat.not_lt_zero i), fun _ _ => rfl⟩
      simp
  | w :: ws, e, h => by
      rw [List.length_cons] at h
      have hb : (e.put w).bufnum.toNat = e.bufnum.toNat + 1 := by
        rw [put, UInt32.toNat_add]
        exact Nat.mod_eq_of_lt (by rw [UInt32.toNat_one]; omega)
      obtain ⟨hbuf, hstores, hwords, hkeep⟩ := put_all ws (e.put w) (by omega)
      rw [hb] at hbuf hstores hwords hkeep
      rw [List.foldl_cons]
      refine ⟨by rw [hbuf, List.length_cons]; omega, ?_, ?_, fun k hk => ?_⟩
      · rw [hstores, put, List.append_assoc, List.length_cons, List.range'_succ,
          List.singleton_append]
      · refine holdsWords_cons.mpr ⟨?_, hwords⟩
        rw [hkeep _ (Nat.lt_succ_self _), put_u64data, Function.update_self]
      · rw [hkeep k (Nat.lt_succ_of_lt hk), put_u64data, Function.update_of_ne (Nat.ne_of_lt hk)]

/-! ## The `0xE0` branch of `passthru` -/

/-- What `passthru` is given for a HEaaN add, and what its calls answer. -/
structure HeaanCall where
  /-- `open(cfg.metadata)` succeeds, or the name is empty. -/
  metadataOk : Bool := true
  /-- `get_file_layout(cfg.input_file)`. -/
  input0 : Option FileLayout
  /-- `get_file_layout(cfg.metadata)`. -/
  input1 : Option FileLayout
  /-- `fallocate` on the target, which also fails where `open` did. -/
  fallocateOk : Bool := true
  /-- `get_file_layout(cfg.target_file)`, after `fallocate`. -/
  target : Option FileLayout
  /-- `nvme_alloc_huge`. -/
  dataOk : Bool := true
  /-- `cfg.prefill`. -/
  prefill : UInt8 := 0
  /-- The memory `nvme_alloc_huge` returns, and what lies behind it. -/
  memory : ℕ → UInt64 := fun _ => 0
  /-- `cfg.dry_run`. -/
  dryRun : Bool := false

/-- `cfg.data_len` of a HEaaN add. -/
def heaanDataLen : ℕ := 4096

/-- How `passthru` ends. -/
inductive PassthruEnd
  /-- It returns this value without having sent a command. -/
  | returned (err : ℤ)
  /-- It sends a command. -/
  | sent (cdw11 cdw12 cdw13 : UInt32) (u64data : ℕ → UInt64)

/-- `memset(data, cfg.prefill, cfg.data_len)`. -/
def HeaanCall.prefilled (c : HeaanCall) (k : ℕ) : UInt64 :=
  if k < heaanDataLen / 8 then c.prefill.toUInt64 * 0x0101010101010101 else c.memory k

/-- The payload of three layouts. -/
def HeaanCall.encode (c : HeaanCall) (l0 l1 lt : FileLayout) : Enc :=
  ((({ u64data := c.prefilled } : Enc).putLayout l0).putLayout l1).putLayout lt

/-- The end of `passthru`: a dry run stops short of the device. -/
def HeaanCall.send (c : HeaanCall) (l0 l1 lt : FileLayout) : PassthruEnd :=
  if c.dryRun then .returned 0 else
  .sent (.ofNat l0.extents.length) (.ofNat l1.extents.length) (.ofNat lt.extents.length)
    (c.encode l0 l1 lt).u64data

/-- **`passthru` for opcode `0xE0`**: the indices it stores to, and how it ends. -/
def passthruHeaan (c : HeaanCall) : List ℕ × PassthruEnd :=
  if !c.metadataOk then ([], .returned (-22)) else
  match c.input0 with
  | none => ([], .returned 1)
  | some l0 =>
  match c.input1 with
  | none => ([], .returned 1)
  | some l1 =>
  if !c.fallocateOk then ([], .returned 1) else
  match c.target with
  | none => ([], .returned 1)
  | some lt =>
  if !c.dataOk then ([], .returned (-12)) else
  ((c.encode l0 l1 lt).stores, c.send l0 l1 lt)

/-- The calls up to the first store succeed, with these layouts. -/
structure HeaanCall.Encodes (c : HeaanCall) (l0 l1 lt : FileLayout) : Prop where
  metadataOk : c.metadataOk = true
  input0 : c.input0 = some l0
  input1 : c.input1 = some l1
  fallocateOk : c.fallocateOk = true
  target : c.target = some lt
  dataOk : c.dataOk = true

/-- **Inversion of `passthru`**: it returns an error before the first store, or it encodes. -/
theorem passthruHeaan_cases (c : HeaanCall) :
    (∃ err, err ≠ 0 ∧ passthruHeaan c = ([], .returned err)) ∨
    ∃ l0 l1 lt, c.Encodes l0 l1 lt ∧
      passthruHeaan c = ((c.encode l0 l1 lt).stores, c.send l0 l1 lt) := by
  unfold passthruHeaan
  split
  · exact Or.inl ⟨_, by decide, rfl⟩
  rename_i hm
  split
  · exact Or.inl ⟨_, by decide, rfl⟩
  rename_i l0 h0
  split
  · exact Or.inl ⟨_, by decide, rfl⟩
  rename_i l1 h1
  split
  · exact Or.inl ⟨_, by decide, rfl⟩
  rename_i hf
  split
  · exact Or.inl ⟨_, by decide, rfl⟩
  rename_i lt ht
  split
  · exact Or.inl ⟨_, by decide, rfl⟩
  rename_i hd
  exact Or.inr ⟨l0, l1, lt, ⟨by simpa using hm, h0, h1, by simpa using hf, ht, by simpa using hd⟩,
    rfl⟩

theorem HeaanCall.Encodes.passthru_eq {c : HeaanCall} {l0 l1 lt : FileLayout}
    (h : c.Encodes l0 l1 lt) :
    passthruHeaan c = ((c.encode l0 l1 lt).stores, c.send l0 l1 lt) := by
  simp only [passthruHeaan, h.metadataOk, h.input0, h.input1, h.fallocateOk, h.target, h.dataOk,
    Bool.not_true, Bool.false_eq_true, if_false]

/-! ## What is stored where -/

section Encode

variable (c : HeaanCall) (l0 l1 lt : FileLayout)

theorem HeaanCall.encode_eq : c.encode l0 l1 lt =
    (l0.words ++ l1.words ++ lt.words).foldl Enc.put { u64data := c.prefilled } := by
  rw [encode, Enc.putLayout_eq, Enc.putLayout_eq, Enc.putLayout_eq, List.foldl_append,
    List.foldl_append]

theorem length_payload : (l0.words ++ l1.words ++ lt.words).length
    = 3 + 2 * (l0.extents.length + l1.extents.length + lt.extents.length) := by
  rw [List.length_append, List.length_append, l0.length_words, l1.length_words, lt.length_words]
  omega

/-- **The encoder stores one word behind the other**, from the first word of the buffer on. -/
theorem HeaanCall.encode_spec :
    (c.encode l0 l1 lt).stores
      = List.range (3 + 2 * (l0.extents.length + l1.extents.length + lt.extents.length)) ∧
    HoldsWords (c.encode l0 l1 lt).u64data 0 (l0.words ++ l1.words ++ lt.words) := by
  have h0 := l0.length_le
  have h1 := l1.length_le
  have ht := lt.length_le
  unfold maxExtents at h0 h1 ht
  have hlen := length_payload l0 l1 lt
  obtain ⟨-, hstores, hwords, -⟩ := Enc.put_all (l0.words ++ l1.words ++ lt.words)
    { u64data := c.prefilled } (by rw [hlen]; dsimp only; rw [UInt32.toNat_zero]; omega)
  rw [c.encode_eq, hstores, hlen, List.range_eq_range']
  exact ⟨rfl, hwords⟩

end Encode

/-- **The encoder stays inside its buffer exactly when** a call fails before the first store, or the
three layouts together fit. -/
theorem passthruHeaan_stores_iff (c : HeaanCall) :
    (∀ k ∈ (passthruHeaan c).1, k < heaanDataLen / 8) ↔
      ∀ l0 l1 lt, c.Encodes l0 l1 lt →
        3 + 2 * (l0.extents.length + l1.extents.length + lt.extents.length)
          ≤ heaanDataLen / 8 := by
  constructor
  · intro h l0 l1 lt henc
    rw [henc.passthru_eq, (c.encode_spec l0 l1 lt).1] at h
    have := h (2 + 2 * (l0.extents.length + l1.extents.length + lt.extents.length))
      (List.mem_range.mpr (by omega))
    omega
  · intro h k hk
    rcases passthruHeaan_cases c with ⟨err, -, heq⟩ | ⟨l0, l1, lt, henc, heq⟩
    · rw [heq] at hk
      cases hk
    · rw [heq, (c.encode_spec l0 l1 lt).1, List.mem_range] at hk
      exact hk.trans_le (h l0 l1 lt henc)

/-- A file of so many 4096-byte extents, no two of them adjacent on the device. -/
def fragments (n : ℕ) : List FiemapExtent :=
  (List.range n).map fun i => ⟨4096 * .ofNat i, 8192 * .ofNat i, 4096, false⟩

theorem length_fragments (n : ℕ) : (fragments n).length = n := by
  rw [fragments, List.length_map, List.length_range]

/-- One input in 255 fragments: the last word is stored behind the buffer. -/
theorem passthruHeaan_overruns :
    ∃ c : HeaanCall,
      c.input0 = getFileLayout ⟨fragments 255, by decide +kernel, by decide +kernel⟩ true true ∧
      c.input1 = getFileLayout ⟨[], trivial, by decide⟩ true true ∧
      c.target = getFileLayout ⟨[], trivial, by decide⟩ true true ∧
      ¬ ∀ k ∈ (passthruHeaan c).1, k < heaanDataLen / 8 := by
  obtain ⟨l0, hl0⟩ : ∃ l,
      getFileLayout ⟨fragments 255, by decide +kernel, by decide +kernel⟩ true true = some l :=
    ⟨_, rfl⟩
  obtain ⟨l1, hl1⟩ : ∃ l, getFileLayout ⟨[], trivial, by decide⟩ true true = some l := ⟨_, rfl⟩
  refine ⟨⟨true, some l0, some l1, true, some l1, true, 0, fun _ => 0, false⟩, hl0.symm, hl1.symm,
    hl1.symm, fun h => ?_⟩
  have hlen : l0.extents.length = 255 := by
    rw [length_getFileLayout hl0, length_fragments]
    rfl
  rw [HeaanCall.Encodes.passthru_eq ⟨rfl, rfl, rfl, rfl, rfl, rfl⟩,
    (HeaanCall.encode_spec ..).1] at h
  exact absurd (h 512 (List.mem_range.mpr (by omega))) (by decide)

/-! ## The `0xD1` branch of `passthru` -/

/-- What `passthru` is given for a grep, and what its calls answer. -/
structure GrepCall where
  /-- `open(cfg.input_file)` succeeds, or the name is empty. -/
  inputOk : Bool := true
  /-- `open(cfg.metadata)` succeeds, or the name is empty. -/
  metadataOk : Bool := true
  /-- `get_file_layout(cfg.target_file)`. -/
  layout : Option FileLayout
  /-- `cfg.cdw10`, as given on the command line. -/
  cdw10 : UInt32 := 0
  /-- `cfg.cdw11`, as given on the command line. -/
  cdw11 : UInt32 := 0
  /-- `cfg.cdw12`, as given on the command line. -/
  cdw12 : UInt32 := 0
  /-- `nvme_alloc_huge`. -/
  dataOk : Bool := true
  /-- `cfg.prefill`. -/
  prefill : UInt8 := 0
  /-- `read(dfd, data, cfg.data_len)`: the keyword, or `errno`. -/
  input : Except ℤ (List UInt8) := .ok []
  /-- What a failed fill of the metadata buffer returns, where `cfg.metadata_len` asks for one. -/
  mdataErr : Option ℤ := none
  /-- `cfg.dry_run`. -/
  dryRun : Bool := false

/-- `cfg.data_len` of a grep. -/
def grepDataLen : ℕ := 8192

/-- How `passthru` ends for a grep. -/
inductive GrepEnd
  /-- It returns this value without having sent a command. -/
  | returned (err : ℤ)
  /-- It sends a command. -/
  | sent (cdw10 cdw11 cdw12 : UInt32) (data : List UInt8)

/-- `cfg.cdw11` and `cfg.cdw12` behind the loop over the extents: each turn overwrites both. -/
def GrepCall.dwords (c : GrepCall) (l : FileLayout) : UInt32 × UInt32 :=
  l.extents.foldl (fun _ x => (x.lbaStart.toUInt32, x.lbaCount.toUInt32)) (c.cdw11, c.cdw12)

/-- The buffer sent: the keyword, and `cfg.prefill` behind it. -/
def GrepCall.payload (c : GrepCall) (keyword : List UInt8) : List UInt8 :=
  (keyword ++ List.replicate grepDataLen c.prefill).take grepDataLen

/-- **`passthru` for opcode `0xD1`**. -/
def passthruGrep (c : GrepCall) : GrepEnd :=
  if !c.inputOk then .returned (-22) else
  if !c.metadataOk then .returned (-22) else
  match c.layout with
  | none => .returned 1
  | some l =>
  if !c.dataOk then .returned (-12) else
  match c.input with
  | .error errno => .returned (-errno)
  | .ok keyword =>
  match c.mdataErr with
  | some err => .returned err
  | none =>
  if c.dryRun then .returned 0 else
  .sent c.cdw10 (c.dwords l).1 (c.dwords l).2 (c.payload keyword)

/-- Every call succeeds, with this layout and this keyword, and it is no dry run. -/
structure GrepCall.Sends (c : GrepCall) (l : FileLayout) (keyword : List UInt8) : Prop where
  inputOk : c.inputOk = true
  metadataOk : c.metadataOk = true
  layout : c.layout = some l
  dataOk : c.dataOk = true
  input : c.input = .ok keyword
  mdataErr : c.mdataErr = none
  dryRun : c.dryRun = false

/-- **Inversion of `passthru`**: it returns, or every call has succeeded and it sends. -/
theorem passthruGrep_cases (c : GrepCall) :
    (∃ err, passthruGrep c = .returned err) ∨
    ∃ l keyword, c.Sends l keyword ∧
      passthruGrep c = .sent c.cdw10 (c.dwords l).1 (c.dwords l).2 (c.payload keyword) := by
  unfold passthruGrep
  split
  · exact Or.inl ⟨_, rfl⟩
  rename_i hi
  split
  · exact Or.inl ⟨_, rfl⟩
  rename_i hm
  split
  · exact Or.inl ⟨_, rfl⟩
  rename_i l hl
  split
  · exact Or.inl ⟨_, rfl⟩
  rename_i hd
  split
  · exact Or.inl ⟨_, rfl⟩
  rename_i keyword hk
  split
  · exact Or.inl ⟨_, rfl⟩
  rename_i hmd
  split
  · exact Or.inl ⟨_, rfl⟩
  rename_i hdry
  exact Or.inr ⟨l, keyword, ⟨by simpa using hi, by simpa using hm, hl, by simpa using hd, hk, hmd,
    by simpa using hdry⟩, rfl⟩

theorem GrepCall.Sends.passthru_eq {c : GrepCall} {l : FileLayout} {keyword : List UInt8}
    (h : c.Sends l keyword) :
    passthruGrep c = .sent c.cdw10 (c.dwords l).1 (c.dwords l).2 (c.payload keyword) := by
  simp only [passthruGrep, h.inputOk, h.metadataOk, h.layout, h.dataOk, h.input, h.mdataErr,
    h.dryRun, Bool.not_true, Bool.false_eq_true, if_false]

/-- The segment two dwords address: the last extent, each end cut to 32 bits; the command line's
dwords where the file has no extent. -/
def GrepCall.lastRange (c : GrepCall) (l : FileLayout) : Seg :=
  match l.extents.getLast? with
  | some x => ⟨x.lbaStart.toNat % 2 ^ 32, x.lbaCount.toNat % 2 ^ 32⟩
  | none => ⟨c.cdw11.toNat, c.cdw12.toNat⟩

/-- **Only the last extent survives the loop.** -/
theorem GrepCall.dwords_eq (c : GrepCall) (l : FileLayout) :
    (⟨(c.dwords l).1.toNat, (c.dwords l).2.toNat⟩ : Seg) = c.lastRange l := by
  unfold dwords lastRange
  rcases List.eq_nil_or_concat l.extents with hnil | ⟨xs, x, hx⟩
  · rw [hnil]
    rfl
  · rw [hx, List.concat_eq_append, List.foldl_concat, List.getLast?_concat]
    simp only [UInt64.toNat_toUInt32]

end NdpHeaan
