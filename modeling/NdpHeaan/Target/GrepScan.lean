import Mathlib.Data.List.Infix
import Mathlib.Data.List.TakeWhile
import NdpHeaan.Machinery.Growth
import NdpHeaan.Target.DataIo

/-!
# Target/GrepScan — the lines a grep collects

`nvmf_bdev_ctrlr_complete_cmd_custom` takes the copy of the payload for a C string, cuts the data of
each iovec into lines and collects those in which the string occurs.  Nothing gives the copy a
terminator, so the string ends where the heap happens to hold a zero; and the buffer the lines are
collected in is doubled once where a line does not fit, however long the line.
-/

open Machinery

namespace NdpHeaan

/-! ## C strings -/

/-- The string that begins a stretch of memory. -/
def cString (mem : List UInt8) : List UInt8 := mem.takeWhile (· ≠ 0)

/-- `strstr`, as far as it is compared with `NULL`. -/
def strstr (haystack needle : List UInt8) : Bool := decide (needle <:+: cString haystack)

/-- `'\n'`. -/
def newline : UInt8 := 10

/-- The keyword of a copy, with the bytes behind it, less one newline at its end. -/
def grepKeyword (payload behind : List UInt8) : List UInt8 :=
  let keyword := cString (payload ++ behind)
  if keyword.getLast? = some newline then keyword.dropLast else keyword

/-! ## The scan -/

/-- The line loop over one iovec: a line ends at a newline, and at the end of the iovec. -/
def linesFrom (line : List UInt8) : List UInt8 → List (List UInt8)
  | [] => []
  | b :: bs =>
    if b = newline ∨ bs = [] then (line ++ [b]) :: linesFrom [] bs else linesFrom (line ++ [b]) bs

/-- The lines of all iovecs. -/
def grepLines (iov : List (List UInt8)) : List (List UInt8) := iov.flatMap (linesFrom [])

/-- A copy of a line and its newline into `result_buffer`. -/
structure Store where
  /-- `result_size`. -/
  size : ℕ
  /-- `line_len`. -/
  len : ℕ
  /-- `result_capacity`. -/
  capacity : ℕ
  deriving DecidableEq, Repr

/-- The copy stays inside the buffer. -/
def Store.Inside (s : Store) : Prop := s.size + s.len + 1 ≤ s.capacity

/-- `result_buffer`. -/
structure ResultBuf where
  /-- What was stored; `result_size` is its length. -/
  bytes : List UInt8 := []
  capacity : ℕ := 4096
  /-- The calls of `realloc` so far. -/
  reallocs : ℕ := 0
  /-- The copies into it, oldest first. -/
  stores : List Store := []

/-- `memcpy`, the newline, and `result_size += line_len + 1`. -/
def ResultBuf.store (b : ResultBuf) (line : List UInt8) : ResultBuf :=
  { b with
    bytes := b.bytes ++ line ++ [newline]
    stores := b.stores ++ [⟨b.bytes.length, line.length, b.capacity⟩] }

/-- `realloc` to twice the capacity. -/
def ResultBuf.double (b : ResultBuf) : ResultBuf :=
  { b with capacity := b.capacity * 2, reallocs := b.reallocs + 1 }

/-- What the loops leave: the buffer, and whether they came to their end. -/
structure ScanEnd where
  buf : ResultBuf
  /-- `false` where a `realloc` has failed. -/
  finished : Bool

/-- **The loop over the lines**, where `reallocOk` answers the calls of `realloc`. -/
def scanLines (keyword : List UInt8) (reallocOk : ℕ → Bool) :
    ResultBuf → List (List UInt8) → ScanEnd
  | b, [] => ⟨b, true⟩
  | b, line :: lines =>
    if strstr line keyword then
      if b.bytes.length + line.length + 1 > b.capacity then
        if !reallocOk b.reallocs then ⟨b, false⟩
        else scanLines keyword reallocOk (b.double.store line) lines
      else scanLines keyword reallocOk (b.store line) lines
    else scanLines keyword reallocOk b lines

/-- The lines in which the keyword occurs. -/
def matchingLines (keyword : List UInt8) (iov : List (List UInt8)) : List (List UInt8) :=
  (grepLines iov).filter (strstr · keyword)

/-- Lines as they are collected: each with one more newline. -/
def listing (lines : List (List UInt8)) : List UInt8 := lines.flatMap (· ++ [newline])

/-! ## What the scan leaves -/

/-- A line is collected: the buffer doubled if it is too small, then the copy. -/
def ResultBuf.put (b : ResultBuf) (line : List UInt8) : ResultBuf :=
  if b.bytes.length + line.length + 1 > b.capacity then b.double.store line else b.store line

section Put

variable (b : ResultBuf) (line : List UInt8)

@[simp] theorem ResultBuf.put_bytes : (b.put line).bytes = b.bytes ++ line ++ [newline] := by
  unfold put
  split <;> rfl

theorem ResultBuf.length_put : (b.put line).bytes.length = b.bytes.length + (line.length + 1) := by
  rw [put_bytes, List.length_append, List.length_append, List.length_singleton, Nat.add_assoc]

theorem ResultBuf.put_capacity :
    (b.put line).capacity = grow b.capacity (b.bytes.length + (line.length + 1)) := by
  unfold put grow
  rw [← Nat.add_assoc]
  split
  · exact Nat.mul_comm _ _
  · rfl

theorem ResultBuf.put_stores : (b.put line).stores
    = b.stores ++ [⟨b.bytes.length, line.length, (b.put line).capacity⟩] := by
  unfold put
  split <;> rfl

end Put

section Scan

variable {keyword : List UInt8} {reallocOk : ℕ → Bool} {b : ResultBuf} {line : List UInt8}
  {lines : List (List UInt8)}

/-- **Inversion of the loop**: a line is skipped, ends the scan for want of memory, or is
collected. -/
theorem scanLines_cons : scanLines keyword reallocOk b (line :: lines) =
    if strstr line keyword then
      if b.capacity < b.bytes.length + line.length + 1 ∧ reallocOk b.reallocs = false then
        ⟨b, false⟩
      else scanLines keyword reallocOk (b.put line) lines
    else scanLines keyword reallocOk b lines := by
  rw [scanLines, ResultBuf.put]
  by_cases hfull : b.bytes.length + line.length + 1 > b.capacity
  · have hfull' : b.capacity < b.bytes.length + line.length + 1 := hfull
    cases hok : reallocOk b.reallocs <;> simp [hfull']
  · have hfull' : ¬ b.capacity < b.bytes.length + line.length + 1 := hfull
    simp [hfull']

/-- **The lines are collected in order**, as long as `realloc` succeeds. -/
theorem scanLines_bytes (hok : ∀ k, reallocOk k = true) : ∀ (b : ResultBuf)
    (lines : List (List UInt8)),
      (scanLines keyword reallocOk b lines).finished = true ∧
      (scanLines keyword reallocOk b lines).buf.bytes
        = b.bytes ++ listing (lines.filter (strstr · keyword))
  | b, [] => ⟨rfl, (List.append_nil _).symm⟩
  | b, line :: lines => by
      rw [scanLines_cons, List.filter_cons]
      split
      · rw [if_neg fun h => Bool.noConfusion ((hok _).symm.trans h.2)]
        obtain ⟨hfin, hbytes⟩ := scanLines_bytes hok (b.put line) lines
        refine ⟨hfin, ?_⟩
        rw [hbytes, ResultBuf.put_bytes, listing, listing, List.flatMap_cons]
        simp only [List.append_assoc]
      · exact scanLines_bytes hok b lines

/-- Copies are not forgotten. -/
theorem mem_stores_scanLines {st : Store} : ∀ {b : ResultBuf} {lines : List (List UInt8)},
    st ∈ b.stores → st ∈ (scanLines keyword reallocOk b lines).buf.stores
  | _, [], h => h
  | b, line :: lines, h => by
      rw [scanLines_cons]
      split
      · split
        · exact h
        · refine mem_stores_scanLines ?_
          rw [ResultBuf.put_stores]
          exact List.mem_append_left _ h
      · exact mem_stores_scanLines h

end Scan

/-! ## When the copies stay inside -/

/-- **Doubling once suffices**: each line, added to what was collected before it, fits twice the
least capacity for that. -/
def DoublingSuffices (size : ℕ) (lines : List (List UInt8)) : Prop :=
  ∀ earlier line, earlier ++ [line] <+: lines →
    size + (listing earlier).length + (line.length + 1)
      ≤ 2 * grown 4096 (size + (listing earlier).length)

theorem length_listing_cons (line : List UInt8) (lines : List (List UInt8)) :
    (listing (line :: lines)).length = line.length + 1 + (listing lines).length := by
  rw [listing, List.flatMap_cons, List.length_append, List.length_append, List.length_singleton]
  rfl

theorem doublingSuffices_nil (size : ℕ) : DoublingSuffices size [] := by
  intro earlier line h
  simp at h

theorem doublingSuffices_cons {size : ℕ} {line : List UInt8} {lines : List (List UInt8)} :
    DoublingSuffices size (line :: lines) ↔
      size + (line.length + 1) ≤ 2 * grown 4096 size ∧
        DoublingSuffices (size + (line.length + 1)) lines := by
  constructor
  · intro h
    refine ⟨h [] line ⟨lines, rfl⟩, fun earlier line' hpre => ?_⟩
    have hle := h (line :: earlier) line' ((List.prefix_cons_inj line).mpr hpre)
    rwa [length_listing_cons, ← Nat.add_assoc size] at hle
  · rintro ⟨hfirst, hrest⟩ earlier line' hpre
    cases earlier with
    | nil =>
      obtain rfl : line' = line := (List.cons_prefix_cons.mp hpre).1
      exact hfirst
    | cons line'' earlier =>
      obtain ⟨rfl, hpre'⟩ := List.cons_prefix_cons.mp hpre
      rw [length_listing_cons, ← Nat.add_assoc size]
      exact hrest earlier line' hpre'

section Stores

variable {keyword : List UInt8}

/-- **Where doubling suffices, every copy stays inside**, whatever `realloc` answers: the capacity
is always the least one for what was collected. -/
theorem inside_of_doublingSuffices {reallocOk : ℕ → Bool} {st : Store} : ∀ {b : ResultBuf}
    {lines : List (List UInt8)}, b.capacity = grown 4096 b.bytes.length →
      DoublingSuffices b.bytes.length (lines.filter (strstr · keyword)) →
        st ∈ (scanLines keyword reallocOk b lines).buf.stores → st ∈ b.stores ∨ st.Inside
  | b, [], _, _, hst => Or.inl hst
  | b, line :: lines, hcap, hfits, hst => by
      rw [List.filter_cons] at hfits
      rw [scanLines_cons] at hst
      split at hst
      · rename_i hmatch
        rw [if_pos hmatch, doublingSuffices_cons] at hfits
        split at hst
        · exact Or.inl hst
        have hcap' : (b.put line).capacity = grown 4096 (b.bytes.length + (line.length + 1)) := by
          rw [b.put_capacity, hcap]
          exact grow_grown (by decide) hfits.1
        rcases inside_of_doublingSuffices (by rw [b.length_put, hcap'])
          (by rw [b.length_put]; exact hfits.2) hst with h | h
        · rw [b.put_stores, hcap'] at h
          refine (List.mem_append.mp h).imp_right fun h => ?_
          rw [List.mem_singleton.mp h]
          exact le_grown (by decide)
        · exact Or.inr h
      · rename_i hmatch
        rw [if_neg hmatch] at hfits
        exact inside_of_doublingSuffices hcap hfits hst

/-- **Where it does not, a copy runs past the end**, unless `realloc` fails before. -/
theorem exists_outside_of_not_doublingSuffices : ∀ {b : ResultBuf} {lines : List (List UInt8)},
    b.capacity = grown 4096 b.bytes.length →
      ¬ DoublingSuffices b.bytes.length (lines.filter (strstr · keyword)) →
        ∃ st ∈ (scanLines keyword (fun _ => true) b lines).buf.stores, ¬ st.Inside
  | b, [], _, hfits => absurd (doublingSuffices_nil _) hfits
  | b, line :: lines, hcap, hfits => by
      rw [List.filter_cons] at hfits
      rw [scanLines_cons]
      split
      · rename_i hmatch
        rw [if_pos hmatch, doublingSuffices_cons, not_and] at hfits
        rw [if_neg fun h => Bool.noConfusion h.2]
        by_cases hroom : b.bytes.length + (line.length + 1) ≤ 2 * grown 4096 b.bytes.length
        · refine exists_outside_of_not_doublingSuffices ?_ ?_
          · rw [b.put_capacity, b.length_put, hcap]
            exact grow_grown (by decide) hroom
          · rw [b.length_put]
            exact hfits hroom
        · -- twice the capacity is still too little
          refine ⟨⟨b.bytes.length, line.length, (b.put line).capacity⟩, ?_, fun h => hroom ?_⟩
          · refine mem_stores_scanLines ?_
            rw [b.put_stores]
            exact List.mem_append_right _ (List.mem_singleton_self _)
          · have hle : b.bytes.length + line.length + 1 ≤ (b.put line).capacity := h
            rw [b.put_capacity, hcap, grow] at hle
            split at hle <;> omega
      · rename_i hmatch
        rw [if_neg hmatch] at hfits
        exact exists_outside_of_not_doublingSuffices hcap hfits

end Stores

/-! ## The callback's scan, and its memory -/

/-- How far the callback gets with the data of a read. -/
inductive GrepOutcome
  /-- There is no iovec. -/
  | noData
  /-- `malloc` of the result buffer has failed. -/
  | noBuffer
  /-- A `realloc` has failed. -/
  | noMemory (buf : ResultBuf)
  | scanned (buf : ResultBuf)

/-- **The scan in `nvmf_bdev_ctrlr_complete_cmd_custom`**, over the keyword's copy and the heap
behind it. -/
def grepOutcome (payload behind : List UInt8) (iov : List (List UInt8)) (resultOk : Bool)
    (reallocOk : ℕ → Bool) : GrepOutcome :=
  if iov.length > 0 then
    if !resultOk then .noBuffer else
    let e := scanLines (grepKeyword payload behind) reallocOk {} (grepLines iov)
    if e.finished then .scanned e.buf else .noMemory e.buf
  else
    .noData

/-- The buffer of a scan that was begun. -/
def GrepOutcome.buf? : GrepOutcome → Option ResultBuf
  | .noData | .noBuffer => none
  | .noMemory buf | .scanned buf => some buf

/-- The bytes from the start of the copy that `strlen` and `strstr` read: a string and its
terminator. -/
def keywordRead (payload behind : List UInt8) : ℕ := (cString (payload ++ behind)).length + 1

/-- **Memory safety of the scan**, whatever the heap holds and the allocations come to: the keyword
is read inside its copy, the lines are stored inside the result buffer. -/
def GrepSafe (payload : List UInt8) (iov : List (List UInt8)) : Prop :=
  ∀ behind resultOk reallocOk buf,
    (grepOutcome payload behind iov resultOk reallocOk).buf? = some buf →
      keywordRead payload behind ≤ payload.length ∧ ∀ st ∈ buf.stores, st.Inside

section Safe

variable {payload behind : List UInt8} {iov : List (List UInt8)}

/-- The string takes up all of the memory exactly where that has no terminator. -/
theorem length_cString_eq_iff : (cString payload).length = payload.length ↔ 0 ∉ payload := by
  have hself : (cString payload).length = payload.length ↔ cString payload = payload :=
    ⟨fun h => (List.takeWhile_prefix _).eq_of_length h, congrArg _⟩
  rw [hself, cString, List.takeWhile_eq_self_iff]
  constructor
  · exact fun h hz => by simpa using h 0 hz
  · exact fun h b hb => decide_eq_true fun hz => h (hz ▸ hb)

/-- A terminator in the copy ends the string there; without one it goes on behind. -/
theorem cString_append : cString (payload ++ behind)
    = if 0 ∈ payload then cString payload else payload ++ cString behind := by
  have h : cString (payload ++ behind) = if (cString payload).length = payload.length
      then payload ++ cString behind else cString payload := List.takeWhile_append
  by_cases hz : 0 ∈ payload
  · rw [h, if_pos hz, if_neg fun hlen => length_cString_eq_iff.mp hlen hz]
  · rw [h, if_neg hz, if_pos (length_cString_eq_iff.mpr hz)]

theorem keywordRead_le_iff : keywordRead payload behind ≤ payload.length ↔ 0 ∈ payload := by
  rw [keywordRead, cString_append]
  split
  · rename_i hz
    have hle : (cString payload).length ≤ payload.length := (List.takeWhile_prefix _).length_le
    exact iff_of_true
      (Nat.lt_of_le_of_ne hle fun hlen => length_cString_eq_iff.mp hlen hz) hz
  · rename_i hz
    refine iff_of_false (fun hle => ?_) hz
    rw [List.length_append] at hle
    omega

theorem grepKeyword_append (h : 0 ∈ payload) :
    grepKeyword payload behind = grepKeyword payload [] := by
  rw [grepKeyword, grepKeyword, cString_append, cString_append, if_pos h, if_pos h]

/-- A scan that was begun, as the loop. -/
theorem buf?_grepOutcome {resultOk : Bool} {reallocOk : ℕ → Bool} {buf : ResultBuf} :
    (grepOutcome payload behind iov resultOk reallocOk).buf? = some buf ↔
      iov ≠ [] ∧ resultOk = true ∧
        (scanLines (grepKeyword payload behind) reallocOk {} (grepLines iov)).buf = buf := by
  unfold grepOutcome
  cases iov with
  | nil => simp [GrepOutcome.buf?]
  | cons v vs =>
    cases resultOk with
    | false => simp [GrepOutcome.buf?]
    | true =>
      simp only [List.length_cons, Nat.succ_pos, gt_iff_lt, if_true, Bool.not_true,
        Bool.false_eq_true, if_false, ne_eq, reduceCtorEq, not_false_eq_true, true_and]
      split <;> exact Option.some_inj

end Safe

/-- **Grep is memory-safe exactly when** there is no data to scan, or the payload holds a
terminator and doubling suffices for the lines in which the keyword occurs. -/
theorem grepSafe_iff (r : DataReq) (iov : List (List UInt8)) :
    GrepSafe r.iov.flatten iov ↔ (iov ≠ [] → 0 ∈ r.iov.flatten ∧
      DoublingSuffices 0 (matchingLines (grepKeyword r.iov.flatten []) iov)) := by
  have hcap : ({} : ResultBuf).capacity = grown 4096 ({} : ResultBuf).bytes.length :=
    (grown_zero (by decide)).symm
  constructor
  · intro h hne
    have hscan := fun behind => h behind true (fun _ => true) _
      (buf?_grepOutcome.mpr ⟨hne, rfl, rfl⟩)
    refine ⟨keywordRead_le_iff.mp (hscan []).1, ?_⟩
    by_contra hno
    obtain ⟨st, hst, hout⟩ := exists_outside_of_not_doublingSuffices hcap hno
    exact hout ((hscan []).2 st hst)
  · intro h behind resultOk reallocOk buf hbuf
    obtain ⟨hne, -, rfl⟩ := buf?_grepOutcome.mp hbuf
    obtain ⟨hzero, hfits⟩ := h hne
    refine ⟨keywordRead_le_iff.mpr hzero, fun st hst => ?_⟩
    rw [grepKeyword_append hzero] at hst
    exact (inside_of_doublingSuffices hcap hfits hst).resolve_left List.not_mem_nil

/-- A keyword of one letter, without a terminator. -/
def DataReq.bareKeyword : DataReq := ⟨1, 0, 1, 0, 1, [[97]], rfl⟩

theorem not_grepSafe_bareKeyword : ¬ GrepSafe DataReq.bareKeyword.iov.flatten [[97]] := by
  intro h
  have hread := (h [] true (fun _ => true) _
    (buf?_grepOutcome.mpr ⟨List.cons_ne_nil _ _, rfl, rfl⟩)).1
  exact absurd hread (by decide)

end NdpHeaan
