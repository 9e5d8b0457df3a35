import Mathlib.Data.List.SplitBy
import NdpHeaan.Target.GrepRetry

/-!
# Target/GrepFilter — grep as a filter of lines

On one iovec the callback of a grep is a filter: the lines of the data in which the keyword occurs,
each with one more newline, the last newline a terminator.  On several iovecs a line also ends where
an iovec does, so what is found depends on how the data is buffered.
-/

open Machinery

namespace NdpHeaan

/-! ## Lines -/

/-- **The lines of some data**, each with its newline; the last one may have none. -/
def linesOf (data : List UInt8) : List (List UInt8) := data.splitBy fun b _ => b != newline

/-- A keyword less one newline at its end. -/
def stripNewline (keyword : List UInt8) : List UInt8 :=
  if keyword.getLast? = some newline then keyword.dropLast else keyword

/-- The keyword occurs in the line, before any NUL. -/
def OccursIn (keyword line : List UInt8) : Prop := keyword <:+: line.takeWhile (· ≠ 0)
  deriving Decidable

/-- The lines of some data in which a keyword occurs. -/
def filteredLines (keyword data : List UInt8) : List (List UInt8) :=
  (linesOf data).filter fun line => OccursIn (stripNewline keyword) line

/-- No line is cut: an iovec ends behind a newline, or nothing but empty iovecs is on one of its
sides. -/
def WholeLines (iov : List (List UInt8)) : Prop :=
  ∀ pre post, iov = pre ++ post →
    pre.flatten = [] ∨ post.flatten = [] ∨ pre.flatten.getLast? = some newline

section Lines

variable {data : List UInt8} {iov : List (List UInt8)}

/-- The line loop over one iovec, from inside a line. -/
theorem loop_eq_linesFrom : ∀ (bs : List UInt8) (b : UInt8) (g : List UInt8)
    (gs : List (List UInt8)),
    List.splitBy.loop (fun b _ => b != newline) bs b g gs =
      gs.reverse ++ linesFrom g.reverse (b :: bs)
  | [], b, g, gs => by
      simp [List.splitBy.loop, linesFrom]
  | c :: bs, b, g, gs => by
      rw [List.splitBy.loop, linesFrom]
      by_cases hb : b = newline
      · simp [hb, loop_eq_linesFrom bs c]
      · have hne : (b != newline) = true := by simpa using hb
        simp [hb, hne, loop_eq_linesFrom bs c]

/-- **The line loop finds the lines of its iovec.** -/
theorem linesFrom_eq_linesOf : ∀ data : List UInt8, linesFrom [] data = linesOf data
  | [] => rfl
  | b :: bs => (loop_eq_linesFrom bs b [] []).symm

/-- The loop over all of them ends a line where an iovec ends. -/
theorem grepLines_eq_flatMap (iov : List (List UInt8)) : grepLines iov = iov.flatMap linesOf :=
  congrArg iov.flatMap (funext linesFrom_eq_linesOf)

theorem grepLines_singleton : grepLines [data] = linesOf data := by
  rw [grepLines_eq_flatMap, List.flatMap_singleton]

theorem WholeLines.tail {v : List UInt8} (h : WholeLines (v :: iov)) : WholeLines iov := by
  rintro pre post rfl
  by_cases hpre : pre.flatten = []
  · exact .inl hpre
  · rcases h (v :: pre) post rfl with hnil | hpost | hlast
    · exact absurd (List.append_eq_nil_iff.mp hnil).2 hpre
    · exact .inr (.inl hpost)
    · right; right
      rwa [List.flatten_cons, List.getLast?_append_of_ne_nil _ hpre] at hlast

/-- **Where no line is cut, the loop finds the lines of all the data.** -/
theorem WholeLines.grepLines_eq : ∀ {iov : List (List UInt8)}, WholeLines iov →
    grepLines iov = linesOf iov.flatten
  | [], _ => rfl
  | v :: iov, h => by
      have hrest : grepLines iov = linesOf iov.flatten := h.tail.grepLines_eq
      have hcut : ∀ x ∈ v.getLast?, ∀ y ∈ iov.flatten.head?, (x != newline) = false := by
        intro x hx y hy
        rcases h [v] iov rfl with hnil | hnil | hlast
        · simp only [List.flatten_cons, List.flatten_nil, List.append_nil] at hnil
          simp [hnil] at hx
        · simp [hnil] at hy
        · simp only [List.flatten_cons, List.flatten_nil, List.append_nil] at hlast
          simpa using Option.some.inj (hx.symm.trans hlast)
      rw [grepLines_eq_flatMap] at hrest ⊢
      rw [List.flatMap_cons, hrest, List.flatten_cons, linesOf, linesOf, linesOf,
        List.splitBy_append hcut]

end Lines

/-! ## The keyword -/

section Keyword

variable {keyword rest behind : List UInt8}

/-- The keyword of a copy with a terminator in it. -/
theorem grepKeyword_of_terminated (h : 0 ∉ keyword) :
    grepKeyword (keyword ++ 0 :: rest) behind = stripNewline keyword := by
  have hstring : cString (keyword ++ 0 :: rest) = keyword := by
    rw [cString_append, if_neg h, cString, List.takeWhile_cons_of_neg (by simp), List.append_nil]
  rw [grepKeyword_append (by simp), grepKeyword, List.append_nil, hstring, stripNewline]

end Keyword

/-! ## One iovec -/

/-- The copies of lines of up to 4095 bytes stay inside the buffer. -/
theorem doublingSuffices_of_short {lines : List (List UInt8)}
    (h : ∀ line ∈ lines, line.length ≤ 4095) (size : ℕ) : DoublingSuffices size lines := by
  intro earlier line hpre
  have hline : line.length ≤ 4095 := h line (hpre.subset (by simp))
  have hbase := base_le_grown 4096 (size + (listing earlier).length)
  have hgrown : size + (listing earlier).length ≤ grown 4096 (size + (listing earlier).length) :=
    le_grown (by decide)
  omega

/-- **Every copy of the scan stays inside the result buffer.** -/
theorem stores_inside_of_short {payload behind : List UInt8} {iov : List (List UInt8)}
    {buf : ResultBuf}
    (h : ∀ line ∈ grepLines iov, line.length ≤ 4095)
    (hbuf : (grepOutcome payload behind iov true fun _ => true).buf? = some buf) :
    ∀ st ∈ buf.stores, st.Inside := by
  obtain ⟨-, -, rfl⟩ := buf?_grepOutcome.mp hbuf
  intro st hst
  have hcap : ({} : ResultBuf).capacity = grown 4096 ({} : ResultBuf).bytes.length :=
    (grown_zero (by decide)).symm
  refine (inside_of_doublingSuffices hcap (doublingSuffices_of_short (fun line hline => ?_) _)
    hst).resolve_left List.not_mem_nil
  exact h line (List.mem_of_mem_filter hline)

section Filter

variable {keyword rest data behind : List UInt8} {s : GrepSt}

theorem matchingLines_eq_filter (hterm : 0 ∉ keyword) (iov : List (List UInt8)) :
    matchingLines (grepKeyword (keyword ++ 0 :: rest) behind) iov
      = (grepLines iov).filter fun line => OccursIn (stripNewline keyword) line := by
  rw [grepKeyword_of_terminated hterm]
  rfl

/-- A list of one iovec, filled. -/
theorem fillIov_singleton (bs data : List UInt8) :
    fillIov bs (setIov 0 [data]) = [(bs ++ List.replicate data.length 0).take data.length] := by
  have hflat := flatten_fillIov_setIov 0 bs [data]
  simp only [List.flatten_cons, List.flatten_nil, List.append_nil] at hflat
  rw [← hflat]
  simp [setIov, fillIov]

/-- **GREP on one iovec is a filter of lines.** -/
theorem completeCmdCustom_filters (hkeyword : s.keyword = keyword ++ 0 :: rest)
    (hterm : 0 ∉ keyword)
    (hiov : s.iov = [data]) (hlines : ∀ line ∈ linesOf data, line.length ≤ 4095) (success : Bool)
    (behind : List UInt8) :
    let lines := filteredLines keyword data
    let s' := nvmfBdevCtrlrCompleteCmdCustom success behind true (fun _ => true) s
    (∃ u, s'.trace = s.trace ++ u ∧ CmdEffect.statuses .success u
      = [if lines = [] then .internalDeviceError else .success]) ∧
    (lines ≠ [] → s'.iov = [((lines.flatMap (· ++ [newline])).dropLast ++ [0]
      ++ List.replicate data.length 0).take data.length]) ∧
    ∀ buf, (grepOutcome s.keyword behind s.iov true fun _ => true).buf? = some buf →
      ∀ st ∈ buf.stores, st.Inside := by
  intro lines s'
  have hmatch : matchingLines (grepKeyword s.keyword behind) s.iov = lines := by
    rw [hkeyword, matchingLines_eq_filter hterm, hiov, grepLines_singleton]
    rfl
  obtain ⟨u, htrace, hscan⟩ := completeCmdCustom_scan success behind s
  rw [hmatch, hiov] at hscan
  refine ⟨⟨u, htrace, ?_⟩, fun hne => ?_, fun buf hbuf => ?_⟩
  · split_ifs at hscan ⊢
    · exact hscan.1
    · exact hscan.1
  · rw [if_neg hne] at hscan
    exact hscan.2.1.trans (fillIov_singleton _ data)
  · refine stores_inside_of_short (fun line hline => hlines line ?_) hbuf
    rwa [hiov, grepLines_singleton] at hline

end Filter

/-- A state of the callback: the keyword `"b\n"`, terminated, and some data. -/
def grepCallbackSample (iov : List (List UInt8)) : GrepSt :=
  { phase := .reading, iov, length := 8, xfer := .hostToController, keyword := [98, 10, 0] }

theorem completeCmdCustom_filters_sample :
    let s := grepCallbackSample [[97, 98, 10, 99, 10, 98, 0, 98]]
    filteredLines [98, 10] [97, 98, 10, 99, 10, 98, 0, 98] = [[97, 98, 10], [98, 0, 98]] ∧
    (nvmfBdevCtrlrCompleteCmdCustom true [] true (fun _ => true) s).iov
      = [[97, 98, 10, 10, 98, 0, 98, 0]] := by
  intro s
  have hfilter := @completeCmdCustom_filters [98, 10] [] [97, 98, 10, 99, 10, 98, 0, 98] s rfl
    (by decide) rfl (by decide) true []
  exact ⟨by decide, hfilter.2.1 (by decide)⟩

/-! ## Several iovecs -/

/-- The status a callback ends with, and the bytes it leaves in the iovecs. -/
def grepResult (success : Bool) (behind : List UInt8) (s : GrepSt) : List Sc × List UInt8 :=
  let s' := nvmfBdevCtrlrCompleteCmdCustom success behind true (fun _ => true) s
  (CmdEffect.statuses .success (s'.trace.drop s.trace.length), s'.iov.flatten)

section Split

variable {keyword rest rest' data behind : List UInt8} {s s' : GrepSt} {iov : List (List UInt8)}

theorem grepResult_eq (success : Bool) (behind : List UInt8) (s : GrepSt) :
    grepResult success behind s =
      if matchingLines (grepKeyword s.keyword behind) s.iov = [] then
        ([.internalDeviceError], s.iov.flatten)
      else ([.success], shown s.iov.flatten.length
        (matchingLines (grepKeyword s.keyword behind) s.iov)) := by
  obtain ⟨u, htrace, hscan⟩ := completeCmdCustom_scan success behind s
  unfold grepResult
  dsimp only
  rw [htrace, List.drop_left]
  split_ifs at hscan ⊢
  · rw [hscan.1, hscan.2]
  · rw [hscan.1, hscan.2.1, flatten_fillIov_setIov]
    rfl

/-- A line that has begun only gets longer. -/
theorem exists_linesFrom_ge : ∀ (line : List UInt8) {bs : List UInt8}, bs ≠ [] →
    ∃ y ∈ linesFrom line bs, line.length ≤ y.length
  | line, b :: bs, _ => by
      rw [linesFrom]
      split_ifs with hend
      · exact ⟨_, List.mem_cons_self .., by simp⟩
      · obtain ⟨y, hy, hle⟩ := exists_linesFrom_ge (line ++ [b]) (not_or.mp hend).2
        exact ⟨y, hy, le_trans (by simp) hle⟩

/-- More at the start of the first line makes no line shorter. -/
theorem linesFrom_mono : ∀ (more : List UInt8) {line bs x : List UInt8}, x ∈ linesFrom line bs →
    ∃ y ∈ linesFrom (more ++ line) bs, x.length ≤ y.length
  | more, line, b :: bs, x, hx => by
      rw [linesFrom] at hx ⊢
      split_ifs at hx ⊢ with hend
      · rcases List.mem_cons.mp hx with rfl | hx'
        · exact ⟨_, List.mem_cons_self .., by simp⟩
        · exact ⟨x, List.mem_cons_of_mem _ hx', le_rfl⟩
      · rw [List.append_assoc]
        exact linesFrom_mono more hx

/-- A line that ends with its iovec goes on in the data. -/
theorem linesFrom_append_left : ∀ {line bs : List UInt8} (cs : List UInt8) {x : List UInt8},
    x ∈ linesFrom line bs → ∃ y ∈ linesFrom line (bs ++ cs), x.length ≤ y.length
  | line, b :: bs, cs, x, hx => by
      rw [List.cons_append, linesFrom]
      rw [linesFrom] at hx
      by_cases hb : b = newline
      · rw [if_pos (.inl hb)] at hx ⊢
        rcases List.mem_cons.mp hx with rfl | hx'
        · exact ⟨_, List.mem_cons_self .., le_rfl⟩
        · obtain ⟨y, hy, hle⟩ := linesFrom_append_left cs hx'
          exact ⟨y, List.mem_cons_of_mem _ hy, hle⟩
      · by_cases hbs : bs = []
        · obtain rfl : x = line ++ [b] := by simpa [hbs, linesFrom] using hx
          by_cases hcs : cs = []
          · simp [hbs, hcs]
          · simp only [hb, hbs, List.nil_append, hcs, or_self, if_false]
            exact exists_linesFrom_ge _ hcs
        · rw [if_neg (not_or.mpr ⟨hb, hbs⟩)] at hx
          rw [if_neg (not_or.mpr ⟨hb, fun h => hbs (List.append_eq_nil_iff.mp h).1⟩)]
          exact linesFrom_append_left cs hx

/-- A line at the start of an iovec begins in the data, here or before. -/
theorem linesFrom_append_right : ∀ (line bs : List UInt8) {cs x : List UInt8},
    x ∈ linesFrom [] cs → ∃ y ∈ linesFrom line (bs ++ cs), x.length ≤ y.length
  | line, [], cs, x, hx => by
      obtain ⟨y, hy, hle⟩ := linesFrom_mono line hx
      exact ⟨y, by simpa using hy, hle⟩
  | line, b :: bs, cs, x, hx => by
      rw [List.cons_append, linesFrom]
      split_ifs
      · obtain ⟨y, hy, hle⟩ := linesFrom_append_right [] bs hx
        exact ⟨y, List.mem_cons_of_mem _ hy, hle⟩
      · exact linesFrom_append_right (line ++ [b]) bs hx

/-- **A piece of a line is no longer than the line.** -/
theorem exists_linesOf_ge : ∀ {iov : List (List UInt8)} {x : List UInt8}, x ∈ grepLines iov →
    ∃ y ∈ linesOf iov.flatten, x.length ≤ y.length
  | v :: iov, x, hx => by
      rw [List.flatten_cons, ← linesFrom_eq_linesOf]
      rw [grepLines, List.flatMap_cons, List.mem_append] at hx
      rcases hx with hx | hx
      · exact linesFrom_append_left _ hx
      · obtain ⟨y, hy, hle⟩ := exists_linesOf_ge hx
        rw [← linesFrom_eq_linesOf] at hy
        obtain ⟨z, hz, hle'⟩ := linesFrom_append_right [] v hy
        exact ⟨z, hz, hle.trans hle'⟩

/-- **Where no line is cut, the answers to two ways of buffering agree**; and they agree exactly
when the lines found in the iovecs, each by itself, agree as far as they are shown. -/
theorem grepSplit_iff (hkeyword : s.keyword = keyword ++ 0 :: rest)
    (hkeyword' : s'.keyword = keyword ++ 0 :: rest') (hterm : 0 ∉ keyword)
    (hiov : s.iov.flatten = data) (hiov' : s'.iov.flatten = data)
    (hlines : ∀ line ∈ linesOf data, line.length ≤ 4095) (success success' : Bool)
    (behind behind' : List UInt8) :
    let found := fun iov : List (List UInt8) =>
      (iov.flatMap linesOf).filter fun line => OccursIn (stripNewline keyword) line
    (WholeLines s.iov → WholeLines s'.iov →
      grepResult success behind s = grepResult success' behind' s') ∧
    (grepResult success behind s = grepResult success' behind' s' ↔
      (found s.iov = [] ↔ found s'.iov = []) ∧
        shown data.length (found s.iov) = shown data.length (found s'.iov)) ∧
    ∀ iov, iov = s.iov ∨ iov = s'.iov → ∀ payload buf,
      (grepOutcome payload behind iov true fun _ => true).buf? = some buf →
        ∀ st ∈ buf.stores, st.Inside := by
  intro found
  have hmatch : matchingLines (grepKeyword s.keyword behind) s.iov = found s.iov := by
    rw [hkeyword, matchingLines_eq_filter hterm, grepLines_eq_flatMap]
  have hmatch' : matchingLines (grepKeyword s'.keyword behind') s'.iov = found s'.iov := by
    rw [hkeyword', matchingLines_eq_filter hterm, grepLines_eq_flatMap]
  have hiff : grepResult success behind s = grepResult success' behind' s' ↔
      (found s.iov = [] ↔ found s'.iov = []) ∧
        shown data.length (found s.iov) = shown data.length (found s'.iov) := by
    rw [grepResult_eq, grepResult_eq, hmatch, hmatch', hiov, hiov']
    by_cases hnil : found s.iov = [] <;> by_cases hnil' : found s'.iov = []
    · simp [hnil, hnil']
    · simp [hnil, hnil']
    · simp [hnil, hnil']
    · simp [hnil, hnil']
  refine ⟨fun hwhole hwhole' => hiff.mpr ?_, hiff, fun iov hmem payload buf hbuf => ?_⟩
  · have hsame : found s.iov = found s'.iov := by
      simp only [found, ← grepLines_eq_flatMap, hwhole.grepLines_eq, hwhole'.grepLines_eq, hiov,
        hiov']
    rw [hsame]
    exact ⟨Iff.rfl, rfl⟩
  · refine stores_inside_of_short (fun line hline => ?_) hbuf
    obtain ⟨y, hy, hle⟩ := exists_linesOf_ge hline
    have hflat : iov.flatten = data := by
      rcases hmem with rfl | rfl
      · exact hiov
      · exact hiov'
    exact hle.trans (hlines y (hflat ▸ hy))

end Split

/-- Two lines in one iovec, and with a cut between them. -/
theorem grepSplit_iff_sample :
    grepResult true [] (grepCallbackSample [[97, 98, 10, 98]])
      = grepResult true [] (grepCallbackSample [[97, 98, 10], [98]]) := by
  have hsplit := @grepSplit_iff [98, 10] [] [] [97, 98, 10, 98]
    (grepCallbackSample [[97, 98, 10, 98]]) (grepCallbackSample [[97, 98, 10], [98]]) rfl rfl
    (by decide) rfl rfl (by decide) true true [] []
  exact hsplit.2.1.mpr (by decide)

/-- **A keyword on the boundary of two iovecs is not found.** -/
theorem grepSplit_cut :
    let s := { grepCallbackSample [[97, 98]] with keyword := [97, 98, 0] }
    let s' := { grepCallbackSample [[97], [98]] with keyword := [97, 98, 0] }
    s.iov.flatten = s'.iov.flatten ∧ (grepResult true [] s).1 = [.success] ∧
      (grepResult true [] s').1 = [.internalDeviceError] := by
  decide

end NdpHeaan
