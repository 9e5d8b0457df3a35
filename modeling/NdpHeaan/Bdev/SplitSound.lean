import NdpHeaan.Bdev.SplitRound

/-!
# Bdev/SplitSound — an I/O and its children

What holds of an I/O that is split, however its children are refused, have to wait, succeed or fail,
and in whatever order they are done.  The children are its blocks, from the first on and each once,
with the buffers of these blocks and no others (`split_exact`); it is completed once, when no child
is left, and as a success only if all blocks were transferred (`split_once`).  This takes a number
of steps that is bounded by the number of its blocks, and it cannot get stuck (`split_ends`).
Without an error it succeeds, if its buffers are not smaller than its blocks (`split_succeeds`).
-/

open Machinery

namespace NdpHeaan

/-! ## Children for consecutive blocks -/

/-- The blocks of children. -/
def blocksOf (cs : List ChildIo) : ℕ := (cs.map fun c => c.io.num).sum

/-- Children for consecutive blocks. -/
def ChildrenFor (lim : SplitLimits) (io : RwIo) : ℕ → List ChildIo → Prop
  | _, [] => True
  | cur, c :: cs => ChildFor lim io cur c ∧ ChildrenFor lim io (cur + c.io.num) cs

section Cover

variable {lim : SplitLimits} {io : RwIo}

theorem blocksOf_concat (cs : List ChildIo) (c : ChildIo) :
    blocksOf (cs ++ [c]) = blocksOf cs + c.io.num := by
  simp [blocksOf]

theorem ChildrenFor.concat {c : ChildIo} :
    ∀ {cs : List ChildIo} {cur : ℕ}, ChildrenFor lim io cur cs →
    ChildFor lim io (cur + blocksOf cs) c → ChildrenFor lim io cur (cs ++ [c])
  | [], _, _, hc => ⟨hc, trivial⟩
  | d :: cs, cur, h, hc => by
      refine ⟨h.1, h.2.concat ?_⟩
      rwa [Nat.add_assoc]

theorem ChildrenFor.of_mem {c : ChildIo} :
    ∀ {cs : List ChildIo} {cur : ℕ}, ChildrenFor lim io cur cs →
    c ∈ cs → ChildFor lim io c.io.offset c
  | d :: cs, cur, h, hc => by
      rcases List.mem_cons.mp hc with rfl | hc
      · rw [h.1.offset]
        exact h.1
      · exact h.2.of_mem hc

/-- Their blocks are consecutive. -/
theorem ChildrenFor.blocks : ∀ {cs : List ChildIo} {cur : ℕ}, ChildrenFor lim io cur cs →
    cs.flatMap (fun c => List.range' c.io.offset c.io.num) = List.range' cur (blocksOf cs)
  | [], _, _ => rfl
  | c :: cs, cur, h => by
      have hsum : blocksOf (c :: cs) = c.io.num + blocksOf cs := List.sum_cons
      rw [List.flatMap_cons, h.2.blocks, h.1.offset, hsum, ← List.range'_append, Nat.one_mul]

/-- So are their buffers. -/
theorem ChildrenFor.buffers : ∀ {cs : List ChildIo} {cur : ℕ}, io.offset ≤ cur →
    ChildrenFor lim io cur cs →
    readAll id (cs.flatMap fun c => c.io.iovs) =
      ((readAll id io.iovs).drop ((cur - io.offset) * lim.bufBytes io)).take
        (blocksOf cs * lim.bufBytes io)
  | [], _, _, _ => by simp [blocksOf]
  | c :: cs, cur, hcur, h => by
      have hsum : blocksOf (c :: cs) = c.io.num + blocksOf cs := List.sum_cons
      have hnext : cur + c.io.num - io.offset = cur - io.offset + c.io.num := by omega
      rw [List.flatMap_cons, readAll_append, h.1.buffers,
        h.2.buffers (Nat.le_trans hcur (Nat.le_add_right ..)), hsum, hnext, Nat.add_mul,
        Nat.add_mul, List.take_add, List.drop_drop]

end Cover

/-! ## What a step may do -/

section Moves

variable (lim : SplitLimits) (io : RwIo)

/-- **What a step may do.** -/
inductive SplitMove : SplitSt → SplitLabel → SplitSt → Prop
  | begin {s s' : SplitSt} {rcs : ℕ → SubmitRc} (hbegun : s.begun = false)
      (hround : Round lim io rcs { s with begun := true } s') : SplitMove s (.begin rcs) s'
  | retry {s s' : SplitSt} {rcs : ℕ → SubmitRc} (hwait : s.waiting = true)
      (hround : Round lim io rcs { s with waiting := false } s') : SplitMove s (.retry rcs) s'
  /-- Other children are left. -/
  | one {s : SplitSt} {i : ℕ} {c : ChildIo} {b : Bool} {rcs : ℕ → SubmitRc}
      (hc : s.children[i]? = some c) (hne : (s.childDone i c b).children ≠ []) :
      SplitMove s (.done i b rcs) (s.childDone i c b)
  /-- The I/O is done. -/
  | all {s : SplitSt} {i : ℕ} {c : ChildIo} {b : Bool} {rcs : ℕ → SubmitRc}
      (hc : s.children[i]? = some c) (hnil : (s.childDone i c b).children = [])
      (hzero : (s.childDone i c b).remaining = 0) :
      SplitMove s (.done i b rcs)
        { s.childDone i c b with callbacks := s.callbacks ++ [!(s.childDone i c b).failed] }
  | next {s s' : SplitSt} {i : ℕ} {c : ChildIo} {b : Bool} {rcs : ℕ → SubmitRc}
      (hc : s.children[i]? = some c) (hnil : (s.childDone i c b).children = [])
      (hpos : 0 < (s.childDone i c b).remaining)
      (hround : Round lim io rcs (s.childDone i c b) s') : SplitMove s (.done i b rcs) s'

end Moves

/-- How far an I/O is. -/
inductive SplitPhase : SplitSt → Prop
  | idle {s : SplitSt} (hbegun : s.begun = false) (hpos : 0 < s.remaining) (hnil : s.children = [])
      (hwait : s.waiting = false) (hcb : s.callbacks = []) : SplitPhase s
  | busy {s : SplitSt} (hbegun : s.begun = true) (hne : s.children ≠ []) (hwait : s.waiting = false)
      (hcb : s.callbacks = []) : SplitPhase s
  | waiting {s : SplitSt} (hbegun : s.begun = true) (hpos : 0 < s.remaining)
      (hnil : s.children = []) (hwait : s.waiting = true) (hcb : s.callbacks = []) : SplitPhase s
  | done {s : SplitSt} (hbegun : s.begun = true) (hnil : s.children = [])
      (hwait : s.waiting = false) (hcb : s.callbacks = [!s.failed])
      (hzero : s.failed = false → s.remaining = 0) : SplitPhase s

/-- The books that are kept of the children. -/
structure SplitBooks (lim : SplitLimits) (io : RwIo) (s : SplitSt) : Prop where
  start : io.offset ≤ s.current
  stop : s.current + s.remaining = io.offset + io.num
  log : ChildrenFor lim io io.offset s.log
  /-- A child that fails takes the I/O to its end. -/
  current : s.remaining = 0 ∧ s.failed = true ∨ s.current = io.offset + blocksOf s.log
  fits : blocksOf s.log ≤ io.num
  perm : (s.children ++ s.finished.map Prod.fst).Perm s.log
  finished : s.failed = false → ∀ f ∈ s.finished, f.2 = true
  hold : IovHolds s.childIov s.children

/-- **What holds in every state.** -/
structure SplitSound (lim : SplitLimits) (io : RwIo) (s : SplitSt) : Prop
    extends SplitBooks lim io s where
  phase : SplitPhase s

section Sound

variable {lim : SplitLimits} {io : RwIo} {s s' : SplitSt} {l : SplitLabel} {rcs : ℕ → SubmitRc}
  {i : ℕ} {c : ChildIo} {b : Bool}

theorem iovHolds_nil (arr : ℕ → Seg) (hnil : s.children = []) : IovHolds arr s.children :=
  fun _ hc => absurd (hnil ▸ hc) List.not_mem_nil

theorem Round.books (h : Round lim io rcs s s') (hb : SplitBooks lim io s)
    (hcur : s.current = io.offset + blocksOf s.log) : SplitBooks lim io s' := by
  induction h with
  | @add s s' arr c hcov hle hold _ ih =>
    have hstop := hb.stop
    have hnext : (s.added arr c).current = io.offset + blocksOf (s.added arr c).log := by
      unfold SplitSt.added
      dsimp only
      rw [blocksOf_concat, hcur, Nat.add_assoc]
    have hstop' : (s.added arr c).current + (s.added arr c).remaining = io.offset + io.num := by
      unfold SplitSt.added
      dsimp only
      omega
    refine ih ⟨Nat.le_trans hb.start (Nat.le_add_right ..), hstop', hb.log.concat (hcur ▸ hcov),
      .inr hnext, by omega, ?_, hb.finished, hold⟩ hnext
    · have hswap : (s.children ++ [c] ++ s.finished.map Prod.fst).Perm
          (s.children ++ s.finished.map Prod.fst ++ [c]) := by
        rw [List.append_assoc, List.append_assoc]
        exact List.perm_append_comm.append_left _
      exact hswap.trans (hb.perm.append_right [c])
  | pause _ hold => exact { hb with hold }
  | wait hnil => exact { hb with hold := iovHolds_nil _ hnil }
  | refused hnil => exact { hb with
      current := .inr hcur, finished := Bool.noConfusion, hold := iovHolds_nil _ hnil }
  | doomed _ hold => exact { hb with current := .inr hcur, finished := Bool.noConfusion, hold }

theorem Round.phase (h : Round lim io rcs s s') (hbegun : s.begun = true)
    (hwait : s.waiting = false) (hcb : s.callbacks = []) : SplitPhase s' := by
  induction h with
  | add _ _ _ _ ih => exact ih hbegun hwait hcb
  | pause hne => exact .busy hbegun hne hwait hcb
  | wait hnil hpos => exact .waiting hbegun hpos hnil rfl hcb
  | refused hnil => exact .done hbegun hnil hwait (by rw [hcb]; rfl) Bool.noConfusion
  | doomed hne => exact .busy hbegun hne hwait hcb

theorem SplitBooks.childDone (hb : SplitBooks lim io s) (hc : s.children[i]? = some c) (b : Bool) :
    SplitBooks lim io (s.childDone i c b) := by
  obtain ⟨hi, hget⟩ := List.getElem?_eq_some_iff.mp hc
  have hperm : (s.children.eraseIdx i ++ (s.finished ++ [(c, b)]).map Prod.fst).Perm s.log := by
    have hout : (c :: s.children.eraseIdx i).Perm s.children :=
      hget ▸ List.getElem_cons_eraseIdx_perm hi
    rw [List.map_append, ← List.append_assoc]
    refine List.Perm.trans ?_ hb.perm
    exact List.perm_append_comm.trans ((hout.append_right _))
  have hhold : IovHolds s.childIov (s.children.eraseIdx i) :=
    fun d hd => hb.hold d (List.mem_of_mem_eraseIdx hd)
  unfold SplitSt.childDone
  dsimp only
  split
  · rename_i hb'
    refine ⟨hb.start, hb.stop, hb.log, hb.current, hb.fits, hperm, fun hok f hf => ?_, hhold⟩
    rcases List.mem_append.mp hf with hf | hf
    · exact hb.finished hok f hf
    · rw [List.mem_singleton.mp hf]
      exact hb'
  · exact ⟨Nat.le_trans hb.start (Nat.le_add_right ..), hb.stop, hb.log, .inl ⟨rfl, rfl⟩, hb.fits,
      hperm, Bool.noConfusion, hhold⟩

/-- Blocks are left, so no child has failed. -/
theorem SplitBooks.current_eq (hb : SplitBooks lim io s) (hpos : 0 < s.remaining) :
    s.current = io.offset + blocksOf s.log :=
  hb.current.resolve_left fun h => Nat.ne_of_gt hpos h.1

/-- An I/O that has come to its end without a failure has children for all its blocks. -/
theorem SplitBooks.blocksOf_eq (hb : SplitBooks lim io s) (hfailed : s.failed = false)
    (hzero : s.remaining = 0) : blocksOf s.log = io.num := by
  have hstop := hb.stop
  have hcur := hb.current.resolve_left fun h => by rw [hfailed] at h; cases h.2
  omega

theorem SplitPhase.of_not_begun (h : SplitPhase s) (hbegun : s.begun = false) :
    0 < s.remaining ∧ s.children = [] ∧ s.waiting = false ∧ s.callbacks = [] := by
  cases h with
  | idle _ hpos hnil hwait hcb => exact ⟨hpos, hnil, hwait, hcb⟩
  | busy h | waiting h | done h => rw [h] at hbegun; cases hbegun

theorem SplitPhase.of_waiting (h : SplitPhase s) (hwait : s.waiting = true) :
    s.begun = true ∧ 0 < s.remaining ∧ s.children = [] ∧ s.callbacks = [] := by
  cases h with
  | idle _ _ _ h | busy _ _ h | done _ _ h => rw [h] at hwait; cases hwait
  | waiting hbegun hpos hnil _ hcb => exact ⟨hbegun, hpos, hnil, hcb⟩

theorem SplitPhase.of_child (h : SplitPhase s) (hc : s.children[i]? = some c) :
    s.begun = true ∧ s.waiting = false ∧ s.callbacks = [] := by
  cases h with
  | idle _ _ hnil | waiting _ _ hnil | done _ hnil => rw [hnil] at hc; cases hc
  | busy hbegun _ hwait hcb => exact ⟨hbegun, hwait, hcb⟩

theorem SplitSound.ready_begin (h : SplitSound lim io s) (hbegun : s.begun = false) :
    RoundReady io { s with begun := true } := by
  obtain ⟨hpos, hnil, -⟩ := h.phase.of_not_begun hbegun
  exact ⟨hnil, hpos, h.start, h.stop⟩

theorem SplitSound.ready_retry (h : SplitSound lim io s) (hwait : s.waiting = true) :
    RoundReady io { s with waiting := false } := by
  obtain ⟨-, hpos, hnil, -⟩ := h.phase.of_waiting hwait
  exact ⟨hnil, hpos, h.start, h.stop⟩

theorem SplitSound.ready_next (h : SplitSound lim io s) (hc : s.children[i]? = some c)
    (hnil : (s.childDone i c b).children = []) (hpos : 0 < (s.childDone i c b).remaining) :
    RoundReady io (s.childDone i c b) :=
  ⟨hnil, hpos, (h.childDone hc b).start, (h.childDone hc b).stop⟩

/-- **The steps of a state that is in order.** -/
theorem SplitSound.move (hok : SplitOk lim io) (h : SplitSound lim io s)
    (hstep : splitStep lim io s l = some s') : SplitMove lim io s l s' := by
  cases l with
  | begin rcs =>
    unfold splitStep at hstep
    dsimp only at hstep
    split at hstep
    · cases hstep
    · rename_i hbegun
      rw [Bool.not_eq_true] at hbegun
      exact .begin hbegun (.of_splitOn hok (h.ready_begin hbegun) hstep)
  | done i b rcs =>
    obtain ⟨c, hc, hstep⟩ := Option.bind_eq_some_iff.mp hstep
    dsimp only at hstep
    split at hstep
    · rename_i hne
      obtain rfl := Option.some.inj hstep
      exact .one hc hne
    rename_i hnil
    rw [not_not] at hnil
    split at hstep
    · rename_i hzero
      obtain rfl := Option.some.inj hstep
      have hcb : (s.childDone i c b).callbacks = s.callbacks := by
        unfold SplitSt.childDone
        cases b <;> rfl
      rw [hcb]
      exact .all hc hnil hzero
    · rename_i hpos
      have hpos := Nat.pos_of_ne_zero hpos
      exact .next hc hnil hpos (.of_splitOn hok (h.ready_next hc hnil hpos) hstep)
  | retry rcs =>
    unfold splitStep at hstep
    dsimp only at hstep
    split at hstep
    · rename_i hwait
      exact .retry hwait (.of_splitOn hok (h.ready_retry hwait) hstep)
    · cases hstep

section ChildDone

variable (s i c b)

@[simp] theorem childDone_begun : (s.childDone i c b).begun = s.begun := by
  cases b <;> rfl

@[simp] theorem childDone_waiting : (s.childDone i c b).waiting = s.waiting := by
  cases b <;> rfl

@[simp] theorem childDone_callbacks : (s.childDone i c b).callbacks = s.callbacks := by
  cases b <;> rfl

@[simp] theorem childDone_children : (s.childDone i c b).children = s.children.eraseIdx i := by
  cases b <;> rfl

end ChildDone

theorem SplitSound.step (hok : SplitOk lim io) (h : SplitSound lim io s)
    (hstep : splitStep lim io s l = some s') : SplitSound lim io s' := by
  cases h.move hok hstep with
  | begin hbegun hround =>
    obtain ⟨hpos, -, hwait, hcb⟩ := h.phase.of_not_begun hbegun
    have hbooks : SplitBooks lim io { s with begun := true } := { h.toSplitBooks with }
    exact ⟨hround.books hbooks (h.current_eq hpos), hround.phase rfl hwait hcb⟩
  | retry hwait hround =>
    obtain ⟨hbegun, hpos, -, hcb⟩ := h.phase.of_waiting hwait
    have hbooks : SplitBooks lim io { s with waiting := false } := { h.toSplitBooks with }
    exact ⟨hround.books hbooks (h.current_eq hpos), hround.phase hbegun rfl hcb⟩
  | @one i c b _ hc hne =>
    obtain ⟨hbegun, hwait, hcb⟩ := h.phase.of_child hc
    exact ⟨h.childDone hc b, .busy (by simpa) hne (by simpa) (by simpa)⟩
  | @all i c b _ hc hnil hzero =>
    obtain ⟨hbegun, hwait, hcb⟩ := h.phase.of_child hc
    exact ⟨{ h.childDone hc b with }, .done (by simpa) hnil (by simpa) (by rw [hcb]; rfl)
      fun _ => hzero⟩
  | @next _ i c b _ hc hnil hpos hround =>
    obtain ⟨hbegun, hwait, hcb⟩ := h.phase.of_child hc
    have hbooks := h.childDone hc b
    exact ⟨hround.books hbooks (hbooks.current_eq hpos),
      hround.phase (by simpa) (by simpa) (by simpa)⟩

theorem splitSound_init (hok : SplitOk lim io) (arr : ℕ → Seg) :
    SplitSound lim io (splitSys lim io arr).init where
  start := Nat.le_refl _
  stop := rfl
  log := trivial
  current := .inr rfl
  fits := Nat.zero_le _
  perm := .nil
  finished _ _ hf := (List.not_mem_nil hf).elim
  hold := iovHolds_nil _ rfl
  phase := .idle rfl hok.pos rfl rfl rfl

theorem SplitSound.of_reach {arr : ℕ → Seg} {P : SplitSt → SplitLabel → Prop} (hok : SplitOk lim io)
    (h : (splitSys lim io arr).Reach P s) : SplitSound lim io s :=
  h.invariant (splitSound_init hok arr) fun _ _ _ hs _ hstep => hs.step hok hstep

/-! ## Steps to the end -/

/-- The I/O has got to the head of the queue, but another one has taken the memory. -/
def SplitLabel.vain : SplitLabel → Bool
  | .retry rcs => rcs 0 == .nomem
  | _ => false

/-- What is left to do. -/
def SplitSt.weight (s : SplitSt) : ℕ :=
  if s.callbacks = [] then 2 * s.remaining + s.children.length + (if s.begun then 1 else 2) else 0

theorem weight_of_callback (hcb : s.callbacks ≠ []) : s.weight = 0 := if_neg hcb

theorem weight_pos (hcb : s.callbacks = []) : 0 < s.weight := by
  rw [SplitSt.weight, if_pos hcb]
  split <;> omega

theorem Round.weight_le (h : Round lim io rcs s s') (hcb : s.callbacks = []) :
    s'.weight ≤ s.weight := by
  induction h with
  | @add s s' arr c hcov hle _ _ ih =>
    refine Nat.le_trans (ih hcb) ?_
    have hpos := hcov.pos
    unfold SplitSt.weight SplitSt.added
    simp only [hcb, if_true, List.length_append, List.length_singleton]
    omega
  | pause | doomed | wait => exact Nat.le_refl _
  | refused =>
    rw [weight_of_callback (List.concat_ne_nil _ _)]
    exact Nat.zero_le _

/-- A round that finds memory comes closer to the end. -/
theorem Round.weight_lt (h : Round lim io rcs s s') (hcb : s.callbacks = [])
    (hnil : s.children = []) (hrc : rcs 0 ≠ .nomem) : s'.weight < s.weight := by
  cases h with
  | add hcov hle _ hrest =>
    refine Nat.lt_of_le_of_lt (hrest.weight_le hcb) ?_
    have hpos := hcov.pos
    unfold SplitSt.weight SplitSt.added
    simp only [hcb, if_true, List.length_append, List.length_singleton]
    omega
  | pause hne | doomed hne => exact absurd hnil hne
  | wait _ _ h => exact absurd h hrc
  | refused =>
    rw [weight_of_callback (List.concat_ne_nil _ _)]
    exact weight_pos hcb

theorem childDone_weight (hcb : s.callbacks = []) (hc : s.children[i]? = some c) (b : Bool) :
    (s.childDone i c b).weight < s.weight := by
  have hi := (List.getElem?_eq_some_iff.mp hc).1
  have hlen := List.length_eraseIdx_of_lt hi
  have hremaining : (s.childDone i c b).remaining ≤ s.remaining := by
    cases b
    · exact Nat.zero_le _
    · exact Nat.le_refl _
  unfold SplitSt.weight
  rw [childDone_callbacks, childDone_children, childDone_begun, hcb, if_pos rfl, if_pos rfl]
  omega

theorem SplitSound.weight (hok : SplitOk lim io) (h : SplitSound lim io s)
    (hstep : splitStep lim io s l = some s') :
    s'.weight + (if !l.vain then 1 else 0) ≤ s.weight := by
  cases h.move hok hstep with
  | begin hbegun hround =>
    obtain ⟨-, -, -, hcb⟩ := h.phase.of_not_begun hbegun
    have hbegin : ({ s with begun := true } : SplitSt).weight < s.weight := by
      unfold SplitSt.weight
      simp [hcb, hbegun]
    exact Nat.lt_of_le_of_lt (hround.weight_le hcb) hbegin
  | retry hwait hround =>
    obtain ⟨-, -, hnil, hcb⟩ := h.phase.of_waiting hwait
    split
    · rename_i hvain
      exact hround.weight_lt hcb hnil (by simpa [SplitLabel.vain] using hvain)
    · exact hround.weight_le hcb
  | @one i c b _ hc hne =>
    obtain ⟨-, -, hcb⟩ := h.phase.of_child hc
    exact childDone_weight hcb hc b
  | @all i c b _ hc hnil hzero =>
    obtain ⟨-, -, hcb⟩ := h.phase.of_child hc
    rw [weight_of_callback (List.concat_ne_nil _ _)]
    exact weight_pos hcb
  | @next _ i c b _ hc hnil hpos hround =>
    obtain ⟨-, -, hcb⟩ := h.phase.of_child hc
    exact Nat.lt_of_le_of_lt (hround.weight_le (by simpa)) (childDone_weight hcb hc b)

/-- As long as it is not completed, an I/O waits for something, and whatever comes is handled. -/
theorem SplitSound.enabled (hok : SplitOk lim io) (h : SplitSound lim io s)
    (hcb : s.callbacks = []) :
    (∀ rcs, (splitStep lim io s (.begin rcs)).isSome) ∨
      (∀ rcs, (splitStep lim io s (.retry rcs)).isSome) ∨
      s.children ≠ [] ∧
        ∀ i < s.children.length, ∀ b rcs, (splitStep lim io s (.done i b rcs)).isSome := by
  cases h.phase with
  | idle hbegun =>
    refine .inl fun rcs => ?_
    obtain ⟨s', hs', -⟩ := splitOn_round hok rcs (h.ready_begin hbegun)
    simp [splitStep, hbegun, hs']
  | waiting _ _ _ hwait =>
    refine .inr (.inl fun rcs => ?_)
    obtain ⟨s', hs', -⟩ := splitOn_round hok rcs (h.ready_retry hwait)
    simp [splitStep, hwait, hs']
  | busy _ hne =>
    refine .inr (.inr ⟨hne, fun i hi b rcs => ?_⟩)
    have hc := List.getElem?_eq_getElem hi
    generalize s.children[i] = c at hc
    unfold splitStep bdevIoSplitDone
    dsimp only
    rw [hc, Option.bind_eq_bind, Option.bind_some]
    split
    · rfl
    rename_i hnil
    split
    · rfl
    · rename_i hpos
      obtain ⟨s', hs', -⟩ := splitOn_round hok rcs
        (h.ready_next (b := b) hc (not_not.mp hnil) (Nat.pos_of_ne_zero hpos))
      rw [hs']
      rfl
  | done _ _ _ hdone =>
    rw [hdone] at hcb
    cases hcb

/-! ## Without an error -/

/-- No submission is refused and no child fails; memory may run out. -/
def SplitLabel.Fine : SplitLabel → Prop
  | .begin rcs | .retry rcs => ∀ k, rcs k ≠ .error
  | .done _ b rcs => b = true ∧ ∀ k, rcs k ≠ .error

theorem Round.not_failed (h : Round lim io rcs s s') (hroomy : io.Buffered → Roomy lim io)
    (hrcs : ∀ k, rcs k ≠ .error) (hs : s.failed = false) : s'.failed = false := by
  induction h with
  | add _ _ _ _ ih => exact ih hs
  | pause | wait => exact hs
  | refused _ hwhy =>
    rcases hwhy with ⟨k, hk⟩ | ⟨hbuf, hnot⟩
    · exact absurd hk (hrcs k)
    · exact absurd (hroomy hbuf) hnot
  | doomed _ _ hrc =>
    obtain ⟨k, hk⟩ := hrc
    exact absurd hk (hrcs k)

theorem SplitMove.not_failed (h : SplitMove lim io s l s') (hroomy : io.Buffered → Roomy lim io)
    (hl : l.Fine) (hs : s.failed = false) : s'.failed = false := by
  cases h with
  | begin _ hround | retry _ hround => exact hround.not_failed hroomy hl hs
  | one => rw [hl.1]; exact hs
  | all => rw [hl.1]; exact hs
  | next _ _ _ hround =>
    rw [hl.1] at hround
    exact hround.not_failed hroomy hl.2 hs

end Sound

section Results

/-- A bdev that takes two buffers at a time. -/
def twoBuffers : SplitLimits := { blocklen := 512, maxNumSegments := 2 }

/-- A write of four blocks from three buffers. -/
def unevenWrite : RwIo :=
  { type := .write, offset := 7, num := 4, iovs := [⟨1000, 700⟩, ⟨3000, 600⟩, ⟨5000, 748⟩] }

theorem unevenWrite_ok : SplitOk twoBuffers unevenWrite where
  pos := by decide
  fits := by decide
  kind := .inl ⟨.inr rfl, by decide, by decide, by decide, by decide, by decide⟩

theorem unevenWrite_roomy : Roomy twoBuffers unevenWrite := ⟨by decide, by decide, by decide⟩

variable {lim : SplitLimits} {io : RwIo} {arr : ℕ → Seg} {s : SplitSt}

/-- **The children of an I/O are its blocks**: from the first on and each once, with the buffers of
these blocks, and no child has to be split again.  While a child is not done, its `iovs` stay as
they were submitted. -/
theorem split_exact (hok : SplitOk lim io) (h : (splitSys lim io arr).Reach (fun _ _ => True) s) :
    s.log.flatMap (fun c => List.range' c.io.offset c.io.num) =
        List.range' io.offset (blocksOf s.log) ∧
      blocksOf s.log ≤ io.num ∧
      readAll id (s.log.flatMap fun c => c.io.iovs) =
        (readAll id io.iovs).take (blocksOf s.log * lim.bufBytes io) ∧
      (∀ c ∈ s.log, ChildFor lim io c.io.offset c) ∧ IovHolds s.childIov s.children := by
  have hs := SplitSound.of_reach hok h
  have hbuf := hs.log.buffers (Nat.le_refl _)
  rw [Nat.sub_self, Nat.zero_mul, List.drop_zero] at hbuf
  exact ⟨hs.log.blocks, hs.fits, hbuf, fun c hc => hs.log.of_mem hc, hs.hold⟩

/-- The second buffer is divided between the children; the second of them is done first. -/
theorem split_exact_unevenWrite : ∃ s : SplitSt, s.children.length = 1 ∧
    s.log.map (fun c => (c.io.num, c.io.iovs)) =
      [(2, [⟨1000, 700⟩, ⟨3000, 324⟩]), (2, [⟨3324, 276⟩, ⟨5000, 748⟩])] ∧
    s.log.flatMap (fun c => List.range' c.io.offset c.io.num) =
      List.range' unevenWrite.offset (blocksOf s.log) ∧
    IovHolds s.childIov s.children := by
  obtain ⟨s, hs, hone, hlog⟩ : ∃ s, (splitSys twoBuffers unevenWrite fun _ => ⟨0, 0⟩).run
      (splitSys twoBuffers unevenWrite fun _ => ⟨0, 0⟩).init
      [.begin fun _ => .ok, .done 1 true fun _ => .ok] = some s ∧ s.children.length = 1 ∧
      s.log.map (fun c => (c.io.num, c.io.iovs)) =
        [(2, [⟨1000, 700⟩, ⟨3000, 324⟩]), (2, [⟨3324, 276⟩, ⟨5000, 748⟩])] := ⟨_, rfl, rfl, rfl⟩
  have hreach := Sys.Reach.of_run _ (fun _ _ _ => trivial) .init hs
  obtain ⟨hblocks, -, -, -, hhold⟩ := split_exact unevenWrite_ok hreach
  exact ⟨s, hone, hlog, hblocks, hhold⟩

/-- **An I/O is completed once**, when none of its children is left, and nothing happens after it.
It is a success only if there was a child for every block and all of them succeeded. -/
theorem split_once (hok : SplitOk lim io) (h : (splitSys lim io arr).Reach (fun _ _ => True) s) :
    s.callbacks = [] ∨ ∃ b, s.callbacks = [b] ∧ s.children = [] ∧
      (∀ l, splitStep lim io s l = none) ∧
      (b = true → blocksOf s.log = io.num ∧ (s.finished.map Prod.fst).Perm s.log ∧
        ∀ f ∈ s.finished, f.2 = true) := by
  have hs := SplitSound.of_reach hok h
  cases hs.phase with
  | idle _ _ _ _ hcb | busy _ _ _ hcb | waiting _ _ _ _ hcb => exact .inl hcb
  | done hbegun hnil hwait hcb hzero =>
    refine .inr ⟨_, hcb, hnil, fun l => ?_, fun hb => ?_⟩
    · cases l with
      | begin => simp [splitStep, hbegun]
      | done => simp [splitStep, bdevIoSplitDone, hnil]
      | retry => simp [splitStep, hwait]
    · have hfailed : s.failed = false := by simpa using hb
      have hperm := hs.perm
      rw [hnil, List.nil_append] at hperm
      exact ⟨hs.blocksOf_eq hfailed (hzero hfailed), hperm, hs.finished hfailed⟩

theorem split_once_unevenWrite : ∃ s : SplitSt, s.callbacks = [true] ∧
    blocksOf s.log = unevenWrite.num ∧ ∀ l, splitStep twoBuffers unevenWrite s l = none := by
  obtain ⟨s, hs, hcb⟩ : ∃ s, (splitSys twoBuffers unevenWrite fun _ => ⟨0, 0⟩).run
      (splitSys twoBuffers unevenWrite fun _ => ⟨0, 0⟩).init
      [.begin fun _ => .ok, .done 1 true fun _ => .ok, .done 0 true fun _ => .ok] = some s ∧
      s.callbacks = [true] := ⟨_, rfl, rfl⟩
  have hreach := Sys.Reach.of_run _ (fun _ _ _ => trivial) .init hs
  rcases split_once unevenWrite_ok hreach with hnone | ⟨b, hb, -, hend, hsuccess⟩
  · rw [hnone] at hcb
    cases hcb
  · rw [hcb] at hb
    exact ⟨s, hcb, (hsuccess (List.singleton_inj.mp hb).symm).1, hend⟩

/-- **An I/O comes to its end**: it takes at most two steps for each of its blocks, apart from those
in which it gets to the head of the queue and finds no memory, and as long as it is not completed it
waits for something that it then can go on with. -/
theorem split_ends (hok : SplitOk lim io) {ls : List SplitLabel}
    (h : (splitSys lim io arr).run (splitSys lim io arr).init ls = some s) :
    (ls.countP fun l => !l.vain) ≤ 2 * io.num + 2 ∧
      (s.callbacks = [] → (∀ rcs, (splitStep lim io s (.begin rcs)).isSome) ∨
        (∀ rcs, (splitStep lim io s (.retry rcs)).isSome) ∨
        s.children ≠ [] ∧
          ∀ i < s.children.length, ∀ b rcs, (splitStep lim io s (.done i b rcs)).isSome) := by
  have hinit := splitSound_init hok arr
  have hs : SplitSound lim io s := Sys.run_invariant (fun _ _ _ hs => hs.step hok) hinit h
  have hrank := Sys.run_rank
    (fun _ _ _ hs hstep => ⟨hs.step hok hstep, hs.weight hok hstep⟩) hinit h
  exact ⟨Nat.le_trans (Nat.le_add_left ..) hrank, hs.enabled hok⟩

/-- The I/O gets to the head of the queue in vain, and then has two children. -/
theorem split_ends_unevenWrite : ∃ s : SplitSt, s.children.length = 2 ∧
    ∀ i < s.children.length, ∀ b rcs,
      (splitStep twoBuffers unevenWrite s (.done i b rcs)).isSome := by
  obtain ⟨s, hs, hcb, htwo, hbegun, hwait⟩ : ∃ s,
      (splitSys twoBuffers unevenWrite fun _ => ⟨0, 0⟩).run
      (splitSys twoBuffers unevenWrite fun _ => ⟨0, 0⟩).init
      [.begin fun _ => .nomem, .retry fun _ => .nomem, .retry fun _ => .ok] = some s ∧
      s.callbacks = [] ∧ s.children.length = 2 ∧ s.begun = true ∧ s.waiting = false :=
    ⟨_, rfl, rfl, rfl, rfl, rfl⟩
  rcases (split_ends unevenWrite_ok hs).2 hcb with hbegin | hretry | ⟨-, hdone⟩
  · have := hbegin fun _ => .ok
    simp [splitStep, hbegun] at this
  · have := hretry fun _ => .ok
    simp [splitStep, hwait] at this
  · exact ⟨s, htwo, hdone⟩

/-- **Without an error an I/O succeeds**, however often memory runs out, if none of its buffers is
smaller than a block. -/
theorem split_succeeds (hok : SplitOk lim io) (hroomy : io.Buffered → Roomy lim io)
    (h : (splitSys lim io arr).Reach (fun _ l => l.Fine) s) (hcb : s.callbacks ≠ []) :
    s.callbacks = [true] ∧ blocksOf s.log = io.num := by
  obtain ⟨hs, hfailed⟩ : SplitSound lim io s ∧ s.failed = false :=
    Sys.Reach.invariant (I := fun s => SplitSound lim io s ∧ s.failed = false)
      ⟨splitSound_init hok arr, rfl⟩
      (fun _ _ _ hs hl hstep =>
        ⟨hs.1.step hok hstep, (hs.1.move hok hstep).not_failed hroomy hl hs.2⟩) h
  cases hs.phase with
  | idle _ _ _ _ hnone | busy _ _ _ hnone | waiting _ _ _ _ hnone => exact absurd hnone hcb
  | done _ _ _ hdone hzero =>
    rw [hfailed] at hdone
    exact ⟨hdone, hs.blocksOf_eq hfailed (hzero hfailed)⟩

theorem split_succeeds_unevenWrite : ∃ s : SplitSt,
    s.callbacks = [true] ∧ blocksOf s.log = unevenWrite.num := by
  obtain ⟨s, hs, hcb⟩ : ∃ s, (splitSys twoBuffers unevenWrite fun _ => ⟨0, 0⟩).run
      (splitSys twoBuffers unevenWrite fun _ => ⟨0, 0⟩).init
      [.begin fun _ => .nomem, .retry fun _ => .ok, .done 0 true fun _ => .ok,
        .done 0 true fun _ => .ok] = some s ∧ s.callbacks ≠ [] :=
    ⟨_, rfl, List.cons_ne_nil _ _⟩
  have hreach : (splitSys twoBuffers unevenWrite fun _ => ⟨0, 0⟩).Reach (fun _ l => l.Fine) s := by
    refine Sys.Reach.of_run _ (fun l hl _ => ?_) .init hs
    simp only [List.mem_cons, List.not_mem_nil, or_false] at hl
    rcases hl with rfl | rfl | rfl | rfl <;> simp [SplitLabel.Fine]
  exact ⟨s, split_succeeds unevenWrite_ok (fun _ => unevenWrite_roomy) hreach hcb⟩

end Results

end NdpHeaan
