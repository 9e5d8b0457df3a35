import NdpHeaan.Target.FusedPair

/-!
# Target/FusedInvariant — where the two halves of a pair can be

At any moment a request is in one place: pending, in the io-wait queue, with the device, tied to a
second half with the device, or completed.  While a command is executed it is in none of them, and
`PairSound hand` lists those in hand.  A first half is never left behind by its second: where it
is pending or queued, the second is still to come.
-/

open Machinery

namespace NdpHeaan

namespace FusedSt

variable (s : FusedSt)

/-- The first half that a marked request would complete. -/
def linked (i : ℕ) : Option ℕ := (s.firstFused (s.slotAt i)).bind s.owner

/-- How often a request is found in the places. -/
def seen (i : ℕ) : ℕ :=
  s.pending.toList.count i + s.waiting.count i + s.flying.count i +
    (s.flying.filterMap s.linked).count i + s.completed.count i

variable {s} {f i j : ℕ}

/-- The count of a list with one more in front, as a sum. -/
theorem count_cons_eq_add (i j : ℕ) (is : List ℕ) :
    (i :: is).count j = [i].count j + is.count j := by
  rw [List.count_cons, List.count_singleton, Nat.add_comm]

theorem seen_complete : (s.complete i).seen j = [i].count j + s.seen j := by
  change _ + _ + _ + (s.flying.filterMap s.linked).count j + (s.completed ++ [i]).count j = _
  rw [List.count_append, seen]
  simp only [complete]
  omega

theorem seen_queueIo {is : List ℕ} : (s.queueIo is).seen j = is.count j + s.seen j := by
  change _ + (s.waiting ++ is).count j + _ + (s.flying.filterMap s.linked).count j + _ = _
  rw [List.count_append, seen]
  simp only [queueIo]
  omega

theorem seen_setPending_none (hf : s.pending = some f) :
    [f].count j + (s.setPending none).seen j = s.seen j := by
  change _ + (0 + _ + _ + (s.flying.filterMap s.linked).count j + _) = _
  rw [seen, hf, Option.toList_some]
  simp only [setPending]
  omega

theorem seen_setPending_some (hp : s.pending = none) :
    (s.setPending (some i)).seen j = [i].count j + s.seen j := by
  change [i].count j + _ + _ + (s.flying.filterMap s.linked).count j + _ = _
  rw [seen, hp, Option.toList_none, List.count_nil]
  simp only [setPending]
  omega

theorem seen_pop {rest : List ℕ} (hw : s.waiting = i :: rest) :
    [i].count j + { s with waiting := rest }.seen j = s.seen j := by
  change _ + (_ + rest.count j + _ + (s.flying.filterMap s.linked).count j + _) = _
  rw [seen, hw, count_cons_eq_add i j rest]
  dsimp only
  omega

/-- A pair is one by its commands. -/
theorem IsPair.of_cmds {s' : FusedSt} (h : s.IsPair f i) (hc : s'.cmds = s.cmds) :
    s'.IsPair f i := by
  obtain ⟨hnext, hfirst, hcmp, hsecond, hwrite⟩ := h
  constructor <;> simp only [fuseAt, opcAt, hc] at * <;> assumption

theorem lt_of_fuseAt {fuse : Fuse} (h : s.fuseAt i = some fuse) : i < s.cmds.length := by
  obtain ⟨r, hr, -⟩ := Option.map_eq_some_iff.mp h
  exact (List.getElem?_eq_some_iff.mp hr).1

section Arrive

variable {req : FusedReq}

theorem getElem?_arrive (hi : i < s.cmds.length) : (s.arrive req).cmds[i]? = s.cmds[i]? :=
  List.getElem?_append_left hi

theorem getElem?_arrive_length : (s.arrive req).cmds[s.cmds.length]? = some req :=
  List.getElem?_concat_length

theorem length_arrive : (s.arrive req).cmds.length = s.cmds.length + 1 := List.length_append

theorem fuseAt_arrive (hi : i < s.cmds.length) : (s.arrive req).fuseAt i = s.fuseAt i := by
  rw [fuseAt, getElem?_arrive hi, fuseAt]

theorem slotAt_arrive (hi : i < s.cmds.length) : (s.arrive req).slotAt i = s.slotAt i := by
  rw [slotAt, getElem?_arrive hi, slotAt]

theorem slotAt_arrive_length : (s.arrive req).slotAt s.cmds.length = req.slot := by
  rw [slotAt, getElem?_arrive_length]
  rfl

theorem IsPair.arrive (h : s.IsPair f i) : (s.arrive req).IsPair f i := by
  have hf := lt_of_fuseAt h.first
  have hi := lt_of_fuseAt h.second
  obtain ⟨hnext, hfirst, hcmp, hsecond, hwrite⟩ := h
  constructor
  · exact hnext
  · rwa [fuseAt_arrive hf]
  · rwa [opcAt, getElem?_arrive hf]
  · rwa [fuseAt_arrive hi]
  · rwa [opcAt, getElem?_arrive hi]

end Arrive

variable (s)

/-- The second half is in hand, in the io-wait queue, or the next command. -/
def Awaits (hand : List ℕ) (f : ℕ) : Prop :=
  f + 1 ∈ hand ∨ f + 1 ∈ s.waiting ∨ f + 1 = s.cmds.length

end FusedSt

/-- **What holds of a queue pair** with these requests in hand. -/
structure PairSound (hand : List ℕ) (s : FusedSt) : Prop where
  follows : ∀ f, s.fuseAt f = some .first → f + 1 < s.cmds.length →
    s.fuseAt (f + 1) = some .second
  once : ∀ i, hand.count i + s.seen i = if i < s.cmds.length then 1 else 0
  own : ∀ i < s.cmds.length, i ∉ s.completed → s.owner (s.slotAt i) = some i
  clear : ∀ i < s.cmds.length, i ∉ s.completed → s.fuseAt i ≠ some .second →
    s.firstFused (s.slotAt i) = none
  pend : ∀ f, s.pending = some f →
    s.fuseAt f = some .first ∧ s.opcAt f = some .compare ∧ s.Awaits hand f
  held : ∀ f ∈ hand, s.fuseAt f = some .first → s.Awaits hand f
  wait : ∀ f ∈ s.waiting, s.fuseAt f = some .first → f + 1 ∈ s.waiting
  order : s.waiting.Pairwise fun a b => s.fuseAt b = some .first → a ≠ b + 1
  fly : ∀ i ∈ s.flying, s.fuseAt i ≠ some .first ∧ (s.firstFused (s.slotAt i) = none ∨
    ∃ f, s.linked i = some f ∧ s.fuseAt f = some .first ∧ i = f + 1)
  pairs : ∀ p ∈ s.submitted, s.IsPair p.1 p.2

namespace PairSound

variable {hand : List ℕ} {s : FusedSt} {f i j : ℕ}

/-! ## One place each -/

theorem init : PairSound [] {} :=
  ⟨nofun, fun _ => rfl, nofun, nofun, nofun, nofun, nofun, .nil, nofun, nofun⟩

theorem lt_of_seen (h : PairSound hand s) (hi : 0 < hand.count i + s.seen i) :
    i < s.cmds.length := by
  have honce := h.once i
  by_contra hlt
  rw [if_neg hlt] at honce
  omega

theorem once_le (h : PairSound hand s) (i : ℕ) : hand.count i + s.seen i ≤ 1 := by
  rw [h.once i]
  split <;> decide

theorem lt_of_mem (h : PairSound hand s) (hi : i ∈ hand) : i < s.cmds.length :=
  h.lt_of_seen (Nat.add_pos_left (List.count_pos_iff.mpr hi) _)

theorem seen_of_mem (h : PairSound hand s) (hi : i ∈ hand) : s.seen i = 0 := by
  have hle := h.once_le i
  have hpos := List.count_pos_iff.mpr hi
  omega

theorem notMem_of_seen (hi : s.seen i = 0) :
    i ∉ s.waiting ∧ i ∉ s.flying ∧ i ∉ s.completed := by
  simp only [FusedSt.seen] at hi
  refine ⟨?_, ?_, ?_⟩ <;> rw [← List.count_eq_zero] <;> omega

theorem notMem_completed (h : PairSound hand s) (hi : i ∈ hand) : i ∉ s.completed :=
  (notMem_of_seen (h.seen_of_mem hi)).2.2

theorem notMem_waiting (h : PairSound hand s) (hi : i ∈ hand) : i ∉ s.waiting :=
  (notMem_of_seen (h.seen_of_mem hi)).1

theorem notMem_flying (h : PairSound hand s) (hi : i ∈ hand) : i ∉ s.flying :=
  (notMem_of_seen (h.seen_of_mem hi)).2.1

/-- A request that is anywhere but completed is a command, and not completed. -/
theorem live (h : PairSound hand s) (hi : s.completed.count i < hand.count i + s.seen i) :
    i < s.cmds.length ∧ i ∉ s.completed := by
  have hle := h.once_le i
  refine ⟨h.lt_of_seen (Nat.zero_lt_of_lt hi), ?_⟩
  rw [← List.count_eq_zero]
  omega

theorem flying_live (h : PairSound hand s) (hi : i ∈ s.flying) :
    i < s.cmds.length ∧ i ∉ s.completed := by
  have hpos := List.count_pos_iff.mpr hi
  refine h.live ?_
  rw [FusedSt.seen]
  omega

theorem linked_live (h : PairSound hand s) (hj : j ∈ s.flying) (hl : s.linked j = some f) :
    f < s.cmds.length ∧ f ∉ s.completed := by
  have hpos := List.count_pos_iff.mpr (List.mem_filterMap.mpr ⟨j, hj, hl⟩)
  refine h.live ?_
  rw [FusedSt.seen]
  omega

/-- A struct carries one request that is not completed. -/
theorem slotAt_inj (h : PairSound hand s) (hi : i < s.cmds.length) (hic : i ∉ s.completed)
    (hj : j < s.cmds.length) (hjc : j ∉ s.completed) (hs : s.slotAt i = s.slotAt j) : i = j := by
  have howni := h.own i hi hic
  rw [hs, h.own j hj hjc] at howni
  exact (Option.some.inj howni).symm

/-- A first half is not the second of another. -/
theorem first_ne_next (h : PairSound hand s) (hf : s.fuseAt f = some .first)
    (hi : s.fuseAt i = some .first) (hlt : i < s.cmds.length) : f + 1 ≠ i := by
  rintro rfl
  rw [h.follows f hf hlt] at hi
  cases hi

/-! ## Moves -/

theorem awaits_of_cons (ha : s.Awaits (i :: hand) f) (hne : f + 1 ≠ i) : s.Awaits hand f := by
  rcases ha with ha | ha
  · exact Or.inl ((List.mem_cons.mp ha).resolve_left hne)
  · exact Or.inr ha

/-- A request in hand is completed; it is not the second half of one that waits for it. -/
theorem complete (h : PairSound (i :: hand) s) (hp : ∀ g, s.pending = some g → g + 1 ≠ i)
    (hh : ∀ g ∈ hand, s.fuseAt g = some .first → g + 1 ≠ i) :
    PairSound hand (s.complete i) where
  follows := h.follows
  once j := by
    refine Eq.trans ?_ (h.once j)
    rw [FusedSt.seen_complete, FusedSt.count_cons_eq_add i j hand]
    omega
  own j hj hjc := h.own j hj fun hmem => hjc (List.mem_append_left _ hmem)
  clear j hj hjc := h.clear j hj fun hmem => hjc (List.mem_append_left _ hmem)
  pend f hf := by
    obtain ⟨hfirst, hcmp, hawait⟩ := h.pend f hf
    exact ⟨hfirst, hcmp, awaits_of_cons hawait (hp f hf)⟩
  held f hf hfirst :=
    awaits_of_cons (h.held f (List.mem_cons_of_mem _ hf) hfirst) (hh f hf hfirst)
  wait := h.wait
  order := h.order
  fly := h.fly
  pairs p hmem := (h.pairs p hmem).of_cmds rfl

/-- The pending request is taken in hand. -/
theorem takePending (h : PairSound hand s) (hf : s.pending = some f) :
    PairSound (f :: hand) (s.setPending none) where
  follows := h.follows
  once j := by
    refine Eq.trans ?_ (h.once j)
    rw [← FusedSt.seen_setPending_none hf, FusedSt.count_cons_eq_add f j hand]
    omega
  own := h.own
  clear := h.clear
  pend := nofun
  held g hg hfirst := by
    rcases List.mem_cons.mp hg with rfl | hg
    · exact (h.pend g hf).2.2.imp_left (List.mem_cons_of_mem _)
    · exact (h.held g hg hfirst).imp_left (List.mem_cons_of_mem _)
  wait := h.wait
  order := h.order
  fly := h.fly
  pairs p hmem := (h.pairs p hmem).of_cmds rfl

/-- A first half in hand becomes the pending one. -/
theorem park (h : PairSound [i] s) (hp : s.pending = none) (hfirst : s.fuseAt i = some .first)
    (hcmp : s.opcAt i = some .compare) : PairSound [] (s.setPending (some i)) where
  follows := h.follows
  once j := by
    refine Eq.trans ?_ (h.once j)
    rw [FusedSt.seen_setPending_some hp, List.count_nil, Nat.zero_add]
  own := h.own
  clear := h.clear
  pend f hf := by
    obtain rfl := Option.some.inj hf
    have hawait := h.held i (List.mem_singleton_self i) hfirst
    exact ⟨hfirst, hcmp, awaits_of_cons hawait (Nat.succ_ne_self i)⟩
  held := nofun
  wait := h.wait
  order := h.order
  fly := h.fly
  pairs p hmem := (h.pairs p hmem).of_cmds rfl

/-- A request leaves the front of the io-wait queue. -/
theorem pop {rest : List ℕ} (h : PairSound [] s) (hw : s.waiting = i :: rest) :
    PairSound [i] { s with waiting := rest } where
  follows := h.follows
  once j := by
    refine Eq.trans ?_ (h.once j)
    rw [FusedSt.seen_pop hw, List.count_nil, Nat.zero_add]
  own := h.own
  clear := h.clear
  pend f hf := by
    obtain ⟨hfirst, hcmp, hawait⟩ := h.pend f hf
    refine ⟨hfirst, hcmp, ?_⟩
    rcases hawait with hmem | hmem | hlast
    · cases hmem
    · rw [hw] at hmem
      exact (List.mem_cons.mp hmem).imp (fun h => List.mem_singleton.mpr h) Or.inl
    · exact Or.inr (Or.inr hlast)
  held f hf hfirst := by
    obtain rfl := List.mem_singleton.mp hf
    have hmem := h.wait f (by rw [hw]; exact List.mem_cons_self) hfirst
    rw [hw] at hmem
    exact Or.inr (Or.inl ((List.mem_cons.mp hmem).resolve_left (Nat.succ_ne_self f)))
  wait f hf hfirst := by
    have hmem := h.wait f (by rw [hw]; exact List.mem_cons_of_mem _ hf) hfirst
    have horder := h.order
    rw [hw] at hmem horder
    -- the second half does not stand in front of the first
    exact (List.mem_cons.mp hmem).resolve_left fun heq =>
      (List.pairwise_cons.mp horder).1 f hf hfirst heq.symm
  order := by
    have horder := h.order
    rw [hw] at horder
    exact (List.pairwise_cons.mp horder).2
  fly := h.fly
  pairs p hmem := (h.pairs p hmem).of_cmds rfl

/-- A request that is no first half goes to the io-wait queue. -/
theorem queueIo (h : PairSound [i] s) (hi : s.fuseAt i ≠ some .first) :
    PairSound [] (s.queueIo [i]) where
  follows := h.follows
  once j := by
    refine Eq.trans ?_ (h.once j)
    rw [FusedSt.seen_queueIo, List.count_nil, Nat.zero_add]
  own := h.own
  clear := h.clear
  pend f hf := by
    obtain ⟨hfirst, hcmp, hawait⟩ := h.pend f hf
    refine ⟨hfirst, hcmp, ?_⟩
    rcases hawait with hmem | hmem | hlast
    · exact Or.inr (Or.inl (List.mem_append_right _ hmem))
    · exact Or.inr (Or.inl (List.mem_append_left _ hmem))
    · exact Or.inr (Or.inr hlast)
  held := nofun
  wait f hf hfirst := by
    rcases List.mem_append.mp hf with hf | hf
    · exact List.mem_append_left _ (h.wait f hf hfirst)
    · obtain rfl := List.mem_singleton.mp hf
      exact absurd hfirst hi
  order := by
    refine List.pairwise_append.mpr ⟨h.order, List.pairwise_singleton _ _, ?_⟩
    intro a _ b hb hfirst
    obtain rfl := List.mem_singleton.mp hb
    exact absurd hfirst hi
  fly := h.fly
  pairs p hmem := (h.pairs p hmem).of_cmds rfl

/-- Both halves of a pair go to the io-wait queue, the first in front. -/
theorem queueBoth (h : PairSound [f, f + 1] s) (hp : s.pending = none)
    (hi : s.fuseAt (f + 1) ≠ some .first) : PairSound [] (s.queueIo [f, f + 1]) where
  follows := h.follows
  once j := by
    refine Eq.trans ?_ (h.once j)
    rw [FusedSt.seen_queueIo, List.count_nil, Nat.zero_add]
  own := h.own
  clear := h.clear
  pend g hg := by
    rw [show s.pending = some g from hg] at hp
    cases hp
  held := nofun
  wait g hg hfirst := by
    rcases List.mem_append.mp hg with hg | hg
    · exact List.mem_append_left _ (h.wait g hg hfirst)
    · rcases List.mem_pair.mp hg with rfl | rfl
      · exact List.mem_append_right _ (List.mem_cons_of_mem _ (List.mem_singleton_self _))
      · exact absurd hfirst hi
  order := by
    refine List.pairwise_append.mpr ⟨h.order, List.pairwise_pair.mpr fun hfirst => ?_, ?_⟩
    · exact absurd hfirst hi
    · intro a ha b hb hfirst
      rcases List.mem_pair.mp hb with rfl | rfl
      · rintro rfl
        exact h.notMem_waiting (List.mem_cons_of_mem _ (List.mem_singleton_self _)) ha
      · exact absurd hfirst hi
  fly := h.fly
  pairs p hmem := (h.pairs p hmem).of_cmds rfl

/-- The device takes a request, with the first half it is tied to. -/
theorem toDevice (h : PairSound ((s.linked i).toList ++ [i]) s) (hi : s.fuseAt i ≠ some .first)
    (hp : ∀ g, s.pending = some g → g + 1 ≠ i)
    (hl : s.firstFused (s.slotAt i) = none ∨
      ∃ f, s.linked i = some f ∧ s.fuseAt f = some .first ∧ i = f + 1) :
    PairSound [] (s.fly i) where
  follows := h.follows
  once j := by
    refine Eq.trans ?_ (h.once j)
    change [].count j + (_ + _ + (s.flying ++ [i]).count j +
      ((s.flying ++ [i]).filterMap s.linked).count j + _) = _
    have hone : [i].filterMap s.linked = (s.linked i).toList := by
      cases hlink : s.linked i <;> simp [hlink]
    rw [List.filterMap_append, hone, List.count_append, List.count_append, List.count_append,
      FusedSt.seen, List.count_nil]
    simp only [FusedSt.fly]
    omega
  own := h.own
  clear := h.clear
  pend g hg := by
    obtain ⟨hfirst, hcmp, hawait⟩ := h.pend g hg
    refine ⟨hfirst, hcmp, ?_⟩
    rcases hawait with hmem | hmem
    · rcases List.mem_append.mp hmem with hmem | hmem
      · -- what it is tied to is a first half itself
        rcases hl with hnone | ⟨f, hlink, hf, -⟩
        · rw [FusedSt.linked, hnone] at hmem
          cases hmem
        · rw [hlink, Option.toList_some, List.mem_singleton] at hmem
          have hlt := h.lt_of_mem (i := f) (List.mem_append_left _ (by rw [hlink]; simp))
          exact absurd hmem (h.first_ne_next hfirst hf hlt)
      · exact absurd (List.mem_singleton.mp hmem) (hp g hg)
    · exact Or.inr hmem
  held := nofun
  wait := h.wait
  order := h.order
  fly j hj := by
    rcases List.mem_append.mp hj with hj | hj
    · exact h.fly j hj
    · obtain rfl := List.mem_singleton.mp hj
      exact ⟨hi, hl⟩
  pairs p hmem := (h.pairs p hmem).of_cmds rfl

/-- The device gives a request back, with the first half it is tied to. -/
theorem fromDevice (h : PairSound [] s) (hi : i ∈ s.flying) :
    PairSound ((s.linked i).toList ++ [i]) { s with flying := s.flying.erase i } where
  follows := h.follows
  once j := by
    refine Eq.trans ?_ (h.once j)
    change _ + (_ + _ + (s.flying.erase i).count j +
      ((s.flying.erase i).filterMap s.linked).count j + _) = _
    have hperm := List.perm_cons_erase hi
    have hcount : s.flying.count j = [i].count j + (s.flying.erase i).count j :=
      (hperm.count_eq j).trans (FusedSt.count_cons_eq_add i j _)
    have hlinks : (s.flying.filterMap s.linked).count j =
        (s.linked i).toList.count j + ((s.flying.erase i).filterMap s.linked).count j := by
      rw [(hperm.filterMap s.linked).count_eq j, List.filterMap_cons]
      cases s.linked i with
      | none => simp
      | some f => exact FusedSt.count_cons_eq_add f j _
    rw [FusedSt.seen, hcount, hlinks, List.count_append, List.count_nil]
    dsimp only
    omega
  own := h.own
  clear := h.clear
  pend f hf := by
    obtain ⟨hfirst, hcmp, hawait⟩ := h.pend f hf
    exact ⟨hfirst, hcmp, hawait.imp_left nofun⟩
  held f hf hfirst := by
    rcases List.mem_append.mp hf with hf | hf
    · rcases (h.fly i hi).2 with hnone | ⟨g, hlink, -, rfl⟩
      · rw [FusedSt.linked, hnone] at hf
        cases hf
      · rw [hlink, Option.toList_some, List.mem_singleton] at hf
        subst hf
        exact Or.inl (List.mem_append_right _ (List.mem_singleton_self _))
    · obtain rfl := List.mem_singleton.mp hf
      exact absurd hfirst (h.fly f hi).1
  wait := h.wait
  order := h.order
  fly j hj := h.fly j (List.mem_of_mem_erase hj)
  pairs p hmem := (h.pairs p hmem).of_cmds rfl

/-- A second half in hand is marked, or the mark is taken back. -/
theorem setFirstFused (h : PairSound hand s) (hi : i ∈ hand)
    (hsecond : s.fuseAt i = some .second) (p : Option ℕ) :
    PairSound hand (s.setFirstFused i p) := by
  have hother : ∀ j < s.cmds.length, j ∉ s.completed → j ≠ i →
      Function.update s.firstFused (s.slotAt i) p (s.slotAt j) = s.firstFused (s.slotAt j) :=
    fun j hj hjc hne => Function.update_of_ne (fun hs => hne
      (h.slotAt_inj hj hjc (h.lt_of_mem hi) (h.notMem_completed hi) hs)) _ _
  have hflying : ∀ j ∈ s.flying, Function.update s.firstFused (s.slotAt i) p (s.slotAt j)
      = s.firstFused (s.slotAt j) := fun j hj =>
    hother j (h.flying_live hj).1 (h.flying_live hj).2 fun heq => h.notMem_flying hi (heq ▸ hj)
  have hlinked : ∀ j ∈ s.flying, (s.setFirstFused i p).linked j = s.linked j := fun j hj => by
    change (Function.update s.firstFused (s.slotAt i) p (s.slotAt j)).bind s.owner = _
    rw [hflying j hj]
    rfl
  refine ⟨h.follows, fun j => Eq.trans ?_ (h.once j), h.own, ?_, h.pend, h.held, h.wait, h.order,
    ?_, fun p hmem => (h.pairs p hmem).of_cmds rfl⟩
  · change _ + (_ + _ + _ + (s.flying.filterMap (s.setFirstFused i p).linked).count j + _) = _
    rw [List.filterMap_congr hlinked]
    rfl
  · intro j hj hjc hne
    change Function.update s.firstFused (s.slotAt i) p (s.slotAt j) = none
    rw [hother j hj hjc fun heq => hne (heq ▸ hsecond)]
    exact h.clear j hj hjc hne
  · intro j hj
    change s.fuseAt j ≠ some .first ∧
      (Function.update s.firstFused (s.slotAt i) p (s.slotAt j) = none ∨
        ∃ f, (s.setFirstFused i p).linked j = some f ∧ s.fuseAt f = some .first ∧ j = f + 1)
    rw [hflying j hj, hlinked j hj]
    exact h.fly j hj

/-- A call of the device is noted. -/
theorem submit (h : PairSound hand s) (hpair : s.IsPair f i) {α : Type} (calls : List α) :
    PairSound hand { s with submitted := s.submitted ++ calls.map fun _ => (f, i) } := by
  refine ⟨h.follows, h.once, h.own, h.clear, h.pend, h.held, h.wait, h.order, h.fly, ?_⟩
  intro p hmem
  rcases List.mem_append.mp hmem with hmem | hmem
  · exact (h.pairs p hmem).of_cmds rfl
  · obtain ⟨-, -, rfl⟩ := List.mem_map.mp hmem
    exact hpair.of_cmds rfl

/-! ## A command arrives -/

section Arrive

variable {req : FusedReq}

/-- A first half is directly followed by a second. -/
theorem arrive_follows (h : PairSound [] s) (hadm : Admits s req)
    (hf : (s.arrive req).fuseAt f = some .first) (hlt : f + 1 < (s.arrive req).cmds.length) :
    (s.arrive req).fuseAt (f + 1) = some .second := by
  rw [FusedSt.length_arrive] at hlt
  rw [FusedSt.fuseAt_arrive (Nat.lt_of_succ_lt_succ hlt)] at hf
  rcases Nat.lt_or_eq_of_le (Nat.le_of_lt_succ hlt) with hlt | heq
  · rw [FusedSt.fuseAt_arrive hlt]
    exact h.follows f hf hlt
  · obtain ⟨r, hr, hfuse⟩ := Option.map_eq_some_iff.mp hf
    have hlast : s.cmds.getLast? = some r := by
      rw [List.getLast?_eq_getElem?, ← heq, Nat.add_sub_cancel, hr]
    rw [heq, FusedSt.fuseAt, FusedSt.getElem?_arrive_length, Option.map_some,
      hadm.1 r hlast hfuse]

/-- A struct is given out again only when its request is completed. -/
theorem owner_arrive (hadm : Admits s req) {slot : ℕ} (ho : s.owner slot = some i)
    (hi : i ∉ s.completed) : (s.arrive req).owner slot = some i := by
  have hne : slot ≠ req.slot := by
    rintro rfl
    exact hi (hadm.2 i ho)
  change Function.update s.owner req.slot _ slot = some i
  rw [Function.update_of_ne hne, ho]

theorem linked_arrive (h : PairSound [] s) (hadm : Admits s req) (hj : j ∈ s.flying) :
    (s.arrive req).linked j = s.linked j := by
  have hslot : (s.arrive req).slotAt j = s.slotAt j :=
    FusedSt.slotAt_arrive (h.flying_live hj).1
  rcases (h.fly j hj).2 with hnone | ⟨f, hlink, -, -⟩
  · rw [FusedSt.linked, FusedSt.linked, hslot, hnone]
    change (s.firstFused (s.slotAt j)).bind _ = _
    rw [hnone]
    rfl
  · obtain ⟨slot, hmark, hown⟩ := Option.bind_eq_some_iff.mp hlink
    rw [hlink, FusedSt.linked, hslot]
    exact Option.bind_eq_some_iff.mpr
      ⟨slot, hmark, owner_arrive hadm hown (h.linked_live hj hlink).2⟩

theorem waiting_lt (h : PairSound hand s) (hi : i ∈ s.waiting) : i < s.cmds.length := by
  have hpos := List.count_pos_iff.mpr hi
  refine h.lt_of_seen ?_
  rw [FusedSt.seen]
  omega

theorem arrive_once (h : PairSound [] s) (hadm : Admits s req) (i : ℕ) :
    [s.cmds.length].count i + (s.arrive req).seen i
      = if i < (s.arrive req).cmds.length then 1 else 0 := by
  have hseen : (s.arrive req).seen i = s.seen i := by
    change _ + _ + _ + (s.flying.filterMap (s.arrive req).linked).count i + _ = _
    rw [List.filterMap_congr fun j hj => h.linked_arrive hadm hj]
    rfl
  have honce := h.once i
  rw [List.count_nil, Nat.zero_add] at honce
  rw [hseen, honce, FusedSt.length_arrive, List.count_singleton]
  by_cases hi : s.cmds.length = i
  · subst hi
    simp
  · rw [if_neg (by simpa using hi), Nat.zero_add]
    congr 1
    exact propext ⟨fun h => Nat.lt_succ_of_lt h, fun h => by omega⟩

/-- **The next command is in hand.** -/
theorem arrive (h : PairSound [] s) (hadm : Admits s req) (hmark : s.firstFused req.slot = none) :
    PairSound [s.cmds.length] (s.arrive req) where
  follows f := h.arrive_follows hadm
  once := h.arrive_once hadm
  own i hi hic := by
    rw [FusedSt.length_arrive] at hi
    rcases Nat.lt_or_eq_of_le (Nat.le_of_lt_succ hi) with hlt | rfl
    · rw [FusedSt.slotAt_arrive hlt]
      exact owner_arrive hadm (h.own i hlt hic) hic
    · rw [FusedSt.slotAt_arrive_length]
      exact Function.update_self ..
  clear i hi hic hne := by
    rw [FusedSt.length_arrive] at hi
    rcases Nat.lt_or_eq_of_le (Nat.le_of_lt_succ hi) with hlt | rfl
    · rw [FusedSt.fuseAt_arrive hlt] at hne
      rw [FusedSt.slotAt_arrive hlt]
      exact h.clear i hlt hic hne
    · rw [FusedSt.slotAt_arrive_length]
      exact hmark
  pend f hf := by
    obtain ⟨hfirst, hcmp, hawait⟩ := h.pend f hf
    have hlt := FusedSt.lt_of_fuseAt hfirst
    refine ⟨(FusedSt.fuseAt_arrive hlt).trans hfirst, ?_, ?_⟩
    · rwa [FusedSt.opcAt, FusedSt.getElem?_arrive hlt]
    · rcases hawait with hmem | hmem | hlast
      · cases hmem
      · exact Or.inr (Or.inl hmem)
      · exact Or.inl (List.mem_singleton.mpr hlast)
  held f hf _ := by
    obtain rfl := List.mem_singleton.mp hf
    exact Or.inr (Or.inr FusedSt.length_arrive.symm)
  wait f hf hfirst := by
    rw [FusedSt.fuseAt_arrive (h.waiting_lt hf)] at hfirst
    exact h.wait f hf hfirst
  order := by
    refine h.order.imp_of_mem fun {a b} _ hb hab hfirst => hab ?_
    rwa [FusedSt.fuseAt_arrive (h.waiting_lt hb)] at hfirst
  fly i hi := by
    have hlt := (h.flying_live hi).1
    obtain ⟨hne, hlink⟩ := h.fly i hi
    rw [FusedSt.fuseAt_arrive hlt, FusedSt.slotAt_arrive hlt, h.linked_arrive hadm hi]
    refine ⟨hne, hlink.imp_right ?_⟩
    rintro ⟨f, hl, hfirst, hnext⟩
    exact ⟨f, hl, (FusedSt.fuseAt_arrive (FusedSt.lt_of_fuseAt hfirst)).trans hfirst, hnext⟩
  pairs p hmem := (h.pairs p hmem).arrive

end Arrive

end PairSound

end NdpHeaan
