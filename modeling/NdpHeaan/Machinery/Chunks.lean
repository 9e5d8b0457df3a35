import NdpHeaan.Machinery.Run

/-!
# Machinery/Chunks — readers that do not mind how their input is cut up

A reader works in passes, each with the input it is handed.  A state that *waits* reads; in any
other state a pass without input comes first, and `Settles` does all of those.  What is handed out
in one piece may as well come one by one (`Fed`), so a run to a settled state is pinned by the input
as a whole — if every state on the way settles, which one that comes back to itself does not.
-/

namespace Machinery

variable {σ β : Type*}

/-- A reader: what a pass makes of a state and its input, and the states that ask for input. -/
structure Reader (σ β : Type*) where
  pass : List β → σ → Option σ
  Waits : σ → Prop

namespace Reader

variable (M : Reader σ β)

/-- The runs of a reader from a state on. -/
def sys (s : σ) : Sys σ (List β) := ⟨s, fun s bs => M.pass bs s⟩

/-- The reader takes no pass any more. -/
def Stops (s : σ) : Prop := ∀ bs, M.pass bs s = none

/-- **Passes without input** lead to a state that waits, or to the end. -/
inductive Settles : σ → σ → Prop
  | waits {s : σ} : M.Waits s → Settles s s
  | stops {s : σ} : M.Stops s → Settles s s
  | pass {s s₁ t : σ} : ¬ M.Waits s → M.pass [] s = some s₁ → Settles s₁ t → Settles s t

/-- **One input after the other**, the reader settling in between. -/
inductive Fed : σ → List β → σ → Prop
  | nil {s : σ} : Fed s [] s
  | cons {s s₁ s₂ t : σ} {b : β} {bs : List β} : M.Waits s → M.pass [b] s = some s₁ →
      M.Settles s₁ s₂ → Fed s₂ bs t → Fed s (b :: bs) t

/-- **The laws of a reader**, over the states of an invariant. -/
structure Lawful (I : σ → Prop) : Prop where
  keeps : ∀ {s s' : σ} {bs : List β}, I s → M.pass bs s = some s' → I s'
  /-- A read that would block changes nothing. -/
  blocks : ∀ {s s' : σ}, I s → M.Waits s → M.pass [] s = some s' → s' = s
  /-- The first of several inputs leaves the reader waiting for the others. -/
  splits : ∀ {s s' : σ} {b c : β} {bs : List β}, I s → M.Waits s →
    M.pass (b :: c :: bs) s = some s' →
      ∃ s₁, M.pass [b] s = some s₁ ∧ M.Waits s₁ ∧ M.pass (c :: bs) s₁ = some s'
  /-- A state that does not wait and takes input begins to wait, and reads. -/
  through : ∀ {s s' : σ} {b : β} {bs : List β}, I s → ¬ M.Waits s →
    M.pass (b :: bs) s = some s' →
      ∃ s₁, M.pass [] s = some s₁ ∧ M.Waits s₁ ∧ M.pass (b :: bs) s₁ = some s'

variable {M} {s s' t t' n : σ} {bs : List β}

/-! ## Settled states -/

theorem Settles.eq_of_waits (h : M.Settles s t) (hw : M.Waits s) : t = s := by
  cases h with
  | waits => rfl
  | stops => rfl
  | pass hn => exact absurd hw hn

theorem Settles.eq_of_stops (h : M.Settles s t) (hs : M.Stops s) : t = s := by
  cases h with
  | waits => rfl
  | stops => rfl
  | pass _ hp =>
    rw [hs] at hp
    cases hp

/-- A state settles in one way. -/
theorem Settles.unique (h : M.Settles s t) (h' : M.Settles s t') : t' = t := by
  induction h with
  | waits hw => exact h'.eq_of_waits hw
  | stops hs => exact h'.eq_of_stops hs
  | pass hn hp _ ih =>
    cases h' with
    | waits hw => exact absurd hw hn
    | stops hs =>
      rw [hs] at hp
      cases hp
    | pass _ hp' h₁ =>
      cases hp.symm.trans hp'
      exact ih h₁

/-! ## Input as a whole -/

/-- What is read leads to one state. -/
theorem Fed.unique (h : M.Fed s bs t) (h' : M.Fed s bs t') : t' = t := by
  induction h with
  | nil =>
    cases h'
    rfl
  | cons _ hp hset _ ih =>
    cases h' with
    | cons _ hp' hset' hfed' =>
      cases hp.symm.trans hp'
      obtain rfl := hset.unique hset'
      exact ih hfed'

theorem Fed.append {m : σ} {cs : List β} (h : M.Fed s bs m) (h' : M.Fed m cs t) :
    M.Fed s (bs ++ cs) t := by
  induction h with
  | nil => exact h'
  | cons hw hp hset _ ih => exact .cons hw hp hset (ih h')

/-- Input is read from the front. -/
theorem Fed.of_append : ∀ {bs cs : List β} {s : σ}, M.Fed s (bs ++ cs) t →
    ∃ m, M.Fed s bs m ∧ M.Fed m cs t
  | [], _, s, h => ⟨s, .nil, h⟩
  | _ :: bs, _, _, .cons hw hp hset hfed => by
      obtain ⟨m, hm, hrest⟩ := of_append hfed
      exact ⟨m, .cons hw hp hset hm, hrest⟩

/-- A reader that has stopped reads nothing more. -/
theorem Fed.eq_nil_of_stops (h : M.Fed s bs t) (hs : M.Stops s) : bs = [] := by
  cases h with
  | nil => rfl
  | cons _ hp =>
    rw [hs] at hp
    cases hp

section Lawful

variable {I : σ → Prop} (hM : M.Lawful I)

include hM

/-- **A piece of input may come one by one**, in a state that waits. -/
theorem Lawful.fed_of_waits : ∀ {bs : List β} {s : σ}, I s → M.Waits s → M.pass bs s = some s' →
    M.Settles s' t → M.Fed s bs t
  | [], _, hI, hw, hp, hset => by
      obtain rfl := hM.blocks hI hw hp
      obtain rfl := hset.eq_of_waits hw
      exact .nil
  | [_], _, _, hw, hp, hset => .cons hw hp hset .nil
  | _ :: _ :: _, _, hI, hw, hp, hset => by
      obtain ⟨s₁, hfirst, hw₁, hrest⟩ := hM.splits hI hw hp
      exact .cons hw hfirst (.waits hw₁) (fed_of_waits (hM.keeps hI hfirst) hw₁ hrest hset)

/-- **A pass, from one settled state to the next.** -/
theorem Lawful.fed_of_pass (hI : I s) (hn : M.Settles s n) (hp : M.pass bs s = some s')
    (hset : M.Settles s' t) : M.Fed n bs t := by
  by_cases hw : M.Waits s
  · obtain rfl := hn.eq_of_waits hw
    exact hM.fed_of_waits hI hw hp hset
  cases hn with
  | waits hw' => exact absurd hw' hw
  | stops hs =>
    rw [hs] at hp
    cases hp
  | pass _ hfirst hrest =>
    cases bs with
    | nil =>
      cases hfirst.symm.trans hp
      obtain rfl := hrest.unique hset
      exact .nil
    | cons b bs =>
      obtain ⟨s₁, hfirst', hw₁, hp₁⟩ := hM.through hI hw hp
      cases hfirst.symm.trans hfirst'
      obtain rfl := hrest.eq_of_waits hw₁
      exact hM.fed_of_waits (hM.keeps hI hfirst) hw₁ hp₁ hset

/-- **A run**, all of whose states settle, is its input one by one. -/
theorem Lawful.fed_of_run {s₀ : σ} : ∀ {cs : List (List β)} {s n : σ}, I s →
    (∀ pre u, pre <+: cs → (M.sys s₀).run s pre = some u → ∃ t, M.Settles u t) →
    (M.sys s₀).run s cs = some s' → M.Settles s n → M.Settles s' t → M.Fed n cs.flatten t
  | [], _, _, _, _, hrun, hn, ht => by
      obtain rfl := Option.some.inj hrun
      obtain rfl := hn.unique ht
      exact .nil
  | c :: cs, s, n, hI, hall, hrun, hn, ht => by
      obtain ⟨m, hp, hrest⟩ := Sys.run_cons_eq_some hrun
      have hcons : ∀ pre u, pre <+: cs → (M.sys s₀).run m pre = some u → ∃ t, M.Settles u t := by
        intro pre u hpre hu
        refine hall (c :: pre) u (List.cons_prefix_cons.mpr ⟨rfl, hpre⟩) ?_
        rw [Sys.run, hp]
        exact hu
      obtain ⟨k, hk⟩ := hcons [] m List.nil_prefix rfl
      have hfed := fed_of_run (hM.keeps hI hp) hcons hrest hk ht
      exact (hM.fed_of_pass hI hn hp hk).append hfed

end Lawful

end Reader

end Machinery
