import Mathlib.Logic.Relation

/-!
# Machinery/Run — labelled systems, and the states a guarded run reaches

A system is an initial state and a partial step function on labels.  `Reach M P` collects the states
reached by runs *all of whose steps satisfy the guard* `P`; a guard reads the state before the step
and the label, so "every run whose steps meet a condition" is one predicate.  The unguarded runs are
`Reach M (fun _ _ => True)`.
-/

namespace Machinery

variable {σ ℓ : Type*}

/-- A labelled system: an initial state, and what a label does to a state that accepts it. -/
structure Sys (σ ℓ : Type*) where
  /-- The state every run starts in. -/
  init : σ
  /-- The successor under a label, `none` where the label is not enabled. -/
  step : σ → ℓ → Option σ

namespace Sys

/-- **The states reached by guarded runs.** -/
inductive Reach (M : Sys σ ℓ) (P : σ → ℓ → Prop) : σ → Prop
  | init : Reach M P M.init
  | step {s s' : σ} {l : ℓ} : Reach M P s → P s l → M.step s l = some s' → Reach M P s'

/-- The state a word of labels leads to. -/
def run (M : Sys σ ℓ) (s : σ) : List ℓ → Option σ
  | [] => some s
  | l :: ls => (M.step s l).bind fun s' => M.run s' ls

variable {M : Sys σ ℓ} {P : σ → ℓ → Prop}

/-- **The invariant rule** over reached states: a step may assume that it starts from one. -/
theorem Reach.invariant_of_reach {I : σ → Prop} (h0 : I M.init)
    (hstep : ∀ s l s', M.Reach P s → I s → P s l → M.step s l = some s' → I s') {s : σ}
    (h : M.Reach P s) : I s := by
  induction h with
  | init => exact h0
  | step hr hP hs ih => exact hstep _ _ _ hr ih hP hs

/-- **The invariant rule**: what holds initially and survives every guarded step holds wherever a
guarded run leads. -/
theorem Reach.invariant {I : σ → Prop} (h0 : I M.init)
    (hstep : ∀ s l s', I s → P s l → M.step s l = some s' → I s') {s : σ} (h : M.Reach P s) :
    I s :=
  h.invariant_of_reach h0 fun s l s' _ => hstep s l s'

/-- A word run from a reached state stays reached, where the guard admits its labels. -/
theorem Reach.of_run : ∀ {s s' : σ} (ls : List ℓ), (∀ l ∈ ls, ∀ t, P t l) → M.Reach P s →
    M.run s ls = some s' → M.Reach P s'
  | _, _, [], _, hr, h => by
      obtain rfl := Option.some.inj h
      exact hr
  | s, _, l :: ls, hP, hr, h => by
      obtain ⟨m, hm, hrun⟩ := Option.bind_eq_some_iff.mp h
      have hreach : M.Reach P m := hr.step (hP l (List.mem_cons_self ..) s) hm
      exact Reach.of_run ls (fun l' hl' => hP l' (List.mem_cons_of_mem _ hl')) hreach hrun

/-- The guard holds at every step of a word. -/
def Guarded (M : Sys σ ℓ) (P : σ → ℓ → Prop) (s : σ) : List ℓ → Prop
  | [] => True
  | l :: ls => P s l ∧ ∀ s', M.step s l = some s' → M.Guarded P s' ls

/-- A word whose steps are guarded leads from a reached state to a reached one. -/
theorem Reach.of_guarded : ∀ {s s' : σ} (ls : List ℓ), M.Guarded P s ls → M.Reach P s →
    M.run s ls = some s' → M.Reach P s'
  | _, _, [], _, hr, h => by
      obtain rfl := Option.some.inj h
      exact hr
  | _, _, _ :: ls, hP, hr, h => by
      obtain ⟨m, hm, hrun⟩ := Option.bind_eq_some_iff.mp h
      exact Reach.of_guarded ls (hP.2 m hm) (hr.step hP.1 hm) hrun

/-- A word is its first step and the rest. -/
theorem run_cons_eq_some {s s' : σ} {l : ℓ} {ls : List ℓ} (h : M.run s (l :: ls) = some s') :
    ∃ m, M.step s l = some m ∧ M.run m ls = some s' := Option.bind_eq_some_iff.mp h

/-- A word, and one step more. -/
theorem run_concat {s m s' : σ} {l : ℓ} : ∀ {ls : List ℓ}, M.run s ls = some m →
    M.step m l = some s' → M.run s (ls ++ [l]) = some s'
  | [], h, hs => by
      obtain rfl := Option.some.inj h
      rw [List.nil_append, run, hs]
      rfl
  | _ :: _, h, hs => by
      obtain ⟨k, hk, hrun⟩ := run_cons_eq_some h
      rw [List.cons_append, run, hk]
      exact run_concat hrun hs

/-- Only the empty word runs from a state without steps. -/
theorem run_of_stuck {s s' : σ} {ls : List ℓ} (hs : ∀ l, M.step s l = none)
    (h : M.run s ls = some s') : ls = [] ∧ s' = s := by
  cases ls with
  | nil => exact ⟨rfl, (Option.some.inj h).symm⟩
  | cons l ls =>
    obtain ⟨m, hm, -⟩ := run_cons_eq_some h
    rw [hs l] at hm
    cases hm

/-- What survives every step survives a word. -/
theorem run_invariant {I : σ → Prop} (hstep : ∀ s l s', I s → M.step s l = some s' → I s') :
    ∀ {ls : List ℓ} {s s' : σ}, I s → M.run s ls = some s' → I s'
  | [], _, _, hI, h => Option.some.inj h ▸ hI
  | _ :: _, _, _, hI, h => by
      obtain ⟨m, hm, hrun⟩ := run_cons_eq_some h
      exact run_invariant hstep (hstep _ _ _ hI hm) hrun

/-- **The rank rule**: where no step raises a rank and every step that counts lowers it, a word has
at most as many of those as the rank it starts with. -/
theorem run_rank {I : σ → Prop} {rank : σ → Nat} {p : ℓ → Bool}
    (hstep : ∀ s l s', I s → M.step s l = some s' →
      I s' ∧ rank s' + (if p l then 1 else 0) ≤ rank s) :
    ∀ {ls : List ℓ} {s s' : σ}, I s → M.run s ls = some s' → rank s' + ls.countP p ≤ rank s
  | [], _, _, _, h => by
      obtain rfl := Option.some.inj h
      exact Nat.le_refl _
  | l :: ls, _, _, hI, h => by
      obtain ⟨m, hm, hrun⟩ := run_cons_eq_some h
      obtain ⟨hI', hrank⟩ := hstep _ _ _ hI hm
      have hrest := run_rank hstep hI' hrun
      rw [List.countP_cons]
      omega

/-- The states that words of labels of one kind lead to. -/
def Leads (M : Sys σ ℓ) (Q : ℓ → Prop) (s s' : σ) : Prop :=
  ∃ ls, (∀ l ∈ ls, Q l) ∧ M.run s ls = some s'

section Leads

variable {Q : ℓ → Prop}

theorem Leads.refl (s : σ) : M.Leads Q s s := ⟨[], List.forall_mem_nil Q, rfl⟩

theorem Leads.head {s m s' : σ} {l : ℓ} (hl : Q l) (hs : M.step s l = some m) (h : M.Leads Q m s') :
    M.Leads Q s s' := by
  obtain ⟨ls, hls, hrun⟩ := h
  refine ⟨l :: ls, fun l' hl' => ?_, ?_⟩
  · rcases List.mem_cons.mp hl' with rfl | hl'
    · exact hl
    · exact hls l' hl'
  · rw [run, hs]
    exact hrun

theorem Leads.single {s s' : σ} {l : ℓ} (hl : Q l) (hs : M.step s l = some s') : M.Leads Q s s' :=
  .head hl hs (.refl s')

theorem Leads.trans {s m s' : σ} (h : M.Leads Q s m) (h' : M.Leads Q m s') : M.Leads Q s s' := by
  obtain ⟨ls, hls, hrun⟩ := h
  induction ls generalizing s with
  | nil =>
    obtain rfl := Option.some.inj hrun
    exact h'
  | cons l ls ih =>
    obtain ⟨k, hk, hrun⟩ := run_cons_eq_some hrun
    have hrest := ih (fun l' hl' => hls l' (List.mem_cons_of_mem _ hl')) hrun
    exact .head (hls l (List.mem_cons_self ..)) hk hrest

/-- What survives every step of a kind holds wherever words of that kind lead. -/
theorem Leads.invariant {I : σ → Prop} (hstep : ∀ s l s', I s → Q l → M.step s l = some s' → I s')
    {s s' : σ} (hI : I s) (h : M.Leads Q s s') : I s' := by
  obtain ⟨ls, hls, hrun⟩ := h
  induction ls generalizing s with
  | nil => exact Option.some.inj hrun ▸ hI
  | cons l ls ih =>
    obtain ⟨k, hk, hrun⟩ := run_cons_eq_some hrun
    refine ih (hstep s l k hI (hls l (List.mem_cons_self ..)) hk) (fun l' hl' => ?_) hrun
    exact hls l' (List.mem_cons_of_mem _ hl')

end Leads

/-- The states that guarded steps lead to. -/
def Steps (M : Sys σ ℓ) (P : σ → ℓ → Prop) : σ → σ → Prop :=
  Relation.ReflTransGen fun s s' => ∃ l, P s l ∧ M.step s l = some s'

section Steps

theorem Steps.refl (s : σ) : M.Steps P s s := Relation.ReflTransGen.refl

theorem Steps.single {s s' : σ} {l : ℓ} (hP : P s l) (hs : M.step s l = some s') : M.Steps P s s' :=
  Relation.ReflTransGen.single ⟨l, hP, hs⟩

theorem Steps.trans {s m s' : σ} (h : M.Steps P s m) (h' : M.Steps P m s') : M.Steps P s s' :=
  Relation.ReflTransGen.trans h h'

/-- What survives every guarded step holds wherever such steps lead. -/
theorem Steps.invariant {I : σ → Prop} (hstep : ∀ s l s', I s → P s l → M.step s l = some s' → I s')
    {s s' : σ} (hI : I s) (h : M.Steps P s s') : I s' := by
  induction h with
  | refl => exact hI
  | tail _ hs ih =>
    obtain ⟨l, hP, hl⟩ := hs
    exact hstep _ l _ ih hP hl

end Steps

end Sys

end Machinery
