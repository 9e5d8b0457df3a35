import Mathlib.Data.List.Basic

/-!
# Machinery/Walk — going through a queue that changes on the way

`TAILQ_FOREACH_SAFE` reads the successor of an element before it visits it, so that a visit may
remove the element.  Where a visit removes the successor as well, the walk goes on in whatever queue
that element is in by then.  `foreachSafe` follows the links of the state as it is at each visit.
-/

namespace Machinery

section NextIn

variable {α : Type*} [DecidableEq α]

/-- The element behind `a`. -/
def nextIn (a : α) : List α → Option α
  | [] => none
  | b :: queue => if b = a then queue.head? else nextIn a queue

theorem nextIn_append {a : α} {rest : List α} : ∀ {pre : List α}, a ∉ pre →
    nextIn a (pre ++ a :: rest) = rest.head?
  | [], _ => if_pos rfl
  | b :: pre, ha => by
      have hne : b ≠ a := fun he => ha (he ▸ List.mem_cons_self ..)
      rw [List.cons_append, nextIn, if_neg hne,
        nextIn_append fun hmem => ha (List.mem_cons_of_mem _ hmem)]

theorem mem_of_nextIn {a b : α} : ∀ {queue : List α}, nextIn a queue = some b → b ∈ queue
  | [], h => by cases h
  | c :: queue, h => by
      rw [nextIn] at h
      split_ifs at h
      · exact List.mem_cons_of_mem _ (List.mem_of_mem_head? h)
      · exact List.mem_cons_of_mem _ (mem_of_nextIn h)

end NextIn

section Walk

variable {σ α : Type*} (next : σ → α → Option α) (visit : α → σ → σ)

/-- **`TAILQ_FOREACH_SAFE`** from an element on, for at most so many visits. -/
def foreachSafe : ℕ → Option α → σ → σ
  | n + 1, some a, s => foreachSafe n (next s a) (visit a s)
  | _, _, s => s

variable {next visit}

@[simp] theorem foreachSafe_none (n : ℕ) (s : σ) : foreachSafe next visit n none s = s := by
  cases n <;> rfl

/-- What every visit keeps, a walk keeps. -/
theorem foreachSafe_keep {K : Option α → σ → Prop}
    (hK : ∀ a s, K (some a) s → K (next s a) (visit a s)) :
    ∀ {n : ℕ} {c : Option α} {s : σ}, K c s → ∃ c', K c' (foreachSafe next visit n c s)
  | 0, c, _, h => ⟨c, h⟩
  | _ + 1, none, _, h => ⟨none, h⟩
  | n + 1, some a, s, h => foreachSafe_keep hK (n := n) (hK a s h)

/-- A walk over the elements `rest`, each of which is visited in turn until a visit lets the walk
run off. -/
theorem foreachSafe_rule {I : List α → σ → Prop} {J : σ → Prop}
    (hnext : ∀ a rest s, I (a :: rest) s → next s a = rest.head?)
    (hvisit : ∀ a rest s, I (a :: rest) s → I rest (visit a s) ∨
      J (visit a s) ∧ ∀ n, foreachSafe next visit n rest.head? (visit a s) = visit a s)
    (hend : ∀ s, I [] s → J s) : ∀ {rest : List α} {n : ℕ} {s : σ}, I rest s →
      rest.length ≤ n → J (foreachSafe next visit n rest.head? s)
  | [], n, s, h, _ => by
      rw [List.head?_nil, foreachSafe_none]
      exact hend s h
  | a :: rest, n + 1, s, h, hn => by
      rw [List.head?_cons, foreachSafe, hnext a rest s h]
      rcases hvisit a rest s h with h' | ⟨h', hoff⟩
      · exact foreachSafe_rule hnext hvisit hend h' (Nat.le_of_succ_le_succ hn)
      · rwa [hoff]

end Walk

end Machinery
