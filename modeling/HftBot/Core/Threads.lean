import Mathlib.Algebra.BigOperators.Fin

/-!
# Threads

What the threads of a machine hold together, when one of them takes a step.
-/

namespace HftBot.Core

variable {τ β : Type} [Fintype τ] [DecidableEq τ] {M : Type} [AddCommMonoid M]

/-- One thread changes what it holds, and the sum changes with it. -/
lemma sum_update_add (f : β → M) (w : τ → β) (t : τ) (b : β) :
    ∑ u, f (Function.update w t b u) + f (w t) = ∑ u, f (w u) + f b := by
  have hf : (fun u => f (Function.update w t b u)) =
      Function.update (fun u => f (w u)) t (f b) := by
    funext u
    by_cases h : u = t
    · subst h
      simp
    · simp [h]
  rw [hf, Finset.sum_update_of_mem (Finset.mem_univ t),
    ← Finset.add_sum_erase _ _ (Finset.mem_univ t), Finset.sdiff_singleton_eq_erase,
    add_right_comm, add_comm (f b), add_right_comm, add_assoc]

end HftBot.Core
