import Mathlib.Data.Set.Insert
import Mathlib.Logic.Function.Basic
import Mathlib.Logic.Relation

/-!
# Wakeups

Threads `τ` sleep until a condition on the shared state holds; other threads `π` change that state
and are then bound to wake all sleepers. No sleeper is stranded as long as every change that can
make a condition true is made by a thread that is bound afterwards, and a thread falls asleep only
when its condition is false.
-/

namespace HftBot.Core

@[ext]
structure Wakeups (τ π σ : Type*) where
  shared : σ
  asleep : τ → Option (Set σ)
  bound  : Set π

namespace Wakeups

variable {τ π σ : Type*} {w w' : Wakeups τ π σ}

/-- The condition of a sleeper holds only while somebody is bound to wake it. -/
def NoneStranded (w : Wakeups τ π σ) : Prop :=
  ∀ t P, w.asleep t = some P → w.shared ∈ P → w.bound.Nonempty

variable [DecidableEq τ]

inductive Move (w : Wakeups τ π σ) : Wakeups τ π σ → Prop
  | sleep (t : τ) {P : Set σ} (hP : w.shared ∉ P) :
      Move w { w with asleep := Function.update w.asleep t (some P) }
  | wake (t : τ) : Move w { w with asleep := Function.update w.asleep t none }
  -- a change that may make a condition true
  | change (p : π) (s : σ) : Move w { w with shared := s, bound := insert p w.bound }
  -- a change that makes no condition true that was false
  | quiet {s : σ} (hs : ∀ t P, w.asleep t = some P → s ∈ P → w.shared ∈ P) :
      Move w { w with shared := s }
  | notify (p : π) : Move w { w with asleep := fun _ => none, bound := w.bound \ {p} }

lemma Move.noneStranded (hmove : Move w w') (h : w.NoneStranded) : w'.NoneStranded := by
  cases hmove with
  | sleep t hP =>
    intro t' P' ht' hP'
    simp only at ht' hP' ⊢
    by_cases heq : t' = t
    · subst heq
      rw [Function.update_self, Option.some.injEq] at ht'
      subst ht'
      exact absurd hP' hP
    · rw [Function.update_of_ne heq] at ht'
      exact h t' P' ht' hP'
  | wake t =>
    intro t' P' ht' hP'
    simp only at ht' hP' ⊢
    by_cases heq : t' = t
    · subst heq
      rw [Function.update_self] at ht'
      cases ht'
    · rw [Function.update_of_ne heq] at ht'
      exact h t' P' ht' hP'
  | change p s => exact fun _ _ _ _ => ⟨p, Set.mem_insert p w.bound⟩
  | quiet hs => exact fun t P ht hP => h t P ht (hs t P ht hP)
  | notify p => exact fun t P ht => absurd ht (by simp)

/-- Any number of moves. -/
def Moves : Wakeups τ π σ → Wakeups τ π σ → Prop := Relation.ReflTransGen Move

lemma Moves.refl (w : Wakeups τ π σ) : Moves w w := Relation.ReflTransGen.refl

lemma Move.moves (h : Move w w') : Moves w w' := Relation.ReflTransGen.single h

lemma Moves.move {w'' : Wakeups τ π σ} (h : Moves w w') (h' : Move w' w'') : Moves w w'' :=
  Relation.ReflTransGen.tail h h'

theorem Moves.noneStranded (h : Moves w w') (hw : w.NoneStranded) : w'.NoneStranded := by
  induction h with
  | refl => exact hw
  | tail _ hmove ih => exact hmove.noneStranded ih

end Wakeups

end HftBot.Core
