import Mathlib.Data.List.Induction
import Mathlib.Tactic.Common

/-!
# Runs of a state machine

A machine is a step function `σ → ι → σ`. `run` folds it over a list of inputs, `Along` says that
every input meets a condition in the state that consumes it. The rules `run_inv`, `run_preserves`,
`forall_prefix_iff_along`, `along_congr` and `run_simulation` lift a fact about one step to whole
runs.
-/

namespace HftBot.Core

variable {σ τ ι : Type*}

/-- The state after a list of inputs. -/
def run (step : σ → ι → σ) (s : σ) (is : List ι) : σ :=
  is.foldl step s

section

variable (step : σ → ι → σ)

@[simp] lemma run_nil (s : σ) : run step s [] = s := rfl

@[simp] lemma run_cons (s : σ) (i : ι) (is : List ι) :
    run step s (i :: is) = run step (step s i) is := rfl

@[simp] lemma run_append (s : σ) (is js : List ι) :
    run step s (is ++ js) = run step (run step s is) js := by
  simp [run]

/-- Every input meets `A` in the state that consumes it. -/
def Along (A : σ → ι → Prop) : σ → List ι → Prop
  | _, []      => True
  | s, i :: is => A s i ∧ Along A (step s i) is

instance Along.decidable {A : σ → ι → Prop} [∀ s i, Decidable (A s i)] :
    ∀ s is, Decidable (Along step A s is)
  | _, []      => inferInstanceAs (Decidable True)
  | s, i :: is =>
    have : Decidable (Along step A (step s i) is) := Along.decidable (step s i) is
    inferInstanceAs (Decidable (A s i ∧ Along step A (step s i) is))

end

variable {step : σ → ι → σ} {A : σ → ι → Prop}

lemma along_append {s : σ} {is js : List ι} :
    Along step A s (is ++ js) ↔ Along step A s is ∧ Along step A (run step s is) js := by
  induction is generalizing s with
  | nil => simp [Along]
  | cons i is ih => simp [Along, ih, and_assoc]

/-- Along a run means: at every place where the run can be cut. -/
lemma along_iff_forall_split {s : σ} {is : List ι} :
    Along step A s is ↔ ∀ js i ks, is = js ++ i :: ks → A (run step s js) i := by
  induction is generalizing s with
  | nil => simp [Along]
  | cons i is ih =>
    rw [Along, ih]
    constructor
    · rintro ⟨hi, his⟩ js j ks heq
      cases js with
      | nil =>
        obtain ⟨rfl, rfl⟩ := List.cons.inj heq
        exact hi
      | cons j' js =>
        obtain ⟨rfl, rfl⟩ := List.cons.inj heq
        exact his js j ks rfl
    · intro h
      exact ⟨h [] i is rfl, fun js j ks heq => h (i :: js) j ks (by rw [heq]; rfl)⟩

lemma Along.mono {A' : σ → ι → Prop} (h : ∀ s i, A s i → A' s i) {s : σ} {is : List ι}
    (hs : Along step A s is) : Along step A' s is := by
  induction is generalizing s with
  | nil => trivial
  | cons i is ih => exact ⟨h _ _ hs.1, ih hs.2⟩

/-- A condition on the input alone holds along a run when it holds of every input. -/
lemma along_of_forall {p : ι → Prop} {s : σ} {is : List ι} (h : ∀ i ∈ is, p i) :
    Along step (fun _ i => p i) s is := by
  induction is generalizing s with
  | nil => trivial
  | cons i is ih =>
    exact ⟨h i List.mem_cons_self, ih fun j hj => h j (List.mem_cons_of_mem _ hj)⟩

lemma Along.and_forall {p : ι → Prop} {s : σ} {is : List ι} (hs : Along step A s is)
    (h : ∀ i ∈ is, p i) : Along step (fun s i => A s i ∧ p i) s is := by
  induction is generalizing s with
  | nil => trivial
  | cons i is ih =>
    exact ⟨⟨hs.1, h i List.mem_cons_self⟩, ih hs.2 fun j hj => h j (List.mem_cons_of_mem _ hj)⟩

/-- What each admissible step preserves, an admissible run preserves. -/
theorem run_inv {P : σ → Prop} (hstep : ∀ s i, P s → A s i → P (step s i)) {s : σ}
    (hs : P s) {is : List ι} (his : Along step A s is) : P (run step s is) := by
  induction is generalizing s with
  | nil => exact hs
  | cons i is ih => exact ih (hstep s i hs his.1) his.2

/-- What every step preserves, a run preserves. -/
theorem run_preserves {P : σ → Prop} (hstep : ∀ s i, P s → P (step s i)) {s : σ} (hs : P s)
    (is : List ι) : P (run step s is) :=
  run_inv (A := fun _ _ => True) (fun s i h _ => hstep s i h) hs
    (along_of_forall fun _ _ => trivial)

/-- A property holds in every state of a run exactly if all steps of the run are admissible, where a
step from a state of the run that has the property keeps it exactly if it is admissible. -/
theorem forall_prefix_iff_along {P : σ → Prop} {s : σ} {is : List ι} (hs : P s)
    (hstep : ∀ js i ks, is = js ++ i :: ks → P (run step s js) →
      (P (step (run step s js) i) ↔ A (run step s js) i)) :
    (∀ js, js <+: is → P (run step s js)) ↔ Along step A s is := by
  rw [along_iff_forall_split]
  constructor
  · intro h js i ks heq
    have hafter := h (js ++ [i]) ⟨ks, by rw [heq, List.append_assoc]; rfl⟩
    rw [run_append] at hafter
    exact (hstep js i ks heq (h js ⟨i :: ks, heq.symm⟩)).1 hafter
  · intro h js
    induction js using List.reverseRecOn with
    | nil => exact fun _ => hs
    | append_singleton js i ih =>
      rintro ⟨ks, hks⟩
      rw [List.append_assoc] at hks
      rw [run_append]
      exact (hstep js i ks hks.symm (ih ⟨i :: ks, hks⟩)).2 (h js i ks hks.symm)

/-- Conditions that agree on each step under an invariant agree along a run. -/
theorem along_congr {A' B : σ → ι → Prop} {P : σ → Prop}
    (hstep : ∀ s i, P s → B s i → P (step s i)) (hiff : ∀ s i, P s → B s i → (A s i ↔ A' s i))
    {s : σ} (hs : P s) {is : List ι} (his : Along step B s is) :
    Along step A s is ↔ Along step A' s is := by
  induction is generalizing s with
  | nil => exact Iff.rfl
  | cons i is ih => exact and_congr (hiff s i hs his.1) (ih (hstep s i hs his.1) his.2)

/-- Two machines on the same inputs stay related when one admissible step keeps them related. -/
theorem run_simulation {step' : τ → ι → τ} {R : σ → τ → Prop}
    (hstep : ∀ s t i, R s t → A s i → R (step s i) (step' t i)) {s : σ} {t : τ} (h : R s t)
    {is : List ι} (his : Along step A s is) : R (run step s is) (run step' t is) := by
  induction is generalizing s t with
  | nil => exact h
  | cons i is ih => exact ih (hstep s t i h his.1) his.2

end HftBot.Core
