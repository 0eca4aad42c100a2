import Mathlib.Data.List.Perm.Subperm

/-!
# Interleavings

Several lists are taken off one element after another, each from its front, in any order between
them. One list behind the other is one of these orders.
-/

namespace HftBot.Core

variable {α : Type*}

/-- The elements of the lists, those of one list in order. -/
inductive Interleaves : List (List α) → List α → Prop
  | done {ls : List (List α)} (h : ∀ l ∈ ls, l = []) : Interleaves ls []
  | next {before after : List (List α)} {l as : List α} {a : α}
      (h : Interleaves (before ++ l :: after) as) :
      Interleaves (before ++ (a :: l) :: after) (a :: as)

namespace Interleaves

variable {ls : List (List α)} {as : List α}

/-- Nothing is lost and nothing is taken twice. -/
lemma perm (h : Interleaves ls as) : as.Perm ls.flatten := by
  induction h with
  | done h => rw [List.flatten_eq_nil_iff.2 h]
  | @next before after l as a _ ih =>
    rw [List.flatten_append, List.flatten_cons, List.cons_append] at *
    exact (ih.cons a).trans List.perm_middle.symm

lemma cons_nil (h : Interleaves ls as) : Interleaves ([] :: ls) as := by
  induction h with
  | done h => exact .done (List.forall_mem_cons.2 ⟨rfl, h⟩)
  | @next before after l as a _ ih => exact @next _ ([] :: before) after l as a ih

lemma flatten (ls : List (List α)) : Interleaves ls ls.flatten := by
  induction ls with
  | nil => exact .done (List.forall_mem_nil _)
  | cons l ls ih =>
    induction l with
    | nil => exact ih.cons_nil
    | cons a l ih => exact @next _ [] ls l _ a ih

end Interleaves

/-- Some of what is kept of the elements is kept of some of them. -/
lemma subperm_filterMap {β : Type*} (f : α → Option β) {l l' : List α} (h : l.Subperm l') :
    (l.filterMap f).Subperm (l'.filterMap f) := by
  obtain ⟨m, hperm, hsub⟩ := h
  exact ⟨m.filterMap f, hperm.filterMap f, hsub.filterMap f⟩

end HftBot.Core
