import Mathlib.Data.List.Basic

/-!
# Bounded queues

A first-in first-out queue that refuses what does not fit. The bound is part of the type, so that
every queue that can be built keeps it.
-/

namespace HftBot.Core

structure BoundedQueue (α : Type*) (capacity : Nat) where
  items     : List α
  length_le : items.length ≤ capacity
deriving DecidableEq

namespace BoundedQueue

variable {α : Type*} {capacity : Nat}

def empty : BoundedQueue α capacity := ⟨[], Nat.zero_le _⟩

/-- Put an item at the back, or say that there is no room. -/
def tryPush (q : BoundedQueue α capacity) (a : α) : Bool × BoundedQueue α capacity :=
  if h : q.items.length < capacity then
    (true, ⟨q.items ++ [a], by rw [List.length_append]; exact h⟩)
  else (false, q)

/-- Take the item at the front, if there is one. -/
def tryPop (q : BoundedQueue α capacity) : Option α × BoundedQueue α capacity :=
  (q.items.head?, ⟨q.items.tail, by
    rw [List.length_tail]
    exact Nat.le_trans (Nat.sub_le _ _) q.length_le⟩)

@[simp] lemma items_empty : (empty : BoundedQueue α capacity).items = [] := rfl

/-- A push is accepted at the back, or refused by a full queue, which stays as it is. -/
lemma tryPush_cases (q : BoundedQueue α capacity) (a : α) :
    (∃ q', q.tryPush a = (true, q') ∧ q.items.length < capacity ∧ q'.items = q.items ++ [a]) ∨
      (q.tryPush a = (false, q) ∧ q.items.length = capacity) := by
  by_cases h : q.items.length < capacity
  · exact Or.inl ⟨⟨q.items ++ [a], _⟩, by rw [tryPush, dif_pos h], h, rfl⟩
  · exact Or.inr ⟨by rw [tryPush, dif_neg h], Nat.le_antisymm q.length_le (Nat.not_lt.1 h)⟩

/-- A pop takes the front, or finds an empty queue, which stays as it is. -/
lemma tryPop_cases (q : BoundedQueue α capacity) :
    (∃ a q', q.tryPop = (some a, q') ∧ q.items = a :: q'.items) ∨
      (q.tryPop = (none, q) ∧ q.items = []) := by
  obtain ⟨items, h⟩ := q
  cases items with
  | nil => exact Or.inr ⟨rfl, rfl⟩
  | cons a items => exact Or.inl ⟨a, ⟨items, _⟩, rfl, rfl⟩

end BoundedQueue

end HftBot.Core
