import Mathlib.Data.List.Infix
import Mathlib.Data.List.TakeWhile

/-!
# Words in lists

The first place where a word stands in a list, and the number of all of them. A word that has not an
element stands on one side of it, so that a list can be searched piece by piece.
-/

namespace HftBot.Core

variable {α : Type*} [DecidableEq α] {a : α} {k s t : List α}

/-- The first place where the word stands. -/
def find (k : List α) : List α → Option Nat
  | []     => if k = [] then some 0 else none
  | x :: s => if k <+: x :: s then some 0 else (find k s).map (· + 1)

/-- The first place from the given one on. -/
def findFrom (k s : List α) (pos : Nat) : Option Nat := (find k (s.drop pos)).map (pos + ·)

/-- The number of places where the word stands. -/
def occurrences (k : List α) : List α → Nat
  | []     => 0
  | x :: s => (if k <+: x :: s then 1 else 0) + occurrences k s

omit [DecidableEq α] in
lemma prefix_append_cons_iff (hk : a ∉ k) (s t : List α) : k <+: s ++ a :: t ↔ k <+: s := by
  refine ⟨fun h => ?_, fun h => h.trans (List.prefix_append _ _)⟩
  have hs : s ++ [a] <+: s ++ a :: t := ⟨t, List.append_assoc _ _ _⟩
  have hmem {u : List α} (hu : s ++ [a] <+: u) : a ∈ u :=
    hu.subset (List.mem_append_right s List.mem_cons_self)
  rcases List.prefix_or_prefix_of_prefix h hs with hshort | hlong
  · rcases List.prefix_concat_iff.1 hshort with rfl | hk'
    · exact absurd (hmem List.prefix_rfl) hk
    · exact hk'
  · exact absurd (hmem hlong) hk

omit [DecidableEq α] in
lemma not_prefix_cons (hne : k ≠ []) (hk : a ∉ k) (t : List α) : ¬ k <+: a :: t := by
  rw [← List.nil_append (a :: t), prefix_append_cons_iff hk, List.prefix_nil]
  exact hne

lemma find_append_cons (hne : k ≠ []) (hk : a ∉ k) (s t : List α) :
    find k (s ++ a :: t) = (find k s).or ((find k t).map (s.length + 1 + ·)) := by
  induction s with
  | nil =>
    rw [List.nil_append]
    simp only [find, if_neg hne, if_neg (not_prefix_cons hne hk t), Option.none_or,
      List.length_nil, Nat.zero_add, Nat.add_comm 1]
  | cons x s ih =>
    have hx := prefix_append_cons_iff hk (x :: s) t
    rw [List.cons_append] at hx ⊢
    simp only [find, hx, ih]
    split_ifs
    · rfl
    · cases find k s with
      | some n => rfl
      | none =>
        simp only [Option.none_or, Option.map_none, Option.map_map, List.length_cons]
        congr 1
        funext n
        simp only [Function.comp_apply]
        omega

lemma occurrences_append_cons (hne : k ≠ []) (hk : a ∉ k) (s t : List α) :
    occurrences k (s ++ a :: t) = occurrences k s + occurrences k t := by
  induction s with
  | nil =>
    rw [List.nil_append]
    simp only [occurrences, if_neg (not_prefix_cons hne hk t)]
  | cons x s ih =>
    have hx := prefix_append_cons_iff hk (x :: s) t
    rw [List.cons_append] at hx ⊢
    simp only [occurrences, hx, ih, Nat.add_assoc]

lemma occurrences_le_length (k s : List α) : occurrences k s ≤ s.length := by
  induction s with
  | nil => rfl
  | cons x s ih =>
    rw [occurrences, List.length_cons]
    split_ifs <;> omega

lemma find_eq_zero (h : k <+: s) : find k s = some 0 := by
  cases s with
  | nil => rw [find, if_pos (List.prefix_nil.1 h)]
  | cons x s => rw [find, if_pos h]

lemma findFrom_append (k u v : List α) :
    findFrom k (u ++ v) u.length = (find k v).map (u.length + ·) := by
  rw [findFrom, List.drop_left]

lemma find_singleton (hs : a ∉ s) (t : List α) : find [a] (s ++ a :: t) = some s.length := by
  induction s with
  | nil => simp [find]
  | cons x s ih =>
    rw [List.mem_cons, not_or] at hs
    have hx : ¬ [a] <+: x :: (s ++ a :: t) := fun h => hs.1 (List.cons_prefix_cons.1 h).1
    rw [List.cons_append, find, if_neg hx, ih hs.2, Option.map_some, List.length_cons]

/-- The word stands where it is found, once more than behind that place. -/
lemma find_eq_some {p : Nat} (hne : k ≠ []) (h : find k s = some p) : ∃ u x v, s = u ++ x :: v ∧
    u.length = p ∧ k <+: x :: v ∧ occurrences k v < occurrences k s := by
  induction s generalizing p with
  | nil => simp [find, hne] at h
  | cons x s ih =>
    rw [find] at h
    split_ifs at h with hx
    · obtain rfl := Option.some.inj h
      refine ⟨[], x, s, rfl, rfl, hx, ?_⟩
      rw [occurrences, if_pos hx]
      omega
    · obtain ⟨q, hq, rfl⟩ := Option.map_eq_some_iff.1 h
      obtain ⟨u, y, v, rfl, rfl, hy, hfewer⟩ := ih hq
      exact ⟨x :: u, y, v, rfl, rfl, hy, hfewer.trans_le (Nat.le_add_left _ _)⟩

lemma find_eq_none_iff (hne : k ≠ []) : find k s = none ↔ ¬ k <:+: s := by
  induction s with
  | nil => simp [find, hne]
  | cons x s ih =>
    rw [find, List.infix_cons_iff, not_or]
    split_ifs with hx
    · simp [hx]
    · rw [Option.map_eq_none_iff, ih]
      simp [hx]

lemma find_singleton_eq_none (hs : a ∉ s) : find [a] s = none := by
  rw [find_eq_none_iff (List.cons_ne_nil a []), List.singleton_infix_iff]
  exact hs

lemma occurrences_eq_zero_iff (hne : k ≠ []) : occurrences k s = 0 ↔ ¬ k <:+: s := by
  induction s with
  | nil => simp [occurrences, hne]
  | cons x s ih =>
    rw [occurrences, List.infix_cons_iff, not_or, Nat.add_eq_zero_iff, ih]
    simp

end HftBot.Core
