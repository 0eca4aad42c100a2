import Mathlib.Data.List.Infix

/-!
# Lists cut at a pair

The first place in a list where one element is followed by another, such as the end of a line.
-/

namespace HftBot.Core

variable {α : Type*} [DecidableEq α] {a b : α}

/-- The list before the first `a` that is followed by `b`, and the list behind the two. -/
def cutPair (a b : α) : List α → Option (List α × List α)
  | []          => none
  | [_]         => none
  | x :: y :: l =>
    if x = a ∧ y = b then some ([], l)
    else (cutPair a b (y :: l)).map fun r => (x :: r.1, r.2)

omit [DecidableEq α] in
lemma not_pair_infix_of_cons {x : α} {t : List α} (h : ¬ [a, b] <:+: x :: t) : ¬ [a, b] <:+: t :=
  fun h' => h (h'.trans (List.suffix_cons x t).isInfix)

/-- The first pair is found behind a list without one. -/
lemma cutPair_append (hab : a ≠ b) {t : List α} (ht : ¬ [a, b] <:+: t) (u : List α) :
    cutPair a b (t ++ a :: b :: u) = some (t, u) := by
  induction t with
  | nil => simp [cutPair]
  | cons x t ih =>
    have htail := ih (not_pair_infix_of_cons ht)
    cases t with
    | nil =>
      have hno : ¬ (x = a ∧ a = b) := fun h => hab h.2
      rw [List.nil_append] at htail
      rw [List.singleton_append, cutPair, if_neg hno, htail, Option.map_some]
    | cons y t =>
      have hno : ¬ (x = a ∧ y = b) := by
        rintro ⟨rfl, rfl⟩
        exact ht ⟨[], t, rfl⟩
      rw [List.cons_append] at htail
      rw [List.cons_append, List.cons_append, cutPair, if_neg hno, htail, Option.map_some]

lemma eq_of_cutPair {s t u : List α} (h : cutPair a b s = some (t, u)) :
    s = t ++ a :: b :: u ∧ ¬ [a, b] <:+: t := by
  induction s using cutPair.induct a b generalizing t with
  | case1 => cases h
  | case2 => cases h
  | case3 x y l hpair =>
    rw [cutPair, if_pos hpair] at h
    obtain ⟨rfl, rfl⟩ := Prod.mk.inj (Option.some.inj h)
    obtain ⟨rfl, rfl⟩ := hpair
    exact ⟨rfl, by simp⟩
  | case4 x y l hpair ih =>
    rw [cutPair, if_neg hpair] at h
    obtain ⟨⟨t', u'⟩, hcut, heq⟩ := Option.map_eq_some_iff.1 h
    obtain ⟨rfl, rfl⟩ := Prod.mk.inj heq
    obtain ⟨hsplit, hno⟩ := ih hcut
    refine ⟨by rw [hsplit]; rfl, ?_⟩
    rw [List.infix_cons_iff]
    rintro (hhead | hinfix)
    · -- the pair would be `x` and what follows it, which is `y`
      cases t' with
      | nil => exact absurd hhead.length_le (by simp)
      | cons z t' =>
        rw [List.cons_append, List.cons.injEq] at hsplit
        rw [List.cons_prefix_cons, List.cons_prefix_cons] at hhead
        exact hpair ⟨hhead.1.symm, hsplit.1.trans hhead.2.1.symm⟩
    · exact hno hinfix

/-- A pair that has been found stays the first one when the list grows. -/
lemma cutPair_append_right {s t u : List α} (h : cutPair a b s = some (t, u)) (v : List α) :
    cutPair a b (s ++ v) = some (t, u ++ v) := by
  induction s using cutPair.induct a b generalizing t with
  | case1 => cases h
  | case2 => cases h
  | case3 x y l hpair =>
    rw [cutPair, if_pos hpair] at h
    obtain ⟨rfl, rfl⟩ := Prod.mk.inj (Option.some.inj h)
    rw [List.cons_append, List.cons_append, cutPair, if_pos hpair]
  | case4 x y l hpair ih =>
    rw [cutPair, if_neg hpair] at h
    obtain ⟨⟨t', u'⟩, hcut, heq⟩ := Option.map_eq_some_iff.1 h
    obtain ⟨rfl, rfl⟩ := Prod.mk.inj heq
    have hgrown := ih hcut
    rw [List.cons_append] at hgrown
    rw [List.cons_append, List.cons_append, cutPair, if_neg hpair, hgrown, Option.map_some]

end HftBot.Core
