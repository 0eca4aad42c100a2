import Mathlib.Data.List.Basic
import Mathlib.Data.List.Induction

/-!
# Lines of a growing list

A list cut at a separator: the complete pieces, each of which a separator ends, and the fragment
behind the last one. When the list grows at its end the complete pieces stay, and the fragment goes
on into the first new one.
-/

namespace HftBot.Core

variable {α : Type*} [DecidableEq α] {c : α}

/-- The pieces that a separator ends. -/
def complete (c : α) (s : List α) : List (List α) := (s.splitOn c).dropLast

/-- What follows the last separator. -/
def fragment (c : α) (s : List α) : List α := (s.splitOn c).getLast (List.splitOn_ne_nil c s)

lemma splitOn_eq_complete_append (s : List α) : s.splitOn c = complete c s ++ [fragment c s] :=
  (List.dropLast_append_getLast (List.splitOn_ne_nil c s)).symm

lemma complete_fragment_of_splitOn {s f : List α} {ps : List (List α)}
    (h : s.splitOn c = ps ++ [f]) : complete c s = ps ∧ fragment c s = f := by
  rw [splitOn_eq_complete_append] at h
  obtain ⟨hps, hf⟩ := List.append_inj' h rfl
  exact ⟨hps, List.cons.inj hf |>.1⟩

/-- The last piece goes on where the list is continued. -/
lemma splitOn_append (s t : List α) :
    (s ++ t).splitOn c = complete c s ++ (fragment c s ++ t).splitOn c := by
  induction s with
  | nil => simp [complete, fragment]
  | cons b s ih =>
    have hs := splitOn_eq_complete_append (c := c) s
    by_cases hb : b = c
    · have hcons (u : List α) : (b :: u).splitOn c = [] :: u.splitOn c := by
        simpa [hb] using List.splitOn_append_cons_self (a := c) [] u
      obtain ⟨hcomplete, hfragment⟩ : complete c (b :: s) = [] :: complete c s ∧
          fragment c (b :: s) = fragment c s :=
        complete_fragment_of_splitOn (by rw [hcons, hs, List.cons_append])
      rw [List.cons_append, hcons, ih, hcomplete, hfragment, List.cons_append]
    · have hcons (u : List α) : (b :: u).splitOn c = (u.splitOn c).modifyHead (b :: ·) := by
        rw [List.splitOn_cons_eq_if_modifyHead, if_neg (by simpa using hb)]
      cases hc : complete c s with
      | nil =>
        rw [hc, List.nil_append] at hs ih
        obtain ⟨hcomplete, hfragment⟩ : complete c (b :: s) = [] ∧
            fragment c (b :: s) = b :: fragment c s :=
          complete_fragment_of_splitOn (by rw [hcons, hs]; rfl)
        rw [List.cons_append, hcons, ih, hcomplete, hfragment, List.cons_append, hcons,
          List.nil_append]
      | cons p ps =>
        rw [hc] at hs ih
        obtain ⟨hcomplete, hfragment⟩ : complete c (b :: s) = (b :: p) :: ps ∧
            fragment c (b :: s) = fragment c s :=
          complete_fragment_of_splitOn (by rw [hcons, hs]; rfl)
        rw [List.cons_append, hcons, ih, hcomplete, hfragment]
        rfl

lemma complete_fragment_append (s t : List α) :
    complete c (s ++ t) = complete c s ++ complete c (fragment c s ++ t) ∧
      fragment c (s ++ t) = fragment c (fragment c s ++ t) := by
  refine complete_fragment_of_splitOn ?_
  rw [splitOn_append, splitOn_eq_complete_append (fragment c s ++ t), List.append_assoc]

lemma complete_append (s t : List α) :
    complete c (s ++ t) = complete c s ++ complete c (fragment c s ++ t) :=
  (complete_fragment_append s t).1

lemma fragment_append (s t : List α) : fragment c (s ++ t) = fragment c (fragment c s ++ t) :=
  (complete_fragment_append s t).2

lemma complete_fragment_of_notMem {s : List α} (h : c ∉ s) :
    complete c s = [] ∧ fragment c s = s :=
  complete_fragment_of_splitOn (List.splitOn_eq_singleton h)

/-- A list up to a separator is cut there. -/
lemma complete_fragment_append_cons {p : List α} (hp : c ∉ p) (t : List α) :
    complete c (p ++ c :: t) = p :: complete c t ∧ fragment c (p ++ c :: t) = fragment c t := by
  refine complete_fragment_of_splitOn ?_
  rw [List.splitOn_append_cons_self_of_not_mem hp, splitOn_eq_complete_append, List.cons_append]

/-- The fragment has no separator in it and makes up the list together with a part that ends in
one. -/
lemma exists_append_fragment (s : List α) : c ∉ fragment c s ∧
    ∃ t, s = t ++ fragment c s ∧ (t = [] ∨ t.getLast? = some c) := by
  induction s using List.reverseRecOn with
  | nil => exact ⟨by simp [fragment], [], by simp [fragment], Or.inl rfl⟩
  | append_singleton s b ih =>
    obtain ⟨hno, t, hs, ht⟩ := ih
    rw [fragment_append]
    by_cases hb : b = c
    · subst hb
      rw [(complete_fragment_append_cons hno []).2]
      exact ⟨by simp [fragment], s ++ [b], by simp [fragment], Or.inr (by simp)⟩
    · have hno' : c ∉ fragment c s ++ [b] := by
        rw [List.mem_append, List.mem_singleton, not_or]
        exact ⟨hno, fun heq => hb heq.symm⟩
      rw [(complete_fragment_of_notMem hno').2]
      exact ⟨hno', t, by rw [← List.append_assoc, ← hs], ht⟩

lemma notMem_fragment (s : List α) : c ∉ fragment c s := (exists_append_fragment s).1

end HftBot.Core
