import Mathlib.Data.List.Basic
import Mathlib.Data.List.Induction

/-!
# The last best element

Among the elements of a list with a property, the last one of largest weight.
-/

namespace HftBot.Core

variable {α β : Type*} {p : α → Prop} {w : α → Nat} {l : List α} {x : α}

/-- No element with the property weighs more, and none behind it as much. -/
def LastBest (p : α → Prop) (w : α → Nat) (l : List α) (x : α) : Prop :=
  ∃ before after, l = before ++ x :: after ∧ p x ∧
    (∀ y ∈ before, p y → w y ≤ w x) ∧ ∀ y ∈ after, p y → w y < w x

/-- The elements are taken one by one, each in place of the best so far if it is as good. -/
def lastBest (p : α → Prop) [DecidablePred p] (w : α → Nat) (l : List α) : Option α :=
  l.foldl (fun best y => if best.elim 0 w ≤ w y ∧ p y then some y else best) none

lemma LastBest.mem (h : LastBest p w l x) : x ∈ l ∧ p x := by
  obtain ⟨before, after, rfl, hx, -⟩ := h
  exact ⟨by simp, hx⟩

/-- A further element without the property, or of less weight, changes nothing. -/
lemma LastBest.append_of_lt (h : LastBest p w l x) {y : α} (hy : p y → w y < w x) :
    LastBest p w (l ++ [y]) x := by
  obtain ⟨before, after, rfl, hx, hbefore, hafter⟩ := h
  refine ⟨before, after ++ [y], by simp, hx, hbefore, ?_⟩
  rw [List.forall_mem_append, List.forall_mem_singleton]
  exact ⟨hafter, hy⟩

lemma LastBest.le (h : LastBest p w l x) {y : α} (hy : y ∈ l) (hp : p y) : w y ≤ w x := by
  obtain ⟨before, after, rfl, -, hbefore, hafter⟩ := h
  rcases List.mem_append.1 hy with hy | hy
  · exact hbefore y hy hp
  rcases List.mem_cons.1 hy with rfl | hy
  · exact Nat.le_refl _
  · exact Nat.le_of_lt (hafter y hy hp)

lemma lastBest_cases (p : α → Prop) [DecidablePred p] (w : α → Nat) (l : List α) :
    (∃ x, lastBest p w l = some x ∧ LastBest p w l x) ∨
      lastBest p w l = none ∧ ∀ y ∈ l, ¬ p y := by
  induction l using List.reverseRecOn with
  | nil => exact Or.inr ⟨rfl, nofun⟩
  | append_singleton l y ih =>
    rw [lastBest, List.foldl_append, ← lastBest, List.foldl_cons, List.foldl_nil]
    obtain ⟨x, hx, hbest⟩ | ⟨hnone, hno⟩ := ih
    · rw [hx, Option.elim_some]
      split_ifs with hy
      · refine Or.inl ⟨y, rfl, l, [], rfl, hy.2, fun z hz hp => ?_, nofun⟩
        exact Nat.le_trans (hbest.le hz hp) hy.1
      · refine Or.inl ⟨x, rfl, hbest.append_of_lt fun hp => ?_⟩
        exact Nat.lt_of_not_le fun hle => hy ⟨hle, hp⟩
    · rw [hnone, Option.elim_none]
      split_ifs with hy
      · exact Or.inl ⟨y, rfl, l, [], rfl, hy.2, fun z hz hp => absurd hp (hno z hz), nofun⟩
      · refine Or.inr ⟨rfl, ?_⟩
        rw [List.forall_mem_append, List.forall_mem_singleton]
        exact ⟨hno, fun hp => hy ⟨Nat.zero_le _, hp⟩⟩

lemma LastBest.unique {x' : α} (h : LastBest p w l x) (h' : LastBest p w l x') : x = x' := by
  obtain ⟨before, after, rfl, hx, hbefore, hafter⟩ := h
  obtain ⟨before', after', heq, hx', hbefore', hafter'⟩ := h'
  rcases List.append_eq_append_iff.1 heq with ⟨c, rfl, hc⟩ | ⟨c, rfl, hc⟩
  · cases c with
    | nil => exact (List.cons.inj hc).1
    | cons z c =>
      obtain ⟨rfl, rfl⟩ := List.cons.inj hc
      exact absurd (hbefore' x (by simp) hx) (Nat.not_le.2 (hafter x' (by simp) hx'))
  · cases c with
    | nil => exact (List.cons.inj hc).1.symm
    | cons z c =>
      obtain ⟨rfl, rfl⟩ := List.cons.inj hc
      exact absurd (hbefore x' (by simp) hx') (Nat.not_le.2 (hafter' x (by simp) hx))

lemma lastBest_eq_some_iff [DecidablePred p] : lastBest p w l = some x ↔ LastBest p w l x := by
  obtain ⟨y, hy, hbest⟩ | ⟨hnone, hno⟩ := lastBest_cases p w l
  · rw [hy, Option.some.injEq]
    exact ⟨fun h => h ▸ hbest, hbest.unique⟩
  · rw [hnone]
    exact ⟨nofun, fun h => absurd h.mem.2 (hno x h.mem.1)⟩

/-- The best of the images is the image of the best element that has one. -/
lemma lastBest_filterMap_iff {f : α → Option β} {q : β → Prop} {v : β → Nat}
    (hf : ∀ a b, f a = some b → (q b ↔ p a) ∧ v b = w a) {y : β} :
    LastBest q v (l.filterMap f) y ↔
      ∃ x, f x = some y ∧ LastBest (fun a => p a ∧ (f a).isSome) w l x := by
  constructor
  · rintro ⟨before, after, heq, hy, hbefore, hafter⟩
    obtain ⟨l₁, l₂, rfl, rfl, hl₂⟩ := List.filterMap_eq_append_iff.1 heq
    obtain ⟨l₃, x, l₄, rfl, hl₃, hx, rfl⟩ := List.filterMap_eq_cons_iff.1 hl₂
    have hw := (hf x y hx).2
    refine ⟨x, hx, l₁ ++ l₃, l₄, by simp, ⟨(hf x y hx).1.1 hy, by rw [hx]; rfl⟩, ?_, ?_⟩
    · intro a ha hp
      obtain ⟨b, hb⟩ := Option.isSome_iff_exists.1 hp.2
      rcases List.mem_append.1 ha with ha | ha
      · rw [← (hf a b hb).2, ← hw]
        exact hbefore b (List.mem_filterMap.2 ⟨a, ha, hb⟩) ((hf a b hb).1.2 hp.1)
      · exact absurd hb (by rw [hl₃ a ha]; nofun)
    · intro a ha hp
      obtain ⟨b, hb⟩ := Option.isSome_iff_exists.1 hp.2
      rw [← (hf a b hb).2, ← hw]
      exact hafter b (List.mem_filterMap.2 ⟨a, ha, hb⟩) ((hf a b hb).1.2 hp.1)
  · rintro ⟨x, hx, before, after, rfl, hp, hbefore, hafter⟩
    have hw := (hf x y hx).2
    refine ⟨before.filterMap f, after.filterMap f, ?_, (hf x y hx).1.2 hp.1, ?_, ?_⟩
    · rw [List.filterMap_append, List.filterMap_cons_some hx]
    · intro b hb hq
      obtain ⟨a, ha, hab⟩ := List.mem_filterMap.1 hb
      rw [(hf a b hab).2, hw]
      exact hbefore a ha ⟨(hf a b hab).1.1 hq, by rw [hab]; rfl⟩
    · intro b hb hq
      obtain ⟨a, ha, hab⟩ := List.mem_filterMap.1 hb
      rw [(hf a b hab).2, hw]
      exact hafter a ha ⟨(hf a b hab).1.1 hq, by rw [hab]; rfl⟩

end HftBot.Core
