import Mathlib.Data.List.Basic
import Mathlib.Data.List.Nodup
import Mathlib.Data.List.Perm.Basic
import Mathlib.Tactic.Common

/-!
# Sweeping a vector with swap-removal

The loop `for (i = 0; i < v.size();)` visits a vector from the front. An element that is done
is overwritten by the last one and the vector is shortened (`v[i] = v.back(); v.pop_back();`),
otherwise the index moves on. Each element is visited exactly once, but the order in which the
tail is visited depends on what was removed before.

`sweep_induct` is the invariant rule of that loop. When a visit touches one component of the
state only, `sweep_get_mem` and `sweep_get_of_idem` say what the whole loop computes there,
whatever the order was.
-/

namespace HftBot.Core

variable {α β ι σ : Type*}

/-! ### Swap-removal -/

/-- `v[i] = v.back(); v.pop_back();` -/
def swapRemove (l : List α) (i : Nat) : List α :=
  match l.getLast? with
  | none   => l
  | some b => (l.set i b).dropLast

/-- Removing at the boundary between `k` and `a :: t` permutes the tail and leaves `k`. -/
lemma swapRemove_append_cons (k : List α) (a : α) (t : List α) :
    ∃ t', swapRemove (k ++ a :: t) k.length = k ++ t' ∧ t'.Perm t := by
  rcases List.eq_nil_or_concat t with rfl | ⟨t₀, b, rfl⟩
  · exact ⟨[], by simp [swapRemove], List.Perm.refl _⟩
  · refine ⟨b :: t₀, ?_, ?_⟩
    · have hlast : (k ++ a :: (t₀ ++ [b])).getLast? = some b := by
        rw [show k ++ a :: (t₀ ++ [b]) = (k ++ a :: t₀) ++ [b] by simp, List.getLast?_concat]
      simp only [List.concat_eq_append, swapRemove, hlast]
      rw [List.set_append_right _ _ (Nat.le_refl _)]
      simp only [Nat.sub_self, List.set_cons_zero]
      rw [show k ++ b :: (t₀ ++ [b]) = (k ++ b :: t₀) ++ [b] by simp, List.dropLast_concat]
    · rw [List.concat_eq_append]
      exact (List.perm_append_singleton b t₀).symm

/-! ### The loop -/

/-- The loop from index `i` on; `n` bounds the number of visits. -/
def sweepFrom (f : σ → α → σ × Bool) : Nat → Nat → List α → σ → List α × σ
  | 0,     _, l, s => (l, s)
  | n + 1, i, l, s =>
    match l[i]? with
    | none   => (l, s)
    | some a =>
      if (f s a).2 then sweepFrom f n i (swapRemove l i) (f s a).1
      else sweepFrom f n (i + 1) l (f s a).1

/-- Visit every element once; `f` returns the new state and whether the element is removed. -/
def sweep (f : σ → α → σ × Bool) (l : List α) (s : σ) : List α × σ :=
  sweepFrom f l.length 0 l s

variable {f : σ → α → σ × Bool}

private lemma sweepFrom_induct {P : List α → List α → σ → Prop}
    (hperm : ∀ k t t' s, t.Perm t' → P k t s → P k t' s)
    (hkeep : ∀ k a t s, P k (a :: t) s → (f s a).2 = false → P (k ++ [a]) t (f s a).1)
    (hdrop : ∀ k a t s, P k (a :: t) s → (f s a).2 = true → P k t (f s a).1)
    (n : Nat) (k t : List α) (s : σ) (hn : t.length ≤ n) (h : P k t s) :
    P (sweepFrom f n k.length (k ++ t) s).1 [] (sweepFrom f n k.length (k ++ t) s).2 := by
  induction n generalizing k t s with
  | zero =>
    obtain rfl : t = [] := List.length_eq_zero_iff.mp (by omega)
    simpa [sweepFrom] using h
  | succ n ih =>
    cases t with
    | nil => simpa [sweepFrom] using h
    | cons a t =>
      simp only [List.length_cons] at hn
      simp only [sweepFrom, List.getElem?_append_right (Nat.le_refl _), Nat.sub_self,
        List.getElem?_cons_zero]
      split_ifs with hd
      · obtain ⟨t', ht', hp⟩ := swapRemove_append_cons k a t
        rw [ht']
        apply ih k t'
        · rw [hp.length_eq]; omega
        · exact hperm _ _ _ _ hp.symm (hdrop k a t s h hd)
      · have hstep := ih (k ++ [a]) t (f s a).1 (by omega)
          (hkeep k a t s h (by simpa using hd))
        simpa using hstep

/-- Invariant rule: `P kept todo s` holds at every point of the loop. The elements still to be
visited may be permuted at any time. -/
theorem sweep_induct {P : List α → List α → σ → Prop}
    (hperm : ∀ k t t' s, t.Perm t' → P k t s → P k t' s)
    (hkeep : ∀ k a t s, P k (a :: t) s → (f s a).2 = false → P (k ++ [a]) t (f s a).1)
    (hdrop : ∀ k a t s, P k (a :: t) s → (f s a).2 = true → P k t (f s a).1)
    {l : List α} {s : σ} (h : P [] l s) : P (sweep f l s).1 [] (sweep f l s).2 := by
  simpa [sweep] using sweepFrom_induct hperm hkeep hdrop l.length [] l s (Nat.le_refl _) h

/-- The loop only ever removes elements. -/
lemma sweep_subset (f : σ → α → σ × Bool) (l : List α) (s : σ) :
    ∀ a ∈ (sweep f l s).1, a ∈ l := by
  have h := sweep_induct (f := f) (P := fun k t _ => ∀ a ∈ k ++ t, a ∈ l) (l := l) (s := s)
    (fun k t t' _ hp h a ha => h a ((hp.append_left k).mem_iff.mpr ha))
    (fun k a t _ h _ => by simpa using h)
    (fun k a t _ h _ b hb => h b (by simp only [List.mem_append, List.mem_cons] at hb ⊢; tauto))
    (by simp)
  simpa using h

/-- What every visit leaves alone, the loop leaves alone. -/
lemma sweep_const (get : σ → β) (h : ∀ s a, get (f s a).1 = get s) (l : List α) (s : σ) :
    get (sweep f l s).2 = get s :=
  sweep_induct (f := f) (P := fun _ _ st => get st = get s) (fun _ _ _ _ _ hst => hst)
    (fun _ a _ st hst _ => (h st a).trans hst) (fun _ a _ st hst _ => (h st a).trans hst) rfl

/-! ### Visits that touch one component -/

section Local

variable {g : α → β → β}

/-- A component that no element of the list points to is left alone. -/
theorem sweep_get_other (get : σ → ι → β) (key : α → ι)
    (hother : ∀ s a j, j ≠ key a → get (f s a).1 j = get s j)
    {l : List α} {s : σ} {j : ι} (hj : ∀ a ∈ l, key a ≠ j) :
    get (sweep f l s).2 j = get s j := by
  have h := sweep_induct (f := f)
    (P := fun _ t s' => (∀ a ∈ t, key a ≠ j) ∧ get s' j = get s j) (l := l) (s := s)
    (fun k t t' _ hp h => ⟨fun a ha => h.1 a (hp.mem_iff.mpr ha), h.2⟩) ?_ ?_ ⟨hj, rfl⟩
  · exact h.2
  all_goals
    rintro k a t s' ⟨h1, h2⟩ -
    exact ⟨fun b hb => h1 b (List.mem_cons_of_mem _ hb),
      (hother _ _ _ (Ne.symm (h1 a List.mem_cons_self))).trans h2⟩

/-- With distinct keys every component is visited once, in its original value. -/
theorem sweep_get_mem (get : σ → ι → β) (key : α → ι) (pre : α → β → Prop)
    (hself : ∀ s a, pre a (get s (key a)) → get (f s a).1 (key a) = g a (get s (key a)))
    (hother : ∀ s a j, j ≠ key a → get (f s a).1 j = get s j)
    {l : List α} (hl : (l.map key).Nodup) {s : σ} (hpre : ∀ a ∈ l, pre a (get s (key a)))
    {a : α} (ha : a ∈ l) : get (sweep f l s).2 (key a) = g a (get s (key a)) := by
  -- what is still to be visited has its original value; what is not is already final
  have h := sweep_induct (f := f)
    (P := fun _ t s' => (∀ b ∈ t, b ∈ l) ∧ (t.map key).Nodup ∧
      (∀ b ∈ t, get s' (key b) = get s (key b)) ∧
      ∀ b ∈ l, b ∉ t → get s' (key b) = g b (get s (key b)))
    (l := l) (s := s) ?_ ?_ ?_
    ⟨fun _ hb => hb, hl, fun _ _ => rfl, fun _ hb hbt => absurd hb hbt⟩
  · exact h.2.2.2 a ha (by simp)
  · rintro k t t' s' hp ⟨h1, h2, h3, h4⟩
    exact ⟨fun b hb => h1 b (hp.mem_iff.mpr hb), (hp.map key).nodup_iff.mp h2,
      fun b hb => h3 b (hp.mem_iff.mpr hb), fun b hb ht => h4 b hb (fun h => ht (hp.mem_iff.mp h))⟩
  all_goals
    rintro k c t s' ⟨h1, h2, h3, h4⟩ -
    have hc : c ∈ c :: t := List.mem_cons_self
    simp only [List.map_cons, List.nodup_cons] at h2
    refine ⟨fun b hb => h1 b (List.mem_cons_of_mem _ hb), h2.2, ?_, ?_⟩
    · intro b hb
      have hne : key b ≠ key c := fun h => h2.1 (h ▸ List.mem_map_of_mem hb)
      rw [hother _ _ _ hne, h3 b (List.mem_cons_of_mem _ hb)]
    · intro b hb hbt
      by_cases hbc : b = c
      · subst hbc
        rw [hself _ _ (by rw [h3 b hc]; exact hpre b hb), h3 b hc]
      · have hne : key b ≠ key c :=
          fun h => hbc (List.inj_on_of_nodup_map hl hb (h1 c hc) h)
        rw [hother _ _ _ hne]
        exact h4 b hb (by simp [hbc, hbt])

/-- When a second visit changes nothing, elements may stand in the list several times. -/
theorem sweep_get_of_idem {g : β → β} {f : σ → ι → σ × Bool} (get : σ → ι → β)
    (hself : ∀ s a, get (f s a).1 a = g (get s a))
    (hother : ∀ s a j, j ≠ a → get (f s a).1 j = get s j) (hidem : ∀ x, g (g x) = g x)
    {l : List ι} {s : σ} {a : ι} (ha : a ∈ l) : get (sweep f l s).2 a = g (get s a) := by
  classical
  have h := sweep_induct (f := f)
    (P := fun _ t s' => get s' a = g (get s a) ∨ (a ∈ t ∧ get s' a = get s a))
    (l := l) (s := s) (fun k t t' _ hp h => h.imp_right fun h => ⟨hp.mem_iff.mp h.1, h.2⟩)
    ?_ ?_ (.inr ⟨ha, rfl⟩)
  · simpa using h
  all_goals
    rintro k c t s' h -
    by_cases hac : a = c
    · subst hac
      left
      rcases h with h | ⟨-, h⟩
      · rw [hself, h, hidem]
      · rw [hself, h]
    · rw [hother _ _ _ hac]
      exact h.imp_right fun h => ⟨(List.mem_cons.mp h.1).resolve_left hac, h.2⟩

/-- An element whose component stays put, and which is not removed there, survives the loop. -/
theorem mem_sweep_of_kept {f : σ → ι → σ × Bool} (get : σ → ι → β) {l : List ι} {s : σ} {a : ι}
    (hself : ∀ s', get s' a = get s a → (f s' a).2 = false ∧ get (f s' a).1 a = get s a)
    (hother : ∀ s a j, j ≠ a → get (f s a).1 j = get s j) (ha : a ∈ l) :
    a ∈ (sweep f l s).1 := by
  have h := sweep_induct (f := f) (P := fun k t s' => a ∈ k ++ t ∧ get s' a = get s a)
    (l := l) (s := s) (fun k t t' _ hp h => ⟨(hp.append_left k).mem_iff.mp h.1, h.2⟩)
    ?_ ?_ ⟨by simpa using ha, rfl⟩
  · simpa using h.1
  · rintro k c t s' ⟨hmem, hval⟩ -
    refine ⟨by simpa using hmem, ?_⟩
    by_cases hac : a = c
    · exact hac ▸ (hself s' hval).2
    · rw [hother _ _ _ hac, hval]
  · rintro k c t s' ⟨hmem, hval⟩ hdone
    have hac : a ≠ c := by
      rintro rfl
      simp [(hself s' hval).1] at hdone
    refine ⟨?_, by rw [hother _ _ _ hac, hval]⟩
    simpa [hac] using hmem

end Local

end HftBot.Core
