import Mathlib.Data.List.Basic

/-!
# Bounded retries

A caller makes numbered attempts within a budget. An attempt that cannot be made ends the call; one
that is made has an outcome, and the outcome decides whether there is another attempt.
-/

namespace HftBot.Core.Retry

variable {α : Type*}

/-- The outcomes met from attempt `k` on with `n` attempts left; `outcome k` is `none` when attempt
`k` cannot be made. -/
def outcomes (again : α → Bool) (outcome : Nat → Option α) : Nat → Nat → List α
  | 0, _     => []
  | n + 1, k =>
    match outcome k with
    | none   => []
    | some r => r :: if again r then outcomes again outcome n (k + 1) else []

/-- Nothing follows an outcome of the kind `bad`. -/
def EndsAt (bad : α → Prop) (l : List α) : Prop :=
  ∀ before r after, l = before ++ r :: after → bad r → after = []

variable {bad : α → Prop} {again : α → Bool} {outcome : Nat → Option α}

lemma endsAt_nil : EndsAt bad ([] : List α) := by
  intro before r after h
  simp at h

lemma endsAt_cons {r : α} {l : List α} :
    EndsAt bad (r :: l) ↔ (bad r → l = []) ∧ EndsAt bad l := by
  constructor
  · intro h
    refine ⟨h [] r l rfl, fun before s after hl => h (r :: before) s after (by rw [hl]; rfl)⟩
  · rintro ⟨hr, hl⟩ before s after h
    cases before with
    | nil =>
      cases h
      exact hr
    | cons t before =>
      cases h
      exact hl before s after rfl

lemma outcomes_eq_nil_iff {n k : Nat} :
    outcomes again outcome n k = [] ↔ n = 0 ∨ outcome k = none := by
  cases n with
  | zero => simp [outcomes]
  | succ n => cases h : outcome k <;> simp [outcomes, h]

/-- With `n` attempts left from attempt `k` on, attempt `k + j` is made and has that outcome. -/
def Makes (again : α → Bool) (outcome : Nat → Option α) (n k j : Nat) (r : α) : Prop :=
  j < n ∧ (∀ i < j, ∃ s, outcome (k + i) = some s ∧ again s) ∧ outcome (k + j) = some r

lemma makes_zero {n k : Nat} {r : α} :
    Makes again outcome n k 0 r ↔ 0 < n ∧ outcome k = some r := by
  simp [Makes]

/-- After an outcome that asks for it the attempts go on with the next one. -/
lemma makes_succ {n k j : Nat} {r : α} :
    Makes again outcome (n + 1) k (j + 1) r ↔
      (∃ s, outcome k = some s ∧ again s) ∧ Makes again outcome n (k + 1) j r := by
  have hshift (i : Nat) : k + 1 + i = k + (i + 1) := by omega
  simp only [Makes, Nat.forall_lt_succ_left, Nat.add_lt_add_iff_right, hshift, Nat.add_zero]
  tauto

/-- The next attempt is made if the outcome of this one asks for it. -/
lemma Makes.next_iff {n k j : Nat} {r s : α} (h : Makes again outcome n k j r) :
    Makes again outcome n k (j + 1) s ↔ j + 1 < n ∧ again r ∧ outcome (k + j + 1) = some s := by
  obtain ⟨-, hbefore, hr⟩ := h
  rw [Makes, Nat.forall_lt_succ_right, and_iff_right hbefore, hr]
  simp [Nat.add_assoc]

/-- The outcomes are those of the attempts that are made. -/
lemma getElem?_outcomes_eq_some_iff {n k j : Nat} {r : α} :
    (outcomes again outcome n k)[j]? = some r ↔ Makes again outcome n k j r := by
  induction n generalizing k j with
  | zero => simp [outcomes, Makes]
  | succ n ih =>
    cases h : outcome k with
    | none =>
      cases j with
      | zero => simp [outcomes, h, makes_zero]
      | succ j => simp [outcomes, h, makes_succ]
    | some s =>
      cases j with
      | zero => simp [outcomes, h, makes_zero]
      | succ j =>
        rw [makes_succ, h]
        cases hs : again s with
        | false => simp [outcomes, h, hs]
        | true => simp [outcomes, h, hs, ih]

/-- To look at a part of the outcomes only changes nothing if that part decides on going on. -/
lemma map_outcomes {β : Type*} (f : α → β) (again : β → Bool) (outcome : Nat → Option α)
    (n k : Nat) :
    (outcomes (again ∘ f) outcome n k).map f = outcomes again (fun i => (outcome i).map f) n k := by
  induction n generalizing k with
  | zero => rfl
  | succ n ih =>
    cases h : outcome k with
    | none => simp [outcomes, h]
    | some r =>
      cases hr : again (f r) with
      | false => simp [outcomes, h, hr]
      | true => simp [outcomes, h, hr, ih]

/-! ### Bad outcomes -/

/-- With `n` attempts left from attempt `k` on, attempt `k + j` has an outcome that should have
ended the call, and attempt `k + j + 1` is made nevertheless. -/
def Overruns (bad : α → Prop) (again : α → Bool) (outcome : Nat → Option α) (n k : Nat) : Prop :=
  ∃ j, j + 1 < n ∧ (∀ i < j, ∃ r, outcome (k + i) = some r ∧ again r ∧ ¬ bad r) ∧
    (∃ r, outcome (k + j) = some r ∧ again r ∧ bad r) ∧ outcome (k + j + 1) ≠ none

lemma not_overruns_of_none {n k : Nat} (h : outcome k = none) :
    ¬ Overruns bad again outcome n k := by
  rintro ⟨j, -, hbefore, ⟨r, hr, -⟩, -⟩
  cases j with
  | zero => simp [h] at hr
  | succ j =>
    obtain ⟨s, hs, -⟩ := hbefore 0 j.succ_pos
    simp [h] at hs

lemma not_overruns_of_stop {n k : Nat} {r : α} (h : outcome k = some r) (hr : again r = false) :
    ¬ Overruns bad again outcome n k := by
  rintro ⟨j, -, hbefore, ⟨s, hs, has, -⟩, -⟩
  cases j with
  | zero => simp_all
  | succ j =>
    obtain ⟨t, ht, hat, -⟩ := hbefore 0 j.succ_pos
    simp_all

lemma overruns_of_bad {n k : Nat} {r : α} (h : outcome k = some r) (hr : again r) (hb : bad r) :
    Overruns bad again outcome (n + 1) k ↔ 0 < n ∧ outcome (k + 1) ≠ none := by
  constructor
  · rintro ⟨j, hj, hbefore, -, hnext⟩
    cases j with
    | zero => exact ⟨Nat.lt_of_succ_lt_succ hj, hnext⟩
    | succ j =>
      obtain ⟨s, hs, -, hnb⟩ := hbefore 0 j.succ_pos
      obtain rfl : r = s := by simpa [h] using hs
      exact absurd hb hnb
  · rintro ⟨hn, hnext⟩
    refine ⟨0, Nat.succ_lt_succ hn, by simp, ⟨r, h, hr, hb⟩, hnext⟩

lemma overruns_succ {n k : Nat} {r : α} (h : outcome k = some r) (hr : again r) (hb : ¬ bad r) :
    Overruns bad again outcome (n + 1) k ↔ Overruns bad again outcome n (k + 1) := by
  constructor
  · rintro ⟨j, hj, hbefore, ⟨s, hs, has, hbs⟩, hnext⟩
    cases j with
    | zero =>
      obtain rfl : r = s := by simpa [h] using hs
      exact absurd hbs hb
    | succ j =>
      have hk : k + (j + 1) = k + 1 + j := by omega
      rw [hk] at hs hnext
      refine ⟨j, Nat.lt_of_succ_lt_succ hj, fun i hi => ?_, ⟨s, hs, has, hbs⟩, hnext⟩
      have := hbefore (i + 1) (Nat.succ_lt_succ hi)
      rwa [show k + (i + 1) = k + 1 + i by omega] at this
  · rintro ⟨j, hj, hbefore, hbad, hnext⟩
    have hk : k + 1 + j = k + (j + 1) := by omega
    rw [hk] at hbad hnext
    refine ⟨j + 1, Nat.succ_lt_succ hj, fun i hi => ?_, hbad, hnext⟩
    cases i with
    | zero => exact ⟨r, h, hr, hb⟩
    | succ i =>
      have := hbefore i (Nat.lt_of_succ_lt_succ hi)
      rwa [show k + 1 + i = k + (i + 1) by omega] at this

/-- Nothing follows a bad outcome exactly when no attempt overruns one. -/
theorem endsAt_outcomes_iff (n k : Nat) :
    EndsAt bad (outcomes again outcome n k) ↔ ¬ Overruns bad again outcome n k := by
  induction n generalizing k with
  | zero => exact ⟨fun _ ⟨j, hj, _⟩ => absurd hj (Nat.not_lt_zero _), fun _ => endsAt_nil⟩
  | succ n ih =>
    cases h : outcome k with
    | none => simpa [outcomes, h, endsAt_nil] using not_overruns_of_none h
    | some r =>
      cases hr : again r with
      | false =>
        simpa [outcomes, h, hr, endsAt_cons, endsAt_nil] using not_overruns_of_stop h hr
      | true =>
        simp only [outcomes, h, hr, endsAt_cons, ↓reduceIte]
        by_cases hb : bad r
        · rw [overruns_of_bad h hr hb, outcomes_eq_nil_iff]
          constructor
          · rintro ⟨hnil, -⟩ ⟨hn, hnext⟩
            exact (hnil hb).elim (Nat.ne_of_gt hn) hnext
          · intro hno
            have hnil : n = 0 ∨ outcome (k + 1) = none := by
              by_contra hne
              rw [not_or] at hne
              exact hno ⟨Nat.pos_of_ne_zero hne.1, hne.2⟩
            refine ⟨fun _ => hnil, ?_⟩
            rw [outcomes_eq_nil_iff.2 hnil]
            exact endsAt_nil
        · rw [overruns_succ h hr hb, ← ih]
          exact and_iff_right fun hbr => absurd hbr hb

end HftBot.Core.Retry
