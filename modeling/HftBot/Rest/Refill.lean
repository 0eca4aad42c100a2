import HftBot.Rest.BucketOps

/-!
# Refills

A refill is exact: nothing of the elapsed time is lost, however often the bucket is asked, as long
as the bucket is not above its capacity. No operation but `configure` changes the rate, and that one
does not refill first, so the time since the last refill is credited at the new rate.
-/

namespace HftBot

open HftBot.Core

namespace TokenBucketI64

variable {b : TokenBucketI64}

/-! ### Exactness -/

structure ExactRefill (b : TokenBucketI64) : Prop where
  content_eq : ∀ now, (b.refill now).content =
    min (b.cap * kAcc) (b.content + b.rate * max 0 (now - b.lastNs))
  in_range   : ∀ now, 0 ≤ (b.refill now).acc ∧ (b.refill now).acc < kAcc ∧
    (b.refill now).tokens ≤ (b.refill now).cap
  pooled     : ∀ (ts : List Int) (t : Int), (ts ++ [t]).Pairwise (· ≤ ·) →
    run refill b (ts ++ [t]) = b.refill t

/-- Content and carry determine the tokens. -/
lemma eq_of_content {b' : TokenBucketI64} (h : b.Carried) (h' : b'.Carried)
    (hrate : b.rate = b'.rate) (hcap : b.cap = b'.cap) (hnanos : b.nanos = b'.nanos) : b = b' := by
  obtain ⟨rate, cap, tokens, acc, lastNs⟩ := b
  obtain ⟨rate', cap', tokens', acc', lastNs'⟩ := b'
  obtain ⟨hnonneg, hlt⟩ := h
  obtain ⟨hnonneg', hlt'⟩ := h'
  simp only [nanos, Bucket.mk.injEq, kAcc] at *
  simp only [mk.injEq]
  omega

lemma refill_refill (h : b.WellFormed) {t t' : Int} (hle : t ≤ t') :
    (b.refill t).refill t' = b.refill t' := by
  obtain ⟨hwf, heq⟩ := nanos_refill h t
  obtain ⟨hwf', heq'⟩ := nanos_refill h t'
  obtain ⟨hwf'', heq''⟩ := nanos_refill hwf t'
  refine eq_of_content hwf''.carried hwf'.carried (by simp) (by simp) ?_
  rw [heq'', heq', heq, refill_rate, refill_cap]
  exact Bucket.refill_refill h.rate_pos hle

lemma run_refill (h : b.WellFormed) (ts : List Int) (t : Int)
    (hts : (ts ++ [t]).Pairwise (· ≤ ·)) : run refill b (ts ++ [t]) = b.refill t := by
  induction ts generalizing b with
  | nil => rfl
  | cons t' ts ih =>
    rw [List.cons_append, List.pairwise_cons] at hts
    rw [List.cons_append, run_cons, ih (nanos_refill h t').1 hts.2]
    exact refill_refill h (hts.1 t (by simp))

/-- A refill is exact unless the bucket holds more than its capacity. -/
lemma exactRefill_iff (h : b.Carried) (hrate : 0 < b.rate) :
    b.ExactRefill ↔ b.content ≤ b.cap * kAcc := by
  constructor
  · intro hexact
    have hsame := hexact.content_eq b.lastNs
    rw [refill, if_pos le_rfl, sub_self, max_self, mul_zero, add_zero] at hsame
    exact hsame.trans_le (min_le_left _ _)
  · intro hle
    have hwf := h.wellFormed hrate hle
    refine ⟨fun now => ?_, fun now => ?_, run_refill hwf⟩
    · have hlevel := congrArg Bucket.level (nanos_refill hwf now).2
      refine hlevel.trans ?_
      rw [Bucket.refill]
      split_ifs with hpast
      · rw [max_eq_left (by exact sub_nonpos.2 hpast), mul_zero, add_zero]
        exact (min_eq_right hle).symm
      · rw [max_eq_right (by exact (sub_pos.2 (not_le.1 hpast)).le)]
        rfl
    · have hwf' := (nanos_refill hwf now).1
      refine ⟨hwf'.acc_nonneg, hwf'.acc_lt, ?_⟩
      have hcap := hwf'.le_cap
      have hacc := hwf'.acc_nonneg
      simp only [kAcc] at *
      omega

lemma WellFormed.step (h : b.WellFormed) {op : BucketOp} (hop : op.isConfigure = false)
    (hcost : 0 ≤ op.cost) : (b.step op).WellFormed := by
  have hrefill := (nanos_refill h op.now).1
  rcases step_op_cases h.carried op with ⟨_, _, _, rfl, -⟩ | ⟨-, heq | heq⟩
  · simp [BucketOp.isConfigure] at hop
  · rwa [heq]
  · rw [heq]
    exact hrefill.taken hcost

/-- In every bucket that is reached without a change of the configuration and without a negative
cost, whatever the times, a refill is exact. -/
theorem refill_exact {rate capacity : Int} (hrate : 0 < rate) {ops : List BucketOp}
    (hops : ∀ op ∈ ops, op.isConfigure = false) (hcost : ∀ op ∈ ops, 0 ≤ op.cost) :
    (run step (new rate capacity) ops).ExactRefill := by
  have hadmissible : Along step (fun _ op => op.isConfigure = false ∧ 0 ≤ op.cost)
      (new rate capacity) ops :=
    along_of_forall fun op hop => ⟨hops op hop, hcost op hop⟩
  have hwf : (run step (new rate capacity) ops).WellFormed :=
    run_inv (fun b op h hop => h.step hop.1 hop.2) (wellFormed_new hrate) hadmissible
  exact (exactRefill_iff hwf.carried hwf.rate_pos).2 hwf.le_cap

/-- A bucket in debt. -/
theorem refill_exact_debt :
    (run step (new 10 20) [.tryReserve 15 0, .reserveOrWait 10 0 1000000000]).tokens = -5000 ∧
      (run step (new 10 20) [.tryReserve 15 0, .reserveOrWait 10 0 1000000000]).ExactRefill :=
  ⟨by decide, refill_exact (by decide) (by decide) (by decide)⟩

/-- A negative cost lifts the bucket above its capacity. -/
theorem refill_exact_negative_cost :
    ¬ (run step (new 10 20) [.tryReserve (-5) 0]).ExactRefill := by
  intro h
  exact absurd (h.in_range 0).2.2 (by decide)

/-! ### Changes of the configuration -/

/-- What an operation credits. -/
def credit (b : TokenBucketI64) : BucketOp → Int
  | .configure _ _ _ => 0
  | op               => (b.refill op.now).content - b.content

/-- What a list of operations credits. -/
def credited (b : TokenBucketI64) : List BucketOp → Int
  | []        => 0
  | op :: ops => b.credit op + credited (b.step op) ops

/-- The rates in force from time `t` on, times their durations. -/
def accrued (b : TokenBucketI64) (t : Int) : List BucketOp → Int
  | []        => 0
  | op :: ops => max 0 b.rate * (op.now - t) + accrued (b.step op) op.now ops

/-- The time of the last operation. -/
def clock (t : Int) : List BucketOp → Int
  | []        => t
  | op :: ops => clock op.now ops

/-- A change finds the bucket refilled at its time, or full at the new capacity, or it stops the
refill. -/
def Settled (b : TokenBucketI64) : BucketOp → Prop
  | .configure refillRate capacity nowNs =>
    nowNs ≤ b.lastNs ∨ capacity * kScale ≤ b.tokens ∨ refillRate ≤ 0
  | _ => True

instance (b : TokenBucketI64) : ∀ op, Decidable (b.Settled op)
  | .configure _ _ _     => inferInstanceAs (Decidable (_ ∨ _ ∨ _))
  | .tryReserve _ _      => inferInstanceAs (Decidable True)
  | .reserveOrWait _ _ _ => inferInstanceAs (Decidable True)
  | .availableMilli _    => inferInstanceAs (Decidable True)

/-- Nothing is left to be credited for the time before `t`. -/
structure CreditedUpTo (b : TokenBucketI64) (t : Int) : Prop where
  carried : b.Carried
  no_debt : t ≤ b.lastNs ∨ b.cap * kAcc ≤ b.content ∨ b.rate ≤ 0

lemma CreditedUpTo.credit_le {t : Int} (h : b.CreditedUpTo t) {op : BucketOp} (ht : t ≤ op.now) :
    b.credit op ≤ max 0 b.rate * (op.now - t) := by
  have hnonneg : 0 ≤ max 0 b.rate * (op.now - t) := mul_nonneg (le_max_left _ _) (by omega)
  have hrefill : (b.refill op.now).content - b.content ≤ max 0 b.rate * (op.now - t) := by
    rcases refill_cases h.carried op.now with
      ⟨-, heq⟩ | ⟨-, -, heq⟩ | ⟨-, -, -, heq⟩ | ⟨hlt, hrate, hroom, -, hcontent⟩
    · rw [heq]
      omega
    · rw [heq]
      exact (sub_self b.content).trans_le hnonneg
    · have hacc := h.carried.acc_nonneg
      rw [heq]
      simp only [content]
      omega
    · -- The bucket has room and a rate, so its clock is not behind.
      have hlast : t ≤ b.lastNs := h.no_debt.resolve_right (by omega)
      have hmul : b.rate * (op.now - b.lastNs) ≤ b.rate * (op.now - t) :=
        mul_le_mul_of_nonneg_left (by omega) hrate.le
      rw [hcontent, max_eq_right hrate.le]
      omega
  cases op with
  | configure refillRate capacity nowNs => exact hnonneg
  | tryReserve costTokens nowNs => exact hrefill
  | reserveOrWait costTokens nowNs deadlineNs => exact hrefill
  | availableMilli nowNs => exact hrefill

lemma CreditedUpTo.step {t : Int} (h : b.CreditedUpTo t) {op : BucketOp} (hop : b.Settled op) :
    (b.step op).CreditedUpTo op.now := by
  refine ⟨h.carried.step op, ?_⟩
  rcases step_op_cases h.carried op with ⟨refillRate, capacity, nowNs, rfl, heq⟩ | ⟨-, heq | heq⟩
  · have hacc := h.carried.acc_nonneg
    rw [heq]
    rcases hop with hlast | hfull | hstop
    · exact .inl hlast
    · right; left
      simp only [configure, content, kAcc] at *
      split_ifs <;> omega
    · exact .inr (.inr hstop)
  · rw [heq, lastNs_refill]
    exact .inl (le_max_right _ _)
  · rw [heq]
    left
    exact (le_max_right b.lastNs op.now).trans_eq (lastNs_refill op.now).symm

/-- Times in order, none before `t`. -/
def InOrderFrom (t : Int) : List BucketOp → Prop
  | []        => True
  | op :: ops => t ≤ op.now ∧ InOrderFrom op.now ops

lemma inOrderFrom_append {t : Int} {ops ops' : List BucketOp} :
    InOrderFrom t (ops ++ ops') ↔ InOrderFrom t ops ∧ InOrderFrom (clock t ops) ops' := by
  induction ops generalizing t with
  | nil => simp [InOrderFrom, clock]
  | cons op ops ih => simp [InOrderFrom, clock, ih, and_assoc]

lemma CreditedUpTo.run {t : Int} (h : b.CreditedUpTo t) {ops : List BucketOp}
    (hops : Along TokenBucketI64.step Settled b ops) :
    (Core.run TokenBucketI64.step b ops).CreditedUpTo (clock t ops) := by
  induction ops generalizing b t with
  | nil => exact h
  | cons op ops ih => exact ih (h.step hops.1) hops.2

lemma CreditedUpTo.credited_le {t : Int} (h : b.CreditedUpTo t) {ops : List BucketOp}
    (hops : Along TokenBucketI64.step Settled b ops) (htimes : InOrderFrom t ops) :
    b.credited ops ≤ b.accrued t ops := by
  induction ops generalizing b t with
  | nil => exact le_rfl
  | cons op ops ih => exact add_le_add (h.credit_le htimes.1) (ih (h.step hops.1) hops.2 htimes.2)

/-- Between any two points of a run at times in order, no more is credited than the rates in force
times their durations, if every change of the configuration is settled. -/
theorem credited_le_accrued {rate capacity t : Int} {ops : List BucketOp}
    (htimes : InOrderFrom t ops) (hops : Along step Settled (new rate capacity) ops) :
    ∀ before between after, ops = before ++ between ++ after →
      (run step (new rate capacity) before).credited between ≤
        (run step (new rate capacity) before).accrued (clock t before) between := by
  rintro before between after rfl
  rw [List.append_assoc, inOrderFrom_append, inOrderFrom_append] at htimes
  rw [List.append_assoc, along_append, along_append] at hops
  have hnew : (new rate capacity).CreditedUpTo t :=
    ⟨⟨le_rfl, by simp [new, kAcc]⟩, .inr (.inl (by simp [new, content]))⟩
  exact (hnew.run hops.1).credited_le hops.2.1 htimes.2.1

/-- The rate is raised right after a refill. -/
theorem credited_le_accrued_refilled :
    (new 1 1000).credited [.tryReserve 1000 0, .availableMilli 100000000000,
        .configure 1000 1000 100000000000, .availableMilli 100000000001] = 100000001000 ∧
      (new 1 1000).credited [.tryReserve 1000 0, .availableMilli 100000000000,
        .configure 1000 1000 100000000000, .availableMilli 100000000001] ≤ 100000001000 := by
  have h := @credited_le_accrued 1 1000 0 [.tryReserve 1000 0, .availableMilli 100000000000,
    .configure 1000 1000 100000000000, .availableMilli 100000000001]
    ⟨by decide, by decide, by decide, by decide, trivial⟩ (by decide +kernel) [] _ []
    (List.append_nil _).symm
  exact ⟨by decide +kernel, h⟩

/-- The rate is raised after a hundred idle seconds, which are credited at the new rate. -/
theorem credited_le_accrued_idle :
    ¬ (new 1 1000).credited [.tryReserve 1000 0, .configure 1000 1000 100000000000,
        .availableMilli 100000000000] ≤
      (new 1 1000).accrued 0 [.tryReserve 1000 0, .configure 1000 1000 100000000000,
        .availableMilli 100000000000] + 1000000 := by
  decide +kernel

end TokenBucketI64

end HftBot
