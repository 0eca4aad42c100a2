import HftBot.Rest.BucketOps

/-!
# Reservations

What `reserve_or_wait` promises. A granted wait is counted from the caller's clock, so it is as long
as it must be unless the bucket was refilled later than that clock. The capacity is no limit to what
is granted: a cost above it is granted whenever it accrues by the deadline.
-/

namespace HftBot

open HftBot.Core

namespace TokenBucketI64

variable {b : TokenBucketI64}

/-! ### Waits -/

/-- The wait is the shortest after which the bucket is out of debt again. -/
structure SufficientWait (b : TokenBucketI64) (now wait : Int) : Prop where
  nonneg : 0 ≤ wait
  paid   : 0 ≤ (b.availableMilli (now + wait)).1
  least  : ∀ wait', 0 ≤ wait' → 0 ≤ (b.availableMilli (now + wait')).1 → wait ≤ wait'

/-- A bucket in debt is out of it when the rate has paid for it, unless its capacity is negative. -/
lemma availableMilli_nonneg_iff (h : b.Carried) (hrate : 0 < b.rate) (hdebt : b.tokens < 0)
    (t : Int) :
    0 ≤ (b.availableMilli t).1 ↔
      0 ≤ b.cap ∧ b.lastNs < t ∧ 0 ≤ b.content + b.rate * (t - b.lastNs) := by
  have hneg : b.content < 0 := not_le.1 fun hle => absurd (h.tokens_nonneg_iff.2 hle) (by omega)
  have hcap : 0 ≤ b.cap ↔ 0 ≤ b.cap * kAcc := by
    simp only [kAcc]
    omega
  change 0 ≤ (b.refill t).tokens ↔ _
  rcases refill_cases h t with
    ⟨hpast, heq⟩ | ⟨-, hstopped, -⟩ | ⟨-, -, hfull, heq⟩ | ⟨hlt, -, -, hwf, hcontent⟩
  · rw [heq]
    omega
  · omega
  · rw [heq, hcap]
    constructor
    · intro hle
      exact absurd hle (not_le.2 hdebt)
    · rintro ⟨hle, -⟩
      omega
  · rw [hwf.carried.tokens_nonneg_iff, hcontent, hcap, le_min_iff]
    exact ⟨fun hle => ⟨hle.1, hlt, hle.2⟩, fun hle => ⟨hle.1, hle.2.2⟩⟩

/-- A reservation without debt needs no wait. -/
lemma sufficientWait_zero {now : Int} (hlast : now ≤ b.lastNs) (hpaid : 0 ≤ b.tokens) :
    b.SufficientWait now 0 := by
  refine ⟨le_rfl, ?_, fun wait' hwait' _ => hwait'⟩
  rw [add_zero, availableMilli, refill, if_pos hlast]
  exact hpaid

/-- The debt is counted from the bucket's clock, the wait from the caller's. -/
lemma sufficientWait_iff {now costTokens : Int} (h : b.Carried) (hrate : 0 < b.rate)
    (hdebt : b.tokens < costTokens * kScale) (hnow : now ≤ b.lastNs) :
    (b.taken costTokens).SufficientWait now (b.waitFor (costTokens * kScale - b.tokens)) ↔
      b.lastNs = now ∧ 0 ≤ b.cap := by
  have hpos := waitFor_pos h hrate hdebt
  have htaken : (b.taken costTokens).Carried := ⟨h.acc_nonneg, h.acc_lt⟩
  have hneg : (b.taken costTokens).tokens < 0 := sub_neg.2 hdebt
  have hcontent : (b.taken costTokens).content = b.content - costTokens * kNano := by
    simp only [content, taken, kNano]
    ring
  have hpaid : ∀ wait, 0 ≤ ((b.taken costTokens).availableMilli (now + wait)).1 ↔
      0 ≤ b.cap ∧ b.lastNs < now + wait ∧
        b.waitFor (costTokens * kScale - b.tokens) ≤ now + wait - b.lastNs := by
    intro wait
    rw [availableMilli_nonneg_iff htaken hrate hneg, waitFor_le_iff h hrate hdebt, hcontent]
    refine and_congr Iff.rfl (and_congr Iff.rfl ?_)
    change 0 ≤ b.content - costTokens * kNano + b.rate * (now + wait - b.lastNs) ↔ _
    omega
  constructor
  · intro hwait
    obtain ⟨hcap, -, hle⟩ := (hpaid _).1 hwait.paid
    exact ⟨by omega, hcap⟩
  · rintro ⟨rfl, hcap⟩
    refine ⟨hpos.le, (hpaid _).2 ⟨hcap, by omega, by omega⟩, fun wait' _ hwait' => ?_⟩
    obtain ⟨-, -, hle⟩ := (hpaid wait').1 hwait'
    omega

/-- Of every bucket that is reached, by any operations at any times: a granted wait is sufficient
and the least, if and only if the tokens at hand cover the cost or the bucket was not refilled
later than the caller's clock, where no capacity is negative. -/
theorem granted_wait_iff (rate capacity : Int) (ops : List BucketOp)
    (costTokens now deadline : Int) :
    let b := run step (new rate capacity) ops
    (b.reserveOrWait costTokens now deadline).1.granted = true →
      ((b.reserveOrWait costTokens now deadline).2.SufficientWait now
          (b.reserveOrWait costTokens now deadline).1.waitNs ↔
        costTokens * kScale ≤ (b.availableMilli now).1 ∨ b.lastNs ≤ now ∧ 0 ≤ b.cap) := by
  intro b hgranted
  have hcarried : b.Carried := carried_run rate capacity ops
  have hrefilled := hcarried.refill now
  have hnow : now ≤ (b.refill now).lastNs := by
    rw [lastNs_refill]
    exact le_max_right _ _
  change _ ↔ costTokens * kScale ≤ (b.refill now).tokens ∨ _
  rcases reserveOrWait_cases hcarried costTokens now deadline _ rfl with
    ⟨hle, heq⟩ | ⟨hdebt, hrate, -, heq⟩ | ⟨-, -, hrefused, -⟩
  · rw [heq]
    exact iff_of_true (sufficientWait_zero hnow (sub_nonneg.2 hle)) (.inl hle)
  · rw [heq, or_iff_right (not_le.2 hdebt)]
    refine (sufficientWait_iff hrefilled hrate hdebt hnow).trans ?_
    rw [lastNs_refill, refill_cap, max_eq_right_iff]
  · exact absurd hgranted (by rw [hrefused]; decide)

/-- A bucket without tokens, asked at the time of its last refill. -/
theorem granted_wait_in_time :
    ((run step (new 10 20) [.tryReserve 20 5]).reserveOrWait 1 5 1000000000).2.SufficientWait 5
      100000000 :=
  (granted_wait_iff 10 20 [.tryReserve 20 5] 1 5 1000000000 (by decide)).2 (.inr (by decide))

/-- The caller's clock was read before another thread refilled the bucket. -/
theorem granted_wait_late_clock :
    ¬ ((run step (new 10 20) [.tryReserve 20 5]).reserveOrWait 1 4 1000000000).2.SufficientWait 4
      ((run step (new 10 20) [.tryReserve 20 5]).reserveOrWait 1 4 1000000000).1.waitNs := by
  intro h
  exact absurd h.paid (by decide)

/-! ### Costs above the capacity -/

/-- A cost above the capacity is refused, and nothing is deducted. -/
structure FitsBucket (b : TokenBucketI64) (costTokens now deadline : Int) : Prop where
  le_cap  : (b.reserveOrWait costTokens now deadline).1.granted = true →
    costTokens * kScale ≤ b.cap
  refused : b.cap < costTokens * kScale →
    (b.reserveOrWait costTokens now deadline).1.granted = false ∧
      (b.reserveOrWait costTokens now deadline).2 = b.refill now

/-- The cost is within the capacity, or there are not enough tokens and what is missing does not
accrue by the deadline. -/
def OutOfReach (b : TokenBucketI64) (costTokens now deadline : Int) : Prop :=
  costTokens * kScale ≤ b.cap ∨
    (b.availableMilli now).1 < costTokens * kScale ∧
      (b.rate ≤ 0 ∨
        (b.refill now).content + b.rate * (deadline - now) < costTokens * kNano)

instance (b : TokenBucketI64) (costTokens now deadline : Int) :
    Decidable (b.OutOfReach costTokens now deadline) :=
  inferInstanceAs (Decidable (_ ∨ _ ∧ (_ ∨ _)))

/-- Of every bucket that is reached: costs above the capacity are refused exactly as far as they do
not accrue by the deadline. -/
theorem fits_bucket_iff (rate capacity : Int) (ops : List BucketOp)
    (costTokens now deadline : Int) :
    (run step (new rate capacity) ops).FitsBucket costTokens now deadline ↔
      (run step (new rate capacity) ops).OutOfReach costTokens now deadline := by
  have hcarried := carried_run rate capacity ops
  generalize run step (new rate capacity) ops = b at hcarried ⊢
  rw [OutOfReach, show (b.availableMilli now).1 = (b.refill now).tokens from rfl]
  rcases reserveOrWait_cases hcarried costTokens now deadline _ rfl with
    ⟨hle, heq⟩ | ⟨hdebt, hrate, hpaid, heq⟩ | ⟨hdebt, hshort, hrefused, heq⟩
  · constructor
    · intro h
      exact .inl (h.le_cap (by rw [heq]))
    · intro h
      have hcap := h.resolve_right fun hdebt => absurd hdebt.1 (not_lt.2 hle)
      exact ⟨fun _ => hcap, fun hlt => absurd hcap (not_le.2 hlt)⟩
  · rw [refill_rate] at hrate hpaid
    constructor
    · intro h
      exact .inl (h.le_cap (by rw [heq]))
    · intro h
      have hcap := h.resolve_right fun hshort => by omega
      exact ⟨fun _ => hcap, fun hlt => absurd hcap (not_le.2 hlt)⟩
  · rw [refill_rate] at hshort
    refine iff_of_true ⟨fun hgranted => ?_, fun _ => ⟨hrefused, heq⟩⟩ (.inr ⟨hdebt, hshort⟩)
    exact absurd hgranted (by rw [hrefused]; decide)

/-- A cost of thirty tokens is granted by a bucket of twenty. -/
theorem fits_bucket_into_debt : ¬ (run step (new 10 20) []).FitsBucket 30 0 1000000000 := by
  intro h
  exact absurd (h.le_cap (by decide)) (by decide)

end TokenBucketI64

end HftBot
