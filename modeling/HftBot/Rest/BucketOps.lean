import HftBot.Core.Run
import HftBot.Rest.Conformance

/-!
# Operations of the token bucket

All entry points of the bucket as the inputs of a machine, whatever the costs, the rates and the
order of the times. What a refill does is said once, for every bucket whose carry is in its range.
-/

namespace HftBot

open HftBot.Core

namespace TokenBucketI64

/-- An entry point and the time of its call. The source does not tell `configure` the time. -/
inductive BucketOp
  | configure (refillRate capacity nowNs : Int)
  | tryReserve (costTokens nowNs : Int)
  | reserveOrWait (costTokens nowNs deadlineNs : Int)
  | availableMilli (nowNs : Int)
deriving DecidableEq, Repr

namespace BucketOp

def now : BucketOp → Int
  | configure _ _ nowNs     => nowNs
  | tryReserve _ nowNs      => nowNs
  | reserveOrWait _ nowNs _ => nowNs
  | availableMilli nowNs    => nowNs

/-- What the operation asks for. -/
def cost : BucketOp → Int
  | tryReserve costTokens _      => costTokens
  | reserveOrWait costTokens _ _ => costTokens
  | _                            => 0

def isConfigure : BucketOp → Bool
  | configure _ _ _ => true
  | _               => false

end BucketOp

def step (b : TokenBucketI64) : BucketOp → TokenBucketI64
  | .configure refillRate capacity _              => b.configure refillRate capacity
  | .tryReserve costTokens nowNs                  => (b.tryReserve costTokens nowNs).2
  | .reserveOrWait costTokens nowNs deadlineNs    => (b.reserveOrWait costTokens nowNs deadlineNs).2
  | .availableMilli nowNs                         => (b.availableMilli nowNs).2

/-- Tokens and carry together, in parts of 10^-9 token. -/
def content (b : TokenBucketI64) : Int := b.tokens * kAcc + b.acc

/-- The carry is part of one thousandth. -/
structure Carried (b : TokenBucketI64) : Prop where
  acc_nonneg : 0 ≤ b.acc
  acc_lt     : b.acc < kAcc

variable {b : TokenBucketI64}

lemma WellFormed.carried (h : b.WellFormed) : b.Carried := ⟨h.acc_nonneg, h.acc_lt⟩

lemma Carried.wellFormed (h : b.Carried) (hrate : 0 < b.rate) (hle : b.content ≤ b.cap * kAcc) :
    b.WellFormed := ⟨hrate, h.acc_nonneg, h.acc_lt, hle⟩

/-- A debt shows in the tokens as it does in the content. -/
lemma Carried.tokens_nonneg_iff (h : b.Carried) : 0 ≤ b.tokens ↔ 0 ≤ b.content := by
  obtain ⟨hnonneg, hlt⟩ := h
  simp only [content, kAcc] at *
  omega

@[simp] lemma lastNs_refill (now : Int) : (b.refill now).lastNs = max b.lastNs now := by
  grind [refill]

/-- A time in the past changes nothing; without a rate only the clock moves; a bucket that is full
loses its carry; any other is filled in the rate times the elapsed time, up to its capacity. -/
lemma refill_cases (h : b.Carried) (now : Int) :
    (now ≤ b.lastNs ∧ b.refill now = b) ∨
      (b.lastNs < now ∧ b.rate ≤ 0 ∧ b.refill now = { b with lastNs := now }) ∨
      (b.lastNs < now ∧ 0 < b.rate ∧ b.cap * kAcc ≤ b.content ∧
        b.refill now = { b with lastNs := now, acc := 0 }) ∨
      (b.lastNs < now ∧ 0 < b.rate ∧ b.content < b.cap * kAcc ∧ (b.refill now).WellFormed ∧
        (b.refill now).content =
          min (b.cap * kAcc) (b.content + b.rate * (now - b.lastNs))) := by
  rcases lt_or_ge b.lastNs now with hlt | hge
  · right
    rcases lt_or_ge 0 b.rate with hrate | hrate
    · right
      rcases lt_or_ge b.content (b.cap * kAcc) with hroom | hfull
      · obtain ⟨hwf, heq⟩ := nanos_refill_of_lt (h.wellFormed hrate hroom.le) hlt
        exact .inr ⟨hlt, hrate, hroom, hwf, congrArg Bucket.level heq⟩
      · refine .inl ⟨hlt, hrate, hfull, ?_⟩
        have hheadroom : (b.cap - b.tokens) * kAcc - b.acc ≤ 0 := by
          simp only [content, kAcc] at hfull ⊢
          omega
        rw [refill, if_neg (not_le.2 hlt)]
        dsimp only
        rw [if_neg (not_le.2 hrate), if_pos hheadroom]
    · refine .inl ⟨hlt, hrate, ?_⟩
      rw [refill, if_neg (not_le.2 hlt)]
      dsimp only
      rw [if_pos hrate]
  · exact .inl ⟨hge, if_pos hge⟩

lemma Carried.refill (h : b.Carried) (now : Int) : (b.refill now).Carried := by
  rcases refill_cases h now with ⟨-, heq⟩ | ⟨-, -, heq⟩ | ⟨-, -, -, heq⟩ | ⟨-, -, -, hwf, -⟩
  · rwa [heq]
  · rw [heq]
    exact ⟨h.acc_nonneg, h.acc_lt⟩
  · rw [heq]
    exact ⟨le_rfl, by simp [kAcc]⟩
  · exact hwf.carried

/-! ### Reservations -/

/-- The deficit accrues by the deadline. -/
lemma waitFor_le_iff {costTokens wait : Int} (h : b.Carried) (hrate : 0 < b.rate)
    (hdebt : b.tokens < costTokens * kScale) :
    b.waitFor (costTokens * kScale - b.tokens) ≤ wait ↔
      costTokens * kNano ≤ b.content + b.rate * wait := by
  have hneed : 0 < (costTokens * kScale - b.tokens) * kAcc - b.acc := by
    have := h.acc_lt
    simp only [kAcc, kScale] at *
    omega
  have hcontent : (costTokens * kScale - b.tokens) * kAcc - b.acc =
      costTokens * kNano - b.content := by
    simp only [content, kNano]
    ring
  rw [waitFor, if_neg (not_le.2 hrate)]
  dsimp only
  rw [if_neg (not_le.2 hneed), Int.tdiv_eq_ediv_of_nonneg (by omega), hcontent]
  have hdiv := Int.ediv_le_iff_le_mul (x := costTokens * kNano - b.content + b.rate - 1) (y := wait)
    hrate
  rw [hdiv]
  have hexpand : wait * b.rate = b.rate * wait := mul_comm _ _
  omega

lemma waitFor_pos {costTokens : Int} (h : b.Carried) (hrate : 0 < b.rate)
    (hdebt : b.tokens < costTokens * kScale) :
    0 < b.waitFor (costTokens * kScale - b.tokens) := by
  by_contra hle
  have hpaid := (waitFor_le_iff h hrate hdebt).1 (not_lt.1 hle)
  have := h.acc_lt
  simp only [content, kNano, kAcc, kScale] at *
  omega

/-- What `reserve_or_wait` does: it takes what is there, or takes into debt what accrues by the
deadline, or refuses and only refills. -/
lemma reserveOrWait_cases (h : b.Carried) (costTokens now deadline : Int) (b' : TokenBucketI64)
    (hb' : b' = b.refill now) :
    (costTokens * kScale ≤ b'.tokens ∧
        b.reserveOrWait costTokens now deadline =
          (⟨true, 0, b'.tokens, (b'.taken costTokens).tokens, costTokens * kScale⟩,
            b'.taken costTokens)) ∨
      (b'.tokens < costTokens * kScale ∧ 0 < b'.rate ∧
        costTokens * kNano ≤ b'.content + b'.rate * (deadline - now) ∧
        b.reserveOrWait costTokens now deadline =
          (⟨true, b'.waitFor (costTokens * kScale - b'.tokens), b'.tokens,
            (b'.taken costTokens).tokens, costTokens * kScale⟩, b'.taken costTokens)) ∨
      (b'.tokens < costTokens * kScale ∧
        (b'.rate ≤ 0 ∨ b'.content + b'.rate * (deadline - now) < costTokens * kNano) ∧
        (b.reserveOrWait costTokens now deadline).1.granted = false ∧
        (b.reserveOrWait costTokens now deadline).2 = b') := by
  have hcarried : b'.Carried := hb' ▸ h.refill now
  by_cases hle : costTokens * kScale ≤ b'.tokens
  · refine .inl ⟨hle, ?_⟩
    simp only [reserveOrWait, ← hb', if_pos hle]
    rfl
  · have hdebt := not_le.1 hle
    by_cases hrefused : b'.rate ≤ 0 ∨
        now + b'.waitFor (costTokens * kScale - b'.tokens) > deadline ∨
        b'.waitFor (costTokens * kScale - b'.tokens) < 0
    · refine .inr (.inr ⟨hdebt, ?_, ?_, ?_⟩)
      · rcases lt_or_ge 0 b'.rate with hrate | hrate
        · right
          have hwait := waitFor_pos hcarried hrate hdebt
          by_contra hpaid
          have hends := (waitFor_le_iff hcarried hrate hdebt).2 (not_lt.1 hpaid)
          omega
        · exact .inl hrate
      · simp only [reserveOrWait, ← hb', if_neg hle, if_pos hrefused]
      · simp only [reserveOrWait, ← hb', if_neg hle, if_pos hrefused]
    · have hrate : 0 < b'.rate := by omega
      refine .inr (.inl ⟨hdebt, hrate, ?_, ?_⟩)
      · exact (waitFor_le_iff hcarried hrate hdebt).1 (by omega)
      · simp only [reserveOrWait, ← hb', if_neg hle, if_neg hrefused]
        rfl

lemma tryReserve_cases (costTokens now : Int) (b' : TokenBucketI64) (hb' : b' = b.refill now) :
    b.tryReserve costTokens now = (true, b'.taken costTokens) ∨
      b.tryReserve costTokens now = (false, b') := by
  by_cases hle : b'.tokens ≥ costTokens * kScale
  · left
    simp only [tryReserve, ← hb', if_pos hle]
    rfl
  · right
    simp only [tryReserve, ← hb', if_neg hle]

/-- An operation changes the configuration, or it refills and may take its cost. -/
lemma step_op_cases (h : b.Carried) (op : BucketOp) :
    (∃ refillRate capacity nowNs, op = .configure refillRate capacity nowNs ∧
        b.step op = b.configure refillRate capacity) ∨
      (op.isConfigure = false ∧
        (b.step op = b.refill op.now ∨ b.step op = (b.refill op.now).taken op.cost)) := by
  cases op with
  | configure refillRate capacity nowNs => exact .inl ⟨_, _, _, rfl, rfl⟩
  | tryReserve costTokens nowNs =>
    refine .inr ⟨rfl, ?_⟩
    rcases tryReserve_cases costTokens nowNs _ rfl with heq | heq
    · exact .inr (congrArg Prod.snd heq)
    · exact .inl (congrArg Prod.snd heq)
  | reserveOrWait costTokens nowNs deadlineNs =>
    refine .inr ⟨rfl, ?_⟩
    rcases reserveOrWait_cases h costTokens nowNs deadlineNs _ rfl with
      ⟨-, heq⟩ | ⟨-, -, -, heq⟩ | ⟨-, -, -, heq⟩
    · exact .inr (congrArg Prod.snd heq)
    · exact .inr (congrArg Prod.snd heq)
    · exact .inl heq
  | availableMilli nowNs => exact .inr ⟨rfl, .inl rfl⟩

/-! ### Runs -/

lemma Carried.step (h : b.Carried) (op : BucketOp) : (b.step op).Carried := by
  rcases step_op_cases h op with ⟨refillRate, capacity, nowNs, -, heq⟩ | ⟨-, heq | heq⟩
  · rw [heq]
    exact ⟨h.acc_nonneg, h.acc_lt⟩
  · rw [heq]
    exact h.refill op.now
  · rw [heq]
    exact ⟨(h.refill op.now).acc_nonneg, (h.refill op.now).acc_lt⟩

/-- The carry is in its range in every bucket that is ever reached. -/
lemma carried_run (rate capacity : Int) (ops : List BucketOp) :
    (run step (new rate capacity) ops).Carried := by
  have hnew : (new rate capacity).Carried := ⟨le_rfl, by simp [new, kAcc]⟩
  exact run_inv (A := fun _ _ => True) (fun b op h _ => h.step op) hnew (along_of_forall (by simp))

end TokenBucketI64

end HftBot
