import HftBot.Core.Machine
import HftBot.Rest.BucketOps
import HftBot.Rest.Limits

/-!
# Overflow in the token bucket

The bucket with every 64-bit operation of the source as one that has no result where it overflows.
Nothing bounds the limits and costs of the server but the checks of `limits.cpp`, so operations do
overflow. They do not, and the bucket never holds more than its capacity, as long as no cost is
negative and capacity, costs, deadlines and times stay within a common bound.
-/

namespace HftBot

open HftBot.Core

namespace TokenBucketI64

/-! ### Operations with overflow -/

def newChecked (refillRate capacity : Int) : Option TokenBucketI64 := do
  let cap ← checked (capacity * kScale)
  return { rate := refillRate, cap, tokens := cap }

def refillChecked (b : TokenBucketI64) (nowNs : Int) : Option TokenBucketI64 :=
  if nowNs ≤ b.lastNs then some b
  else do
    let dt ← checked (nowNs - b.lastNs)
    let b := { b with lastNs := nowNs }
    if b.rate ≤ 0 then return b
    else
      let room     ← checked (b.cap - b.tokens)
      let scaled   ← checked (room * kAcc)
      let headroom ← checked (scaled - b.acc)
      if headroom ≤ 0 then return { b with acc := 0 }
      else
        let toFull ← checked (headroom.tdiv b.rate + 1)
        if dt ≥ toFull then return { b with tokens := b.cap, acc := 0 }
        else
          let filled ← checked (b.rate * dt)
          let acc    ← checked (b.acc + filled)
          let whole  := acc.tdiv kAcc
          let used   ← checked (whole * kAcc)
          let rest   ← checked (acc - used)
          let tokens ← checked (b.tokens + whole)
          if tokens > b.cap then return { b with tokens := b.cap, acc := 0 }
          else return { b with tokens, acc := rest }

def waitForChecked (b : TokenBucketI64) (deficitMilli : Int) : Option Int :=
  if b.rate ≤ 0 then some (-1)
  else do
    let scaled    ← checked (deficitMilli * kAcc)
    let accNeeded ← checked (scaled - b.acc)
    if accNeeded ≤ 0 then return 0
    else
      let sum   ← checked (accNeeded + b.rate)
      let upper ← checked (sum - 1)
      return upper.tdiv b.rate

def tryReserveChecked (b : TokenBucketI64) (costTokens nowNs : Int) :
    Option (Bool × TokenBucketI64) := do
  let b    ← b.refillChecked nowNs
  let need ← checked (costTokens * kScale)
  if b.tokens ≥ need then
    let tokens ← checked (b.tokens - need)
    return (true, { b with tokens })
  else return (false, b)

def reserveOrWaitChecked (b : TokenBucketI64) (costTokens nowNs deadlineNs : Int) :
    Option (Reservation × TokenBucketI64) := do
  let b    ← b.refillChecked nowNs
  let cost ← checked (costTokens * kScale)
  let r : Reservation := { costMilli := cost, beforeMilli := b.tokens }
  if b.tokens ≥ cost then
    let tokens ← checked (b.tokens - cost)
    return ({ r with granted := true, afterMilli := tokens }, { b with tokens })
  else
    let deficit ← checked (cost - b.tokens)
    let waitNs  ← b.waitForChecked deficit
    let r := { r with waitNs }
    if b.rate ≤ 0 then return ({ r with afterMilli := b.tokens }, b)
    else
      let readyNs ← checked (nowNs + waitNs)
      if readyNs > deadlineNs ∨ waitNs < 0 then return ({ r with afterMilli := b.tokens }, b)
      else
        let tokens ← checked (b.tokens - cost)
        return ({ r with granted := true, afterMilli := tokens }, { b with tokens })

/-- The bucket after a call. -/
def callChecked (b : TokenBucketI64) : Call → Option TokenBucketI64
  | .tryReserve costTokens nowNs               => (b.tryReserveChecked costTokens nowNs).map (·.2)
  | .reserveOrWait costTokens nowNs deadlineNs =>
    (b.reserveOrWaitChecked costTokens nowNs deadlineNs).map (·.2)

/-- The bucket after a list of calls. -/
def callsChecked (b : TokenBucketI64) (cs : List Call) : Option TokenBucketI64 :=
  cs.foldlM callChecked b

/-! ### Bounds -/

/-- A bucket of the given limits whose debt is at most `debt`. -/
structure Bounded (rate capacity debt : Int) (b : TokenBucketI64) : Prop where
  wellFormed    : b.WellFormed
  rate_eq       : b.rate = rate
  cap_eq        : b.cap = capacity * kScale
  lastNs_nonneg : 0 ≤ b.lastNs
  le_content    : -debt ≤ b.content

variable {b : TokenBucketI64} {rate capacity debt : Int}

section

variable (h : b.Bounded rate capacity debt) (hcapacity : 0 ≤ capacity) (hdebt : 0 ≤ debt)
  (hroom : capacity * kNano + debt + kAcc < 2 ^ 63)
include h hcapacity hdebt hroom

/-- The room above the tokens, scaled to the carry. -/
lemma Bounded.room_lt : 0 ≤ (b.cap - b.tokens) * kAcc ∧ (b.cap - b.tokens) * kAcc < 2 ^ 63 ∧
    -2 ^ 63 ≤ b.tokens * kAcc ∧ b.tokens * kAcc < 2 ^ 63 := by
  obtain ⟨⟨-, hnonneg, hlt, hle⟩, -, hcap, -, hcontent⟩ := h
  rw [hcap] at hle ⊢
  simp only [content, kNano, kAcc, kScale] at *
  omega

lemma Bounded.refillChecked_eq {now : Int} (hnow : now < 2 ^ 63) :
    b.refillChecked now = some (b.refill now) := by
  obtain ⟨hroom_nonneg, hroom_lt, htokens, htokens_lt⟩ := h.room_lt hcapacity hdebt hroom
  obtain ⟨⟨hrate, hnonneg, hlt, hle⟩, -, hcap, hlast, -⟩ := h
  rw [refillChecked, refill]
  split_ifs with hpast
  · rfl
  · set headroom := (b.cap - b.tokens) * kAcc - b.acc with hheadroom
    have hheadroom_nonneg : 0 ≤ headroom := by
      simp only [kAcc] at *
      omega
    have hquot : 0 ≤ headroom.tdiv b.rate ∧ headroom.tdiv b.rate ≤ headroom := by
      rw [Int.tdiv_eq_ediv_of_nonneg hheadroom_nonneg]
      exact ⟨Int.ediv_nonneg hheadroom_nonneg hrate.le, Int.ediv_le_self _ hheadroom_nonneg⟩
    have hscaled : (b.cap - b.tokens) * kAcc + 1 < 2 ^ 63 := by
      simp only [kAcc] at *
      omega
    simp only [Option.bind_eq_bind, Option.pure_def]
    rw [checked_bind (by omega) (by omega), if_neg (not_le.2 hrate), if_neg (not_le.2 hrate),
      checked_bind (by simp only [kAcc] at *; omega) (by simp only [kAcc] at *; omega),
      checked_bind (by omega) (by omega), checked_bind (by omega) (by omega), ← hheadroom]
    by_cases hfull : headroom ≤ 0
    · rw [if_pos hfull, if_pos hfull]
    · rw [if_neg hfull, if_neg hfull, checked_bind (by omega) (by omega)]
      by_cases hsaturated : now - b.lastNs ≥ headroom.tdiv b.rate + 1
      · rw [if_pos hsaturated, if_pos hsaturated]
      · -- What is filled in fits the headroom.
        have hfilled : b.rate * (now - b.lastNs) ≤ headroom := by
          have hdiv := Int.le_ediv_iff_mul_le (a := now - b.lastNs) (b := headroom) hrate
          rw [← Int.tdiv_eq_ediv_of_nonneg hheadroom_nonneg, mul_comm] at hdiv
          exact hdiv.1 (by omega)
        have hfilled_nonneg : 0 ≤ b.rate * (now - b.lastNs) := mul_nonneg hrate.le (by omega)
        set filled := b.rate * (now - b.lastNs)
        have hwhole : (b.acc + filled).tdiv kAcc = (b.acc + filled) / kAcc :=
          Int.tdiv_eq_ediv_of_nonneg (by omega)
        rw [if_neg hsaturated, if_neg hsaturated, checked_bind (by omega) (by omega),
          checked_bind (by omega) (by omega), hwhole,
          checked_bind (by simp only [kAcc] at *; omega) (by simp only [kAcc] at *; omega),
          checked_bind (by simp only [kAcc] at *; omega) (by simp only [kAcc] at *; omega),
          checked_bind (by simp only [kAcc] at *; omega) (by simp only [kAcc] at *; omega)]
        split_ifs <;> rfl

end

lemma Bounded.refill (h : b.Bounded rate capacity debt) (now : Int) :
    (b.refill now).Bounded rate capacity debt where
  wellFormed    := (nanos_refill h.wellFormed now).1
  rate_eq       := (refill_rate now).trans h.rate_eq
  cap_eq        := (refill_cap now).trans h.cap_eq
  lastNs_nonneg := by
    rw [lastNs_refill]
    exact le_max_of_le_left h.lastNs_nonneg
  le_content    := by
    have hcontent := h.le_content
    have hcap : b.content ≤ b.cap * kAcc := h.wellFormed.le_cap
    rcases refill_cases h.wellFormed.carried now with
      ⟨-, heq⟩ | ⟨-, hrate, -⟩ | ⟨-, -, hfull, heq⟩ | ⟨hlt, hrate, -, -, heq⟩
    · rwa [heq]
    · exact absurd h.wellFormed.rate_pos (not_lt.2 hrate)
    · -- A bucket that is full has no carry to lose.
      have hacc := h.wellFormed.acc_lt
      have hnonneg := h.wellFormed.acc_nonneg
      rw [heq]
      simp only [content, kAcc] at *
      omega
    · have hfilled : 0 ≤ b.rate * (now - b.lastNs) := mul_nonneg hrate.le (by omega)
      rw [heq]
      omega

lemma Bounded.taken (h : b.Bounded rate capacity debt) {costTokens : Int} (hcost : 0 ≤ costTokens)
    (hpaid : costTokens * kNano ≤ b.content + debt) :
    (b.taken costTokens).Bounded rate capacity debt where
  wellFormed    := h.wellFormed.taken hcost
  rate_eq       := h.rate_eq
  cap_eq        := h.cap_eq
  lastNs_nonneg := h.lastNs_nonneg
  le_content    := by
    simp only [content, TokenBucketI64.taken, kNano, kAcc, kScale] at *
    omega

/-- Nothing to come is owed for what is there. -/
lemma Carried.paid_of_le (h : b.Carried) {costTokens : Int} (hdebt : 0 ≤ debt)
    (hle : costTokens * kScale ≤ b.tokens) : costTokens * kNano ≤ b.content + debt := by
  have := h.acc_nonneg
  simp only [content, kNano, kAcc, kScale] at *
  omega

/-! ### Calls within the bounds -/

/-- No tokens are given back, what a reservation may wait for is at most `debt`, and deficit and
ready time are 64-bit integers. -/
def Call.Within (rate debt : Int) : Call → Prop
  | .tryReserve costTokens _                   => 0 ≤ costTokens
  | .reserveOrWait costTokens nowNs deadlineNs =>
    0 ≤ costTokens ∧ rate * (deadlineNs - nowNs) ≤ debt ∧
      costTokens * kNano + debt + kAcc + rate < 2 ^ 63 ∧
      nowNs + (costTokens * kNano + debt) / rate + 1 < 2 ^ 63

instance (rate debt : Int) : (c : Call) → Decidable (c.Within rate debt)
  | .tryReserve _ _      => inferInstanceAs (Decidable (_ ≤ _))
  | .reserveOrWait _ _ _ => inferInstanceAs (Decidable (_ ∧ _))

lemma Bounded.waitForChecked_eq (h : b.Bounded rate capacity debt) {costTokens : Int}
    (hlt : b.tokens < costTokens * kScale)
    (hneed : costTokens * kNano + debt + kAcc + rate < 2 ^ 63) :
    b.waitForChecked (costTokens * kScale - b.tokens) =
      some (b.waitFor (costTokens * kScale - b.tokens)) := by
  have hrate := h.wellFormed.rate_pos
  have hacc := h.wellFormed.acc_lt
  have hnonneg := h.wellFormed.acc_nonneg
  have hcontent := h.le_content
  have hrate_eq := h.rate_eq
  have hscaled : 0 < (costTokens * kScale - b.tokens) * kAcc - b.acc ∧
      (costTokens * kScale - b.tokens) * kAcc + b.rate < 2 ^ 63 := by
    simp only [content, kNano, kAcc, kScale] at *
    omega
  rw [waitForChecked, waitFor, if_neg (not_le.2 hrate), if_neg (not_le.2 hrate)]
  simp only [Option.bind_eq_bind, Option.pure_def]
  rw [checked_bind (by omega) (by omega), checked_bind (by omega) (by omega),
    if_neg (not_le.2 hscaled.1), if_neg (not_le.2 hscaled.1), checked_bind (by omega) (by omega),
    checked_bind (by omega) (by omega)]

/-- The wait ends within what the deficit and the debt take to accrue. -/
lemma Bounded.waitFor_le (h : b.Bounded rate capacity debt) {costTokens : Int}
    (hlt : b.tokens < costTokens * kScale) :
    b.waitFor (costTokens * kScale - b.tokens) ≤ (costTokens * kNano + debt) / rate + 1 := by
  have hrate := h.wellFormed.rate_pos
  have hcontent := h.le_content
  rw [waitFor_le_iff h.wellFormed.carried hrate hlt, ← h.rate_eq]
  have hdiv := Int.lt_mul_ediv_self_add (x := costTokens * kNano + debt) hrate
  have hexpand : b.rate * ((costTokens * kNano + debt) / b.rate + 1) =
      b.rate * ((costTokens * kNano + debt) / b.rate) + b.rate := by
    ring
  omega

section

variable (h : b.Bounded rate capacity debt) (hcapacity : 0 ≤ capacity) (hdebt : 0 ≤ debt)
  (hroom : capacity * kNano + debt + kAcc < 2 ^ 63)
include h hcapacity hdebt hroom

lemma Bounded.tryReserve {costTokens now : Int} (hnow : now < 2 ^ 63)
    (hcost : 0 ≤ costTokens) (hcost_lt : costTokens < 2 ^ 31) :
    ∃ b', b.callChecked (.tryReserve costTokens now) = some b' ∧
      b'.Bounded rate capacity debt := by
  have href := h.refill now
  obtain ⟨-, -, -, htokens⟩ := href.room_lt hcapacity hdebt hroom
  simp only [callChecked, tryReserveChecked, h.refillChecked_eq hcapacity hdebt hroom hnow,
    Option.bind_eq_bind, Option.pure_def, Option.bind_some]
  set b' := b.refill now
  rw [checked_bind (by simp only [kScale]; omega) (by simp only [kScale]; omega)]
  by_cases hle : b'.tokens ≥ costTokens * kScale
  · rw [if_pos hle,
      checked_bind (by simp only [kAcc, kScale] at *; omega)
        (by simp only [kAcc, kScale] at *; omega)]
    exact ⟨b'.taken costTokens, rfl,
      href.taken hcost (href.wellFormed.carried.paid_of_le hdebt hle)⟩
  · rw [if_neg hle]
    exact ⟨b', rfl, href⟩

lemma Bounded.reserveOrWait {costTokens now deadline : Int} (hnow : InInt64 now)
    (hcost_lt : costTokens < 2 ^ 31)
    (hwithin : (Call.reserveOrWait costTokens now deadline).Within rate debt) :
    ∃ b', b.callChecked (.reserveOrWait costTokens now deadline) = some b' ∧
      b'.Bounded rate capacity debt := by
  obtain ⟨hcost, hdeadline, hneed, hready⟩ := hwithin
  have href := h.refill now
  have hcarried := href.wellFormed.carried
  have hrate := href.wellFormed.rate_pos
  obtain ⟨-, -, hlow, htokens⟩ := href.room_lt hcapacity hdebt hroom
  have hrefill := h.refillChecked_eq hcapacity hdebt hroom hnow.2
  set b' := b.refill now with hb'
  simp only [callChecked, reserveOrWaitChecked, hrefill, Option.bind_eq_bind, Option.pure_def,
    Option.bind_some]
  rw [checked_bind (by simp only [kScale]; omega) (by simp only [kScale]; omega)]
  by_cases hle : b'.tokens ≥ costTokens * kScale
  · rw [if_pos hle,
      checked_bind (by simp only [kAcc, kScale] at *; omega)
        (by simp only [kAcc, kScale] at *; omega)]
    exact ⟨b'.taken costTokens, rfl, href.taken hcost (hcarried.paid_of_le hdebt hle)⟩
  · have hlt := not_le.1 hle
    have hwait := href.waitFor_le hlt
    have hwait_pos := waitFor_pos hcarried hrate hlt
    rw [if_neg hle,
      checked_bind (by simp only [kAcc, kScale] at *; omega)
        (by simp only [kAcc, kScale] at *; omega),
      href.waitForChecked_eq hlt hneed, Option.bind_some,
      if_neg (not_le.2 hrate), checked_bind (by have := hnow.1; omega) (by omega)]
    by_cases hrefused : now + b'.waitFor (costTokens * kScale - b'.tokens) > deadline ∨
        b'.waitFor (costTokens * kScale - b'.tokens) < 0
    · rw [if_pos hrefused]
      exact ⟨b', rfl, href⟩
    · -- What is taken accrues by the deadline, so the debt is no more than that.
      have hpaid := (waitFor_le_iff hcarried hrate hlt).1
        (by omega : _ ≤ deadline - now)
      rw [href.rate_eq] at hpaid
      rw [if_neg hrefused,
        checked_bind (by simp only [kAcc, kScale] at *; omega)
          (by simp only [kAcc, kScale] at *; omega)]
      exact ⟨b'.taken costTokens, rfl, href.taken hcost (by omega)⟩

/-- No operation of a call within the bounds overflows, and the bounds hold after it. -/
lemma Bounded.call {c : Call} (hnow : InInt64 c.now) (hcost_lt : c.cost < 2 ^ 31)
    (hwithin : c.Within rate debt) :
    ∃ b', b.callChecked c = some b' ∧ b'.Bounded rate capacity debt := by
  cases c with
  | tryReserve costTokens now =>
    exact h.tryReserve hcapacity hdebt hroom hnow.2 hwithin hcost_lt
  | reserveOrWait costTokens now deadline =>
    exact h.reserveOrWait hcapacity hdebt hroom hnow hcost_lt hwithin

end

lemma Bounded.calls (h : b.Bounded rate capacity debt) (hcapacity : 0 ≤ capacity)
    (hdebt : 0 ≤ debt) (hroom : capacity * kNano + debt + kAcc < 2 ^ 63) {cs : List Call}
    (hcs : ∀ c ∈ cs, InInt64 c.now ∧ c.cost < 2 ^ 31 ∧ c.Within rate debt) :
    ∃ b', b.callsChecked cs = some b' ∧ b'.Bounded rate capacity debt := by
  induction cs generalizing b with
  | nil => exact ⟨b, rfl, h⟩
  | cons c cs ih =>
    obtain ⟨hnow, hcost, hwithin⟩ := hcs c List.mem_cons_self
    obtain ⟨b₁, hcall, hb₁⟩ := h.call hcapacity hdebt hroom hnow hcost hwithin
    obtain ⟨b₂, hcalls, hb₂⟩ := ih hb₁ (fun c hc => hcs c (List.mem_cons_of_mem _ hc))
    refine ⟨b₂, ?_, hb₂⟩
    rw [callsChecked, List.foldlM_cons, hcall]
    exact hcalls

lemma Bounded.tokens_le_cap (h : b.Bounded rate capacity debt) : b.tokens ≤ b.cap := by
  have hle := h.wellFormed.le_cap
  have hnonneg := h.wellFormed.acc_nonneg
  simp only [kAcc] at hle
  omega

/-- Whatever is called, the bucket of accepted limits computes without overflow and holds no more
than its capacity. -/
def Safe (lim : BucketLimit) (cs : List Call) : Prop :=
  ∃ b, newChecked lim.refillRate lim.bucketCapacity = some b ∧
    ∀ cs', cs' <+: cs → ∃ b', b.callsChecked cs' = some b' ∧ b'.tokens ≤ b'.cap

/-- The check of the limits itself does not overflow on limits whose capacity leaves this room. -/
theorem safe_of_within {lim : AccountLimits} (hlim : limitsInvariantError lim = none)
    {l : BucketLimit} (hl : l = lim.read ∨ l = lim.write)
    {parse : List Char → Option Json} {json : List Char} {cs : List Call}
    (hcosts : ∀ c ∈ cs, ∃ method path,
      c.cost = (parseEndpointCosts parse json).costFor method path)
    (htimes : ∀ c ∈ cs, InInt64 c.now) {debt : Int} (hdebt : 0 ≤ debt)
    (hroom : l.bucketCapacity * kNano + debt + kAcc < 2 ^ 63)
    (hwithin : ∀ c ∈ cs, c.Within l.refillRate debt) : Safe l cs := by
  obtain ⟨hread, hwrite⟩ := (limitsInvariantError_eq_none_iff lim).1 hlim
  have haccepted : 0 < l.refillRate ∧ l.refillRate.tdiv 2 ≤ l.bucketCapacity := by
    rcases hl with rfl | rfl
    · obtain ⟨hrate, hlow, -⟩ := (BucketLimit.invariantError_eq_none_iff _ _).1 hread
      exact ⟨hrate, hlow⟩
    · obtain ⟨hrate, hlow, -⟩ := (BucketLimit.invariantError_eq_none_iff _ _).1 hwrite
      exact ⟨hrate, hlow⟩
  obtain ⟨hrate, hlow⟩ := haccepted
  have hcapacity : 0 ≤ l.bucketCapacity := le_trans (Int.tdiv_nonneg hrate.le (by decide)) hlow
  have hnew : newChecked l.refillRate l.bucketCapacity =
      some (new l.refillRate l.bucketCapacity) := by
    rw [newChecked, Option.bind_eq_bind, checked_bind]
    · rfl
    all_goals
      simp only [kNano, kAcc, kScale] at *
      omega
  have hbounded : (new l.refillRate l.bucketCapacity).Bounded l.refillRate l.bucketCapacity debt :=
    ⟨wellFormed_new hrate, rfl, rfl, le_rfl, by simp only [content, new, kAcc, kScale]; omega⟩
  have hcs : ∀ c ∈ cs, InInt64 c.now ∧ c.cost < 2 ^ 31 ∧ c.Within l.refillRate debt := by
    intro c hc
    obtain ⟨method, path, hcost⟩ := hcosts c hc
    refine ⟨htimes c hc, ?_, hwithin c hc⟩
    rw [hcost]
    exact (costFor_parseEndpointCosts_bounds parse json method path).2
  refine ⟨_, hnew, fun cs' hcs' => ?_⟩
  obtain ⟨b', hcalls, hb'⟩ := hbounded.calls hcapacity hdebt hroom
    (fun c hc => hcs c (hcs'.subset hc))
  exact ⟨b', hcalls, hb'.tokens_le_cap⟩

theorem safe_of_within_default_cost :
    Safe ⟨10, 20⟩ [.reserveOrWait 10 5 5, .reserveOrWait 10 6 6, .reserveOrWait 10 7 1000000007,
      .tryReserve 10 2000000000] :=
  @safe_of_within ⟨⟨10, 20⟩, ⟨10, 20⟩⟩
    ((limitsInvariantError_eq_none_iff _).2 ⟨(BucketLimit.invariantError_eq_none_iff _ _).2
      (by decide), (BucketLimit.invariantError_eq_none_iff _ _).2 (by decide)⟩)
    _ (.inl rfl) (fun _ => none) [] _
    (by
      have hcost : (parseEndpointCosts (fun _ => none) []).costFor .get [] = 10 := by decide
      simp only [List.forall_mem_cons]
      exact ⟨⟨_, _, hcost.symm⟩, ⟨_, _, hcost.symm⟩, ⟨_, _, hcost.symm⟩, ⟨_, _, hcost.symm⟩,
        by simp⟩)
    (by decide) 10000000000 (by decide) (by decide) (by decide)

/-- A capacity that the check of the limits accepts overflows as the bucket is built, and a cost
below zero, which the parser of the costs lets through, fills the bucket above its capacity. -/
theorem safe_fails_on_accepted_limits :
    (limitsInvariantError ⟨⟨10 ^ 16, 10 ^ 16⟩, ⟨10 ^ 16, 10 ^ 16⟩⟩ = none ∧
        InInt64 (10 ^ 16 * 10) ∧ ¬ Safe ⟨10 ^ 16, 10 ^ 16⟩ []) ∧
      (limitsInvariantError ⟨⟨10, 20⟩, ⟨10, 20⟩⟩ = none ∧
        (parseEndpointCosts (fun _ => some (.obj [("default_cost".toList, .num ['-', '5'])]))
          "\x7b\"default_cost\":-5\x7d".toList).costFor .get [] = -5 ∧
        ¬ Safe ⟨10, 20⟩ [.tryReserve (-5) 1]) := by
  refine ⟨⟨?_, by decide, ?_⟩, ?_, by decide, ?_⟩
  · simp only [limitsInvariantError_eq_none_iff, BucketLimit.invariantError_eq_none_iff]
    decide
  · rintro ⟨b, hnew, -⟩
    have hnone : newChecked (10 ^ 16) (10 ^ 16) = none := by decide
    rw [hnone] at hnew
    cases hnew
  · simp only [limitsInvariantError_eq_none_iff, BucketLimit.invariantError_eq_none_iff]
    decide
  · rintro ⟨b, hnew, hcalls⟩
    obtain rfl : new 10 20 = b := Option.some.inj hnew
    obtain ⟨b', hcall, hle⟩ := hcalls _ List.prefix_rfl
    obtain rfl : { new 10 20 with tokens := 25000, lastNs := 1 } = b' := Option.some.inj hcall
    exact absurd hle (by decide)

end TokenBucketI64

end HftBot
