import HftBot.Core.Bucket
import HftBot.Rest.TokenBucket

/-!
# Conformance of the token bucket

Counted in parts of 10^-9 token, tokens and carry together are the level of a bucket with debt:
saturation, carry and rounded waits of the source are its refill, its level and its ready times,
exactly. So the reservations of any calls conform to the bucket of the server.
-/

namespace HftBot

open HftBot.Core

namespace TokenBucketI64

/-! ### Calls -/

inductive Call where
  | tryReserve (costTokens nowNs : Int)
  | reserveOrWait (costTokens nowNs deadlineNs : Int)
deriving DecidableEq, Repr

namespace Call

def cost : Call → Int
  | tryReserve costTokens _      => costTokens
  | reserveOrWait costTokens _ _ => costTokens

def now : Call → Int
  | tryReserve _ nowNs      => nowNs
  | reserveOrWait _ nowNs _ => nowNs

end Call

/-- The wait of a granted reservation. A reservation without debt is used at once. -/
def call (b : TokenBucketI64) : Call → Option Int × TokenBucketI64
  | .tryReserve costTokens nowNs =>
    let (granted, b) := b.tryReserve costTokens nowNs
    (if granted then some 0 else none, b)
  | .reserveOrWait costTokens nowNs deadlineNs =>
    let (r, b) := b.reserveOrWait costTokens nowNs deadlineNs
    (if r.granted then some r.waitNs else none, b)

/-- The granted reservations of a list of calls: their costs in tokens and the times at which the
    caller may use them. -/
def grants : TokenBucketI64 → List Call → List Grant
  | _, []      => []
  | b, c :: cs =>
    match b.call c with
    | (some waitNs, b') => ⟨c.cost, c.now + waitNs⟩ :: grants b' cs
    | (none, b')        => grants b' cs

/-! ### The bucket with debt -/

/-- Parts of 10^-9 token in one token. -/
def kNano : Int := kScale * kAcc

def nanos (b : TokenBucketI64) : Bucket := ⟨b.tokens * kAcc + b.acc, b.lastNs⟩

/-- The carry stays below a thousandth and the bucket below its capacity. -/
structure WellFormed (b : TokenBucketI64) : Prop where
  rate_pos   : 0 < b.rate
  acc_nonneg : 0 ≤ b.acc
  acc_lt     : b.acc < kAcc
  le_cap     : b.tokens * kAcc + b.acc ≤ b.cap * kAcc

lemma wellFormed_new {rate capacity : Int} (hrate : 0 < rate) : (new rate capacity).WellFormed where
  rate_pos   := hrate
  acc_nonneg := le_rfl
  acc_lt     := by simp [new, kAcc]
  le_cap     := by simp [new]

variable {b : TokenBucketI64}

/-- A refill never changes what the bucket is configured to. -/
@[simp] lemma refill_rate (now : Int) : (b.refill now).rate = b.rate := by
  grind [refill]

@[simp] lemma refill_cap (now : Int) : (b.refill now).cap = b.cap := by
  grind [refill]

/-- Time that has passed fills in the rate times it, up to the capacity. -/
lemma nanos_refill_of_lt {now : Int} (h : b.WellFormed) (hlt : b.lastNs < now) :
    (b.refill now).WellFormed ∧
      (b.refill now).nanos =
        ⟨min (b.cap * kAcc) (b.tokens * kAcc + b.acc + b.rate * (now - b.lastNs)), now⟩ := by
  obtain ⟨hrate, hnonneg, hacc, hle⟩ := h
  have hpos : 0 < b.rate * (now - b.lastNs) := by
    apply mul_pos hrate
    omega
  rw [refill, if_neg (not_le.2 hlt)]
  dsimp only
  rw [if_neg (not_le.2 hrate)]
  set filled := b.rate * (now - b.lastNs) with hfilled
  set headroom := (b.cap - b.tokens) * kAcc - b.acc with hheadroom
  have hroom : headroom = b.cap * kAcc - (b.tokens * kAcc + b.acc) := by
    rw [hheadroom]
    ring
  rw [Int.tdiv_eq_ediv_of_nonneg (by omega : 0 ≤ headroom),
    Int.tdiv_eq_ediv_of_nonneg (by omega : 0 ≤ b.acc + filled)]
  -- The test on the elapsed time is the test whether it fills the bucket.
  have hdiv : now - b.lastNs ≥ headroom / b.rate + 1 ↔ headroom < filled := by
    have hmul := Int.le_ediv_iff_mul_le (a := now - b.lastNs) (b := headroom) hrate
    rw [mul_comm, ← hfilled] at hmul
    omega
  have hcarry := Int.emod_add_mul_ediv (b.acc + filled) kAcc
  have hcarry_nonneg := Int.emod_nonneg (b.acc + filled) (by decide : kAcc ≠ 0)
  have hcarry_lt := Int.emod_lt_of_pos (b.acc + filled) (by decide : 0 < kAcc)
  split_ifs with hfull hsat hover
  all_goals simp only [kAcc] at *
  · refine ⟨⟨hrate, le_rfl, by simp [kAcc], ?_⟩, ?_⟩
    all_goals simp only [nanos, kAcc, Bucket.mk.injEq, and_true]
    all_goals omega
  · refine ⟨⟨hrate, le_rfl, by simp [kAcc], by simp [kAcc]⟩, ?_⟩
    simp only [nanos, kAcc, Bucket.mk.injEq, and_true]
    omega
  · omega
  · refine ⟨⟨hrate, ?_, ?_, ?_⟩, ?_⟩
    all_goals simp only [nanos, kAcc, Bucket.mk.injEq, and_true]
    all_goals omega

/-- The refill of the source, with its carry and its early saturation, fills in the rate times the
    elapsed time and nothing else. -/
lemma nanos_refill (h : b.WellFormed) (now : Int) :
    (b.refill now).WellFormed ∧
      (b.refill now).nanos = b.nanos.refill b.rate (b.cap * kAcc) now := by
  rcases lt_or_ge b.lastNs now with hlt | hge
  · obtain ⟨hwf, heq⟩ := nanos_refill_of_lt h hlt
    refine ⟨hwf, heq.trans ?_⟩
    rw [Bucket.refill, if_neg (by exact not_le.2 hlt)]
    rfl
  · rw [Bucket.refill, if_pos (by exact hge), refill, if_pos hge]
    exact ⟨h, rfl⟩

/-- The bucket after a reservation. -/
def taken (b : TokenBucketI64) (costTokens : Int) : TokenBucketI64 :=
  { b with tokens := b.tokens - costTokens * kScale }

lemma WellFormed.taken (h : b.WellFormed) {costTokens : Int} (hcost : 0 ≤ costTokens) :
    (b.taken costTokens).WellFormed := by
  obtain ⟨hrate, hnonneg, hacc, hle⟩ := h
  refine ⟨hrate, hnonneg, hacc, ?_⟩
  simp only [TokenBucketI64.taken, kAcc, kScale] at *
  omega

lemma nanos_taken (costTokens : Int) :
    (b.taken costTokens).nanos = b.nanos.take (costTokens * kNano) := by
  simp only [nanos, taken, Bucket.take, kNano, Bucket.mk.injEq, and_true]
  ring

/-- The wait of the source ends when the debt of the reservation is paid. -/
lemma add_waitFor (h : b.WellFormed) {costTokens : Int} (hdebt : b.tokens < costTokens * kScale)
    (now : Int) :
    now + b.waitFor (costTokens * kScale - b.tokens) =
      (b.taken costTokens).nanos.readyAt b.rate now := by
  have hlevel : (b.taken costTokens).nanos.level =
      -((costTokens * kScale - b.tokens) * kAcc - b.acc) := by
    simp only [nanos, taken]
    ring
  have hneed : 0 < (costTokens * kScale - b.tokens) * kAcc - b.acc := by
    have := h.acc_lt
    simp only [kAcc, kScale] at *
    omega
  have hrate := h.rate_pos
  rw [waitFor, if_neg (not_le.2 hrate)]
  dsimp only
  rw [if_neg (not_le.2 hneed), Bucket.readyAt, hlevel, Int.tdiv_eq_ediv_of_nonneg (by omega),
    neg_neg, max_eq_right hneed.le]

/-- A call refills the bucket; a granted one takes its cost and is used when its debt is paid. -/
lemma call_cases (h : b.WellFormed) (c : Call) (b' : TokenBucketI64) (hb' : b' = b.refill c.now) :
    b.call c = (none, b') ∨
      ∃ waitNs, b.call c = (some waitNs, b'.taken c.cost) ∧
        c.now + waitNs = (b'.taken c.cost).nanos.readyAt b.rate c.now := by
  have hwf : b'.WellFormed := hb' ▸ (nanos_refill h c.now).1
  have hrate : b'.rate = b.rate := by rw [hb', refill_rate]
  -- A reservation that the tokens cover is used at once.
  have hcovered : c.cost * kScale ≤ b'.tokens →
      c.now + 0 = (b'.taken c.cost).nanos.readyAt b.rate c.now := by
    intro hle
    rw [add_zero, Bucket.readyAt_of_nonneg h.rate_pos]
    have := hwf.acc_nonneg
    simp only [nanos, taken, kAcc] at *
    omega
  cases c with
  | tryReserve costTokens nowNs =>
    simp only [Call.now, Call.cost] at hb' hcovered ⊢
    by_cases hle : b'.tokens ≥ costTokens * kScale
    · exact .inr ⟨0, by simp [call, tryReserve, taken, ← hb', hle], hcovered hle⟩
    · exact .inl (by simp [call, tryReserve, ← hb', hle])
  | reserveOrWait costTokens nowNs deadlineNs =>
    simp only [Call.now, Call.cost] at hb' hcovered ⊢
    by_cases hle : b'.tokens ≥ costTokens * kScale
    · exact .inr ⟨0, by simp [call, reserveOrWait, taken, ← hb', hle], hcovered hle⟩
    · have hwait := add_waitFor hwf (not_le.1 hle) nowNs
      rw [hrate] at hwait
      by_cases hrefused : b'.rate ≤ 0 ∨
          nowNs + b'.waitFor (costTokens * kScale - b'.tokens) > deadlineNs ∨
          b'.waitFor (costTokens * kScale - b'.tokens) < 0
      · left
        simp only [call, reserveOrWait, ← hb', if_neg hle, if_pos hrefused]
        rfl
      · right
        refine ⟨_, ?_, hwait⟩
        simp only [call, reserveOrWait, ← hb', if_neg hle, if_neg hrefused]
        rfl

/-! ### Runs -/

/-- What the calls ask of the bucket with debt. -/
def requests : TokenBucketI64 → List Call → List Request
  | _, []      => []
  | b, c :: cs =>
    ⟨c.now, c.cost * kNano, (b.call c).1.isSome⟩ :: requests (b.call c).2 cs

lemma requests_now (b : TokenBucketI64) (cs : List Call) :
    (b.requests cs).map (·.now) = cs.map (·.now) := by
  induction cs generalizing b with
  | nil => rfl
  | cons c cs ih => simp [requests, ih]

lemma requests_cost (b : TokenBucketI64) (cs : List Call) :
    (b.requests cs).map (·.cost) = cs.map fun c => c.cost * kNano := by
  induction cs generalizing b with
  | nil => rfl
  | cons c cs ih => simp [requests, ih]

/-- A grant in parts of 10^-9 token. -/
def nanoGrant (g : Grant) : Grant := ⟨g.cost * kNano, g.ready⟩

/-- The grants of the source are those of the bucket with debt. -/
theorem grants_eq_serve (h : b.WellFormed) {cs : List Call} (hcost : ∀ c ∈ cs, 0 ≤ c.cost) :
    (b.grants cs).map nanoGrant =
      b.nanos.serve b.rate (b.cap * kAcc) (b.requests cs) := by
  induction cs generalizing b with
  | nil => rfl
  | cons c cs ih =>
    have hcs : ∀ c' ∈ cs, 0 ≤ c'.cost := fun c' hc' => hcost c' (List.mem_cons_of_mem c hc')
    obtain ⟨hwf, hnanos⟩ := nanos_refill h c.now
    rw [requests, Bucket.serve, ← hnanos]
    rcases call_cases h c _ rfl with hnone | ⟨waitNs, hsome, hready⟩
    · have hrest := ih hwf hcs
      rw [refill_rate, refill_cap] at hrest
      simp [grants, hnone, hrest]
    · have hrest := ih (hwf.taken (hcost c (by simp))) hcs
      simp only [taken, refill_rate, refill_cap] at hrest
      simp [grants, nanoGrant, hsome, ← nanos_taken, hready, taken, hrest]

lemma requests_inOrder {cs : List Call} {t : Int}
    (hsorted : cs.Pairwise fun c c' => c.now ≤ c'.now) (hstart : ∀ c ∈ cs, t ≤ c.now)
    (hcost : ∀ c ∈ cs, 0 ≤ c.cost) (b : TokenBucketI64) : Bucket.InOrder t (b.requests cs) := by
  refine ⟨?_, ?_, ?_⟩
  · have hnows : ((b.requests cs).map (·.now)).Pairwise (· ≤ ·) := by
      rw [requests_now]
      exact List.pairwise_map.2 hsorted
    exact List.pairwise_map.1 hnows
  · intro r hr
    have hmem := List.mem_map_of_mem (f := (·.now)) hr
    rw [requests_now, List.mem_map] at hmem
    obtain ⟨c, hc, heq⟩ := hmem
    exact heq ▸ hstart c hc
  · intro r hr
    have hmem := List.mem_map_of_mem (f := (·.cost)) hr
    rw [requests_cost, List.mem_map] at hmem
    obtain ⟨c, hc, heq⟩ := hmem
    rw [← heq]
    exact mul_nonneg (hcost c hc) (by decide)

lemma requests_cost_le {cs : List Call} {capacity : Int} (hcost : ∀ c ∈ cs, c.cost ≤ capacity)
    (b : TokenBucketI64) : ∀ r ∈ b.requests cs, r.cost ≤ capacity * kNano := by
  intro r hr
  have hmem := List.mem_map_of_mem (f := (·.cost)) hr
  rw [requests_cost, List.mem_map] at hmem
  obtain ⟨c, hc, heq⟩ := hmem
  rw [← heq]
  exact mul_le_mul_of_nonneg_right (hcost c hc) (by decide)

lemma spent_nanos (gs : List Grant) :
    Bucket.spent (gs.map nanoGrant) = Bucket.spent gs * kNano := by
  induction gs with
  | nil => rfl
  | cons g gs ih =>
    rw [List.map_cons, Bucket.spent_cons, Bucket.spent_cons, ih, nanoGrant]
    ring

/-- Whatever the calls of a new bucket, their deadlines and their order, the ready times of the
    granted reservations never go back, and from one reservation to any later one no more is spent
    than the capacity, the refill between their ready times and the refill of one nanosecond. -/
theorem grants_conform {rate capacity : Int} (hrate : 0 < rate) {cs : List Call}
    (hsorted : cs.Pairwise fun c c' => c.now ≤ c'.now)
    (hcost : ∀ c ∈ cs, 0 ≤ c.cost ∧ c.cost ≤ capacity) :
    ((new rate capacity).grants cs).Pairwise (fun g g' => g.ready ≤ g'.ready) ∧
      ∀ (first : Grant) (later : List Grant),
        first :: later <:+: (new rate capacity).grants cs →
          Bucket.spent (first :: later) * 10 ^ 9 ≤
            capacity * 10 ^ 9 +
              rate * (((first :: later).getLast (by simp)).ready - first.ready) + rate := by
  -- Calls may be timed before the clock of a new bucket.
  obtain ⟨t, ht, hstart⟩ : ∃ t : Int, t ≤ 0 ∧ ∀ c ∈ cs, t ≤ c.now := by
    cases cs with
    | nil => exact ⟨0, le_rfl, by simp⟩
    | cons c cs =>
      refine ⟨min 0 c.now, min_le_left _ _, ?_⟩
      intro c' hc'
      rcases List.mem_cons.1 hc' with rfl | hc'
      · exact min_le_right _ _
      · exact (min_le_right _ _).trans ((List.pairwise_cons.1 hsorted).1 c' hc')
  have hwf : (new rate capacity).WellFormed := wellFormed_new hrate
  have hcap : (new rate capacity).cap * kAcc = capacity * kNano := by
    simp only [new, kNano]
    ring
  have hasked : (new rate capacity).nanos.AskedAt (capacity * kNano) t := by
    refine ⟨?_, ht⟩
    rw [← hcap]
    exact hwf.le_cap
  have hserve := grants_eq_serve hwf fun c hc => (hcost c hc).1
  rw [hcap, show (new rate capacity).rate = rate from rfl] at hserve
  have horder := requests_inOrder hsorted hstart (fun c hc => (hcost c hc).1) (new rate capacity)
  have hle := requests_cost_le (fun c hc => (hcost c hc).2) (new rate capacity)
  constructor
  · have hpairwise := Bucket.serve_sorted hrate hasked horder
    rw [← hserve, List.pairwise_map] at hpairwise
    exact hpairwise
  · intro first later hwindow
    have hinfix := hwindow.map nanoGrant
    rw [hserve] at hinfix
    have hspent := Bucket.spent_window_le hrate hasked horder hle hinfix
    simp only [← List.map_cons, List.getLast_map, spent_nanos] at hspent
    exact hspent

/-- A second request that the first leaves no tokens for waits half a second. -/
theorem grants_conform_debt :
    (new 10 20).grants [.tryReserve 15 0, .reserveOrWait 10 0 1000000000] =
        [⟨15, 0⟩, ⟨10, 500000000⟩] ∧
      (25 : Int) * 10 ^ 9 ≤ 20 * 10 ^ 9 + 10 * (500000000 - 0) + 10 := by
  have hgrants : (new 10 20).grants [.tryReserve 15 0, .reserveOrWait 10 0 1000000000] =
      [⟨15, 0⟩, ⟨10, 500000000⟩] := by decide
  refine ⟨hgrants, ?_⟩
  have hconform := (@grants_conform 10 20 (by decide)
    [.tryReserve 15 0, .reserveOrWait 10 0 1000000000] (by decide) (by decide)).2
    ⟨15, 0⟩ [⟨10, 500000000⟩]
  rw [hgrants] at hconform
  exact hconform List.infix_rfl

end TokenBucketI64

end HftBot
