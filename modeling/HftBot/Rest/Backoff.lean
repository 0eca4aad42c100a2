import HftBot.Rest.RequestSpec
import Mathlib.Algebra.Ring.Int.Defs
import Mathlib.Algebra.Ring.Nat

/-!
# Backoff and retry decisions

`backoff.hpp`: the seeded, capped exponential backoff and the retry matrix, a pure function of the
mutation kind, the outcome and the attempts left.
-/

namespace HftBot

/-! ### Backoff -/

/-- The jitter comes from a splitmix64 generator. -/
structure Backoff where
  state  : UInt64
  baseMs : Int
  capMs  : Int
deriving DecidableEq, Repr

namespace Backoff

def golden : UInt64 := 0x9E3779B97F4A7C15

/-- The generator of a zero seed starts at the golden constant. -/
def new (seed : UInt64) (baseMs : Int := 200) (capMs : Int := 5000) : Backoff :=
  { state := if seed ≠ 0 then seed else golden, baseMs, capMs }

/-- One step of splitmix64. -/
def next (b : Backoff) : UInt64 × Backoff :=
  let state := b.state + golden
  let z := (state ^^^ (state >>> 30)) * 0xBF58476D1CE4E5B9
  let z := (z ^^^ (z >>> 27)) * 0x94D049BB133111EB
  (z ^^^ (z >>> 31), { b with state })

/-- The 64-bit shift wraps around. -/
def delayMs (b : Backoff) (attempt : Nat) : Int × Backoff :=
  let exp :=
    if attempt < 31 then
      let shifted := (b.baseMs * 2 ^ attempt).bmod (2 ^ 64)
      if shifted < b.capMs then shifted else b.capMs
    else b.capMs
  if exp ≤ 0 then (0, b)
  else
    let half   := exp.tdiv 2
    let span   := exp - half
    let (z, b) := b.next
    (half + (z.toNat % (span + 1).toNat : Nat), b)

end Backoff

/-! ### Retry decisions -/

structure RetryDecision where
  retry           : Bool := false
  needsReconcile  : Bool := false
  accountingDrift : Bool := false
  reason          : String := ""
deriving DecidableEq, Repr

/-- Writes that a blind resend would duplicate. -/
def isNonidempotentWrite (m : MutationKind) : Bool :=
  m = .createOrder || m = .amendOrder || m = .orderGroup || m = .quote

/-- The status is zero for a transport error. -/
def decideRetry (_method : Method) (mutation : MutationKind) (httpStatus : Int)
    (transportError : Bool) (attempt : Nat) (maxAttempts : Int) : RetryDecision :=
  let haveAttempt := decide ((attempt : Int) + 1 < maxAttempts)
  let ambiguous   := transportError || httpStatus = 502 || httpStatus = 503 || httpStatus = 504
  if httpStatus = 429 then
    { accountingDrift := true, retry := haveAttempt
      reason := "429 rejected (unexpected: retry after wait, refresh costs)" }
  else if ambiguous then
    if isNonidempotentWrite mutation then
      { needsReconcile := true
        reason := "ambiguous write outcome -> reconcile via client_order_id, never blind retry" }
    else
      { retry := haveAttempt
        reason := "ambiguous but idempotent (GET/cancel) -> retry" }
  else
    { reason := "non-retryable status" }

section

variable (method : Method) (m : MutationKind) (attempt : Nat) (maxAttempts : Int)

/-- A transport error is retried, with attempts left, unless the write is not idempotent. -/
lemma decideRetry_transport :
    (decideRetry method m 0 true attempt maxAttempts).needsReconcile = isNonidempotentWrite m ∧
      (decideRetry method m 0 true attempt maxAttempts).retry =
        (decide ((attempt : Int) + 1 < maxAttempts) && !isNonidempotentWrite m) := by
  cases h : isNonidempotentWrite m <;> simp [decideRetry, h]

/-- A 429 is retried whatever the write. -/
lemma decideRetry_rejected :
    (decideRetry method m 429 false attempt maxAttempts).needsReconcile = false ∧
      (decideRetry method m 429 false attempt maxAttempts).retry =
        decide ((attempt : Int) + 1 < maxAttempts) := by
  simp [decideRetry]

/-- A gateway error is treated like a transport error. -/
lemma decideRetry_gateway {status : Int} (h : status = 502 ∨ status = 503 ∨ status = 504) :
    (decideRetry method m status false attempt maxAttempts).needsReconcile =
        isNonidempotentWrite m ∧
      (decideRetry method m status false attempt maxAttempts).retry =
        (decide ((attempt : Int) + 1 < maxAttempts) && !isNonidempotentWrite m) := by
  rcases h with rfl | rfl | rfl <;> cases h : isNonidempotentWrite m <;> simp [decideRetry, h]

end

end HftBot
