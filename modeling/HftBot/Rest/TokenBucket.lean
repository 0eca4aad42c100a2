import Mathlib.Data.Int.Init

/-!
# Token bucket

`token_bucket.hpp`: tokens are held in thousandths, the part of a refill below one thousandth is
carried in `acc`, and a reservation may go into debt when the wait it needs ends before its
deadline. Division is that of the source, towards zero.
-/

namespace HftBot

/-- One reservation, with the bucket before and after it in thousandths of a token. -/
structure Reservation where
  granted     : Bool := false
  waitNs      : Int := 0
  beforeMilli : Int := 0
  afterMilli  : Int := 0
  costMilli   : Int := 0
deriving DecidableEq, Repr

structure TokenBucketI64 where
  rate   : Int
  cap    : Int
  tokens : Int
  acc    : Int := 0
  lastNs : Int := 0
deriving DecidableEq, Repr

namespace TokenBucketI64

def kScale : Int := 1000

def kAcc : Int := 1000000

/-- A bucket starts full. -/
def new (refillRate capacity : Int) : TokenBucketI64 :=
  { rate := refillRate, cap := capacity * kScale, tokens := capacity * kScale }

def configure (b : TokenBucketI64) (refillRate capacity : Int) : TokenBucketI64 :=
  let cap := capacity * kScale
  { b with rate := refillRate, cap, tokens := if b.tokens > cap then cap else b.tokens }

def refill (b : TokenBucketI64) (nowNs : Int) : TokenBucketI64 :=
  if nowNs ≤ b.lastNs then b
  else
    let dt := nowNs - b.lastNs
    let b := { b with lastNs := nowNs }
    if b.rate ≤ 0 then b
    else
      let headroom := (b.cap - b.tokens) * kAcc - b.acc
      if headroom ≤ 0 then { b with acc := 0 }
      else if dt ≥ headroom.tdiv b.rate + 1 then { b with tokens := b.cap, acc := 0 }
      else
        let acc    := b.acc + b.rate * dt
        let whole  := acc.tdiv kAcc
        let tokens := b.tokens + whole
        if tokens > b.cap then { b with tokens := b.cap, acc := 0 }
        else { b with tokens, acc := acc - whole * kAcc }

/-- Nanoseconds until the deficit has accrued, rounded up. -/
def waitFor (b : TokenBucketI64) (deficitMilli : Int) : Int :=
  if b.rate ≤ 0 then -1
  else
    let accNeeded := deficitMilli * kAcc - b.acc
    if accNeeded ≤ 0 then 0 else (accNeeded + b.rate - 1).tdiv b.rate

def tryReserve (b : TokenBucketI64) (costTokens nowNs : Int) : Bool × TokenBucketI64 :=
  let b    := b.refill nowNs
  let need := costTokens * kScale
  if b.tokens ≥ need then (true, { b with tokens := b.tokens - need }) else (false, b)

def reserveOrWait (b : TokenBucketI64) (costTokens nowNs deadlineNs : Int) :
    Reservation × TokenBucketI64 :=
  let b := b.refill nowNs
  let r : Reservation := { costMilli := costTokens * kScale, beforeMilli := b.tokens }
  let taken := { b with tokens := b.tokens - r.costMilli }
  if b.tokens ≥ r.costMilli then
    ({ r with granted := true, afterMilli := taken.tokens }, taken)
  else
    let r := { r with waitNs := b.waitFor (r.costMilli - b.tokens) }
    if b.rate ≤ 0 ∨ nowNs + r.waitNs > deadlineNs ∨ r.waitNs < 0 then
      ({ r with afterMilli := b.tokens }, b)
    else
      ({ r with granted := true, afterMilli := taken.tokens }, taken)

def availableMilli (b : TokenBucketI64) (nowNs : Int) : Int × TokenBucketI64 :=
  let b := b.refill nowNs
  (b.tokens, b)

def availableTokens (b : TokenBucketI64) (nowNs : Int) : Int × TokenBucketI64 :=
  let (milli, b) := b.availableMilli nowNs
  (milli.tdiv kScale, b)

end TokenBucketI64

end HftBot
