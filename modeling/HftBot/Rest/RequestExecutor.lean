import HftBot.Core.Json
import HftBot.Rest.Backoff
import HftBot.Rest.Client
import HftBot.Rest.TokenBucket

/-!
# Request executor

`RequestExecutor::send`: classify, reserve, then attempt, sign, send and decide on a retry, with
everything that is visible from outside kept as a list of events. The JSON parser, the clocks, the
signature, the pool and the network are the fields of `World`.
-/

namespace HftBot

open HftBot.Core

inductive Outcome
  | unset | ok | httpError | rateLimited | reconcile | transportError | error
deriving DecidableEq, Repr

structure RequestTelemetry where
  tsWallNs           : Int := 0
  method             : Method := .get
  normalizedPath     : List Char := []
  bucket             : BucketKind := .read
  mutation           : MutationKind := .none
  costTokens         : Int := 0
  tokensBeforeMilli  : Int := 0
  tokensAfterMilli   : Int := 0
  waitNs             : Int := 0
  attempts           : Nat := 0
  httpStatus         : Int := 0
  outcome            : Outcome := .unset
  endpointCostSource : String := ""
  usageTier          : String := ""
  traceId            : Nat := 0
deriving DecidableEq, Repr

/-- A negative deadline or cost override means that none is given. -/
structure SendOpts where
  deadlineNs   : Int := -1
  traceId      : Nat := 0
  costOverride : Int := -1
deriving DecidableEq, Repr

structure ExecPolicy where
  maxAttempts     : Int := 4
  baseMs          : Int := 200
  maxBackoffMs    : Int := 5000
  reserveBudgetMs : Int := 30000
deriving DecidableEq, Repr

/-- What a call meets outside the program. The functions of attempts are numbered from zero; `lease`
says whether an attempt gets a connection of the pool, and `sendRequest` what the transport makes of
a request on it. -/
structure World where
  parse       : List Char → Option Json
  wallNs      : Int
  monoNs      : Int
  nowMs       : Nat → Int
  sign        : Nat → List Char → Except Error (List Char)
  lease       : Nat → Bool
  sendRequest : Nat → SignedRequest → Transfer

/-- What a call does, as seen from outside. Each `transmit` is an HTTP request that leaves the host;
an attempt may make none of them. -/
inductive SendEvent
  | sleepNs (ns : Int)
  | sleepMs (ms : Int)
  | transmit (request : SignedRequest)
  | attempted (reply : Reply)
  | accountingDrift (method : Method) (path : List Char)
  | retryAfterSeen (ms : Int)
  | telemetry (record : RequestTelemetry)

/-! ### Error mapping -/

/-- The transport failures that a retry may cure, by their code in the transport library. -/
def transientCurl (code : Int) : Bool :=
  code = 7 || code = 6 || code = 28 || code = 55 || code = 56 || code = 52 || code = 18

def transientHttp (status : Int) : Bool := status = 502 || status = 503 || status = 504

/-- The path the client gets, which adds its own prefix again. -/
def clientPath (raw : List Char) : List Char := stripWirePrefix raw

def mapTransportError (err : Error) : ApiError :=
  { kind := .transport, transportCode := err.code, message := err.message }

def parseKalshiError (parse : List Char → Option Json) (resp : Response) : ApiError :=
  let e : ApiError :=
    { kind := .http, httpStatus := resp.status
      message := "HTTP ".toList ++ (toString resp.status).toList }
  match (parse resp.body).bind Json.asObject with
  | none      => e
  | some root =>
    match Json.objectField root "error" with
    | none     => e
    | some err =>
      { e with
        kind       := .kalshi
        kalshiCode := (Json.stringField err "code").getD e.kalshiCode
        message    := (Json.stringField err "message").getD e.message }

/-! ### Executor -/

structure RequestExecutor where
  client      : Config := {}
  policy      : ExecPolicy := {}
  readBucket  : TokenBucketI64 := .new 200 200
  writeBucket : TokenBucketI64 := .new 100 100
  backoff     : Backoff
  costs       : EndpointCostTable := {}
  usageTier   : String := "basic"
deriving DecidableEq, Repr

namespace RequestExecutor

/-- An executor with the conservative limits; the backoff is seeded from the clock. -/
def new (client : Config) (policy : ExecPolicy) (monoNs : UInt64) : RequestExecutor :=
  { client, policy, backoff := .new (monoNs ||| 1) policy.baseMs policy.maxBackoffMs }

/-- What the retry loop carries from one attempt to the next. -/
structure LoopState where
  last    : ApiError := { message := "no attempt made".toList }
  tel     : RequestTelemetry
  backoff : Backoff
  events  : List SendEvent

/-- How one attempt leaves the loop body. -/
inductive Flow
  | again
  | stop
  | answer (resp : Response)

namespace LoopState

def emit (s : LoopState) (e : SendEvent) : LoopState := { s with events := s.events ++ [e] }

def emitAll (s : LoopState) (es : List SendEvent) : LoopState := { s with events := s.events ++ es }

/-- Sleep for the backoff of that attempt. -/
def backOff (s : LoopState) (attempt : Nat) : LoopState :=
  let (ms, backoff) := s.backoff.delayMs attempt
  ({ s with backoff } : LoopState).emit (.sleepMs ms)

def finish (s : LoopState) (outcome : Outcome) : LoopState :=
  { s with tel := { s.tel with outcome } }

/-- An ambiguous write: the error asks for a reconciliation. -/
def demandReconcile (s : LoopState) : LoopState :=
  { s with last := { s.last with kalshiCode := "reconcile_required".toList } }.finish .reconcile

end LoopState

/-- A transport-level failure, whose outcome is ambiguous. -/
def onTransportError (x : RequestExecutor) (spec : RequestSpec) (attempt : Nat) (err : Error)
    (s : LoopState) : Flow × LoopState :=
  let s := { s with last := mapTransportError err }
  let d := decideRetry spec.method spec.mutation 0 true attempt x.policy.maxAttempts
  if d.needsReconcile then (.stop, s.demandReconcile)
  else if d.retry && transientCurl err.code then (.again, s.backOff attempt)
  else (.stop, s.finish .transportError)

/-- An HTTP reply; only a 429 and the gateway errors may be retried. -/
def onResponse (w : World) (x : RequestExecutor) (spec : RequestSpec) (attempt : Nat)
    (resp : Response) (s : LoopState) : Flow × LoopState :=
  let s := { s with tel := { s.tel with httpStatus := resp.status } }
  if resp.status = 429 || transientHttp resp.status then
    let s := { s with last := parseKalshiError w.parse resp }
    let d := decideRetry spec.method spec.mutation resp.status false attempt x.policy.maxAttempts
    let s :=
      if resp.status = 429 ∧ d.accountingDrift then
        s.emit (.accountingDrift spec.method spec.normalizedPath)
      else s
    let s := if resp.retryAfterMs ≥ 0 then s.emit (.retryAfterSeen resp.retryAfterMs) else s
    if d.needsReconcile then (.stop, s.demandReconcile)
    else if d.retry then (.again, s.backOff attempt)
    else (.stop, s.finish .httpError)
  else (.answer resp, s.finish (if resp.ok then .ok else .httpError))

/-- The request of that attempt, signed with a fresh timestamp. -/
def signAttempt (w : World) (x : RequestExecutor) (method : Method) (path body : List Char)
    (attempt : Nat) : Except Error SignedRequest :=
  signRequest (w.sign attempt) x.client (w.nowMs attempt) method (clientPath path) body

/-- What becomes of the request of that attempt. -/
def sendAttempt (w : World) (x : RequestExecutor) (attempt : Nat) (request : SignedRequest) :
    Transfer :=
  sendSigned x.client (w.lease attempt) (w.sendRequest attempt) request

/-- What is seen of a request and of what became of it. -/
def transferEvents (request : SignedRequest) (t : Transfer) : List SendEvent :=
  List.replicate t.sent (.transmit request) ++ [.attempted t.reply]

def attemptOnce (w : World) (x : RequestExecutor) (spec : RequestSpec) (body : List Char)
    (attempt : Nat) (s : LoopState) : Flow × LoopState :=
  let s := { s with tel := { s.tel with attempts := attempt + 1 } }
  match signAttempt w x spec.method spec.rawPath body attempt with
  | .error err =>
    let last := mapTransportError err
    (.stop, { s with last := { last with message := "signing failed: ".toList ++ last.message } })
  | .ok request =>
    let t := sendAttempt w x attempt request
    let s := s.emitAll (transferEvents request t)
    match t.reply with
    | .error err => onTransportError x spec attempt err s
    | .ok resp   => onResponse w x spec attempt resp s

/-- The retry loop, with the attempts left before the one it makes next. -/
def attempts (w : World) (x : RequestExecutor) (spec : RequestSpec) (body : List Char) :
    Nat → Nat → LoopState → Option Response × LoopState
  | 0, _, s           => (none, s)
  | n + 1, attempt, s =>
    match attemptOnce w x spec body attempt s with
    | (.again, s)       => attempts w x spec body n (attempt + 1) s
    | (.stop, s)        => (none, s)
    | (.answer resp, s) => (some resp, s)

/-! ### Sending -/

structure SendResult where
  result   : Except ApiError Response
  executor : RequestExecutor
  events   : List SendEvent

def bucketOf (x : RequestExecutor) : BucketKind → TokenBucketI64
  | .read  => x.readBucket
  | .write => x.writeBucket

def setBucket (x : RequestExecutor) (b : TokenBucketI64) : BucketKind → RequestExecutor
  | .read  => { x with readBucket := b }
  | .write => { x with writeBucket := b }

/-- The reservation of a call and the bucket after it. -/
def reserve (w : World) (x : RequestExecutor) (method : Method) (path : List Char)
    (opts : SendOpts) : Reservation × TokenBucketI64 :=
  let spec := makeRequestSpec method path x.costs
  let cost := if opts.costOverride ≥ 0 then opts.costOverride else spec.costTokens
  let deadline :=
    if opts.deadlineNs ≥ 0 then opts.deadlineNs
    else w.monoNs + x.policy.reserveBudgetMs * 1000000
  (x.bucketOf spec.bucket).reserveOrWait cost w.monoNs deadline

/-- Report the call and return what the loop ended with. -/
def conclude (x : RequestExecutor) (resp : Option Response) (s : LoopState) : SendResult :=
  match resp with
  | some resp =>
    { result := .ok resp, executor := x, events := (s.emit (.telemetry s.tel)).events }
  | none      =>
    let s := if s.tel.outcome = .unset then s.finish .error else s
    { result := .error s.last, executor := x, events := (s.emit (.telemetry s.tel)).events }

def send (w : World) (x : RequestExecutor) (method : Method) (path body : List Char)
    (opts : SendOpts) : SendResult :=
  let spec := makeRequestSpec method path x.costs
  let cost := if opts.costOverride ≥ 0 then opts.costOverride else spec.costTokens
  let (res, bucket) := reserve w x method path opts
  let x := x.setBucket bucket spec.bucket
  let tel : RequestTelemetry := {
    tsWallNs           := w.wallNs
    method
    normalizedPath     := spec.normalizedPath
    bucket             := spec.bucket
    mutation           := spec.mutation
    costTokens         := cost
    tokensBeforeMilli  := res.beforeMilli
    tokensAfterMilli   := res.afterMilli
    waitNs             := res.waitNs
    endpointCostSource := if x.costs.fromServer then "server" else "default"
    usageTier          := x.usageTier
    traceId            := opts.traceId }
  if !res.granted then
    { result   := .error {
        kind       := .http
        httpStatus := 429
        kalshiCode := "rate_limited".toList
        message    := "local reservation exceeded deadline".toList }
      executor := x
      events   := [.telemetry { tel with outcome := .rateLimited }] }
  else
    let waited := if res.waitNs > 0 then [SendEvent.sleepNs res.waitNs] else []
    let (resp, s) := attempts w x spec body x.policy.maxAttempts.toNat 0
      { tel, backoff := x.backoff, events := waited }
    conclude { x with backoff := s.backoff } resp s

end RequestExecutor

end HftBot
