import HftBot.Core.Retry
import HftBot.Rest.RequestExecutor

/-!
# Writes and ambiguous outcomes

After a transport failure or a gateway error a write may or may not have been processed. The retry
loop is an instance of bounded retries, so what a call transmits is determined by what its attempts
would meet, and a resend after an ambiguous outcome can be traced back to the classification of the
path.
-/

namespace HftBot

open HftBot.Core

/-- The request may have been processed, or not. -/
def Reply.Ambiguous : Reply → Prop
  | .error _ => True
  | .ok resp => transientHttp resp.status

/-- A failure of the transport that the retry loop takes for a passing one, or a gateway error. -/
def Reply.TransientlyAmbiguous : Reply → Prop
  | .error err => transientCurl err.code
  | .ok resp   => transientHttp resp.status

/-- The request was turned away for its rate. -/
def Reply.Rejected : Reply → Prop
  | .error _ => False
  | .ok resp => resp.status = 429

/-- One of the four segments by which a path is taken for a write. -/
def NamesWrite (path : List Char) : Prop :=
  ∃ name ∈ ["orders", "order_groups", "rfqs", "quotes"],
    hasSeg (segs (normalizeEndpointPath path)) name

namespace SendEvent

@[simp] def reply? : SendEvent → Option Reply
  | .attempted reply => some reply
  | _                => none

@[simp] def request? : SendEvent → Option SignedRequest
  | .transmit request => some request
  | _                 => none

/-- A request that leaves the host, or what an attempt comes back with. -/
@[simp] def onWire : SendEvent → Bool
  | .transmit _  => true
  | .attempted _ => true
  | _            => false

end SendEvent

/-- The replies of the attempts made, in order. -/
def replies (events : List SendEvent) : List Reply := events.filterMap SendEvent.reply?

/-- The HTTP requests that leave the host, in order. -/
def requests (events : List SendEvent) : List SignedRequest := events.filterMap SendEvent.request?

/-- What is seen of the transport. -/
def wire (events : List SendEvent) : List SendEvent := events.filter SendEvent.onWire

lemma replies_wire (events : List SendEvent) : replies (wire events) = replies events := by
  simp only [replies, wire, List.filterMap_filter]
  congr 1
  funext e
  cases e <;> rfl

lemma requests_wire (events : List SendEvent) : requests (wire events) = requests events := by
  simp only [requests, wire, List.filterMap_filter]
  congr 1
  funext e
  cases e <;> rfl

/-- Whether the retry loop goes on after that reply while it has attempts left. -/
def retried (mutation : MutationKind) : Reply → Bool
  | .error err => !isNonidempotentWrite mutation && transientCurl err.code
  | .ok resp   =>
    resp.status = 429 || (!isNonidempotentWrite mutation && transientHttp resp.status)

lemma isNonidempotentWrite_makeRequestSpec {method : Method} (hget : method ≠ .get)
    (hdelete : method ≠ .delete) (path : List Char) (costs : EndpointCostTable) :
    isNonidempotentWrite (makeRequestSpec method path costs).mutation ↔ NamesWrite path := by
  have hmutation : (makeRequestSpec method path costs).mutation =
      (classify method (normalizeEndpointPath path)).2 := rfl
  rw [hmutation]
  simp only [NamesWrite, classify, List.mem_cons, List.not_mem_nil, or_false, exists_eq_or_imp,
    exists_eq_left]
  cases method with
  | get => exact absurd rfl hget
  | delete => exact absurd rfl hdelete
  | post => split_ifs <;> simp_all [isNonidempotentWrite]
  | put => split_ifs <;> simp_all [isNonidempotentWrite]

/-- Of the replies that are retried, exactly the rejected ones are not ambiguous. -/
lemma retried_and_not_ambiguous_iff {m : MutationKind} {r : Reply} :
    retried m r ∧ ¬ r.Ambiguous ↔ r.Rejected := by
  cases r with
  | error err => simp [Reply.Ambiguous, Reply.Rejected]
  | ok resp =>
    simp only [Reply.Ambiguous, Reply.Rejected, retried]
    constructor
    · rintro ⟨hretried, hambiguous⟩
      simpa [hambiguous] using hretried
    · intro h
      simp [h, transientHttp]

/-- The retry matrix never resends a write it knows of. -/
lemma not_ambiguous_of_retried {m : MutationKind} {r : Reply} (hm : isNonidempotentWrite m)
    (h : retried m r) : ¬ r.Ambiguous := by
  cases r with
  | error err => simp [retried, hm] at h
  | ok resp =>
    have hstatus : resp.status = 429 := by simpa [retried, hm] using h
    simp [Reply.Ambiguous, hstatus, transientHttp]

/-- A request without a mutation kind is resent after every passing failure. -/
lemma retried_and_ambiguous_iff {m : MutationKind} {r : Reply}
    (hm : isNonidempotentWrite m = false) :
    retried m r ∧ r.Ambiguous ↔ r.TransientlyAmbiguous := by
  cases r with
  | error err => simp [retried, hm, Reply.Ambiguous, Reply.TransientlyAmbiguous]
  | ok resp =>
    simp only [retried, hm, Reply.Ambiguous, Reply.TransientlyAmbiguous]
    constructor
    · exact And.right
    · intro h
      simp [h]

namespace RequestExecutor

/-! ### One attempt -/

section

variable (w : World) (x : RequestExecutor) (method : Method) (path body : List Char)

/-- What attempt `k` sends and what becomes of it if it is made; nothing is sent when signing
fails. -/
def attemptTransfer (k : Nat) : Option (SignedRequest × Transfer) :=
  match signAttempt w x method path body k with
  | .error _    => none
  | .ok request => some (request, sendAttempt w x k request)

/-- What attempt `k` comes back with if it is made. -/
def attemptReply (k : Nat) : Option Reply :=
  (attemptTransfer w x method path body k).map (·.2.reply)

end

variable {w : World} {x : RequestExecutor} {spec : RequestSpec} {body : List Char}

@[simp] lemma wire_emit (s : LoopState) (e : SendEvent) :
    wire (s.emit e).events = wire s.events ++ if e.onWire then [e] else [] := by
  simp [wire, LoopState.emit, List.filter_cons]

@[simp] lemma wire_emitAll (s : LoopState) (request : SignedRequest) (t : Transfer) :
    wire (s.emitAll (transferEvents request t)).events =
      wire s.events ++ transferEvents request t := by
  simp [wire, LoopState.emitAll, transferEvents, List.filter_replicate, List.filter_cons]

@[simp] lemma wire_backOff (s : LoopState) (attempt : Nat) :
    wire (s.backOff attempt).events = wire s.events := by
  simp [LoopState.backOff]

@[simp] lemma finish_events (s : LoopState) (outcome : Outcome) :
    (s.finish outcome).events = s.events := rfl

@[simp] lemma demandReconcile_events (s : LoopState) : s.demandReconcile.events = s.events := rfl

/-- How a reply leaves the loop body: on to the next attempt only if it is retried and there is one
more. -/
def Goes (x : RequestExecutor) (spec : RequestSpec) (attempt : Nat) (reply : Reply) (flow : Flow) :
    Prop :=
  flow = .again ↔ (attempt : Int) + 1 < x.policy.maxAttempts ∧ retried spec.mutation reply

lemma onTransportError_spec (attempt : Nat) (err : Error) (s : LoopState) :
    wire (onTransportError x spec attempt err s).2.events = wire s.events ∧
      Goes x spec attempt (.error err) (onTransportError x spec attempt err s).1 := by
  obtain ⟨hreconcile, hretry⟩ :=
    decideRetry_transport spec.method spec.mutation attempt x.policy.maxAttempts
  simp only [onTransportError, hreconcile, hretry, Goes, retried]
  cases isNonidempotentWrite spec.mutation with
  | true => simp
  | false =>
    simp only [Bool.not_false, Bool.and_true, Bool.false_eq_true, ↓reduceIte, Bool.true_and]
    split_ifs with h <;> simp_all

variable (w x spec) in
/-- What is noted about a passing failure is not on the wire. -/
lemma onResponse_of_transient {resp : Response} (attempt : Nat) (s : LoopState)
    (h : resp.status = 429 ∨ transientHttp resp.status) :
    ∃ s' : LoopState, wire s'.events = wire s.events ∧
      onResponse w x spec attempt resp s =
        (let d := decideRetry spec.method spec.mutation resp.status false attempt
          x.policy.maxAttempts
        if d.needsReconcile then (.stop, s'.demandReconcile)
        else if d.retry then (.again, s'.backOff attempt)
        else (.stop, s'.finish .httpError)) := by
  have hpass : (resp.status = 429 || transientHttp resp.status) = true := by simpa using h
  simp only [onResponse, hpass, ↓reduceIte]
  refine ⟨_, ?_, rfl⟩
  split_ifs <;> simp

lemma onResponse_spec (attempt : Nat) (resp : Response) (s : LoopState) :
    wire (onResponse w x spec attempt resp s).2.events = wire s.events ∧
      Goes x spec attempt (.ok resp) (onResponse w x spec attempt resp s).1 := by
  by_cases hrejected : resp.status = 429
  · obtain ⟨s', hs', heq⟩ := onResponse_of_transient w x spec attempt s (Or.inl hrejected)
    obtain ⟨hreconcile, hretry⟩ :=
      decideRetry_rejected spec.method spec.mutation attempt x.policy.maxAttempts
    simp only [heq, hrejected, hreconcile, hretry, Goes, retried, Bool.false_eq_true, ↓reduceIte]
    split_ifs with hmore <;> simp_all
  · by_cases hgateway : transientHttp resp.status
    · have hstatus : resp.status = 502 ∨ resp.status = 503 ∨ resp.status = 504 := by
        simpa [transientHttp, or_assoc] using hgateway
      obtain ⟨s', hs', heq⟩ := onResponse_of_transient w x spec attempt s (Or.inr hgateway)
      obtain ⟨hreconcile, hretry⟩ :=
        decideRetry_gateway spec.method spec.mutation attempt x.policy.maxAttempts hstatus
      simp only [heq, hrejected, hgateway, hreconcile, hretry, Goes, retried]
      cases isNonidempotentWrite spec.mutation with
      | true => simp [hs']
      | false => split_ifs <;> simp_all
    · simp [onResponse, hrejected, hgateway, Goes, retried]

lemma attemptOnce_of_none {attempt : Nat} (s : LoopState)
    (h : attemptTransfer w x spec.method spec.rawPath body attempt = none) :
    wire (attemptOnce w x spec body attempt s).2.events = wire s.events ∧
      (attemptOnce w x spec body attempt s).1 = .stop := by
  cases hsign : signAttempt w x spec.method spec.rawPath body attempt with
  | error err => simp [attemptOnce, hsign]
  | ok request => simp [attemptTransfer, hsign] at h

lemma attemptOnce_of_some {attempt : Nat} {request : SignedRequest} {t : Transfer} (s : LoopState)
    (h : attemptTransfer w x spec.method spec.rawPath body attempt = some (request, t)) :
    wire (attemptOnce w x spec body attempt s).2.events =
        wire s.events ++ transferEvents request t ∧
      Goes x spec attempt t.reply (attemptOnce w x spec body attempt s).1 := by
  cases hsign : signAttempt w x spec.method spec.rawPath body attempt with
  | error err => simp [attemptTransfer, hsign] at h
  | ok request' =>
    simp only [attemptTransfer, hsign, Option.some.injEq, Prod.mk.injEq] at h
    obtain ⟨rfl, rfl⟩ := h
    simp only [attemptOnce, hsign]
    cases (sendAttempt w x attempt request').reply with
    | error err =>
      obtain ⟨hsame, hgoes⟩ := onTransportError_spec attempt err _
      exact ⟨hsame.trans (wire_emitAll _ _ _), hgoes⟩
    | ok resp =>
      obtain ⟨hsame, hgoes⟩ := onResponse_spec attempt resp _
      exact ⟨hsame.trans (wire_emitAll _ _ _), hgoes⟩

/-! ### The whole call -/

/-- Whether the loop goes on after an attempt that came to that while it has attempts left. -/
def goesOn (mutation : MutationKind) : SignedRequest × Transfer → Bool :=
  retried mutation ∘ fun e => e.2.reply

/-- The attempts that the loop makes with `n` attempts left from `attempt` on, and what becomes of
them. -/
def transfers (w : World) (x : RequestExecutor) (spec : RequestSpec) (body : List Char) :
    Nat → Nat → List (SignedRequest × Transfer) :=
  Retry.outcomes (goesOn spec.mutation) (attemptTransfer w x spec.method spec.rawPath body)

/-- On the wire the loop does what bounded retries over the attempts do. -/
lemma wire_attempts (n attempt : Nat) (s : LoopState)
    (h : x.policy.maxAttempts.toNat = attempt + n) :
    wire (attempts w x spec body n attempt s).2.events = wire s.events ++
      (transfers w x spec body n attempt).flatMap fun e => transferEvents e.1 e.2 := by
  induction n generalizing attempt s with
  | zero => simp [attempts, transfers, Retry.outcomes]
  | succ n ih =>
    cases htransfer : attemptTransfer w x spec.method spec.rawPath body attempt with
    | none =>
      obtain ⟨hsame, hflow⟩ := attemptOnce_of_none s htransfer
      rcases hrun : attemptOnce w x spec body attempt s with ⟨flow, s'⟩
      rw [hrun] at hsame hflow
      obtain rfl : flow = .stop := hflow
      simpa [attempts, hrun, transfers, Retry.outcomes, htransfer] using hsame
    | some e =>
      obtain ⟨hsent, hflow⟩ := attemptOnce_of_some s htransfer
      rcases hrun : attemptOnce w x spec body attempt s with ⟨flow, s'⟩
      rw [hrun] at hsent hflow
      have hleft : (attempt : Int) + 1 < x.policy.maxAttempts ↔ 0 < n := by omega
      rw [Goes, hleft] at hflow
      have hrest : flow ≠ .again → (if goesOn spec.mutation e then
          transfers w x spec body n (attempt + 1) else []) = [] := by
        intro hne
        -- either the reply is not retried, or no attempt is left
        rw [Ne, hflow, not_and] at hne
        cases n with
        | zero => simp [transfers, Retry.outcomes]
        | succ n =>
          have hno : goesOn spec.mutation e = false := Bool.eq_false_iff.2 (hne n.succ_pos)
          simp [hno]
      have houtcomes : transfers w x spec body (n + 1) attempt =
          e :: if goesOn spec.mutation e then transfers w x spec body n (attempt + 1) else [] := by
        simp only [transfers, Retry.outcomes, htransfer]
      simp only [attempts, hrun, houtcomes]
      cases flow with
      | again =>
        obtain ⟨-, hretried⟩ := hflow.1 rfl
        have hgoes : goesOn spec.mutation e = true := hretried
        simp only [ih (attempt + 1) s' (by omega), hsent, hgoes]
        simp
      | stop => simpa [hrest] using hsent
      | answer resp => simpa [hrest] using hsent

section

variable (w : World) (x : RequestExecutor) (method : Method) (path body : List Char)
  (opts : SendOpts)

@[simp] lemma setBucket_policy (b : TokenBucketI64) (kind : BucketKind) :
    (x.setBucket b kind).policy = x.policy := by
  cases kind <;> rfl

@[simp] lemma setBucket_client (b : TokenBucketI64) (kind : BucketKind) :
    (x.setBucket b kind).client = x.client := by
  cases kind <;> rfl

/-- Taking tokens from a bucket changes nothing about the attempts. -/
lemma attemptTransfer_setBucket (b : TokenBucketI64) (kind : BucketKind) :
    attemptTransfer w (x.setBucket b kind) method path body =
      attemptTransfer w x method path body := by
  funext k
  simp [attemptTransfer, signAttempt, sendAttempt]

lemma wire_conclude (resp : Option Response) (s : LoopState) :
    wire (conclude x resp s).events = wire s.events := by
  cases resp with
  | some resp => simp [conclude]
  | none =>
    simp only [conclude]
    split <;> simp

/-- The attempts of a call: none without a reservation, else bounded retries. -/
lemma wire_send :
    wire (x.send w method path body opts).events =
      if (reserve w x method path opts).1.granted then
        (transfers w x (makeRequestSpec method path x.costs) body
          x.policy.maxAttempts.toNat 0).flatMap fun e => transferEvents e.1 e.2
      else [] := by
  rcases hres : reserve w x method path opts with ⟨res, bucket⟩
  cases hgranted : res.granted with
  | false => simp [send, hres, hgranted, wire]
  | true =>
    simp only [send, hres, hgranted, Bool.not_true, Bool.false_eq_true, ↓reduceIte]
    rw [wire_conclude, wire_attempts _ _ _ (Nat.zero_add _).symm, transfers,
      attemptTransfer_setBucket]
    have hwait : wire (if res.waitNs > 0 then [SendEvent.sleepNs res.waitNs] else []) = [] := by
      split <;> rfl
    rw [hwait, List.nil_append, setBucket_policy]
    rfl

lemma replies_send :
    replies (x.send w method path body opts).events =
      if (reserve w x method path opts).1.granted then
        Retry.outcomes (retried (makeRequestSpec method path x.costs).mutation)
          (attemptReply w x method path body) x.policy.maxAttempts.toNat 0
      else [] := by
  have hevents (e : SignedRequest × Transfer) :
      (transferEvents e.1 e.2).filterMap SendEvent.reply? = [e.2.reply] := by
    simp [transferEvents]
  rw [← replies_wire, wire_send]
  split
  · rw [replies, List.filterMap_flatMap]
    simp only [hevents]
    rw [← List.map_eq_flatMap]
    exact Retry.map_outcomes _ _ _ _ _
  · rfl

/-- Attempt `k` meets an ambiguous reply that the loop takes for a passing one, all attempts before
it were rejected for their rate, and attempt `k + 1` is within the budget and can be signed. -/
def OffersResend (k : Nat) : Prop :=
  (k : Int) + 1 < x.policy.maxAttempts ∧
    (∀ i < k, ∃ r ∈ attemptReply w x method path body i, r.Rejected) ∧
    (∃ r ∈ attemptReply w x method path body k, r.TransientlyAmbiguous) ∧
    attemptReply w x method path body (k + 1) ≠ none

/-- Without a mutation kind, the loop overruns an ambiguous reply exactly when it is offered one to
resend after. -/
lemma overruns_iff {m : MutationKind} (hm : isNonidempotentWrite m = false) :
    Retry.Overruns Reply.Ambiguous (retried m) (attemptReply w x method path body)
        x.policy.maxAttempts.toNat 0 ↔ ∃ k, OffersResend w x method path body k := by
  have hbudget (k : Nat) :
      k + 1 < x.policy.maxAttempts.toNat ↔ (k : Int) + 1 < x.policy.maxAttempts := by
    omega
  refine exists_congr fun k => and_congr (hbudget k) ?_
  simp only [Nat.zero_add, retried_and_not_ambiguous_iff, retried_and_ambiguous_iff hm,
    Option.mem_def]

/-- A write is never transmitted again after an ambiguous reply exactly when its path names it a
write, or it gets no reservation, or no attempt offers a resend. -/
lemma endsAt_replies_send_iff (hget : method ≠ .get) (hdelete : method ≠ .delete) :
    Retry.EndsAt Reply.Ambiguous (replies (x.send w method path body opts).events) ↔
      NamesWrite path ∨ (reserve w x method path opts).1.granted = false ∨
        ∀ k, ¬ OffersResend w x method path body k := by
  have hwrite := isNonidempotentWrite_makeRequestSpec hget hdelete path x.costs
  rw [replies_send]
  cases hgranted : (reserve w x method path opts).1.granted with
  | false => simp [Retry.endsAt_nil]
  | true =>
    simp only [↓reduceIte, Retry.endsAt_outcomes_iff, Bool.true_eq_false, false_or]
    cases hm : isNonidempotentWrite (makeRequestSpec method path x.costs).mutation with
    | true =>
      refine iff_of_true ?_ (Or.inl (hwrite.1 hm))
      rintro ⟨j, -, -, ⟨r, -, hretried, hambiguous⟩, -⟩
      exact not_ambiguous_of_retried hm hretried hambiguous
    | false =>
      have hnames : ¬ NamesWrite path := by
        rw [← hwrite, hm]
        exact Bool.false_ne_true
      rw [overruns_iff w x method path body hm, not_exists, or_iff_right hnames]

end

/-! ### Paths that are not protected -/

/-- A network in which every request is signed and answered by the same gateway error. -/
def gatewayDown : World where
  parse _         := none
  wallNs          := 0
  monoNs          := 0
  nowMs _         := 0
  sign _ m        := .ok m
  lease _         := true
  sendRequest _ _ := .answered 0 { status := 502 }

lemma gatewayDown_attemptReply (x : RequestExecutor) (method : Method) (path body : List Char)
    (k : Nat) : attemptReply gatewayDown x method path body k = some (.ok { status := 502 }) := rfl

lemma gatewayDown_granted (policy : ExecPolicy) (method : Method) (path : List Char) :
    (reserve gatewayDown (.new {} policy 0) method path { costOverride := 0 }).1.granted := by
  have hbucket (kind : BucketKind) (deadline : Int) :
      (((RequestExecutor.new {} policy 0).bucketOf kind).reserveOrWait 0 0 deadline).1.granted := by
    cases kind <;> rfl
  exact hbucket _ _

/-- Whatever the network does, a write is safe from being resent exactly when its path names it a
write or there is one attempt at most. -/
lemma forall_endsAt_replies_send_iff {method : Method} (hget : method ≠ .get)
    (hdelete : method ≠ .delete) (path : List Char) (maxAttempts : Int) :
    (∀ (w : World) (x : RequestExecutor) (body : List Char) (opts : SendOpts),
        x.policy.maxAttempts = maxAttempts →
        Retry.EndsAt Reply.Ambiguous (replies (x.send w method path body opts).events)) ↔
      NamesWrite path ∨ maxAttempts ≤ 1 := by
  constructor
  · intro h
    have hdown := h gatewayDown (.new {} { maxAttempts } 0) [] { costOverride := 0 } rfl
    rw [endsAt_replies_send_iff _ _ _ _ _ _ hget hdelete, gatewayDown_granted] at hdown
    rcases hdown with hnames | hno | hno
    · exact Or.inl hnames
    · exact absurd hno (by decide)
    · right
      by_contra hlt
      refine hno 0 ⟨?_, by simp, ⟨_, rfl, rfl⟩, by simp [gatewayDown_attemptReply]⟩
      simpa [RequestExecutor.new] using hlt
  · rintro h w x body opts rfl
    rw [endsAt_replies_send_iff _ _ _ _ _ _ hget hdelete]
    refine h.imp id fun hone => Or.inr fun k hk => ?_
    have := hk.1
    omega

/-- A POST or PUT is transmitted at most once after an ambiguous reply, call by call, and for a path
whatever the network does. -/
theorem send_at_most_once_iff {method : Method} (hget : method ≠ .get)
    (hdelete : method ≠ .delete) (path : List Char) :
    (∀ (w : World) (x : RequestExecutor) (body : List Char) (opts : SendOpts),
      Retry.EndsAt Reply.Ambiguous (replies (x.send w method path body opts).events) ↔
        NamesWrite path ∨ (reserve w x method path opts).1.granted = false ∨
          ∀ k, ¬ OffersResend w x method path body k) ∧
    ∀ maxAttempts : Int,
      (∀ (w : World) (x : RequestExecutor) (body : List Char) (opts : SendOpts),
        x.policy.maxAttempts = maxAttempts →
        Retry.EndsAt Reply.Ambiguous (replies (x.send w method path body opts).events)) ↔
      NamesWrite path ∨ maxAttempts ≤ 1 :=
  ⟨fun w x body opts => endsAt_replies_send_iff w x method path body opts hget hdelete,
    forall_endsAt_replies_send_iff hget hdelete path⟩

/-- The gateway answers the first request with an error and the second one with success. -/
def gatewayHiccup : World :=
  { gatewayDown with
    sendRequest := fun k _ => .answered 0 { status := if k = 0 then 502 else 201 } }

/-- Placing an order is not repeated after a gateway error. -/
theorem send_at_most_once_create_order :
    Retry.EndsAt Reply.Ambiguous
      (replies ((RequestExecutor.new {} {} 0).send gatewayHiccup .post
        "/portfolio/orders".toList "\x7b\x7d".toList {}).events) :=
  ((send_at_most_once_iff (by decide) (by decide) "/portfolio/orders".toList).1 _ _ _ _).2
    (Or.inl ⟨"orders", by decide, by decide +kernel⟩)

/-- A block trade is accepted a second time after a gateway error. -/
theorem send_at_most_once_block_trade :
    ¬ Retry.EndsAt Reply.Ambiguous
      (replies ((RequestExecutor.new {} {} 0).send gatewayHiccup .post
        "/portfolio/block_trades/accept".toList "\x7b\x7d".toList {}).events) := by
  intro h
  have hsent : replies ((RequestExecutor.new {} {} 0).send gatewayHiccup .post
      "/portfolio/block_trades/accept".toList "\x7b\x7d".toList {}).events =
      [.ok { status := 502 }, .ok { status := 201 }] := rfl
  have := h [] _ _ hsent rfl
  simp at this

end RequestExecutor

end HftBot
