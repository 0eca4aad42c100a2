import HftBot.Rest.ReserveFirst
import Mathlib.Data.List.TakeWhile

/-!
# Routing of requests

Three functions add and remove the prefix, the query and the leading slash of a path: what is
classified and costed is what is signed and sent exactly when the path starts with a slash. The
classification goes by the segments of a path, and by the method only on some of them, so that some
reads are taken for writes.
-/

namespace HftBot

open HftBot.Core

/-! ### Paths -/

lemma stripQuery_append {p : List Char} (hp : '?' ∉ p) (q : List Char) :
    stripQuery (p ++ q) = p ++ stripQuery q := by
  apply List.takeWhile_append_of_pos
  intro c hc
  exact decide_eq_true (ne_of_mem_of_not_mem hc hp)

lemma query_not_mem_kWirePrefix : '?' ∉ kWirePrefix := by decide

lemma query_not_mem_stripQuery (path : List Char) : '?' ∉ stripQuery path := by
  intro hmem
  have hne := List.mem_takeWhile_imp hmem
  exact absurd rfl (of_decide_eq_true hne)

lemma stripQuery_of_not_mem {path : List Char} (h : '?' ∉ path) : stripQuery path = path := by
  have hempty : stripQuery [] = [] := rfl
  have happend := stripQuery_append h []
  rwa [hempty, List.append_nil] at happend

/-- The prefix ends before any query. -/
lemma isPrefixOf_stripQuery (path : List Char) :
    kWirePrefix.isPrefixOf (stripQuery path) = kWirePrefix.isPrefixOf path := by
  rw [Bool.eq_iff_iff, List.isPrefixOf_iff_prefix, List.isPrefixOf_iff_prefix]
  constructor
  · intro h
    exact h.trans (List.takeWhile_prefix _)
  · rintro ⟨rest, rfl⟩
    rw [stripQuery_append query_not_mem_kWirePrefix]
    exact List.prefix_append _ _

lemma normalizeEndpointPath_append (rest : List Char) :
    normalizeEndpointPath (kWirePrefix ++ rest) = kWirePrefix ++ stripQuery rest := by
  have hprefix : kWirePrefix.isPrefixOf (kWirePrefix ++ rest) :=
    List.isPrefixOf_iff_prefix.2 (List.prefix_append _ _)
  simp only [normalizeEndpointPath, isPrefixOf_stripQuery, hprefix, if_true]
  exact stripQuery_append query_not_mem_kWirePrefix rest

lemma clientPath_append (rest : List Char) : clientPath (kWirePrefix ++ rest) = rest := by
  have hprefix : kWirePrefix.isPrefixOf (kWirePrefix ++ rest) :=
    List.isPrefixOf_iff_prefix.2 (List.prefix_append _ _)
  rw [clientPath, stripWirePrefix, if_pos hprefix, List.drop_left]

/-- A normalized path is the prefix and a path without query. -/
lemma normalizeEndpointPath_eq (raw : List Char) :
    ∃ rest, '?' ∉ rest ∧ normalizeEndpointPath raw = kWirePrefix ++ rest := by
  rw [normalizeEndpointPath]
  split_ifs with hprefix hslash
  · obtain ⟨rest, hrest⟩ := List.isPrefixOf_iff_prefix.1 hprefix
    refine ⟨rest, fun hmem => query_not_mem_stripQuery raw ?_, hrest.symm⟩
    rw [← hrest]
    exact List.mem_append_right _ hmem
  · exact ⟨stripQuery raw, query_not_mem_stripQuery raw, by rw [List.append_nil]⟩
  · refine ⟨'/' :: stripQuery raw, ?_, by rw [List.append_assoc, List.singleton_append]⟩
    rw [List.mem_cons, not_or]
    exact ⟨by decide, query_not_mem_stripQuery raw⟩

lemma normalizeEndpointPath_idem (raw : List Char) :
    normalizeEndpointPath (normalizeEndpointPath raw) = normalizeEndpointPath raw := by
  obtain ⟨rest, hquery, heq⟩ := normalizeEndpointPath_eq raw
  rw [heq, normalizeEndpointPath_append, stripQuery_of_not_mem hquery]

/-- The path that is signed is the one that is costed for a path that starts with a slash, and only
for such a path. -/
lemma append_stripQuery_clientPath_iff (raw : List Char) :
    kWirePrefix ++ stripQuery (clientPath raw) = normalizeEndpointPath raw ↔
      raw.head? = some '/' := by
  by_cases hprefix : kWirePrefix.isPrefixOf raw
  · obtain ⟨rest, rfl⟩ := List.isPrefixOf_iff_prefix.1 hprefix
    rw [clientPath_append, normalizeEndpointPath_append]
    exact ⟨fun _ => rfl, fun _ => rfl⟩
  · have hhead : (stripQuery raw).head? = some '/' ↔ raw.head? = some '/' := by
      cases raw with
      | nil => rfl
      | cons c cs =>
        by_cases hc : c = '?'
        · subst hc
          simp [stripQuery]
        · simp [stripQuery, hc]
    simp only [clientPath, stripWirePrefix, normalizeEndpointPath, isPrefixOf_stripQuery, hprefix,
      hhead, Bool.false_eq_true, if_false]
    split_ifs with hslash
    · simp [hslash]
    · simp only [hslash, iff_false]
      intro heq
      have hlength := congrArg List.length heq
      simp only [List.length_append, List.length_singleton] at hlength
      omega

/-- What is signed and sent for a raw path is, up to its query, the path that is classified and
costed, and to normalize it once more changes nothing. -/
structure PathAgreement (cfg : Config) (raw : List Char) : Prop where
  signed     : ∀ nowMs method costs, signedMessage cfg nowMs method (clientPath raw) =
    (toString nowMs).toList ++ (methodString method).toList ++
      (makeRequestSpec method raw costs).normalizedPath
  sent       : ∀ sign nowMs method costs body request,
    signRequest sign cfg nowMs method (clientPath raw) body = .ok request →
      ∃ path, request.url = cfg.baseUrl ++ path ∧
        stripQuery path = (makeRequestSpec method raw costs).normalizedPath
  idempotent : normalizeEndpointPath (normalizeEndpointPath raw) = normalizeEndpointPath raw

theorem pathAgreement_iff {cfg : Config} (hcfg : cfg.apiPrefix = kWirePrefix) (raw : List Char) :
    PathAgreement cfg raw ↔ raw.head? = some '/' := by
  rw [← append_stripQuery_clientPath_iff]
  constructor
  · intro h
    have hsigned := h.signed 0 .get {}
    rw [signedMessage, hcfg, List.append_assoc, List.append_assoc, List.append_assoc] at hsigned
    exact List.append_cancel_left (List.append_cancel_left hsigned)
  · intro heq
    refine ⟨?_, ?_, normalizeEndpointPath_idem raw⟩
    · intro nowMs method costs
      rw [signedMessage, hcfg, List.append_assoc, heq]
      rfl
    · intro sign nowMs method costs body request hrequest
      rw [signRequest] at hrequest
      split at hrequest
      · cases hrequest
      · obtain rfl := Except.ok.inj hrequest
        refine ⟨cfg.apiPrefix ++ clientPath raw, List.append_assoc _ _ _, ?_⟩
        rw [hcfg, stripQuery_append query_not_mem_kWirePrefix, heq]
        rfl

theorem pathAgreement_full_wire_path :
    PathAgreement {} "/trade-api/v2/markets?limit=5".toList :=
  (pathAgreement_iff (rfl : ({} : Config).apiPrefix = kWirePrefix) _).2 rfl

/-- Without a slash the request is costed as `/trade-api/v2/markets` and signed and sent as
`/trade-api/v2markets`. -/
theorem pathAgreement_missing_slash : ¬ PathAgreement {} "markets".toList := by
  intro h
  have hsigned := h.signed 0 .get {}
  exact absurd hsigned (by decide)

/-! ### Classification -/

/-- One of the segments in the list is a segment of the path. -/
def HasSegOf (names : List String) (path : List Char) : Prop :=
  ∃ name ∈ names, hasSeg (segs path) name

instance (names : List String) (path : List Char) : Decidable (HasSegOf names path) :=
  inferInstanceAs (Decidable (∃ _ ∈ _, _))

/-- The segments of requests that change orders, groups of orders or quotes. -/
def mutationSegs : List String := ["orders", "order_groups", "rfqs", "quotes"]

/-- The segments of requests that are charged as writes. -/
def writeSegs : List String := mutationSegs ++ ["block_trades"]

/-- The paths that are taken for a write whatever the method. -/
def TakenForWrite (path : List Char) : Prop :=
  HasSegOf ["order_groups", "rfqs", "quotes"] path ∨
    HasSegOf ["orders"] path ∧ HasSegOf ["batched", "amend", "decrease"] path

lemma classify_get_iff (path : List Char) :
    classify .get path = (.read, .none) ↔ ¬ TakenForWrite path := by
  simp only [classify, TakenForWrite, HasSegOf, List.mem_cons, List.not_mem_nil, or_false,
    exists_eq_or_imp, exists_eq_left]
  split_ifs <;> simp_all

section

variable {method : Method} (hget : method ≠ .get) {path : List Char}
include hget

lemma classify_of_hasSegOf_writeSegs (h : HasSegOf writeSegs path) :
    (classify method path).1 = .write := by
  simp only [HasSegOf, writeSegs, mutationSegs, List.cons_append, List.nil_append, List.mem_cons,
    List.not_mem_nil, or_false, exists_eq_or_imp, exists_eq_left] at h
  simp only [classify]
  cases method with
  | get => exact absurd rfl hget
  | post => split_ifs <;> simp_all
  | put => split_ifs <;> simp_all
  | delete => split_ifs <;> simp_all

lemma classify_of_hasSegOf_mutationSegs (h : HasSegOf mutationSegs path) :
    (classify method path).2 ≠ .none := by
  simp only [HasSegOf, mutationSegs, List.mem_cons, List.not_mem_nil, or_false, exists_eq_or_imp,
    exists_eq_left] at h
  simp only [classify]
  cases method with
  | get => exact absurd rfl hget
  | post => split_ifs <;> simp_all
  | put => split_ifs <;> simp_all
  | delete => split_ifs <;> simp_all

end

lemma classify_of_not_hasSegOf (method : Method) {path : List Char}
    (h : ¬ HasSegOf writeSegs path) : classify method path = (.read, .none) := by
  simp only [HasSegOf, writeSegs, mutationSegs, List.cons_append, List.nil_append, List.mem_cons,
    List.not_mem_nil, or_false, exists_eq_or_imp, exists_eq_left, not_or] at h
  obtain ⟨horders, hgroups, hrfqs, hquotes, hblock⟩ := h
  simp [classify, horders, hgroups, hrfqs, hquotes, hblock]

/-- Neither the order of the segments nor how often they occur matters. -/
lemma classify_congr (method : Method) {path path' : List Char}
    (h : ∀ s, s ∈ segs path' ↔ s ∈ segs path) : classify method path' = classify method path := by
  have hseg (want : String) : hasSeg (segs path') want = hasSeg (segs path) want := by
    rw [Bool.eq_iff_iff, hasSeg, hasSeg, List.contains_iff_mem, List.contains_iff_mem]
    exact h _
  simp only [classify, hseg]

/-! ### The executor -/

namespace RequestExecutor

section

variable {w : World} {x : RequestExecutor} {spec : RequestSpec} {body : List Char}

/-- No record of the call tells of a reconciliation, nor will the next one. -/
structure LoopState.Unambiguous (s : LoopState) : Prop where
  outcome : s.tel.outcome ≠ .reconcile
  records : ∀ record, .telemetry record ∈ s.events → record.outcome ≠ .reconcile

lemma LoopState.Unambiguous.emitAll {s : LoopState} (h : s.Unambiguous) {es : List SendEvent}
    (hes : ∀ record, .telemetry record ∈ es → record.outcome ≠ .reconcile) :
    (s.emitAll es).Unambiguous where
  outcome := h.outcome
  records := by
    intro record hmem
    rcases List.mem_append.1 hmem with hold | hnew
    · exact h.records record hold
    · exact hes record hnew

lemma LoopState.Unambiguous.emit {s : LoopState} (h : s.Unambiguous) {e : SendEvent}
    (he : ∀ record, e = .telemetry record → record.outcome ≠ .reconcile) :
    (s.emit e).Unambiguous := by
  apply h.emitAll
  intro record hmem
  exact he record (List.mem_singleton.1 hmem).symm

lemma LoopState.Unambiguous.emit_ite {s : LoopState} (h : s.Unambiguous) {c : Prop} [Decidable c]
    {e : SendEvent} (he : ∀ record, e = .telemetry record → record.outcome ≠ .reconcile) :
    (if c then s.emit e else s).Unambiguous := by
  split_ifs
  · exact h.emit he
  · exact h

lemma LoopState.Unambiguous.finish {s : LoopState} (h : s.Unambiguous) {outcome : Outcome}
    (houtcome : outcome ≠ .reconcile) : (s.finish outcome).Unambiguous :=
  ⟨houtcome, h.records⟩

lemma LoopState.Unambiguous.backOff {s : LoopState} (h : s.Unambiguous) (attempt : Nat) :
    (s.backOff attempt).Unambiguous := by
  have hsame : { s with backoff := (s.backoff.delayMs attempt).2 }.Unambiguous :=
    ⟨h.outcome, h.records⟩
  exact hsame.emit (by simp)

variable (hm : isNonidempotentWrite spec.mutation = false)
include hm

lemma LoopState.Unambiguous.onTransportError {s : LoopState} (h : s.Unambiguous) (attempt : Nat)
    (err : Error) : (onTransportError x spec attempt err s).2.Unambiguous := by
  obtain ⟨hreconcile, -⟩ :=
    decideRetry_transport spec.method spec.mutation attempt x.policy.maxAttempts
  have hsame : { s with last := mapTransportError err }.Unambiguous := ⟨h.outcome, h.records⟩
  simp only [RequestExecutor.onTransportError, hreconcile, hm, Bool.false_eq_true, if_false]
  split_ifs
  · exact hsame.backOff attempt
  · exact hsame.finish (by simp)

lemma LoopState.Unambiguous.onResponse {s : LoopState} (h : s.Unambiguous) (attempt : Nat)
    (resp : Response) : (onResponse w x spec attempt resp s).2.Unambiguous := by
  by_cases hretry : resp.status = 429 || transientHttp resp.status
  · have hreconcile : (decideRetry spec.method spec.mutation resp.status false attempt
        x.policy.maxAttempts).needsReconcile = false := by
      by_cases hrejected : resp.status = 429
      · rw [hrejected]
        exact (decideRetry_rejected _ _ _ _).1
      · have hgateway : resp.status = 502 ∨ resp.status = 503 ∨ resp.status = 504 := by
          simpa [transientHttp, hrejected, or_assoc] using hretry
        exact (decideRetry_gateway _ _ _ _ hgateway).1.trans hm
    simp only [RequestExecutor.onResponse, hretry, hreconcile, Bool.false_eq_true, if_true,
      if_false]
    set s₁ : LoopState := { s with
      last := parseKalshiError w.parse resp
      tel  := { s.tel with httpStatus := resp.status } } with hs₁
    have hparsed : s₁.Unambiguous := ⟨h.outcome, h.records⟩
    have hdrift := hparsed.emit_ite (c := resp.status = 429 ∧ (decideRetry spec.method spec.mutation
      resp.status false attempt x.policy.maxAttempts).accountingDrift)
      (e := .accountingDrift spec.method spec.normalizedPath) (by simp)
    have hseen := hdrift.emit_ite (c := resp.retryAfterMs ≥ 0)
      (e := .retryAfterSeen resp.retryAfterMs) (by simp)
    split_ifs at hseen ⊢
    all_goals first
      | exact hseen.backOff attempt
      | exact hseen.finish (by simp)
  · rw [Bool.not_eq_true] at hretry
    simp only [RequestExecutor.onResponse, hretry, Bool.false_eq_true, if_false]
    refine ⟨?_, h.records⟩
    simp only [LoopState.finish]
    split_ifs <;> simp

lemma LoopState.Unambiguous.attemptOnce {s : LoopState} (h : s.Unambiguous) (attempt : Nat) :
    (attemptOnce w x spec body attempt s).2.Unambiguous := by
  have hsame : { s with tel := { s.tel with attempts := attempt + 1 } }.Unambiguous :=
    ⟨h.outcome, h.records⟩
  cases hsign : signAttempt w x spec.method spec.rawPath body attempt with
  | error err =>
    simp only [RequestExecutor.attemptOnce, hsign]
    exact ⟨h.outcome, h.records⟩
  | ok request =>
    have hwire : ∀ record, .telemetry record ∈
        transferEvents request (sendAttempt w x attempt request) → record.outcome ≠ .reconcile := by
      simp [transferEvents]
    have hsent := hsame.emitAll hwire
    simp only [RequestExecutor.attemptOnce, hsign]
    cases (sendAttempt w x attempt request).reply with
    | error err => exact hsent.onTransportError hm attempt err
    | ok resp => exact hsent.onResponse hm attempt resp

lemma LoopState.Unambiguous.attempts (n attempt : Nat) {s : LoopState} (h : s.Unambiguous) :
    (attempts w x spec body n attempt s).2.Unambiguous := by
  induction n generalizing attempt s with
  | zero => exact h
  | succ n ih =>
    have honce : (RequestExecutor.attemptOnce w x spec body attempt s).2.Unambiguous :=
      h.attemptOnce hm attempt
    rw [RequestExecutor.attempts]
    split
    · next heq =>
      rw [heq] at honce
      exact ih _ honce
    · next heq =>
      rw [heq] at honce
      exact honce
    · next heq =>
      rw [heq] at honce
      exact honce

end

section

variable (w : World) (x : RequestExecutor) (method : Method) (path body : List Char)
  (opts : SendOpts)

/-- A request that a resend would not duplicate is never reported for reconciliation. -/
lemma outcome_ne_reconcile
    (hm : isNonidempotentWrite (makeRequestSpec method path x.costs).mutation = false)
    {record : RequestTelemetry}
    (hmem : .telemetry record ∈ (x.send w method path body opts).events) :
    record.outcome ≠ .reconcile := by
  have hconclude {y : RequestExecutor} {resp : Option Response} {s : LoopState}
      (h : s.Unambiguous) (hmem : .telemetry record ∈ (conclude y resp s).events) :
      record.outcome ≠ .reconcile := by
    cases resp with
    | some resp => exact (h.emit (by simp [h.outcome])).records record hmem
    | none =>
      simp only [conclude] at hmem
      split_ifs at hmem
      · have hdone : (s.finish .error).Unambiguous := h.finish (by simp)
        exact (hdone.emit (by simp [hdone.outcome])).records record hmem
      · exact (h.emit (by simp [h.outcome])).records record hmem
  rcases hres : reserve w x method path opts with ⟨res, bucket⟩
  cases hgranted : res.granted with
  | false =>
    simp only [send, hres, hgranted, Bool.not_false, if_true, List.mem_singleton,
      SendEvent.telemetry.injEq] at hmem
    simp [hmem]
  | true =>
    simp only [send, hres, hgranted, Bool.not_true, Bool.false_eq_true, if_false] at hmem
    refine hconclude (LoopState.Unambiguous.attempts hm _ _ ⟨by simp, ?_⟩) hmem
    intro record hmem
    split_ifs at hmem <;> simp at hmem

/-- The loop asks for more than the retry matrix does: after a transport failure it goes on only if
the code of the failure is a transient one. -/
lemma resent_iff (hm : isNonidempotentWrite (makeRequestSpec method path x.costs).mutation = false)
    {k : Nat} {r : Reply} (hr : (replies (x.send w method path body opts).events)[k]? = some r) :
    k + 1 < (replies (x.send w method path body opts).events).length ↔
      (k : Int) + 1 < x.policy.maxAttempts ∧ (r.Rejected ∨ r.TransientlyAmbiguous) ∧
        attemptReply w x method path body (k + 1) ≠ none := by
  have hretried : retried (makeRequestSpec method path x.costs).mutation r ↔
      r.Rejected ∨ r.TransientlyAmbiguous := by
    rw [← retried_and_ambiguous_iff hm, ← retried_and_not_ambiguous_iff, ← and_or_left,
      or_comm, and_iff_left (em _)]
  have hbudget : k + 1 < x.policy.maxAttempts.toNat ↔ (k : Int) + 1 < x.policy.maxAttempts := by
    omega
  rw [replies_send] at hr ⊢
  split at hr
  · next hgranted =>
    rw [if_pos hgranted, ← hretried, ← hbudget]
    have hmade := Retry.getElem?_outcomes_eq_some_iff.1 hr
    have hlt {l : List Reply} : k + 1 < l.length ↔ ∃ s, l[k + 1]? = some s := by
      rw [← Option.isSome_iff_exists, isSome_getElem?]
    simp only [hlt, Retry.getElem?_outcomes_eq_some_iff, hmade.next_iff, Nat.zero_add,
      Option.ne_none_iff_exists', exists_and_left]
  · simp at hr

/-- The bucket that is not charged stays as it is. -/
lemma bucketOf_send_of_ne {kind : BucketKind}
    (hne : kind ≠ (makeRequestSpec method path x.costs).bucket) :
    (x.send w method path body opts).executor.bucketOf kind = x.bucketOf kind := by
  have hset (b : TokenBucketI64) {kind' : BucketKind} (h : kind ≠ kind') :
      (x.setBucket b kind').bucketOf kind = x.bucketOf kind := by
    cases kind <;> cases kind' <;> first | rfl | exact absurd rfl h
  have hconclude (y : RequestExecutor) (resp : Option Response) (s : LoopState) :
      (conclude y resp s).executor = y := by
    cases resp <;> rfl
  rcases hres : reserve w x method path opts with ⟨res, bucket⟩
  cases hgranted : res.granted with
  | false =>
    simp only [send, hres, hgranted, Bool.not_false, if_true]
    exact hset bucket hne
  | true =>
    simp only [send, hres, hgranted, Bool.not_true, Bool.false_eq_true, if_false, hconclude]
    exact hset bucket hne

end

/-- Calls with that path take their cost from that bucket and leave the other alone. -/
def ChargedTo (kind : BucketKind) (method : Method) (path : List Char) : Prop :=
  ∀ (w : World) (x : RequestExecutor) (raw body : List Char) (opts : SendOpts),
    normalizeEndpointPath raw = path →
      (∃ deadline, (x.send w method raw body opts).executor.bucketOf kind =
        ((x.bucketOf kind).reserveOrWait (costOf x method raw opts) w.monoNs deadline).2) ∧
      ∀ other, other ≠ kind →
        (x.send w method raw body opts).executor.bucketOf other = x.bucketOf other

lemma chargedTo_classify (method : Method) (path : List Char) :
    ChargedTo (classify method path).1 method path := by
  rintro w x raw body opts rfl
  exact ⟨⟨_, chargedBucket_send w x method raw body opts⟩,
    fun other hne => bucketOf_send_of_ne w x method raw body opts hne⟩

/-- Calls with that path are never reported for reconciliation. -/
def NeverReconciled (method : Method) (path : List Char) : Prop :=
  ∀ (w : World) (x : RequestExecutor) (raw body : List Char) (opts : SendOpts)
    (record : RequestTelemetry), normalizeEndpointPath raw = path →
      .telemetry record ∈ (x.send w method raw body opts).events → record.outcome ≠ .reconcile

end RequestExecutor

open RequestExecutor

/-- The retry matrix has a transport error or a gateway error retried as long as there are attempts.
What the loop makes of that is `RequestExecutor.resent_iff`. -/
def RetriedWhenAmbiguous (method : Method) (m : MutationKind) : Prop :=
  ∀ (httpStatus : Int) (transportError : Bool) (attempt : Nat) (maxAttempts : Int),
    (httpStatus, transportError) ∈ [(0, true), (502, false), (503, false), (504, false)] →
      (decideRetry method m httpStatus transportError attempt maxAttempts).retry =
          decide ((attempt : Int) + 1 < maxAttempts) ∧
        (decideRetry method m httpStatus transportError attempt maxAttempts).needsReconcile = false

lemma retriedWhenAmbiguous_none (method : Method) : RetriedWhenAmbiguous method .none := by
  intro httpStatus transportError attempt maxAttempts hmem
  simp only [List.mem_cons, List.not_mem_nil, or_false, Prod.mk.injEq] at hmem
  rcases hmem with ⟨rfl, rfl⟩ | ⟨rfl, rfl⟩ | ⟨rfl, rfl⟩ | ⟨rfl, rfl⟩
  all_goals simp [decideRetry, isNonidempotentWrite]

/-- How a request is to be routed, by its method and the segments of its path. -/
structure BucketRouting (method : Method) (path : List Char) : Prop where
  read       : method = .get → classify method path = (.read, .none) ∧ ChargedTo .read method path
  retried    : method = .get → RetriedWhenAmbiguous method (classify method path).2
  unreported : method = .get → NeverReconciled method path
  write      : method ≠ .get → HasSegOf writeSegs path →
    (classify method path).1 = .write ∧ ChargedTo .write method path
  mutation   : method ≠ .get → HasSegOf mutationSegs path → (classify method path).2 ≠ .none
  other      : method ≠ .get → ¬ HasSegOf writeSegs path → classify method path = (.read, .none)
  segments   : ∀ path', (∀ s, s ∈ segs path' ↔ s ∈ segs path) →
    classify method path' = classify method path

theorem bucketRouting_iff (method : Method) (path : List Char) :
    BucketRouting method path ↔ ¬ (method = .get ∧ TakenForWrite path) := by
  constructor
  · rintro h ⟨rfl, htaken⟩
    exact (classify_get_iff path).1 (h.read rfl).1 htaken
  · intro h
    have hread (hget : method = .get) : classify method path = (.read, .none) := by
      subst hget
      exact (classify_get_iff path).2 fun htaken => h ⟨rfl, htaken⟩
    refine ⟨fun hget => ⟨hread hget, ?_⟩, fun hget => ?_, fun hget => ?_, fun hget hseg => ?_,
      fun hget hseg => classify_of_hasSegOf_mutationSegs hget hseg,
      fun _ hseg => classify_of_not_hasSegOf method hseg,
      fun path' hsegs => classify_congr method hsegs⟩
    · have hcharged := chargedTo_classify method path
      rwa [hread hget] at hcharged
    · rw [hread hget]
      exact retriedWhenAmbiguous_none method
    · rintro w x raw body opts record rfl
      have hmutation : (makeRequestSpec method raw x.costs).mutation = .none :=
        congrArg Prod.snd (hread hget)
      exact outcome_ne_reconcile w x method raw body opts (by rw [hmutation]; rfl)
    · have hwrite := classify_of_hasSegOf_writeSegs hget hseg
      have hcharged := chargedTo_classify method path
      rw [hwrite] at hcharged
      exact ⟨hwrite, hcharged⟩

/-- To list the order groups is charged as a write. -/
theorem bucketRouting_get_order_groups :
    ¬ BucketRouting .get "/trade-api/v2/portfolio/order_groups".toList := by
  intro h
  exact absurd (h.read rfl).1 (by decide)

end HftBot
