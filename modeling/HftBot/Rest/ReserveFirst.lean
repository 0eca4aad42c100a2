import Mathlib.Algebra.Order.BigOperators.Group.List
import Mathlib.Data.Set.Function
import Mathlib.Tactic.IntervalCases
import HftBot.Rest.AtMostOnce

/-!
# Reservations and transmissions

The tokens of a call are taken once, before its first attempt, and the retry loop sends again
without another reservation. So a call pays for what it transmits exactly as long as no second
request leaves the host. An attempt that finds no connection transmits nothing.
-/

namespace HftBot

open HftBot.Core

/-- What a call does with its bucket and outside. -/
inductive TokenEvent
  | reserved (res : Reservation)
  | did (event : SendEvent)

namespace TokenEvent

/-- A request leaves the host at that place of the trace. -/
def TransmitsAt (t : List TokenEvent) (i : Nat) : Prop :=
  ∃ request, t[i]? = some (did (.transmit request))

/-- The wait that the reservation asks for, if any, was slept through. -/
def Elapsed (res : Reservation) (since : List TokenEvent) : Prop :=
  res.waitNs ≤ 0 ∨ ∃ ns, res.waitNs ≤ ns ∧ did (.sleepNs ns) ∈ since

/-- Each request transmitted has a reservation of its own before it, granted and waited for. -/
def ReservedFirst (t : List TokenEvent) : Prop :=
  ∃ own : Nat → Nat, Set.InjOn own {i | TransmitsAt t i} ∧
    ∀ i, TransmitsAt t i → own i < i ∧ ∃ res, t[own i]? = some (reserved res) ∧ res.granted ∧
      Elapsed res ((t.take i).drop (own i + 1))

variable {res : Reservation} {events : List SendEvent} {i : Nat}

lemma transmitsAt_succ_iff :
    TransmitsAt (reserved res :: events.map did) (i + 1) ↔
      ∃ e, events[i]? = some e ∧ e.request?.isSome := by
  simp only [TransmitsAt, List.getElem?_cons_succ, List.getElem?_map, Option.map_eq_some_iff]
  constructor
  · rintro ⟨request, e, he, ⟨⟩⟩
    exact ⟨_, he, rfl⟩
  · rintro ⟨e, he, hrequest⟩
    cases e <;> simp at hrequest
    exact ⟨_, _, he, rfl⟩

lemma not_transmitsAt_zero : ¬ TransmitsAt (reserved res :: events.map did) 0 := by
  simp [TransmitsAt]

lemma not_transmitsAt_of_requests_eq_nil (h : requests events = []) :
    ¬ TransmitsAt (reserved res :: events.map did) i := by
  cases i with
  | zero => exact not_transmitsAt_zero
  | succ i =>
    rw [transmitsAt_succ_iff]
    rintro ⟨e, he, hrequest⟩
    rw [requests, List.filterMap_eq_nil_iff] at h
    rw [h e (List.mem_of_getElem? he)] at hrequest
    exact Bool.false_ne_true hrequest

/-- At most one element of a list is kept by `filterMap` exactly when it stands at one place. -/
lemma length_filterMap_le_one_iff {α β : Type*} (f : α → Option β) (l : List α) :
    (l.filterMap f).length ≤ 1 ↔
      ∀ i j : Nat, (∃ a, l[i]? = some a ∧ (f a).isSome) → (∃ a, l[j]? = some a ∧ (f a).isSome) →
        i = j := by
  induction l with
  | nil => simp
  | cons a l ih =>
    cases hf : f a with
    | none =>
      rw [List.filterMap_cons_none hf, ih]
      constructor
      · rintro h (- | i) (- | j) hi hj
        · rfl
        · simp [hf] at hi
        · simp [hf] at hj
        · exact congrArg _ (h i j hi hj)
      · intro h i j hi hj
        exact Nat.succ_injective (h (i + 1) (j + 1) hi hj)
    | some b =>
      rw [List.filterMap_cons_some hf, List.length_cons]
      constructor
      · intro h
        have hnil : l.filterMap f = [] := by
          rw [← List.length_eq_zero_iff]
          omega
        rw [List.filterMap_eq_nil_iff] at hnil
        -- nothing is kept beyond the head
        have hrest : ∀ i : Nat, ¬ ∃ c, l[i]? = some c ∧ (f c).isSome := by
          rintro i ⟨c, hc, hsome⟩
          simp [hnil c (List.mem_of_getElem? hc)] at hsome
        rintro (- | i) (- | j) hi hj
        · rfl
        · exact absurd hj (hrest j)
        · exact absurd hi (hrest i)
        · exact absurd hi (hrest i)
      · intro h
        have hnil : l.filterMap f = [] := by
          rw [List.filterMap_eq_nil_iff]
          intro c hc
          by_contra hne
          obtain ⟨i, hi⟩ := List.getElem?_of_mem hc
          have := h 0 (i + 1) ⟨a, rfl, by simp [hf]⟩ ⟨c, hi, Option.isSome_iff_ne_none.2 hne⟩
          omega
        simp [hnil]

variable (res) in
lemma length_requests_le_one_iff :
    (requests events).length ≤ 1 ↔
      ∀ i j, TransmitsAt (reserved res :: events.map did) i →
        TransmitsAt (reserved res :: events.map did) j → i = j := by
  rw [requests, length_filterMap_le_one_iff]
  constructor
  · rintro h (- | i) (- | j) hi hj
    · rfl
    · exact absurd hi not_transmitsAt_zero
    · exact absurd hj not_transmitsAt_zero
    · rw [transmitsAt_succ_iff] at hi hj
      exact congrArg _ (h i j hi hj)
  · intro h i j hi hj
    exact Nat.succ_injective
      (h (i + 1) (j + 1) (transmitsAt_succ_iff.2 hi) (transmitsAt_succ_iff.2 hj))

/-- With one reservation, waited for before anything else, there may be one transmission. -/
lemma reservedFirst_iff (hgranted : res.granted)
    (hwait : 0 < res.waitNs → ∃ rest, events = .sleepNs res.waitNs :: rest) :
    ReservedFirst (reserved res :: events.map did) ↔ (requests events).length ≤ 1 := by
  rw [length_requests_le_one_iff res]
  constructor
  · rintro ⟨own, hinj, hown⟩ i j hi hj
    -- the only reservation is the first event
    have hzero : ∀ k, TransmitsAt (reserved res :: events.map did) k → own k = 0 := by
      intro k hk
      obtain ⟨-, r, hr, -⟩ := hown k hk
      cases h : own k with
      | zero => rfl
      | succ n => simp [h] at hr
    exact hinj hi hj ((hzero i hi).trans (hzero j hj).symm)
  · intro h
    refine ⟨fun _ => 0, fun i hi j hj _ => h i j hi hj, fun i hi => ?_⟩
    cases i with
    | zero => exact absurd hi not_transmitsAt_zero
    | succ i =>
      refine ⟨i.succ_pos, res, rfl, hgranted, ?_⟩
      by_cases hlt : 0 < res.waitNs
      · obtain ⟨rest, rfl⟩ := hwait hlt
        cases i with
        | zero => simp [TransmitsAt] at hi
        | succ i => exact Or.inr ⟨res.waitNs, Int.le_refl _, by simp⟩
      · exact Or.inl (Int.not_lt.1 hlt)

end TokenEvent

/-- A sum is at most one exactly if there is no second unit in it, at another place or the same. -/
lemma sum_le_one_iff {l : List Nat} :
    l.sum ≤ 1 ↔ ∀ (k n : Nat), l[k]? = some n →
      n ≤ 1 ∧ (0 < n → ∀ j < k, ∀ m : Nat, l[j]? = some m → m = 0) := by
  induction l with
  | nil => simp
  | cons a l ih =>
    rw [List.sum_cons]
    constructor
    · intro hsum k n hk
      cases k with
      | zero =>
        obtain rfl : a = n := by simpa using hk
        exact ⟨by omega, fun _ j hj => absurd hj (Nat.not_lt_zero j)⟩
      | succ k =>
        rw [List.getElem?_cons_succ] at hk
        obtain ⟨hle, hbefore⟩ := ih.1 (by omega) k n hk
        refine ⟨hle, fun hpos j hj m hm => ?_⟩
        cases j with
        | zero =>
          obtain rfl : a = m := by simpa using hm
          have hn : n ≤ l.sum := List.le_sum_of_mem (List.mem_of_getElem? hk)
          omega
        | succ j => exact hbefore hpos j (Nat.lt_of_succ_lt_succ hj) m (by simpa using hm)
    · intro h
      have ha : a ≤ 1 := (h 0 a rfl).1
      have hl : l.sum ≤ 1 := by
        refine ih.2 fun k n hk => ⟨(h (k + 1) n hk).1, fun hpos j hj m hm => ?_⟩
        exact (h (k + 1) n hk).2 hpos (j + 1) (Nat.succ_lt_succ hj) m hm
      by_cases hzero : a = 0
      · omega
      · have hrest : l.sum = 0 := by
          rw [List.sum_eq_zero_iff]
          intro n hn
          obtain ⟨k, hk⟩ := List.mem_iff_getElem?.1 hn
          by_contra hne
          exact hzero ((h (k + 1) n hk).2 (Nat.pos_of_ne_zero hne) 0 k.succ_pos a rfl)
        omega

namespace RequestExecutor

open TokenEvent

/-! ### Events are only appended -/

section

variable {w : World} {x : RequestExecutor} {spec : RequestSpec} {body : List Char}

lemma prefix_emit (s : LoopState) (e : SendEvent) : s.events <+: (s.emit e).events :=
  List.prefix_append _ _

lemma prefix_onTransportError (attempt : Nat) (err : Error) (s : LoopState) :
    s.events <+: (onTransportError x spec attempt err s).2.events := by
  simp only [onTransportError]
  split_ifs
  · exact List.prefix_rfl
  · exact prefix_emit _ _
  · exact List.prefix_rfl

lemma prefix_onResponse (attempt : Nat) (resp : Response) (s : LoopState) :
    s.events <+: (onResponse w x spec attempt resp s).2.events := by
  simp only [onResponse]
  split_ifs <;>
    simp [LoopState.demandReconcile, LoopState.finish, LoopState.backOff, LoopState.emit]

lemma prefix_attemptOnce (attempt : Nat) (s : LoopState) :
    s.events <+: (attemptOnce w x spec body attempt s).2.events := by
  cases hsign : signAttempt w x spec.method spec.rawPath body attempt with
  | error err => simp [attemptOnce, hsign]
  | ok request =>
    simp only [attemptOnce, hsign]
    cases (sendAttempt w x attempt request).reply with
    | error err =>
      refine List.IsPrefix.trans ?_ (prefix_onTransportError attempt err _)
      exact List.prefix_append _ _
    | ok resp =>
      refine List.IsPrefix.trans ?_ (prefix_onResponse attempt resp _)
      exact List.prefix_append _ _

lemma prefix_attempts (n attempt : Nat) (s : LoopState) :
    s.events <+: (attempts w x spec body n attempt s).2.events := by
  induction n generalizing attempt s with
  | zero => exact List.prefix_rfl
  | succ n ih =>
    have hstep := @prefix_attemptOnce w x spec body attempt s
    simp only [attempts]
    rcases hrun : attemptOnce w x spec body attempt s with ⟨flow, s'⟩
    rw [hrun] at hstep
    cases flow with
    | again => exact hstep.trans (ih (attempt + 1) s')
    | stop => exact hstep
    | answer resp => exact hstep

lemma prefix_conclude (resp : Option Response) (s : LoopState) :
    s.events <+: (conclude x resp s).events := by
  cases resp with
  | some resp => exact prefix_emit _ _
  | none =>
    simp only [conclude]
    split
    · exact prefix_emit _ _
    · exact prefix_emit _ _

end

/-! ### The whole call -/

section

variable (w : World) (x : RequestExecutor) (method : Method) (path body : List Char)
  (opts : SendOpts)

/-- The tokens a request is charged. -/
def costOf : Int :=
  if opts.costOverride ≥ 0 then opts.costOverride
  else (makeRequestSpec method path x.costs).costTokens

/-- The bucket a request is charged to. -/
def chargedBucket (y : RequestExecutor) : TokenBucketI64 :=
  y.bucketOf (makeRequestSpec method path x.costs).bucket

/-- What a call takes from its bucket beyond the refill up to its start, in thousandths. -/
def deducted : Int :=
  ((chargedBucket x method path x).refill w.monoNs).tokens -
    (chargedBucket x method path (x.send w method path body opts).executor).tokens

/-- The reservation of a call and what the call does after it. -/
def trace : List TokenEvent :=
  .reserved (reserve w x method path opts).1 ::
    (x.send w method path body opts).events.map .did

/-- Attempt `k` is made, as what came of all before it is retried, and `t` comes of it. -/
def Meets (k : Nat) (t : Transfer) : Prop :=
  (k : Int) < x.policy.maxAttempts ∧
    (∀ i < k, ∃ r ∈ attemptReply w x method path body i,
      retried (makeRequestSpec method path x.costs).mutation r) ∧
    ∃ request, attemptTransfer w x method path body k = some (request, t)

/-- A request leaves the host in one of the attempts. -/
def Sends : Prop := ∃ k t, Meets w x method path body k t ∧ 0 < t.sent

/-- A second request leaves the host, in a later attempt or in the same one. -/
def Resends : Prop :=
  ∃ k t, Meets w x method path body k t ∧
    (1 < t.sent ∨ 0 < t.sent ∧ ∃ j < k, ∃ u, Meets w x method path body j u ∧ 0 < u.sent)

lemma chargedBucket_send :
    chargedBucket x method path (x.send w method path body opts).executor =
      (reserve w x method path opts).2 := by
  have hset (b : TokenBucketI64) (kind : BucketKind) : (x.setBucket b kind).bucketOf kind = b := by
    cases kind <;> rfl
  have hconclude (y : RequestExecutor) (resp : Option Response) (s : LoopState) :
      (conclude y resp s).executor = y := by
    cases resp <;> rfl
  rcases hres : reserve w x method path opts with ⟨res, bucket⟩
  cases hgranted : res.granted with
  | false => simp [chargedBucket, send, hres, hgranted, hset]
  | true =>
    simp only [chargedBucket, send, hres, hgranted, Bool.not_true, Bool.false_eq_true, ↓reduceIte,
      hconclude]
    exact hset _ _

lemma deducted_eq :
    deducted w x method path body opts =
      if (reserve w x method path opts).1.granted then
        costOf x method path opts * TokenBucketI64.kScale else 0 := by
  rw [deducted, chargedBucket_send]
  simp only [reserve, costOf, chargedBucket, TokenBucketI64.reserveOrWait]
  split_ifs <;> simp_all

/-- A granted call sleeps through its wait before anything else. -/
lemma send_waits (hgranted : (reserve w x method path opts).1.granted)
    (hwait : 0 < (reserve w x method path opts).1.waitNs) :
    ∃ rest, (x.send w method path body opts).events =
      .sleepNs (reserve w x method path opts).1.waitNs :: rest := by
  rcases hres : reserve w x method path opts with ⟨res, bucket⟩
  rw [hres] at hgranted hwait
  simp only at hgranted hwait
  simp only [send, hres, hgranted, Bool.not_true, Bool.false_eq_true, ↓reduceIte, hwait]
  obtain ⟨rest, hrest⟩ := (prefix_attempts _ _ _).trans (prefix_conclude _ _)
  exact ⟨rest, hrest.symm⟩

/-- The attempts of the loop are the ones that are made. -/
lemma getElem?_transfers_iff {k : Nat} {n : Nat} :
    ((transfers w x (makeRequestSpec method path x.costs) body x.policy.maxAttempts.toNat 0).map
        (·.2.sent))[k]? = some n ↔ ∃ t, Meets w x method path body k t ∧ t.sent = n := by
  have hbudget : k < x.policy.maxAttempts.toNat ↔ (k : Int) < x.policy.maxAttempts := by omega
  have hretried (i : Nat) : (∃ e, attemptTransfer w x method path body i = some e ∧
      goesOn (makeRequestSpec method path x.costs).mutation e) ↔
        ∃ r ∈ attemptReply w x method path body i,
          retried (makeRequestSpec method path x.costs).mutation r := by
    simp [attemptReply, goesOn]
  rw [List.getElem?_map, Option.map_eq_some_iff]
  simp only [transfers, Retry.getElem?_outcomes_eq_some_iff, Retry.Makes, Nat.zero_add, hbudget]
  constructor
  · rintro ⟨⟨request, t⟩, ⟨hk, hbefore, hmade⟩, rfl⟩
    exact ⟨t, ⟨hk, fun i hi => (hretried i).1 (hbefore i hi), request, hmade⟩, rfl⟩
  · rintro ⟨t, ⟨hk, hbefore, request, hmade⟩, rfl⟩
    exact ⟨(request, t), ⟨hk, fun i hi => (hretried i).2 (hbefore i hi), hmade⟩, rfl⟩

/-- The requests that leave the host are those of the attempts. -/
lemma length_requests_send (hgranted : (reserve w x method path opts).1.granted) :
    (requests (x.send w method path body opts).events).length =
      ((transfers w x (makeRequestSpec method path x.costs) body
        x.policy.maxAttempts.toNat 0).map (·.2.sent)).sum := by
  have hevents (e : SignedRequest × Transfer) :
      (transferEvents e.1 e.2).filterMap SendEvent.request? = List.replicate e.2.sent e.1 := by
    have hsome : (SendEvent.transmit e.1).request? = some e.1 := rfl
    rw [transferEvents, List.filterMap_append, List.filterMap_replicate_of_some hsome]
    simp
  rw [← requests_wire, wire_send, if_pos hgranted, requests, List.filterMap_flatMap]
  simp [hevents, List.length_flatMap]

lemma length_requests_send_le_one_iff (hgranted : (reserve w x method path opts).1.granted) :
    (requests (x.send w method path body opts).events).length ≤ 1 ↔
      ¬ Resends w x method path body := by
  rw [length_requests_send w x method path body opts hgranted, sum_le_one_iff]
  simp only [getElem?_transfers_iff, Resends]
  constructor
  · rintro h ⟨k, t, ht, hmore | ⟨hpos, j, hj, u, hu, hupos⟩⟩
    · exact absurd (h k _ ⟨t, ht, rfl⟩).1 (Nat.not_le.2 hmore)
    · exact absurd ((h k _ ⟨t, ht, rfl⟩).2 hpos j hj _ ⟨u, hu, rfl⟩) (Nat.ne_of_gt hupos)
  · rintro hno k _ ⟨t, ht, rfl⟩
    constructor
    · by_contra hmore
      exact hno ⟨k, t, ht, .inl (Nat.not_le.1 hmore)⟩
    · rintro hpos j hj _ ⟨u, hu, rfl⟩
      by_contra hne
      exact hno ⟨k, t, ht, .inr ⟨hpos, j, hj, u, hu, Nat.pos_of_ne_zero hne⟩⟩

lemma requests_send_eq_nil_iff (hgranted : (reserve w x method path opts).1.granted) :
    requests (x.send w method path body opts).events = [] ↔ ¬ Sends w x method path body := by
  rw [← List.length_eq_zero_iff, length_requests_send w x method path body opts hgranted,
    List.sum_eq_zero_iff]
  simp only [List.mem_iff_getElem?, getElem?_transfers_iff, Sends]
  constructor
  · rintro h ⟨k, t, ht, hpos⟩
    exact absurd (h _ ⟨k, t, ht, rfl⟩) (Nat.ne_of_gt hpos)
  · rintro hno _ ⟨k, t, ht, rfl⟩
    by_contra hne
    exact hno ⟨k, t, ht, Nat.pos_of_ne_zero hne⟩

/-- A call pays for every request that leaves the host, each with a reservation of its own made and
waited for before, exactly when it gets no reservation, or no second request leaves the host and it
is not credited tokens while none does. -/
theorem send_reserved_iff :
    (costOf x method path opts * TokenBucketI64.kScale *
          (requests (x.send w method path body opts).events).length ≤
        deducted w x method path body opts ∧
      ReservedFirst (trace w x method path body opts)) ↔
    (reserve w x method path opts).1.granted = false ∨
      (¬ Resends w x method path body ∧
        (0 ≤ costOf x method path opts ∨ Sends w x method path body)) := by
  rw [deducted_eq]
  cases hgranted : (reserve w x method path opts).1.granted with
  | false =>
    have hnone : requests (x.send w method path body opts).events = [] := by
      rw [← requests_wire, wire_send, hgranted]
      rfl
    have hfirst : ReservedFirst (trace w x method path body opts) := by
      have hno : ∀ i, ¬ TransmitsAt (trace w x method path body opts) i :=
        fun i => not_transmitsAt_of_requests_eq_nil hnone
      exact ⟨id, fun i hi => absurd hi (hno i), fun i hi => absurd hi (hno i)⟩
    simp [hnone, hfirst]
  | true =>
    have hfirst : ReservedFirst (trace w x method path body opts) ↔
        (requests (x.send w method path body opts).events).length ≤ 1 :=
      reservedFirst_iff hgranted (send_waits w x method path body opts hgranted)
    have hone := length_requests_send_le_one_iff w x method path body opts hgranted
    have hnil := requests_send_eq_nil_iff w x method path body opts hgranted
    rw [← List.length_eq_zero_iff] at hnil
    rw [hfirst, ← hone]
    simp only [↓reduceIte, Bool.true_eq_false, false_or, TokenBucketI64.kScale]
    generalize (requests (x.send w method path body opts).events).length = n at hnil ⊢
    rw [and_comm]
    refine and_congr_right fun hn => ?_
    interval_cases n
    · have hno : ¬ Sends w x method path body := hnil.1 rfl
      simp [hno]
    · have hsent : Sends w x method path body := by
        by_contra hno
        exact absurd (hnil.2 hno) (by decide)
      simp [hsent]

/-- Four requests are sent for the tokens of one while the gateway is down. -/
theorem send_reserved_gateway_down :
    ¬ (costOf (RequestExecutor.new {} {} 0) .get "/markets".toList {} * TokenBucketI64.kScale *
          (requests ((RequestExecutor.new {} {} 0).send gatewayDown .get "/markets".toList []
            {}).events).length ≤
        deducted gatewayDown (RequestExecutor.new {} {} 0) .get "/markets".toList [] {} ∧
      ReservedFirst
        (trace gatewayDown (RequestExecutor.new {} {} 0) .get "/markets".toList [] {})) := by
  rintro ⟨h, -⟩
  revert h
  decide +kernel

end

end RequestExecutor

end HftBot
