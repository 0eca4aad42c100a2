import HftBot.Feed.ManagerCalls
import HftBot.Feed.RecoveryLadder

/-!
# Lost recoveries

The manager drives the recovery ladder. A market that was invalidated on a subscription waits for
its own snapshot; until then an active resync of the subscription should name it. The ladder keeps
one resync for each subscription: a request is swallowed by an active one whatever markets it names,
and a note of recovery ends it whoever has recovered. No market is lost exactly as long as no
request is swallowed by a resync that does not name its markets and no resync is ended while a
market waits.
-/

namespace HftBot

open HftBot.Core Function

/-! ### The ladder -/

namespace RecoveryLadder

variable {l : RecoveryLadder} {sid : Nat} {e : EntityId}

/-- An active resync of the subscription names the market. -/
def Asks (l : RecoveryLadder) (sid : Nat) (e : EntityId) : Prop :=
  (l.stateOf sid).active ∧ ∃ resolve, l.resolve = some resolve ∧
    resolve e ∈ (l.stateOf sid).tickers

/-- At that tick the resync of the subscription comes to its end: its last rung has timed out. -/
def endsAt (l : RecoveryLadder) (nowMs : Int) (sid : Nat) : Bool :=
  l.timedOut nowMs (l.stateOf sid) && (l.stateOf sid).rung == .reconnect

/-- A request to an idle subscription names all its markets, if there is a resolver. -/
lemma asks_requestResync_iff {markets : List EntityId} (h : (l.stateOf sid).active = false)
    {sid' : Nat} :
    (l.requestResync sid markets).Asks sid' e ↔
      if sid' = sid then ∃ resolve, l.resolve = some resolve ∧ resolve e ∈ markets.map resolve
      else l.Asks sid' e := by
  rw [Asks, stateOf_requestResync h, requestResync_resolve]
  split_ifs with heq
  · cases hresolve : l.resolve <;> simp [named, hresolve]
  · rfl

lemma not_asks_tick {nowMs : Int} (h : l.endsAt nowMs sid) : ¬ (l.tick nowMs).Asks sid e := by
  rintro ⟨hactive, -⟩
  rw [stateOf_tick] at hactive
  simp only [endsAt, Bool.and_eq_true, beq_iff_eq] at h
  rcases escalate_cases l nowMs (l.stateOf sid) with
    ⟨-, -, hended⟩ | ⟨hnot, -⟩
  · rw [hended] at hactive
    cases hactive
  · exact hnot h

/-- A resync that does not come to its end at a tick asks for the same markets after it. -/
lemma asks_tick_iff {nowMs : Int} (h : l.endsAt nowMs sid = false) :
    (l.tick nowMs).Asks sid e ↔ l.Asks sid e := by
  rw [Asks, stateOf_tick]
  rcases escalate_cases l nowMs (l.stateOf sid) with
    ⟨htimed, hrung, -⟩ | ⟨-, hactive, htickers⟩
  · simp [endsAt, htimed, hrung] at h
  · rw [hactive, htickers]
    rfl

end RecoveryLadder

/-! ### The manager and its ladder -/

/-- The manager, the ladder it drives, and, for the record, the markets that were invalidated on
each subscription and still wait for their own snapshot. -/
structure Recovery where
  books   : OrderBookManager := {}
  ladder  : RecoveryLadder
  waiting : Nat → Finset EntityId := fun _ => ∅

inductive RecoveryStep
  | call (c : ManagerCall)
  | tick (nowMs : Int)
  | noteRecovered (sid : Nat)
deriving DecidableEq

namespace Recovery

/-- Who waits after a call: whom it invalidates, but not whom it gives a snapshot or forgets. -/
def waitingAfter (epoch : Nat) (s : Recovery) (c : ManagerCall) (sid : Nat) : Finset EntityId :=
  match s.books.hits epoch c, OrderBookManager.renews c with
  | some (sid', es), _ => if sid = sid' then s.waiting sid ∪ es else s.waiting sid
  | none, some e       => (s.waiting sid).erase e
  | none, none         => s.waiting sid

/-- What a call asks for goes to the ladder. A resync that comes to its end leaves nobody waiting,
if a reconnect was issued at its last rung. -/
def step (epoch : Nat) (s : Recovery) : RecoveryStep → Recovery
  | .call c            =>
    let books := s.books.handle epoch c
    { books
      ladder  := (books.requests.drop s.books.requests.length).foldl
        (fun l r => l.requestResync r.sid r.markets) s.ladder
      waiting := s.waitingAfter epoch c }
  | .tick nowMs        =>
    { s with
      ladder  := s.ladder.tick nowMs
      waiting := fun sid =>
        if s.ladder.endsAt nowMs sid && s.ladder.act.reconnect then ∅ else s.waiting sid }
  | .noteRecovered sid => { s with ladder := s.ladder.noteRecovered sid }

/-- Every market that waits is named by an active resync of its subscription. -/
def NoneLost (s : Recovery) : Prop := ∀ sid, ∀ e ∈ s.waiting sid, s.ladder.Asks sid e

/-- The markets that a call invalidates are named by the resync that is active on the subscription,
or there is none and a resolver is present; a resync that ends without a reconnect, or by a note of
recovery, finds no market waiting. -/
def Keeps (epoch : Nat) (s : Recovery) : RecoveryStep → Prop
  | .call c            => ∀ sid es, s.books.hits epoch c = some (sid, es) → ∀ e ∈ es,
    if (s.ladder.stateOf sid).active then s.ladder.Asks sid e else s.ladder.resolve.isSome
  | .tick nowMs        => ∀ sid, s.ladder.endsAt nowMs sid → ¬ s.ladder.act.reconnect →
    s.waiting sid = ∅
  | .noteRecovered sid => (s.ladder.stateOf sid).active → s.waiting sid = ∅

variable {s : Recovery} {epoch : Nat}

lemma step_call_ladder (epoch : Nat) (h : s.books.Keyed) (c : ManagerCall) :
    (s.step epoch (.call c)).ladder =
      match s.books.hits epoch c with
      | none          => s.ladder
      | some (sid, es) => s.ladder.requestResync sid (es.sort (· ≤ ·)) := by
  show ((s.books.handle epoch c).requests.drop _).foldl _ _ = _
  rw [OrderBookManager.handle_requests h, List.drop_left]
  cases s.books.hits epoch c <;> rfl

/-- A call that invalidates nobody loses nobody. -/
lemma noneLost_call_of_none (hkeyed : s.books.Keyed) (h : s.NoneLost) {c : ManagerCall}
    (hhits : s.books.hits epoch c = none) : (s.step epoch (.call c)).NoneLost := by
  have hladder := step_call_ladder epoch hkeyed c
  rw [hhits] at hladder
  intro sid e he
  rw [hladder]
  apply h
  change e ∈ s.waitingAfter epoch c sid at he
  rw [waitingAfter, hhits] at he
  cases hrenews : OrderBookManager.renews c with
  | none => rwa [hrenews] at he
  | some e' =>
    rw [hrenews] at he
    exact Finset.mem_of_mem_erase he

/-- Nobody waits on an idle subscription. -/
lemma NoneLost.waiting_of_idle (h : s.NoneLost) {sid : Nat}
    (hidle : (s.ladder.stateOf sid).active = false) : s.waiting sid = ∅ := by
  apply Finset.eq_empty_of_forall_notMem
  intro e he
  have hactive := (h sid e he).1
  rw [hidle] at hactive
  cases hactive

lemma noneLost_call_iff (hkeyed : s.books.Keyed) (h : s.NoneLost) (c : ManagerCall) :
    (s.step epoch (.call c)).NoneLost ↔ s.Keeps epoch (.call c) := by
  cases hhits : s.books.hits epoch c with
  | none =>
    refine iff_of_true (noneLost_call_of_none hkeyed h hhits) ?_
    intro sid es hsome
    rw [hhits] at hsome
    cases hsome
  | some p =>
    obtain ⟨sid, es⟩ := p
    have hladder := step_call_ladder epoch hkeyed c
    rw [hhits] at hladder
    have hwaiting : ∀ sid', (s.step epoch (.call c)).waiting sid' =
        if sid' = sid then s.waiting sid' ∪ es else s.waiting sid' := by
      intro sid'
      show s.waitingAfter epoch c sid' = _
      rw [waitingAfter, hhits]
    have hkeeps : s.Keeps epoch (.call c) ↔ ∀ e ∈ es,
        if (s.ladder.stateOf sid).active then s.ladder.Asks sid e
        else s.ladder.resolve.isSome := by
      constructor
      · exact fun hk => hk sid es hhits
      · intro hk sid' es' hsome
        rw [hhits, Option.some.injEq, Prod.mk.injEq] at hsome
        obtain ⟨rfl, rfl⟩ := hsome
        exact hk
    rw [hkeeps, NoneLost, hladder]
    cases hactive : (s.ladder.stateOf sid).active with
    | true =>
      -- The request is swallowed: the resync goes on with the tickers it has.
      dsimp only
      rw [RecoveryLadder.requestResync_of_active hactive]
      simp only [hwaiting, if_true]
      constructor
      · intro hasks e he
        exact hasks sid e (by rw [if_pos rfl]; exact Finset.mem_union_right _ he)
      · intro hasks sid' e he
        split_ifs at he with heq
        · subst heq
          rcases Finset.mem_union.1 he with he | he
          · exact h sid' e he
          · exact hasks e he
        · exact h sid' e he
    | false =>
      dsimp only
      simp only [hwaiting, RecoveryLadder.asks_requestResync_iff hactive, Bool.false_eq_true,
        if_false]
      constructor
      · intro hasks e he
        have hnew := hasks sid e (by rw [if_pos rfl]; exact Finset.mem_union_right _ he)
        rw [if_pos rfl] at hnew
        obtain ⟨resolve, hresolve, -⟩ := hnew
        rw [hresolve]
        rfl
      · intro hresolver sid' e he
        split_ifs at he ⊢ with heq
        · subst heq
          rw [h.waiting_of_idle hactive, Finset.empty_union] at he
          obtain ⟨resolve, hresolve⟩ := Option.isSome_iff_exists.1 (hresolver e he)
          exact ⟨resolve, hresolve, List.mem_map_of_mem ((Finset.mem_sort _).2 he)⟩
        · exact h sid' e he

lemma noneLost_note_iff (h : s.NoneLost) (sid : Nat) :
    (s.step epoch (.noteRecovered sid)).NoneLost ↔ s.Keeps epoch (.noteRecovered sid) := by
  rw [NoneLost, Keeps]
  show (∀ sid', ∀ e ∈ s.waiting sid', (s.ladder.noteRecovered sid).Asks sid' e) ↔ _
  cases hactive : (s.ladder.stateOf sid).active with
  | false =>
    rw [RecoveryLadder.noteRecovered_of_idle hactive]
    exact iff_of_true h (by simp)
  | true =>
    constructor
    · intro hasks _
      apply Finset.eq_empty_of_forall_notMem
      intro e he
      have hended := (hasks sid e he).1
      rw [RecoveryLadder.stateOf_noteRecovered hactive, if_pos rfl] at hended
      cases hended
    · intro hnone sid' e he
      have hne : sid' ≠ sid := by
        rintro rfl
        rw [hnone rfl] at he
        cases he
      rw [RecoveryLadder.Asks, RecoveryLadder.stateOf_noteRecovered hactive, if_neg hne,
        RecoveryLadder.noteRecovered_resolve]
      exact h sid' e he

/-- A market that waits after a tick waited before, and if its resync has ended then without a
reconnect. -/
lemma mem_waiting_tick {nowMs : Int} {sid : Nat} {e : EntityId} :
    e ∈ (s.step epoch (.tick nowMs)).waiting sid ↔
      e ∈ s.waiting sid ∧ (s.ladder.endsAt nowMs sid → ¬ s.ladder.act.reconnect) := by
  show e ∈ (if s.ladder.endsAt nowMs sid && s.ladder.act.reconnect then ∅ else s.waiting sid) ↔ _
  cases s.ladder.endsAt nowMs sid <;> cases s.ladder.act.reconnect <;> simp

lemma noneLost_tick_iff (h : s.NoneLost) (nowMs : Int) :
    (s.step epoch (.tick nowMs)).NoneLost ↔ s.Keeps epoch (.tick nowMs) := by
  rw [NoneLost, Keeps]
  simp only [mem_waiting_tick]
  show (∀ sid e, _ → (s.ladder.tick nowMs).Asks sid e) ↔ _
  constructor
  · intro hasks sid hends hreconnect
    apply Finset.eq_empty_of_forall_notMem
    intro e he
    exact RecoveryLadder.not_asks_tick hends (hasks sid e ⟨he, fun _ => hreconnect⟩)
  · rintro hkeeps sid e ⟨he, hreconnect⟩
    cases hends : s.ladder.endsAt nowMs sid with
    | true =>
      rw [hkeeps sid hends (hreconnect hends)] at he
      cases he
    | false => exact (RecoveryLadder.asks_tick_iff hends).2 (h sid e he)

lemma noneLost_step_iff (hkeyed : s.books.Keyed) (h : s.NoneLost) (op : RecoveryStep) :
    (s.step epoch op).NoneLost ↔ s.Keeps epoch op := by
  cases op with
  | call c => exact noneLost_call_iff hkeyed h c
  | tick nowMs => exact noneLost_tick_iff h nowMs
  | noteRecovered sid => exact noneLost_note_iff h sid

lemma keyed_step (h : s.books.Keyed) (op : RecoveryStep) : (s.step epoch op).books.Keyed := by
  cases op with
  | call c => exact h.handle c
  | tick nowMs => exact h
  | noteRecovered sid => exact h

/-- In every run of a new manager with its ladder, from any order of messages, ticks and notes, no
    market is lost in any state that is reached iff every step keeps the markets. -/
theorem none_lost_iff (epoch : Nat) (ladder : RecoveryLadder) (ops : List RecoveryStep) :
    (∀ before after, ops = before ++ after →
      (run (step epoch) { ladder } before).NoneLost) ↔
      Along (step epoch) (Keeps epoch) { ladder } ops := by
  have hkeyed : ∀ before, (run (step epoch) { ladder } before).books.Keyed := fun before =>
    run_inv (P := fun s : Recovery => s.books.Keyed) (A := fun _ _ => True)
      (fun s op h _ => keyed_step h op) (fun sid st hst => by cases hst)
      (along_of_forall (by simp))
  have hprefix : (∀ before, before <+: ops → (run (step epoch) { ladder } before).NoneLost) ↔
      Along (step epoch) (Keeps epoch) { ladder } ops := by
    apply forall_prefix_iff_along
    · intro sid e he
      cases he
    · intro before op after _ hnone
      exact noneLost_step_iff (hkeyed before) hnone op
  rw [← hprefix]
  constructor
  · rintro hnone before ⟨after, hops⟩
    exact hnone before after hops.symm
  · intro hnone before after hops
    exact hnone before ⟨after, hops.symm⟩

/-- Two markets are invalidated by a gap. The snapshot of the first, noted as it should be, ends the
resync, and nobody asks for the second. -/
theorem none_lost_first_snapshot :
    ¬ ∀ before after,
      [.call (.onSnapshot 7 1 ⟨[⟨4000, 9⟩], [], 1⟩ 1), .noteRecovered 7,
        .call (.onSnapshot 7 2 ⟨[⟨6000, 9⟩], [], 2⟩ 2), .noteRecovered 7,
        .call (.onDelta 7 1 .yes 4000 1 5),
        .call (.onSnapshot 7 1 ⟨[⟨4000, 9⟩], [], 6⟩ 6), .noteRecovered 7] = before ++ after →
      (run (step 1) { ladder := { resolve := some fun e => (toString e).toList } }
        before).NoneLost := by
  intro h
  obtain ⟨hactive, -⟩ := h _ [] (List.append_nil _).symm 7 2 (by decide)
  revert hactive
  decide

end Recovery

end HftBot
