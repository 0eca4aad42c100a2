import HftBot.Feed.OrderBookManager

/-!
# Recovery ladder

`recovery.hpp`: the resync handler of the manager. A request starts a resync of its subscription at
the lowest rung; the control loop ticks, and a rung that has timed out is left for the next one.
What the ladder asks of the transport is kept in order.
-/

namespace HftBot

open HftBot.Core

inductive Rung
  | getSnapshot | unsubResub | reconnect | done
deriving DecidableEq, Repr

/-- An action of the ladder. -/
inductive LadderAction
  | getSnapshot (sid : Nat) (tickers : List (List Char))
  | unsubResub (sid : Nat) (tickers : List (List Char))
  | reconnect
deriving DecidableEq, Repr

/-- Which of the ladder's actions are wired. -/
structure LadderActions where
  getSnapshot : Bool := true
  unsubResub  : Bool := true
  reconnect   : Bool := true
deriving DecidableEq, Repr

/-- The resync of one subscription. -/
structure ResyncState where
  active  : Bool := false
  rung    : Rung := .done
  sinceMs : Int := 0
  tickers : List (List Char) := []
deriving DecidableEq, Repr

structure RecoveryLadder where
  act         : LadderActions := {}
  resolve     : Option (EntityId → List Char) := none
  timeout     : Int := 2000
  now         : Int := 0
  state       : SortedMap Nat ResyncState := {}
  requests    : Nat := 0
  escalations : Nat := 0
  recoveries  : Nat := 0
  issued      : List LadderAction := []

namespace RecoveryLadder

variable (l : RecoveryLadder)

/-- The resync of a subscription, an idle one where there is none. -/
def stateOf (sid : Nat) : ResyncState := (l.state.find? sid).getD {}

def issue (wired : Bool) (a : LadderAction) : RecoveryLadder :=
  if wired then { l with issued := l.issued ++ [a] } else l

/-- A request while a resync is active changes nothing. Without a resolver it names no tickers. -/
def requestResync (sid : Nat) (markets : List EntityId) : RecoveryLadder :=
  let st := l.stateOf sid
  if st.active then l
  else
    let tickers :=
      match l.resolve with
      | none         => []
      | some resolve => markets.map resolve
    let st : ResyncState := { active := true, rung := .getSnapshot, sinceMs := l.now, tickers }
    { l with state := l.state.insert sid st, requests := l.requests + 1 }.issue l.act.getSnapshot
      (.getSnapshot sid tickers)

def noteRecovered (sid : Nat) : RecoveryLadder :=
  match l.state.find? sid with
  | none    => l
  | some st =>
    if st.active then
      { l with
        state      := l.state.insert sid { st with active := false, rung := .done }
        recoveries := l.recoveries + 1 }
    else l

/-- The rung of a resync has timed out. -/
def timedOut (nowMs : Int) (st : ResyncState) : Bool :=
  st.active && !decide (nowMs - st.sinceMs < l.timeout)

/-- The resync after a tick. -/
def escalate (nowMs : Int) (st : ResyncState) : ResyncState :=
  if l.timedOut nowMs st then
    let st := { st with sinceMs := nowMs }
    match st.rung with
    | .getSnapshot => { st with rung := .unsubResub }
    | .unsubResub  => { st with rung := .reconnect }
    | .reconnect   => { st with active := false, rung := .done }
    | .done        => st
  else st

/-- The actions of a tick for one subscription. -/
def tickActions (nowMs : Int) (sid : Nat) (st : ResyncState) : List LadderAction :=
  if l.timedOut nowMs st then
    match st.rung with
    | .getSnapshot => if l.act.unsubResub then [.unsubResub sid st.tickers] else []
    | .unsubResub  => if l.act.reconnect then [.reconnect] else []
    | _            => []
  else []

/-- How often a tick counts an escalation for one subscription. -/
def tickEscalations (nowMs : Int) (st : ResyncState) : Nat :=
  if l.timedOut nowMs st ∧ (st.rung = .getSnapshot ∨ st.rung = .unsubResub) then 1 else 0

/-- All subscriptions, in the order of their ids. -/
def tick (nowMs : Int) : RecoveryLadder :=
  { l with
    now         := nowMs
    state       := l.state.mapValues fun _ st => l.escalate nowMs st
    escalations := l.escalations + (l.state.entries.map fun p => l.tickEscalations nowMs p.2).sum
    issued      := l.issued ++ l.state.entries.flatMap fun p => l.tickActions nowMs p.1 p.2 }

def rung (sid : Nat) : Rung := ((l.state.find? sid).map (·.rung)).getD .done

/-! ### The resync of one subscription -/

section

variable {l : RecoveryLadder} {sid : Nat}

lemma stateOf_insert {st : ResyncState} {n : Nat} {sid' : Nat} :
    stateOf { l with state := l.state.insert sid st, requests := n } sid' =
      if sid' = sid then st else l.stateOf sid' := by
  rw [stateOf, SortedMap.find?_insert]
  split_ifs <;> rfl

lemma requestResync_of_active {markets : List EntityId} (h : (l.stateOf sid).active) :
    l.requestResync sid markets = l := by
  rw [requestResync]
  exact if_pos h

@[simp] lemma issue_resolve (wired : Bool) (a : LadderAction) :
    (l.issue wired a).resolve = l.resolve := by
  rw [issue]
  split_ifs <;> rfl

@[simp] lemma issue_stateOf (wired : Bool) (a : LadderAction) :
    (l.issue wired a).stateOf sid = l.stateOf sid := by
  rw [issue]
  split_ifs <;> rfl

@[simp] lemma requestResync_resolve (markets : List EntityId) :
    (l.requestResync sid markets).resolve = l.resolve := by
  simp only [requestResync]
  split_ifs
  · rfl
  · rw [issue_resolve]

/-- The tickers of a request; without a resolver there are none. -/
def named (l : RecoveryLadder) (markets : List EntityId) : List (List Char) :=
  (l.resolve.map fun resolve => markets.map resolve).getD []

lemma stateOf_requestResync {markets : List EntityId} (h : (l.stateOf sid).active = false)
    {sid' : Nat} :
    (l.requestResync sid markets).stateOf sid' = if sid' = sid then
      { active := true, rung := .getSnapshot, sinceMs := l.now, tickers := l.named markets }
      else l.stateOf sid' := by
  simp only [requestResync, h, Bool.false_eq_true, ↓reduceIte, issue_stateOf, stateOf_insert, named]
  cases l.resolve <;> rfl

lemma noteRecovered_of_idle (h : (l.stateOf sid).active = false) : l.noteRecovered sid = l := by
  rw [noteRecovered]
  rw [stateOf] at h
  split
  · rfl
  · next st hst =>
    rw [hst, Option.getD_some] at h
    exact if_neg (by simp [h])

lemma stateOf_noteRecovered (h : (l.stateOf sid).active) {sid' : Nat} :
    (l.noteRecovered sid).stateOf sid' =
      if sid' = sid then { l.stateOf sid with active := false, rung := .done }
      else l.stateOf sid' := by
  cases hst : l.state.find? sid with
  | none => simp [stateOf, hst] at h
  | some st =>
    have hstate : l.stateOf sid = st := by rw [stateOf, hst, Option.getD_some]
    rw [hstate] at h ⊢
    simp only [noteRecovered, hst, h, if_true]
    rw [stateOf, SortedMap.find?_insert]
    split_ifs <;> rfl

lemma noteRecovered_resolve : (l.noteRecovered sid).resolve = l.resolve := by
  rw [noteRecovered]
  split
  · rfl
  · split_ifs <;> rfl

lemma stateOf_tick {nowMs : Int} :
    (l.tick nowMs).stateOf sid = l.escalate nowMs (l.stateOf sid) := by
  rw [stateOf, stateOf, tick]
  show ((l.state.mapValues _).find? sid).getD {} = _
  rw [SortedMap.find?_mapValues]
  cases l.state.find? sid with
  | none => simp [escalate, timedOut]
  | some st => rfl

/-- A tick ends a resync or keeps what it asks for. -/
lemma escalate_cases (l : RecoveryLadder) (nowMs : Int) (st : ResyncState) :
    (l.timedOut nowMs st ∧ st.rung = .reconnect ∧ (l.escalate nowMs st).active = false) ∨
      (¬ (l.timedOut nowMs st ∧ st.rung = .reconnect) ∧
        (l.escalate nowMs st).active = st.active ∧ (l.escalate nowMs st).tickers = st.tickers) := by
  rw [escalate]
  cases htimed : l.timedOut nowMs st with
  | false => exact .inr ⟨by simp, rfl, rfl⟩
  | true => cases hrung : st.rung <;> simp

end

end RecoveryLadder

end HftBot
