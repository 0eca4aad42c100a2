import HftBot.Core.Run
import HftBot.Feed.RecoveryLadder

/-!
# The trace of the ladder

What the ladder asks of the transport for one subscription, from the request that activates its
resync to the note or the tick that ends it: the wired ones of a snapshot, a new subscription and a
reconnect, in this order, each at a tick that comes the timeout after the ladder's clock at the rung
before.
-/

namespace HftBot

open HftBot.Core

inductive LadderCall
  | requestResync (sid : Nat) (markets : List EntityId)
  | noteRecovered (sid : Nat)
  | tick (nowMs : Int)
deriving DecidableEq

/-- The rung above. -/
def Rung.next : Rung → Rung
  | .getSnapshot => .unsubResub
  | .unsubResub  => .reconnect
  | .reconnect   => .done
  | .done        => .done

namespace RecoveryLadder

variable {l : RecoveryLadder} {sid sid' : Nat} {nowMs : Int}

def step (l : RecoveryLadder) : LadderCall → RecoveryLadder
  | .requestResync sid markets => l.requestResync sid markets
  | .noteRecovered sid         => l.noteRecovered sid
  | .tick nowMs                => l.tick nowMs

/-- What a call asks of the transport for one subscription. -/
def emits (l : RecoveryLadder) (sid : Nat) : LadderCall → List LadderAction
  | .requestResync sid' markets =>
    if sid' = sid ∧ (l.stateOf sid).active = false ∧ l.act.getSnapshot then
      [.getSnapshot sid (l.named markets)]
    else []
  | .noteRecovered _            => []
  | .tick nowMs                 => l.tickActions nowMs sid (l.stateOf sid)

/-- What the calls of a run ask of the transport for one subscription. -/
def emitted (l : RecoveryLadder) (sid : Nat) : List LadderCall → List LadderAction
  | []      => []
  | c :: cs => l.emits sid c ++ emitted (l.step c) sid cs

/-- The action of a rung, if it is wired. -/
def actionAt (act : LadderActions) (sid : Nat) (tickers : List (List Char)) :
    Rung → List LadderAction
  | .getSnapshot => if act.getSnapshot then [.getSnapshot sid tickers] else []
  | .unsubResub  => if act.unsubResub then [.unsubResub sid tickers] else []
  | .reconnect   => if act.reconnect then [.reconnect] else []
  | .done        => []

/-- The wired actions of one resync up to a rung, in the order of the rungs. -/
def actionsUpTo (act : LadderActions) (sid : Nat) (tickers : List (List Char)) (r : Rung) :
    List LadderAction :=
  match r with
  | .getSnapshot => actionAt act sid tickers .getSnapshot
  | .unsubResub  => actionAt act sid tickers .getSnapshot ++ actionAt act sid tickers .unsubResub
  | _            =>
    actionAt act sid tickers .getSnapshot ++ actionAt act sid tickers .unsubResub ++
      actionAt act sid tickers .reconnect

/-- All wired actions of one resync. -/
def allActions (act : LadderActions) (sid : Nat) (tickers : List (List Char)) :
    List LadderAction :=
  actionsUpTo act sid tickers .reconnect

/-! ### One call -/

lemma stateOf_requestResync_of_ne (h : sid' ≠ sid) (markets : List EntityId) :
    (l.requestResync sid markets).stateOf sid' = l.stateOf sid' := by
  cases hactive : (l.stateOf sid).active with
  | true => rw [requestResync_of_active hactive]
  | false => rw [stateOf_requestResync hactive, if_neg h]

lemma stateOf_noteRecovered_of_ne (h : sid' ≠ sid) :
    (l.noteRecovered sid).stateOf sid' = l.stateOf sid' := by
  cases hactive : (l.stateOf sid).active with
  | true => rw [stateOf_noteRecovered hactive, if_neg h]
  | false => rw [noteRecovered_of_idle hactive]

@[simp] lemma issue_act (wired : Bool) (a : LadderAction) : (l.issue wired a).act = l.act := by
  rw [issue]
  split_ifs <;> rfl

@[simp] lemma issue_timeout (wired : Bool) (a : LadderAction) :
    (l.issue wired a).timeout = l.timeout := by
  rw [issue]
  split_ifs <;> rfl

@[simp] lemma step_act (c : LadderCall) : (l.step c).act = l.act := by
  cases c with
  | requestResync sid markets =>
    simp only [step, requestResync]
    split_ifs
    · rfl
    · rw [issue_act]
  | noteRecovered sid =>
    simp only [step, noteRecovered]
    split
    · rfl
    · split_ifs <;> rfl
  | tick nowMs => rfl

@[simp] lemma step_timeout (c : LadderCall) : (l.step c).timeout = l.timeout := by
  cases c with
  | requestResync sid markets =>
    simp only [step, requestResync]
    split_ifs
    · rfl
    · rw [issue_timeout]
  | noteRecovered sid =>
    simp only [step, noteRecovered]
    split
    · rfl
    · split_ifs <;> rfl
  | tick nowMs => rfl

/-- What a call does to an active resync: it goes on as it is, asking for nothing; it climbs one
rung at a tick that is late enough, with the ladder's clock as its new time; or it ends, asking for
nothing, by a note or at a tick that is late enough. -/
lemma step_of_active (h : (l.stateOf sid).active) (hrung : (l.stateOf sid).rung ≠ .done)
    (c : LadderCall) :
    ((l.step c).stateOf sid = l.stateOf sid ∧ l.emits sid c = []) ∨
    (∃ nowMs, c = .tick nowMs ∧ l.timeout ≤ nowMs - (l.stateOf sid).sinceMs ∧
      (l.stateOf sid).rung.next ≠ .done ∧
      (l.step c).stateOf sid =
        { l.stateOf sid with rung := (l.stateOf sid).rung.next, sinceMs := nowMs } ∧
      actionsUpTo l.act sid (l.stateOf sid).tickers (l.stateOf sid).rung ++ l.emits sid c =
        actionsUpTo l.act sid (l.stateOf sid).tickers (l.stateOf sid).rung.next) ∨
    (((l.step c).stateOf sid).active = false ∧ ((l.step c).stateOf sid).rung = .done ∧
      l.emits sid c = [] ∧
      ∀ nowMs, c = .tick nowMs → l.timeout ≤ nowMs - (l.stateOf sid).sinceMs) := by
  cases c with
  | requestResync sid' markets =>
    left
    by_cases heq : sid' = sid
    · subst heq
      exact ⟨by rw [step, requestResync_of_active h], by simp [emits, h]⟩
    · exact ⟨stateOf_requestResync_of_ne (Ne.symm heq) markets, by simp [emits, heq]⟩
  | noteRecovered sid' =>
    by_cases heq : sid' = sid
    · subst heq
      right; right
      rw [step, stateOf_noteRecovered h, if_pos rfl]
      exact ⟨rfl, rfl, rfl, fun nowMs h => by cases h⟩
    · exact .inl ⟨stateOf_noteRecovered_of_ne (Ne.symm heq), rfl⟩
  | tick nowMs =>
    rw [step, stateOf_tick, emits, escalate, tickActions]
    cases htimed : l.timedOut nowMs (l.stateOf sid) with
    | false => exact .inl ⟨rfl, rfl⟩
    | true =>
      have hlate : l.timeout ≤ nowMs - (l.stateOf sid).sinceMs := by
        simpa [timedOut, h] using htimed
      right
      simp only [if_true]
      cases hr : (l.stateOf sid).rung with
      | getSnapshot => exact .inl ⟨nowMs, rfl, hlate, by simp [Rung.next], rfl, rfl⟩
      | unsubResub => exact .inl ⟨nowMs, rfl, hlate, by simp [Rung.next], rfl, rfl⟩
      | reconnect =>
        refine .inr ⟨rfl, rfl, rfl, fun nowMs' h => ?_⟩
        cases h
        exact hlate
      | done => exact absurd hr hrung

lemma actionsUpTo_prefix (act : LadderActions) (sid : Nat) (tickers : List (List Char))
    (r : Rung) : actionsUpTo act sid tickers r <+: allActions act sid tickers := by
  rw [allActions]
  cases r with
  | getSnapshot =>
    show actionAt act sid tickers .getSnapshot <+: _ ++ _ ++ _
    rw [List.append_assoc]
    exact List.prefix_append _ _
  | unsubResub => exact List.prefix_append _ _
  | reconnect => exact List.prefix_rfl
  | done => exact List.prefix_rfl

/-! ### One resync -/

/-- The actions of an active resync go on from those of its rung. -/
lemma emitted_of_active {cs : List LadderCall} (hrung : (l.stateOf sid).rung ≠ .done)
    (hcs : Along step (fun l _ => (l.stateOf sid).active) l cs) :
    actionsUpTo l.act sid (l.stateOf sid).tickers (l.stateOf sid).rung ++ l.emitted sid cs <+:
      allActions l.act sid (l.stateOf sid).tickers := by
  induction cs generalizing l with
  | nil =>
    rw [emitted, List.append_nil]
    exact actionsUpTo_prefix _ _ _ _
  | cons c cs ih =>
    obtain ⟨hactive, hrest⟩ := hcs
    rw [emitted]
    rcases step_of_active hactive hrung c with
      ⟨hsame, hnone⟩ | ⟨nowMs, rfl, -, hnext, hclimbed, hactions⟩ | ⟨hended, -, hnone, -⟩
    · have hgoes := ih (l := l.step c) (by rwa [hsame]) hrest
      rw [hsame, step_act] at hgoes
      rwa [hnone]
    · have hgoes := ih (l := l.step (.tick nowMs)) (by rwa [hclimbed]) hrest
      rw [hclimbed, step_act] at hgoes
      rwa [← List.append_assoc, hactions]
    · -- Nothing can follow the call that ends the resync.
      cases cs with
      | nil =>
        rw [hnone, emitted, List.append_nil, List.append_nil]
        exact actionsUpTo_prefix _ _ _ _
      | cons c' cs =>
        have hactive' : ((l.step c).stateOf sid).active := hrest.1
        rw [hended] at hactive'
        cases hactive'

/-- From the request that activates a resync on, the actions are the wired ones in order. -/
lemma emitted_of_request {markets : List EntityId} {cs : List LadderCall}
    (hidle : (l.stateOf sid).active = false)
    (hcs : Along step (fun l _ => (l.stateOf sid).active) (l.requestResync sid markets) cs) :
    l.emitted sid (.requestResync sid markets :: cs) <+:
      allActions l.act sid (l.named markets) := by
  have hstate : (l.requestResync sid markets).stateOf sid =
      { active := true, rung := .getSnapshot, sinceMs := l.now, tickers := l.named markets } := by
    rw [stateOf_requestResync hidle, if_pos rfl]
  have hgoes := emitted_of_active (by rw [hstate]; simp) hcs
  have hact : (l.requestResync sid markets).act = l.act := step_act (.requestResync sid markets)
  rw [hstate, hact] at hgoes
  have hfirst : l.emits sid (.requestResync sid markets) =
      actionsUpTo l.act sid (l.named markets) .getSnapshot := by
    simp [emits, hidle, actionsUpTo, actionAt]
  rw [emitted, hfirst]
  exact hgoes

/-! ### Timers -/

/-- Only a request of its own subscription activates a resync. -/
lemma activated {c : LadderCall} (hidle : (l.stateOf sid).active = false)
    (hactive : ((l.step c).stateOf sid).active) :
    ∃ markets, c = .requestResync sid markets ∧ (l.step c).stateOf sid =
      { active := true, rung := .getSnapshot, sinceMs := l.now, tickers := l.named markets } := by
  cases c with
  | requestResync sid' markets =>
    by_cases heq : sid' = sid
    · subst heq
      exact ⟨markets, rfl, by rw [step, stateOf_requestResync hidle, if_pos rfl]⟩
    · rw [step, stateOf_requestResync_of_ne (Ne.symm heq), hidle] at hactive
      cases hactive
  | noteRecovered sid' =>
    by_cases heq : sid' = sid
    · subst heq
      rw [step, noteRecovered_of_idle hidle, hidle] at hactive
      cases hactive
    · rw [step, stateOf_noteRecovered_of_ne (Ne.symm heq), hidle] at hactive
      cases hactive
  | tick nowMs =>
    rw [step, stateOf_tick, escalate, timedOut, hidle] at hactive
    simp [hidle] at hactive

/-- The call activates the resync of the subscription or takes it to another rung. -/
def Enters (l : RecoveryLadder) (sid : Nat) (c : LadderCall) : Prop :=
  ((l.step c).stateOf sid).active ∧ ((l.stateOf sid).active = false ∨
    ((l.step c).stateOf sid).rung ≠ (l.stateOf sid).rung)

/-- The time of a rung is the ladder's clock at the call that entered it. -/
lemma sinceMs_of_enters {c : LadderCall}
    (hrung : (l.stateOf sid).active → (l.stateOf sid).rung ≠ .done) (h : l.Enters sid c) :
    ((l.step c).stateOf sid).sinceMs = (l.step c).now := by
  obtain ⟨hactive, hentered⟩ := h
  cases hbefore : (l.stateOf sid).active with
  | true =>
    rw [hbefore] at hentered
    rcases step_of_active hbefore (hrung hbefore) c with
      ⟨hsame, -⟩ | ⟨nowMs, rfl, -, -, hclimbed, -⟩ | ⟨hended, -⟩
    · rw [hsame] at hentered
      simp at hentered
    · rw [hclimbed]
      rfl
    · rw [hended] at hactive
      cases hactive
  | false =>
    obtain ⟨markets, rfl, hstate⟩ := activated hbefore hactive
    have hnow : (l.requestResync sid markets).now = l.now := by
      simp only [requestResync, hbefore, Bool.false_eq_true, ↓reduceIte, issue]
      split_ifs <;> rfl
    rw [hstate]
    exact hnow.symm

/-- While a resync stays on its rung, its time stays too. -/
lemma stateOf_of_same_rung {cs : List LadderCall} {r : Rung} (hr : r ≠ .done)
    (hsame : ∀ before, before <+: cs → ((run step l before).stateOf sid).active ∧
      ((run step l before).stateOf sid).rung = r) :
    (run step l cs).stateOf sid = l.stateOf sid := by
  induction cs using List.reverseRecOn with
  | nil => rfl
  | append_singleton cs c ih =>
    have hbefore := ih fun before h => hsame before (h.trans (List.prefix_append _ _))
    obtain ⟨hactive, hrung⟩ := hsame cs (List.prefix_append _ _)
    obtain ⟨hactive', hrung'⟩ := hsame (cs ++ [c]) List.prefix_rfl
    rw [run_append, run_cons, run_nil] at hactive' hrung' ⊢
    rcases step_of_active hactive (by rwa [hrung]) c with
      ⟨hkept, -⟩ | ⟨nowMs, -, -, hnext, hclimbed, -⟩ | ⟨hended, -⟩
    · rw [hkept, hbefore]
    · rw [hclimbed, hrung] at hrung'
      cases r <;> cases hrung'
      exact absurd rfl hr
    · rw [hended] at hactive'
      cases hactive'

/-! ### Runs -/

/-- An active resync is on one of the three rungs. -/
def OnRung (l : RecoveryLadder) : Prop :=
  ∀ sid, (l.stateOf sid).active → (l.stateOf sid).rung ≠ .done

lemma OnRung.step (h : l.OnRung) (c : LadderCall) : (l.step c).OnRung := by
  intro sid hactive
  cases hbefore : (l.stateOf sid).active with
  | true =>
    rcases step_of_active hbefore (h sid hbefore) c with
      ⟨hkept, -⟩ | ⟨nowMs, -, -, hnext, hclimbed, -⟩ | ⟨hended, -⟩
    · rw [hkept]
      exact h sid hbefore
    · rw [hclimbed]
      exact hnext
    · rw [hended] at hactive
      cases hactive
  | false =>
    obtain ⟨markets, -, hstate⟩ := activated hbefore hactive
    rw [hstate]
    simp

/-- The calls to the transport that a call adds are those for the single subscriptions. -/
lemma step_issued (l : RecoveryLadder) (c : LadderCall) :
    (l.step c).issued =
      l.issued ++ (l.step c).state.keys.flatMap (l.emits · c) := by
  cases c with
  | requestResync sid markets =>
    cases hactive : (l.stateOf sid).active with
    | true =>
      have hnone : ∀ sid', l.emits sid' (.requestResync sid markets) = [] := by
        intro sid'
        by_cases heq : sid = sid'
        · subst heq
          simp [emits, hactive]
        · simp [emits, heq]
      rw [RecoveryLadder.step, requestResync_of_active hactive]
      simp [hnone]
    | false =>
      have hstep : l.step (.requestResync sid markets) =
          ({ l with state := l.state.insert sid ⟨true, .getSnapshot, l.now, l.named markets⟩,
                    requests := l.requests + 1 } : RecoveryLadder).issue l.act.getSnapshot
            (.getSnapshot sid (l.named markets)) := by
        simp only [RecoveryLadder.step, requestResync, hactive, named]
        cases l.resolve <;> rfl
      have hkey : sid ∈ (l.step (.requestResync sid markets)).state.keys := by
        rw [hstep, SortedMap.mem_keys]
        refine ⟨⟨true, .getSnapshot, l.now, l.named markets⟩, ?_⟩
        simp only [issue]
        split_ifs <;> simp [SortedMap.find?_insert]
      have hother : ∀ sid' ≠ sid, l.emits sid' (.requestResync sid markets) = [] := by
        intro sid' hne
        simp [emits, Ne.symm hne]
      rw [SortedMap.flatMap_keys_of_single hkey hother, hstep]
      simp only [issue, emits, hactive, true_and]
      split_ifs <;> simp
  | noteRecovered sid =>
    have hissued : (l.noteRecovered sid).issued = l.issued := by
      rw [noteRecovered]
      split
      · rfl
      · split_ifs <;> rfl
    rw [RecoveryLadder.step, hissued]
    simp [emits]
  | tick nowMs =>
    have hkeys : (l.tick nowMs).state.keys = l.state.keys := SortedMap.keys_mapValues _ _
    rw [RecoveryLadder.step, hkeys, SortedMap.keys, List.flatMap_map]
    show l.issued ++ l.state.entries.flatMap _ = _
    congr 1
    apply List.flatMap_congr
    rintro ⟨sid, st⟩ hmem
    have hfind : l.state.find? sid = some st := SortedMap.find?_eq_some_iff.2 hmem
    simp [emits, stateOf, hfind]

/-- How the ladder climbs from a state on. -/
structure ClimbsInOrder (l : RecoveryLadder) : Prop where
  /-- From the activation of a resync to its end, the wired actions in the order of the rungs. -/
  trace   : ∀ sid markets cs, (l.stateOf sid).active = false →
    Along step (fun l _ => (l.stateOf sid).active) (l.requestResync sid markets) cs →
    l.emitted sid (.requestResync sid markets :: cs) <+: allActions l.act sid (l.named markets)
  /-- A tick climbs one rung at most. -/
  oneRung : ∀ sid nowMs, ((l.tick nowMs).stateOf sid).rung = (l.stateOf sid).rung ∨
    ((l.tick nowMs).stateOf sid).rung = (l.stateOf sid).rung.next
  /-- A resync leaves the rung it has entered at a tick that is late enough. -/
  late    : ∀ sid c cs nowMs, l.Enters sid c →
    (∀ before, before <+: cs → ((run step (l.step c) before).stateOf sid).active ∧
      ((run step (l.step c) before).stateOf sid).rung = ((l.step c).stateOf sid).rung) →
    (((run step (l.step c) cs).tick nowMs).stateOf sid).rung ≠ ((l.step c).stateOf sid).rung →
    l.timeout ≤ nowMs - (l.step c).now
  /-- A request to an active resync changes nothing and asks for nothing. -/
  quiet   : ∀ sid markets, (l.stateOf sid).active →
    l.emits sid (.requestResync sid markets) = [] ∧ l.requestResync sid markets = l
  /-- A request or a note leaves the other subscriptions alone. -/
  apart   : ∀ sid sid', sid' ≠ sid → (l.noteRecovered sid).stateOf sid' = l.stateOf sid' ∧
    ∀ markets, (l.requestResync sid markets).stateOf sid' = l.stateOf sid'
  /-- What is asked of the transport is what is asked for the single subscriptions. -/
  issued  : ∀ c, (l.step c).issued = l.issued ++ (l.step c).state.keys.flatMap (l.emits · c)

lemma rung_tick (l : RecoveryLadder) (sid : Nat) (nowMs : Int) :
    ((l.tick nowMs).stateOf sid).rung = (l.stateOf sid).rung ∨
      ((l.tick nowMs).stateOf sid).rung = (l.stateOf sid).rung.next := by
  rw [stateOf_tick, escalate]
  cases l.timedOut nowMs (l.stateOf sid) with
  | false => exact .inl rfl
  | true => cases hr : (l.stateOf sid).rung <;> simp [Rung.next]

lemma step_timeout_run (cs : List LadderCall) : (run step l cs).timeout = l.timeout := by
  induction cs generalizing l with
  | nil => rfl
  | cons c cs ih => rw [run_cons, ih, step_timeout]

lemma late_of_onRung (h : l.OnRung) {c : LadderCall} {cs : List LadderCall}
    (henters : l.Enters sid c)
    (hsame : ∀ before, before <+: cs → ((run step (l.step c) before).stateOf sid).active ∧
      ((run step (l.step c) before).stateOf sid).rung = ((l.step c).stateOf sid).rung)
    (hclimbs : (((run step (l.step c) cs).tick nowMs).stateOf sid).rung ≠
      ((l.step c).stateOf sid).rung) :
    l.timeout ≤ nowMs - (l.step c).now := by
  have hrung := h.step c sid henters.1
  have hstate := stateOf_of_same_rung hrung hsame
  have htimeout : (run step (l.step c) cs).timeout = l.timeout := by
    rw [step_timeout_run, step_timeout]
  rw [← sinceMs_of_enters (h sid) henters, ← hstate, ← htimeout]
  rcases step_of_active (hsame cs List.prefix_rfl).1 (by rwa [hstate]) (.tick nowMs) with
    ⟨hkept, -⟩ | ⟨nowMs', hc, hlate, -⟩ | ⟨-, -, -, hlate⟩
  · refine absurd ?_ hclimbs
    rw [← hstate, ← hkept]
    rfl
  · cases hc
    exact hlate
  · exact hlate nowMs rfl

/-- From every state that a new ladder reaches by requests, notes and ticks in any order and over
    any subscriptions, it climbs in order. -/
theorem ladder_trace (act : LadderActions) (resolve : Option (EntityId → List Char))
    (timeout : Int) (calls : List LadderCall) :
    (run step { act, resolve, timeout } calls).ClimbsInOrder := by
  have hon : (run step { act, resolve, timeout } calls).OnRung :=
    run_inv (P := OnRung) (A := fun _ _ => True) (fun _ c h _ => h.step c)
      (fun _ h => by cases h) (along_of_forall (by simp))
  exact {
    trace := fun _ _ _ hidle hcs => emitted_of_request hidle hcs
    oneRung := fun sid nowMs => rung_tick _ sid nowMs
    late := fun _ _ _ _ henters hsame hclimbs => late_of_onRung hon henters hsame hclimbs
    quiet := fun sid markets hactive =>
      ⟨by simp [emits, hactive], requestResync_of_active hactive⟩
    apart := fun _ _ hne =>
      ⟨stateOf_noteRecovered_of_ne hne, stateOf_requestResync_of_ne hne⟩
    issued := step_issued _ }

/-- With all actions wired, a resync that nobody ends asks for all three. -/
example : emitted { timeout := 10 } 7
    [.requestResync 7 [1], .tick 9, .requestResync 7 [2], .tick 10, .tick 15, .tick 20, .tick 30] =
      [.getSnapshot 7 [], .unsubResub 7 [], .reconnect] := by
  decide

end RecoveryLadder

end HftBot
