import HftBot.Feed.Soundness
import HftBot.Safety.Env
import HftBot.Store.RawLog

/-!
# Execution gate

`KalshiExecutionEngine`, where every order intent ends. It looks at the book manager that the feed
drives, and in shadow mode writes down what it would have ordered. No mode transmits anything.
-/

namespace HftBot

open HftBot.Core HftBot.Core.Utf8 HftBot.Storage

def Mode.toText : Mode → String
  | dataCollect => "data_collect"
  | shadow      => "shadow"
  | live        => "live"

def Side.toText : Side → String
  | yes => "Yes"
  | no  => "No"

inductive TimeInForce
  | ioc | gtc
deriving DecidableEq, Repr

structure OrderIntent where
  entityId   : EntityId
  traceId    : Nat
  side       : Side := .yes
  limitPrice : Int := 0
  size       : Int := 0
  tif        : TimeInForce := .gtc
  postOnly   : Bool := false
deriving DecidableEq, Repr

inductive ExecDecision
  | rejected | logged | transmitted
deriving DecidableEq, Repr

/-- `orderLog` is the file of that path, which is written to if a path is given. -/
structure ExecutionEngine where
  rt                : Runtime
  logPath           : List Char := []
  rejected          : Nat := 0
  logged            : Nat := 0
  transmitted       : Nat := 0
  staleBookRejected : Nat := 0
  orderLog          : Bytes := []

namespace ExecutionEngine

def requireOrdersAllowed (rt : Runtime) : Except SafetyViolation Unit :=
  if rt.ordersEnabled then .ok ()
  else .error ⟨("order transmission refused: env=" ++ rt.env.toText ++ " mode=" ++
    rt.mode.toText ++
    " (live mode + KALSHI_ALLOW_LIVE required; shadow/data_collect never transmit)").toList⟩

def wouldBeLine (rt : Runtime) (tsNs : Int) (oi : OrderIntent) : Bytes :=
  ascii "\x7b\"ts_ns\":" ++ signedDecimal tsNs ++ ascii ",\"mode\":\"" ++ ascii rt.mode.toText ++
  ascii "\",\"env\":\"" ++ ascii rt.env.toText ++
  ascii "\",\"decision\":\"logged\",\"entity_id\":" ++ decimal oi.entityId ++
  ascii ",\"trace_id\":" ++ decimal oi.traceId ++
  ascii ",\"side\":\"" ++ ascii oi.side.toText ++
  ascii "\",\"price\":" ++ signedDecimal oi.limitPrice ++
  ascii ",\"size\":" ++ signedDecimal oi.size ++
  ascii ",\"tif\":\"" ++ ascii (if oi.tif = .ioc then "ioc" else "gtc") ++
  ascii "\",\"post_only\":" ++ ascii (if oi.postOnly then "true" else "false") ++
  ascii "\x7d\n"

/-- Nothing is written without a path, or if the file cannot be opened. -/
def writeWouldBe (x : ExecutionEngine) (tsNs : Int) (opens : Bool) (oi : OrderIntent) :
    ExecutionEngine :=
  if x.logPath = [] then x
  else if opens then { x with orderLog := x.orderLog ++ wouldBeLine x.rt tsNs oi }
  else x

/-- The books are those of the manager, if one has been set. -/
def submit (x : ExecutionEngine) (books : Option OrderBookManager) (tsNs : Int) (opens : Bool)
    (oi : OrderIntent) : Except SafetyViolation ExecDecision × ExecutionEngine :=
  if books.any (!·.tradeable oi.entityId) then
    (.ok .rejected, { x with staleBookRejected := x.staleBookRejected + 1 })
  else
    match x.rt.mode with
    | .dataCollect => (.ok .rejected, { x with rejected := x.rejected + 1 })
    | .shadow      =>
      let x := x.writeWouldBe tsNs opens oi
      (.ok .logged, { x with logged := x.logged + 1 })
    | .live        =>
      match requireOrdersAllowed x.rt with
      | .error violation => (.error violation, x)
      | .ok ()           =>
        (.error ⟨("live order transmission is not implemented in the foundations pass " ++
          "(fail closed)").toList⟩, x)

/-- What is appended to the file for an order. -/
def appended (x : ExecutionEngine) (tsNs : Int) (opens : Bool) (oi : OrderIntent) : Bytes :=
  if x.logPath ≠ [] ∧ opens then wouldBeLine x.rt tsNs oi else []

lemma writeWouldBe_eq (x : ExecutionEngine) (tsNs : Int) (opens : Bool) (oi : OrderIntent) :
    x.writeWouldBe tsNs opens oi =
      { x with orderLog := x.orderLog ++ x.appended tsNs opens oi } := by
  rw [writeWouldBe, appended]
  by_cases hpath : x.logPath = []
  · rw [if_pos hpath, if_neg (by simp [hpath]), List.append_nil]
  · cases opens with
    | false => simp [hpath]
    | true => simp [hpath]

/-- What becomes of an intent: without a book that may be traded it is refused, and otherwise the
mode decides. -/
lemma submit_cases (x : ExecutionEngine) (m : OrderBookManager) (tsNs : Int) (opens : Bool)
    (oi : OrderIntent) :
    (m.tradeable oi.entityId = false ∧ x.submit (some m) tsNs opens oi =
      (.ok .rejected, { x with staleBookRejected := x.staleBookRejected + 1 })) ∨
    m.tradeable oi.entityId = true ∧
      ((x.rt.mode = .dataCollect ∧ x.submit (some m) tsNs opens oi =
          (.ok .rejected, { x with rejected := x.rejected + 1 })) ∨
        (x.rt.mode = .shadow ∧ x.submit (some m) tsNs opens oi =
          (.ok .logged, { x with
            logged   := x.logged + 1
            orderLog := x.orderLog ++ x.appended tsNs opens oi })) ∨
        x.rt.mode = .live ∧ ∃ violation, x.submit (some m) tsNs opens oi =
          (.error violation, x)) := by
  rw [submit]
  cases htradeable : m.tradeable oi.entityId with
  | false => exact .inl ⟨rfl, by simp [htradeable]⟩
  | true =>
    refine .inr ⟨rfl, ?_⟩
    cases hmode : x.rt.mode with
    | dataCollect => exact .inl ⟨rfl, by simp [htradeable]⟩
    | shadow => exact .inr (.inl ⟨rfl, by simp [htradeable, writeWouldBe_eq]⟩)
    | live =>
      refine .inr (.inr ⟨rfl, ?_⟩)
      cases hallowed : requireOrdersAllowed x.rt with
      | error violation => exact ⟨violation, by simp [htradeable]⟩
      | ok u => exact ⟨_, by simp [htradeable]; rfl⟩

end ExecutionEngine

/-! ### Behind a feed -/

/-- Something arrives on the feed, or an intent is submitted. -/
inductive GateInput
  | arrival (a : Arrival)
  | intent (tsNs : Int) (opens : Bool) (oi : OrderIntent)

namespace GateInput

def arrival? : GateInput → Option Arrival
  | .arrival a    => some a
  | .intent _ _ _ => none

def intent? : GateInput → Option OrderIntent
  | .arrival _     => none
  | .intent _ _ oi => some oi

end GateInput

/-- An intent, the manager that it met, and what became of it. -/
structure Ended where
  intent  : OrderIntent
  tsNs    : Int
  opens   : Bool
  manager : OrderBookManager
  outcome : Except SafetyViolation ExecDecision

namespace Ended

def isLogged (x : Ended) : Bool :=
  match x.outcome with
  | .ok .logged => true
  | _           => false

def isThrown (x : Ended) : Bool :=
  match x.outcome with
  | .error _ => true
  | .ok _    => false

end Ended

structure Gate where
  engine  : ExecutionEngine
  manager : OrderBookManager := {}
  ended   : List Ended := []

namespace Gate

def step (feed : Feed) (epoch : Nat) (g : Gate) : GateInput → Gate
  | .arrival a            => { g with manager := feed.step epoch g.manager a }
  | .intent tsNs opens oi =>
    let result := g.engine.submit (some g.manager) tsNs opens oi
    { g with
      engine := result.2
      ended  := g.ended ++ [⟨oi, tsNs, opens, g.manager, result.1⟩] }

/-- The state after some inputs. -/
def after (feed : Feed) (epoch : Nat) (rt : Runtime) (logPath : List Char)
    (inputs : List GateInput) : Gate :=
  run (step feed epoch) { engine := { rt, logPath } } inputs

/-! ### Intents -/

/-- The lines that have been written for an intent. -/
def written (rt : Runtime) (x : Ended) : Bytes :=
  if x.isLogged && x.opens then ExecutionEngine.wouldBeLine rt x.tsNs x.intent else []

/-- The counters and the file of the engine, and the intents so far. -/
structure Settled (rt : Runtime) (logPath : List Char) (g : Gate) : Prop where
  runtime : g.engine.rt = rt
  path    : g.engine.logPath = logPath
  sent    : g.engine.transmitted = 0
  total   : g.engine.rejected + g.engine.staleBookRejected + g.engine.logged +
    g.ended.countP Ended.isThrown = g.ended.length
  logged  : ∀ x ∈ g.ended, x.isLogged = true ↔
    rt.mode = .shadow ∧ x.manager.tradeable x.intent.entityId = true
  file    : logPath ≠ [] → g.engine.orderLog = g.ended.flatMap (written rt)

variable {feed : Feed} {epoch : Nat} {rt : Runtime} {logPath : List Char} {g : Gate}

/-- One more intent, which is counted once. -/
lemma Settled.add (h : Settled rt logPath g) {x : Ended} {engine : ExecutionEngine}
    (hrt : engine.rt = rt) (hpath : engine.logPath = logPath) (hsent : engine.transmitted = 0)
    (htotal : engine.rejected + engine.staleBookRejected + engine.logged +
      (if x.isThrown = true then 1 else 0) =
        g.engine.rejected + g.engine.staleBookRejected + g.engine.logged + 1)
    (hlogged : x.isLogged = true ↔
      rt.mode = .shadow ∧ x.manager.tradeable x.intent.entityId = true)
    (hlog : logPath ≠ [] → engine.orderLog = g.engine.orderLog ++ written rt x) :
    Settled rt logPath { g with engine, ended := g.ended ++ [x] } where
  runtime := hrt
  path    := hpath
  sent    := hsent
  total   := by
    have hbefore := h.total
    dsimp only
    rw [List.countP_append, List.countP_singleton, List.length_append, List.length_singleton]
    omega
  logged  := by
    rw [List.forall_mem_append, List.forall_mem_singleton]
    exact ⟨h.logged, hlogged⟩
  file    := by
    intro hne
    rw [hlog hne, h.file hne, List.flatMap_append, List.flatMap_singleton]

lemma Settled.step (h : Settled rt logPath g) (input : GateInput) :
    Settled rt logPath (g.step feed epoch input) := by
  cases input with
  | arrival a => exact ⟨h.runtime, h.path, h.sent, h.total, h.logged, h.file⟩
  | intent tsNs opens oi =>
    have hrt := h.runtime
    have hcases := g.engine.submit_cases g.manager tsNs opens oi
    rw [hrt] at hcases
    rw [Gate.step]
    obtain ⟨hbook, heq⟩ | ⟨hbook, ⟨hmode, heq⟩ | ⟨hmode, heq⟩ | ⟨hmode, violation, heq⟩⟩ := hcases
    all_goals rw [heq]
    · refine h.add rfl h.path h.sent ?_ ?_ ?_
      · simp [Ended.isThrown]
        omega
      · simp [Ended.isLogged, hbook]
      · simp [written, Ended.isLogged]
    · refine h.add rfl h.path h.sent ?_ ?_ ?_
      · simp [Ended.isThrown]
        omega
      · simp [Ended.isLogged, hmode]
      · simp [written, Ended.isLogged]
    · refine h.add rfl h.path h.sent ?_ ?_ ?_
      · simp [Ended.isThrown]
        omega
      · simp [Ended.isLogged, hmode, hbook]
      · intro hne
        simp [written, Ended.isLogged, ExecutionEngine.appended, h.path, hrt, hne]
    · refine h.add hrt h.path h.sent ?_ ?_ ?_
      · simp [Ended.isThrown]
      · simp [Ended.isLogged, hmode]
      · simp [written, Ended.isLogged]

lemma settled_after (feed : Feed) (epoch : Nat) (rt : Runtime) (logPath : List Char)
    (inputs : List GateInput) : Settled rt logPath (after feed epoch rt logPath inputs) := by
  apply run_preserves fun g input (h : Settled rt logPath g) => h.step input
  exact ⟨rfl, rfl, rfl, rfl, List.forall_mem_nil _, fun _ => rfl⟩

/-! ### Books -/

/-- The manager is that of the feed, also when an intent met it. -/
structure Met (feed : Feed) (epoch : Nat) (inputs : List GateInput) (g : Gate) : Prop where
  intents : g.ended.map (·.intent) = inputs.filterMap GateInput.intent?
  manager : g.manager = feed.manager epoch (inputs.filterMap GateInput.arrival?)
  ended   : ∀ x ∈ g.ended, ∃ before, before <+: inputs.filterMap GateInput.arrival? ∧
    x.manager = feed.manager epoch before

lemma met_after (feed : Feed) (epoch : Nat) (rt : Runtime) (logPath : List Char)
    (inputs : List GateInput) : Met feed epoch inputs (after feed epoch rt logPath inputs) := by
  induction inputs using List.reverseRecOn with
  | nil => exact ⟨rfl, rfl, List.forall_mem_nil _⟩
  | append_singleton inputs input ih =>
    obtain ⟨hintents, hmanager, hended⟩ := ih
    have hstep : after feed epoch rt logPath (inputs ++ [input]) =
        (after feed epoch rt logPath inputs).step feed epoch input := by
      rw [after, run_append]
      rfl
    rw [hstep]
    cases input with
    | arrival a =>
      refine ⟨?_, ?_, fun x hx => ?_⟩
      · simp [step, GateInput.intent?, List.filterMap_cons, hintents]
      · simp [step, GateInput.arrival?, Feed.manager_append, hmanager]
      · obtain ⟨before, hbefore, heq⟩ := hended x hx
        refine ⟨before, hbefore.trans ?_, heq⟩
        simp
    | intent tsNs opens oi =>
      refine ⟨?_, ?_, ?_⟩
      · simp [step, GateInput.intent?, hintents]
      · simp [step, GateInput.arrival?, List.filterMap_cons, hmanager]
      · simp only [step, List.forall_mem_append, List.forall_mem_singleton, List.filterMap_append,
          List.filterMap_cons, List.filterMap_nil, GateInput.arrival?, List.append_nil]
        exact ⟨hended, _, List.prefix_rfl, hmanager⟩

/-- While no snapshot hides a loss the books are sound. -/
lemma sound_manager {arrivals : List Arrival} (hd : Delivered feed arrivals)
    (h : Along (feed.step epoch) (Harmless feed) {} arrivals) :
    Sound feed (feed.manager epoch arrivals) := by
  induction arrivals using List.reverseRecOn with
  | nil =>
    intro e b hb
    cases hb
  | append_singleton arrivals a ih =>
    obtain ⟨hbefore, hlast, -⟩ := along_append.1 h
    have hreached := hd.of_append
    rw [Feed.manager_append]
    exact (Feed.step_sound_iff (Feed.manager_tracks hreached) hd (ih hreached hbefore)).2 hlast

/-- Whatever arrives and whatever is intended in between, nothing is transmitted, and every intent
is counted once or ends in a violation. It is logged exactly if the mode is shadow and its book may
be traded, and the file has the lines of these. If no snapshot hides a loss, the book of each was
the server's. -/
theorem logged_on_sound_books {inputs : List GateInput}
    (hd : Delivered feed (inputs.filterMap GateInput.arrival?)) (epoch : Nat) (rt : Runtime)
    (logPath : List Char) :
    let g := after feed epoch rt logPath inputs
    g.ended.map (·.intent) = inputs.filterMap GateInput.intent? ∧
    g.engine.transmitted = 0 ∧
    g.engine.rejected + g.engine.staleBookRejected + g.engine.logged +
      g.ended.countP Ended.isThrown = g.ended.length ∧
    (∀ x ∈ g.ended, x.isLogged = true ↔
      rt.mode = .shadow ∧ x.manager.tradeable x.intent.entityId = true) ∧
    (logPath ≠ [] → g.engine.orderLog = g.ended.flatMap (written rt)) ∧
    (Along (feed.step epoch) (Harmless feed) {} (inputs.filterMap GateInput.arrival?) →
      ∀ x ∈ g.ended, x.isLogged = true → ∃ b s,
        x.manager.books x.intent.entityId = some b ∧
        x.manager.streams (feed.home x.intent.entityId) = some s ∧
        b.sizeAt = feed.bookAsOf x.intent.entityId s.lastSeq) := by
  intro g
  have hsettled : Settled rt logPath g := settled_after feed epoch rt logPath inputs
  have hmet : Met feed epoch inputs g := met_after feed epoch rt logPath inputs
  refine ⟨hmet.intents, hsettled.sent, hsettled.total, hsettled.logged,
    hsettled.file, ?_⟩
  intro hharmless x hx hlogged
  have htradeable := ((hsettled.logged x hx).1 hlogged).2
  obtain ⟨b, hb, -⟩ := OrderBookManager.tradeable_iff.1 htradeable
  obtain ⟨before, ⟨later, heq⟩, hmanager⟩ := hmet.ended x hx
  rw [← heq] at hd hharmless
  have hsound := sound_manager hd.of_append (along_append.1 hharmless).1
  rw [← hmanager] at hsound
  obtain ⟨s, hs, hsizes⟩ := hsound _ b hb htradeable
  exact ⟨b, s, hb, hs, hsizes⟩

def shadowRuntime : Runtime where
  env           := .prod
  mode          := .shadow
  restBaseUrl   := []
  wsUrl         := []
  wsSignPath    := []
  readOnly      := true
  ordersEnabled := false
  shadow        := true

/-- An intent before there is a book, and one behind the snapshot. -/
def twoIntents : List GateInput :=
  [.intent 5 true { entityId := 1, traceId := 8 }, .arrival (.message 1 0),
    .intent 6 true { entityId := 1, traceId := 9, limitPrice := 4000, size := 500 }]

theorem logged_on_sound_books_two :
    let g := after twoMarkets 1 shadowRuntime [] twoIntents
    g.engine.transmitted = 0 ∧ g.engine.staleBookRejected = 1 ∧ g.engine.logged = 1 ∧
    ∀ x ∈ g.ended, x.isLogged = true → ∃ b s, x.manager.books x.intent.entityId = some b ∧
      x.manager.streams 1 = some s ∧
      b.sizeAt = twoMarkets.bookAsOf x.intent.entityId s.lastSeq := by
  have hone : Delivered twoMarkets (arrivalsOf [0]) :=
    delivered_arrivalsOf (by decide) (by decide)
  have hd : Delivered twoMarkets (twoIntents.filterMap GateInput.arrival?) := hone
  obtain ⟨-, hsent, -, -, -, hbooks⟩ := logged_on_sound_books hd 1 shadowRuntime []
  refine ⟨hsent, rfl, rfl, hbooks ⟨?_, trivial⟩⟩
  intro e' s _ _ _ hstream
  cases hstream

end Gate

end HftBot
