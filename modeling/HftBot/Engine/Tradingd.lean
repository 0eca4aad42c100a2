import Mathlib.Data.Fintype.Basic
import Mathlib.Logic.Function.Basic
import HftBot.Core.BoundedQueue
import HftBot.Core.Run
import HftBot.Engine.Wire

/-!
# Trading engine

The order path of `tradingd`: the main thread stamps, validates and queues intents, any number of
submit workers take them through the gates of `process_order`, and shutdown publishes a deadline,
sets the stop flag and joins the workers. A step is one access to what the threads share, or one
call out of the program, whose answer comes with the step. The clock is the steady one. Telemetry,
latency traces and the keepalive of an idle lane are left out, and so is the pause of a worker that
found nothing to do.
-/

namespace HftBot

open HftBot.Core HftBot.Wire

namespace Tradingd

/-- What becomes of an intent; there is a counter for each. -/
inductive Kind
  | submitted | expired | rateLimited | transportError | signError | droppedFull | rejectedInvalid
  | shadow
deriving DecidableEq, Repr

structure OrderMsg where
  intent           : ExecPayload
  decisionSteadyNs : Nat
  enqueueSteadyNs  : Nat
deriving DecidableEq, Repr

/-- An order that a worker has taken from the queue. When, and the deadline in force then, is not
part of the program. -/
structure Taken where
  msg      : OrderMsg
  poppedAt : Nat
  deadline : Option Nat
deriving DecidableEq, Repr

/-- The main thread, which is also the hot thread. -/
inductive Main
  | running
  -- in `submit`, about to count an intent that was not queued
  | counting (kind : Kind)
  -- in the shutdown, with the deadline stored and the stop flag not yet
  | storing
  | joining
  | done
deriving DecidableEq, Repr

/-- Where a submit worker stands. -/
inductive Worker
  | polling
  -- the queue was empty: look at the stop flag, then at the deadline
  | stopping
  | expiring
  -- in `process_order`, before each of its gates
  | entering (t : Taken)
  | taking (t : Taken)
  | signing (t : Taken)
  | sending (t : Taken)
  | counting (kind : Kind)
  | exited
deriving DecidableEq, Repr

/-- The answers of the rate limiter, the signature and the exchange. -/
structure Answers where
  token   : Bool := true
  signed  : Bool := true
  replied : Bool := true
deriving DecidableEq, Repr

inductive Action (ι : Type)
  | tick (ns : Nat)
  | submit (strategyId : Fin kStrategySlots) (p : ExecPayload) (wallNs : UInt64)
  | shutdown (drainMs : Nat)
  | main
  | signal
  | worker (i : ι) (answers : Answers)
deriving DecidableEq, Repr

end Tradingd

open Tradingd in
/-- `stamped`, `accepted`, `processed` and `transmitted` are not part of the program: they hold the
intents submitted, the orders queued, who took which of them, and the orders sent. -/
structure Tradingd (ι : Type) (capacity : Nat) where
  orders          : BoundedQueue OrderMsg capacity := .empty
  ordersEnabled   : Bool := false
  maxQueueAgeNs   : Nat
  now             : Nat := 0
  gStop           : Bool := false
  drainDeadline   : Nat := 0
  counts          : Kind → Nat := fun _ => 0
  shutdownDropped : Nat := 0
  seq             : Fin kStrategySlots → Nat := fun _ => 0
  main            : Main := .running
  workers         : ι → Worker := fun _ => .polling
  stamped         : List ExecPayload := []
  accepted        : List OrderMsg := []
  processed       : List (ι × OrderMsg) := []
  transmitted     : List Taken := []

namespace Tradingd

variable {ι : Type} {capacity : Nat}

/-! ### Main thread -/

def count (s : Tradingd ι capacity) (kind : Kind) : Tradingd ι capacity :=
  { s with counts := Function.update s.counts kind (s.counts kind + 1) }

def stamp (s : Tradingd ι capacity) (strategyId : Fin kStrategySlots) (p : ExecPayload)
    (wallNs : UInt64) : ExecPayload :=
  { p with
    magic      := kExecMagic
    version    := kWireVersion
    strategyId := UInt8.ofNat strategyId
    seq        := s.seq strategyId + 1
    tsNs       := wallNs }

/-- `InlineExecutor::submit` up to the answer of the queue. -/
def submit (s : Tradingd ι capacity) (strategyId : Fin kStrategySlots) (p : ExecPayload)
    (wallNs : UInt64) : Tradingd ι capacity :=
  let p := s.stamp strategyId p wallNs
  let s := { s with
    seq     := Function.update s.seq strategyId (s.seq strategyId + 1)
    stamped := s.stamped ++ [p] }
  match decodeExec p with
  | .error _ => { s with main := .counting .rejectedInvalid }
  | .ok p    =>
    let m : OrderMsg := { intent := p, decisionSteadyNs := s.now, enqueueSteadyNs := s.now }
    match s.orders.tryPush m with
    | (true, orders) => { s with orders, accepted := s.accepted ++ [m] }
    | (false, _)     => { s with main := .counting .droppedFull }

def mainStep [Fintype ι] (s : Tradingd ι capacity) : Tradingd ι capacity :=
  match s.main with
  | .running       => s
  | .counting kind => { s.count kind with main := .running }
  | .storing       => { s with gStop := true, main := .joining }
  | .joining       =>
    if ∀ i, s.workers i = .exited then
      { s with shutdownDropped := s.orders.items.length, main := .done }
    else s
  | .done          => s

/-! ### Workers -/

/-- The deadline that a worker has to keep to, once there is one. -/
def deadline? (s : Tradingd ι capacity) : Option Nat :=
  if s.gStop = true ∧ s.drainDeadline ≠ 0 then some s.drainDeadline else none

/-- The first gate of `process_order`. -/
def tooOld (s : Tradingd ι capacity) (m : OrderMsg) : Bool :=
  let age := s.now - m.decisionSteadyNs
  (m.intent.ttlNs ≠ 0 && m.intent.ttlNs.toNat < age) || s.maxQueueAgeNs < age

variable [DecidableEq ι]

def setWorker (s : Tradingd ι capacity) (i : ι) (w : Worker) : Tradingd ι capacity :=
  { s with workers := Function.update s.workers i w }

def workerStep (s : Tradingd ι capacity) (i : ι) (answers : Answers) : Tradingd ι capacity :=
  match s.workers i with
  | .polling       =>
    match s.orders.tryPop with
    | (some m, orders) =>
      { s.setWorker i (.entering ⟨m, s.now, s.deadline?⟩) with
        orders, processed := s.processed ++ [(i, m)] }
    | (none, _)        => s.setWorker i .stopping
  | .stopping      => s.setWorker i (if s.gStop then .expiring else .polling)
  | .expiring      =>
    s.setWorker i (if s.drainDeadline = 0 ∨ s.drainDeadline < s.now then .exited else .polling)
  | .entering t    => s.setWorker i (if s.tooOld t.msg then .counting .expired else .taking t)
  | .taking t      =>
    s.setWorker i
      (if answers.token then if s.ordersEnabled then .signing t else .counting .shadow
      else .counting .rateLimited)
  | .signing t     => s.setWorker i (if answers.signed then .sending t else .counting .signError)
  | .sending t     =>
    { s.setWorker i (.counting (if answers.replied then .submitted else .transportError)) with
      transmitted := s.transmitted ++ [t] }
  | .counting kind => (s.count kind).setWorker i .polling
  | .exited        => s

variable [Fintype ι]

/-- One step of one thread, of the clock, or a signal. Calls are made while the main thread is in
none. -/
def step (s : Tradingd ι capacity) : Action ι → Tradingd ι capacity
  | .tick ns                    => { s with now := s.now + ns }
  | .submit strategyId p wallNs => if s.main = .running then s.submit strategyId p wallNs else s
  | .shutdown drainMs           =>
    if s.main = .running then
      { s with drainDeadline := s.now + drainMs * 1000000, main := .storing }
    else s
  | .main                       => s.mainStep
  | .signal                     => { s with gStop := true }
  | .worker i answers           => s.workerStep i answers

/-- The state of a new engine after the steps of a schedule. -/
def after (ι : Type) [Fintype ι] [DecidableEq ι] (capacity : Nat) (ordersEnabled : Bool)
    (maxQueueAgeNs : Nat) (as : List (Action ι)) : Tradingd ι capacity :=
  run step { ordersEnabled, maxQueueAgeNs } as

/-! ### What a step does -/

/-- An order that a worker has taken and not counted yet. -/
def Worker.held : Worker → Nat
  | .entering _ => 1
  | .taking _   => 1
  | .signing _  => 1
  | .sending _  => 1
  | .counting _ => 1
  | _           => 0

/-- Past the gate that keeps an engine from sending. -/
def Worker.live : Worker → Bool
  | .signing _ => true
  | .sending _ => true
  | _          => false

/-- The order that a worker holds before its last gate. -/
def Worker.taken? : Worker → Option Taken
  | .entering t => some t
  | .taking t   => some t
  | .signing t  => some t
  | .sending t  => some t
  | _           => none

omit [DecidableEq ι] [Fintype ι] in
/-- What `submit` does: the intent is stamped, then queued or left for the main thread to count. -/
lemma submit_cases (s : Tradingd ι capacity) (id : Fin kStrategySlots) (p : ExecPayload)
    (wallNs : UInt64) :
    ∃ s' : Tradingd ι capacity,
      s' = { s with
        seq     := Function.update s.seq id (s.seq id + 1)
        stamped := s.stamped ++ [s.stamp id p wallNs] } ∧
      ((∃ orders m, s.submit id p wallNs = { s' with orders, accepted := s.accepted ++ [m] } ∧
          orders.items = s.orders.items ++ [m] ∧ m.intent = s.stamp id p wallNs) ∨
        ∃ kind, s.submit id p wallNs = { s' with main := .counting kind }) := by
  refine ⟨_, rfl, ?_⟩
  cases hd : decodeExec (s.stamp id p wallNs) with
  | error why => exact Or.inr ⟨.rejectedInvalid, by simp only [submit, hd]⟩
  | ok q =>
    obtain rfl := eq_of_decodeExec hd
    rcases s.orders.tryPush_cases
        { intent := s.stamp id p wallNs, decisionSteadyNs := s.now, enqueueSteadyNs := s.now }
      with ⟨orders, hpush, -, hitems⟩ | ⟨hpush, -⟩
    · exact Or.inl ⟨orders, _, by simp only [submit, hd, hpush], hitems, rfl⟩
    · exact Or.inr ⟨.droppedFull, by simp only [submit, hd, hpush]⟩

omit [Fintype ι] in
/-- What a step of a worker does: it moves on with what it holds, takes an order, sends one, or
counts one. -/
lemma workerStep_cases (s : Tradingd ι capacity) (i : ι) (answers : Answers) :
    (∃ w, s.workerStep i answers = s.setWorker i w ∧ w.held = (s.workers i).held ∧
        (w.live → s.ordersEnabled ∨ (s.workers i).live) ∧
        (∀ t ∈ w.taken?, t ∈ (s.workers i).taken?) ∧
        (s.workers i = .exited → w = .exited) ∧
        (s.workers i = .polling → s.orders.items = [])) ∨
      (∃ m orders, s.workers i = .polling ∧ s.orders.items = m :: orders.items ∧
        s.workerStep i answers =
          { s.setWorker i (.entering ⟨m, s.now, s.deadline?⟩) with
            orders, processed := s.processed ++ [(i, m)] }) ∨
      (∃ t kind, s.workers i = .sending t ∧ s.workerStep i answers =
        { s.setWorker i (.counting kind) with transmitted := s.transmitted ++ [t] }) ∨
      ∃ kind, s.workers i = .counting kind ∧
        s.workerStep i answers = (s.count kind).setWorker i .polling := by
  cases hw : s.workers i with
  | polling =>
    rcases s.orders.tryPop_cases with ⟨m, orders, hpop, hitems⟩ | ⟨hpop, hempty⟩
    · exact Or.inr (Or.inl ⟨m, orders, rfl, hitems, by simp only [workerStep, hw, hpop]⟩)
    · exact Or.inl ⟨.stopping, by simp only [workerStep, hw, hpop], rfl, nofun, nofun, nofun,
        fun _ => hempty⟩
  | stopping =>
    refine Or.inl ⟨_, by rw [workerStep, hw], ?_, ?_, ?_, nofun, nofun⟩
    · split_ifs <;> rfl
    · split_ifs <;> nofun
    · split_ifs <;> nofun
  | expiring =>
    refine Or.inl ⟨_, by rw [workerStep, hw], ?_, ?_, ?_, nofun, nofun⟩
    · split_ifs <;> rfl
    · split_ifs <;> nofun
    · split_ifs <;> nofun
  | entering t =>
    refine Or.inl ⟨_, by rw [workerStep, hw], ?_, ?_, ?_, nofun, nofun⟩
    · split_ifs <;> rfl
    · split_ifs <;> nofun
    · split_ifs <;> simp [Worker.taken?]
  | taking t =>
    refine Or.inl ⟨_, by rw [workerStep, hw], ?_, ?_, ?_, nofun, nofun⟩
    · split_ifs <;> rfl
    · split_ifs with htoken henabled
      · exact fun _ => Or.inl henabled
      · nofun
      · nofun
    · split_ifs <;> simp [Worker.taken?]
  | signing t =>
    refine Or.inl ⟨_, by rw [workerStep, hw], ?_, fun _ => Or.inr rfl, ?_, nofun, nofun⟩
    · split_ifs <;> rfl
    · split_ifs <;> simp [Worker.taken?]
  | sending t => exact Or.inr (Or.inr (Or.inl ⟨t, _, rfl, by rw [workerStep, hw]⟩))
  | counting kind => exact Or.inr (Or.inr (Or.inr ⟨kind, rfl, by rw [workerStep, hw]⟩))
  | exited =>
    have hsame : s.setWorker i .exited = s := by
      rw [setWorker, ← hw, Function.update_eq_self]
    exact Or.inl ⟨.exited, by rw [hsame, workerStep, hw], rfl, nofun, nofun, fun _ => rfl, nofun⟩

end Tradingd

end HftBot
