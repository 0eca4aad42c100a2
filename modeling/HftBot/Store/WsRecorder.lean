import HftBot.Core.BoundedQueue
import HftBot.Core.Run
import HftBot.Feed.Decoder

/-!
# Recorder

`WsRecorder`: a producer puts records on a bounded queue, a writer thread drains the queue into the
log, and a third thread starts and stops the writer. A step is one access to what the threads share:
the queue, a counter, the running flag or the log. Clock readings are left out, and so is the
writer's pause after a pass that found nothing, which changes no state.
-/

namespace HftBot

open HftBot.Core

namespace WsRecorder

/-- The call that made a record. -/
inductive Origin
  | record | mark | emitPendingLoss
deriving DecidableEq, Repr

structure Entry where
  origin : Origin
  record : RawRecord
deriving DecidableEq, Repr

/-- Where the producer stands in a call. -/
inductive Producer
  | idle
  -- in `record`, after its push was accepted
  | pushed
  -- in `record`, after its push was refused, before and after `dropped` is counted
  | refused
  | counted
  -- in `mark`, after its push was refused
  | markRefused
deriving DecidableEq, Repr

/-- Where a thread stands that drains the queue and then emits the pending loss. -/
inductive Drain
  | pop
  | write (e : Entry)
  | exchange
  | writeLoss (lost : Nat)
deriving DecidableEq, Repr

/-- The writer thread, in `drain_loop`. -/
inductive Thread
  | absent
  | top
  | draining (d : Drain)
  | exited
deriving DecidableEq, Repr

/-- The thread that calls `start` and `stop`. -/
inductive Control
  | idle
  | joining
  | draining (d : Drain)
deriving DecidableEq, Repr

inductive Action
  | record (rec : RawRecord)
  | mark (kind : String) (epoch : Nat) (sid : Option Nat)
  | producer
  | thread
  | start
  | stop
  | control
deriving DecidableEq, Repr

/-- What the producer and a draining thread work on. `history` is not part of the program: it holds
what was pushed, in call order, with the answer of the queue. -/
structure Shared (capacity : Nat) where
  ring        : BoundedQueue Entry capacity := .empty
  log         : List Entry := []
  producer    : Producer := .idle
  recorded    : Nat := 0
  dropped     : Nat := 0
  pendingLoss : Nat := 0
  history     : List (Entry × Bool) := []
deriving DecidableEq

end WsRecorder

open WsRecorder in
structure WsRecorder (capacity : Nat) where
  shared  : Shared capacity := {}
  running : Bool := false
  thread  : Thread := .absent
  control : Control := .idle
deriving DecidableEq

namespace WsRecorder

variable {capacity : Nat}

namespace Shared

/-! ### Producer -/

def push (s : Shared capacity) (e : Entry) : Bool × Shared capacity :=
  let (accepted, ring) := s.ring.tryPush e
  (accepted, { s with ring, history := s.history ++ [(e, accepted)] })

def record (s : Shared capacity) (rec : RawRecord) : Shared capacity :=
  let (accepted, s) := s.push ⟨.record, rec⟩
  { s with producer := if accepted then .pushed else .refused }

def mark (s : Shared capacity) (kind : String) (epoch : Nat) (sid : Option Nat) :
    Shared capacity :=
  let (accepted, s) := s.push
    ⟨.mark, { marker := some kind, streamEpoch := epoch, sourceStreamId := sid }⟩
  { s with producer := if accepted then .idle else .markRefused }

/-- The counting after a push. -/
def count (s : Shared capacity) : Shared capacity :=
  match s.producer with
  | .idle        => s
  | .pushed      => { s with recorded := s.recorded + 1, producer := .idle }
  | .refused     => { s with dropped := s.dropped + 1, producer := .counted }
  | .counted     => { s with pendingLoss := s.pendingLoss + 1, producer := .idle }
  | .markRefused => { s with dropped := s.dropped + 1, producer := .idle }

/-- The producer's part in a step. -/
def produce (s : Shared capacity) : Action → Shared capacity
  | .record rec          => if s.producer = .idle then s.record rec else s
  | .mark kind epoch sid => if s.producer = .idle then s.mark kind epoch sid else s
  | .producer            => s.count
  | _                    => s

/-! ### Draining -/

/-- The marker of `emit_pending_loss`, which carries the count in the field of the sequence. -/
def lossMarker (lost : Nat) : Entry :=
  ⟨.emitPendingLoss, { marker := some "loss", sourceSequence := some lost }⟩

/-- One step of draining, and where the thread stands after it; nowhere when it is done. -/
def drain (s : Shared capacity) : Drain → Shared capacity × Option Drain
  | .pop            =>
    match s.ring.tryPop with
    | (some e, ring) => ({ s with ring }, some (.write e))
    | (none, _)      => (s, some .exchange)
  | .write e        => ({ s with log := s.log ++ [e] }, some .pop)
  | .exchange       =>
    ({ s with pendingLoss := 0 },
      if s.pendingLoss = 0 then none else some (.writeLoss s.pendingLoss))
  | .writeLoss lost => ({ s with log := s.log ++ [lossMarker lost] }, none)

end Shared

/-! ### Threads -/

def threadStep (s : WsRecorder capacity) : WsRecorder capacity :=
  match s.thread with
  | .absent     => s
  | .top        => { s with thread := if s.running then .draining .pop else .exited }
  | .draining d =>
    { s with shared := (s.shared.drain d).1, thread := (s.shared.drain d).2.elim .top .draining }
  | .exited     => s

def start (s : WsRecorder capacity) : WsRecorder capacity :=
  if s.running then s else { s with running := true, thread := .top }

def stop (s : WsRecorder capacity) : WsRecorder capacity :=
  if s.running then { s with running := false, control := .joining } else s

/-- The rest of `stop`: join the writer, then drain once. -/
def controlStep (s : WsRecorder capacity) : WsRecorder capacity :=
  match s.control with
  | .idle       => s
  | .joining    =>
    if s.thread = .exited then { s with thread := .absent, control := .draining .pop } else s
  | .draining d =>
    { s with shared := (s.shared.drain d).1, control := (s.shared.drain d).2.elim .idle .draining }

/-- One step of one thread. A call is made only by a thread that is in no call. -/
def step (s : WsRecorder capacity) : Action → WsRecorder capacity
  | .record rec          => { s with shared := s.shared.produce (.record rec) }
  | .mark kind epoch sid => { s with shared := s.shared.produce (.mark kind epoch sid) }
  | .producer            => { s with shared := s.shared.produce .producer }
  | .thread              => s.threadStep
  | .start               => if s.control = .idle then s.start else s
  | .stop                => if s.control = .idle then s.stop else s
  | .control             => s.controlStep

/-- The state of a new recorder after the steps of a schedule. -/
def after (capacity : Nat) (as : List Action) : WsRecorder capacity := run step {} as

/-! ### One drainer at a time -/

def Thread.drain? : Thread → Option Drain
  | .draining d => some d
  | _           => none

def Control.drain? : Control → Option Drain
  | .draining d => some d
  | _           => none

/-- Where the thread stands that drains, if one does. -/
def drain? (s : WsRecorder capacity) : Option Drain := s.thread.drain?.or s.control.drain?

/-- `stop` drains only after the writer is gone, and a writer runs only between `start` and
`stop`. -/
structure Alone (s : WsRecorder capacity) : Prop where
  draining : ∀ d, s.control = .draining d → s.thread = .absent
  running  : s.running → s.control = .idle
  idle     : s.control = .idle → s.running = false → s.thread = .absent

@[simp] lemma elim_top_drain? (next : Option Drain) :
    (next.elim Thread.top .draining).drain? = next := by
  cases next <;> rfl

@[simp] lemma elim_idle_drain? (next : Option Drain) :
    (next.elim Control.idle .draining).drain? = next := by
  cases next <;> rfl

variable {s : WsRecorder capacity}

lemma Alone.control_drain? (h : s.Alone) (ht : s.thread ≠ .absent) : s.control.drain? = none := by
  cases hc : s.control with
  | idle => rfl
  | joining => rfl
  | draining d => exact absurd (h.draining d hc) ht

/-- A writer that is there may move freely. -/
lemma Alone.set_thread (h : s.Alone) (ht : s.thread ≠ .absent) (shared : Shared capacity)
    (thread : Thread) : ({ s with shared, thread } : WsRecorder capacity).Alone where
  draining d hd := absurd (h.draining d hd) ht
  running       := h.running
  idle hc hr    := absurd (h.idle hc hr) ht

lemma Alone.threadStep (h : s.Alone) : s.threadStep.Alone := by
  cases ht : s.thread with
  | absent => simpa [WsRecorder.threadStep, ht] using h
  | exited => simpa [WsRecorder.threadStep, ht] using h
  | top => simpa [WsRecorder.threadStep, ht] using h.set_thread (by simp [ht]) s.shared _
  | draining d => simpa [WsRecorder.threadStep, ht] using h.set_thread (by simp [ht]) _ _

lemma Alone.controlStep (h : s.Alone) : s.controlStep.Alone := by
  cases hc : s.control with
  | idle => simpa [WsRecorder.controlStep, hc] using h
  | joining =>
    have hr : s.running = false := by
      by_contra hr
      simp [h.running (by simpa using hr)] at hc
    by_cases ht : s.thread = .exited
    · constructor <;> simp [WsRecorder.controlStep, hc, ht, hr]
    · simpa [WsRecorder.controlStep, hc, ht] using h
  | draining d =>
    have ht := h.draining d hc
    have hr : s.running = false := by
      by_contra hr
      simp [h.running (by simpa using hr)] at hc
    constructor <;> simp [WsRecorder.controlStep, hc, ht, hr]

lemma Alone.step (h : s.Alone) (a : Action) : (s.step a).Alone := by
  cases a with
  | record rec => exact ⟨h.draining, h.running, h.idle⟩
  | mark kind epoch sid => exact ⟨h.draining, h.running, h.idle⟩
  | producer => exact ⟨h.draining, h.running, h.idle⟩
  | thread => exact h.threadStep
  | control => exact h.controlStep
  | start =>
    simp only [WsRecorder.step, WsRecorder.start]
    split_ifs with hc hr
    · exact h
    · constructor <;> simp [hc]
    · exact h
  | stop =>
    simp only [WsRecorder.step, WsRecorder.stop]
    split_ifs with hc hr
    · constructor <;> simp
    · exact h
    · exact h

/-- What a step does to the shared state: the producer moves, or the one drainer does, or a drainer
begins. -/
lemma step_cases (h : s.Alone) (a : Action) :
    ((s.step a).shared = s.shared.produce a ∧ (s.step a).drain? = s.drain?) ∨
      (∃ d, s.drain? = some d ∧ s.shared.drain d = ((s.step a).shared, (s.step a).drain?)) ∨
      ((s.step a).shared = s.shared ∧ s.drain? = none ∧ (s.step a).drain? = some .pop) := by
  cases a with
  | record rec => exact Or.inl ⟨rfl, rfl⟩
  | mark kind epoch sid => exact Or.inl ⟨rfl, rfl⟩
  | producer => exact Or.inl ⟨rfl, rfl⟩
  | thread =>
    cases ht : s.thread with
    | absent => exact Or.inl (by simp [WsRecorder.step, threadStep, ht, Shared.produce])
    | exited => exact Or.inl (by simp [WsRecorder.step, threadStep, ht, Shared.produce])
    | top =>
      have hc := h.control_drain? (by simp [ht])
      cases hr : s.running with
      | true =>
        refine Or.inr (Or.inr ?_)
        simp [WsRecorder.step, threadStep, ht, hr, hc, drain?, Thread.drain?]
      | false =>
        exact Or.inl
          (by simp [WsRecorder.step, threadStep, ht, hr, drain?, Thread.drain?, Shared.produce])
    | draining d =>
      have hc := h.control_drain? (by simp [ht])
      refine Or.inr (Or.inl ⟨d, by simp [drain?, ht, Thread.drain?], ?_⟩)
      simp [WsRecorder.step, threadStep, ht, drain?, hc]
  | control =>
    cases hc : s.control with
    | idle => exact Or.inl (by simp [WsRecorder.step, controlStep, hc, Shared.produce])
    | joining =>
      by_cases ht : s.thread = .exited
      · refine Or.inr (Or.inr ?_)
        simp [WsRecorder.step, controlStep, hc, ht, drain?, Thread.drain?, Control.drain?]
      · exact Or.inl (by simp [WsRecorder.step, controlStep, hc, ht, Shared.produce])
    | draining d =>
      have ht := h.draining d hc
      refine Or.inr (Or.inl ⟨d, by simp [drain?, hc, ht, Thread.drain?, Control.drain?], ?_⟩)
      simp [WsRecorder.step, controlStep, hc, ht, drain?, Thread.drain?]
  | start =>
    left
    simp only [WsRecorder.step, start, Shared.produce]
    split_ifs with hc hr
    · exact ⟨rfl, rfl⟩
    · have ht := h.idle hc (by simpa using hr)
      exact ⟨rfl, by simp [drain?, hc, ht, Thread.drain?]⟩
    · exact ⟨rfl, rfl⟩
  | stop =>
    left
    simp only [WsRecorder.step, stop, Shared.produce]
    split_ifs with hc hr
    · exact ⟨rfl, by simp [drain?, hc, Control.drain?]⟩
    · exact ⟨rfl, rfl⟩
    · exact ⟨rfl, rfl⟩

lemma alone_new : ({} : WsRecorder capacity).Alone := by
  constructor <;> simp

/-- What the producer's admissible steps, the steps of a drainer and its beginning keep holds in
every state of a run. -/
theorem run_shared_inv {P : Shared capacity → Option Drain → Prop}
    {A : Shared capacity → Option Drain → Action → Prop}
    (hproduce : ∀ s d a, P s d → A s d a → P (s.produce a) d)
    (hdrain : ∀ s d, P s (some d) → P (s.drain d).1 (s.drain d).2)
    (hbegin : ∀ s, P s none → P s (some .pop)) (hnew : P {} none) {as : List Action}
    (has : Along step (fun s a => A s.shared s.drain? a) ({} : WsRecorder capacity) as) :
    P (after capacity as).shared (after capacity as).drain? := by
  have hstep : ∀ (s : WsRecorder capacity) a, s.Alone ∧ P s.shared s.drain? →
      A s.shared s.drain? a → (s.step a).Alone ∧ P (s.step a).shared (s.step a).drain? := by
    rintro s a ⟨halone, hs⟩ ha
    refine ⟨halone.step a, ?_⟩
    rcases step_cases halone a with ⟨hshared, hd⟩ | ⟨d, hd, heq⟩ | ⟨hshared, hd, hpop⟩
    · rw [hshared, hd]
      exact hproduce _ _ _ hs ha
    · rw [hd] at hs
      have := hdrain _ _ hs
      rwa [heq] at this
    · rw [hd] at hs
      rw [hshared, hpop]
      exact hbegin _ hs
  exact (run_inv hstep ⟨alone_new, hnew⟩ has).2

end WsRecorder

end HftBot
