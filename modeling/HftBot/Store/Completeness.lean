import HftBot.Store.WsRecorder

/-!
# Recorder completeness

Nothing that the queue accepted is lost on the way to the log, and no refused frame is missing from
the counts of the loss markers, whatever the schedule. While the threads run, what is on its way is
in the queue, in the hands of the drainer, or in the pending counter; after `stop` nothing is.
-/

namespace HftBot.WsRecorder

open HftBot.Core

variable {capacity : Nat}

namespace Entry

/-- The count of a marker that `emit_pending_loss` wrote. -/
def loss? (e : Entry) : Option Nat :=
  if e.origin = .emitPendingLoss then some (e.record.sourceSequence.getD 0) else none

/-- The frame that was given to `record`. -/
def frame? (e : Entry) : Option RawRecord :=
  if e.origin = .record then some e.record else none

end Entry

/-- The data records. -/
def frames (l : List Entry) : List RawRecord := l.filterMap Entry.frame?

/-- All records but the markers of `emit_pending_loss`. -/
def kept (l : List Entry) : List Entry := l.filter fun e => e.loss?.isNone

/-- The lost frames that the log accounts for. -/
def lossSum (l : List Entry) : Nat := (l.map fun e => e.loss?.getD 0).sum

/-- What the queue accepted, in call order. -/
def accepted (history : List (Entry × Bool)) : List Entry := (history.filter (·.2)).map (·.1)

/-- How many calls of `record` were refused. -/
def rejectedFrames (history : List (Entry × Bool)) : Nat :=
  (history.filter fun p => p.1.frame?.isSome && !p.2).length

/-- The log tells what became of every call of `record`. -/
structure Complete (s : Shared capacity) : Prop where
  data     : frames s.log = frames (accepted s.history)
  recorded : s.recorded = (frames (accepted s.history)).length
  losses   : lossSum s.log = rejectedFrames s.history

/-! ### What is on its way -/

/-- The record that was popped and is not written yet. -/
def Drain.held : Drain → List Entry
  | .write e => [e]
  | _        => []

/-- The loss that was taken from the counter and is not written yet. -/
def Drain.lost : Drain → Nat
  | .writeLoss lost => lost
  | _               => 0

/-- An accepted frame that is not counted yet. -/
def Producer.unrecorded : Producer → Nat
  | .pushed => 1
  | _       => 0

/-- A refused frame that is not counted as pending yet. -/
def Producer.uncounted : Producer → Nat
  | .refused => 1
  | .counted => 1
  | _        => 0

/-- Every call is accounted for: in the log, or on its way. -/
structure Accounted (s : Shared capacity) (d : Option Drain) : Prop where
  records  : kept s.log ++ d.elim [] Drain.held ++ s.ring.items = accepted s.history
  recorded : s.recorded + s.producer.unrecorded = (frames (accepted s.history)).length
  losses   : lossSum s.log + d.elim 0 Drain.lost + s.pendingLoss + s.producer.uncounted =
    rejectedFrames s.history
  origin   : ∀ p ∈ s.history, p.1.loss? = none

section

variable {h : List (Entry × Bool)} {l : List Entry} {e : Entry}

@[simp] lemma accepted_append_true : accepted (h ++ [(e, true)]) = accepted h ++ [e] := by
  simp [accepted]

@[simp] lemma accepted_append_false : accepted (h ++ [(e, false)]) = accepted h := by
  simp [accepted]

@[simp] lemma rejectedFrames_append_true :
    rejectedFrames (h ++ [(e, true)]) = rejectedFrames h := by
  simp [rejectedFrames]

@[simp] lemma rejectedFrames_append_false :
    rejectedFrames (h ++ [(e, false)]) = rejectedFrames h + e.frame?.toList.length := by
  cases he : e.frame? <;> simp [rejectedFrames, he]

@[simp] lemma frames_append : frames (l ++ [e]) = frames l ++ e.frame?.toList := by
  cases he : e.frame? <;> simp [frames, he]

@[simp] lemma kept_append_of_none (he : e.loss? = none) : kept (l ++ [e]) = kept l ++ [e] := by
  simp [kept, he]

@[simp] lemma loss?_lossMarker (n : Nat) : (Shared.lossMarker n).loss? = some n := rfl

@[simp] lemma kept_append_lossMarker (n : Nat) : kept (l ++ [Shared.lossMarker n]) = kept l := by
  simp [kept]

@[simp] lemma lossSum_append_of_none (he : e.loss? = none) : lossSum (l ++ [e]) = lossSum l := by
  simp [lossSum, he]

@[simp] lemma lossSum_append_lossMarker (n : Nat) :
    lossSum (l ++ [Shared.lossMarker n]) = lossSum l + n := by
  simp [lossSum]

/-- Loss markers are no data. -/
lemma frames_kept (l : List Entry) : frames (kept l) = frames l := by
  rw [frames, kept, List.filterMap_filter]
  refine List.filterMap_congr fun e _ => ?_
  cases ho : e.origin <;> simp [Entry.loss?, Entry.frame?, ho]

end

/-! ### One step -/

variable {s : Shared capacity} {d : Option Drain}

lemma Accounted.loss?_eq_none (h : Accounted s d) {e : Entry} (he : e ∈ accepted s.history) :
    e.loss? = none := by
  obtain ⟨p, hp, rfl⟩ := List.mem_map.1 he
  exact h.origin p (List.mem_of_mem_filter hp)

/-- A push is accepted into the queue or refused, and the history says which. -/
lemma push_cases (s : Shared capacity) (e : Entry) :
    (∃ ring, s.push e = (true, { s with ring, history := s.history ++ [(e, true)] }) ∧
        s.ring.items.length < capacity ∧ ring.items = s.ring.items ++ [e]) ∨
      (s.push e = (false, { s with history := s.history ++ [(e, false)] }) ∧
        s.ring.items.length = capacity) := by
  rcases s.ring.tryPush_cases e with ⟨ring, hpush, hroom, hitems⟩ | ⟨hpush, hfull⟩
  · exact Or.inl ⟨ring, by simp [Shared.push, hpush], hroom, hitems⟩
  · exact Or.inr ⟨by simp [Shared.push, hpush], hfull⟩

/-- A push is accounted for when the producer counts next what the queue answered. -/
lemma Accounted.push (h : Accounted s d) (hidle : s.producer = .idle) (e : Entry)
    (next : Bool → Producer) (he : e.loss? = none)
    (hrecord : ∀ b, (next b).unrecorded = if b then e.frame?.toList.length else 0)
    (hcount : ∀ b, (next b).uncounted = if b then 0 else e.frame?.toList.length) :
    Accounted { (s.push e).2 with producer := next (s.push e).1 } d := by
  obtain ⟨hrecords, hrecorded, hlosses, horigin⟩ := h
  simp only [hidle, Producer.unrecorded, Producer.uncounted, Nat.add_zero] at hrecorded hlosses
  rcases push_cases s e with ⟨ring, hpush, -, hitems⟩ | ⟨hpush, -⟩
  · rw [hpush]
    refine ⟨?_, ?_, ?_, ?_⟩
    · simp [hitems, ← hrecords]
    · simpa [hrecord] using hrecorded
    · simpa [hcount] using hlosses
    · simpa [or_imp, forall_and, he] using horigin
  · rw [hpush]
    refine ⟨?_, ?_, ?_, ?_⟩
    · simpa using hrecords
    · simpa [hrecord] using hrecorded
    · simpa [hcount] using hlosses
    · simpa [or_imp, forall_and, he] using horigin

lemma Accounted.record (h : Accounted s d) (hidle : s.producer = .idle) (rec : RawRecord) :
    Accounted (s.record rec) d :=
  h.push hidle ⟨.record, rec⟩ (fun accepted => if accepted then .pushed else .refused) rfl
    (fun b => by cases b <;> rfl) (fun b => by cases b <;> rfl)

lemma Accounted.mark (h : Accounted s d) (hidle : s.producer = .idle) (kind : String)
    (epoch : Nat) (sid : Option Nat) : Accounted (s.mark kind epoch sid) d :=
  h.push hidle ⟨.mark, { marker := some kind, streamEpoch := epoch, sourceStreamId := sid }⟩
    (fun accepted => if accepted then .idle else .markRefused) rfl
    (fun b => by cases b <;> rfl) (fun b => by cases b <;> rfl)

lemma Accounted.count (h : Accounted s d) : Accounted s.count d := by
  obtain ⟨hrecords, hrecorded, hlosses, horigin⟩ := h
  cases hp : s.producer <;> rw [hp] at hrecorded hlosses <;> simp only [Shared.count, hp]
  case idle => exact ⟨hrecords, hp ▸ hrecorded, hp ▸ hlosses, horigin⟩
  all_goals exact ⟨hrecords, hrecorded, hlosses, horigin⟩

lemma Accounted.produce (h : Accounted s d) (a : Action) : Accounted (s.produce a) d := by
  cases a with
  | record rec =>
    simp only [Shared.produce]
    split_ifs with hidle
    · exact h.record hidle rec
    · exact h
  | mark kind epoch sid =>
    simp only [Shared.produce]
    split_ifs with hidle
    · exact h.mark hidle kind epoch sid
    · exact h
  | producer => exact h.count
  | thread => exact h
  | start => exact h
  | stop => exact h
  | control => exact h

lemma Accounted.drain {d : Drain} (h : Accounted s (some d)) :
    Accounted (s.drain d).1 (s.drain d).2 := by
  obtain ⟨hrecords, hrecorded, hlosses, horigin⟩ := id h
  cases d with
  | pop =>
    rcases s.ring.tryPop_cases with ⟨e, ring, hpop, hitems⟩ | ⟨hpop, hempty⟩
    · simp only [Shared.drain, hpop]
      exact ⟨by simpa [Drain.held, hitems] using hrecords, hrecorded, hlosses, horigin⟩
    · simp only [Shared.drain, hpop]
      exact ⟨hrecords, hrecorded, hlosses, horigin⟩
  | write e =>
    have he : e.loss? = none := by
      refine h.loss?_eq_none ?_
      rw [← hrecords]
      simp [Drain.held]
    refine ⟨?_, hrecorded, ?_, horigin⟩
    · simpa [Shared.drain, he, Drain.held] using hrecords
    · simpa [Shared.drain, he, Drain.lost] using hlosses
  | exchange =>
    refine ⟨?_, hrecorded, ?_, horigin⟩
    · by_cases hzero : s.pendingLoss = 0 <;> simpa [Shared.drain, hzero, Drain.held] using hrecords
    · by_cases hzero : s.pendingLoss = 0 <;> simpa [Shared.drain, hzero, Drain.lost] using hlosses
  | writeLoss lost =>
    refine ⟨?_, hrecorded, ?_, horigin⟩
    · simpa [Shared.drain, Drain.held] using hrecords
    · simpa [Shared.drain, Drain.lost] using hlosses

/-- Every state of every run accounts for every call. -/
theorem accounted_run (as : List Action) :
    Accounted (after capacity as).shared (after capacity as).drain? := by
  refine run_shared_inv (A := fun _ _ _ => True) (fun s d a h _ => h.produce a)
    (fun s d h => h.drain) (fun s h => ⟨h.records, h.recorded, h.losses, h.origin⟩) ?_ ?_
  · constructor <;> simp [kept, accepted, frames, lossSum, rejectedFrames, Producer.unrecorded,
      Producer.uncounted]
  · exact along_iff_forall_split.2 fun _ _ _ _ => trivial

/-! ### The end of a run -/

/-- Past the pop that finds nothing. -/
def Control.Emptied : Control → Prop
  | .idle                   => True
  | .draining .exchange      => True
  | .draining (.writeLoss _) => True
  | _                       => False

/-- Past the exchange. -/
def Control.Collected : Control → Prop
  | .idle                   => True
  | .draining (.writeLoss _) => True
  | _                       => False

/-- A `stop` that no call of the producer disturbs, and how far it has come. -/
structure Stopping (s : WsRecorder capacity) : Prop where
  alone     : s.Alone
  running   : s.running = false
  producer  : s.shared.producer = .idle
  emptied   : s.control.Emptied → s.shared.ring.items = []
  collected : s.control.Collected → s.shared.pendingLoss = 0

lemma drain_producer (s : Shared capacity) (d : Drain) : (s.drain d).1.producer = s.producer := by
  cases d with
  | pop => rcases s.ring.tryPop_cases with ⟨e, ring, h, -⟩ | ⟨h, -⟩ <;> simp [Shared.drain, h]
  | _ => rfl

lemma Stopping.thread {s : WsRecorder capacity} (h : Stopping s) : Stopping s.threadStep := by
  cases ht : s.thread with
  | absent => simpa [threadStep, ht] using h
  | exited => simpa [threadStep, ht] using h
  | top =>
    have halone := h.alone.threadStep
    simp only [threadStep, ht] at halone ⊢
    exact ⟨halone, h.running, h.producer, h.emptied, h.collected⟩
  | draining d =>
    have halone := h.alone.threadStep
    -- the other thread waits for the writer to finish
    have hjoining : s.control = .joining := by
      cases hc : s.control with
      | idle => simp [h.alone.idle hc h.running] at ht
      | joining => rfl
      | draining d => simp [h.alone.draining d hc] at ht
    simp only [threadStep, ht] at halone ⊢
    refine ⟨halone, h.running, (drain_producer _ _).trans h.producer, ?_, ?_⟩
    · simp [hjoining, Control.Emptied]
    · simp [hjoining, Control.Collected]

lemma Stopping.control {s : WsRecorder capacity} (h : Stopping s) : Stopping s.controlStep := by
  have halone := h.alone.controlStep
  cases hc : s.control with
  | idle => simpa [controlStep, hc] using h
  | joining =>
    by_cases ht : s.thread = .exited
    · simp only [controlStep, hc, ht, ↓reduceIte] at halone ⊢
      exact ⟨halone, h.running, h.producer, False.elim, False.elim⟩
    · simpa [controlStep, hc, ht] using h
  | draining d =>
    simp only [controlStep, hc] at halone ⊢
    refine ⟨halone, h.running, (drain_producer _ _).trans h.producer, ?_, ?_⟩
    · cases d with
      | pop =>
        rcases s.shared.ring.tryPop_cases with ⟨e, ring, hpop, -⟩ | ⟨hpop, hempty⟩
        · simp [Shared.drain, hpop, Control.Emptied]
        · simpa [Shared.drain, hpop] using fun _ => hempty
      | write e => simp [Shared.drain, Control.Emptied]
      | exchange => exact fun _ => h.emptied (by rw [hc]; trivial)
      | writeLoss lost => exact fun _ => h.emptied (by rw [hc]; trivial)
    · cases d with
      | pop =>
        rcases s.shared.ring.tryPop_cases with ⟨e, ring, hpop, -⟩ | ⟨hpop, -⟩ <;>
          simp [Shared.drain, hpop, Control.Collected]
      | write e => simp [Shared.drain, Control.Collected]
      | exchange => simp [Shared.drain]
      | writeLoss lost => exact fun _ => h.collected (by rw [hc]; trivial)

/-- A run ends: a `stop` comes after a `start` and after the last call of the producer, and returns
after steps of the writer and of itself. -/
structure Ends (capacity : Nat) (before rest : List Action) : Prop where
  running  : (after capacity before).running = true
  producer : (after capacity before).shared.producer = .idle
  quiet    : ∀ a ∈ rest, a = .thread ∨ a = .control
  returned : (after capacity (before ++ .stop :: rest)).control = .idle

lemma alone_after (as : List Action) : (after capacity as).Alone :=
  run_inv (fun _ a h (_ : True) => h.step a) alone_new
    (along_iff_forall_split.2 fun _ _ _ _ => trivial)

lemma Ends.stopping {before rest : List Action} (h : Ends capacity before rest) :
    Stopping (after capacity (before ++ .stop :: rest)) := by
  have halone : (after capacity before).Alone := alone_after before
  have hstop : (after capacity before).step .stop =
      { after capacity before with running := false, control := .joining } := by
    simp [step, stop, h.running, halone.running h.running]
  have hstart : Stopping ((after capacity before).step .stop) := by
    refine ⟨halone.step .stop, ?_, ?_, ?_, ?_⟩
    all_goals rw [hstop]
    · exact h.producer
    · exact False.elim
    · exact False.elim
  have hrun : after capacity (before ++ .stop :: rest) =
      run step ((after capacity before).step .stop) rest := by
    simp [after]
  rw [hrun]
  refine run_inv (A := fun _ a => a = .thread ∨ a = .control) ?_ hstart (along_of_forall h.quiet)
  rintro s a hs (rfl | rfl)
  · exact hs.thread
  · exact hs.control

/-- After `stop` the drainer is done and nothing is on its way. -/
lemma Ends.nothing_left {before rest : List Action} (h : Ends capacity before rest) :
    (after capacity (before ++ .stop :: rest)).shared.ring.items = [] ∧
      (after capacity (before ++ .stop :: rest)).shared.pendingLoss = 0 ∧
      (after capacity (before ++ .stop :: rest)).shared.producer = .idle ∧
      (after capacity (before ++ .stop :: rest)).drain? = none := by
  have hs := h.stopping
  have hidle := h.returned
  refine ⟨hs.emptied (by rw [hidle]; trivial), hs.collected (by rw [hidle]; trivial), hs.producer,
    ?_⟩
  simp [drain?, hs.alone.idle hidle hs.running, hidle, Thread.drain?, Control.drain?]

/-- After `stop` the log holds exactly the accepted frames in call order and accounts for all the
refused ones. -/
theorem record_complete {before rest : List Action} (h : Ends capacity before rest) :
    Complete (after capacity (before ++ .stop :: rest)).shared := by
  obtain ⟨hring, hpending, hproducer, hdrain⟩ := h.nothing_left
  have hbooks : Accounted (after capacity (before ++ .stop :: rest)).shared
      (after capacity (before ++ .stop :: rest)).drain? := accounted_run (before ++ .stop :: rest)
  obtain ⟨hrecords, hrecorded, hlosses, -⟩ := hbooks
  rw [hdrain] at hrecords hlosses
  rw [hproducer] at hrecorded hlosses
  rw [hpending] at hlosses
  rw [hring] at hrecords
  refine ⟨?_, hrecorded, hlosses⟩
  rw [← hrecords, List.append_nil, Option.elim_none, List.append_nil, frames_kept]

/-- A queue of two refuses the third frame before the writer has started. -/
theorem record_complete_overflow :
    Complete (after 2 ([.record { raw := ['a'] }, .producer, .record { raw := ['b'] }, .producer,
      .record { raw := ['c'] }, .producer, .producer, .start, .thread, .thread, .thread] ++
      .stop :: [.thread, .thread, .thread, .thread, .thread, .thread, .thread, .control, .control,
        .control])).shared :=
  record_complete ⟨by decide +kernel, by decide +kernel, by decide +kernel, by decide +kernel⟩

end HftBot.WsRecorder
