import HftBot.Store.Completeness

/-!
# Blind spots

The count of lost frames travels beside the queue, not through it. A loss marker stands where the
frames were lost only if nothing is accepted between the loss and the pass over the queue that
collects it, and if nothing is lost between the end of such a pass and its collection. A marker that
is lost is not counted at all.
-/

namespace HftBot.WsRecorder

open HftBot.Core

variable {capacity : Nat}

/-! ### Marks between elements -/

/-- A weight of `n` at one place. -/
def weightAt (place n k : Nat) : Nat := if k = place then n else 0

@[simp] lemma weightAt_zero (place k : Nat) : weightAt place 0 k = 0 := by
  simp [weightAt]

lemma weightAt_add (place m n k : Nat) :
    weightAt place (m + n) k = weightAt place m k + weightAt place n k := by
  simp only [weightAt]
  split <;> rfl

section

variable {α : Type*} (f : α → Option Nat)

/-- The total weight of the marks that stand after exactly `k` of the other elements. -/
def weightAfter : List α → Nat → Nat
  | [], _     => 0
  | a :: l, k =>
    match f a, k with
    | some n, k   => (if k = 0 then n else 0) + weightAfter l k
    | none, 0     => 0
    | none, k + 1 => weightAfter l k

/-- The elements that are no marks. -/
def unmarked (l : List α) : List α := l.filter fun a => (f a).isNone

lemma weightAfter_append (l : List α) (a : α) (k : Nat) :
    weightAfter f (l ++ [a]) k =
      weightAfter f l k + weightAt (unmarked f l).length ((f a).getD 0) k := by
  induction l generalizing k with
  | nil => cases ha : f a <;> cases k <;> simp [weightAfter, weightAt, unmarked, ha]
  | cons b l ih =>
    cases hb : f b with
    | some n =>
      have hlength : (unmarked f (b :: l)).length = (unmarked f l).length := by
        simp [unmarked, hb]
      simp only [List.cons_append, weightAfter, hb, ih, hlength, Nat.add_assoc]
    | none =>
      have hlength : (unmarked f (b :: l)).length = (unmarked f l).length + 1 := by
        simp [unmarked, hb]
      cases k with
      | zero => simp [weightAfter, weightAt, hb, hlength]
      | succ k => simp [weightAfter, weightAt, hb, hlength, ih]

end

/-- The losses marked after exactly `k` records. -/
def lossAfter (log : List Entry) (k : Nat) : Nat := weightAfter Entry.loss? log k

/-- What was dropped after exactly `k` acceptances, frames and markers alike. -/
def dropsAfter (history : List (Entry × Bool)) (k : Nat) : Nat :=
  weightAfter (fun p => if p.2 then none else some 1) history k

/-- The log holds the accepted records in order, and whatever was dropped is counted by loss markers
that stand after all records accepted before the drop and before all those accepted after it. -/
structure BlindSpotsMarked (s : Shared capacity) : Prop where
  records : kept s.log = accepted s.history
  losses  : ∀ k, lossAfter s.log k = dropsAfter s.history k

/-- Nothing is on its way to the log. -/
structure Settled (s : WsRecorder capacity) : Prop where
  ring     : s.shared.ring.items = []
  pending  : s.shared.pendingLoss = 0
  producer : s.shared.producer = .idle
  drain    : s.drain? = none

/-- No marker meets a full queue. Nothing is accepted while a loss is pending, unless the drainer
has found the queue empty and is about to collect it. No loss becomes pending between these two
steps of the drainer when there are records in the queue again. -/
def Timely (s : Shared capacity) (d : Option Drain) : Action → Prop
  | .record _   => s.producer = .idle → s.ring.items.length < capacity →
    s.pendingLoss = 0 ∨ d = some .exchange
  | .mark _ _ _ => s.producer = .idle → s.ring.items.length < capacity ∧
    (s.pendingLoss = 0 ∨ d = some .exchange)
  | .producer   => s.producer = .counted → d = some .exchange → s.ring.items = []
  | _           => True

instance Timely.decidable (s : Shared capacity) (d : Option Drain) :
    ∀ a, Decidable (Timely s d a)
  | .record _   => inferInstanceAs (Decidable (s.producer = .idle →
    s.ring.items.length < capacity → s.pendingLoss = 0 ∨ d = some .exchange))
  | .mark _ _ _ => inferInstanceAs (Decidable (s.producer = .idle →
    s.ring.items.length < capacity ∧ (s.pendingLoss = 0 ∨ d = some .exchange)))
  | .producer   => inferInstanceAs (Decidable (s.producer = .counted →
    d = some .exchange → s.ring.items = []))
  | .thread     => isTrue trivial
  | .start      => isTrue trivial
  | .stop       => isTrue trivial
  | .control    => isTrue trivial

/-! ### One step -/

lemma length_unmarked_history (h : List (Entry × Bool)) :
    (unmarked (fun p : Entry × Bool => if p.2 then none else some 1) h).length =
      (accepted h).length := by
  rw [unmarked, accepted, List.length_map]
  congr 2
  funext p
  cases p.2 <;> rfl

lemma lossAfter_append (log : List Entry) (e : Entry) (k : Nat) :
    lossAfter (log ++ [e]) k =
      lossAfter log k + weightAt (kept log).length (e.loss?.getD 0) k :=
  weightAfter_append _ _ _ _

lemma dropsAfter_append_true (h : List (Entry × Bool)) (e : Entry) (k : Nat) :
    dropsAfter (h ++ [(e, true)]) k = dropsAfter h k := by
  simp [dropsAfter, weightAfter_append]

lemma dropsAfter_append_false (h : List (Entry × Bool)) (e : Entry) (k : Nat) :
    dropsAfter (h ++ [(e, false)]) k = dropsAfter h k + weightAt (accepted h).length 1 k := by
  simp [dropsAfter, weightAfter_append, length_unmarked_history]

/-- Where the pending losses belong: after the records in the log once the drainer has found the
queue empty, else after all records accepted so far. -/
def pendingPlace (log : List Entry) (history : List (Entry × Bool)) (d : Option Drain) : Nat :=
  if d = some .exchange then (kept log).length else (accepted history).length

/-- Each loss that is on its way will be marked where it happened. -/
structure InPlace (s : Shared capacity) (d : Option Drain) : Prop where
  accounted : Accounted s d
  losses    : ∀ k, lossAfter s.log k + weightAt (kept s.log).length (d.elim 0 Drain.lost) k +
      weightAt (pendingPlace s.log s.history d) s.pendingLoss k +
      weightAt (accepted s.history).length s.producer.uncounted k = dropsAfter s.history k

variable {s : Shared capacity} {d : Option Drain}

lemma InPlace.push_true (h : InPlace s d) (hidle : s.producer = .idle) {e : Entry}
    {ring : BoundedQueue Entry capacity} {producer : Producer}
    (hp : producer.uncounted = 0) (hd : s.pendingLoss = 0 ∨ d = some .exchange)
    (haccounted :
      Accounted { s with ring, producer, history := s.history ++ [(e, true)] } d) :
    InPlace { s with ring, producer, history := s.history ++ [(e, true)] } d := by
  refine ⟨haccounted, fun k => ?_⟩
  have hk := h.losses k
  rw [hidle] at hk
  simp only [hp, dropsAfter_append_true, ← hk]
  rcases hd with hzero | rfl
  · simp [hzero, Producer.uncounted]
  · simp [pendingPlace, Producer.uncounted]

lemma InPlace.push_false (h : InPlace s d) (hidle : s.producer = .idle) {e : Entry}
    {producer : Producer} (hp : producer.uncounted = 1)
    (haccounted : Accounted { s with producer, history := s.history ++ [(e, false)] } d) :
    InPlace { s with producer, history := s.history ++ [(e, false)] } d := by
  refine ⟨haccounted, fun k => ?_⟩
  have hk := h.losses k
  rw [hidle] at hk
  simp only [hp, dropsAfter_append_false, ← hk, pendingPlace, accepted_append_false]
  simp [Producer.uncounted]

lemma InPlace.count (h : InPlace s d)
    (ht : s.producer = .counted → d = some .exchange → s.ring.items = []) :
    InPlace s.count d := by
  refine ⟨h.accounted.count, fun k => ?_⟩
  have hk := h.losses k
  cases hp : s.producer with
  | idle => simpa [Shared.count, hp] using hk
  | pushed => simpa [Shared.count, hp, Producer.uncounted] using hk
  | refused => simpa [Shared.count, hp, Producer.uncounted] using hk
  | markRefused => simpa [Shared.count, hp, Producer.uncounted] using hk
  | counted =>
    -- the count joins the pending losses, which belong to the same place
    have hplace : pendingPlace s.log s.history d = (accepted s.history).length := by
      rw [pendingPlace]
      split_ifs with hd
      · subst hd
        rw [← h.accounted.records, ht hp rfl]
        simp [Drain.held]
      · rfl
    rw [hp] at hk
    simpa [Shared.count, hp, Producer.uncounted, hplace, weightAt_add, Nat.add_assoc] using hk

lemma InPlace.produce (h : InPlace s d) {a : Action} (ht : Timely s d a) :
    InPlace (s.produce a) d := by
  have haccounted := h.accounted.produce a
  cases a with
  | record rec =>
    simp only [Shared.produce] at haccounted ⊢
    split_ifs at haccounted ⊢ with hidle
    · rcases push_cases s ⟨.record, rec⟩ with ⟨ring, hpush, hroom, -⟩ | ⟨hpush, -⟩
      · simp only [Shared.record, hpush] at haccounted ⊢
        exact h.push_true hidle rfl (ht hidle hroom) haccounted
      · simp only [Shared.record, hpush] at haccounted ⊢
        exact h.push_false hidle rfl haccounted
    · exact h
  | mark kind epoch sid =>
    simp only [Shared.produce] at haccounted ⊢
    split_ifs at haccounted ⊢ with hidle
    · obtain ⟨hroom, hd⟩ := ht hidle
      rcases push_cases s
          ⟨.mark, { marker := some kind, streamEpoch := epoch, sourceStreamId := sid }⟩
        with ⟨ring, hpush, -, -⟩ | ⟨-, hfull⟩
      · simp only [Shared.mark, hpush] at haccounted ⊢
        exact h.push_true hidle rfl hd haccounted
      · omega
    · exact h
  | producer => exact h.count ht
  | thread => exact h
  | start => exact h
  | stop => exact h
  | control => exact h

lemma InPlace.drain {d : Drain} (h : InPlace s (some d)) : InPlace (s.drain d).1 (s.drain d).2 := by
  refine ⟨h.accounted.drain, fun k => ?_⟩
  have hk := h.losses k
  cases d with
  | pop =>
    rcases s.ring.tryPop_cases with ⟨e, ring, hpop, -⟩ | ⟨hpop, hempty⟩
    · simpa [Shared.drain, hpop, pendingPlace, Drain.lost] using hk
    · -- the queue is empty: what is accepted is in the log
      have hplace : (kept s.log).length = (accepted s.history).length := by
        rw [← h.accounted.records, hempty]
        simp [Drain.held]
      simpa [Shared.drain, hpop, pendingPlace, Drain.lost, hplace] using hk
  | write e =>
    have he : e.loss? = none := by
      refine h.accounted.loss?_eq_none ?_
      rw [← h.accounted.records]
      simp [Drain.held]
    simpa [Shared.drain, lossAfter_append, he, pendingPlace, Drain.lost] using hk
  | exchange =>
    by_cases hzero : s.pendingLoss = 0
    · simpa [Shared.drain, hzero, Drain.lost] using hk
    · simpa [Shared.drain, hzero, pendingPlace, Drain.lost] using hk
  | writeLoss lost =>
    simpa [Shared.drain, lossAfter_append, pendingPlace, Drain.lost] using hk

/-! ### Whole runs -/

lemma inPlace_run {as : List Action}
    (h : Along step (fun s a => Timely s.shared s.drain? a) ({} : WsRecorder capacity) as) :
    InPlace (after capacity as).shared (after capacity as).drain? := by
  refine run_shared_inv (fun s d a hs ht => hs.produce ht) (fun s d hs => hs.drain)
    (fun s hs => ⟨⟨hs.accounted.records, hs.accounted.recorded, hs.accounted.losses,
      hs.accounted.origin⟩, hs.losses⟩) ⟨accounted_run [], fun k => ?_⟩ h
  simp [lossAfter, dropsAfter, weightAfter, Producer.uncounted]

lemma InPlace.marked {s : WsRecorder capacity} (h : InPlace s.shared s.drain?) (hs : Settled s) :
    BlindSpotsMarked s.shared := by
  obtain ⟨hring, hpending, hproducer, hdrain⟩ := hs
  refine ⟨?_, fun k => ?_⟩
  · simpa [hring, hdrain] using h.accounted.records
  · simpa [hpending, hproducer, hdrain, Producer.uncounted] using h.losses k

/-- In every run of timely steps each loss is marked where it happened: in every state reached no
marker stands where nothing was lost, all are marked once nothing is on its way, and so after
`stop`. -/
theorem losses_marked_in_place :
    (∀ as : List Action,
      Along step (fun s a => Timely s.shared s.drain? a) ({} : WsRecorder capacity) as →
        kept (after capacity as).shared.log <+: accepted (after capacity as).shared.history ∧
        (∀ k, lossAfter (after capacity as).shared.log k ≤
          dropsAfter (after capacity as).shared.history k) ∧
        (Settled (after capacity as) → BlindSpotsMarked (after capacity as).shared)) ∧
    ∀ before rest : List Action, Ends capacity before rest →
      Along step (fun s a => Timely s.shared s.drain? a) ({} : WsRecorder capacity)
        (before ++ .stop :: rest) →
      BlindSpotsMarked (after capacity (before ++ .stop :: rest)).shared := by
  constructor
  · intro as has
    have h := inPlace_run has
    refine ⟨?_, fun k => ?_, h.marked⟩
    · rw [← h.accounted.records, List.append_assoc]
      exact List.prefix_append _ _
    · rw [← h.losses k, Nat.add_assoc, Nat.add_assoc]
      exact Nat.le_add_right _ _
  · intro before rest hends has
    obtain ⟨hring, hpending, hproducer, hdrain⟩ := hends.nothing_left
    exact (inPlace_run has).marked ⟨hring, hpending, hproducer, hdrain⟩

/-- A frame that is lost before the writer starts is marked after the frames of the full queue. -/
theorem losses_marked_overflow :
    BlindSpotsMarked (after 2 ([.record { raw := ['a'] }, .producer, .record { raw := ['b'] },
      .producer, .record { raw := ['c'] }, .producer, .producer, .start] ++
      .stop :: (.thread :: List.replicate 8 .control))).shared :=
  losses_marked_in_place.2 _ _
    ⟨by decide +kernel, by decide +kernel, by decide +kernel, by decide +kernel⟩
    (by decide +kernel)

/-- A schedule in which a frame is accepted while the loss of another is pending. -/
def lateSchedule : List Action :=
  [.record { raw := ['a'] }, .producer, .record { raw := ['b'] }, .producer,
    .record { raw := ['c'] }, .producer, .producer, .start, .thread, .thread,
    .record { raw := ['d'] }, .producer]

/-- The third frame is lost before the fourth one, and its marker follows the fourth one. -/
theorem losses_marked_late :
    Ends 2 lateSchedule (List.replicate 9 .thread ++ List.replicate 3 .control) ∧
      ¬ BlindSpotsMarked (after 2 (lateSchedule ++
        .stop :: (List.replicate 9 .thread ++ List.replicate 3 .control))).shared := by
  refine ⟨⟨by decide +kernel, by decide +kernel, by decide +kernel, by decide +kernel⟩, fun h => ?_⟩
  have := h.losses 2
  revert this
  decide +kernel

end HftBot.WsRecorder
