import HftBot.Core.Run
import HftBot.Core.Wakeups
import Mathlib.Data.Finset.Card

/-!
# Doorbell

`Doorbell` of `tradingd.cpp`, between the threads that put orders on the ring and the workers that
take them off. A step is one access to the counter of parked workers, to the mutex, to the condition
variable or to the ring, in sequentially consistent order; the ring is the number of its orders. A
worker may leave `wait_for` at any time.
-/

namespace HftBot

open HftBot.Core

namespace Doorbell

/-- Where a worker stands, in `wait` or out of it. -/
inductive Worker
  | working
  -- counted in `parked_`, without the mutex
  | parked
  -- with the mutex, before and after it has found no work
  | looking
  | idle
  | asleep
  -- out of the sleep, without the mutex
  | woken
  -- with the mutex, on the way out
  | leaving
  -- without it, still counted
  | left
deriving DecidableEq, Repr

/-- Where a thread stands that rings, after it has put an order on the ring or has set the flag. -/
inductive Ringer
  | quiet
  | placed
  -- in `ring`, with `parked_` found above zero
  | calling
  -- with the mutex, before and after `notify_all`
  | ringing
  | rung
deriving DecidableEq, Repr

inductive Action (ω π : Type)
  | pop (v : ω)
  | worker (v : ω)
  | expire (v : ω)
  | place (p : π)
  | stop (p : π)
  | signal
  | ringer (p : π)
deriving DecidableEq, Repr

end Doorbell

/-- `holder` has the mutex. -/
structure Doorbell (ω π : Type) where
  orders : Nat := 0
  stop   : Bool := false
  parked : Nat := 0
  holder : Option (ω ⊕ π) := none
  worker : ω → Doorbell.Worker := fun _ => .working
  ringer : π → Doorbell.Ringer := fun _ => .quiet

namespace Doorbell

variable {ω π : Type} [DecidableEq ω] [DecidableEq π]

def setWorker (s : Doorbell ω π) (v : ω) (x : Worker) : Doorbell ω π :=
  { s with worker := Function.update s.worker v x }

def setRinger (s : Doorbell ω π) (p : π) (x : Ringer) : Doorbell ω π :=
  { s with ringer := Function.update s.ringer p x }

section

variable (s : Doorbell ω π) (v : ω) (x : Worker)

omit [DecidableEq π]

@[simp] lemma setWorker_orders : (s.setWorker v x).orders = s.orders := rfl

@[simp] lemma setWorker_parked : (s.setWorker v x).parked = s.parked := rfl

@[simp] lemma setWorker_holder : (s.setWorker v x).holder = s.holder := rfl

@[simp] lemma setWorker_ringer : (s.setWorker v x).ringer = s.ringer := rfl

end

section

variable (s : Doorbell ω π) (p : π) (y : Ringer)

omit [DecidableEq ω]

@[simp] lemma setRinger_orders : (s.setRinger p y).orders = s.orders := rfl

@[simp] lemma setRinger_parked : (s.setRinger p y).parked = s.parked := rfl

@[simp] lemma setRinger_holder : (s.setRinger p y).holder = s.holder := rfl

@[simp] lemma setRinger_worker : (s.setRinger p y).worker = s.worker := rfl

end

/-- The next access of a worker, in `wait`. -/
def workerStep (s : Doorbell ω π) (v : ω) : Doorbell ω π :=
  match s.worker v with
  | .working => { s.setWorker v .parked with parked := s.parked + 1 }
  | .parked  =>
    if s.holder = none then { s.setWorker v .looking with holder := some (.inl v) } else s
  | .looking => s.setWorker v (if 0 < s.orders ∨ s.stop = true then .leaving else .idle)
  | .idle    => { s.setWorker v .asleep with holder := none }
  | .asleep  => s
  | .woken   =>
    if s.holder = none then { s.setWorker v .leaving with holder := some (.inl v) } else s
  | .leaving => { s.setWorker v .left with holder := none }
  | .left    => { s.setWorker v .working with parked := s.parked - 1 }

/-- The next access of a thread in `ring`. -/
def ringerStep (s : Doorbell ω π) (p : π) : Doorbell ω π :=
  match s.ringer p with
  | .quiet   => s
  | .placed  => s.setRinger p (if 0 < s.parked then .calling else .quiet)
  | .calling =>
    if s.holder = none then { s.setRinger p .ringing with holder := some (.inr p) } else s
  | .ringing =>
    { s.setRinger p .rung with
      worker := fun v => if s.worker v = .asleep then .woken else s.worker v }
  | .rung    => { s.setRinger p .quiet with holder := none }

def step (s : Doorbell ω π) : Action ω π → Doorbell ω π
  | .pop v    => if s.worker v = .working then { s with orders := s.orders - 1 } else s
  | .worker v => s.workerStep v
  | .expire v => if s.worker v = .asleep then s.setWorker v .woken else s
  | .place p  =>
    if s.ringer p = .quiet then { s.setRinger p .placed with orders := s.orders + 1 } else s
  | .stop p   => if s.ringer p = .quiet then { s.setRinger p .placed with stop := true } else s
  | .signal   => { s with stop := true }
  | .ringer p => s.ringerStep p

/-- The state after a schedule. -/
def after (as : List (Action ω π)) : Doorbell ω π := run step {} as

/-! ### What the threads keep -/

/-- With the mutex. -/
def Worker.Holds (x : Worker) : Prop := x = .looking ∨ x = .idle ∨ x = .leaving

def Ringer.Holds (x : Ringer) : Prop := x = .ringing ∨ x = .rung

/-- The mutex is with the thread that acts as if it were, and the counter counts the workers in
`wait`. -/
structure Sound (s : Doorbell ω π) : Prop where
  workers : ∀ v, (s.worker v).Holds ↔ s.holder = some (.inl v)
  ringers : ∀ p, (s.ringer p).Holds ↔ s.holder = some (.inr p)
  parked  : ∃ waiting : Finset ω, (∀ v, v ∈ waiting ↔ s.worker v ≠ .working) ∧
    s.parked = waiting.card

variable {s : Doorbell ω π} {v : ω} {p : π}

omit [DecidableEq ω] [DecidableEq π] in
lemma holder_of_ne {a : ω ⊕ π} {holder holder' : Option (ω ⊕ π)}
    (h : holder' = holder ∨ (holder = none ∧ holder' = some a) ∨
      (holder = some a ∧ holder' = none)) {b : ω ⊕ π} (hb : b ≠ a) :
    holder' = some b ↔ holder = some b := by
  rcases h with rfl | ⟨rfl, rfl⟩ | ⟨rfl, rfl⟩
  · exact Iff.rfl
  · simp [Ne.symm hb]
  · simp [Ne.symm hb]

omit [DecidableEq π] in
/-- A worker goes on, with or without the mutex, in `wait` or out of it. -/
lemma Sound.worker (hs : Sound s) {x : Worker} {holder : Option (ω ⊕ π)} {n : Nat}
    (hholder : holder = s.holder ∨ (s.holder = none ∧ holder = some (.inl v)) ∨
      (s.holder = some (.inl v) ∧ holder = none))
    (hx : x.Holds ↔ holder = some (.inl v))
    (hn : (s.worker v ≠ .working ∧ x ≠ .working ∧ n = s.parked) ∨
      (s.worker v = .working ∧ x ≠ .working ∧ n = s.parked + 1) ∨
      (s.worker v ≠ .working ∧ x = .working ∧ n = s.parked - 1)) :
    Sound { s.setWorker v x with holder, parked := n } := by
  refine ⟨fun u => ?_, fun q => ?_, ?_⟩
  · by_cases hu : u = v
    · subst hu
      simpa [setWorker] using hx
    · simp only [setWorker, Function.update_of_ne hu]
      rw [hs.workers, holder_of_ne hholder (by simpa using hu)]
  · simp only [setWorker]
    rw [hs.ringers, holder_of_ne hholder (by simp)]
  · obtain ⟨waiting, hwaiting, hcard⟩ := hs.parked
    have hother : ∀ u, u ≠ v → (Function.update s.worker v x u ≠ .working ↔ u ∈ waiting) := by
      intro u hu
      rw [Function.update_of_ne hu, hwaiting]
    rcases hn with ⟨hv, hx', rfl⟩ | ⟨hv, hx', rfl⟩ | ⟨hv, rfl, rfl⟩
    · refine ⟨waiting, fun u => ?_, hcard⟩
      by_cases hu : u = v
      · subst hu
        simp [setWorker, hwaiting, hv, hx']
      · exact (hother u hu).symm
    · refine ⟨insert v waiting, fun u => ?_, ?_⟩
      · by_cases hu : u = v
        · subst hu
          simp [setWorker, hx']
        · rw [Finset.mem_insert, or_iff_right hu]
          exact (hother u hu).symm
      · rw [Finset.card_insert_of_notMem (by simp [hwaiting, hv]), hcard]
    · refine ⟨waiting.erase v, fun u => ?_, ?_⟩
      · by_cases hu : u = v
        · subst hu
          simp [setWorker]
        · rw [Finset.mem_erase, and_iff_right hu]
          exact (hother u hu).symm
      · rw [Finset.card_erase_of_mem ((hwaiting v).2 hv), hcard]

omit [DecidableEq ω] in
/-- A thread in `ring` goes on, with or without the mutex. -/
lemma Sound.ringer (hs : Sound s) {x : Ringer} {holder : Option (ω ⊕ π)}
    (hholder : holder = s.holder ∨ (s.holder = none ∧ holder = some (.inr p)) ∨
      (s.holder = some (.inr p) ∧ holder = none))
    (hx : x.Holds ↔ holder = some (.inr p)) : Sound { s.setRinger p x with holder } := by
  refine ⟨fun u => ?_, fun q => ?_, hs.parked⟩
  · simp only [setRinger]
    rw [hs.workers, holder_of_ne hholder (by simp)]
  · by_cases hq : q = p
    · subst hq
      simpa [setRinger] using hx
    · simp only [setRinger, Function.update_of_ne hq]
      rw [hs.ringers, holder_of_ne hholder (by simpa using hq)]

omit [DecidableEq ω] [DecidableEq π] in
/-- `notify_all`. -/
lemma Sound.notify (hs : Sound s) :
    Sound { s with worker := fun v => if s.worker v = .asleep then .woken else s.worker v } := by
  refine ⟨fun u => ?_, hs.ringers, ?_⟩
  · rw [← hs.workers]
    by_cases hu : s.worker u = .asleep <;> simp [hu, Worker.Holds]
  · obtain ⟨waiting, hwaiting, hcard⟩ := hs.parked
    refine ⟨waiting, fun u => ?_, hcard⟩
    rw [hwaiting]
    by_cases hu : s.worker u = .asleep <;> simp [hu]

omit [DecidableEq π] in
lemma Sound.workerStep (hs : Sound s) (v : ω) : Sound (s.workerStep v) := by
  have hholds := hs.workers v
  cases hv : s.worker v with
  | working =>
    simp only [hv, Worker.Holds] at hholds
    simp only [Doorbell.workerStep, hv]
    exact hs.worker (.inl rfl) (by simpa [Worker.Holds] using hholds) (by simp [hv])
  | parked =>
    simp only [Doorbell.workerStep, hv]
    split_ifs with hfree
    · exact hs.worker (.inr (.inl ⟨hfree, rfl⟩)) (by simp [Worker.Holds]) (by simp [hv])
    · exact hs
  | looking =>
    have hmine : s.holder = some (.inl v) := hholds.1 (by simp [hv, Worker.Holds])
    simp only [Doorbell.workerStep, hv]
    split_ifs
    · exact hs.worker (.inl rfl) (by simp [Worker.Holds, hmine]) (by simp [hv])
    · exact hs.worker (.inl rfl) (by simp [Worker.Holds, hmine]) (by simp [hv])
  | idle =>
    have hmine : s.holder = some (.inl v) := hholds.1 (by simp [hv, Worker.Holds])
    simp only [Doorbell.workerStep, hv]
    exact hs.worker (.inr (.inr ⟨hmine, rfl⟩)) (by simp [Worker.Holds]) (by simp [hv])
  | asleep => simpa only [Doorbell.workerStep, hv] using hs
  | woken =>
    simp only [Doorbell.workerStep, hv]
    split_ifs with hfree
    · exact hs.worker (.inr (.inl ⟨hfree, rfl⟩)) (by simp [Worker.Holds]) (by simp [hv])
    · exact hs
  | leaving =>
    have hmine : s.holder = some (.inl v) := hholds.1 (by simp [hv, Worker.Holds])
    simp only [Doorbell.workerStep, hv]
    exact hs.worker (.inr (.inr ⟨hmine, rfl⟩)) (by simp [Worker.Holds]) (by simp [hv])
  | left =>
    simp only [hv, Worker.Holds] at hholds
    simp only [Doorbell.workerStep, hv]
    exact hs.worker (.inl rfl) (by simpa [Worker.Holds] using hholds) (by simp [hv])

omit [DecidableEq ω] in
lemma Sound.ringerStep (hs : Sound s) (p : π) : Sound (s.ringerStep p) := by
  have hholds := hs.ringers p
  cases hp : s.ringer p with
  | quiet => simpa only [Doorbell.ringerStep, hp] using hs
  | placed =>
    simp only [hp, Ringer.Holds] at hholds
    simp only [Doorbell.ringerStep, hp]
    split_ifs <;> exact hs.ringer (.inl rfl) (by simpa [Ringer.Holds] using hholds)
  | calling =>
    simp only [Doorbell.ringerStep, hp]
    split_ifs with hfree
    · exact hs.ringer (.inr (.inl ⟨hfree, rfl⟩)) (by simp [Ringer.Holds])
    · exact hs
  | ringing =>
    have hmine : s.holder = some (.inr p) := hholds.1 (by simp [hp, Ringer.Holds])
    simp only [Doorbell.ringerStep, hp]
    exact hs.notify.ringer (.inl rfl) (by simp [Ringer.Holds, hmine])
  | rung =>
    have hmine : s.holder = some (.inr p) := hholds.1 (by simp [hp, Ringer.Holds])
    simp only [Doorbell.ringerStep, hp]
    exact hs.ringer (.inr (.inr ⟨hmine, rfl⟩)) (by simp [Ringer.Holds])

lemma Sound.step (hs : Sound s) (a : Action ω π) : Sound (s.step a) := by
  cases a with
  | pop v =>
    simp only [Doorbell.step]
    split_ifs
    · exact ⟨hs.workers, hs.ringers, hs.parked⟩
    · exact hs
  | worker v => exact hs.workerStep v
  | expire v =>
    have hholds := hs.workers v
    simp only [Doorbell.step]
    split_ifs with hv
    · simp only [hv, Worker.Holds] at hholds
      exact hs.worker (.inl rfl) (by simpa [Worker.Holds] using hholds) (by simp [hv])
    · exact hs
  | place p =>
    have hholds := hs.ringers p
    simp only [Doorbell.step]
    split_ifs with hp
    · simp only [hp, Ringer.Holds] at hholds
      obtain ⟨hworkers, hringers, hparked⟩ :=
        hs.ringer (p := p) (x := .placed) (.inl rfl) (by simpa [Ringer.Holds] using hholds)
      exact ⟨hworkers, hringers, hparked⟩
    · exact hs
  | stop p =>
    have hholds := hs.ringers p
    simp only [Doorbell.step]
    split_ifs with hp
    · simp only [hp, Ringer.Holds] at hholds
      obtain ⟨hworkers, hringers, hparked⟩ :=
        hs.ringer (p := p) (x := .placed) (.inl rfl) (by simpa [Ringer.Holds] using hholds)
      exact ⟨hworkers, hringers, hparked⟩
    · exact hs
  | signal => exact ⟨hs.workers, hs.ringers, hs.parked⟩
  | ringer p => exact hs.ringerStep p

lemma sound_after (as : List (Action ω π)) : Sound (after as) := by
  apply run_preserves fun s a (h : Sound s) => h.step a
  exact ⟨by simp [Worker.Holds], by simp [Ringer.Holds], ∅, by simp, rfl⟩

/-! ### Sleepers -/

/-- A worker that has found no work sleeps as soon as it lets the mutex go. -/
def Worker.Sleeps (x : Worker) : Prop := x = .idle ∨ x = .asleep

instance (x : Worker) : Decidable x.Sleeps := inferInstanceAs (Decidable (_ ∨ _))

/-- Bound to notify, if anybody is parked. -/
def Ringer.Rings (x : Ringer) : Prop := x = .placed ∨ x = .calling ∨ x = .ringing

instance (x : Ringer) : Decidable x.Rings := inferInstanceAs (Decidable (_ ∨ _ ∨ _))

/-- What a sleeper waits for. -/
def Worker.waiting (x : Worker) : Option (Set Nat) := if x.Sleeps then some {n | 0 < n} else none

lemma waiting_eq_some {x : Worker} {P : Set Nat} (h : x.waiting = some P) : P = {n | 0 < n} := by
  rw [Worker.waiting] at h
  split_ifs at h
  exact (Option.some.inj h).symm

def view (s : Doorbell ω π) : Wakeups ω π Nat where
  shared   := s.orders
  asleep v := (s.worker v).waiting
  bound    := {p | (s.ringer p).Rings}

omit [DecidableEq π] in
/-- A worker goes on. -/
lemma view_worker {s' : Doorbell ω π} {x : Worker}
    (hworker : s'.worker = Function.update s.worker v x) (hringer : s'.ringer = s.ringer)
    (horders : s'.orders = s.orders) :
    view s' = { view s with asleep := Function.update (view s).asleep v x.waiting } := by
  apply Wakeups.ext
  · exact horders
  · funext u
    simp only [view, hworker]
    by_cases hu : u = v
    · subst hu
      simp
    · simp [Function.update_of_ne hu]
  · simp [view, hringer]

omit [DecidableEq π] in
/-- A worker that neither sleeps nor slept. -/
lemma moves_awake {s' : Doorbell ω π} {x : Worker}
    (hworker : s'.worker = Function.update s.worker v x) (hringer : s'.ringer = s.ringer)
    (horders : s'.orders = s.orders) (hsame : x.waiting = (s.worker v).waiting) :
    (view s).Moves (view s') := by
  have hasleep : Function.update (view s).asleep v x.waiting = (view s).asleep := by
    rw [Function.update_eq_self_iff]
    exact hsame
  rw [view_worker hworker hringer horders, hasleep]
  exact .refl _

omit [DecidableEq π] in
lemma moves_workerStep (s : Doorbell ω π) (v : ω) : (view s).Moves (view (s.workerStep v)) := by
  cases hv : s.worker v with
  | looking =>
    simp only [workerStep, hv]
    split_ifs with hwork
    · exact moves_awake rfl rfl rfl (by rw [hv]; rfl)
    · have hview : view (s.setWorker v .idle) = _ := view_worker rfl rfl rfl
      rw [hview]
      exact (Wakeups.Move.sleep v fun h => hwork (.inl h)).moves
  | asleep => simpa only [workerStep, hv] using .refl _
  | parked =>
    simp only [workerStep, hv]
    split_ifs
    · exact moves_awake (v := v) (x := .looking) rfl rfl rfl (by rw [hv]; rfl)
    · exact .refl _
  | woken =>
    simp only [workerStep, hv]
    split_ifs
    · exact moves_awake (v := v) (x := .leaving) rfl rfl rfl (by rw [hv]; rfl)
    · exact .refl _
  | working =>
    simp only [workerStep, hv]
    exact moves_awake (v := v) (x := .parked) rfl rfl rfl (by rw [hv]; rfl)
  | idle =>
    simp only [workerStep, hv]
    exact moves_awake (v := v) (x := .asleep) rfl rfl rfl (by rw [hv]; rfl)
  | leaving =>
    simp only [workerStep, hv]
    exact moves_awake (v := v) (x := .left) rfl rfl rfl (by rw [hv]; rfl)
  | left =>
    simp only [workerStep, hv]
    exact moves_awake (v := v) (x := .working) rfl rfl rfl (by rw [hv]; rfl)

omit [DecidableEq ω] in
lemma bound_setRinger (s : Doorbell ω π) (p : π) (x : Ringer) :
    (view (s.setRinger p x)).bound =
      if x.Rings then insert p (view s).bound else (view s).bound \ {p} := by
  ext q
  by_cases hq : q = p
  · subst hq
    split_ifs with hx <;> simp [view, setRinger, hx]
  · split_ifs <;> simp [view, setRinger, hq]

/-- A thread is bound to notify, whatever it has put on the ring. -/
lemma moves_bound {s' : Doorbell ω π} {x : Ringer} (hworker : s'.worker = s.worker)
    (hringer : s'.ringer = Function.update s.ringer p x) (hx : x.Rings) :
    (view s).Moves (view s') := by
  have hasleep : (view s').asleep = (view s).asleep := by simp [view, hworker]
  have hbound : (view s').bound = insert p (view s).bound := by
    have h := bound_setRinger s p x
    rw [if_pos hx] at h
    rw [← h]
    simp [view, hringer, setRinger]
  have hview : view s' =
      { view s with shared := s'.orders, bound := insert p (view s).bound } :=
    Wakeups.ext rfl hasleep hbound
  rw [hview]
  exact (Wakeups.Move.change p _).moves

omit [DecidableEq ω] [DecidableEq π] in
/-- Nobody sleeps when nobody is counted. -/
lemma Sound.asleep_of_parked (hs : Sound s) (hparked : s.parked = 0) (v : ω) :
    (view s).asleep v = none := by
  obtain ⟨waiting, hwaiting, hcard⟩ := hs.parked
  rw [hparked] at hcard
  have hv : v ∉ waiting := by
    rw [Finset.card_eq_zero.1 hcard.symm]
    exact Finset.notMem_empty v
  rw [hwaiting, not_not] at hv
  simp [view, hv, Worker.waiting, Worker.Sleeps]

lemma Sound.moves_ringerStep (hs : Sound s) (p : π) : (view s).Moves (view (s.ringerStep p)) := by
  cases hp : s.ringer p with
  | quiet => simpa only [Doorbell.ringerStep, hp] using .refl _
  | placed =>
    simp only [Doorbell.ringerStep, hp]
    split_ifs with hparked
    · exact moves_bound (p := p) (x := .calling) rfl rfl (by decide)
    · have hnone : (view s).asleep = fun _ => none :=
        funext (hs.asleep_of_parked (Nat.eq_zero_of_not_pos hparked))
      have hview : view (s.setRinger p .quiet) =
          { view s with asleep := fun _ => none, bound := (view s).bound \ {p} } :=
        Wakeups.ext rfl hnone (bound_setRinger s p .quiet)
      rw [hview]
      exact (Wakeups.Move.notify p).moves
  | calling =>
    simp only [Doorbell.ringerStep, hp]
    split_ifs
    · exact moves_bound (p := p) (x := .ringing) rfl rfl (by decide)
    · exact .refl _
  | ringing =>
    have hmine : s.holder = some (.inr p) := (hs.ringers p).1 (by simp [hp, Ringer.Holds])
    -- the mutex is not with a worker, so none is about to fall asleep
    have hidle : ∀ v, s.worker v ≠ .idle := by
      intro v hv
      have hother : s.holder = some (.inl v) := (hs.workers v).1 (by simp [hv, Worker.Holds])
      rw [hmine] at hother
      cases hother
    have hview : view (s.ringerStep p) =
        { view s with asleep := fun _ => none, bound := (view s).bound \ {p} } := by
      simp only [Doorbell.ringerStep, hp]
      refine Wakeups.ext rfl (funext fun v => ?_) (bound_setRinger s p .rung)
      by_cases hv : s.worker v = .asleep
      · simp [view, hv, Worker.waiting, Worker.Sleeps]
      · simp [view, hv, hidle v, Worker.waiting, Worker.Sleeps]
    rw [hview]
    exact (Wakeups.Move.notify p).moves
  | rung =>
    have hbound : (view s).bound \ {p} = (view s).bound := by
      rw [Set.sdiff_singleton_eq_self]
      simp [view, hp, Ringer.Rings]
    have hview : view (s.ringerStep p) = view s := by
      simp only [Doorbell.ringerStep, hp]
      exact Wakeups.ext rfl rfl ((bound_setRinger s p .quiet).trans hbound)
    rw [hview]
    exact .refl _

lemma Sound.moves (hs : Sound s) (a : Action ω π) : (view s).Moves (view (s.step a)) := by
  cases a with
  | pop v =>
    simp only [Doorbell.step]
    split_ifs
    · refine (Wakeups.Move.quiet ?_).moves
      intro u P hu hP
      obtain rfl := waiting_eq_some hu
      exact Nat.lt_of_lt_of_le hP (Nat.sub_le _ _)
    · exact .refl _
  | worker v => exact moves_workerStep s v
  | expire v =>
    simp only [Doorbell.step]
    split_ifs
    · have hview : view (s.setWorker v .woken) = _ := view_worker rfl rfl rfl
      rw [hview]
      exact (Wakeups.Move.wake v).moves
    · exact .refl _
  | place p =>
    simp only [Doorbell.step]
    split_ifs
    · exact moves_bound (p := p) (x := .placed) rfl rfl (by decide)
    · exact .refl _
  | stop p =>
    simp only [Doorbell.step]
    split_ifs
    · exact moves_bound (p := p) (x := .placed) rfl rfl (by decide)
    · exact .refl _
  | signal => exact .refl _
  | ringer p => exact hs.moves_ringerStep p

/-- A worker sleeps on an order only while a thread is about to wake it: in sequentially consistent
order no wakeup is lost, and the time limit of the wait is not needed. -/
theorem no_worker_sleeps_on_order (as : List (Action ω π)) {v : ω}
    (hv : ((after as).worker v).Sleeps) (horders : 0 < (after as).orders) :
    ∃ p, ((after as).ringer p).Rings := by
  have h : Sound (after as) ∧ (view (after as)).NoneStranded := by
    refine run_preserves (P := fun s => Sound s ∧ (view s).NoneStranded)
      (fun s a h => ⟨h.1.step a, (h.1.moves a).noneStranded h.2⟩) ⟨sound_after [], ?_⟩ as
    intro v P hv
    cases hv
  refine h.2 v {n | 0 < n} ?_ horders
  simp [view, Worker.waiting, hv]

/-- A worker has gone to sleep before the order comes. -/
theorem no_worker_sleeps_on_order_asleep :
    ∃ p : Nat, ((after [.worker (0 : Nat), .worker 0, .worker 0, .worker 0, .place 1]).ringer
      p).Rings :=
  no_worker_sleeps_on_order (v := 0) _ (by decide) (by decide)

end Doorbell

end HftBot
