import HftBot.Core.Run
import HftBot.Core.Wakeups
import Mathlib.Data.List.Perm.Lattice
import Mathlib.Data.List.Perm.Subperm

/-!
# Connection pool

The handles of `KalshiClient`: `send_signed` leases one of them, `warmup` takes them all. Any number
of threads run; a step is one critical section of the pool's mutex or one `notify_all`, and a
thread may leave `pool_cv_.wait` at any time, notified, spuriously or because its time is up. What a
thread does with a handle is left out.
-/

namespace HftBot

open HftBot.Core

namespace Pool

/-- The two callers of `pool_cv_.wait`. -/
inductive Wait
  | acquire
  | warmup
deriving DecidableEq, Repr

inductive Doing (η : Type)
  | idle
  | asleep (w : Wait)
  -- out of the wait, before the condition is looked at again
  | woken (w : Wait)
  | holding (h : η)
  | warming (taken : List η)
  -- behind `release` or `give_back`, before `notify_all`
  | notifying
deriving DecidableEq, Repr

/-- The handles that a thread has taken. -/
def Doing.handles {η : Type} : Doing η → List η
  | .holding h     => [h]
  | .warming taken => taken
  | _              => []

section

variable {η : Type} (w : Wait) (h : η) (taken : List η)

@[simp] lemma handles_idle : (Doing.idle : Doing η).handles = [] := rfl

@[simp] lemma handles_asleep : (Doing.asleep w : Doing η).handles = [] := rfl

@[simp] lemma handles_woken : (Doing.woken w : Doing η).handles = [] := rfl

@[simp] lemma handles_holding : (Doing.holding h).handles = [h] := rfl

@[simp] lemma handles_warming : (Doing.warming taken).handles = taken := rfl

@[simp] lemma handles_notifying : (Doing.notifying : Doing η).handles = [] := rfl

end

inductive Action (τ : Type)
  | call (t : τ) (w : Wait)
  | wake (t : τ)
  | recheck (t : τ) (timedOut : Bool)
  | giveBack (t : τ)
  | notify (t : τ)
deriving DecidableEq, Repr

end Pool

structure Pool (τ η : Type) where
  free  : List η
  doing : τ → Pool.Doing η

namespace Pool

variable {τ η : Type} [DecidableEq τ] (all : List η)

/-- The pool after the constructor. -/
def new : Pool τ η := { free := all, doing := fun _ => .idle }

/-- What a caller waits for. -/
def Ready : Wait → List η → Prop
  | .acquire, free => free ≠ []
  | .warmup,  free => free.length = all.length

/-- Take the last free handle, or all of them. -/
def take (s : Pool τ η) (t : τ) : Wait → Option (Pool τ η)
  | .acquire =>
    s.free.getLast?.map fun h =>
      { free := s.free.dropLast, doing := Function.update s.doing t (.holding h) }
  | .warmup  =>
    if s.free.length = all.length then
      some { free := [], doing := Function.update s.doing t (.warming s.free) }
    else none

/-- What a sleeper waits for. -/
def Doing.waiting : Doing η → Option (Set (List η))
  | .asleep w => some {free | Ready all w free}
  | _         => none

def set (s : Pool τ η) (t : τ) (d : Doing η) : Pool τ η :=
  { s with doing := Function.update s.doing t d }

/-- One step of one thread. A thread that `acquire` has timed out for gets nothing. -/
def step (s : Pool τ η) : Action τ → Pool τ η
  | .call t w           =>
    match s.doing t with
    | .idle => (s.take all t w).getD (s.set t (.asleep w))
    | _     => s
  | .wake t             =>
    match s.doing t with
    | .asleep w => s.set t (.woken w)
    | _         => s
  | .recheck t timedOut =>
    match s.doing t with
    | .woken w =>
      (s.take all t w).getD
        (s.set t (if timedOut = true ∧ w = .acquire then .idle else .asleep w))
    | _        => s
  | .giveBack t         =>
    match s.doing t with
    | .holding h     =>
      { free := s.free ++ [h], doing := Function.update s.doing t .notifying }
    | .warming taken =>
      { free := s.free ++ taken, doing := Function.update s.doing t .notifying }
    | _              => s
  | .notify t           =>
    match s.doing t with
    | .notifying =>
      { s with
        doing := Function.update
          (fun u =>
            match s.doing u with
            | .asleep w => .woken w
            | d         => d) t .idle }
    | _          => s

/-- The state after a schedule. -/
def after (as : List (Action τ)) : Pool τ η := run (step all) (new all) as

/-! ### Handles -/

variable {all} {s : Pool τ η} {t : τ} {w : Wait}

/-- A caller takes what it waits for, if that is there. -/
lemma take_cases (all : List η) (s : Pool τ η) (t : τ) (w : Wait) :
    (Ready all w s.free ∧ ∃ free d, s.take all t w = some ⟨free, Function.update s.doing t d⟩ ∧
        (free ++ d.handles).Perm s.free ∧ d.waiting all = none ∧ d ≠ .notifying) ∨
      (¬ Ready all w s.free ∧ s.take all t w = none) := by
  cases w with
  | acquire =>
    rcases List.eq_nil_or_concat s.free with hnil | ⟨free, h, hfree⟩
    · exact .inr ⟨by simp [Ready, hnil], by simp [take, hnil]⟩
    · refine .inl ⟨by simp [Ready, hfree], free, .holding h, ?_, ?_, rfl, by simp⟩
      · simp [take, hfree]
      · simp [Doing.handles, hfree]
  | warmup =>
    by_cases hready : s.free.length = all.length
    · exact .inl ⟨hready, [], .warming s.free, by simp [take, hready], .refl _, rfl, by simp⟩
    · exact .inr ⟨hready, by simp [take, hready]⟩

/-- Every handle is free or with one thread. -/
structure Pooled (all : List η) (s : Pool τ η) : Prop where
  free      : s.free.Nodup
  nodup     : ∀ t, (s.free ++ (s.doing t).handles).Nodup
  exclusive : ∀ t t', t ≠ t' → (s.doing t).handles.Disjoint (s.doing t').handles
  complete  : ∀ h, h ∈ all ↔ h ∈ s.free ∨ ∃ t, h ∈ (s.doing t).handles

/-- Handles pass between a thread and the pool. -/
lemma Pooled.pass (hs : Pooled all s) {free : List η} {d : Doing η}
    (hperm : (free ++ d.handles).Perm (s.free ++ (s.doing t).handles)) :
    Pooled all ⟨free, Function.update s.doing t d⟩ := by
  have hmem : ∀ h, h ∈ free ∨ h ∈ d.handles ↔ h ∈ s.free ∨ h ∈ (s.doing t).handles := by
    intro h
    rw [← List.mem_append, ← List.mem_append, hperm.mem_iff]
  have hnodup : (free ++ d.handles).Nodup := hperm.nodup_iff.2 (hs.nodup t)
  obtain ⟨hfree, hd, -⟩ := List.nodup_append'.1 hnodup
  -- another thread has none of these handles
  have hother : ∀ u, u ≠ t → ∀ h ∈ (s.doing u).handles, ¬ (h ∈ free ∨ h ∈ d.handles) := by
    intro u hu h hh hor
    rcases (hmem h).1 hor with hin | hin
    · exact (List.nodup_append'.1 (hs.nodup u)).2.2 hin hh
    · exact hs.exclusive u t hu hh hin
  refine ⟨hfree, ?_, ?_, ?_⟩
  · intro u
    by_cases hu : u = t
    · subst hu
      simpa using hnodup
    · simp only [Function.update_of_ne hu]
      refine List.nodup_append'.2 ⟨hfree, (List.nodup_append'.1 (hs.nodup u)).2.1, ?_⟩
      exact fun h hin hh => hother u hu h hh (.inl hin)
  · intro u u' huu'
    by_cases hu : u = t
    · subst hu
      simp only [Function.update_self, Function.update_of_ne huu'.symm]
      exact fun h hin hh => hother u' huu'.symm h hh (.inr hin)
    · by_cases hu' : u' = t
      · subst hu'
        simp only [Function.update_self, Function.update_of_ne hu]
        exact fun h hh hin => hother u hu h hh (.inr hin)
      · simp only [Function.update_of_ne hu, Function.update_of_ne hu']
        exact hs.exclusive u u' huu'
  · intro h
    rw [hs.complete]
    constructor
    · rintro (hin | ⟨u, hin⟩)
      · rcases (hmem h).2 (.inl hin) with h' | h'
        · exact .inl h'
        · exact .inr ⟨t, by simpa using h'⟩
      · by_cases hu : u = t
        · subst hu
          rcases (hmem h).2 (.inr hin) with h' | h'
          · exact .inl h'
          · exact .inr ⟨u, by simpa using h'⟩
        · exact .inr ⟨u, by simpa [Function.update_of_ne hu] using hin⟩
    · rintro (hin | ⟨u, hin⟩)
      · rcases (hmem h).1 (.inl hin) with h' | h'
        · exact .inl h'
        · exact .inr ⟨t, h'⟩
      · by_cases hu : u = t
        · subst hu
          rcases (hmem h).1 (.inr (by simpa using hin)) with h' | h'
          · exact .inl h'
          · exact .inr ⟨u, h'⟩
        · exact .inr ⟨u, by simpa [Function.update_of_ne hu] using hin⟩

/-- A notification changes what the sleepers do, and nothing that anybody has. -/
lemma handles_notified (s : Pool τ η) (ht : s.doing t = .notifying) (u : τ) :
    ((s.step all (.notify t)).doing u).handles = (s.doing u).handles := by
  simp only [step, ht]
  by_cases hu : u = t
  · subst hu
    simp [ht, Doing.handles]
  · rw [Function.update_of_ne hu]
    cases s.doing u <;> rfl

/-- A thread goes on without a handle. -/
lemma Pooled.set (hs : Pooled all s) {d : Doing η} (ht : (s.doing t).handles = [])
    (hd : d.handles = []) : Pooled all (s.set t d) :=
  hs.pass (by rw [ht, hd])

lemma Pooled.step (hs : Pooled all s) (a : Action τ) : Pooled all (s.step all a) := by
  cases a with
  | call t w =>
    cases ht : s.doing t with
    | idle =>
      simp only [Pool.step, ht]
      rcases take_cases all s t w with ⟨-, free, d, htake, hperm, -⟩ | ⟨-, htake⟩
      · rw [htake]
        exact hs.pass (by simpa [ht] using hperm)
      · rw [htake]
        exact hs.set (by simp [ht]) rfl
    | _ => simpa only [Pool.step, ht] using hs
  | wake t =>
    cases ht : s.doing t with
    | asleep w => simpa only [Pool.step, ht] using hs.set (d := .woken w) (by simp [ht]) rfl
    | _ => simpa only [Pool.step, ht] using hs
  | recheck t timedOut =>
    cases ht : s.doing t with
    | woken w =>
      simp only [Pool.step, ht]
      rcases take_cases all s t w with ⟨-, free, d, htake, hperm, -⟩ | ⟨-, htake⟩
      · rw [htake]
        exact hs.pass (by simpa [ht] using hperm)
      · rw [htake, Option.getD_none]
        split_ifs <;> exact hs.set (by simp [ht]) rfl
    | _ => simpa only [Pool.step, ht] using hs
  | giveBack t =>
    cases ht : s.doing t with
    | holding h => simpa only [Pool.step, ht] using hs.pass (by simp [ht])
    | warming taken => simpa only [Pool.step, ht] using hs.pass (by simp [ht])
    | _ => simpa only [Pool.step, ht] using hs
  | notify t =>
    cases ht : s.doing t with
    | notifying =>
      have hfree : (s.step all (.notify t)).free = s.free := by simp only [Pool.step, ht]
      have hhandles (u : τ) : ((s.step all (.notify t)).doing u).handles = (s.doing u).handles :=
        handles_notified s ht u
      exact ⟨hfree ▸ hs.free, fun u => by rw [hfree, hhandles]; exact hs.nodup u,
        fun u u' huu' => by rw [hhandles, hhandles]; exact hs.exclusive u u' huu',
        fun h => by simp only [hfree, hhandles]; exact hs.complete h⟩
    | _ => simpa only [Pool.step, ht] using hs

lemma pooled_after (hall : all.Nodup) (as : List (Action τ)) : Pooled all (after all as) := by
  apply run_preserves fun s a (h : Pooled all s) => h.step a
  exact ⟨hall, fun t => by simpa [new] using hall, fun t t' _ => by simp [new], fun h => by simp [new]⟩

omit [DecidableEq τ] in
lemma Pooled.perm (hs : Pooled all s) (hall : all.Nodup) (hnone : ∀ t, (s.doing t).handles = []) :
    s.free.Perm all := by
  rw [List.perm_ext_iff_of_nodup hs.free hall]
  intro h
  simp [hs.complete h, hnone]

/-- Whatever the threads do, a handle is free or with exactly one of them, and when none of them has
any, all are back in the pool. -/
theorem exclusive_leases (hall : all.Nodup) (as : List (Action τ)) :
    (∀ h ∈ all, (h ∈ (after all as).free ∧ ∀ t, h ∉ ((after all as).doing t).handles) ∨
        h ∉ (after all as).free ∧ ∃! t, h ∈ ((after all as).doing t).handles) ∧
      ((∀ t, ((after all as).doing t).handles = []) → (after all as).free.Perm all) := by
  have hs := pooled_after hall as
  generalize after all as = s at hs
  have hapart : ∀ h t, h ∈ s.free → h ∉ (s.doing t).handles :=
    fun h t hfree ht => (List.nodup_append'.1 (hs.nodup t)).2.2 hfree ht
  constructor
  · intro h hh
    rcases (hs.complete h).1 hh with hfree | ⟨t, ht⟩
    · exact .inl ⟨hfree, fun t => hapart h t hfree⟩
    · refine .inr ⟨fun hfree => hapart h t hfree ht, t, ht, fun u hu => ?_⟩
      by_contra hne
      exact hs.exclusive u t hne hu ht
  · exact hs.perm hall

/-- One thread has a handle, and `warmup` waits for it. -/
theorem exclusive_leases_two :
    (∀ h ∈ [3, 4],
        (h ∈ (after [3, 4] [.call 0 .acquire, .call 1 .warmup]).free ∧
          ∀ t : Nat, h ∉ ((after [3, 4] [.call 0 .acquire, .call 1 .warmup]).doing t).handles) ∨
        h ∉ (after [3, 4] [.call (0 : Nat) .acquire, .call 1 .warmup]).free ∧
          ∃! t, h ∈ ((after [3, 4] [.call 0 .acquire, .call 1 .warmup]).doing t).handles) ∧
      ((∀ t, ((after [3, 4] [.call 0 .acquire, .call 1 .warmup]).doing t).handles = []) →
        (after [3, 4] [.call 0 .acquire, .call 1 .warmup]).free.Perm [3, 4]) :=
  exclusive_leases (by decide) _

/-! ### Sleepers -/

/-- The pool as threads that sleep and threads that are bound to notify. -/
def view (all : List η) (s : Pool τ η) : Wakeups τ τ (List η) where
  shared   := s.free
  asleep t := (s.doing t).waiting all
  bound    := {t | s.doing t = .notifying}

lemma waiting_eq_some {d : Doing η} {P : Set (List η)} (h : d.waiting all = some P) :
    ∃ w, d = .asleep w ∧ P = {free | Ready all w free} := by
  cases d with
  | asleep w => exact ⟨w, rfl, (Option.some.inj h).symm⟩
  | _ => cases h

lemma asleep_update (free : List η) (d : Doing η) :
    (view all ⟨free, Function.update s.doing t d⟩).asleep =
      Function.update (view all s).asleep t (d.waiting all) := by
  funext u
  by_cases hu : u = t
  · subst hu
    simp [view]
  · simp [Function.update_of_ne hu, view]

/-- A thread that was not bound to notify, and is not now. -/
lemma view_update {free : List η} {d : Doing η} (ht : s.doing t ≠ .notifying)
    (hd : d ≠ .notifying) :
    view all ⟨free, Function.update s.doing t d⟩ =
      { view all s with
        shared := free, asleep := Function.update (view all s).asleep t (d.waiting all) } := by
  have hbound : (view all ⟨free, Function.update s.doing t d⟩).bound = (view all s).bound := by
    ext u
    by_cases hu : u = t
    · subst hu
      simp [view, ht, hd]
    · simp [view, Function.update_of_ne hu]
  exact Wakeups.ext rfl (asleep_update free d) hbound

lemma view_giveBack {free : List η} (ht : (s.doing t).waiting all = none) :
    view all ⟨free, Function.update s.doing t .notifying⟩ =
      { view all s with shared := free, bound := insert t (view all s).bound } := by
  have hbound : (view all ⟨free, Function.update s.doing t .notifying⟩).bound =
      insert t (view all s).bound := by
    ext u
    by_cases hu : u = t
    · subst hu
      simp [view]
    · simp [view, hu]
  have hasleep : (view all ⟨free, Function.update s.doing t .notifying⟩).asleep =
      (view all s).asleep := by
    rw [asleep_update, Function.update_eq_self_iff]
    exact ht.symm
  exact Wakeups.ext rfl hasleep hbound

lemma view_notify (ht : s.doing t = .notifying) :
    view all (s.step all (.notify t)) =
      { view all s with asleep := fun _ => none, bound := (view all s).bound \ {t} } := by
  simp only [step, ht]
  apply Wakeups.ext
  · rfl
  · funext u
    by_cases hu : u = t
    · subst hu
      simp [view, Doing.waiting]
    · simp only [view, Function.update_of_ne hu]
      cases s.doing u <;> rfl
  · ext u
    by_cases hu : u = t
    · subst hu
      simp [view]
    · simp only [view, Set.mem_ofPred_eq, Function.update_of_ne hu, Set.mem_sdiff,
        Set.mem_singleton_iff, hu, not_false_eq_true, and_true]
      cases s.doing u <;> simp

omit [DecidableEq τ] in
lemma Pooled.length_le (hs : Pooled all s) : s.free.length ≤ all.length :=
  (hs.free.subperm fun h hh => (hs.complete h).2 (.inl hh)).length_le

omit [DecidableEq τ] in
/-- What is taken makes nobody ready. -/
lemma Pooled.take_quiet (hs : Pooled all s) {free : List η} (hle : free.length ≤ s.free.length)
    {w : Wait} (h : Ready all w free) : Ready all w s.free := by
  cases w with
  | acquire =>
    intro hnil
    rw [hnil, List.length_nil, Nat.le_zero, List.length_eq_zero_iff] at hle
    exact h hle
  | warmup => exact Nat.le_antisymm hs.length_le (h ▸ hle)

/-- To take handles, or to fall asleep without. -/
lemma Pooled.moves_take (hs : Pooled all s) (t : τ) (w : Wait) {s' : Pool τ η}
    (hidle : (s.doing t).waiting all = none) (hbound : s.doing t ≠ .notifying)
    (hsleep : ¬ Ready all w s.free → (view all s).Moves (view all s')) :
    (view all s).Moves (view all ((s.take all t w).getD s')) := by
  rcases take_cases all s t w with ⟨-, free, d, htake, hperm, hd, hd'⟩ | ⟨hready, htake⟩
  · have hasleep : Function.update (view all s).asleep t (d.waiting all) = (view all s).asleep := by
      rw [Function.update_eq_self_iff, hd]
      exact hidle.symm
    rw [htake, Option.getD_some, view_update hbound hd', hasleep]
    refine (Wakeups.Move.quiet ?_).moves
    intro u P hu hP
    obtain ⟨w', -, rfl⟩ := waiting_eq_some hu
    refine hs.take_quiet ?_ hP
    rw [← hperm.length_eq, List.length_append]
    exact Nat.le_add_right _ _
  · rw [htake]
    exact hsleep hready

/-- A thread that is awake falls asleep, if it is not ready. -/
lemma moves_sleep {w : Wait} (hbound : s.doing t ≠ .notifying) (hready : ¬ Ready all w s.free) :
    (view all s).Moves (view all (s.set t (.asleep w))) := by
  rw [set, view_update hbound (by simp)]
  exact (Wakeups.Move.sleep t hready).moves

lemma Pooled.moves (hs : Pooled all s) (a : Action τ) :
    (view all s).Moves (view all (s.step all a)) := by
  cases a with
  | call t w =>
    cases ht : s.doing t with
    | idle =>
      have hbound : s.doing t ≠ .notifying := by simp [ht]
      simp only [Pool.step, ht]
      exact hs.moves_take t w (by rw [ht]; rfl) hbound (moves_sleep hbound)
    | _ => simpa only [Pool.step, ht] using .refl _
  | wake t =>
    cases ht : s.doing t with
    | asleep w =>
      simp only [Pool.step, ht]
      rw [Pool.set, view_update (by simp [ht]) (by simp)]
      exact (Wakeups.Move.wake t).moves
    | _ => simpa only [Pool.step, ht] using .refl _
  | recheck t timedOut =>
    cases ht : s.doing t with
    | woken w =>
      have hbound : s.doing t ≠ .notifying := by simp [ht]
      simp only [Pool.step, ht]
      refine hs.moves_take t w (by rw [ht]; rfl) hbound fun hready => ?_
      split_ifs
      · rw [Pool.set, view_update hbound (by simp)]
        exact (Wakeups.Move.wake t).moves
      · exact moves_sleep hbound hready
    | _ => simpa only [Pool.step, ht] using .refl _
  | giveBack t =>
    cases ht : s.doing t with
    | holding h =>
      simp only [Pool.step, ht]
      rw [view_giveBack (by rw [ht]; rfl)]
      exact (Wakeups.Move.change t _).moves
    | warming taken =>
      simp only [Pool.step, ht]
      rw [view_giveBack (by rw [ht]; rfl)]
      exact (Wakeups.Move.change t _).moves
    | _ => simpa only [Pool.step, ht] using .refl _
  | notify t =>
    cases ht : s.doing t with
    | notifying =>
      rw [view_notify ht]
      exact (Wakeups.Move.notify t).moves
    | _ => simpa only [Pool.step, ht] using .refl _

lemma noneStranded_after (hall : all.Nodup) (as : List (Action τ)) :
    (view all (after all as)).NoneStranded := by
  have h : Pooled all (after all as) ∧ (view all (after all as)).NoneStranded := by
    refine run_preserves (P := fun s => Pooled all s ∧ (view all s).NoneStranded)
      (fun s a h => ⟨h.1.step a, (h.1.moves a).noneStranded h.2⟩) ⟨pooled_after hall [], ?_⟩ as
    intro t P ht
    cases ht
  exact h.2

omit [DecidableEq τ] in
/-- When no thread has a handle, everybody is ready. -/
lemma Pooled.ready (hs : Pooled all s) (hall : all.Nodup) (hne : all ≠ [])
    (hnone : ∀ t, (s.doing t).handles = []) (w : Wait) : Ready all w s.free := by
  have hperm := hs.perm hall hnone
  cases w with
  | acquire => exact fun hnil => hne (hperm.symm.trans (hnil ▸ .refl _)).eq_nil
  | warmup => exact hperm.length_eq

/-- If what a sleeper waits for is there, a thread is about to notify it; if not, another thread has
a handle. -/
lemma sleepers_not_stranded (hall : all.Nodup) (hne : all ≠ []) (as : List (Action τ)) {t : τ}
    {w : Wait} (ht : (after all as).doing t = .asleep w) :
    (Ready all w (after all as).free → ∃ u, (after all as).doing u = .notifying) ∧
      (¬ Ready all w (after all as).free →
        ∃ u ≠ t, ((after all as).doing u).handles ≠ []) := by
  have hs := pooled_after (τ := τ) hall as
  have hstranded := noneStranded_after hall as
  generalize after all as = s at hs hstranded ht
  constructor
  · intro hready
    have hasleep : (view all s).asleep t = some {free | Ready all w free} := by
      simp [view, ht, Doing.waiting]
    exact hstranded t _ hasleep hready
  · intro hready
    by_contra hnone
    refine hready (hs.ready hall hne (fun u => ?_) w)
    by_cases hu : u = t
    · rw [hu, ht]
      rfl
    · by_contra hhandles
      exact hnone ⟨u, hu, hhandles⟩

/-! ### Nobody waits forever -/

lemma take_of_ready (hne : all ≠ []) {w : Wait} (h : Ready all w s.free) (t : τ) :
    ∃ s', s.take all t w = some s' ∧ (s'.doing t).handles ≠ [] := by
  cases w with
  | acquire =>
    rcases List.eq_nil_or_concat s.free with hnil | ⟨free, h', hfree⟩
    · exact absurd hnil h
    · exact ⟨_, by simp [take, hfree]; rfl, by simp⟩
  | warmup =>
    refine ⟨_, by simp only [take]; exact if_pos h, ?_⟩
    simpa [← List.length_eq_zero_iff, (show s.free.length = all.length from h)] using hne

/-- A step of a thread that finishes, or of the sleeper. -/
def Finishes (t : τ) : Action τ → Prop
  | .giveBack _    => True
  | .notify _      => True
  | .recheck u _   => u = t
  | _              => False

/-- A sleeper that is ready is woken by the thread that is bound to, and takes its handles. -/
lemma served_of_ready (hne : all ≠ []) {u : τ} {w : Wait} (ht : s.doing t = .asleep w)
    (hu : s.doing u = .notifying) (hready : Ready all w s.free) :
    ((run (step all) s [.notify u, .recheck t false]).doing t).handles ≠ [] := by
  have htu : t ≠ u := by
    rintro rfl
    rw [ht] at hu
    cases hu
  have hwoken : (s.step all (.notify u)).doing t = .woken w := by
    simp [step, hu, Function.update_of_ne htu, ht]
  have hfree : (s.step all (.notify u)).free = s.free := by simp only [step, hu]
  obtain ⟨s', htake, hs'⟩ := take_of_ready (s := s.step all (.notify u)) hne (hfree ▸ hready) t
  rw [run_cons, run_cons, run_nil, step, hwoken]
  simpa only [htake, Option.getD_some] using hs'

variable (all) in
/-- A thread that has handles gives them back. -/
lemma giveBack_free {u : τ} (hu : (s.doing u).handles ≠ []) :
    (s.step all (.giveBack u)).free.length = s.free.length + (s.doing u).handles.length ∧
      ∀ t ≠ u, (s.step all (.giveBack u)).doing t = s.doing t := by
  cases hd : s.doing u with
  | holding h =>
    simp only [step, hd]
    exact ⟨by simp, fun t ht => Function.update_of_ne ht _ _⟩
  | warming taken =>
    simp only [step, hd]
    exact ⟨by simp, fun t ht => Function.update_of_ne ht _ _⟩
  | _ => simp [hd] at hu

/-- The other threads have only to finish, and a sleeper gets what it waits for. -/
lemma sleepers_can_be_served (hall : all.Nodup) (hne : all ≠ []) (as : List (Action τ)) {t : τ}
    {w : Wait} (ht : (after all as).doing t = .asleep w) :
    ∃ rest, (∀ a ∈ rest, Finishes t a) ∧ ((after all (as ++ rest)).doing t).handles ≠ [] := by
  -- by induction on the handles that are not free
  generalize hn : all.length - (after all as).free.length = n
  induction n using Nat.strong_induction_on generalizing as with
  | _ n ih =>
    have hrun : ∀ rest, after all (as ++ rest) = run (step all) (after all as) rest := by
      simp [after]
    obtain ⟨hbound, hother⟩ := sleepers_not_stranded hall hne as ht
    by_cases hready : Ready all w (after all as).free
    · obtain ⟨u, hu⟩ := hbound hready
      refine ⟨[.notify u, .recheck t false], by simp [Finishes], ?_⟩
      rw [hrun]
      exact served_of_ready hne ht hu hready
    · obtain ⟨u, hut, hu⟩ := hother hready
      obtain ⟨hfree, hdoing⟩ := giveBack_free all hu
      have hstep : after all (as ++ [.giveBack u]) = (after all as).step all (.giveBack u) :=
        hrun [.giveBack u]
      have hlt : (after all as).free.length < (after all (as ++ [.giveBack u])).free.length := by
        rw [hstep, hfree]
        exact Nat.lt_add_of_pos_right (List.length_pos_of_ne_nil hu)
      have hle := (pooled_after hall (as ++ [.giveBack u])).length_le
      obtain ⟨rest, hrest, hserved⟩ := ih _ (by omega) (as ++ [.giveBack u])
        (by rw [hstep, hdoing t hut.symm, ht]) rfl
      refine ⟨.giveBack u :: rest, ?_, by simpa using hserved⟩
      exact List.forall_mem_cons.2 ⟨trivial, hrest⟩

/-- No wakeup is lost and there is no deadlock: a sleeper for which there is enough is about to be
notified, and whenever the others finish it gets what it waits for. -/
theorem sleepers_served (hall : all.Nodup) (hne : all ≠ []) (as : List (Action τ)) {t : τ}
    {w : Wait} (ht : (after all as).doing t = .asleep w) :
    (Ready all w (after all as).free → ∃ u, (after all as).doing u = .notifying) ∧
      ∃ rest, (∀ a ∈ rest, Finishes t a) ∧ ((after all (as ++ rest)).doing t).handles ≠ [] :=
  ⟨(sleepers_not_stranded hall hne as ht).1, sleepers_can_be_served hall hne as ht⟩

/-- The only handle has just been given back. -/
theorem sleepers_served_one :
    ∃ rest, (∀ a ∈ rest, Finishes 1 a) ∧
      ((after [3] ([.call (0 : Nat) .acquire, .call 1 .acquire, .giveBack 0] ++ rest)).doing
        1).handles ≠ [] :=
  (sleepers_served (w := .acquire) (by decide) (by decide) _ rfl).2

end Pool

end HftBot
