import HftBot.Engine.OrderAccounting

/-!
# Drain deadline

A worker looks at the deadline only after it has found the queue empty. So orders that are still
queued when the deadline passes are taken and sent all the same, and the deadline is kept exactly in
the runs in which no worker finds an order after it.
-/

namespace HftBot.Tradingd

open HftBot.Core HftBot.Wire

variable {ι : Type} {capacity : Nat}

/-- The stop flag is set with a deadline, and the deadline has passed. -/
def Late (s : Tradingd ι capacity) : Prop := ∃ d ∈ s.deadline?, d < s.now

/-- A worker that looks into the queue after the deadline finds it empty. -/
def PollsInTime (s : Tradingd ι capacity) : Action ι → Prop
  | .worker i _ => s.workers i = .polling → Late s → s.orders.items = []
  | _           => True

/-- Once a deadline is in force, what is sent was taken from the queue before it has passed, and
what is queued then stays in the queue and is counted there. -/
structure KeepsDeadline [Fintype ι] [DecidableEq ι] (capacity : Nat) (ordersEnabled : Bool)
    (maxQueueAgeNs : Nat) (as : List (Action ι)) : Prop where
  transmitted : ∀ t ∈ (after ι capacity ordersEnabled maxQueueAgeNs as).transmitted,
    ∀ d ∈ t.deadline, t.poppedAt ≤ d
  left        : ∀ js, js <+: as → Late (after ι capacity ordersEnabled maxQueueAgeNs js) →
    (after ι capacity ordersEnabled maxQueueAgeNs as).orders.items =
      (after ι capacity ordersEnabled maxQueueAgeNs js).orders.items
  undrained   : (after ι capacity ordersEnabled maxQueueAgeNs as).main = .done →
    (after ι capacity ordersEnabled maxQueueAgeNs as).shutdownDropped =
      (after ι capacity ordersEnabled maxQueueAgeNs as).orders.items.length

/-! ### One step -/

/-- The main thread is past its last submission. -/
def Main.closed : Main → Bool
  | .running    => false
  | .counting _ => false
  | _           => true

/-- There is a deadline only when no more orders come. -/
def Closed (s : Tradingd ι capacity) : Prop := s.drainDeadline ≠ 0 → s.main.closed

variable {s : Tradingd ι capacity}

lemma late_iff : Late s ↔ s.gStop = true ∧ s.drainDeadline ≠ 0 ∧ s.drainDeadline < s.now := by
  simp only [Late, deadline?]
  split_ifs with h
  · simp [h]
  · simp only [Option.not_mem_none, false_and, exists_false, false_iff]
    rintro ⟨hstop, hne, -⟩
    exact h ⟨hstop, hne⟩

/-- A deadline in force is kept by what leaves it alone and does not turn back the clock. -/
lemma Late.mono {s' : Tradingd ι capacity} (h : Late s) (hnow : s.now ≤ s'.now)
    (hstop : s.gStop = true → s'.gStop = true) (hdeadline : s'.drainDeadline = s.drainDeadline) :
    Late s' := by
  rw [late_iff] at h ⊢
  rw [hdeadline]
  exact ⟨hstop h.1, h.2.1, h.2.2.trans_le hnow⟩

/-- A step of a worker changes neither the clock, the flag, the deadline nor the main thread. -/
lemma workerStep_frame [DecidableEq ι] (s : Tradingd ι capacity) (i : ι) (answers : Answers) :
    (s.workerStep i answers).now = s.now ∧ (s.workerStep i answers).gStop = s.gStop ∧
      (s.workerStep i answers).drainDeadline = s.drainDeadline ∧
      (s.workerStep i answers).main = s.main := by
  rcases workerStep_cases s i answers with ⟨w, heq, -⟩ | ⟨m, orders, -, -, heq⟩ |
    ⟨t, kind, -, heq⟩ | ⟨kind, -, heq⟩
  all_goals
    rw [heq]
    exact ⟨rfl, rfl, rfl, rfl⟩

variable [DecidableEq ι] [Fintype ι]

/-- A deadline that has passed stays in force. -/
lemma Closed.step (h : Closed s) (a : Action ι) :
    Closed (s.step a) ∧ (Late s → Late (s.step a)) := by
  cases a with
  | tick ns => exact ⟨h, fun hl => hl.mono (Nat.le_add_right _ _) id rfl⟩
  | signal => exact ⟨h, fun hl => hl.mono le_rfl (fun _ => rfl) rfl⟩
  | worker i answers =>
    obtain ⟨hnow, hstop, hdeadline, hmain⟩ := workerStep_frame s i answers
    refine ⟨?_, fun hl => hl.mono hnow.ge (fun hs => hstop.trans hs) hdeadline⟩
    simpa only [Closed, Tradingd.step, hdeadline, hmain] using h
  | submit strategyId p wallNs =>
    simp only [Tradingd.step]
    split_ifs with hmain
    · have hzero : s.drainDeadline = 0 := by
        by_contra hne
        simpa [hmain, Main.closed] using h hne
      obtain ⟨s', rfl, ⟨orders, m, heq, -⟩ | ⟨kind, heq⟩⟩ :=
        submit_cases s strategyId p wallNs
      · rw [heq]
        exact ⟨fun hne => absurd hzero hne, fun hl => hl.mono le_rfl (fun hs => hs) rfl⟩
      · rw [heq]
        exact ⟨fun hne => absurd hzero hne, fun hl => hl.mono le_rfl (fun hs => hs) rfl⟩
    · exact ⟨h, id⟩
  | shutdown drainMs =>
    simp only [Tradingd.step]
    split_ifs with hmain
    · refine ⟨fun _ => rfl, fun hl => ?_⟩
      have hclosed := h (late_iff.1 hl).2.1
      rw [hmain] at hclosed
      exact absurd hclosed (by decide)
    · exact ⟨h, id⟩
  | main =>
    cases hmain : s.main with
    | running => simpa [Tradingd.step, mainStep, hmain] using h
    | counting kind =>
      have hzero : s.drainDeadline = 0 := by
        by_contra hne
        simpa [hmain, Main.closed] using h hne
      simp only [Tradingd.step, mainStep, hmain]
      exact ⟨fun hne => absurd hzero hne, fun hl => hl.mono le_rfl (fun hs => hs) rfl⟩
    | storing =>
      simp only [Tradingd.step, mainStep, hmain]
      exact ⟨fun _ => rfl, fun hl => hl.mono le_rfl (fun _ => rfl) rfl⟩
    | joining =>
      by_cases hall : ∀ i, s.workers i = .exited
      · simp only [Tradingd.step, mainStep, hmain, hall, implies_true, ↓reduceIte]
        exact ⟨fun _ => rfl, fun hl => hl.mono le_rfl (fun hs => hs) rfl⟩
      · simpa [Tradingd.step, mainStep, hmain, hall] using h
    | done => simpa [Tradingd.step, mainStep, hmain] using h

omit [DecidableEq ι] [Fintype ι] in
lemma late_of_not_pollsInTime {a : Action ι} (h : ¬ PollsInTime s a) : Late s := by
  cases a with
  | worker i answers =>
    simp only [PollsInTime, Classical.not_imp] at h
    exact h.2.1
  | _ => exact absurd trivial h

/-- After the deadline the queue stays as it is exactly when no worker finds an order in it. -/
lemma items_step_eq_iff (h : Closed s) (hlate : Late s) (a : Action ι) :
    (s.step a).orders.items = s.orders.items ↔ PollsInTime s a := by
  have hclosed := h (late_iff.1 hlate).2.1
  cases a with
  | tick ns => exact iff_of_true rfl trivial
  | signal => exact iff_of_true rfl trivial
  | submit strategyId p wallNs =>
    refine iff_of_true ?_ trivial
    simp only [Tradingd.step]
    split_ifs with hmain
    · rw [hmain] at hclosed
      exact absurd hclosed (by decide)
    · rfl
  | shutdown drainMs =>
    refine iff_of_true ?_ trivial
    simp only [Tradingd.step]
    split_ifs <;> rfl
  | main =>
    refine iff_of_true ?_ trivial
    simp only [Tradingd.step, mainStep, count]
    split
    · rfl
    · rfl
    · rfl
    · split_ifs <;> rfl
    · rfl
  | worker i answers =>
    simp only [Tradingd.step, PollsInTime]
    rcases workerStep_cases s i answers with ⟨w, heq, -, -, -, -, hempty⟩ |
      ⟨m, orders, hw, hitems, heq⟩ | ⟨t, kind, hw, heq⟩ | ⟨kind, hw, heq⟩
    · rw [heq]
      exact iff_of_true rfl fun hw _ => hempty hw
    · rw [heq]
      refine iff_of_false ?_ fun hempty => ?_
      · rw [hitems]
        exact fun hsame => absurd (congrArg List.length hsame) (by simp)
      · simp [hempty hw hlate] at hitems
    · rw [heq]
      exact iff_of_true rfl fun hpolling => by simp [hw] at hpolling
    · rw [heq]
      exact iff_of_true rfl fun hpolling => by simp [hw] at hpolling

/-- Whatever a worker holds or has sent was taken before the deadline had passed. -/
structure InTime (s : Tradingd ι capacity) : Prop where
  taken       : ∀ i, ∀ t ∈ (s.workers i).taken?, ∀ d ∈ t.deadline, t.poppedAt ≤ d
  transmitted : ∀ t ∈ s.transmitted, ∀ d ∈ t.deadline, t.poppedAt ≤ d

omit [Fintype ι] in
lemma InTime.setWorker (h : InTime s) {i : ι} {w : Worker}
    (hw : ∀ t ∈ w.taken?, ∀ d ∈ t.deadline, t.poppedAt ≤ d) : InTime (s.setWorker i w) := by
  refine ⟨fun j => ?_, h.transmitted⟩
  by_cases hj : j = i
  · subst hj
    simpa [Tradingd.setWorker] using hw
  · simpa [Tradingd.setWorker, hj] using h.taken j

omit [Fintype ι] in
lemma InTime.workerStep (h : InTime s) (i : ι) (answers : Answers)
    (hpolls : s.workers i = .polling → Late s → s.orders.items = []) :
    InTime (s.workerStep i answers) := by
  rcases workerStep_cases s i answers with ⟨w, heq, -, -, htaken, -, -⟩ |
    ⟨m, orders, hw, hitems, heq⟩ | ⟨t, kind, hw, heq⟩ | ⟨kind, hw, heq⟩
  · rw [heq]
    exact h.setWorker fun t ht => h.taken i t (htaken t ht)
  · have hnew : ∀ d ∈ s.deadline?, s.now ≤ d := by
      intro d hd
      by_contra hlt
      simp [hpolls hw ⟨d, hd, Nat.lt_of_not_le hlt⟩] at hitems
    have hset := h.setWorker (i := i) (w := .entering ⟨m, s.now, s.deadline?⟩)
      (by simpa [Worker.taken?] using hnew)
    rw [heq]
    exact ⟨hset.taken, hset.transmitted⟩
  · have hset := h.setWorker (i := i) (w := .counting kind)
      fun t ht => absurd ht (Option.not_mem_none t)
    rw [heq]
    refine ⟨hset.taken, fun t' ht' => ?_⟩
    rcases List.mem_append.1 ht' with ht' | ht'
    · exact h.transmitted t' ht'
    · obtain rfl := List.mem_singleton.1 ht'
      exact h.taken i t' (by simp [hw, Worker.taken?])
  · rw [heq]
    have hcount : InTime (s.count kind) := ⟨h.taken, h.transmitted⟩
    exact hcount.setWorker (w := .polling) fun t ht => absurd ht (Option.not_mem_none t)

lemma InTime.step (h : InTime s) {a : Action ι} (ha : PollsInTime s a) : InTime (s.step a) := by
  cases a with
  | tick ns => exact ⟨h.taken, h.transmitted⟩
  | signal => exact ⟨h.taken, h.transmitted⟩
  | worker i answers => exact h.workerStep i answers ha
  | shutdown drainMs =>
    simp only [Tradingd.step]
    split_ifs
    · exact ⟨h.taken, h.transmitted⟩
    · exact h
  | submit strategyId p wallNs =>
    simp only [Tradingd.step]
    split_ifs
    · obtain ⟨s', rfl, ⟨orders, m, heq, -⟩ | ⟨kind, heq⟩⟩ := submit_cases s strategyId p wallNs
      · rw [heq]
        exact ⟨h.taken, h.transmitted⟩
      · rw [heq]
        exact ⟨h.taken, h.transmitted⟩
    · exact h
  | main =>
    simp only [Tradingd.step, mainStep]
    split
    · exact h
    · exact ⟨h.taken, h.transmitted⟩
    · exact ⟨h.taken, h.transmitted⟩
    · split_ifs
      · exact ⟨h.taken, h.transmitted⟩
      · exact h
    · exact h

/-! ### Whole runs -/

lemma closed_run (h : Closed s) (as : List (Action ι)) :
    Closed (run step s as) ∧ (Late s → Late (run step s as)) := by
  induction as generalizing s with
  | nil => exact ⟨h, fun hl => hl⟩
  | cons a as ih =>
    obtain ⟨hclosed, hlate⟩ := h.step a
    obtain ⟨hclosed', hlate'⟩ := ih hclosed
    exact ⟨hclosed', fun hl => hlate' (hlate hl)⟩

/-- After the deadline a run in which no worker finds an order leaves the queue as it is. -/
lemma items_run_eq (h : Closed s) (hlate : Late s) {as : List (Action ι)}
    (has : Along step PollsInTime s as) : (run step s as).orders.items = s.orders.items := by
  induction as generalizing s with
  | nil => rfl
  | cons a as ih =>
    obtain ⟨hclosed, hmono⟩ := h.step a
    rw [run_cons, ih hclosed (hmono hlate) has.2]
    exact (items_step_eq_iff h hlate a).2 has.1

/-- The deadline is kept in exactly those runs in which no worker finds an order in the queue after
it. -/
theorem drain_deadline_iff (ι : Type) [DecidableEq ι] [Fintype ι] (capacity : Nat)
    (ordersEnabled : Bool) (maxQueueAgeNs : Nat) (as : List (Action ι)) :
    KeepsDeadline capacity ordersEnabled maxQueueAgeNs as ↔
      Along step PollsInTime ({ ordersEnabled, maxQueueAgeNs } : Tradingd ι capacity) as := by
  have hnew : Closed ({ ordersEnabled, maxQueueAgeNs } : Tradingd ι capacity) :=
    fun hne => absurd rfl hne
  constructor
  · rintro ⟨-, hleft, -⟩
    rw [along_iff_forall_split]
    rintro js a ks rfl
    obtain ⟨hclosed, -⟩ := closed_run hnew js
    by_contra hpolls
    -- the step is late and changes the queue, which is the same before and after it at the end
    have hlate := late_of_not_pollsInTime hpolls
    have hbefore := hleft js (List.prefix_append _ _) hlate
    have hlate' := (hclosed.step a).2 hlate
    have hafter := hleft (js ++ [a]) ⟨ks, by simp⟩ (by simpa [after] using hlate')
    rw [hbefore] at hafter
    refine hpolls ((items_step_eq_iff hclosed hlate a).1 ?_)
    simpa [after] using hafter.symm
  · intro has
    refine ⟨?_, ?_, ?_⟩
    · have hstart : InTime ({ ordersEnabled, maxQueueAgeNs } : Tradingd ι capacity) :=
        ⟨fun _ _ ht => absurd ht (by simp [Worker.taken?]), fun _ ht => absurd ht (by simp)⟩
      exact (run_inv (fun s a hs ha => hs.step ha) hstart has).transmitted
    · rintro js ⟨ks, rfl⟩ hlate
      obtain ⟨-, hks⟩ := along_append.1 has
      have := items_run_eq (closed_run hnew js).1 hlate hks
      simpa [after] using this
    · intro hdone
      exact ((sound_after ι capacity ordersEnabled maxQueueAgeNs as).balanced.done hdone).1

/-- One order is queued when the engine shuts down, with no time to drain. -/
def lateSchedule : List (Action (Fin 1)) :=
  let p : ExecPayload := {
    action := kActionBuy, side := kSideYes, orderType := kTypeMarket, count := 1
    ticker := .replicate 42 65 }
  [.tick 5, .submit ⟨0, by decide⟩ p 0, .shutdown 0, .main, .tick 1] ++
    List.replicate 5 (.worker 0 {})

/-- The worker takes the order after the deadline and sends it. -/
theorem drain_deadline_overrun : ¬ KeepsDeadline 2 true 1000 lateSchedule := by
  intro h
  have hsent : (after (Fin 1) 2 true 1000 lateSchedule).transmitted.map
      (fun t => (t.poppedAt, t.deadline)) = [(6, some 5)] := by
    decide +kernel
  obtain ⟨t, ht, heq⟩ := List.mem_map.1 (hsent ▸ List.mem_singleton_self (6, some 5))
  obtain ⟨hpopped, hdeadline⟩ := Prod.mk.inj heq
  have := h.transmitted t ht 5 hdeadline
  omega

end HftBot.Tradingd
