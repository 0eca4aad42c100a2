import HftBot.Core.Threads
import HftBot.Engine.Tradingd

/-!
# Order accounting

Every intent that was submitted is counted once, is in the queue, or is in the hands of one thread
that will count it. When the workers have been joined, the counters and the orders left in the queue
add up to the number of submissions.
-/

namespace HftBot.Tradingd

open HftBot.Core HftBot.Wire

variable {ι : Type} {capacity : Nat}

/-- What identifies an intent. -/
def key (p : ExecPayload) : UInt8 × Nat := (p.strategyId, p.seq)

/-- The counters together. -/
def counted (c : Kind → Nat) : Nat :=
  c .rejectedInvalid + c .droppedFull + c .expired + c .rateLimited + c .shadow + c .signError +
    c .transportError + c .submitted

/-- The books of an engine: at the end the counters account for every submission, no order is taken
from the queue twice, nothing is sent unless orders are enabled, and no strategy uses a sequence
number twice. -/
structure Accounts (s : Tradingd ι capacity) : Prop where
  counters    : s.main = .done → s.stamped.length = counted s.counts + s.shutdownDropped
  taken       : s.processed.map (·.2) <+: s.accepted
  once        : (s.processed.map fun p => key p.2.intent).Nodup
  transmitted : s.ordersEnabled = false → s.transmitted = []
  seqs        : (s.stamped.map key).Nodup

/-! ### What a thread holds -/

/-- An intent that the main thread has not counted yet. -/
def Main.held : Main → Nat
  | .counting _ => 1
  | _           => 0

lemma counted_update (c : Kind → Nat) (k : Kind) :
    counted (Function.update c k (c k + 1)) = counted c + 1 := by
  cases k <;> simp [counted, Function.update] <;> omega

/-! ### Orders, queue and counters -/

/-- Every intent submitted is counted, queued or held by one thread. -/
structure Balanced [Fintype ι] (s : Tradingd ι capacity) : Prop where
  total : s.stamped.length = counted s.counts + s.orders.items.length +
    ∑ i, (s.workers i).held + s.main.held
  done  : s.main = .done →
    s.shutdownDropped = s.orders.items.length ∧ ∀ i, s.workers i = .exited

/-- What was queued is queued still or was taken, in order. -/
structure Ordered (s : Tradingd ι capacity) : Prop where
  fifo   : s.processed.map (·.2) ++ s.orders.items = s.accepted
  queued : (s.accepted.map (·.intent)).Sublist s.stamped

/-- Sequence numbers in use are at most the last one given out. -/
structure Numbered (s : Tradingd ι capacity) : Prop where
  le     : ∀ p ∈ s.stamped, ∃ id : Fin kStrategySlots,
    p.strategyId = UInt8.ofNat id ∧ p.seq ≤ s.seq id
  nodup  : (s.stamped.map key).Nodup

/-- Unless orders are enabled no worker comes past the gate. -/
structure Gated (s : Tradingd ι capacity) : Prop where
  workers     : s.ordersEnabled = false → ∀ i, (s.workers i).live = false
  transmitted : s.ordersEnabled = false → s.transmitted = []

variable {s : Tradingd ι capacity}

section

variable [Fintype ι]

lemma Balanced.submit (h : Balanced s) (hmain : s.main = .running) (id : Fin kStrategySlots)
    (p : ExecPayload) (wallNs : UInt64) : Balanced (s.submit id p wallNs) := by
  have htotal := h.total
  rw [hmain] at htotal
  change _ = _ + _ + _ + 0 at htotal
  obtain ⟨s', rfl, ⟨orders, m, heq, hitems, -⟩ | ⟨kind, heq⟩⟩ := submit_cases s id p wallNs
  · rw [heq]
    constructor
    · simp only [hitems, hmain, List.length_append, List.length_singleton]
      change _ = _ + _ + _ + 0
      omega
    · simp [hmain]
  · rw [heq]
    constructor
    · simp only [List.length_append, List.length_singleton]
      change _ = _ + _ + _ + 1
      omega
    · simp

lemma Balanced.mainStep (h : Balanced s) : Balanced s.mainStep := by
  have htotal := h.total
  cases hmain : s.main with
  | running => simpa [Tradingd.mainStep, hmain] using h
  | counting kind =>
    rw [hmain] at htotal
    change _ = _ + _ + _ + 1 at htotal
    simp only [Tradingd.mainStep, hmain, count]
    constructor
    · simp only [counted_update]
      change _ = _ + _ + _ + 0
      omega
    · simp
  | storing =>
    rw [hmain] at htotal
    simp only [Tradingd.mainStep, hmain]
    exact ⟨htotal, by simp⟩
  | joining =>
    by_cases hall : ∀ i, s.workers i = .exited
    · rw [hmain] at htotal
      simp only [Tradingd.mainStep, hmain, hall, implies_true, ↓reduceIte]
      exact ⟨htotal, fun _ => ⟨rfl, hall⟩⟩
    · simpa [Tradingd.mainStep, hmain, hall] using h
  | done => simpa [Tradingd.mainStep, hmain] using h

variable [DecidableEq ι]

lemma Balanced.setWorker (h : Balanced s) {i : ι} {w : Worker}
    (hheld : w.held = (s.workers i).held) (hexited : s.workers i = .exited → w = .exited) :
    Balanced (s.setWorker i w) := by
  constructor
  · have hsum := sum_update_add Worker.held s.workers i w
    have htotal := h.total
    simp only [Tradingd.setWorker]
    omega
  · intro hdone
    obtain ⟨hdropped, hall⟩ := h.done hdone
    refine ⟨hdropped, fun j => ?_⟩
    by_cases hj : j = i
    · subst hj
      simpa [Tradingd.setWorker] using hexited (hall j)
    · simpa [Tradingd.setWorker, hj] using hall j

lemma Balanced.workerStep (h : Balanced s) (i : ι) (answers : Answers) :
    Balanced (s.workerStep i answers) := by
  -- a worker that is not gone keeps the main thread from being done
  have hbusy : s.workers i ≠ .exited → s.main ≠ .done := fun hne hdone => hne ((h.done hdone).2 i)
  have htotal := h.total
  rcases workerStep_cases s i answers with ⟨w, heq, hheld, -, -, hexited, -⟩ |
    ⟨m, orders, hw, hitems, heq⟩ | ⟨t, kind, hw, heq⟩ | ⟨kind, hw, heq⟩
  · rw [heq]
    exact h.setWorker hheld hexited
  · rw [heq]
    refine ⟨?_, fun hdone => absurd hdone (hbusy (by simp [hw]))⟩
    have hsum := sum_update_add Worker.held s.workers i (.entering ⟨m, s.now, s.deadline?⟩)
    rw [hw] at hsum
    change _ + 0 = _ + 1 at hsum
    simp only [Tradingd.setWorker, hitems, List.length_cons] at htotal ⊢
    omega
  · rw [heq]
    refine ⟨?_, fun hdone => absurd hdone (hbusy (by simp [hw]))⟩
    have hsum := sum_update_add Worker.held s.workers i (.counting kind)
    rw [hw] at hsum
    change _ + 1 = _ + 1 at hsum
    simp only [Tradingd.setWorker]
    omega
  · rw [heq]
    refine ⟨?_, fun hdone => absurd hdone (hbusy (by simp [hw]))⟩
    have hsum := sum_update_add Worker.held s.workers i .polling
    rw [hw] at hsum
    change _ + 1 = _ + 0 at hsum
    simp only [Tradingd.setWorker, count, counted_update]
    omega

lemma Balanced.step (h : Balanced s) (a : Action ι) : Balanced (s.step a) := by
  cases a with
  | tick ns => exact ⟨h.total, h.done⟩
  | submit id p wallNs =>
    simp only [Tradingd.step]
    split_ifs with hmain
    · exact h.submit hmain id p wallNs
    · exact h
  | shutdown drainMs =>
    simp only [Tradingd.step]
    split_ifs with hmain
    · have htotal := h.total
      rw [hmain] at htotal
      exact ⟨htotal, by simp⟩
    · exact h
  | main => exact h.mainStep
  | signal => exact ⟨h.total, h.done⟩
  | worker i answers => exact h.workerStep i answers

end

/-! ### The queue and the sequence numbers -/

/-- What a step does to the orders and to the sequence numbers. -/
lemma step_orders_cases [DecidableEq ι] [Fintype ι] (s : Tradingd ι capacity) (a : Action ι) :
    (s.step a).seq = s.seq ∧ (s.step a).stamped = s.stamped ∧
        (s.step a).accepted = s.accepted ∧
        ((s.step a).processed = s.processed ∧ (s.step a).orders.items = s.orders.items ∨
          ∃ i m, (s.step a).processed = s.processed ++ [(i, m)] ∧
            s.orders.items = m :: (s.step a).orders.items) ∨
      ∃ id p wallNs, (s.step a).seq = Function.update s.seq id (s.seq id + 1) ∧
        (s.step a).stamped = s.stamped ++ [s.stamp id p wallNs] ∧
        (s.step a).processed = s.processed ∧
        ((s.step a).accepted = s.accepted ∧ (s.step a).orders.items = s.orders.items ∨
          ∃ m, m.intent = s.stamp id p wallNs ∧ (s.step a).accepted = s.accepted ++ [m] ∧
            (s.step a).orders.items = s.orders.items ++ [m]) := by
  cases a with
  | tick ns => exact Or.inl ⟨rfl, rfl, rfl, Or.inl ⟨rfl, rfl⟩⟩
  | signal => exact Or.inl ⟨rfl, rfl, rfl, Or.inl ⟨rfl, rfl⟩⟩
  | shutdown drainMs =>
    simp only [Tradingd.step]
    split_ifs <;> exact Or.inl ⟨rfl, rfl, rfl, Or.inl ⟨rfl, rfl⟩⟩
  | main =>
    left
    simp only [Tradingd.step, mainStep, count]
    split
    · exact ⟨rfl, rfl, rfl, Or.inl ⟨rfl, rfl⟩⟩
    · exact ⟨rfl, rfl, rfl, Or.inl ⟨rfl, rfl⟩⟩
    · exact ⟨rfl, rfl, rfl, Or.inl ⟨rfl, rfl⟩⟩
    · split_ifs <;> exact ⟨rfl, rfl, rfl, Or.inl ⟨rfl, rfl⟩⟩
    · exact ⟨rfl, rfl, rfl, Or.inl ⟨rfl, rfl⟩⟩
  | submit id p wallNs =>
    simp only [Tradingd.step]
    split_ifs
    · obtain ⟨s', rfl, ⟨orders, m, heq, hitems, hm⟩ | ⟨kind, heq⟩⟩ := submit_cases s id p wallNs
      · rw [heq]
        exact Or.inr ⟨id, p, wallNs, rfl, rfl, rfl, Or.inr ⟨m, hm, rfl, hitems⟩⟩
      · rw [heq]
        exact Or.inr ⟨id, p, wallNs, rfl, rfl, rfl, Or.inl ⟨rfl, rfl⟩⟩
    · exact Or.inl ⟨rfl, rfl, rfl, Or.inl ⟨rfl, rfl⟩⟩
  | worker i answers =>
    left
    simp only [Tradingd.step]
    rcases workerStep_cases s i answers with ⟨w, heq, -⟩ | ⟨m, orders, -, hitems, heq⟩ |
      ⟨t, kind, -, heq⟩ | ⟨kind, -, heq⟩
    · rw [heq]
      exact ⟨rfl, rfl, rfl, Or.inl ⟨rfl, rfl⟩⟩
    · rw [heq]
      exact ⟨rfl, rfl, rfl, Or.inr ⟨i, m, rfl, hitems⟩⟩
    · rw [heq]
      exact ⟨rfl, rfl, rfl, Or.inl ⟨rfl, rfl⟩⟩
    · rw [heq]
      exact ⟨rfl, rfl, rfl, Or.inl ⟨rfl, rfl⟩⟩

lemma Ordered.step [DecidableEq ι] [Fintype ι] (h : Ordered s) (a : Action ι) :
    Ordered (s.step a) := by
  have hfifo := h.fifo
  rcases step_orders_cases s a with
    ⟨-, hstamped, haccepted, ⟨hproc, hitems⟩ | ⟨i, m, hproc, hitems⟩⟩ |
    ⟨id, p, wallNs, -, hstamped, hproc, ⟨haccepted, hitems⟩ | ⟨m, hm, haccepted, hitems⟩⟩
  · exact ⟨by rw [hproc, hitems, haccepted, hfifo], by rw [haccepted, hstamped]; exact h.queued⟩
  · refine ⟨?_, by rw [haccepted, hstamped]; exact h.queued⟩
    rw [hproc, haccepted, ← hfifo, hitems]
    simp
  · refine ⟨by rw [hproc, hitems, haccepted, hfifo], ?_⟩
    rw [haccepted, hstamped]
    exact h.queued.trans (List.sublist_append_left _ _)
  · refine ⟨?_, ?_⟩
    · rw [hproc, hitems, haccepted, ← hfifo, List.append_assoc]
    · rw [haccepted, hstamped, List.map_append, List.map_singleton, hm]
      exact h.queued.append_right _

/-- A slot is told by the byte it is stamped with. -/
lemma slot_inj {id id' : Fin kStrategySlots} (h : UInt8.ofNat id = UInt8.ofNat id') : id = id' := by
  have hnat := congrArg UInt8.toNat h
  have hid := id.isLt
  have hid' := id'.isLt
  simp only [kStrategySlots] at hid hid'
  rw [UInt8.toNat_ofNat', UInt8.toNat_ofNat', Nat.mod_eq_of_lt (by omega),
    Nat.mod_eq_of_lt (by omega)] at hnat
  exact Fin.ext hnat

lemma Numbered.step [DecidableEq ι] [Fintype ι] (h : Numbered s) (a : Action ι) :
    Numbered (s.step a) := by
  rcases step_orders_cases s a with ⟨hseq, hstamped, -⟩ | ⟨id, p, wallNs, hseq, hstamped, -⟩
  · exact ⟨by rw [hseq, hstamped]; exact h.le, by rw [hstamped]; exact h.nodup⟩
  · constructor
    · rw [hseq, hstamped]
      intro q hq
      rcases List.mem_append.1 hq with hq | hq
      · obtain ⟨id', hid, hle⟩ := h.le q hq
        refine ⟨id', hid, hle.trans ?_⟩
        by_cases hsame : id' = id
        · subst hsame
          simp
        · simp [hsame]
      · obtain rfl := List.mem_singleton.1 hq
        exact ⟨id, rfl, by simp [stamp]⟩
    · rw [hstamped, List.map_append, List.nodup_append]
      refine ⟨h.nodup, List.nodup_singleton _, ?_⟩
      rintro k hk _ hk' rfl
      obtain ⟨q, hq, rfl⟩ := List.mem_map.1 hk
      obtain ⟨id', hid, hle⟩ := h.le q hq
      have hkey : key q = key (s.stamp id p wallNs) := by simpa using hk'
      simp only [key, stamp, Prod.mk.injEq] at hkey
      -- the number is new for the strategy that it is stamped for
      have hsame : id' = id := slot_inj (hid.symm.trans hkey.1)
      subst hsame
      omega

/-! ### The gate -/

lemma Gated.of_eq {s' : Tradingd ι capacity} (h : Gated s)
    (henabled : s'.ordersEnabled = s.ordersEnabled) (hworkers : s'.workers = s.workers)
    (htransmitted : s'.transmitted = s.transmitted) : Gated s' := by
  constructor
  · rw [henabled, hworkers]
    exact h.workers
  · rw [henabled, htransmitted]
    exact h.transmitted

/-- A worker that moves stays behind the gate, or was past it, or orders are enabled. -/
lemma Gated.setWorker [DecidableEq ι] (h : Gated s) {i : ι} {w : Worker}
    (hlive : w.live → s.ordersEnabled ∨ (s.workers i).live) : Gated (s.setWorker i w) := by
  refine ⟨fun hoff j => ?_, h.transmitted⟩
  by_cases hj : j = i
  · subst hj
    have hstay := h.workers hoff j
    have hshut : s.ordersEnabled = false := hoff
    rw [hstay, hshut] at hlive
    simpa [Tradingd.setWorker] using hlive
  · simpa [Tradingd.setWorker, hj] using h.workers hoff j

lemma Gated.workerStep [DecidableEq ι] (h : Gated s) (i : ι) (answers : Answers) :
    Gated (s.workerStep i answers) := by
  rcases workerStep_cases s i answers with ⟨w, heq, -, hlive, -⟩ | ⟨m, orders, -, -, heq⟩ |
    ⟨t, kind, hw, heq⟩ | ⟨kind, -, heq⟩
  · rw [heq]
    exact h.setWorker hlive
  · rw [heq]
    exact (h.setWorker (w := .entering ⟨m, s.now, s.deadline?⟩) nofun).of_eq rfl rfl rfl
  · rw [heq]
    refine ⟨(h.setWorker (w := .counting kind) nofun).workers, fun hoff => ?_⟩
    have := h.workers hoff i
    simp [hw, Worker.live] at this
  · rw [heq]
    have hcount : Gated (s.count kind) := h.of_eq rfl rfl rfl
    exact hcount.setWorker (w := .polling) nofun

lemma Gated.step [DecidableEq ι] [Fintype ι] (h : Gated s) (a : Action ι) : Gated (s.step a) := by
  cases a with
  | tick ns => exact h.of_eq rfl rfl rfl
  | signal => exact h.of_eq rfl rfl rfl
  | worker i answers => exact h.workerStep i answers
  | shutdown drainMs =>
    simp only [Tradingd.step]
    split_ifs
    · exact h.of_eq rfl rfl rfl
    · exact h
  | submit id p wallNs =>
    simp only [Tradingd.step]
    split_ifs
    · obtain ⟨s', rfl, ⟨orders, m, heq, -⟩ | ⟨kind, heq⟩⟩ := submit_cases s id p wallNs
      · rw [heq]
        exact h.of_eq rfl rfl rfl
      · rw [heq]
        exact h.of_eq rfl rfl rfl
    · exact h
  | main =>
    simp only [Tradingd.step, mainStep]
    split
    · exact h
    · exact h.of_eq rfl rfl rfl
    · exact h.of_eq rfl rfl rfl
    · split_ifs
      · exact h.of_eq rfl rfl rfl
      · exact h
    · exact h

/-! ### Whole runs -/

/-- What every step keeps. -/
structure Sound [Fintype ι] (s : Tradingd ι capacity) : Prop where
  balanced : Balanced s
  ordered  : Ordered s
  numbered : Numbered s
  gated    : Gated s

lemma Sound.accounts [Fintype ι] (h : Sound s) : Accounts s where
  counters hdone := by
    obtain ⟨hdropped, hall⟩ := h.balanced.done hdone
    have htotal := h.balanced.total
    have hworkers : ∑ i, (s.workers i).held = 0 :=
      Finset.sum_eq_zero fun i _ => by rw [hall i]; rfl
    rw [hworkers, hdone] at htotal
    rw [htotal, hdropped]
    rfl
  taken := ⟨_, h.ordered.fifo⟩
  once := by
    -- what was taken was queued, what was queued was stamped
    have hsublist : (s.processed.map fun p => key p.2.intent).Sublist (s.stamped.map key) := by
      have hpre : (s.processed.map (·.2)).Sublist s.accepted := by
        rw [← h.ordered.fifo]
        exact List.sublist_append_left _ _
      have := ((hpre.map (·.intent)).trans h.ordered.queued).map key
      simpa [Function.comp_def] using this
    exact h.numbered.nodup.sublist hsublist
  transmitted := h.gated.transmitted
  seqs := h.numbered.nodup

lemma sound_after (ι : Type) [DecidableEq ι] [Fintype ι] (capacity : Nat)
    (ordersEnabled : Bool) (maxQueueAgeNs : Nat) (as : List (Action ι)) :
    Sound (after ι capacity ordersEnabled maxQueueAgeNs as) := by
  have hnew : Sound ({ ordersEnabled, maxQueueAgeNs } : Tradingd ι capacity) := by
    refine ⟨⟨?_, nofun⟩, ⟨rfl, .slnil⟩, ⟨nofun, .nil⟩, fun _ _ => rfl, fun _ => rfl⟩
    simp [counted, Worker.held, Main.held]
  have hstep : ∀ (s : Tradingd ι capacity) a, Sound s → True → Sound (s.step a) :=
    fun s a h _ =>
      ⟨h.balanced.step a, h.ordered.step a, h.numbered.step a, h.gated.step a⟩
  exact run_inv hstep hnew (along_iff_forall_split.2 fun _ _ _ _ => trivial)

/-- In every state that a run reaches the books are right. -/
theorem order_accounting (ι : Type) [DecidableEq ι] [Fintype ι] (capacity : Nat)
    (ordersEnabled : Bool) (maxQueueAgeNs : Nat) (as : List (Action ι)) :
    Accounts (after ι capacity ordersEnabled maxQueueAgeNs as) :=
  (sound_after ι capacity ordersEnabled maxQueueAgeNs as).accounts

/-- Two submissions, of which the first is refused; the other is logged as a shadow order. -/
example :
    let p : ExecPayload := {
      action := kActionBuy, side := kSideNo, orderType := kTypeMarket, count := 3
      ticker := .replicate 42 65 }
    let work : Action (Fin 1) := .worker 0 {}
    let submits : List (Action (Fin 1)) :=
      [.submit ⟨0, by decide⟩ {} 5, .main, .submit ⟨0, by decide⟩ p 6, work, work, work, work]
    let stops : List (Action (Fin 1)) := [.shutdown 0, .tick 1, .main, work, work, work, .main]
    let s := after (Fin 1) 2 false 1000 (submits ++ stops)
    s.main = .done ∧ s.counts .rejectedInvalid = 1 ∧ s.counts .shadow = 1 ∧
      s.stamped.map key = [(0, 1), (0, 2)] := by
  decide +kernel

end HftBot.Tradingd
