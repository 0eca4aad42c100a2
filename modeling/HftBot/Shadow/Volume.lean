import HftBot.Shadow.Fills

/-!
# Volume of a print against the volume it fills

The simulator decides each resting order on its own: every order that a print reaches may take up
to the whole print. `OrderRec.Contends` says from the record before the print which orders it
reaches, and `onTrade_volume_iff` when their takes fit into one print.
-/

namespace HftBot

open HftBot.Core Function

namespace OrderRec

variable (track : Track) (displayed : Int) (p : Print) (r : OrderRec)

/-- The order rests in the book at time `now`: open, or dying, or opened by then. -/
def RestsAt (now : Nat) : Prop :=
  r.state = .open ∨ (r.state = .pendingCancel ∧ now < r.cancelEffNs) ∨
    (r.state = .pendingNew ∧ r.activeTsNs ≤ now ∧ ¬ (track = .queue ∧ displayed < 0) ∧
      (r.cancelEffNs = 0 ∨ now < r.cancelEffNs))

instance (now : Nat) : Decidable (r.RestsAt track displayed now) :=
  inferInstanceAs (Decidable (_ ∨ _))

/-- The queue ahead of the order in the book; a pending order queues behind the displayed depth. -/
def queueAt : Int :=
  if r.state = .pendingNew then if track = .queue then displayed else 0 else r.queueAhead

/-- Contracts of the print that pass the order by. On the strict track a print at the level passes
it whole; on the queue track it first drains the queue ahead, and a print through the level passes
whole as long as that queue stands. -/
def passing : Int :=
  match track with
  | .strict     => if p.price = r.priceCents then p.size else 0
  | .queue      =>
    if p.price = r.priceCents ∨ r.queueAt .queue displayed = 0
    then r.queueAt .queue displayed else p.size
  | .optimistic => 0

/-- The print reaches the order and the order still wants contracts. -/
def Contends : Prop :=
  r.RestsAt track displayed p.tsNs ∧ FillSim.hits p r = true ∧ 0 < r.remaining ∧
    r.passing track displayed p < p.size

instance : Decidable (r.Contends track displayed p) := inferInstanceAs (Decidable (_ ∧ _))

/-- What the order takes of the print. -/
def take : Int := min r.remaining (p.size - r.passing track displayed p)

/-- At time `now` the book holds the order with its queue position. -/
lemma clock_recycled_of_restsAt {now : Nat} (h : r.RestsAt track displayed now) :
    ∃ s : OrdState, s.isResting = true ∧
      (r.clock track now displayed).recycled =
        { r with
          state := s
          queueAhead := r.queueAt track displayed } := by
  rcases h with hs | ⟨hs, hnow⟩ | ⟨hs, hact, hel, hc⟩
  · refine ⟨r.state, by rw [hs]; rfl, ?_⟩
    have hclock : (r.clock track now displayed).recycled = r := by
      simp [clock, swept, recycled, hs]
    have hq : r.queueAt track displayed = r.queueAhead := by simp [queueAt, hs]
    rw [hclock, hq]
  · refine ⟨r.state, by rw [hs]; rfl, ?_⟩
    have hclock : (r.clock track now displayed).recycled = r := by
      simp [clock, swept, recycled, hs, Nat.not_le.mpr hnow]
    have hq : r.queueAt track displayed = r.queueAhead := by simp [queueAt, hs]
    rw [hclock, hq]
  · by_cases hz : r.cancelEffNs = 0
    · refine ⟨.open, rfl, ?_⟩
      simp [clock, swept, recycled, opened, queueAt, hs, hact, hel, hz]
    · refine ⟨.pendingCancel, rfl, ?_⟩
      have hnow := Nat.not_le.mpr (hc.resolve_left hz)
      simp [clock, swept, recycled, opened, queueAt, hs, hact, hel, hz, hnow]

lemma not_resting_of_not_restsAt {now : Nat} (h : ¬ r.RestsAt track displayed now) :
    (r.clock track now displayed).recycled.state.isResting = false := by
  simp only [RestsAt, not_or] at h
  obtain ⟨hopen, hcancel, hnew⟩ := h
  cases hs : r.state with
  | free => simp [clock, swept, recycled, hs, OrdState.isResting]
  | pendingNew =>
    by_cases hact : r.activeTsNs ≤ now
    · by_cases hel : track = .queue ∧ displayed < 0
      · simp [clock, swept, recycled, opened, hs, hact, hel, OrdState.isResting]
      · have hc : r.cancelEffNs ≠ 0 ∧ r.cancelEffNs ≤ now := by
          rw [← not_lt, ← not_or]
          exact fun hc => hnew ⟨hs, hact, hel, hc⟩
        simp [clock, swept, recycled, opened, hs, hact, hel, hc.1, hc.2, OrdState.isResting]
    · simp [clock, swept, recycled, hs, hact, OrdState.isResting]
  | «open» => exact absurd hs hopen
  | pendingCancel =>
    have hle := not_lt.mp fun hlt => hcancel ⟨hs, hlt⟩
    simp [clock, swept, recycled, hs, hle, OrdState.isResting]
  | filled => simp [clock, swept, recycled, hs, OrdState.isResting]
  | canceled => simp [clock, swept, recycled, hs, OrdState.isResting]
  | expired => simp [clock, swept, recycled, hs, OrdState.isResting]

/-- The fill quantity in closed form: the print less what passes, capped by the remainder. -/
lemma fillQty_eq (hs : r.state ≠ .pendingNew) :
    r.fillQty track p =
      if FillSim.hits p r then max 0 (min r.remaining (p.size - r.passing track displayed p))
      else 0 := by
  have hq : r.queueAt .queue displayed = r.queueAhead := by simp [queueAt, hs]
  by_cases hh : FillSim.hits p r = true
  · simp only [fillQty, hh, true_and, if_true, FillSim.reach, FillSim.atLevelOnly, passing, hq]
    by_cases hp : p.price = r.priceCents
    · cases track with
      | strict => simp [hp]
      | optimistic => simp [hp, min_comm]
      | queue =>
        -- either the queue swallows the print or it is drained to nothing
        by_cases hlt : p.size < r.queueAhead
        · have hle : p.size - r.queueAhead ≤ 0 := by omega
          have hne : r.queueAhead - p.size ≠ 0 := by omega
          simp [hp, hlt, hne, hle]
        · simp [hp, hlt, min_comm]
    · cases track with
      | strict => simp [hp, min_comm]
      | optimistic => simp [hp, min_comm]
      | queue => by_cases hz : r.queueAhead = 0 <;> simp [hp, hz, min_comm]
  · simp [fillQty, hh]

/-- What a print gains on an order, from the order's record before the print. -/
theorem gained_trade :
    r.gained track displayed (.trade p) =
      if r.Contends track displayed p then r.take track displayed p else 0 := by
  by_cases hrest : r.RestsAt track displayed p.tsNs
  · obtain ⟨s, hs, heq⟩ := clock_recycled_of_restsAt track displayed r hrest
    have hnew : s ≠ .pendingNew := OrdState.ne_pendingNew_of_isResting hs
    simp only [gained, heq, hs, if_true]
    rw [fillQty_eq track displayed p _ hnew]
    -- the clock has moved the queue position into the record
    have hpass : ({ r with state := s, queueAhead := r.queueAt track displayed } :
        OrderRec).passing track displayed p = r.passing track displayed p := by
      cases track <;> simp [passing, queueAt, hnew]
    have hhits : FillSim.hits p { r with state := s, queueAhead := r.queueAt track displayed } =
        FillSim.hits p r := rfl
    rw [hpass, hhits]
    simp only [Contends, hrest, true_and, take, remaining]
    by_cases hh : FillSim.hits p r = true
    · simp only [hh, true_and, if_true]
      split_ifs with hc <;> omega
    · simp [hh]
  · have hno := not_resting_of_not_restsAt track displayed r hrest
    simp [gained, hno, Contends, hrest]


/-! ### Queue positions -/

/-- A resting order never has a negative queue ahead. -/
def QueueNonneg : Prop := r.state.isResting = true → 0 ≤ r.queueAhead

lemma recycled_queueNonneg {r : OrderRec} (h : r.QueueNonneg) : r.recycled.QueueNonneg := by
  unfold recycled
  split_ifs
  · intro hs; cases hs
  · exact h

lemma clock_queueNonneg (now : Nat) {r : OrderRec} (h : r.QueueNonneg) :
    (r.clock track now displayed).recycled.QueueNonneg := by
  intro hs
  by_cases hrest : r.RestsAt track displayed now
  · obtain ⟨s, -, heq⟩ := clock_recycled_of_restsAt track displayed r hrest
    simp only [heq, queueAt]
    rcases hrest with hs | ⟨hs, -⟩ | ⟨hs, -, hel, -⟩
    · simpa [hs] using h (by rw [hs]; rfl)
    · simpa [hs] using h (by rw [hs]; rfl)
    · rw [if_pos hs]
      split_ifs with hq
      · exact not_lt.mp fun hlt => hel ⟨hq, hlt⟩
      · exact le_rfl
  · rw [not_resting_of_not_restsAt track displayed r hrest] at hs
    cases hs

lemma print_queueNonneg {r : OrderRec} (hs : r.state.isResting = true) (h : r.QueueNonneg) :
    (r.print track p).QueueNonneg := by
  intro _
  have hq := h hs
  have hreach : 0 ≤ (FillSim.reach track r p.price p.size).1 := by
    unfold FillSim.reach
    split_ifs <;> simp <;> omega
  simp only [print, fill]
  split_ifs <;> simp [hreach, hq]

lemma next_queueNonneg (speed : SpeedParams) (listed : Prop) [Decidable listed] (op : Op)
    {r : OrderRec} (h : r.QueueNonneg) : (r.next track speed displayed listed op).QueueNonneg := by
  cases op with
  | market ticker family => exact h
  | place mkt priceCents count buyYes ts depth => exact h
  | cancel cid ts =>
    simp only [next]
    split_ifs with hc
    · rcases hc.2 with hs | hs
      · intro hr
        simp [cancelReq, hs, OrdState.isResting] at hr
      · intro _
        exact h (by rw [hs]; rfl)
    · exact h
  | trade p =>
    simp only [next]
    have hclock := clock_queueNonneg track displayed p.tsNs h
    split_ifs with hs
    · exact recycled_queueNonneg (print_queueNonneg track p hs hclock)
    · exact hclock
  | settle mkt yesWins ts =>
    simp only [next]
    split_ifs
    · intro hs; cases hs
    · exact clock_queueNonneg track displayed ts h
  | advance now => exact clock_queueNonneg track displayed now h

/-- What passes is never negative, so no order takes more than the print. -/
lemma passing_nonneg (hsize : 0 ≤ p.size) {r : OrderRec} (h : r.QueueNonneg)
    (hc : r.Contends track displayed p) : 0 ≤ r.passing track displayed p := by
  cases track with
  | strict =>
    simp only [passing]
    split_ifs
    · exact hsize
    · exact le_rfl
  | optimistic => exact le_rfl
  | queue =>
    have hq : 0 ≤ r.queueAt .queue displayed := by
      unfold queueAt
      rcases hc.1 with hs | ⟨hs, -⟩ | ⟨hs, -, hel, -⟩
      · simpa [hs] using h (by rw [hs]; rfl)
      · simpa [hs] using h (by rw [hs]; rfl)
      · rw [if_pos hs, if_pos rfl]
        exact not_lt.mp fun hlt => hel ⟨rfl, hlt⟩
    simp only [passing]
    split_ifs
    · exact hq
    · exact hsize

lemma take_le_size (hsize : 0 ≤ p.size) {r : OrderRec} (h : r.QueueNonneg)
    (hc : r.Contends track displayed p) : r.take track displayed p ≤ p.size := by
  have hpass := passing_nonneg track displayed p hsize h hc
  unfold take
  omega

end OrderRec

/-! ### One print, all orders -/

namespace ShadowEngine

/-- The orders that a print reaches. -/
def contenders (e : ShadowEngine) (p : Print) : Finset Nat :=
  {i ∈ Finset.range e.reg.capacity | (e.reg.slots i).Contends e.sim.track (e.depthOf i) p}

/-- What the order in slot `i` takes of a print that reaches it. -/
def takeAt (e : ShadowEngine) (p : Print) (i : Nat) : Int :=
  (e.reg.slots i).take e.sim.track (e.depthOf i) p

/-- The print is shared by at most one order, or its contenders' takes fit into it. -/
def SharesPrint (e : ShadowEngine) (p : Print) : Prop :=
  (e.contenders p).card ≤ 1 ∨ ∑ i ∈ e.contenders p, e.takeAt p i ≤ p.size

lemma onTrade_fills_sum_contenders {e : ShadowEngine} (h : e.Inv) (p : Print) :
    ((e.onTrade p).2.map Fill.qty).sum = ∑ i ∈ e.contenders p, e.takeAt p i := by
  rw [onTrade_fills_sum h, contenders, Finset.sum_filter]
  apply Finset.sum_congr rfl
  intro i _
  exact OrderRec.gained_trade _ _ _ _

lemma history_queueNonneg (fees : FeeSchedule) (track : Track) (speed : SpeedParams)
    (horizonNs : Nat) (ops : List Op) (i : Nat)
    (hi : ((history fees track speed horizonNs ops).engine.reg.slots i).state ≠ .free) :
    ((history fees track speed horizonNs ops).engine.reg.slots i).QueueNonneg := by
  rw [history_engine] at hi ⊢
  refine (run_inv (P := fun e : ShadowEngine => e.Inv ∧
      ∀ i, (e.reg.slots i).state ≠ .free → (e.reg.slots i).QueueNonneg)
    (A := fun _ _ => True) ?_ ⟨new_inv fees track speed horizonNs, fun i hi => absurd rfl hi⟩
    (along_of_forall fun _ _ => trivial)).2 i hi
  rintro e op ⟨h, hq⟩ -
  refine ⟨step_inv h op, step_live_inv h op ?_ ?_ hq⟩
  · rintro mkt priceCents count buyYes ts depth rfl hs
    cases hs
  · rintro i r - - hr
    exact OrderRec.next_queueNonneg _ _ _ _ _ hr

/-- The fills of a print stay within its size exactly when it is shared by one order at most or
its contenders' takes fit into it. -/
theorem onTrade_volume_iff (fees : FeeSchedule) (track : Track) (speed : SpeedParams)
    (horizonNs : Nat) (ops : List Op) (p : Print) (hsize : 0 ≤ p.size) :
    (((history fees track speed horizonNs ops).engine.onTrade p).2.map Fill.qty).sum ≤ p.size ↔
      (history fees track speed horizonNs ops).engine.SharesPrint p := by
  have hinv := history_inv fees track speed horizonNs ops
  have hqueue := history_queueNonneg fees track speed horizonNs ops
  generalize (history fees track speed horizonNs ops).engine = e at hinv hqueue ⊢
  rw [onTrade_fills_sum_contenders hinv]
  constructor
  · exact .inr
  rintro (hone | hsum)
  · rcases Finset.card_le_one_iff_subset_singleton.mp hone with ⟨i, hsub⟩
    rcases Finset.subset_singleton_iff.mp hsub with hnone | hi
    · rw [hnone, Finset.sum_empty]
      exact hsize
    · have hc : (e.reg.slots i).Contends e.sim.track (e.depthOf i) p := by
        have : i ∈ e.contenders p := by rw [hi]; exact Finset.mem_singleton_self i
        exact (Finset.mem_filter.mp this).2
      have hfree : (e.reg.slots i).state ≠ .free := by
        intro hs
        have := hc.1
        simp [OrderRec.RestsAt, hs] at this
      rw [hi, Finset.sum_singleton]
      exact OrderRec.take_le_size _ _ p hsize (hqueue i hfree) hc
  · exact hsum

theorem onTrade_volume_iff_one_order :
    (0 : Int) ≤ 10 ∧
      (((((history ⟨[]⟩ .strict {} 60000000000 [.place 0 40 10 true 1 (-1)]).engine.onTrade
          ⟨0, 39, 10, false, 10000000⟩).2.map Fill.qty).sum ≤ 10) ↔
        (history ⟨[]⟩ .strict {} 60000000000 [.place 0 40 10 true 1 (-1)]).engine.SharesPrint
          ⟨0, 39, 10, false, 10000000⟩) :=
  ⟨by decide, onTrade_volume_iff _ _ _ _ _ ⟨0, 39, 10, false, 10000000⟩ (by decide)⟩

/-- Two orders of ten at one price: a print of ten through it fills both. -/
theorem onTrade_volume_two_orders :
    ¬ (((history ⟨[]⟩ .strict {} 60000000000
        [.place 0 40 10 true 1 (-1), .place 0 40 10 true 1 (-1)]).engine.onTrade
        ⟨0, 39, 10, false, 10000000⟩).2.map Fill.qty).sum ≤ 10 := by
  decide +kernel

end ShadowEngine

end HftBot
