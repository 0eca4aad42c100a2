import HftBot.Shadow.RegistryProperties

/-!
# The life of one order

No operation of the engine lets one order depend on another. What a tape event does to a single
order is a function of that order's record: `OrderRec.opened` when its placement latency ends,
`OrderRec.swept` when a cancel takes effect, `OrderRec.print` when a taker print passes. The loop
bodies of the engine compute exactly these functions at the slot they visit and leave every other
slot alone.
-/

namespace HftBot

open HftBot.Core Function

/-! ### One order -/

namespace OrderRec

/-- The placement latency is over: the order rests, or it is ineligible for the track. -/
def opened (track : Track) (displayed : Int) (r : OrderRec) : OrderRec :=
  if track = .queue ∧ displayed < 0 then { r with state := .expired }
  else { r with
    queueAhead := if track = .queue then displayed else 0
    state := if r.cancelEffNs ≠ 0 then .pendingCancel else .open }

/-- The cancel latency is over. -/
def swept (now : Nat) (r : OrderRec) : OrderRec :=
  if r.state = .pendingCancel ∧ r.cancelEffNs ≤ now then { r with state := .canceled } else r

/-- The clock moves to `now`. -/
def clock (track : Track) (now : Nat) (displayed : Int) (r : OrderRec) : OrderRec :=
  (if r.state = .pendingNew ∧ r.activeTsNs ≤ now then r.opened track displayed else r).swept now

/-- Contracts that a print fills on a resting order. -/
def fillQty (track : Track) (p : Print) (r : OrderRec) : Int :=
  if FillSim.hits p r ∧ (track ≠ .queue ∨ (FillSim.reach track r p.price p.size).1 = 0) then
    max 0 (min (FillSim.reach track r p.price p.size).2 r.remaining)
  else 0

/-- A print passes a resting order: it drains the queue ahead, then fills. -/
def print (track : Track) (p : Print) (r : OrderRec) : OrderRec :=
  let r' := if FillSim.hits p r then
      { r with queueAhead := (FillSim.reach track r p.price p.size).1 } else r
  if 0 < r.fillQty track p then r'.fill (r.fillQty track p) else r'

/-- A cancel is accepted: it takes effect at `t`. -/
def cancelReq (t : Nat) (r : OrderRec) : OrderRec :=
  { r with cancelEffNs := t, state := if r.state = .open then .pendingCancel else r.state }

/-- A finished order leaves its slot. -/
def recycled (r : OrderRec) : OrderRec :=
  if r.state = .filled ∨ r.state = .canceled then { r with state := .free } else r

/-- The fill that a print emits on the order in slot `idx`. -/
def emitted (track : Track) (p : Print) (idx : Nat) (r : OrderRec) : Fill :=
  ⟨idx, p.market, r.priceCents, r.fillQty track p, r.buyYes, p.tsNs⟩

/-- What an operation does to an order in a slot: `displayed` is the depth given at its placement,
`listed` says that the list of its market still holds the slot. A free slot is left alone. -/
def next (track : Track) (speed : SpeedParams) (displayed : Int) (listed : Prop)
    [Decidable listed] (r : OrderRec) : Op → OrderRec
  | .market _ _        => r
  | .place _ _ _ _ _ _ => r
  | .cancel cid ts     =>
    if r.cid = cid ∧ (r.state = .pendingNew ∨ r.state = .open)
    then r.cancelReq (addNs ts speed.cancelLatencyNs) else r
  | .trade p           =>
    let r := (r.clock track p.tsNs displayed).recycled
    if r.state.isResting then (r.print track p).recycled else r
  | .settle mkt _ ts   =>
    let r := (r.clock track ts displayed).recycled
    if listed ∧ r.market = mkt ∧ r.state.isResting then { r with state := .free } else r
  | .advance now       => (r.clock track now displayed).recycled

end OrderRec

/-! ### The loop body of `FillSim::on_trade` -/

namespace FillSim

variable {track : Track} {p : Print} {reg : OrderRegistry} {out : List Fill} {i : Nat}

/-- The three cases of a visit: no effect on the book, a drained queue, a fill. -/
lemma visit_cases (track : Track) (p : Print) (reg : OrderRegistry) (out : List Fill) (i : Nat) :
    (hits p (reg.slots i) = false ∧ (reg.slots i).fillQty track p = 0 ∧
      visit track p (reg, out) i = ((reg, out), false)) ∨
    (hits p (reg.slots i) = true ∧ (reg.slots i).fillQty track p = 0 ∧
      visit track p (reg, out) i =
        ((reg.setQueueAhead i (reach track (reg.slots i) p.price p.size).1, out), false)) ∨
    (hits p (reg.slots i) = true ∧ 0 < (reg.slots i).fillQty track p ∧
      (reg.slots i).fillQty track p ≤ (reg.slots i).remaining ∧
      visit track p (reg, out) i =
        (((reg.setQueueAhead i (reach track (reg.slots i) p.price p.size).1).applyFill i
            ((reg.slots i).fillQty track p), out ++ [(reg.slots i).emitted track p i]),
          decide ((reg.slots i).remaining = (reg.slots i).fillQty track p))) := by
  set r := reg.slots i with hr
  cases hh : hits p r with
  | false => left; simp [visit, ← hr, hh, OrderRec.fillQty]
  | true =>
    right
    by_cases hav : 0 < (reach track r p.price p.size).2 ∧
        (track ≠ .queue ∨ (reach track r p.price p.size).1 = 0)
    · set qty := if (reach track r p.price p.size).2 < r.remaining
        then (reach track r p.price p.size).2 else r.remaining with hqty
      have hfill : r.fillQty track p = max 0 qty := by
        simp only [OrderRec.fillQty, hh, hav.2, and_self, if_true, hqty]
        congr 1
        split_ifs with h
        · exact min_eq_left h.le
        · exact min_eq_right (not_lt.mp h)
      by_cases hpos : 0 < qty
      · right
        rw [hfill, max_eq_right hpos.le]
        refine ⟨rfl, hpos, ?_, ?_⟩
        · rw [hqty]; split_ifs with h
          · exact h.le
          · exact le_rfl
        · have hrem : ((reg.setQueueAhead i (reach track r p.price p.size).1).applyFill i
              qty |>.slots i).remaining = r.remaining - qty := by
            simp only [OrderRegistry.applyFill_slots, OrderRegistry.setQueueAhead_slots,
              update_self, OrderRec.fill, OrderRec.remaining, ← hr]
            split_ifs <;> simp <;> omega
          simp only [visit, ← hr, hh, if_true, hav, and_self, ← hqty, hpos, hrem,
            OrderRec.emitted, hfill, max_eq_right hpos.le, sub_eq_zero]
      · left
        refine ⟨rfl, by rw [hfill]; exact max_eq_left (not_lt.mp hpos), ?_⟩
        simp only [visit, ← hr, hh, if_true, hav, and_self, ← hqty, hpos, if_false]
    · left
      refine ⟨rfl, ?_, ?_⟩
      · simp only [OrderRec.fillQty, hh, true_and]
        split_ifs with hq
        · have hle : (reach track r p.price p.size).2 ≤ 0 := not_lt.mp fun h => hav ⟨h, hq⟩
          exact max_eq_left ((min_le_left _ _).trans hle)
        · rfl
      · simp only [visit, ← hr, hh, if_true, hav, if_false]

lemma visit_slots (track : Track) (p : Print) (st : OrderRegistry × List Fill) (i : Nat) :
    (visit track p st i).1.1.slots =
      update st.1.slots i ((st.1.slots i).print track p) := by
  obtain ⟨reg, out⟩ := st
  rcases visit_cases track p reg out i with ⟨hh, hq, hv⟩ | ⟨hh, hq, hv⟩ | ⟨hh, hq, -, hv⟩
  · simp [hv, OrderRec.print, hh, hq]
  · simp [hv, OrderRec.print, hh, hq]
  · simp [hv, OrderRec.print, hh, hq]

lemma visit_out (track : Track) (p : Print) (st : OrderRegistry × List Fill) (i : Nat) :
    (visit track p st i).1.2 = st.2 ++
      if 0 < (st.1.slots i).fillQty track p then [(st.1.slots i).emitted track p i] else [] := by
  obtain ⟨reg, out⟩ := st
  rcases visit_cases track p reg out i with ⟨hh, hq, hv⟩ | ⟨hh, hq, hv⟩ | ⟨hh, hq, -, hv⟩
  · simp [hv, hq]
  · simp [hv, hq]
  · simp [hv, hq]

end FillSim

/-! ### The loop bodies of `ShadowEngine::advance` -/

namespace ShadowEngine

variable {now : Nat}

/-- A pending order whose latency is over opens; the resting list grows unless it is ineligible. -/
lemma activateVisit_due {reg : OrderRegistry} {p : Pending}
    (hs : (reg.slots p.idx).state = .pendingNew) (hdue : (reg.slots p.idx).activeTsNs ≤ now)
    (sim : FillSim) (n : Nat) :
    ∃ reg' sim' n', activateVisit now (reg, sim, n) p = ((reg', sim', n'), true) ∧
      reg.Frame reg' ∧
      reg'.slots = update reg.slots p.idx
        ((reg.slots p.idx).opened sim.track p.displayedAtLevel) ∧
      sim'.track = sim.track ∧
      sim'.open_ = if sim.track = .queue ∧ p.displayedAtLevel < 0 then sim.open_
        else sim.open_ ++ [p.idx] := by
  have hopen : legalTransition (reg.slots p.idx).state .open = true := by rw [hs]; rfl
  have hslots := OrderRegistry.transition_slots hopen
  have hframe := OrderRegistry.transition_frame hopen
  by_cases hq : sim.track = .queue ∧ p.displayedAtLevel < 0
  · have hexp :
        legalTransition ((reg.transition p.idx .open).slots p.idx).state .expired = true := by
      rw [hslots]; simp [legalTransition]
    refine ⟨(reg.transition p.idx .open).transition p.idx .expired,
      { sim with ineligibleUnknownDepth := sim.ineligibleUnknownDepth + 1 }, n + 1,
      by simp [activateVisit, hdue, FillSim.activate, hq],
      hframe.trans (OrderRegistry.transition_frame hexp), ?_, rfl, by simp [hq]⟩
    simp [OrderRegistry.transition_slots hexp, hslots, OrderRec.opened, hq]
  · set qa : Int := if sim.track = .queue then p.displayedAtLevel else 0 with hqa
    have hframe' := hframe.trans (OrderRegistry.setQueueAhead_frame _ p.idx qa)
    by_cases hc : (reg.slots p.idx).cancelEffNs ≠ 0
    · have hpc : legalTransition (((reg.transition p.idx .open).setQueueAhead p.idx qa).slots
          p.idx).state .pendingCancel = true := by
        simp [hslots, legalTransition]
      refine ⟨((reg.transition p.idx .open).setQueueAhead p.idx qa).transition p.idx
          .pendingCancel, { sim with open_ := sim.open_ ++ [p.idx] }, n,
        by simp [activateVisit, hdue, FillSim.activate, hq, hslots, hc, ← hqa],
        hframe'.trans (OrderRegistry.transition_frame hpc), ?_, rfl, by simp [hq]⟩
      simp [OrderRegistry.transition_slots hpc, hslots, OrderRec.opened, hq, hc, ← hqa]
    · refine ⟨(reg.transition p.idx .open).setQueueAhead p.idx qa,
        { sim with open_ := sim.open_ ++ [p.idx] }, n,
        by simp [activateVisit, hdue, FillSim.activate, hq, hslots, hc, ← hqa],
        hframe', ?_, rfl, by simp [hq]⟩
      simp [hslots, OrderRec.opened, hq, hc, ← hqa]

lemma activateVisit_notDue {reg : OrderRegistry} {p : Pending}
    (hdue : ¬ (reg.slots p.idx).activeTsNs ≤ now) (sim : FillSim) (n : Nat) :
    activateVisit now (reg, sim, n) p = ((reg, sim, n), false) := by
  simp [activateVisit, hdue]

lemma activateVisit_slots_other (now : Nat) (st : OrderRegistry × FillSim × Nat) (p : Pending)
    (j : Nat) (hj : j ≠ p.idx) : (activateVisit now st p).1.1.slots j = st.1.slots j := by
  obtain ⟨reg, sim, n⟩ := st
  simp only [activateVisit, FillSim.activate]
  split_ifs <;> simp [OrderRegistry.transition_slots_other, hj]

lemma cancelVisit_slots (now : Nat) (st : OrderRegistry × FillSim) (i : Nat) :
    (cancelVisit now st i).1.1.slots =
      update st.1.slots i (if (st.1.slots i).state = .pendingCancel ∧
        (st.1.slots i).cancelEffNs ≤ now then { st.1.slots i with state := .free }
        else st.1.slots i) := by
  obtain ⟨reg, sim⟩ := st
  by_cases hs : (reg.slots i).state = .pendingCancel
  · by_cases hd : (reg.slots i).cancelEffNs ≤ now
    · have hl : legalTransition (reg.slots i).state .canceled = true := by rw [hs]; rfl
      simp [cancelVisit, hs, hd, OrderRegistry.transition_slots hl]
    · simp [cancelVisit, hs, hd]
  · simp [cancelVisit, hs]

end ShadowEngine

end HftBot
