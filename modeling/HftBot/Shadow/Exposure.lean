import HftBot.Shadow.Evolution
import Mathlib.Algebra.BigOperators.Group.Finset.Piecewise
import Mathlib.Algebra.Order.BigOperators.Group.Finset
import Mathlib.Data.Nat.ModEq

/-!
# The exposure gauge is exact

The gauge is moved in four places: an order opens, a fill consumes part of it, an order is
canceled, an order expires. `GaugeExact` says that what it holds is the risk of the orders that
rest right now, in total and in every bucket of markets. Each registry operation keeps it, hence
so do the loops of the engine and every schedule of operations.
-/

namespace HftBot

open HftBot.Core Function Finset

/-- Worst-case loss of the unfilled part of the order, while it rests. -/
def OrderRec.atRisk (r : OrderRec) : Int :=
  if r.state.isResting then ExposureGauge.riskCents r.remaining r.priceCents r.buyYes else 0

lemma OrderRec.atRisk_eq_zero {r : OrderRec} (h : r.state.isResting = false) : r.atRisk = 0 := by
  simp [atRisk, h]

lemma ExposureGauge.riskCents_add (n m p : Int) (buyYes : Bool) :
    riskCents (n + m) p buyYes = riskCents n p buyYes + riskCents m p buyYes := by
  simp only [riskCents]
  ring

lemma ExposureGauge.riskCents_nonneg {n p : Int} (hn : 0 ≤ n) (hp : 0 ≤ p) (hp' : p ≤ 100)
    (buyYes : Bool) : 0 ≤ riskCents n p buyYes := by
  unfold riskCents
  apply mul_nonneg hn
  cases buyYes <;> simp <;> omega

namespace OrderRegistry

variable {reg reg' : OrderRegistry} {i : Nat}

/-! ### Sums over the slots -/

/-- Risk of the resting orders whose market is in `q`. -/
def riskWhere (reg : OrderRegistry) (q : Nat → Bool) : Int :=
  ∑ i ∈ range reg.capacity, if q (reg.slots i).market then (reg.slots i).atRisk else 0

lemma riskWhere_update {q : Nat → Bool} {r : OrderRec} (hi : i < reg.capacity)
    (hcap : reg'.capacity = reg.capacity) (hslots : reg'.slots = update reg.slots i r) :
    reg'.riskWhere q = reg.riskWhere q -
      (if q (reg.slots i).market then (reg.slots i).atRisk else 0) +
      (if q r.market then r.atRisk else 0) := by
  have hmem : i ∈ range reg.capacity := mem_range.mpr hi
  have hterm : ∀ j, (if q (update reg.slots i r j).market then (update reg.slots i r j).atRisk
      else 0) = update (fun j => if q (reg.slots j).market then (reg.slots j).atRisk else 0) i
        (if q r.market then r.atRisk else 0) j := by
    intro j
    by_cases hj : j = i
    · subst hj; simp
    · simp [hj]
  simp only [riskWhere, hcap, hslots, hterm]
  rw [sum_update_of_mem hmem, ← add_sum_erase _ _ hmem, sdiff_singleton_eq_erase]
  ring

/-- The gauge holds the risk of the resting orders. -/
structure GaugeExact (reg : OrderRegistry) : Prop where
  outside : ∀ i, reg.capacity ≤ i → (reg.slots i).state = .free
  total   : reg.gauge.totalAtRiskCents = reg.riskWhere fun _ => true
  bucket  : ∀ b, reg.gauge.atRiskCents b = reg.riskWhere fun m => m % kMarketSlots = b

namespace GaugeExact

lemma lt (h : reg.GaugeExact) (hi : (reg.slots i).state ≠ .free) : i < reg.capacity :=
  Nat.lt_of_not_le fun hle => hi (h.outside i hle)

/-- Updates that leave every contribution alone. -/
lemma congr (h : reg.GaugeExact) (hcap : reg'.capacity = reg.capacity)
    (hgauge : reg'.gauge = reg.gauge)
    (hout : ∀ j, reg.capacity ≤ j → (reg'.slots j).state = .free)
    (hslots : ∀ j, ((reg'.slots j).atRisk = (reg.slots j).atRisk ∧
        (reg'.slots j).market = (reg.slots j).market) ∨
      ((reg'.slots j).atRisk = 0 ∧ (reg.slots j).atRisk = 0)) : reg'.GaugeExact := by
  have hsum : ∀ q, reg'.riskWhere q = reg.riskWhere q := by
    intro q
    simp only [riskWhere, hcap]
    apply sum_congr rfl
    intro j _
    rcases hslots j with ⟨hr, hm⟩ | ⟨hr, hr'⟩
    · rw [hr, hm]
    · simp [hr, hr']
  refine ⟨?_, ?_, ?_⟩
  · rw [hcap]; exact hout
  · rw [hgauge, hsum, h.total]
  · intro b; rw [hgauge, hsum, h.bucket]

/-- An update of one slot that moves the gauge by the change of its risk. -/
lemma shift (h : reg.GaugeExact) {r : OrderRec} {d : Int} (hi : (reg.slots i).state ≠ .free)
    (hm : r.market = (reg.slots i).market) (hd : r.atRisk = (reg.slots i).atRisk + d)
    (hcap : reg'.capacity = reg.capacity) (hslots : reg'.slots = update reg.slots i r)
    (htotal : reg'.gauge.totalAtRiskCents = reg.gauge.totalAtRiskCents + d)
    (hbucket : reg'.gauge.atRiskCents = update reg.gauge.atRiskCents
      ((reg.slots i).market % kMarketSlots)
      (reg.gauge.atRiskCents ((reg.slots i).market % kMarketSlots) + d)) :
    reg'.GaugeExact := by
  have hlt := h.lt hi
  refine ⟨?_, ?_, ?_⟩
  · intro j hj
    rw [hcap] at hj
    have hne : j ≠ i := by omega
    rw [hslots, update_of_ne hne, h.outside j hj]
  · rw [htotal, h.total, riskWhere_update hlt hcap hslots, hd]
    simp only [if_true]
    ring
  · intro b
    rw [hbucket, riskWhere_update hlt hcap hslots, hm, hd]
    by_cases hb : b = (reg.slots i).market % kMarketSlots
    · subst hb
      simp only [update_self, h.bucket, decide_true, if_true]
      ring
    · simp [hb, Ne.symm hb, h.bucket]

/-! ### The registry operations -/

lemma setQueueAhead (h : reg.GaugeExact) (i : Nat) (q : Int) :
    (reg.setQueueAhead i q).GaugeExact := by
  refine h.congr rfl rfl ?_ ?_
  · intro j hj
    by_cases hji : j = i
    · subst hji; simpa using h.outside j hj
    · simpa [hji] using h.outside j hj
  · intro j
    left
    by_cases hji : j = i
    · subst hji; simp [OrderRec.atRisk, OrderRec.remaining]
    · simp [hji]

/-- Opening an order adds its risk, finishing it takes the rest away. -/
lemma transition (h : reg.GaugeExact) (i : Nat) {dst : OrdState} (hd : dst ≠ .pendingNew) :
    (reg.transition i dst).GaugeExact := by
  by_cases hl : legalTransition (reg.slots i).state dst = true
  · have hi : (reg.slots i).state ≠ .free := by
      intro hs
      simp [hs, legalTransition, hd] at hl
    have hslots := transition_slots hl
    have hcap := (transition_frame hl).capacity
    by_cases hopen : dst = .open
    · subst hopen
      have hs : (reg.slots i).state = .pendingNew := by
        revert hl
        cases (reg.slots i).state <;> simp [legalTransition]
      refine h.shift (r := { reg.slots i with state := .open }) hi rfl ?_ hcap hslots
        (d := ExposureGauge.riskCents (reg.slots i).remaining (reg.slots i).priceCents
          (reg.slots i).buyYes) ?_ ?_
      · simp [OrderRec.atRisk, OrdState.isResting, hs, OrderRec.remaining]
      · simp [OrderRegistry.transition, hl, OrdState.isTerminal, ExposureGauge.onOpen]
      · simp [OrderRegistry.transition, hl, OrdState.isTerminal, ExposureGauge.onOpen]
    · by_cases hterm : dst.isTerminal = true
      · have hs : (reg.slots i).state.isResting = true := by
          revert hl hterm
          cases (reg.slots i).state <;> cases dst <;>
            simp [legalTransition, OrdState.isTerminal, OrdState.isResting]
        have hnot : dst.isResting = false := by
          revert hterm
          cases dst <;> simp [OrdState.isTerminal, OrdState.isResting]
        refine h.shift (r := { reg.slots i with state := dst }) hi rfl ?_ hcap hslots
          (d := - ExposureGauge.riskCents (reg.slots i).remaining (reg.slots i).priceCents
            (reg.slots i).buyYes) ?_ ?_
        · simp [OrderRec.atRisk, hs, hnot]
        · simp [OrderRegistry.transition, hl, hopen, hterm, ExposureGauge.onClose, sub_eq_add_neg]
        · simp [OrderRegistry.transition, hl, hopen, hterm, ExposureGauge.onClose, sub_eq_add_neg]
      · have hgauge := transition_gauge reg i hopen (by simpa using hterm)
        have hs : (reg.slots i).state.isResting = dst.isResting := by
          revert hl hterm hd hopen
          cases (reg.slots i).state <;> cases dst <;>
            simp [legalTransition, OrdState.isTerminal, OrdState.isResting]
        refine h.shift (r := { reg.slots i with state := dst }) hi rfl (d := 0) ?_ hcap hslots ?_ ?_
        · simp [OrderRec.atRisk, hs, OrderRec.remaining]
        · simp [hgauge]
        · simp [hgauge]
  · apply h.congr
    · simp [OrderRegistry.transition, hl]
    · simp [OrderRegistry.transition, hl]
    · simpa [OrderRegistry.transition, hl] using h.outside
    · simp [OrderRegistry.transition, hl]

/-- A fill takes the risk of the filled part away. -/
lemma applyFill (h : reg.GaugeExact) (hs : (reg.slots i).state.isResting = true) (qty : Int) :
    (reg.applyFill i qty).GaugeExact := by
  have hi := OrdState.ne_free_of_isResting hs
  refine h.shift hi ?_ ?_ rfl (applyFill_slots reg i qty)
    (d := - ExposureGauge.riskCents qty (reg.slots i).priceCents (reg.slots i).buyYes) ?_ ?_
  · unfold OrderRec.fill
    split_ifs <;> rfl
  · unfold OrderRec.fill
    have hsplit : (reg.slots i).remaining = ((reg.slots i).remaining - qty) + qty := by ring
    split_ifs with hq
    · rw [OrderRec.atRisk_eq_zero (by rfl)]
      simp [OrderRec.atRisk, hs, hq]
    · simp only [OrderRec.atRisk, hs, if_true]
      rw [hsplit, ExposureGauge.riskCents_add]
      simp only [OrderRec.remaining]
      ring_nf
  · simp [OrderRegistry.applyFill, ExposureGauge.onClose, sub_eq_add_neg]
  · simp [OrderRegistry.applyFill, ExposureGauge.onClose, sub_eq_add_neg]

/-- An order that does not rest carries no risk, so its slot may be released. -/
lemma release (h : reg.GaugeExact) (hs : (reg.slots i).state.isResting = false) :
    (reg.release i).GaugeExact := by
  refine h.congr rfl rfl ?_ ?_
  · intro j hj
    by_cases hji : j = i
    · subst hji; simp
    · simpa [hji] using h.outside j hj
  · intro j
    by_cases hji : j = i
    · subst hji
      right
      exact ⟨OrderRec.atRisk_eq_zero (by simp [OrdState.isResting]), OrderRec.atRisk_eq_zero hs⟩
    · left; simp [hji]

/-- A resting order that is finished and released. -/
lemma retire (h : reg.GaugeExact) {dst : OrdState}
    (hl : legalTransition (reg.slots i).state dst = true) (hd : dst.isTerminal = true) :
    ((reg.transition i dst).release i).GaugeExact := by
  have hne : dst ≠ .pendingNew := by rintro rfl; simp [OrdState.isTerminal] at hd
  apply (h.transition i hne).release
  rw [transition_slots hl, update_self]
  revert hd
  cases dst <;> simp [OrdState.isTerminal, OrdState.isResting]

end GaugeExact

lemma new_gaugeExact (capacity : Nat) : (new capacity).GaugeExact := by
  refine ⟨fun _ _ => rfl, ?_, ?_⟩
  · simp [new, riskWhere, OrderRec.atRisk, OrdState.isResting]
  · simp [new, riskWhere, OrderRec.atRisk, OrdState.isResting]

end OrderRegistry

/-! ### The loops of the engine -/

namespace ShadowEngine

variable {e : ShadowEngine}

lemma activate_gaugeExact {reg : OrderRegistry} (h : reg.GaugeExact) (sim : FillSim) (i : Nat)
    (displayed : Int) : (sim.activate reg i displayed).2.1.GaugeExact := by
  unfold FillSim.activate
  split_ifs
  · exact h
  · exact h.setQueueAhead _ _
  · exact h.setQueueAhead _ _

lemma activateVisit_gaugeExact (now : Nat) (st : OrderRegistry × FillSim × Nat) (p : Pending)
    (h : st.1.GaugeExact) : (activateVisit now st p).1.1.GaugeExact := by
  obtain ⟨reg, sim, n⟩ := st
  have hopen := activate_gaugeExact
    (h.transition p.idx (show OrdState.open ≠ .pendingNew by simp)) sim p.idx
    p.displayedAtLevel
  simp only [activateVisit]
  split_ifs
  · exact hopen.transition _ (by simp)
  · exact hopen.transition _ (by simp)
  · exact hopen
  · exact h

lemma cancelVisit_gaugeExact (now : Nat) (st : OrderRegistry × FillSim) (i : Nat)
    (h : st.1.GaugeExact) : (cancelVisit now st i).1.1.GaugeExact := by
  obtain ⟨reg, sim⟩ := st
  simp only [cancelVisit]
  split_ifs with hs
  · exact h.retire (by rw [hs]; rfl) rfl
  · exact h
  · exact h

lemma advance_gaugeExact (now : Nat) (h : e.reg.GaugeExact) : (e.advance now).reg.GaugeExact := by
  have hact : (e.advanceActivations now).reg.GaugeExact :=
    sweep_induct (f := activateVisit now) (P := fun _ _ st => st.1.GaugeExact)
      (l := e.pendingActivation) (s := (e.reg, e.sim, e.ineligible)) (fun _ _ _ _ _ h => h)
      (fun _ p _ st h _ => activateVisit_gaugeExact now st p h)
      (fun _ p _ st h _ => activateVisit_gaugeExact now st p h) h
  exact sweep_induct (f := cancelVisit now) (P := fun _ _ st => st.1.GaugeExact)
    (l := (e.advanceActivations now).canceling)
    (s := ((e.advanceActivations now).reg, (e.advanceActivations now).sim))
    (fun _ _ _ _ _ h => h) (fun _ i _ st h _ => cancelVisit_gaugeExact now st i h)
    (fun _ i _ st h _ => cancelVisit_gaugeExact now st i h) hact

lemma visit_gaugeExact (track : Track) (p : Print) (st : OrderRegistry × List Fill) {i : Nat}
    (h : st.1.GaugeExact) (hi : (st.1.slots i).state.isResting = true) :
    (FillSim.visit track p st i).1.1.GaugeExact := by
  obtain ⟨reg, out⟩ := st
  rcases FillSim.visit_cases track p reg out i with ⟨-, -, hv⟩ | ⟨-, -, hv⟩ | ⟨-, -, -, hv⟩
  · rw [hv]; exact h
  · rw [hv]; exact h.setQueueAhead _ _
  · rw [hv]; exact (h.setQueueAhead _ _).applyFill (by simpa using hi) _

/-- A print visits resting orders only. -/
lemma simOnTrade_gaugeExact {reg : OrderRegistry} {sim : FillSim} {pending : List Pending}
    (hc : Consistent reg sim.open_ pending) (h : reg.GaugeExact) (p : Print) :
    (sim.onTrade reg p).2.1.GaugeExact := by
  have main := sweep_induct (f := FillSim.visit sim.track p)
    (P := fun _ t st => t.Nodup ∧ (∀ i ∈ t, (st.1.slots i).state.isResting = true) ∧
      st.1.GaugeExact) (l := sim.open_) (s := (reg, [])) ?_ ?_ ?_
    ⟨hc.open_nodup, fun i hi => hc.mem_open_iff.mp hi, h⟩
  · exact main.2.2
  · rintro k t t' st hp ⟨hnd, hrest, hg⟩
    exact ⟨hp.nodup_iff.mp hnd, fun i hi => hrest i (hp.mem_iff.mpr hi), hg⟩
  all_goals
    rintro k i t st ⟨hnd, hrest, hg⟩ -
    rw [List.nodup_cons] at hnd
    refine ⟨hnd.2, ?_, visit_gaugeExact sim.track p st hg (hrest i List.mem_cons_self)⟩
    intro j hj
    have hji : j ≠ i := fun h' => hnd.1 (h' ▸ hj)
    rw [FillSim.visit_slots, update_of_ne hji]
    exact hrest j (List.mem_cons_of_mem _ hj)

lemma bookFills_gaugeExact (fills : List Fill) {reg : OrderRegistry} (h : reg.GaugeExact)
    (ledger : Ledger) : (bookFills fills reg ledger).1.GaugeExact := by
  induction fills generalizing reg ledger with
  | nil => exact h
  | cons f fills ih =>
    simp only [bookFills, List.foldl_cons] at ih ⊢
    apply ih
    split_ifs with hs
    · exact h.release (by rw [hs]; rfl)
    · exact h

lemma settleSweep_gaugeExact (mkt : Nat) (slots : List Nat) {reg : OrderRegistry}
    (h : reg.GaugeExact) (sim : FillSim) :
    (slots.foldl (settleVisit mkt) (reg, sim)).1.GaugeExact := by
  induction slots generalizing reg sim with
  | nil => exact h
  | cons i slots ih =>
    rw [List.foldl_cons]
    simp only [settleVisit]
    split_ifs with hm hs hc
    · exact ih h sim
    · exact ih (h.retire (by rw [hc]; rfl) rfl) _
    · have hopen : (reg.slots i).state = .open := hs.resolve_right hc
      exact ih (h.retire (by rw [hopen]; rfl) rfl) _
    · exact ih h sim

lemma cancel_gaugeExact (hinv : e.Inv) (h : e.reg.GaugeExact) (cid ts : Nat) :
    (e.cancel cid ts).reg.GaugeExact := by
  rcases cancel_cases hinv cid ts with ⟨-, heq⟩ | ⟨i, reg, -, hs, heq, hframe, hgauge, hslots⟩
  · rw [heq]; exact h
  rw [heq]
  apply h.congr hframe.capacity hgauge
  · intro j hj
    have hne : j ≠ i := by
      rintro rfl
      simp [h.outside j hj] at hs
    rw [hslots, update_of_ne hne, h.outside j hj]
  · intro j
    left
    rw [hslots]
    by_cases hj : j = i
    · subst hj
      rcases hs with hs | hs <;>
        simp [OrderRec.cancelReq, OrderRec.atRisk, OrderRec.remaining, OrdState.isResting, hs]
    · simp [hj]

lemma place_gaugeExact (hinv : e.Inv) (h : e.reg.GaugeExact) (mkt : Nat) (priceCents count : Int)
    (buyYes : Bool) (ts : Nat) (depth : Int) :
    (e.place mkt priceCents count buyYes ts depth).1.reg.GaugeExact := by
  cases hfree : e.reg.free with
  | nil => rw [place_full mkt priceCents count buyYes ts depth hfree]; exact h
  | cons idx rest =>
    obtain ⟨reg, heq, hcap, -, -, -, hgauge, hslots⟩ :=
      place_slot mkt priceCents count buyYes ts depth hinv hfree
    have hidx : idx < e.reg.capacity ∧ (e.reg.slots idx).state = .free :=
      (hinv.consistent.wf.mem_free idx).mp (by simp [hfree])
    rw [heq]
    apply h.congr hcap hgauge
    · intro j hj
      have hne : j ≠ idx := by omega
      simpa [hslots, hne] using h.outside j hj
    · intro j
      simp only [hslots]
      by_cases hj : j = idx
      · subst hj
        right
        exact ⟨OrderRec.atRisk_eq_zero (by simp [placedRec, OrdState.isResting]),
          OrderRec.atRisk_eq_zero (by rw [hidx.2]; rfl)⟩
      · left; simp [hj]

theorem step_gaugeExact (hinv : e.Inv) (h : e.reg.GaugeExact) (op : Op) :
    (e.step op).1.reg.GaugeExact := by
  cases op with
  | market ticker family => exact h
  | place mkt priceCents count buyYes ts depth =>
    exact place_gaugeExact hinv h mkt priceCents count buyYes ts depth
  | cancel cid ts => exact cancel_gaugeExact hinv h cid ts
  | trade p =>
    have hadv := advance_gaugeExact p.tsNs h
    exact bookFills_gaugeExact _
      (simOnTrade_gaugeExact (advance_inv hinv).consistent hadv p) _
  | settle mkt yesWins ts => exact settleSweep_gaugeExact mkt _ (advance_gaugeExact ts h) _
  | advance now => exact advance_gaugeExact now h

lemma history_gaugeExact (fees : FeeSchedule) (track : Track) (speed : SpeedParams)
    (horizonNs : Nat) (ops : List Op) :
    (history fees track speed horizonNs ops).engine.reg.GaugeExact :=
  (run_inv (P := fun h : History => h.engine.Inv ∧ h.engine.reg.GaugeExact)
    (A := fun _ _ => True) (fun _ op h _ => ⟨step_inv h.1 op, step_gaugeExact h.1 h.2 op⟩)
    ⟨new_inv fees track speed horizonNs, OrderRegistry.new_gaugeExact regSize⟩
    (along_of_forall fun _ _ => trivial)).2

end ShadowEngine

/-! ### The gauge over whole schedules -/

/-- The slots of the orders that rest in the book. -/
def OrderRegistry.restingSlots (reg : OrderRegistry) : Finset Nat :=
  {i ∈ range reg.capacity | (reg.slots i).state = .open ∨ (reg.slots i).state = .pendingCancel}

/-- The risk of the unfilled part of the order in a slot. -/
def OrderRegistry.slotRisk (reg : OrderRegistry) (i : Nat) : Int :=
  ExposureGauge.riskCents ((reg.slots i).count - (reg.slots i).filled) (reg.slots i).priceCents
    (reg.slots i).buyYes

lemma OrderRegistry.riskWhere_eq_sum (reg : OrderRegistry) (q : Nat → Bool) :
    reg.riskWhere q = ∑ i ∈ reg.restingSlots with q (reg.slots i).market, reg.slotRisk i := by
  rw [restingSlots, filter_filter, sum_filter, riskWhere]
  apply sum_congr rfl
  intro i _
  simp only [OrderRec.atRisk, slotRisk, OrdState.isResting, OrderRec.remaining, Bool.or_eq_true,
    decide_eq_true_eq, ite_and]
  split_ifs <;> rfl

/-- A placed order has a price of a binary contract and a nonnegative count. -/
def Op.Priced : Op → Prop
  | .place _ priceCents count _ _ _ => 0 ≤ priceCents ∧ priceCents ≤ 100 ∧ 0 ≤ count
  | _                               => True

namespace ShadowEngine

/-- Every order in a slot has a price of a binary contract. -/
def PriceBounds (e : ShadowEngine) : Prop :=
  ∀ i, (e.reg.slots i).state ≠ .free →
    0 ≤ (e.reg.slots i).priceCents ∧ (e.reg.slots i).priceCents ≤ 100

lemma step_priceBounds {e : ShadowEngine} (h : e.Inv) {op : Op} (hop : op.Priced)
    (hb : e.PriceBounds) : (e.step op).1.PriceBounds := by
  refine step_live_inv (Q := fun r => 0 ≤ r.priceCents ∧ r.priceCents ≤ 100) h op ?_ ?_ hb
  · rintro mkt priceCents count buyYes ts depth rfl
    exact ⟨hop.1, hop.2.1⟩
  · rintro i r - - hr
    rw [(OrderRec.next_same _ _ r _ _ op).priceCents]
    exact hr

lemma history_priceBounds (fees : FeeSchedule) (track : Track) (speed : SpeedParams)
    (horizonNs : Nat) {ops : List Op} (hops : ∀ op ∈ ops, op.Priced) :
    (history fees track speed horizonNs ops).engine.PriceBounds := by
  rw [history_engine]
  refine (run_inv (P := fun e : ShadowEngine => e.Inv ∧ e.PriceBounds)
    (A := fun _ op => op.Priced) ?_ ⟨new_inv fees track speed horizonNs, ?_⟩
    (along_of_forall hops)).2
  · rintro e op ⟨h, hb⟩ hop
    exact ⟨step_inv h op, step_priceBounds h hop hb⟩
  · intro i hi
    exact absurd rfl hi

lemma history_slotRisk_nonneg (fees : FeeSchedule) (track : Track) (speed : SpeedParams)
    (horizonNs : Nat) {ops : List Op} (hops : ∀ op ∈ ops, op.Priced) {i : Nat}
    (hi : i ∈ (history fees track speed horizonNs ops).engine.reg.restingSlots) :
    0 ≤ (history fees track speed horizonNs ops).engine.reg.slotRisk i := by
  have hcount : ∀ op ∈ ops, op.CountNonneg := by
    intro op hop
    have := hops op hop
    cases op with
    | place mkt priceCents count buyYes ts depth => exact this.2.2
    | _ => trivial
  have hs : ((history fees track speed horizonNs ops).engine.reg.slots i).state ≠ .free := by
    simp only [OrderRegistry.restingSlots, mem_filter] at hi
    rcases hi.2 with hs | hs <;> simp [hs]
  have hfilled := history_filledBounds fees track speed horizonNs hcount i hs
  have hprice := history_priceBounds fees track speed horizonNs hops i hs
  exact ExposureGauge.riskCents_nonneg (by omega) hprice.1 hprice.2 _

/-- After every schedule the gauge is the risk of the resting orders, in total and for the markets
that share a bucket; it is zero without resting orders and never negative for sane orders. -/
theorem history_gauge_exact (fees : FeeSchedule) (track : Track) (speed : SpeedParams)
    (horizonNs : Nat) (ops : List Op) :
    let reg := (history fees track speed horizonNs ops).engine.reg
    reg.gauge.totalAtRiskCents = ∑ i ∈ reg.restingSlots, reg.slotRisk i ∧
    (∀ m, reg.gauge.marketAtRiskCents m =
      ∑ i ∈ reg.restingSlots with (reg.slots i).market ≡ m [MOD 4096], reg.slotRisk i) ∧
    ((∀ i < reg.capacity, (reg.slots i).state.isResting = false) →
      reg.gauge.totalAtRiskCents = 0 ∧ ∀ m, reg.gauge.marketAtRiskCents m = 0) ∧
    ((∀ op ∈ ops, op.Priced) →
      0 ≤ reg.gauge.totalAtRiskCents ∧ ∀ m, 0 ≤ reg.gauge.marketAtRiskCents m) := by
  intro reg
  have h : reg.GaugeExact := history_gaugeExact fees track speed horizonNs ops
  have htotal : reg.gauge.totalAtRiskCents = ∑ i ∈ reg.restingSlots, reg.slotRisk i := by
    rw [h.total, OrderRegistry.riskWhere_eq_sum]
    simp
  have hmarket : ∀ m, reg.gauge.marketAtRiskCents m =
      ∑ i ∈ reg.restingSlots with (reg.slots i).market ≡ m [MOD 4096], reg.slotRisk i := by
    intro m
    rw [ExposureGauge.marketAtRiskCents, h.bucket, OrderRegistry.riskWhere_eq_sum]
    simp only [decide_eq_true_eq]
    rfl
  refine ⟨htotal, hmarket, ?_, ?_⟩
  · intro hnone
    have hempty : reg.restingSlots = ∅ := by
      rw [OrderRegistry.restingSlots, filter_eq_empty_iff]
      intro i hi
      simpa [OrdState.isResting] using hnone i (mem_range.mp hi)
    simp [htotal, hmarket, hempty]
  · intro hops
    rw [htotal]
    refine ⟨sum_nonneg fun i hi => history_slotRisk_nonneg fees track speed horizonNs hops hi, ?_⟩
    intro m
    rw [hmarket]
    exact sum_nonneg fun i hi =>
      history_slotRisk_nonneg fees track speed horizonNs hops (mem_filter.mp hi).1

end ShadowEngine

end HftBot
