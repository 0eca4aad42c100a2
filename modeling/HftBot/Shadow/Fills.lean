import HftBot.Shadow.Evolution
import Mathlib.Algebra.BigOperators.Group.Finset.Basic

/-!
# The fills of one operation

Only a taker print emits fills, and it emits one for each order in a slot on which it gains
contracts. The fills of a history are therefore the sum of what the single orders gain.
-/

namespace HftBot

open HftBot.Core Function

/-- The fill of a print on the order in slot `i`, with the order's client id. -/
def OrderRec.fillEvent (track : Track) (displayed : Int) (p : Print) (i : Nat) (r : OrderRec) :
    FillEvent :=
  ⟨r.cid, ⟨i, p.market, r.priceCents, r.gained track displayed (.trade p), r.buyYes, p.tsNs⟩⟩

@[simp] lemma OrderRec.fillEvent_cid (track : Track) (displayed : Int) (p : Print) (i : Nat)
    (r : OrderRec) : (r.fillEvent track displayed p i).cid = r.cid := rfl

namespace ShadowEngine

variable {e : ShadowEngine}

/-- What an operation gains on the order in slot `i`. -/
def gainedAt (e : ShadowEngine) (op : Op) (i : Nat) : Int :=
  (e.reg.slots i).gained e.sim.track (e.depthOf i) op

@[simp] lemma fillEvent_qty (e : ShadowEngine) (p : Print) (i : Nat) :
    ((e.reg.slots i).fillEvent e.sim.track (e.depthOf i) p i).fill.qty =
      e.gainedAt (.trade p) i := rfl

lemma gainedAt_of_free {i : Nat} (hi : (e.reg.slots i).state = .free) (op : Op) :
    e.gainedAt op i = 0 := by
  cases op with
  | trade p =>
    simp [gainedAt, OrderRec.gained, OrderRec.clock, OrderRec.swept, OrderRec.recycled, hi,
      OrdState.isResting]
  | _ => rfl

lemma gainedAt_nonneg (e : ShadowEngine) (op : Op) (i : Nat) : 0 ≤ e.gainedAt op i :=
  OrderRec.gained_nonneg _ _ _ _

/-- The fills of a print, one for each order that gains. -/
theorem onTrade_fills_perm (h : e.Inv) (p : Print) :
    (e.onTrade p).2.Perm
      (((List.range e.reg.capacity).filter fun i => 0 < e.gainedAt (.trade p) i).map
        fun i => ((e.reg.slots i).fillEvent e.sim.track (e.depthOf i) p i).fill) := by
  have hinv : (e.advance p.tsNs).Inv := advance_inv h
  have hc := hinv.consistent
  have hfills := hc.simOnTrade_fills p
  rw [advance_track] at hfills
  apply List.Perm.trans hfills
  -- on a resting order the print gains its fill quantity, elsewhere nothing
  have hgain : ∀ i, e.gainedAt (.trade p) i =
      if i ∈ (e.advance p.tsNs).sim.open_
      then ((e.advance p.tsNs).reg.slots i).fillQty e.sim.track p else 0 := by
    intro i
    simp only [gainedAt, OrderRec.gained, hc.mem_open_iff, advance_slot h]
  have hperm : ((e.advance p.tsNs).sim.open_.filter
      fun i => 0 < ((e.advance p.tsNs).reg.slots i).fillQty e.sim.track p).Perm
      ((List.range e.reg.capacity).filter fun i => 0 < e.gainedAt (.trade p) i) := by
    refine (List.perm_ext_iff_of_nodup (hc.open_nodup.filter _)
      (List.nodup_range.filter _)).mpr fun i => ?_
    simp only [List.mem_filter, List.mem_range, decide_eq_true_eq, hgain]
    constructor
    · rintro ⟨hi, hq⟩
      have hne : (e.reg.slots i).state ≠ .free := by
        intro hs
        have := gainedAt_of_free hs (.trade p)
        rw [hgain, if_pos hi] at this
        omega
      exact ⟨h.consistent.wf.lt hne, by rwa [if_pos hi]⟩
    · rintro ⟨-, hq⟩
      split_ifs at hq with hi
      · exact ⟨hi, hq⟩
      · omega
  refine (hperm.map _).trans (List.Perm.of_eq (List.map_congr_left fun i hi => ?_))
  have hpos : 0 < e.gainedAt (.trade p) i := by
    simpa using (List.mem_filter.mp hi).2
  have hopen : i ∈ (e.advance p.tsNs).sim.open_ := by
    by_contra hno
    rw [hgain, if_neg hno] at hpos
    omega
  have hq := hgain i
  rw [if_pos hopen] at hq
  have hsame := OrderRec.clock_recycled_same e.sim.track p.tsNs (e.depthOf i) (e.reg.slots i)
  rw [gainedAt] at hq
  simp only [OrderRec.emitted, OrderRec.fillEvent, hq]
  rw [advance_slot h, hsame.priceCents, hsame.buyYes]

/-- The fills of a print together with the ids of their orders. -/
theorem events_trade_perm (h : e.Inv) (p : Print) :
    (History.events e (.trade p)).Perm
      (((List.range e.reg.capacity).filter fun i => 0 < e.gainedAt (.trade p) i).map
        fun i => (e.reg.slots i).fillEvent e.sim.track (e.depthOf i) p i) := by
  refine ((onTrade_fills_perm h p).map _).trans (List.Perm.of_eq ?_)
  rw [List.map_map]
  apply List.map_congr_left
  intro i hi
  have hne : (e.reg.slots i).state ≠ .free := by
    intro hs
    have hpos := (List.mem_filter.mp hi).2
    simp [gainedAt_of_free hs] at hpos
  simp only [comp_apply, OrderRec.fillEvent]
  rw [step_slot_of_live h _ hne, (OrderRec.next_same _ _ _ _ _ _).cid]

lemma events_of_not_trade {op : Op} (hop : ∀ p, op ≠ .trade p) : History.events e op = [] := by
  cases op with
  | trade p => exact absurd rfl (hop p)
  | _ => rfl

/-- Where an emitted fill comes from. -/
theorem mem_events (h : e.Inv) {op : Op} {ev : FillEvent} (hev : ev ∈ History.events e op) :
    ∃ p i, op = .trade p ∧ (e.reg.slots i).state ≠ .free ∧ 0 < e.gainedAt (.trade p) i ∧
      ev = (e.reg.slots i).fillEvent e.sim.track (e.depthOf i) p i := by
  cases op with
  | trade p =>
    rw [(events_trade_perm h p).mem_iff, List.mem_map] at hev
    obtain ⟨i, hi, rfl⟩ := hev
    have hpos : 0 < e.gainedAt (.trade p) i := by simpa using (List.mem_filter.mp hi).2
    refine ⟨p, i, rfl, ?_, hpos, rfl⟩
    intro hs
    rw [gainedAt_of_free hs] at hpos
    omega
  | _ => simp [History.events, step] at hev

/-- Summing over the orders that gain is summing over all slots. -/
lemma sum_filter_gainedAt (e : ShadowEngine) (op : Op) (q : Nat → Bool) :
    ((((List.range e.reg.capacity).filter fun i => 0 < e.gainedAt op i).filter q).map
      (e.gainedAt op)).sum =
      ∑ i ∈ Finset.range e.reg.capacity, if q i then e.gainedAt op i else 0 := by
  rw [← List.sum_toFinset _ ((List.nodup_range.filter _).filter _), ← Finset.sum_filter]
  apply Finset.sum_subset
  · intro i hi
    simp only [List.mem_toFinset, List.mem_filter, List.mem_range] at hi
    exact Finset.mem_filter.mpr ⟨Finset.mem_range.mpr hi.1.1, hi.2⟩
  · intro i hi hno
    obtain ⟨hlt, hq⟩ := Finset.mem_filter.mp hi
    simp only [List.mem_toFinset, List.mem_filter, List.mem_range, Finset.mem_range.mp hlt, hq,
      true_and, and_true, decide_eq_true_eq, not_lt] at hno
    exact le_antisymm hno (gainedAt_nonneg e _ i)

/-- Contracts filled by a print: what all the orders gain. -/
theorem onTrade_fills_sum (h : e.Inv) (p : Print) :
    ((e.onTrade p).2.map Fill.qty).sum =
      ∑ i ∈ Finset.range e.reg.capacity, e.gainedAt (.trade p) i := by
  rw [((onTrade_fills_perm h p).map Fill.qty).sum_eq, List.map_map]
  simpa [comp_def] using
    sum_filter_gainedAt e (.trade p) fun _ => true

/-- Contracts that an operation fills on the order `cid`. -/
theorem events_sum (h : e.Inv) (op : Op) (cid : Nat) :
    (((History.events e op).filter (·.cid = cid)).map (·.fill.qty)).sum =
      ∑ i ∈ Finset.range e.reg.capacity,
        if (e.reg.slots i).cid = cid then e.gainedAt op i else 0 := by
  cases op with
  | trade p =>
    rw [(((events_trade_perm h p).filter _).map _).sum_eq, List.filter_map, List.map_map]
    have key := sum_filter_gainedAt e (.trade p) fun i => (e.reg.slots i).cid = cid
    simp only [decide_eq_true_eq] at key
    exact key
  | _ => simp [History.events, step, gainedAt, OrderRec.gained]

end ShadowEngine

namespace History

variable {h : History}

/-- An operation adds to the fills of the order in slot `i` what it gains there. -/
theorem filledOf_step (hinv : h.engine.Inv) (op : Op) {i : Nat}
    (hi : (h.engine.reg.slots i).state ≠ .free) :
    (h.step op).filledOf (h.engine.reg.slots i).cid =
      h.filledOf (h.engine.reg.slots i).cid + h.engine.gainedAt op i := by
  simp only [filledOf, step, List.filter_append, List.map_append, List.sum_append]
  rw [ShadowEngine.events_sum hinv, Finset.sum_eq_single i]
  · simp
  · intro j _ hj
    rw [ite_eq_right_iff]
    intro hc
    apply ShadowEngine.gainedAt_of_free
    by_contra hs
    exact hj (hinv.slot_unique hs hi hc)
  · intro hno
    exact absurd (Finset.mem_range.mpr (hinv.consistent.wf.lt hi)) hno

end History

end HftBot
