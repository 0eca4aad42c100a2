import HftBot.Shadow.Orders
import HftBot.Shadow.Volume
import Mathlib.Algebra.BigOperators.Group.Finset.Piecewise
import Mathlib.Algebra.Order.BigOperators.Group.Finset

/-!
# Fills on record and in the log

A slot forgets its order when it is recycled, the log of a history does not. While an order is in a
slot its record counts what the log holds for it, and the total of the log is the sum over the ids
that were handed out.
-/

namespace HftBot

open HftBot.Core Function

namespace History

variable {h : History}

/-- The log agrees with the records: ids in it were handed out, and the record of an order in a
slot counts the fills that the log holds for it. -/
structure Tracked (h : History) : Prop where
  inv    : h.engine.Inv
  log_le : ∀ ev ∈ h.log, ev.cid ≤ h.engine.cidSeq
  filled : ∀ i, (h.engine.reg.slots i).state ≠ .free →
    (h.engine.reg.slots i).filled = h.filledOf (h.engine.reg.slots i).cid
  queue  : ∀ i, (h.engine.reg.slots i).state ≠ .free → (h.engine.reg.slots i).QueueNonneg

lemma filledOf_eq_zero (hlog : ∀ ev ∈ h.log, ev.cid ≤ h.engine.cidSeq) {cid : Nat}
    (hcid : h.engine.cidSeq < cid) : h.filledOf cid = 0 := by
  have hnone : h.log.filter (·.cid = cid) = [] := by
    rw [List.filter_eq_nil_iff]
    intro ev hev hc
    simp only [decide_eq_true_eq] at hc
    have := hlog ev hev
    omega
  rw [filledOf, hnone]
  rfl

lemma filledOf_step_of_not_trade (op : Op) (hop : ∀ p, op ≠ .trade p) (cid : Nat) :
    (h.step op).filledOf cid = h.filledOf cid := by
  simp [filledOf, step, ShadowEngine.events_of_not_trade hop]

/-- Nothing is filled on an order that is not live. -/
lemma filledOf_step_of_not_isLive (hinv : h.engine.Inv) (op : Op) {cid : Nat}
    (hdead : ¬ h.engine.IsLive cid) : (h.step op).filledOf cid = h.filledOf cid := by
  have hnone : (events h.engine op).filter (·.cid = cid) = [] := by
    rw [List.filter_eq_nil_iff]
    intro ev hev hc
    simp only [decide_eq_true_eq] at hc
    exact hdead (hc ▸ ShadowEngine.isLive_of_mem_events hinv hev)
  simp [filledOf, step, hnone]

lemma filledOf_le_step (hinv : h.engine.Inv) (op : Op) (cid : Nat) :
    h.filledOf cid ≤ (h.step op).filledOf cid := by
  simp only [filledOf, step, List.filter_append, List.map_append, List.sum_append]
  rw [ShadowEngine.events_sum hinv]
  have hpos : 0 ≤ ∑ i ∈ Finset.range h.engine.reg.capacity,
      if (h.engine.reg.slots i).cid = cid then h.engine.gainedAt op i else 0 := by
    apply Finset.sum_nonneg
    intro i _
    split_ifs
    · exact ShadowEngine.gainedAt_nonneg _ _ _
    · exact le_rfl
  omega

lemma Tracked.step (ht : h.Tracked) (op : Op) : (h.step op).Tracked where
  inv := ShadowEngine.step_inv ht.inv op
  log_le ev hev := by
    simp only [History.step, List.mem_append] at hev ⊢
    rw [ShadowEngine.step_cidSeq]
    rcases hev with hev | hev
    · have := ht.log_le ev hev
      omega
    · obtain ⟨p, i, rfl, hne, -, rfl⟩ := ShadowEngine.mem_events ht.inv hev
      have := ht.inv.cid_le i hne
      simp only [OrderRec.fillEvent_cid]
      omega
  filled i hi := by
    simp only [History.step] at hi ⊢
    by_cases hs : (h.engine.reg.slots i).state = .free
    · rcases ShadowEngine.step_slot_of_free ht.inv op hs with heq |
        ⟨mkt, priceCents, count, buyYes, ts, depth, rfl, -, heq, -⟩
      · exact absurd (heq ▸ hs) hi
      · rw [heq]
        have hz : h.filledOf (h.engine.cidSeq + 1) = 0 :=
          filledOf_eq_zero ht.log_le (Nat.lt_succ_self _)
        rw [← filledOf_step_of_not_trade (.place mkt priceCents count buyYes ts depth) (by simp)]
          at hz
        exact hz.symm
    · have hstep := filledOf_step ht.inv op hs
      rw [ShadowEngine.step_slot_of_live ht.inv op hs, (OrderRec.next_same _ _ _ _ _ op).cid,
        OrderRec.next_filled, ht.filled i hs]
      exact hstep.symm
  queue := by
    refine ShadowEngine.step_live_inv ht.inv op ?_ ?_ ht.queue
    · rintro mkt priceCents count buyYes ts depth rfl hs
      cases hs
    · rintro i r - - hr
      exact OrderRec.next_queueNonneg _ _ _ _ _ hr

/-- The log after an operation, from the record of the order in slot `i`. -/
lemma Tracked.filledOf_step_eq (ht : h.Tracked) (op : Op) {i : Nat}
    (hi : (h.engine.reg.slots i).state ≠ .free) :
    (h.step op).filledOf (h.engine.reg.slots i).cid =
      ((h.engine.reg.slots i).next h.engine.sim.track h.engine.speed (h.engine.depthOf i)
        (i ∈ h.engine.byMarket (h.engine.reg.slots i).market) op).filled := by
  rw [filledOf_step ht.inv op hi, OrderRec.next_filled, ht.filled i hi]
  rfl

/-- The total is the sum over the ids that were handed out. -/
lemma filledTotal_eq_sum (hlog : ∀ ev ∈ h.log, ev.cid ≤ h.engine.cidSeq) :
    h.filledTotal = ∑ cid ∈ Finset.range (h.engine.cidSeq + 1), h.filledOf cid := by
  have main : ∀ (log : List FillEvent) (n : Nat), (∀ ev ∈ log, ev.cid < n) →
      (log.map (·.fill.qty)).sum =
        ∑ cid ∈ Finset.range n, ((log.filter (·.cid = cid)).map (·.fill.qty)).sum := by
    intro log n
    induction log with
    | nil => simp
    | cons ev log ih =>
      intro hlt
      have hev : ev.cid ∈ Finset.range n := Finset.mem_range.mpr (hlt ev List.mem_cons_self)
      have hterm : ∀ cid, (((ev :: log).filter (·.cid = cid)).map (·.fill.qty)).sum =
          (if ev.cid = cid then ev.fill.qty else 0) +
            ((log.filter (·.cid = cid)).map (·.fill.qty)).sum := by
        intro cid
        by_cases hc : ev.cid = cid <;> simp [hc]
      simp only [hterm, Finset.sum_add_distrib, Finset.sum_ite_eq, hev, if_true, List.map_cons,
        List.sum_cons]
      rw [ih fun ev' hev' => hlt ev' (List.mem_cons_of_mem _ hev')]
  exact main h.log _ fun ev hev => Nat.lt_succ_of_le (hlog ev hev)

end History

theorem ShadowEngine.history_tracked (fees : FeeSchedule) (track : Track) (speed : SpeedParams)
    (horizonNs : Nat) (ops : List Op) :
    (history fees track speed horizonNs ops).Tracked := by
  refine run_inv (P := History.Tracked) (A := fun _ _ => True) (fun _ op h _ => h.step op) ?_
    (along_of_forall fun _ _ => trivial)
  exact ⟨new_inv fees track speed horizonNs, fun _ hev => (by cases hev),
    fun _ hi => absurd rfl hi, fun _ hi => absurd rfl hi⟩

end HftBot
