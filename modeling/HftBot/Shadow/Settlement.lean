import HftBot.Shadow.Orders

/-!
# Settlement

A settlement sweeps the resting orders that its market lists and empties the list. An order that
is still inside its placement latency is passed over and falls off the list: it opens later, and
no later settlement of the market finds it. `settlement_final_iff` says that this is the only way
in which an order outlives the settlement of its market.
-/

namespace HftBot

open HftBot.Core Function

namespace ShadowEngine

variable {e : ShadowEngine}

/-- A settlement at `ts` finds no order of its market inside its placement latency. -/
def SettleReady (e : ShadowEngine) : Op → Prop
  | .settle mkt _ ts => ∀ i, (e.reg.slots i).state = .pendingNew → (e.reg.slots i).market = mkt →
      (e.reg.slots i).activeTsNs ≤ ts
  | _                => True

/-- Every live order is on the list of its market. -/
def AllListed (e : ShadowEngine) : Prop :=
  ∀ i, (e.reg.slots i).state.isLive = true → i ∈ e.byMarket (e.reg.slots i).market

lemma isLive_cases {s : OrdState} (h : s.isLive = true) :
    s = .pendingNew ∨ s.isResting = true := by
  cases s <;> simp_all [OrdState.isLive, OrdState.isResting]

/-- A settlement that is ready leaves no live order in its market. -/
lemma not_isLive_of_settle (h : e.Inv) (hl : e.AllListed) {mkt ts : Nat} {yesWins : Bool}
    (hr : e.SettleReady (.settle mkt yesWins ts)) {i : Nat}
    (hm : ((e.step (.settle mkt yesWins ts)).1.reg.slots i).market = mkt) :
    ((e.step (.settle mkt yesWins ts)).1.reg.slots i).state.isLive = false := by
  rw [Bool.eq_false_iff]
  intro hlive
  have hne : (e.reg.slots i).state ≠ .free := by
    intro hs
    rcases step_slot_of_free h (.settle mkt yesWins ts) hs with heq | ⟨_, _, _, _, _, _, hop, -⟩
    · rw [heq, hs] at hlive
      cases hlive
    · cases hop
  rw [step_slot_of_live h _ hne] at hm hlive
  have hlive₀ := OrderRec.next_isLive _ _ _ _ _ _ hlive
  rw [(OrderRec.next_same _ _ _ _ _ _).market] at hm
  have hclock := OrderRec.clock_recycled_same e.sim.track ts (e.depthOf i) (e.reg.slots i)
  have hwait : ((e.reg.slots i).clock e.sim.track ts (e.depthOf i)).recycled.state ≠
      .pendingNew := by
    apply OrderRec.clock_recycled_ne_pendingNew
    by_cases hnew : (e.reg.slots i).state = .pendingNew
    · exact .inr (hr i hnew hm)
    · exact .inl hnew
  simp only [OrderRec.next, hclock.market, hm, true_and] at hlive
  split_ifs at hlive with hc
  · cases hlive
  · have hrest := (isLive_cases hlive).resolve_left hwait
    exact hc ⟨hm ▸ hl i hlive₀, hrest⟩

lemma step_allListed (h : e.Inv) (hl : e.AllListed) {op : Op} (hr : e.SettleReady op) :
    (e.step op).1.AllListed := by
  intro i hlive
  by_cases hs : (e.reg.slots i).state = .free
  · rcases step_slot_of_free h op hs with heq | ⟨_, _, _, _, _, _, rfl, -, heq, -, hby⟩
    · rw [heq, hs] at hlive
      cases hlive
    · rw [heq, hby]
      simp [placedRec]
  · rw [mem_step_byMarket h op hs]
    have heq := step_slot_of_live h op hs
    have hm : ((e.step op).1.reg.slots i).market = (e.reg.slots i).market := by
      rw [heq, (OrderRec.next_same _ _ _ _ _ op).market]
    have hlive₀ : (e.reg.slots i).state.isLive = true := by
      rw [heq] at hlive
      exact OrderRec.next_isLive _ _ _ _ _ op hlive
    refine ⟨hm ▸ hl i hlive₀, ?_⟩
    intro hset
    cases op with
    | settle mkt yesWins ts =>
      rw [not_isLive_of_settle h hl hr hset.symm] at hlive
      cases hlive
    | _ => exact hset

/-- An order that waits beyond the settlement of its market survives it. -/
lemma isLive_of_not_settleReady (h : e.Inv) {mkt ts i : Nat} (yesWins : Bool)
    (hs : (e.reg.slots i).state = .pendingNew) (hlate : ts < (e.reg.slots i).activeTsNs) :
    (e.step (.settle mkt yesWins ts)).1.IsLive (e.reg.slots i).cid := by
  refine ⟨i, ?_⟩
  rw [step_slot_of_live h _ (by simp [hs])]
  simp [OrderRec.next, OrderRec.clock_recycled_of_late _ _ _ _ hs hlate, hs, OrdState.isResting,
    OrdState.isLive]

/-! ### Whole schedules -/

/-- After every settlement of the schedule the orders placed in its market before are dead: none
is live at any later point, and no later operation fills one. -/
def SettlementFinal (fees : FeeSchedule) (track : Track) (speed : SpeedParams) (horizonNs : Nat)
    (ops : List Op) : Prop :=
  ∀ before mkt yesWins ts later after, ops = before ++ .settle mkt yesWins ts :: (later ++ after) →
    ∀ cid q, quoteOf before cid = some q → q.mkt = mkt →
      let settled := history fees track speed horizonNs (before ++ [.settle mkt yesWins ts])
      let now := history fees track speed horizonNs (before ++ .settle mkt yesWins ts :: later)
      ¬ now.engine.IsLive cid ∧
        now.log.filter (·.cid = cid) = settled.log.filter (·.cid = cid)

/-- Settlements are final exactly in the schedules in which every settlement finds no order of its
market still inside its placement latency. -/
theorem settlement_final_iff (fees : FeeSchedule) (track : Track) (speed : SpeedParams)
    (horizonNs : Nat) (ops : List Op) :
    SettlementFinal fees track speed horizonNs ops ↔
      Along (fun e op => (e.step op).1) SettleReady (new fees track speed horizonNs) ops := by
  constructor
  · intro hfinal
    rw [along_iff_forall_split]
    rintro before op after rfl
    rw [← history_engine]
    have hinv := history_inv fees track speed horizonNs before
    have hord := history_orders fees track speed horizonNs before
    cases op with
    | settle mkt yesWins ts =>
      intro i hs hm
      by_contra hlate
      obtain ⟨q, hq, hp, -⟩ := hord.placed i (by simp [hs])
      have hdead := hfinal before mkt yesWins ts [] after rfl _ q hq (hp.market.symm.trans hm)
      apply hdead.1
      rw [history_append]
      exact isLive_of_not_settleReady hinv yesWins hs (Nat.lt_of_not_le hlate)
    | _ => trivial
  · rintro hready before mkt yesWins ts later after rfl cid q hq hmkt settled now
    rw [along_append] at hready
    obtain ⟨hbefore, hset, -⟩ := hready
    have hlisted : (history fees track speed horizonNs before).engine.AllListed := by
      rw [history_engine]
      refine (run_inv (P := fun e : ShadowEngine => e.Inv ∧ e.AllListed) (A := SettleReady)
        ?_ ⟨new_inv fees track speed horizonNs, ?_⟩ hbefore).2
      · rintro e op ⟨h, hl⟩ hr
        exact ⟨step_inv h op, step_allListed h hl hr⟩
      · intro i hlive
        cases hlive
    rw [← history_engine] at hset
    have hinv := history_inv fees track speed horizonNs before
    have hord := history_orders fees track speed horizonNs (before ++ [.settle mkt yesWins ts])
    have hsettled : settled = (history fees track speed horizonNs before).step
        (.settle mkt yesWins ts) := history_append fees track speed horizonNs before _
    have hnow : now = run History.step settled later := by
      simp only [now, settled]
      rw [← history_append, List.append_assoc]
      rfl
    have hq' := quoteOf_append hq [.settle mkt yesWins ts]
    rw [hnow]
    refine run_not_isLive (history_inv fees track speed horizonNs _) ?_ ?_ later
    · rw [hord.cidSeq]
      exact le_length_of_quoteOf hq'
    · rintro ⟨i, hc, hlive⟩
      obtain ⟨q', hq'', hp, -⟩ := hord.placed i (OrdState.ne_free_of_isLive hlive)
      rw [hc, hq'] at hq''
      cases hq''
      have hm : (settled.engine.reg.slots i).market = mkt := hp.market.trans hmkt
      have hlive' : (settled.engine.reg.slots i).state.isLive = true := hlive
      rw [hsettled] at hm hlive'
      exact Bool.false_ne_true ((not_isLive_of_settle hinv hlisted hset hm).symm.trans hlive')

/-- An order opens 7 ms after its placement. Its market settles after 1 ms, and a print after 8 ms
fills it. -/
theorem settlement_final_pending_order :
    Tape [.place 0 40 10 true 1000000 (-1), .settle 0 true 2000000,
        .trade ⟨0, 40, 10, false, 9000000⟩] ∧
      ¬ SettlementFinal ⟨[]⟩ .optimistic {} 60000000000
        [.place 0 40 10 true 1000000 (-1), .settle 0 true 2000000,
          .trade ⟨0, 40, 10, false, 9000000⟩] := by
  refine ⟨by decide, fun hfinal => ?_⟩
  have h := hfinal [.place 0 40 10 true 1000000 (-1)] 0 true 2000000
    [.trade ⟨0, 40, 10, false, 9000000⟩] [] rfl 1 ⟨0, 40, 10, true, 1000000, -1⟩ rfl rfl
  exact absurd h.2 (by decide +kernel)

end ShadowEngine

end HftBot
