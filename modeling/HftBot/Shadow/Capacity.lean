import HftBot.Shadow.Orders

/-!
# Slots in use

The registry counts a slot as used until it is released. Filled, canceled and settled orders are
released, an order that turns out to be ineligible for the track is not: it stays in its slot,
expired, for the rest of the run. `no_leak_iff` says that this is the only way in which a slot is
lost.
-/

namespace HftBot

open HftBot.Core Function

/-- The time to which a tape event moves the clocks. -/
def Op.clock? : Op → Option Nat
  | .trade p       => some p.tsNs
  | .settle _ _ ts => some ts
  | .advance now   => some now
  | _              => none

namespace ShadowEngine

variable {e : ShadowEngine}

/-- The slots of the orders that wait or rest. -/
def liveSlots (e : ShadowEngine) : Finset Nat :=
  {i ∈ Finset.range e.reg.capacity | (e.reg.slots i).state.isLive = true}

/-- The slots that hold an expired order. -/
def expiredSlots (e : ShadowEngine) : Finset Nat :=
  {i ∈ Finset.range e.reg.capacity | (e.reg.slots i).state = .expired}

/-- The slots in use are those of the live orders, and an order is taken as long as there are fewer
of them than slots. -/
structure NoLeak (e : ShadowEngine) : Prop where
  inUse : e.reg.inUse = e.liveSlots.card
  place : e.liveSlots.card < e.reg.capacity → ∀ mkt priceCents count buyYes ts depth,
    (e.place mkt priceCents count buyYes ts depth).2 ≠ 0

/-- No order whose depth is unknown reaches its activation on the queue track. -/
def OpensEligible (e : ShadowEngine) (op : Op) : Prop :=
  ∀ now, op.clock? = some now → ∀ p ∈ e.pendingActivation,
    (e.reg.slots p.idx).activeTsNs ≤ now → ¬ (e.sim.track = .queue ∧ p.displayedAtLevel < 0)

/-! ### Counting slots -/

/-- A slot is free, or it holds a live order, or an expired one. -/
lemma Inv.state_cases (h : e.Inv) (i : Nat) :
    (e.reg.slots i).state = .free ∨ (e.reg.slots i).state.isLive = true ∨
      (e.reg.slots i).state = .expired := by
  obtain ⟨hfilled, hcanceled⟩ := h.finished i
  cases hs : (e.reg.slots i).state <;> simp_all [OrdState.isLive]

lemma Inv.inUse_eq (h : e.Inv) :
    e.reg.inUse = e.liveSlots.card + e.expiredSlots.card := by
  have hwf := h.consistent.wf
  have hfree : e.reg.free.length =
      {i ∈ Finset.range e.reg.capacity | (e.reg.slots i).state = .free}.card := by
    rw [← List.toFinset_card_of_nodup hwf.free_nodup]
    congr 1
    ext i
    simp [hwf.mem_free]
  have hused : e.liveSlots ∪ e.expiredSlots =
      {i ∈ Finset.range e.reg.capacity | ¬ (e.reg.slots i).state = .free} := by
    ext i
    simp only [liveSlots, expiredSlots, Finset.mem_union, Finset.mem_filter, Finset.mem_range,
      ← and_or_left]
    refine and_congr_right fun _ => ⟨?_, fun hs => (h.state_cases i).resolve_left hs⟩
    rintro (hs | hs)
    · exact OrdState.ne_free_of_isLive hs
    · simp [hs]
  have hdisj : Disjoint e.liveSlots e.expiredSlots := by
    refine Finset.disjoint_filter.mpr fun i _ hs hexp => ?_
    rw [hexp] at hs
    cases hs
  have hsplit := Finset.card_filter_add_card_filter_not
    (s := Finset.range e.reg.capacity) fun i => (e.reg.slots i).state = .free
  rw [← hused, Finset.card_union_of_disjoint hdisj, ← hfree, Finset.card_range] at hsplit
  rw [OrderRegistry.inUse]
  omega

/-- Slots are lost exactly to expired orders. -/
lemma Inv.noLeak_iff (h : e.Inv) : e.NoLeak ↔ ∀ i, (e.reg.slots i).state ≠ .expired := by
  have hcount := h.inUse_eq
  constructor
  · intro hno i hs
    have hi : i ∈ e.expiredSlots := Finset.mem_filter.mpr
      ⟨Finset.mem_range.mpr (h.consistent.wf.lt (by simp [hs])), hs⟩
    have hpos := Finset.card_pos.mpr ⟨i, hi⟩
    have := hno.inUse
    omega
  · intro hno
    have hzero : e.expiredSlots.card = 0 :=
      Finset.card_eq_zero.mpr (Finset.filter_eq_empty_iff.mpr fun i _ => hno i)
    refine ⟨by omega, ?_⟩
    intro hlt mkt priceCents count buyYes ts depth
    rw [hzero, OrderRegistry.inUse] at hcount
    have hne : e.reg.free ≠ [] := by
      intro hnil
      rw [hnil, List.length_nil] at hcount
      omega
    obtain ⟨idx, rest, hcons⟩ := List.exists_cons_of_ne_nil hne
    obtain ⟨reg, heq, -⟩ := place_slot mkt priceCents count buyYes ts depth h hcons
    simp [heq]

/-! ### Expiry -/

end ShadowEngine

namespace OrderRec

variable (track : Track) (displayed : Int) (r : OrderRec)

lemma clock_recycled_expired_iff (now : Nat) :
    (r.clock track now displayed).recycled.state = .expired ↔
      r.state = .expired ∨
        (r.state = .pendingNew ∧ r.activeTsNs ≤ now ∧ track = .queue ∧ displayed < 0) := by
  rw [clock_recycled_state, clockState]
  cases hs : r.state with
  | pendingNew =>
    simp only [reduceCtorEq, true_and, false_or]
    by_cases hact : r.activeTsNs ≤ now
    · by_cases hel : track = .queue ∧ displayed < 0
      · simp [hact, hel]
      · simp only [hact, hel, if_true, if_false, true_and, iff_false]
        split_ifs <;> simp
    · simp [hact]
  | pendingCancel =>
    simp only [reduceCtorEq, false_and, or_false, iff_false]
    split_ifs <;> simp
  | _ => simp

lemma print_recycled_ne_expired (p : Print) (h : r.state ≠ .expired) :
    (r.print track p).recycled.state ≠ .expired := by
  rw [recycled_state, print_state]
  split_ifs <;> simp_all

/-- An order expires exactly when the clock reaches its activation and it is ineligible. -/
lemma next_expired_iff (speed : SpeedParams) (listed : Prop) [Decidable listed] (op : Op) :
    (r.next track speed displayed listed op).state = .expired ↔
      r.state = .expired ∨
        ∃ now, op.clock? = some now ∧ r.state = .pendingNew ∧ r.activeTsNs ≤ now ∧
          track = .queue ∧ displayed < 0 := by
  cases op with
  | market ticker family => simp [next, Op.clock?]
  | place mkt priceCents count buyYes ts depth => simp [next, Op.clock?]
  | cancel cid ts =>
    simp only [next, cancelReq, Op.clock?, reduceCtorEq, false_and, exists_false, or_false]
    split_ifs with hc hs
    · simp [hs]
    · rfl
    · rfl
  | trade p =>
    simp only [next, Op.clock?, Option.some.injEq, exists_eq_left']
    rw [← clock_recycled_expired_iff]
    split_ifs with hrest
    · have hne : (r.clock track p.tsNs displayed).recycled.state ≠ .expired := by
        intro hs
        rw [hs] at hrest
        cases hrest
      exact iff_of_false (print_recycled_ne_expired track _ p hne) hne
    · rfl
  | settle mkt yesWins ts =>
    simp only [next, Op.clock?, Option.some.injEq, exists_eq_left']
    rw [← clock_recycled_expired_iff]
    split_ifs with hc
    · refine iff_of_false (by simp) ?_
      intro hs
      rw [hs] at hc
      cases hc.2.2
    · rfl
  | advance now =>
    simp only [next, Op.clock?, Option.some.injEq, exists_eq_left']
    exact clock_recycled_expired_iff track displayed r now

end OrderRec

namespace ShadowEngine

variable {e : ShadowEngine}

/-- With no expired order before, an operation leaves none exactly if it opens eligible orders
only. -/
lemma step_no_expired_iff (h : e.Inv) (hno : ∀ i, (e.reg.slots i).state ≠ .expired) (op : Op) :
    (∀ i, ((e.step op).1.reg.slots i).state ≠ .expired) ↔ e.OpensEligible op := by
  constructor
  · rintro hafter now hnow p hp hact ⟨htrack, hdepth⟩
    have hs : (e.reg.slots p.idx).state = .pendingNew :=
      ((h.consistent.mem_pending p.idx).mp (List.mem_map_of_mem hp)).2
    apply hafter p.idx
    rw [step_slot_of_live h op (by simp [hs]), OrderRec.next_expired_iff, depthOf_of_mem h hp]
    exact .inr ⟨now, hnow, hs, hact, htrack, hdepth⟩
  · intro hopens i
    by_cases hs : (e.reg.slots i).state = .free
    · rcases step_slot_of_free h op hs with heq | ⟨_, _, _, _, _, _, -, -, heq, -⟩
      · simp [heq, hs]
      · simp [heq, placedRec]
    · rw [step_slot_of_live h op hs, ne_eq, OrderRec.next_expired_iff]
      rintro (hexp | ⟨now, hnow, hnew, hact, htrack, hdepth⟩)
      · exact hno i hexp
      · obtain ⟨p, hp, rfl⟩ := exists_pending h hnew
        rw [depthOf_of_mem h hp] at hdepth
        exact hopens now hnow p hp hact ⟨htrack, hdepth⟩

/-- In every state of a run the slots in use are those of the live orders, exactly if no order of
unknown depth reaches its activation on the queue track. -/
theorem no_leak_iff (fees : FeeSchedule) (track : Track) (speed : SpeedParams) (horizonNs : Nat)
    (ops : List Op) :
    (∀ before, before <+: ops → (history fees track speed horizonNs before).engine.NoLeak) ↔
      Along (fun e op => (e.step op).1) OpensEligible (new fees track speed horizonNs) ops := by
  simp only [history_engine]
  apply forall_prefix_iff_along
  · rw [(new_inv fees track speed horizonNs).noLeak_iff]
    intro i hs
    cases hs
  · intro before op after _ hno
    have hinv := history_inv fees track speed horizonNs before
    rw [history_engine] at hinv
    rw [hinv.noLeak_iff] at hno
    rw [(step_inv hinv op).noLeak_iff]
    exact step_no_expired_iff hinv hno op

/-- On the queue track an order of unknown depth keeps its slot when it expires. -/
theorem no_leak_ineligible_order :
    ¬ (history ⟨[]⟩ .queue {} 60000000000
      [.place 0 40 10 true 1000000 (-1), .advance 8000000]).engine.NoLeak := by
  intro h
  have hinv := history_inv ⟨[]⟩ .queue {} 60000000000
    [.place 0 40 10 true 1000000 (-1), .advance 8000000]
  exact hinv.noLeak_iff.1 h 0 (by decide +kernel)

end ShadowEngine

end HftBot
