import HftBot.Shadow.Steps

/-!
# One operation, one slot

`step_slot_of_live` and `step_slot_of_free` say everything an operation of the engine can do to a
slot: an order in the slot moves by `OrderRec.next`, a free slot stays free or receives the order
just placed. Facts about single orders are proved for `OrderRec.next` and lifted to all reachable
states from there.
-/

namespace HftBot

open HftBot.Core Function

namespace ShadowEngine

variable {e : ShadowEngine}

lemma advance_market (e : ShadowEngine) (now : Nat) : (e.advance now).byMarket = e.byMarket := rfl

end ShadowEngine

namespace OrderRec

variable (track : Track) (now : Nat) (displayed : Int) (p : Print) (r : OrderRec)

/-- What no operation ever changes in an order. -/
structure Same (r r' : OrderRec) : Prop where
  cid        : r'.cid = r.cid
  market     : r'.market = r.market
  priceCents : r'.priceCents = r.priceCents
  count      : r'.count = r.count
  buyYes     : r'.buyYes = r.buyYes
  placeTsNs  : r'.placeTsNs = r.placeTsNs
  activeTsNs : r'.activeTsNs = r.activeTsNs

lemma Same.refl (r : OrderRec) : Same r r := by constructor <;> rfl

lemma Same.symm {r r' : OrderRec} (h : Same r r') : Same r' r :=
  ⟨h.cid.symm, h.market.symm, h.priceCents.symm, h.count.symm, h.buyYes.symm, h.placeTsNs.symm,
    h.activeTsNs.symm⟩

lemma Same.trans {r r' r'' : OrderRec} (h : Same r r') (h' : Same r' r'') : Same r r'' :=
  ⟨h'.cid.trans h.cid, h'.market.trans h.market, h'.priceCents.trans h.priceCents,
    h'.count.trans h.count, h'.buyYes.trans h.buyYes, h'.placeTsNs.trans h.placeTsNs,
    h'.activeTsNs.trans h.activeTsNs⟩

lemma recycled_same : Same r r.recycled := by
  unfold recycled
  split_ifs <;> constructor <;> rfl

lemma clock_same : Same r (r.clock track now displayed) := by
  unfold clock swept opened
  split_ifs <;> constructor <;> rfl

lemma print_same : Same r (r.print track p) := by
  simp only [print, fill]
  split_ifs <;> constructor <;> rfl

/-- The clock recycles what it finishes. -/
lemma clock_recycled_same : Same r (r.clock track now displayed).recycled :=
  (clock_same track now displayed r).trans (recycled_same _)

theorem next_same (speed : SpeedParams) (listed : Prop) [Decidable listed] (op : Op) :
    Same r (r.next track speed displayed listed op) := by
  cases op with
  | market ticker family => exact .refl r
  | place mkt priceCents count buyYes ts depth => exact .refl r
  | cancel cid ts =>
    simp only [next]
    split_ifs
    · constructor <;> rfl
    · exact .refl r
  | trade p =>
    simp only [next]
    split_ifs
    · exact (clock_recycled_same track _ displayed r).trans
        ((print_same track p _).trans (recycled_same _))
    · exact clock_recycled_same track _ displayed r
  | settle mkt yesWins ts =>
    simp only [next]
    split_ifs
    · exact (clock_recycled_same track ts displayed r).trans (by constructor <;> rfl)
    · exact clock_recycled_same track ts displayed r
  | advance now => exact clock_recycled_same track now displayed r

@[simp] lemma clock_cancelEffNs : (r.clock track now displayed).cancelEffNs = r.cancelEffNs := by
  unfold clock swept opened
  split_ifs <;> rfl

@[simp] lemma recycled_cancelEffNs : r.recycled.cancelEffNs = r.cancelEffNs := by
  unfold recycled
  split_ifs <;> rfl

/-- Whether the slot is listed counts, not how that is decided. -/
lemma next_congr (speed : SpeedParams) {listed listed' : Prop} [Decidable listed]
    [Decidable listed'] (h : listed ↔ listed') (op : Op) :
    r.next track speed displayed listed op = r.next track speed displayed listed' op := by
  cases op <;> simp only [next, h]

/-! ### States -/

lemma recycled_state : r.recycled.state =
    if r.state = .filled ∨ r.state = .canceled then .free else r.state := by
  unfold recycled
  split_ifs <;> rfl

/-- The state in which the clock leaves an order. -/
def clockState : OrdState :=
  match r.state with
  | .pendingNew    =>
    if r.activeTsNs ≤ now then
      if track = .queue ∧ displayed < 0 then .expired
      else if r.cancelEffNs = 0 then .open
      else if r.cancelEffNs ≤ now then .free else .pendingCancel
    else .pendingNew
  | .pendingCancel => if r.cancelEffNs ≤ now then .free else .pendingCancel
  | .filled        => .free
  | .canceled      => .free
  | s              => s

lemma clock_recycled_state :
    (r.clock track now displayed).recycled.state = r.clockState track now displayed := by
  rw [recycled_state]
  cases hs : r.state with
  | pendingNew =>
    by_cases hact : r.activeTsNs ≤ now
    · by_cases hel : track = .queue ∧ displayed < 0
      · simp [clock, swept, opened, clockState, hs, hact, hel]
      · by_cases hz : r.cancelEffNs = 0
        · simp [clock, swept, opened, clockState, hs, hact, hel, hz]
        · by_cases hc : r.cancelEffNs ≤ now <;>
            simp [clock, swept, opened, clockState, hs, hact, hel, hz, hc]
    · simp [clock, swept, clockState, hs, hact]
  | pendingCancel =>
    by_cases hc : r.cancelEffNs ≤ now <;> simp [clock, swept, clockState, hs, hc]
  | _ => simp [clock, swept, clockState, hs]

/-- Only waiting orders wait after the clock has moved, and only those not yet due. -/
lemma clock_recycled_ne_pendingNew (h : r.state ≠ .pendingNew ∨ r.activeTsNs ≤ now) :
    (r.clock track now displayed).recycled.state ≠ .pendingNew := by
  rw [clock_recycled_state, clockState]
  split
  next hs => rw [if_pos (h.resolve_left (not_not.mpr hs))]; split_ifs <;> simp
  next => split_ifs <;> simp
  next => simp
  next => simp
  next hs _ _ _ => exact hs

lemma clock_recycled_of_late (hs : r.state = .pendingNew) (h : now < r.activeTsNs) :
    (r.clock track now displayed).recycled = r := by
  simp [clock, swept, recycled, hs, Nat.not_le.mpr h]

/-- The clock brings no order to life. -/
lemma clock_recycled_isLive (h : (r.clock track now displayed).recycled.state.isLive = true) :
    r.state.isLive = true := by
  rw [clock_recycled_state, clockState] at h
  cases hs : r.state <;> simp_all [OrdState.isLive]

lemma print_recycled_isLive (h : (r.print track p).recycled.state.isLive = true) :
    r.state.isLive = true := by
  rw [recycled_state, print_state] at h
  split_ifs at h <;> simp_all [OrdState.isLive]

lemma print_recycled_ne_pendingNew (h : r.state ≠ .pendingNew) :
    (r.print track p).recycled.state ≠ .pendingNew := by
  rw [recycled_state, print_state]
  split_ifs <;> simp_all

theorem next_ne_pendingNew (speed : SpeedParams) (listed : Prop) [Decidable listed] (op : Op)
    (h : r.state ≠ .pendingNew) : (r.next track speed displayed listed op).state ≠ .pendingNew := by
  cases op with
  | market ticker family => exact h
  | place mkt priceCents count buyYes ts depth => exact h
  | cancel cid ts =>
    simp only [next, cancelReq]
    split_ifs <;> simp [h]
  | trade p =>
    have hclock := clock_recycled_ne_pendingNew track p.tsNs displayed r (.inl h)
    simp only [next]
    split_ifs
    · exact print_recycled_ne_pendingNew track p _ hclock
    · exact hclock
  | settle mkt yesWins ts =>
    simp only [next]
    split_ifs
    · simp
    · exact clock_recycled_ne_pendingNew track ts displayed r (.inl h)
  | advance now => exact clock_recycled_ne_pendingNew track now displayed r (.inl h)

theorem next_isLive (speed : SpeedParams) (listed : Prop) [Decidable listed] (op : Op)
    (h : (r.next track speed displayed listed op).state.isLive = true) :
    r.state.isLive = true := by
  cases op with
  | market ticker family => exact h
  | place mkt priceCents count buyYes ts depth => exact h
  | cancel cid ts =>
    simp only [next] at h
    split_ifs at h with hc
    · rcases hc.2 with hs | hs <;> simp [hs, OrdState.isLive]
    · exact h
  | trade p =>
    simp only [next] at h
    split_ifs at h
    · exact clock_recycled_isLive track p.tsNs displayed r (print_recycled_isLive track p _ h)
    · exact clock_recycled_isLive track p.tsNs displayed r h
  | settle mkt yesWins ts =>
    simp only [next] at h
    split_ifs at h
    · cases h
    · exact clock_recycled_isLive track ts displayed r h
  | advance now => exact clock_recycled_isLive track now displayed r h

/-! ### Contracts filled -/

lemma fillQty_nonneg : 0 ≤ r.fillQty track p := by
  unfold fillQty
  split_ifs
  · exact le_max_left _ _
  · exact le_rfl

lemma fillQty_le_remaining (h : 0 ≤ r.remaining) : r.fillQty track p ≤ r.remaining := by
  unfold fillQty
  split_ifs
  · exact max_le h (min_le_right _ _)
  · exact h

lemma print_filled : (r.print track p).filled = r.filled + r.fillQty track p := by
  have hq := fillQty_nonneg track p r
  simp only [print, fill]
  split_ifs <;> simp <;> omega

@[simp] lemma clock_filled : (r.clock track now displayed).filled = r.filled := by
  unfold clock swept opened
  split_ifs <;> rfl

@[simp] lemma recycled_filled : r.recycled.filled = r.filled := by
  unfold recycled
  split_ifs <;> rfl

/-- Contracts that an operation fills on the order. -/
def gained (op : Op) : Int :=
  match op with
  | .trade p =>
    let r := (r.clock track p.tsNs displayed).recycled
    if r.state.isResting then r.fillQty track p else 0
  | _        => 0

theorem next_filled (speed : SpeedParams) (listed : Prop) [Decidable listed] (op : Op) :
    (r.next track speed displayed listed op).filled = r.filled + r.gained track displayed op := by
  cases op with
  | market ticker family => simp [next, gained]
  | place mkt priceCents count buyYes ts depth => simp [next, gained]
  | cancel cid ts =>
    simp only [next, gained]
    split_ifs <;> simp [cancelReq]
  | trade p =>
    simp only [next, gained]
    split_ifs <;> simp [print_filled]
  | settle mkt yesWins ts =>
    simp only [next, gained]
    split_ifs <;> simp
  | advance now => simp [next, gained]

lemma gained_nonneg (op : Op) : 0 ≤ r.gained track displayed op := by
  cases op with
  | trade p =>
    simp only [gained]
    split_ifs
    · exact fillQty_nonneg _ _ _
    · exact le_rfl
  | _ => exact le_rfl

/-- Only a live order gains. -/
lemma isLive_of_gained_pos {op : Op} (h : 0 < r.gained track displayed op) :
    r.state.isLive = true := by
  cases op with
  | trade p =>
    simp only [gained] at h
    split_ifs at h with hs
    · apply clock_recycled_isLive track p.tsNs displayed r
      simp only [OrdState.isLive, OrdState.isResting, Bool.or_eq_true] at hs ⊢
      tauto
    · omega
  | _ => exact absurd h (lt_irrefl 0)

lemma gained_le_remaining (op : Op) (h : 0 ≤ r.remaining) :
    r.gained track displayed op ≤ r.remaining := by
  cases op with
  | trade p =>
    have hrem : (r.clock track p.tsNs displayed).recycled.remaining = r.remaining := by
      simp only [remaining, recycled_filled, clock_filled,
        (clock_recycled_same track p.tsNs displayed r).count]
    simp only [gained]
    split_ifs
    · rw [← hrem] at h ⊢
      exact fillQty_le_remaining track p _ h
    · exact h
  | _ => exact h

end OrderRec

namespace ShadowEngine

variable {e : ShadowEngine}

/-! ### Slots -/

/-- An order in a slot moves on its own. -/
theorem step_slot_of_live (h : e.Inv) (op : Op) {i : Nat} (hi : (e.reg.slots i).state ≠ .free) :
    (e.step op).1.reg.slots i =
      (e.reg.slots i).next e.sim.track e.speed (e.depthOf i)
        (i ∈ e.byMarket (e.reg.slots i).market) op := by
  cases op with
  | market ticker family => rfl
  | place mkt priceCents count buyYes ts depth =>
    cases hfree : e.reg.free with
    | nil => simp only [step, place_full mkt priceCents count buyYes ts depth hfree, OrderRec.next]
    | cons idx rest =>
      obtain ⟨reg, heq, -, -, -, -, -, hslots⟩ :=
        place_slot mkt priceCents count buyYes ts depth h hfree
      have hidx : (e.reg.slots idx).state = .free :=
        ((h.consistent.wf.mem_free idx).mp (by simp [hfree])).2
      have hne : i ≠ idx := by rintro rfl; exact hi hidx
      simp only [step, heq, hslots, update_of_ne hne, OrderRec.next]
  | cancel cid ts =>
    simp only [step, OrderRec.next]
    rcases cancel_cases h cid ts with ⟨hno, heq⟩ | ⟨j, reg, hc, hs, heq, -, -, hslots⟩
    · rw [heq, if_neg]
      rintro ⟨hc, hs⟩
      exact hs.elim (hno i hc).1 (hno i hc).2
    · rw [heq]
      simp only [hslots]
      by_cases hij : i = j
      · subst hij; simp [hc, hs]
      · rw [update_of_ne hij, if_neg]
        rintro ⟨hci, -⟩
        have hne : (e.reg.slots j).state ≠ .free := by rcases hs with hs | hs <;> simp [hs]
        exact hij (h.slot_unique hi hne (hci.trans hc.symm))
  | trade p => simp only [step, onTrade_slot h, advance_slot h, OrderRec.next]
  | settle mkt yesWins ts =>
    have hm : ((e.reg.slots i).clock e.sim.track ts (e.depthOf i)).recycled.market =
        (e.reg.slots i).market := (OrderRec.clock_recycled_same _ _ _ _).market
    simp only [step, onSettle_slot, advance_slot h, OrderRec.next, advance_market, hm]
    by_cases hmkt : (e.reg.slots i).market = mkt
    · simp only [hmkt]
    · simp only [hmkt, false_and, and_false]
  | advance now => simp only [step, advance_slot h, OrderRec.next]

/-- A free slot is left alone, or it receives the order that is placed. -/
theorem step_slot_of_free (h : e.Inv) (op : Op) {i : Nat} (hi : (e.reg.slots i).state = .free) :
    (e.step op).1.reg.slots i = e.reg.slots i ∨
      ∃ mkt priceCents count buyYes ts depth, op = .place mkt priceCents count buyYes ts depth ∧
        i ∈ e.reg.free ∧
        (e.step op).1.reg.slots i = e.placedRec mkt priceCents count buyYes ts ∧
        (e.step op).1.pendingActivation = e.pendingActivation ++ [⟨i, depth⟩] ∧
        (e.step op).1.byMarket = update e.byMarket mkt (e.byMarket mkt ++ [i]) := by
  have hclock : ∀ track now displayed,
      ((e.reg.slots i).clock track now displayed).recycled = e.reg.slots i := by
    intro track now displayed
    simp [OrderRec.clock, OrderRec.swept, OrderRec.recycled, hi]
  cases op with
  | market ticker family => exact .inl rfl
  | place mkt priceCents count buyYes ts depth =>
    cases hfree : e.reg.free with
    | nil => left; simp only [step, place_full mkt priceCents count buyYes ts depth hfree]
    | cons idx rest =>
      obtain ⟨reg, heq, -, -, -, -, -, hslots⟩ :=
        place_slot mkt priceCents count buyYes ts depth h hfree
      by_cases hidx : i = idx
      · subst hidx
        right
        refine ⟨mkt, priceCents, count, buyYes, ts, depth, rfl, by simp, ?_, ?_, ?_⟩
        · simp [step, heq, hslots]
        · simp [step, heq]
        · simp [step, heq]
      · left; simp only [step, heq, hslots, update_of_ne hidx]
  | cancel cid ts =>
    left
    rcases cancel_cases h cid ts with ⟨-, heq⟩ | ⟨j, reg, -, hs, heq, -, -, hslots⟩
    · rw [step, heq]
    · have hne : i ≠ j := by rintro rfl; simp [hi] at hs
      simp only [step, heq, hslots, update_of_ne hne]
  | trade p =>
    left
    simp [step, onTrade_slot h, advance_slot h, hclock, hi, OrdState.isResting]
  | settle mkt yesWins ts =>
    left
    simp [step, onSettle_slot, advance_slot h, hclock, hi, OrdState.isResting]
  | advance now =>
    left
    simp only [step, advance_slot h, hclock]

/-- An order keeps its slot: after an operation no other slot carries its id. -/
lemma step_slot_unique (h : e.Inv) (op : Op) {i j : Nat} (hi : (e.reg.slots i).state ≠ .free)
    (hj : ((e.step op).1.reg.slots j).state ≠ .free)
    (hc : ((e.step op).1.reg.slots j).cid = (e.reg.slots i).cid) : j = i := by
  by_cases hs : (e.reg.slots j).state = .free
  · rcases step_slot_of_free h op hs with heq | ⟨_, _, _, _, _, _, -, -, heq, -⟩
    · exact absurd (heq ▸ hs) hj
    · have := h.cid_le i hi
      rw [heq] at hc
      simp only [placedRec] at hc
      omega
  · rw [step_slot_of_live h op hs, (OrderRec.next_same _ _ _ _ _ op).cid] at hc
    exact h.slot_unique hs hi hc

/-- What holds of a new order and survives every operation holds of every order in a slot. -/
theorem step_live_inv {Q : OrderRec → Prop} (h : e.Inv) (op : Op)
    (hnew : ∀ mkt priceCents count buyYes ts depth,
      op = .place mkt priceCents count buyYes ts depth →
        Q (e.placedRec mkt priceCents count buyYes ts))
    (hnext : ∀ i (r : OrderRec), e.reg.slots i = r → r.state ≠ .free → Q r →
      Q (r.next e.sim.track e.speed (e.depthOf i) (i ∈ e.byMarket r.market) op))
    (hQ : ∀ i, (e.reg.slots i).state ≠ .free → Q (e.reg.slots i)) (i : Nat)
    (hi : ((e.step op).1.reg.slots i).state ≠ .free) : Q ((e.step op).1.reg.slots i) := by
  by_cases hs : (e.reg.slots i).state = .free
  · rcases step_slot_of_free h op hs with heq | ⟨_, _, _, _, _, _, hop, -, heq, -⟩
    · exact absurd (heq ▸ hs) hi
    · rw [heq]; exact hnew _ _ _ _ _ _ hop
  · rw [step_slot_of_live h op hs]
    exact hnext i _ rfl hs (hQ i hs)

/-! ### Reachable states -/

lemma history_engine (fees : FeeSchedule) (track : Track) (speed : SpeedParams) (horizonNs : Nat)
    (ops : List Op) :
    (history fees track speed horizonNs ops).engine =
      run (fun e op => (e.step op).1) (new fees track speed horizonNs) ops := by
  refine run_simulation (A := fun _ _ => True)
    (R := fun (h : History) e => h.engine = e) ?_ rfl (along_of_forall fun _ _ => trivial)
  rintro h e op rfl -
  rfl

theorem history_inv (fees : FeeSchedule) (track : Track) (speed : SpeedParams) (horizonNs : Nat)
    (ops : List Op) : (history fees track speed horizonNs ops).engine.Inv :=
  run_inv (P := fun h : History => h.engine.Inv) (A := fun _ _ => True)
    (fun _ op h _ => step_inv h op) (new_inv fees track speed horizonNs)
    (along_of_forall fun _ _ => trivial)

end ShadowEngine

/-- A placed order has a nonnegative count. -/
def Op.CountNonneg : Op → Prop
  | .place _ _ count _ _ _ => 0 ≤ count
  | _                      => True

/-- How the containers of the engine represent its orders. -/
structure ShadowEngine.Representation (e : ShadowEngine) : Prop where
  free_nodup    : e.reg.free.Nodup
  mem_free      : ∀ i, i ∈ e.reg.free ↔ i < e.reg.capacity ∧ (e.reg.slots i).state = .free
  pending_nodup : (e.pendingActivation.map Pending.idx).Nodup
  mem_pending   : ∀ i, i ∈ e.pendingActivation.map Pending.idx ↔
    i < e.reg.capacity ∧ (e.reg.slots i).state = .pendingNew
  open_nodup    : e.sim.open_.Nodup
  mem_open      : ∀ i, i ∈ e.sim.open_ ↔
    i < e.reg.capacity ∧ ((e.reg.slots i).state = .open ∨ (e.reg.slots i).state = .pendingCancel)
  byCid_iff     : ∀ c i, e.reg.byCid c = some i ↔
    i < e.reg.capacity ∧ (e.reg.slots i).state ≠ .free ∧ (e.reg.slots i).cid = c
  filled_bounds : ∀ i < e.reg.capacity, (e.reg.slots i).state ≠ .free →
    0 ≤ (e.reg.slots i).filled ∧ (e.reg.slots i).filled ≤ (e.reg.slots i).count
  legal         : e.reg.illegalTransitions = 0

namespace ShadowEngine

/-- Fills stay between nothing and the whole order, in every slot in use. -/
def FilledBounds (e : ShadowEngine) : Prop :=
  ∀ i, (e.reg.slots i).state ≠ .free →
    0 ≤ (e.reg.slots i).filled ∧ (e.reg.slots i).filled ≤ (e.reg.slots i).count

lemma step_filledBounds {e : ShadowEngine} (h : e.Inv) {op : Op} (hop : op.CountNonneg)
    (hb : e.FilledBounds) : (e.step op).1.FilledBounds := by
  refine step_live_inv (Q := fun r => 0 ≤ r.filled ∧ r.filled ≤ r.count) h op ?_ ?_ hb
  · rintro mkt priceCents count buyYes ts depth rfl
    exact ⟨le_rfl, hop⟩
  · rintro i r - - hr
    rw [OrderRec.next_filled, (OrderRec.next_same _ _ r _ _ op).count]
    have hpos := OrderRec.gained_nonneg e.sim.track (e.depthOf i) r op
    have hle := OrderRec.gained_le_remaining e.sim.track (e.depthOf i) r op
      (by unfold OrderRec.remaining; omega)
    unfold OrderRec.remaining at hle
    omega

lemma history_filledBounds (fees : FeeSchedule) (track : Track) (speed : SpeedParams)
    (horizonNs : Nat) {ops : List Op} (hops : ∀ op ∈ ops, op.CountNonneg) :
    (history fees track speed horizonNs ops).engine.FilledBounds := by
  rw [history_engine]
  refine (run_inv (P := fun e : ShadowEngine => e.Inv ∧ e.FilledBounds)
    (A := fun _ op => op.CountNonneg) ?_ ⟨new_inv fees track speed horizonNs, ?_⟩
    (along_of_forall hops)).2
  · rintro e op ⟨h, hb⟩ hop
    exact ⟨step_inv h op, step_filledBounds h hop hb⟩
  · intro i hi
    exact absurd rfl hi

/-- The representation invariant of the engine, in every state that a schedule of operations
reaches. -/
theorem history_representation (fees : FeeSchedule) (track : Track) (speed : SpeedParams)
    (horizonNs : Nat) (ops : List Op) (hops : ∀ op ∈ ops, op.CountNonneg) :
    (history fees track speed horizonNs ops).engine.Representation := by
  have hinv := history_inv fees track speed horizonNs ops
  have hbounds := history_filledBounds fees track speed horizonNs hops
  have hc := hinv.consistent
  exact {
    free_nodup := hc.wf.free_nodup
    mem_free := hc.wf.mem_free
    pending_nodup := hc.pending_nodup
    mem_pending := hc.mem_pending
    open_nodup := hc.open_nodup
    mem_open := fun i => by simpa [OrdState.isResting] using hc.mem_open i
    byCid_iff := hc.wf.byCid_iff
    filled_bounds := fun i _ => hbounds i
    legal := hc.legal }

theorem history_representation_requote :
    (∀ op ∈ [Op.place 0 40 10 true 1 5, .cancel 1 2, .place 0 41 10 true 2 5,
        .trade ⟨0, 40, 3, false, 20000000⟩], op.CountNonneg) ∧
      (history ⟨[]⟩ .optimistic {} 60000000000
        [.place 0 40 10 true 1 5, .cancel 1 2, .place 0 41 10 true 2 5,
          .trade ⟨0, 40, 3, false, 20000000⟩]).engine.Representation :=
  have hops : ∀ op ∈ [Op.place 0 40 10 true 1 5, .cancel 1 2, .place 0 41 10 true 2 5,
      .trade ⟨0, 40, 3, false, 20000000⟩], op.CountNonneg := by
    simp [Op.CountNonneg]
  ⟨hops, history_representation _ _ _ _ _ hops⟩

end ShadowEngine

end HftBot
