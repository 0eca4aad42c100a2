import HftBot.Shadow.Accounting

/-!
# Inventory and open contracts

The net contracts of a market in a direction, and those that its live orders may still add. A fill
takes from the open contracts what it adds to the net ones, so that only a placement lets their sum
grow.
-/

namespace HftBot

open HftBot.Core Function

/-! ### Net contracts -/

/-- Contracts of the market that were bought and not sold, or sold and not bought. -/
def Ledger.net (l : Ledger) (m : Nat) (buyYes : Bool) : Int :=
  (l.books[m]?).elim 0 fun b => if buyYes then b.bought - b.sold else b.sold - b.bought

namespace Ledger

variable {l : Ledger}

/-- Books with the same contracts have the same net. -/
lemma net_modify (l : Ledger) {f : MarketBook → MarketBook}
    (hf : ∀ b, (f b).bought = b.bought ∧ (f b).sold = b.sold) (k m : Nat) (buyYes : Bool) :
    net { l with books := l.books.modify k f } m buyYes = l.net m buyYes := by
  simp only [net, List.getElem?_modify]
  cases l.books[m]? with
  | none => rfl
  | some b =>
    by_cases hk : k = m
    · simp [hk, hf b]
    · simp [hk]

lemma net_onTrade (l : Ledger) (mkt : Nat) (priceCents : Int) (tsNs m : Nat) (buyYes : Bool) :
    (l.onTrade mkt priceCents tsNs).net m buyYes = l.net m buyYes := by
  rw [onTrade, net, (evalMarkouts_spec _ _ _).1]
  exact net_modify l (f := fun b => { b with lastTradeCents := priceCents })
    (fun _ => ⟨rfl, rfl⟩) mkt m buyYes

lemma net_onSettle (l : Ledger) (mkt : Nat) (yesWins : Bool) (m : Nat) (buyYes : Bool) :
    (l.onSettle mkt yesWins).net m buyYes = l.net m buyYes :=
  net_modify l (f := fun b => { b with settled := true, settledYes := yesWins })
    (fun _ => ⟨rfl, rfl⟩) mkt m buyYes

/-- A new market has no contracts. -/
lemma net_marketIndex (l : Ledger) (ticker family : List Char) (m : Nat) (buyYes : Bool) :
    (l.marketIndex ticker family).1.net m buyYes = l.net m buyYes := by
  rw [marketIndex]
  split
  · rfl
  · rcases Nat.lt_trichotomy m l.books.length with hlt | rfl | hgt
    · simp only [net, List.getElem?_append_left hlt]
    · simp [net]
    · rw [net, net, List.getElem?_eq_none (by simp; omega), List.getElem?_eq_none (by omega)]

/-- A fill adds to the net contracts of its direction and takes from the other. -/
lemma net_onFill_le {f : Fill} (hf : 0 ≤ f.qty) (m : Nat) (buyYes : Bool) :
    (l.onFill f).net m buyYes ≤
      l.net m buyYes + if f.market = m ∧ f.buyYes = buyYes then f.qty else 0 := by
  simp only [net, onFill, List.getElem?_modify]
  cases l.books[m]? with
  | none =>
    simp only [Option.map_eq_map, Option.map_none, Option.elim_none]
    split_ifs <;> omega
  | some b =>
    by_cases hm : f.market = m
    · cases hbuy : f.buyYes <;> cases buyYes <;> simp [hm, hbuy] <;> omega
    · simp [hm]

lemma net_foldl_onFill_le {fills : List Fill} (hfills : ∀ f ∈ fills, 0 ≤ f.qty) (m : Nat)
    (buyYes : Bool) : (fills.foldl onFill l).net m buyYes ≤ l.net m buyYes +
      ((fills.filter fun f => f.market = m ∧ f.buyYes = buyYes).map (·.qty)).sum := by
  induction fills generalizing l with
  | nil => simp
  | cons f fills ih =>
    rw [List.forall_mem_cons] at hfills
    have hfirst := net_onFill_le (l := l) hfills.1 m buyYes
    have hrest := ih (l := l.onFill f) hfills.2
    rw [List.foldl_cons]
    by_cases hf : f.market = m ∧ f.buyYes = buyYes
    · rw [if_pos hf] at hfirst
      rw [List.filter_cons_of_pos (by simpa using hf), List.map_cons, List.sum_cons]
      omega
    · rw [if_neg hf] at hfirst
      rw [List.filter_cons_of_neg (by simpa using hf)]
      omega

end Ledger

/-! ### Open contracts -/

namespace OrderRec

variable {track : Track} {displayed : Int} {later : List Nat} {r : OrderRec}

/-- A print at one of the times `later` may still fill the order: it is eligible for the track, and
if it is dying, its cancel is not in effect at all of them. -/
def CanFill (track : Track) (displayed : Int) (later : List Nat) (r : OrderRec) : Prop :=
  r.state.isLive = true ∧ (r.state = .pendingNew → ¬ (track = .queue ∧ displayed < 0)) ∧
    (r.state = .pendingCancel → ∃ t ∈ later, t < r.cancelEffNs)

instance : Decidable (r.CanFill track displayed later) :=
  inferInstanceAs (Decidable (_ ∧ _ ∧ _))

/-- Fewer prints fill less. -/
lemma CanFill.mono {later' : List Nat} (hsub : later' ⊆ later)
    (h : r.CanFill track displayed later') : r.CanFill track displayed later := by
  refine ⟨h.1, h.2.1, fun hs => ?_⟩
  obtain ⟨t, ht, hlt⟩ := h.2.2 hs
  exact ⟨t, hsub ht, hlt⟩

lemma canFill_of_gained_pos {p : Print} (hp : p.tsNs ∈ later)
    (hpos : 0 < r.gained track displayed (.trade p)) : r.CanFill track displayed later := by
  refine ⟨isLive_of_gained_pos track displayed r hpos, ?_, ?_⟩
  all_goals
    intro hs
    simp only [gained, clock_recycled_state, clockState, hs] at hpos
  · intro hineligible
    simp only [hineligible] at hpos
    split_ifs at hpos <;> simp_all [OrdState.isResting]
  · refine ⟨p.tsNs, hp, ?_⟩
    by_contra hle
    rw [if_pos (Nat.not_lt.1 hle)] at hpos
    simp [OrdState.isResting] at hpos

variable (speed : SpeedParams) (listed : Prop) [Decidable listed] (op : Op)

/-- An order that waits without being eligible waits until it expires. -/
lemma next_of_ineligible (hs : r.state = .pendingNew) (hdisplayed : track = .queue ∧ displayed < 0)
    (hlive : (r.next track speed displayed listed op).state.isLive = true) :
    (r.next track speed displayed listed op).state = .pendingNew := by
  have hclock : ∀ now, (r.clock track now displayed).recycled.state = .expired ∨
      (r.clock track now displayed).recycled.state = .pendingNew := by
    intro now
    rw [clock_recycled_state, clockState, hs]
    split_ifs <;> simp
  cases op with
  | market ticker family => exact hs
  | place mkt priceCents count buyYes ts depth => exact hs
  | cancel cid ts =>
    simp only [next]
    split_ifs
    · simp [cancelReq, hs]
    · exact hs
  | trade p =>
    simp only [next] at hlive ⊢
    rcases hclock p.tsNs with h | h <;> simp_all [OrdState.isResting, OrdState.isLive]
  | settle mkt yesWins ts =>
    simp only [next] at hlive ⊢
    rcases hclock ts with h | h <;> simp_all [OrdState.isResting, OrdState.isLive]
  | advance now =>
    rcases hclock now with h | h <;> simp_all [next, OrdState.isLive]

/-- An order that is dying keeps dying at the same time. -/
lemma next_of_dying (hs : r.state = .pendingCancel)
    (hlive : (r.next track speed displayed listed op).state.isLive = true) :
    (r.next track speed displayed listed op).state = .pendingCancel ∧
      (r.next track speed displayed listed op).cancelEffNs = r.cancelEffNs := by
  have hclock : ∀ now, (r.clock track now displayed).recycled.state = .free ∨
      (r.clock track now displayed).recycled.state = .pendingCancel := by
    intro now
    rw [clock_recycled_state, clockState, hs]
    dsimp only
    split_ifs <;> simp
  cases op with
  | market ticker family => exact ⟨hs, rfl⟩
  | place mkt priceCents count buyYes ts depth => exact ⟨hs, rfl⟩
  | cancel cid ts => simp [next, hs]
  | trade p =>
    simp only [next] at hlive ⊢
    rcases hclock p.tsNs with h | h
    · simp [h, OrdState.isResting, OrdState.isLive] at hlive
    · rw [if_pos (by simp [h, OrdState.isResting])] at hlive ⊢
      refine ⟨?_, by simp⟩
      rw [recycled_state, print_state] at hlive ⊢
      split_ifs at hlive ⊢ <;> simp_all [OrdState.isLive]
  | settle mkt yesWins ts =>
    simp only [next] at hlive ⊢
    rcases hclock ts with h | h
    · simp [h, OrdState.isResting, OrdState.isLive] at hlive
    · split_ifs at hlive ⊢
      · cases hlive
      · exact ⟨h, by simp⟩
  | advance now =>
    simp only [next] at hlive ⊢
    rcases hclock now with h | h
    · simp [h, OrdState.isLive] at hlive
    · exact ⟨h, by simp⟩

/-- No operation makes an order fillable again. -/
lemma canFill_of_next {displayed' : Int}
    (hdisplayed : (r.next track speed displayed listed op).state = .pendingNew →
      displayed' = displayed)
    (h : (r.next track speed displayed listed op).CanFill track displayed' later) :
    r.CanFill track displayed later := by
  obtain ⟨hlive, heligible, hcancel⟩ := h
  refine ⟨next_isLive track displayed r speed listed op hlive, ?_, ?_⟩
  · intro hs hineligible
    have hnew := next_of_ineligible speed listed op hs hineligible hlive
    rw [hdisplayed hnew] at heligible
    exact heligible hnew hineligible
  · intro hs
    obtain ⟨hdying, heff⟩ := next_of_dying speed listed op hs hlive
    obtain ⟨t, ht, hlt⟩ := hcancel hdying
    exact ⟨t, ht, heff ▸ hlt⟩

end OrderRec

namespace ShadowEngine

variable {e : ShadowEngine} {later : List Nat}

/-- The order in slot `i` is one of the market and direction. -/
def For (e : ShadowEngine) (m : Nat) (buyYes : Bool) (i : Nat) : Prop :=
  (e.reg.slots i).market = m ∧ (e.reg.slots i).buyYes = buyYes

instance (m : Nat) (buyYes : Bool) (i : Nat) : Decidable (e.For m buyYes i) :=
  inferInstanceAs (Decidable (_ ∧ _))

/-- Contracts of the market and direction that prints at the times `later` may still fill on the
order in slot `i`. -/
def openAt (e : ShadowEngine) (later : List Nat) (m : Nat) (buyYes : Bool) (i : Nat) : Int :=
  if e.For m buyYes i ∧ (e.reg.slots i).CanFill e.sim.track (e.depthOf i) later then
    (e.reg.slots i).remaining
  else 0

/-- Contracts of the market and direction that prints at the times `later` may still fill. -/
def openFor (e : ShadowEngine) (later : List Nat) (m : Nat) (buyYes : Bool) : Int :=
  ∑ i ∈ Finset.range e.reg.capacity, e.openAt later m buyYes i

/-- Contracts of the market and direction that an operation fills on the order in slot `i`. -/
def gainedFor (e : ShadowEngine) (op : Op) (m : Nat) (buyYes : Bool) (i : Nat) : Int :=
  if e.For m buyYes i then e.gainedAt op i else 0

/-- What the net contracts come to if all that is open fills. -/
def committed (e : ShadowEngine) (later : List Nat) (m : Nat) (buyYes : Bool) : Int :=
  e.ledger.net m buyYes + e.openFor later m buyYes

variable (m : Nat) (buyYes : Bool)

lemma openAt_of_free {i : Nat} (hs : (e.reg.slots i).state = .free) (later : List Nat) :
    e.openAt later m buyYes i = 0 := by
  simp [openAt, OrderRec.CanFill, hs, OrdState.isLive]

lemma FilledBounds.openAt_nonneg (hb : e.FilledBounds) (later : List Nat) (i : Nat) :
    0 ≤ e.openAt later m buyYes i := by
  rw [openAt]
  split_ifs with hopen
  · exact hb.remaining_nonneg (OrdState.ne_free_of_isLive hopen.2.1)
  · exact le_rfl

lemma FilledBounds.openAt_mono (hb : e.FilledBounds) {later' : List Nat} (hsub : later' ⊆ later)
    (i : Nat) : e.openAt later' m buyYes i ≤ e.openAt later m buyYes i := by
  by_cases hopen : e.For m buyYes i ∧ (e.reg.slots i).CanFill e.sim.track (e.depthOf i) later'
  · rw [openAt, openAt, if_pos hopen, if_pos ⟨hopen.1, hopen.2.mono hsub⟩]
  · rw [openAt, if_neg hopen]
    exact hb.openAt_nonneg m buyYes later i

lemma FilledBounds.committed_mono (hb : e.FilledBounds) {later' : List Nat}
    (hsub : later' ⊆ later) : e.committed later' m buyYes ≤ e.committed later m buyYes :=
  Int.add_le_add_left (Finset.sum_le_sum fun i _ => hb.openAt_mono m buyYes hsub i) _

lemma FilledBounds.net_le_committed (hb : e.FilledBounds) (later : List Nat) :
    e.ledger.net m buyYes ≤ e.committed later m buyYes :=
  Int.le_add_of_nonneg_right
    (Finset.sum_nonneg fun i _ => hb.openAt_nonneg m buyYes later i)

/-- An operation takes from the open contracts of an order what it fills on it. -/
lemma step_openAt_of_live (h : e.Inv) (hb : e.FilledBounds) (op : Op)
    (htimes : ∀ p, op = .trade p → p.tsNs ∈ later) {i : Nat}
    (hs : (e.reg.slots i).state ≠ .free) :
    (e.step op).1.openAt later m buyYes i + e.gainedFor op m buyYes i ≤
      e.openAt later m buyYes i := by
  have hslot := step_slot_of_live h op hs
  have hsame : (e.reg.slots i).Same ((e.step op).1.reg.slots i) := by
    rw [hslot]
    exact OrderRec.next_same _ _ _ _ _ op
  have hfor : (e.step op).1.For m buyYes i ↔ e.For m buyYes i := by
    rw [For, For, hsame.market, hsame.buyYes]
  by_cases hm : e.For m buyYes i
  swap
  · simp [openAt, gainedFor, hfor, hm]
  simp only [openAt, gainedFor, hfor, hm, true_and, if_true]
  by_cases hopen : (e.reg.slots i).CanFill e.sim.track (e.depthOf i) later
  · have hle := OrderRec.gained_le_remaining e.sim.track (e.depthOf i) (e.reg.slots i) op
      (hb.remaining_nonneg hs)
    rw [if_pos hopen, step_remaining h op hs]
    split_ifs
    · rw [Int.sub_add_cancel]
    · rwa [Int.zero_add]
  · have hgained : e.gainedAt op i = 0 := by
      apply le_antisymm _ (gainedAt_nonneg e op i)
      by_contra hpos
      cases op with
      | trade p => exact hopen (OrderRec.canFill_of_gained_pos (htimes p rfl) (not_le.1 hpos))
      | _ => exact hpos le_rfl
    have hclosed : ¬ ((e.step op).1.reg.slots i).CanFill (e.step op).1.sim.track
        ((e.step op).1.depthOf i) later := by
      intro hopen'
      have hdepth := step_depthOf h op hs
      rw [step_track, hslot] at hopen'
      rw [hslot] at hdepth
      exact hopen (OrderRec.canFill_of_next _ _ op hdepth hopen')
    rw [if_neg hopen, if_neg hclosed, hgained, Int.zero_add]

/-- A placement fills nothing. -/
lemma gainedFor_place (e : ShadowEngine) (mkt : Nat) (priceCents count : Int) (side : Bool)
    (ts : Nat) (depth : Int) (i : Nat) :
    e.gainedFor (.place mkt priceCents count side ts depth) m buyYes i = 0 := ite_self _

/-- Contracts of a market and direction that a print fills. -/
lemma onTrade_fills_for (h : e.Inv) (p : Print) :
    (((e.onTrade p).2.filter fun f => f.market = m ∧ f.buyYes = buyYes).map (·.qty)).sum =
      ∑ i ∈ Finset.range e.reg.capacity, e.gainedFor (.trade p) m buyYes i := by
  have key := sum_filter_gainedAt e (.trade p) fun i => e.For m buyYes i
  simp only [decide_eq_true_eq] at key
  rw [(((onTrade_fills_perm h p).filter _).map _).sum_eq, List.filter_map, List.map_map]
  refine Eq.trans ?_ key
  congr 2
  apply List.filter_congr
  intro i hi
  have hpos := (List.mem_filter.1 hi).2
  simp only [decide_eq_true_eq] at hpos
  simp [For, OrderRec.fillEvent, OrderRec.market_of_gained_pos hpos]

/-- An operation adds to the net contracts at most what it fills. -/
lemma step_net_le (h : e.Inv) (op : Op) :
    (e.step op).1.ledger.net m buyYes ≤ e.ledger.net m buyYes +
      ∑ i ∈ Finset.range e.reg.capacity, e.gainedFor op m buyYes i := by
  rw [step_ledger]
  cases op with
  | place mkt priceCents count side ts depth =>
    simp only [gainedFor_place, Finset.sum_const_zero, Int.add_zero]
    split_ifs <;> exact le_rfl
  | trade p =>
    rw [← onTrade_fills_for m buyYes h, Ledger.net_onTrade]
    apply Ledger.net_foldl_onFill_le
    intro f hf
    obtain ⟨i, -, rfl⟩ := List.mem_map.1 ((onTrade_fills_perm h p).mem_iff.1 hf)
    exact gainedAt_nonneg e (.trade p) i
  | _ => simp [gainedFor, gainedAt, OrderRec.gained, Ledger.net_marketIndex, Ledger.net_onSettle]

/-- Only a placement commits further contracts. -/
lemma step_committed_le (h : e.Inv) (hb : e.FilledBounds) {op : Op} (hop : op.quote? = none)
    (htimes : ∀ p, op = .trade p → p.tsNs ∈ later) :
    (e.step op).1.committed later m buyYes ≤ e.committed later m buyYes := by
  have hopen : (e.step op).1.openFor later m buyYes +
      ∑ i ∈ Finset.range e.reg.capacity, e.gainedFor op m buyYes i ≤
        e.openFor later m buyYes := by
    rw [openFor, openFor, step_capacity, ← Finset.sum_add_distrib]
    refine Finset.sum_le_sum fun i _ => ?_
    by_cases hs : (e.reg.slots i).state = .free
    · rcases step_slot_of_free h op hs with heq | ⟨_, _, _, _, _, _, rfl, -⟩
      · rw [openAt_of_free m buyYes (heq ▸ hs), openAt_of_free m buyYes hs, gainedFor,
          gainedAt_of_free hs, ite_self, Int.zero_add]
      · cases hop
    · exact step_openAt_of_live m buyYes h hb op htimes hs
  have hnet := step_net_le m buyYes h op
  rw [committed, committed]
  omega

/-- Contracts of the market and direction that a new order opens. On the Queue track an order of
unknown depth opens none. -/
def opensFor (e : ShadowEngine) (mkt : Nat) (count : Int) (side : Bool) (depth : Int) (m : Nat)
    (buyYes : Bool) : Int :=
  if mkt = m ∧ side = buyYes ∧ ¬ (e.sim.track = .queue ∧ depth < 0) then count else 0

section

variable (mkt : Nat) (priceCents : Int) {count : Int} (side : Bool) (ts : Nat) (depth : Int)

lemma opensFor_nonneg (e : ShadowEngine) (hcount : 0 ≤ count) :
    0 ≤ e.opensFor mkt count side depth m buyYes := by
  rw [opensFor]
  split_ifs
  · exact hcount
  · exact le_rfl

/-- The slot of a new order has the contracts that the order opens. -/
lemma place_openAt_new (h : e.Inv) {idx : Nat} {rest : List Nat} (hfree : e.reg.free = idx :: rest)
    (later : List Nat) :
    (e.step (.place mkt priceCents count side ts depth)).1.openAt later m buyYes idx =
      e.opensFor mkt count side depth m buyYes := by
  obtain ⟨reg, heq, -, -, -, -, -, hslots⟩ :=
    place_slot mkt priceCents count side ts depth h hfree
  have hslot : (e.step (.place mkt priceCents count side ts depth)).1.reg.slots idx =
      e.placedRec mkt priceCents count side ts := by
    simp [step, heq, hslots]
  have hpending : (⟨idx, depth⟩ : Pending) ∈
      (e.step (.place mkt priceCents count side ts depth)).1.pendingActivation := by
    simp [step, heq]
  have hdepth := depthOf_of_mem (step_inv h _) hpending
  simp [openAt, opensFor, For, hslot, hdepth, OrderRec.CanFill, placedRec, OrderRec.remaining,
    OrdState.isLive, and_assoc]

/-- The other slots have what they had. -/
lemma place_openAt_old (h : e.Inv) (hb : e.FilledBounds) {idx : Nat} {rest : List Nat}
    (hfree : e.reg.free = idx :: rest) {i : Nat} (hi : i ≠ idx) (later : List Nat) :
    (e.step (.place mkt priceCents count side ts depth)).1.openAt later m buyYes i ≤
      e.openAt later m buyYes i := by
  by_cases hs : (e.reg.slots i).state = .free
  · obtain ⟨reg, heq, -, -, -, -, -, hslots⟩ :=
      place_slot mkt priceCents count side ts depth h hfree
    have hs' : ((e.step (.place mkt priceCents count side ts depth)).1.reg.slots i).state =
        .free := by
      simp [step, heq, hslots, hi, hs]
    rw [openAt_of_free m buyYes hs', openAt_of_free m buyYes hs]
  · have htimes : ∀ p, Op.place mkt priceCents count side ts depth = .trade p →
        p.tsNs ∈ later := by
      intro p hp
      cases hp
    have hle := step_openAt_of_live m buyYes h hb _ htimes hs
    rwa [gainedFor_place, Int.add_zero] at hle

/-- A placement commits the contracts that it opens. -/
lemma place_committed_le (h : e.Inv) (hb : e.FilledBounds) (hcount : 0 ≤ count)
    (later : List Nat) :
    (e.step (.place mkt priceCents count side ts depth)).1.committed later m buyYes ≤
      e.committed later m buyYes + e.opensFor mkt count side depth m buyYes := by
  cases hfree : e.reg.free with
  | nil =>
    rw [step, place_full mkt priceCents count side ts depth hfree]
    exact Int.le_add_of_nonneg_right (opensFor_nonneg m buyYes mkt side depth e hcount)
  | cons idx rest =>
    have hnet := step_net_le m buyYes h (.place mkt priceCents count side ts depth)
    simp only [gainedFor_place, Finset.sum_const_zero, Int.add_zero] at hnet
    have hidx : idx < e.reg.capacity := ((h.consistent.wf.mem_free idx).mp (by simp [hfree])).1
    have hslot : ∀ i ∈ Finset.range e.reg.capacity,
        (e.step (.place mkt priceCents count side ts depth)).1.openAt later m buyYes i ≤
          e.openAt later m buyYes i +
            if i = idx then e.opensFor mkt count side depth m buyYes else 0 := by
      intro i _
      split_ifs with hi
      · rw [hi, place_openAt_new m buyYes mkt priceCents side ts depth h hfree]
        exact Int.le_add_of_nonneg_left (hb.openAt_nonneg m buyYes later idx)
      · rw [Int.add_zero]
        exact place_openAt_old m buyYes mkt priceCents side ts depth h hb hfree hi later
    have hopen := Finset.sum_le_sum hslot
    simp only [Finset.sum_add_distrib, Finset.sum_ite_eq', Finset.mem_range, hidx, if_true] at hopen
    rw [committed, committed, openFor, openFor, step_capacity, Int.add_assoc]
    exact Int.add_le_add hnet hopen

end

end ShadowEngine

end HftBot
