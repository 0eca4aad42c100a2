import HftBot.Shadow.Log
import HftBot.Shadow.Timing

/-!
# Fills on the queue track

What an order on the queue track should have filled is a function of the tape: the volume that
crossed it inside its window, less the depth that was displayed ahead of it, up to its count.
`Window` reads that volume off the operations that follow the placement. The simulator drains the
queue by prints at the level only; a print through the level neither drains the queue nor fills
behind it. `QueueReady` asks each operation to stay clear of that, and `queue_fill_law` says that
the fills then follow the tape.
-/

namespace HftBot

open HftBot.Core Function

namespace Quote

/-- The operation that places the order. -/
def place (q : Quote) : Op :=
  .place q.mkt q.priceCents q.count q.buyYes q.ts q.displayedAtLevel

/-- The print is at or through the price of the order, the taker on the other side. -/
def crossedBy (q : Quote) (p : Print) : Bool :=
  if q.buyYes then !p.takerYes && p.price ≤ q.priceCents else p.takerYes && q.priceCents ≤ p.price

/-- Contracts that a volume of crossing prints owes the order: the displayed depth comes first. -/
def fillLaw (q : Quote) (volume : Int) : Int :=
  min q.count (max 0 (volume - q.displayedAtLevel))

end Quote

/-- What the tape has shown of an order since its placement. -/
structure Window where
  /-- sizes of the prints that crossed the order inside its window -/
  volume    : Int := 0
  /-- the time at which its first cancel takes effect -/
  cancelEff : Option Nat := none
  settled   : Bool := false
  /-- the tape has reached the activation of the order -/
  active    : Bool := false
  clock     : Nat := 0
deriving DecidableEq, Repr

namespace Window

variable (speed : SpeedParams) (q : Quote) (cid : Nat)

/-- The print crosses the order inside its window: from activation until its cancel is effective
or its market settles. -/
def Admits (w : Window) (p : Print) : Prop :=
  p.market = q.mkt ∧ q.ts + speed.placeLatencyNs ≤ p.tsNs ∧ q.crossedBy p = true ∧
    w.settled = false ∧ ∀ t ∈ w.cancelEff, p.tsNs < t

instance (w : Window) (p : Print) : Decidable (w.Admits speed q p) :=
  inferInstanceAs (Decidable (_ ∧ _))

/-- The tape moves to `now`. -/
def tick (w : Window) (now : Nat) : Window :=
  { w with
    active := w.active || decide (q.ts + speed.placeLatencyNs ≤ now)
    clock := max w.clock now }

@[simp] lemma tick_volume (w : Window) (now : Nat) : (w.tick speed q now).volume = w.volume := rfl

@[simp] lemma tick_cancelEff (w : Window) (now : Nat) :
    (w.tick speed q now).cancelEff = w.cancelEff := rfl

@[simp] lemma tick_settled (w : Window) (now : Nat) :
    (w.tick speed q now).settled = w.settled := rfl

variable {speed q} in
lemma tick_active (w : Window) {now : Nat} (h : q.ts + speed.placeLatencyNs ≤ now) :
    (w.tick speed q now).active = true := by
  simp [tick, h]

def step (w : Window) : Op → Window
  | .cancel c ts     =>
    if c = cid ∧ w.cancelEff = none then { w with cancelEff := some (ts + speed.cancelLatencyNs) }
    else w
  | .trade p         =>
    { w.tick speed q p.tsNs with
      volume := if w.Admits speed q p then w.volume + p.size else w.volume }
  | .settle mkt _ ts => { w.tick speed q ts with settled := w.settled || decide (mkt = q.mkt) }
  | .advance now     => w.tick speed q now
  | _                => w

variable {speed q cid} in
lemma settled_of_settles {w : Window} {op : Op} (h : op.Settles q.mkt) :
    (w.step speed q cid op).settled = true := by
  cases op with
  | settle mkt yesWins ts =>
    simp only [Op.Settles] at h
    simp [step, h]
  | _ => cases h

/-- Nothing that comes can be owed to the order any more. -/
def Closed (w : Window) : Prop :=
  w.settled = true ∨ (∃ t ∈ w.cancelEff, t ≤ w.clock) ∨ q.count ≤ w.volume - q.displayedAtLevel

end Window

/-- The condition on one operation. A print does not go back in time; one that crosses the order
in its window has a size, and if it is through the level then the queue ahead is gone. A cancel
has an effective time of its own, and does not move the end of an order that still waits. The
market does not settle while the order waits. -/
def QueueReady (speed : SpeedParams) (q : Quote) (cid : Nat) (w : Window) : Op → Prop
  | .trade p         =>
    w.clock ≤ p.tsNs ∧
      (w.Admits speed q p → 0 ≤ p.size ∧
        (p.price = q.priceCents ∨ p.size = 0 ∨ q.displayedAtLevel ≤ w.volume))
  | .cancel c ts     =>
    c = cid → 0 < ts + speed.cancelLatencyNs ∧ ts + speed.cancelLatencyNs < 2 ^ 64 ∧
      (w.cancelEff = none ∨ w.active = true ∨ w.cancelEff = some (ts + speed.cancelLatencyNs))
  | .settle mkt _ ts =>
    mkt = q.mkt → w.active = true ∨ q.ts + speed.placeLatencyNs ≤ ts
  | _                => True

instance QueueReady.decidable (speed : SpeedParams) (q : Quote) (cid : Nat) (w : Window) :
    ∀ op, Decidable (QueueReady speed q cid w op)
  | .trade _          => inferInstanceAs (Decidable (_ ∧ (_ → _)))
  | .cancel _ _       => inferInstanceAs (Decidable (_ → _))
  | .settle _ _ _     => inferInstanceAs (Decidable (_ → _))
  | .advance _        => inferInstanceAs (Decidable True)
  | .market _ _       => inferInstanceAs (Decidable True)
  | .place _ _ _ _ _ _ => inferInstanceAs (Decidable True)

/-- The order placed by `q` after `before`, and what the tape says of it `after` that: whatever
part of `after` has run, exactly the contracts it owes the order are filled. -/
def QueueFillLaw (fees : FeeSchedule) (speed : SpeedParams) (horizonNs : Nat) (before : List Op)
    (q : Quote) (after : List Op) : Prop :=
  let cid := (ShadowEngine.history fees .queue speed horizonNs before).engine.cidSeq + 1
  ∀ ops, ops <+: after →
    (ShadowEngine.history fees .queue speed horizonNs (before ++ q.place :: ops)).filledOf cid =
      q.fillLaw (run (Window.step speed q cid) {} ops).volume

/-! ### One order -/

namespace OrderRec

/-- The record agrees with the tape. The order waits and nothing has crossed it, or it rests
behind what is left of the displayed depth. -/
structure Queued (speed : SpeedParams) (q : Quote) (w : Window) (displayed : Int)
    (r : OrderRec) : Prop where
  placed    : r.PlacedAs speed q
  eff       : r.cancelEffNs = w.cancelEff.getD 0
  eff_pos   : ∀ t ∈ w.cancelEff, 0 < t
  unsettled : w.settled = false
  filled    : r.filled = q.fillLaw w.volume
  state     :
    (r.state = .pendingNew ∧ displayed = q.displayedAtLevel ∧ w.volume = 0 ∧ w.active = false) ∨
      (r.state = (if w.cancelEff = none then .open else .pendingCancel) ∧
        r.queueAhead = max 0 (q.displayedAtLevel - w.volume))

section

variable {speed : SpeedParams} {q : Quote} {w : Window} {displayed : Int} {r : OrderRec}

lemma Queued.activeTsNs (h : r.Queued speed q w displayed)
    (hact : q.ts + speed.placeLatencyNs < 2 ^ 64) :
    r.activeTsNs = q.ts + speed.placeLatencyNs := by
  rw [h.placed.activeTsNs, addNs, Nat.mod_eq_of_lt hact]

/-- An order rests once the tape has reached its activation. -/
lemma Queued.isResting_of_active (h : r.Queued speed q w displayed) (ha : w.active = true) :
    r.state.isResting = true := by
  rcases h.state with ⟨-, -, -, hwait⟩ | ⟨hs, -⟩
  · rw [ha] at hwait
    cases hwait
  · rw [hs]
    split_ifs <;> rfl

lemma Queued.isLive (h : r.Queued speed q w displayed) : r.state.isLive = true := by
  rcases h.state with ⟨hs, -⟩ | ⟨hs, -⟩
  · rw [hs]
    rfl
  · rw [hs]
    split_ifs <;> rfl

/-- The depth counts only while the order waits. -/
lemma Queued.congr_depth (h : r.Queued speed q w displayed) {displayed' : Int}
    (hd : r.state = .pendingNew → displayed' = displayed) : r.Queued speed q w displayed' := by
  refine ⟨h.placed, h.eff, h.eff_pos, h.unsettled, h.filled, ?_⟩
  rcases h.state with ⟨hs, hdepth, hwait⟩ | hs
  · exact .inl ⟨hs, (hd hs).trans hdepth, hwait⟩
  · exact .inr hs

/-- What the clock leaves alone keeps agreeing. -/
lemma Queued.tick (h : r.Queued speed q w displayed) {now : Nat}
    (hwait : r.state = .pendingNew → now < q.ts + speed.placeLatencyNs) :
    r.Queued speed q (w.tick speed q now) displayed := by
  refine ⟨h.placed, h.eff, h.eff_pos, h.unsettled, h.filled, ?_⟩
  rcases h.state with ⟨hs, hd, hv, ha⟩ | hs
  · have hlate := hwait hs
    exact .inl ⟨hs, hd, hv, by simp [Window.tick, ha, hlate]⟩
  · exact .inr hs

/-- The cancel of the order is set exactly if the tape shows one. -/
lemma Queued.eff_eq_zero_iff (h : r.Queued speed q w displayed) :
    r.cancelEffNs = 0 ↔ w.cancelEff = none := by
  rw [h.eff]
  cases heff : w.cancelEff with
  | none => simp
  | some t =>
    have hpos := h.eff_pos t heff
    simp
    omega

/-- From its activation on the order rests, until its cancel takes effect. -/
lemma Queued.clock_state (h : r.Queued speed q w displayed) (hdepth : 0 ≤ q.displayedAtLevel)
    (hact : q.ts + speed.placeLatencyNs < 2 ^ 64) {now : Nat}
    (hnow : r.state = .pendingNew → q.ts + speed.placeLatencyNs ≤ now) :
    (r.clock .queue now displayed).recycled.state =
      if w.cancelEff = none then .open
      else if r.cancelEffNs ≤ now then .free else .pendingCancel := by
  rw [clock_recycled_state, clockState]
  rcases h.state with ⟨hs, hd, -⟩ | ⟨hs, -⟩
  · have hle := hnow hs
    simp only [hs, hd, h.activeTsNs hact, if_pos hle, not_lt.mpr hdepth, and_false, if_false,
      h.eff_eq_zero_iff]
  · by_cases hc : w.cancelEff = none
    · simp [hs, hc]
    · simp [hs, hc]

/-- The order rests at `now` unless its cancel has taken effect by then. -/
lemma Queued.restsAt (h : r.Queued speed q w displayed) (hdepth : 0 ≤ q.displayedAtLevel)
    (hact : q.ts + speed.placeLatencyNs < 2 ^ 64) {now : Nat}
    (hnow : r.state = .pendingNew → q.ts + speed.placeLatencyNs ≤ now)
    (hc : w.cancelEff = none ∨ now < r.cancelEffNs) : r.RestsAt .queue displayed now := by
  by_contra hno
  have hres := not_resting_of_not_restsAt .queue displayed r hno
  rw [h.clock_state hdepth hact hnow] at hres
  rcases hc with hc | hc
  · simp [hc, OrdState.isResting] at hres
  · rw [if_neg (not_le.mpr hc)] at hres
    split_ifs at hres <;> simp [OrdState.isResting] at hres

/-- The queue ahead of an order that is in the book, from the tape. -/
lemma Queued.queueAt (h : r.Queued speed q w displayed) (hdepth : 0 ≤ q.displayedAtLevel) :
    r.queueAt .queue displayed = max 0 (q.displayedAtLevel - w.volume) := by
  rcases h.state with ⟨hs, hd, hv, -⟩ | ⟨hs, hq⟩
  · simp [OrderRec.queueAt, hs, hd, hv, hdepth]
  · have hne : r.state ≠ .pendingNew := by
      rw [hs]
      split_ifs <;> simp
    simp [OrderRec.queueAt, hne, hq]

/-- The clock keeps the record in agreement, or it ends the order because a cancel has taken
effect. -/
lemma Queued.clock (h : r.Queued speed q w displayed) (hdepth : 0 ≤ q.displayedAtLevel)
    (hact : q.ts + speed.placeLatencyNs < 2 ^ 64) (now : Nat) :
    (r.clock .queue now displayed).recycled.Queued speed q (w.tick speed q now) displayed ∨
      ((r.clock .queue now displayed).recycled.state.isLive = false ∧
        ∃ t ∈ w.cancelEff, t ≤ now) := by
  by_cases hlate : r.state = .pendingNew ∧ now < q.ts + speed.placeLatencyNs
  · left
    rw [clock_recycled_of_late .queue now displayed r hlate.1 (h.activeTsNs hact ▸ hlate.2)]
    exact h.tick fun _ => hlate.2
  · have hnow : r.state = .pendingNew → q.ts + speed.placeLatencyNs ≤ now := by
      intro hs
      exact not_lt.mp fun hlt => hlate ⟨hs, hlt⟩
    have hstate := h.clock_state hdepth hact hnow
    by_cases hc : w.cancelEff = none ∨ now < r.cancelEffNs
    · left
      have hrest := h.restsAt hdepth hact hnow hc
      obtain ⟨s, -, heq⟩ := clock_recycled_of_restsAt .queue displayed r hrest
      have hend : ¬ (w.cancelEff ≠ none ∧ r.cancelEffNs ≤ now) := by
        rintro ⟨hne, hle⟩
        exact hle.not_gt (hc.resolve_left hne)
      refine ⟨?_, ?_, h.eff_pos, h.unsettled, ?_, .inr ⟨?_, ?_⟩⟩
      · exact h.placed.same (clock_recycled_same _ _ _ _)
      · simpa using h.eff
      · simpa using h.filled
      · rw [hstate, Window.tick_cancelEff]
        split_ifs with hn hle
        · rfl
        · exact absurd ⟨hn, hle⟩ hend
        · rfl
      · rw [heq]
        exact h.queueAt hdepth
    · right
      rw [not_or, not_lt] at hc
      obtain ⟨t, ht⟩ := Option.ne_none_iff_exists'.mp hc.1
      refine ⟨?_, t, ht, ?_⟩
      · rw [hstate, if_neg hc.1, if_pos hc.2]
        rfl
      · have heff := h.eff
        rw [ht, Option.getD_some] at heff
        exact heff ▸ hc.2

lemma Queued.hits_iff (h : r.Queued speed q w displayed)
    (hact : q.ts + speed.placeLatencyNs < 2 ^ 64) (p : Print) :
    FillSim.hits p r = true ↔ w.Admits speed q p := by
  have hcross : FillSim.crosses r p.price p.takerYes = q.crossedBy p := by
    rw [FillSim.crosses, Quote.crossedBy, h.placed.buyYes, h.placed.priceCents]
  have hcancel : (r.cancelEffNs ≠ 0 → ¬ r.cancelEffNs ≤ p.tsNs) ↔
      ∀ t ∈ w.cancelEff, p.tsNs < t := by
    rw [Ne, h.eff_eq_zero_iff, h.eff]
    cases w.cancelEff <;> simp
  rw [FillSim.hits, Window.Admits, ← hcancel, hcross, h.placed.market, h.activeTsNs hact]
  simp only [Bool.and_eq_true, decide_eq_true_eq, Bool.not_eq_true', Bool.and_eq_false_iff,
    decide_eq_false_iff_not, h.unsettled, true_and, and_assoc, eq_comm (a := q.mkt), imp_iff_not_or]

lemma recycled_of_isResting (hs : r.state.isResting = true) : r.recycled = r := by
  rw [recycled, if_neg]
  rintro (hf | hf) <;> rw [hf] at hs <;> cases hs

/-- A print at the level, or one that finds no queue ahead, drains the queue and fills the order
with what is left. -/
lemma print_queue {p : Print} (hs : r.state ≠ .pendingNew) (hq : 0 ≤ r.queueAhead)
    (hsize : 0 ≤ p.size) (hhit : FillSim.hits p r = true)
    (hlevel : p.price = r.priceCents ∨ p.size = 0 ∨ r.queueAhead = 0) :
    (r.print .queue p).queueAhead = max 0 (r.queueAhead - p.size) ∧
      r.fillQty .queue p = max 0 (min r.remaining (p.size - r.queueAhead)) := by
  have hat : r.queueAt .queue 0 = r.queueAhead := by simp [OrderRec.queueAt, hs]
  have hreach : (r.print .queue p).queueAhead = (FillSim.reach .queue r p.price p.size).1 := by
    simp only [print, fill, hhit, if_true]
    split_ifs <;> rfl
  rw [hreach, fillQty_eq .queue 0 p r hs, if_pos hhit, passing, hat]
  constructor
  · simp only [FillSim.reach, FillSim.atLevelOnly, decide_eq_true_eq, true_and, reduceCtorEq,
      false_and, if_false]
    rcases hlevel with hp | hz | hz
    · rw [if_pos hp]
      split_ifs <;> omega
    · split_ifs <;> omega
    · split_ifs <;> omega
  · rcases hlevel with hp | hz | hz
    · rw [if_pos (.inl hp)]
    · split_ifs <;> omega
    · rw [if_pos (.inr hz)]

/-- A print that does not hit leaves an order in the book alone. -/
lemma print_recycled_of_not_hits {p : Print} (hs : r.state.isResting = true)
    (hhit : ¬ FillSim.hits p r = true) : (r.print .queue p).recycled = r := by
  have hprint : r.print .queue p = r := by simp [print, fillQty, hhit]
  rw [hprint]
  exact recycled_of_isResting hs

/-- The law grows by what the print leaves after the queue, up to what the order still wants. -/
lemma fillLaw_add (hcount : 0 ≤ q.count) {volume size : Int}
    (hsize : 0 ≤ size) :
    q.fillLaw (volume + size) = q.fillLaw volume +
      max 0 (min (q.count - q.fillLaw volume)
        (size - max 0 (q.displayedAtLevel - volume))) := by
  unfold Quote.fillLaw
  omega

/-- A print of the window on an order in the book. The record follows the volume, or the order is
filled. -/
lemma Queued.print (h : r.Queued speed q w displayed) (hcount : 0 ≤ q.count)
    (hs : r.state.isResting = true) {p : Print} (hhit : FillSim.hits p r = true)
    (hsize : 0 ≤ p.size)
    (hlevel : p.price = q.priceCents ∨ p.size = 0 ∨ q.displayedAtLevel ≤ w.volume) :
    (r.print .queue p).recycled.filled = q.fillLaw (w.volume + p.size) ∧
      ((r.print .queue p).recycled.Queued speed q { w with volume := w.volume + p.size } displayed ∨
        ((r.print .queue p).recycled.state.isLive = false ∧
          q.count ≤ w.volume + p.size - q.displayedAtLevel)) := by
  have hnew := OrdState.ne_pendingNew_of_isResting hs
  obtain ⟨hstate, hqueue⟩ := h.state.resolve_left fun hw => hnew hw.1
  have hlevel' : p.price = r.priceCents ∨ p.size = 0 ∨ r.queueAhead = 0 := by
    rw [h.placed.priceCents, hqueue]
    exact hlevel.imp_right (Or.imp_right fun hle => max_eq_left (by omega))
  obtain ⟨hprint, hqty⟩ := print_queue hnew (by omega) hsize hhit hlevel'
  have hfilled : (r.print .queue p).recycled.filled = q.fillLaw (w.volume + p.size) := by
    rw [recycled_filled, print_filled, hqty, remaining, h.placed.count, h.filled, hqueue,
      fillLaw_add hcount hsize]
  refine ⟨hfilled, ?_⟩
  by_cases hdone : 0 < r.fillQty .queue p ∧ r.remaining = r.fillQty .queue p
  · right
    constructor
    · rw [recycled_state, print_state, if_pos hdone]
      rfl
    · -- the last contract is filled, and only the volume beyond the queue fills
      have hall : (r.print .queue p).recycled.filled = q.count := by
        rw [recycled_filled, print_filled, ← hdone.2, remaining, h.placed.count]
        omega
      have hpos : 0 < q.fillLaw (w.volume + p.size) := by
        rw [← hfilled, recycled_filled, print_filled, h.filled]
        have : 0 ≤ q.fillLaw w.volume := le_min hcount (le_max_left _ _)
        omega
      rw [hfilled] at hall
      unfold Quote.fillLaw at hall hpos
      omega
  · left
    have hlast : (r.print .queue p).recycled = r.print .queue p := by
      apply recycled_of_isResting
      rw [print_state, if_neg hdone]
      exact hs
    rw [hlast] at hfilled ⊢
    refine ⟨h.placed.same (print_same _ _ _), ?_, h.eff_pos, h.unsettled, hfilled, .inr ⟨?_, ?_⟩⟩
    · rw [print_cancelEffNs]
      exact h.eff
    · rw [print_state, if_neg hdone]
      exact hstate
    · show _ = max 0 (q.displayedAtLevel - (w.volume + p.size))
      rw [hprint, hqueue]
      omega

/-- A cancel of the order, recorded or ignored as the tape says. -/
lemma Queued.cancel (h : r.Queued speed q w displayed) {c ts : Nat}
    (hready : QueueReady speed q r.cid w (.cancel c ts)) (listed : Prop) [Decidable listed] :
    (r.next .queue speed displayed listed (.cancel c ts)).Queued speed q
      (w.step speed q r.cid (.cancel c ts)) displayed := by
  by_cases hc : c = r.cid
  · subst hc
    obtain ⟨hpos, hlt, hmove⟩ := hready rfl
    have hadd : addNs ts speed.cancelLatencyNs = ts + speed.cancelLatencyNs :=
      Nat.mod_eq_of_lt hlt
    simp only [next, Window.step, true_and, hadd]
    cases heff : w.cancelEff with
    | none =>
      have hstate : r.state = .pendingNew ∨ r.state = .open :=
        h.state.imp And.left fun hs => by rw [hs.1, if_pos heff]
      rw [if_pos hstate, if_pos rfl]
      refine ⟨⟨h.placed.market, h.placed.priceCents, h.placed.count, h.placed.buyYes,
        h.placed.placeTsNs, h.placed.activeTsNs⟩, rfl, ?_, h.unsettled, h.filled, ?_⟩
      · intro t ht
        cases ht
        exact hpos
      · rcases h.state with ⟨hs, hwait⟩ | ⟨hs, hq⟩
        · exact .inl ⟨by simp [cancelReq, hs], hwait⟩
        · exact .inr ⟨by simp [cancelReq, hs, heff], hq⟩
    | some t =>
      rw [if_neg (by simp)]
      rcases h.state with ⟨hs, hwait⟩ | ⟨hs, hq⟩
      · -- the order still waits, so the cancel repeats the time that is set
        have hsame : r.cancelReq (ts + speed.cancelLatencyNs) = r := by
          have hset : w.cancelEff = some (ts + speed.cancelLatencyNs) := by
            rcases hmove with hm | hm | hm
            · rw [heff] at hm
              cases hm
            · rw [hwait.2.2] at hm
              cases hm
            · exact hm
          have hr := h.eff
          rw [hset, Option.getD_some] at hr
          rw [cancelReq, ← hr, if_neg (by simp [hs])]
        rw [if_pos (.inl hs), hsame]
        exact h
      · rw [if_neg (by simp [hs, heff])]
        exact h
  · simp only [next, Window.step, hc, Ne.symm hc, false_and, if_false]
    exact h

/-- A print of the tape. -/
lemma Queued.trade (h : r.Queued speed q w displayed) (hdepth : 0 ≤ q.displayedAtLevel)
    (hcount : 0 ≤ q.count) (hact : q.ts + speed.placeLatencyNs < 2 ^ 64) {p : Print}
    (hready : QueueReady speed q r.cid w (.trade p)) (listed : Prop) [Decidable listed] :
    let w' := w.step speed q r.cid (.trade p)
    let r' := r.next .queue speed displayed listed (.trade p)
    r'.filled = q.fillLaw w'.volume ∧
      (r'.Queued speed q w' displayed ∨ (r'.state.isLive = false ∧ w'.Closed q)) := by
  intro w' r'
  obtain ⟨hclock, hprint⟩ := hready
  -- a print outside the window only moves the clock
  have hout : ¬ w.Admits speed q p → w' = w.tick speed q p.tsNs := by
    intro hin
    simp only [w', Window.step, if_neg hin]
    rfl
  rcases h.clock hdepth hact p.tsNs with hq | ⟨hdead, t, ht, hle⟩
  · by_cases hin : w.Admits speed q p
    · have hs := hq.isResting_of_active (w.tick_active hin.2.1)
      have hr' : r' = ((r.clock .queue p.tsNs displayed).recycled.print .queue p).recycled :=
        if_pos hs
      have hw' : w' = { w.tick speed q p.tsNs with volume := w.volume + p.size } := by
        simp only [w', Window.step, if_pos hin]
      obtain ⟨hsize, hlevel⟩ := hprint hin
      rw [hr', hw']
      refine (hq.print hcount hs ((hq.hits_iff hact p).mpr hin) hsize hlevel).imp_right ?_
      exact Or.imp_right (And.imp_right fun hle => .inr (.inr hle))
    · have hr' : r' = (r.clock .queue p.tsNs displayed).recycled := by
        by_cases hs : (r.clock .queue p.tsNs displayed).recycled.state.isResting = true
        · have hmiss := fun hh => hin ((hq.hits_iff hact p).mp hh)
          rw [← print_recycled_of_not_hits hs hmiss]
          exact if_pos hs
        · exact if_neg hs
      rw [hr', hout hin]
      exact ⟨hq.filled, .inl hq⟩
  · have hr' : r' = (r.clock .queue p.tsNs displayed).recycled := by
      apply if_neg
      intro hs
      rw [OrdState.isLive_of_isResting hs] at hdead
      cases hdead
    rw [hr', hout fun hin => hle.not_gt (hin.2.2.2.2 t ht)]
    refine ⟨by simpa using h.filled, .inr ⟨hdead, .inr (.inl ⟨t, ht, ?_⟩)⟩⟩
    exact hle.trans (le_max_right _ _)

/-- A settlement of the order's market ends it; any other moves the clock. -/
lemma Queued.settle (h : r.Queued speed q w displayed) (hdepth : 0 ≤ q.displayedAtLevel)
    (hact : q.ts + speed.placeLatencyNs < 2 ^ 64) {mkt ts : Nat} {yesWins : Bool}
    (hready : QueueReady speed q r.cid w (.settle mkt yesWins ts)) {listed : Prop}
    [Decidable listed] (hlisted : listed) :
    let w' := w.step speed q r.cid (.settle mkt yesWins ts)
    let r' := r.next .queue speed displayed listed (.settle mkt yesWins ts)
    r'.Queued speed q w' displayed ∨ (r'.state.isLive = false ∧ w'.Closed q) := by
  intro w' r'
  have hmkt : (r.clock .queue ts displayed).recycled.market = q.mkt :=
    (clock_recycled_same _ _ _ _).market.trans h.placed.market
  rcases h.clock hdepth hact ts with hq | ⟨hdead, t, ht, hle⟩
  · by_cases hm : mkt = q.mkt
    · right
      have hs : (r.clock .queue ts displayed).recycled.state.isResting = true := by
        apply hq.isResting_of_active
        rcases hready hm with ha | hle
        · simp [Window.tick, ha]
        · exact w.tick_active hle
      have hr' : r' = { (r.clock .queue ts displayed).recycled with state := .free } :=
        if_pos ⟨hlisted, hmkt.trans hm.symm, hs⟩
      rw [hr']
      exact ⟨rfl, .inl (by simp [w', Window.step, hm])⟩
    · left
      have hr' : r' = (r.clock .queue ts displayed).recycled :=
        if_neg fun hc => hm (hc.2.1.symm.trans hmkt)
      have hw' : w' = w.tick speed q ts := by
        simp [w', Window.step, hm, Window.tick]
      rw [hr', hw']
      exact hq
  · right
    have hr' : r' = (r.clock .queue ts displayed).recycled := by
      apply if_neg
      rintro ⟨-, -, hs⟩
      rw [OrdState.isLive_of_isResting hs] at hdead
      cases hdead
    rw [hr']
    exact ⟨hdead, .inr (.inl ⟨t, ht, hle.trans (le_max_right _ _)⟩)⟩

/-- One operation on an order. -/
theorem Queued.next (h : r.Queued speed q w displayed) (hdepth : 0 ≤ q.displayedAtLevel)
    (hcount : 0 ≤ q.count) (hact : q.ts + speed.placeLatencyNs < 2 ^ 64) {op : Op}
    (hready : QueueReady speed q r.cid w op) {listed : Prop} [Decidable listed]
    (hlisted : listed) :
    let w' := w.step speed q r.cid op
    let r' := r.next .queue speed displayed listed op
    r'.filled = q.fillLaw w'.volume ∧
      (r'.Queued speed q w' displayed ∨ (r'.state.isLive = false ∧ w'.Closed q)) := by
  cases op with
  | market ticker family => exact ⟨h.filled, .inl h⟩
  | place mkt priceCents count buyYes ts depth => exact ⟨h.filled, .inl h⟩
  | cancel c ts =>
    have hc := h.cancel hready listed
    exact ⟨hc.filled, .inl hc⟩
  | trade p => exact h.trade hdepth hcount hact hready listed
  | settle mkt yesWins ts =>
    refine ⟨?_, h.settle hdepth hact hready hlisted⟩
    simp only [next_filled, gained, add_zero, h.filled]
    rfl
  | advance now =>
    refine ⟨?_, ?_⟩
    · simp only [next_filled, gained, add_zero, h.filled]
      rfl
    · refine (h.clock hdepth hact now).imp_right ?_
      rintro ⟨hdead, t, ht, hle⟩
      exact ⟨hdead, .inr (.inl ⟨t, ht, hle.trans (le_max_right _ _)⟩)⟩

end

end OrderRec

/-- A closed window stays closed and owes nothing more. -/
lemma Window.Closed.step {speed : SpeedParams} {q : Quote} {cid : Nat} {w : Window}
    (h : w.Closed q) (hcount : 0 ≤ q.count) {op : Op} (hready : QueueReady speed q cid w op) :
    (w.step speed q cid op).Closed q ∧
      q.fillLaw (w.step speed q cid op).volume = q.fillLaw w.volume := by
  have htick : ∀ now, (w.tick speed q now).Closed q := by
    intro now
    refine h.imp_right (Or.imp_left ?_)
    rintro ⟨t, ht, hle⟩
    exact ⟨t, ht, hle.trans (le_max_left _ _)⟩
  cases op with
  | market ticker family => exact ⟨h, rfl⟩
  | place mkt priceCents count buyYes ts depth => exact ⟨h, rfl⟩
  | cancel c ts =>
    simp only [Window.step]
    split_ifs with hc
    · refine ⟨h.imp_right (Or.imp_left ?_), rfl⟩
      rintro ⟨t, ht, -⟩
      rw [hc.2] at ht
      cases ht
    · exact ⟨h, rfl⟩
  | trade p =>
    obtain ⟨hclock, hprint⟩ := hready
    simp only [Window.step]
    split_ifs with hin
    · -- a print is admitted only if the order is filled
      have hfull : q.count ≤ w.volume - q.displayedAtLevel := by
        rcases h with hs | ⟨t, ht, hle⟩ | hf
        · rw [hin.2.2.2.1] at hs
          cases hs
        · exact absurd (hin.2.2.2.2 t ht) (hle.trans hclock).not_gt
        · exact hf
      have hsize := (hprint hin).1
      refine ⟨.inr (.inr ?_), ?_⟩
      · show q.count ≤ w.volume + p.size - q.displayedAtLevel
        omega
      · unfold Quote.fillLaw
        omega
    · exact ⟨htick p.tsNs, rfl⟩
  | settle mkt yesWins ts =>
    refine ⟨?_, rfl⟩
    rcases htick ts with hs | hrest
    · exact .inl (by simp only [Window.step, Bool.or_eq_true]; exact .inl hs)
    · exact .inr hrest
  | advance now => exact ⟨htick now, rfl⟩

/-! ### Whole schedules -/

namespace History

/-- The history follows the tape on the order `cid`: its fills are what it is owed, and it is in a
slot and on the list of its market, or its window is closed. -/
structure Follows (speed : SpeedParams) (q : Quote) (cid : Nat) (h : History) (w : Window) :
    Prop where
  tracked  : h.Tracked
  track_eq : h.engine.sim.track = .queue
  speed_eq : h.engine.speed = speed
  cid_le   : cid ≤ h.engine.cidSeq
  filled   : h.filledOf cid = q.fillLaw w.volume
  order    :
    (∃ i, (h.engine.reg.slots i).cid = cid ∧
        (h.engine.reg.slots i).Queued speed q w (h.engine.depthOf i) ∧
        i ∈ h.engine.byMarket q.mkt) ∨
      (¬ h.engine.IsLive cid ∧ w.Closed q)

variable {speed : SpeedParams} {q : Quote} {cid : Nat} {h : History} {w : Window}

/-- What an operation leaves to show. -/
lemma Follows.of_step (hf : Follows speed q cid h w) {op : Op} {w' : Window}
    (hfilled : (h.step op).filledOf cid = q.fillLaw w'.volume)
    (horder : (∃ i, ((h.step op).engine.reg.slots i).cid = cid ∧
        ((h.step op).engine.reg.slots i).Queued speed q w' ((h.step op).engine.depthOf i) ∧
        i ∈ (h.step op).engine.byMarket q.mkt) ∨
      (¬ (h.step op).engine.IsLive cid ∧ w'.Closed q)) :
    Follows speed q cid (h.step op) w' := by
  refine ⟨hf.tracked.step op, ?_, ?_, ?_, hfilled, horder⟩
  · exact (ShadowEngine.step_track _ _).trans hf.track_eq
  · exact (ShadowEngine.step_speed _ _).trans hf.speed_eq
  · simp only [History.step, ShadowEngine.step_cidSeq]
    exact hf.cid_le.trans (Nat.le_add_right _ _)

/-- One operation on the order in slot `i`. -/
lemma Follows.step_slot (hf : Follows speed q cid h w) (hdepth : 0 ≤ q.displayedAtLevel)
    (hcount : 0 ≤ q.count) (hact : q.ts + speed.placeLatencyNs < 2 ^ 64) {op : Op}
    (hready : QueueReady speed q cid w op) {i : Nat} (hc : (h.engine.reg.slots i).cid = cid)
    (hq : (h.engine.reg.slots i).Queued speed q w (h.engine.depthOf i))
    (hm : i ∈ h.engine.byMarket q.mkt) :
    Follows speed q cid (h.step op) (w.step speed q cid op) := by
  have hinv := hf.tracked.inv
  have hfree : (h.engine.reg.slots i).state ≠ .free := OrdState.ne_free_of_isLive hq.isLive
  have hslot := ShadowEngine.step_slot_of_live hinv op hfree
  have hsame := OrderRec.next_same h.engine.sim.track (h.engine.depthOf i)
    (h.engine.reg.slots i) h.engine.speed (i ∈ h.engine.byMarket (h.engine.reg.slots i).market) op
  have hlisted : i ∈ h.engine.byMarket (h.engine.reg.slots i).market := by
    rw [hq.placed.market]
    exact hm
  have hlog := hf.tracked.filledOf_step_eq op hfree
  rw [← hc] at hready
  obtain ⟨hfilled, hnext⟩ := hq.next hdepth hcount hact hready hlisted
  rw [← hslot] at hsame hlog
  rw [hf.track_eq, hf.speed_eq] at hslot
  rw [← hslot] at hfilled hnext
  rw [hc] at hfilled hnext hlog
  apply hf.of_step (hlog.trans hfilled)
  rcases hnext with hnext | ⟨hdead, hclosed⟩
  · left
    refine ⟨i, hsame.cid.trans hc, ?_, ?_⟩
    · apply hnext.congr_depth
      exact ShadowEngine.step_depthOf hinv op hfree
    · apply (ShadowEngine.mem_step_byMarket hinv op hfree q.mkt).mpr
      refine ⟨hm, fun hsettles => ?_⟩
      have hopen := hnext.unsettled
      rw [Window.settled_of_settles hsettles] at hopen
      cases hopen
  · right
    refine ⟨?_, hclosed⟩
    rintro ⟨j, hj, hlive⟩
    have hij := ShadowEngine.step_slot_unique hinv op hfree (OrdState.ne_free_of_isLive hlive)
      (hj.trans hc.symm)
    subst hij
    have hgone : ((h.step op).engine.reg.slots j).state.isLive = false := hdead
    rw [hgone] at hlive
    cases hlive

lemma Follows.step (hf : Follows speed q cid h w) (hdepth : 0 ≤ q.displayedAtLevel)
    (hcount : 0 ≤ q.count) (hact : q.ts + speed.placeLatencyNs < 2 ^ 64) {op : Op}
    (hready : QueueReady speed q cid w op) :
    Follows speed q cid (h.step op) (w.step speed q cid op) := by
  rcases hf.order with ⟨i, hc, hq, hm⟩ | ⟨hdead, hclosed⟩
  · exact hf.step_slot hdepth hcount hact hready hc hq hm
  · have hinv := hf.tracked.inv
    obtain ⟨hclosed', hlaw⟩ := hclosed.step hcount hready
    apply hf.of_step
    · rw [filledOf_step_of_not_isLive hinv op hdead, hf.filled, hlaw]
    · exact .inr ⟨ShadowEngine.step_not_isLive hinv op hf.cid_le hdead, hclosed'⟩

/-- The order right after its placement. -/
lemma Tracked.follows_place (ht : h.Tracked) (htrack : h.engine.sim.track = .queue)
    (hfree : h.engine.reg.free ≠ []) (hcount : 0 ≤ q.count) (hdepth : 0 ≤ q.displayedAtLevel) :
    Follows h.engine.speed q (h.engine.cidSeq + 1) (h.step q.place) {} := by
  have hinv := ht.inv
  obtain ⟨i, rest, hcons⟩ := List.exists_cons_of_ne_nil hfree
  obtain ⟨reg, heq, -, -, -, -, -, hslots⟩ := ShadowEngine.place_slot q.mkt q.priceCents q.count
    q.buyYes q.ts q.displayedAtLevel hinv hcons
  have hengine : (h.step q.place).engine =
      (h.engine.place q.mkt q.priceCents q.count q.buyYes q.ts q.displayedAtLevel).1 := rfl
  rw [heq] at hengine
  have hslot : (h.step q.place).engine.reg.slots i =
      h.engine.placedRec q.mkt q.priceCents q.count q.buyYes q.ts := by
    rw [hengine, hslots, update_self]
  have hpend : ⟨i, q.displayedAtLevel⟩ ∈ (h.step q.place).engine.pendingActivation := by
    simp [hengine]
  have hlaw : q.fillLaw 0 = 0 := by
    unfold Quote.fillLaw
    omega
  refine ⟨ht.step q.place, ?_, ?_, ?_, ?_, .inl ⟨i, ?_, ?_, ?_⟩⟩
  · exact (ShadowEngine.step_track _ _).trans htrack
  · exact ShadowEngine.step_speed _ _
  · rw [hengine]
  · rw [filledOf_step_of_not_trade q.place (by simp [Quote.place]),
      filledOf_eq_zero ht.log_le (Nat.lt_succ_self _)]
    exact hlaw.symm
  · rw [hslot]
    rfl
  · rw [hslot]
    refine ⟨⟨rfl, rfl, rfl, rfl, rfl, rfl⟩, rfl, fun _ ht => (by cases ht), rfl, hlaw.symm,
      .inl ⟨rfl, ?_, rfl, rfl⟩⟩
    exact ShadowEngine.depthOf_of_mem (ht.step q.place).inv hpend
  · simp [hengine]

end History

open ShadowEngine

/-- In every schedule in which the order finds a slot and each later operation meets its
condition, the fills of the order are what the tape owes it. -/
theorem queue_fill_law (fees : FeeSchedule) (speed : SpeedParams) (horizonNs : Nat)
    (before : List Op) (q : Quote) (after : List Op)
    (hfree : (history fees .queue speed horizonNs before).engine.reg.free ≠ [])
    (hdepth : 0 ≤ q.displayedAtLevel) (hcount : 0 ≤ q.count)
    (hact : q.ts + speed.placeLatencyNs < 2 ^ 64)
    (hready : Along
      (Window.step speed q ((history fees .queue speed horizonNs before).engine.cidSeq + 1))
      (QueueReady speed q ((history fees .queue speed horizonNs before).engine.cidSeq + 1))
      {} after) :
    QueueFillLaw fees speed horizonNs before q after := by
  rintro ops ⟨rest, rfl⟩
  have hplace := (history_tracked fees .queue speed horizonNs before).follows_place (q := q)
    (history_track fees .queue speed horizonNs before) hfree hcount hdepth
  rw [history_speed] at hplace
  have hsplit : before ++ q.place :: ops = (before ++ [q.place]) ++ ops := by simp
  rw [hsplit, history_append, history_append, run_cons, run_nil]
  have hops := (along_append.mp hready).1
  refine (run_simulation (R := fun w h => History.Follows speed q _ h w) ?_ hplace hops).filled
  intro w h op hf hr
  exact hf.step hdepth hcount hact hr

/-- Twelve contracts cross an order of ten behind five: four at the level, one lot of six at the
level, and two through it once the queue is gone. -/
theorem queue_fill_law_at_level :
    QueueFillLaw ⟨[]⟩ {} 60000000000 [] ⟨0, 40, 10, true, 1000000, 5⟩
      [.trade ⟨0, 40, 4, false, 9000000⟩, .trade ⟨0, 40, 6, false, 10000000⟩, .cancel 1 11000000,
        .trade ⟨0, 39, 2, false, 12000000⟩, .trade ⟨0, 40, 9, false, 30000000⟩] :=
  queue_fill_law _ _ _ _ _ _ (by decide +kernel) (by decide) (by decide) (by decide) (by decide)

/-- A print of ten through the level of an order of one behind five: the print drains nothing and
the order does not fill, though the tape owes it one. -/
theorem queue_fill_law_through :
    ¬ QueueFillLaw ⟨[]⟩ {} 60000000000 [] ⟨0, 40, 1, true, 1000000, 5⟩
      [.trade ⟨0, 39, 10, false, 9000000⟩] := by
  intro hlaw
  have hone := hlaw _ (List.prefix_refl _)
  revert hone
  decide +kernel

end HftBot
