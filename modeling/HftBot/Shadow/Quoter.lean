import HftBot.Core.Machine
import HftBot.Shadow.Inventory

/-!
# Simple quoter

The reference quoter of `engine.hpp` and the loop of `shadow_mm_replay.cpp` that drives it over a
tape. The quoter keeps one order to sell above the last print, and one to buy below it, and stops
at a cap on the net contracts of the market. `RoomyAlong` says of a run that the orders that may
still fill never exceed the cap, which the quoter does not check; `inventory_within_cap` says that
the net contracts then stay within the cap.
-/

namespace HftBot

open HftBot.Core Function

/-! ### The quoter -/

namespace SimpleQuoter

/-- One side of a quote: the order and its price, `0` and `-1` when there is none. -/
structure Standing where
  cid : Nat := 0
  px  : Int := -1
deriving DecidableEq, Repr

structure Quote where
  ask : Standing := {}
  bid : Standing := {}
deriving DecidableEq, Repr

/-- What one side of the quoter wants: the direction, the price, and the prices it may quote. -/
structure Side where
  buyYes : Bool
  px     : Int
  lo     : Int
  hi     : Int
deriving DecidableEq, Repr

end SimpleQuoter

structure SimpleQuoter where
  off     : Int
  size    : Int
  cap     : Int
  buySide : Bool
  state   : Nat → SimpleQuoter.Quote := fun _ => {}

/-- The cancel of a standing order, if there is one. -/
def ShadowEngine.withdraw (e : ShadowEngine) (cid ts : Nat) : ShadowEngine :=
  if cid ≠ 0 then e.cancel cid ts else e

namespace SimpleQuoter

def askSide (q : SimpleQuoter) (last : Int) : Side := ⟨false, last + q.off, 2, 99⟩

def bidSide (q : SimpleQuoter) (last : Int) : Side := ⟨true, last - q.off, 1, 98⟩

/-- The price has moved, and the quoter may quote the new one. -/
def Moves (side : Side) (s : Standing) : Prop :=
  s.px ≠ side.px ∧ side.lo ≤ side.px ∧ side.px ≤ side.hi

instance (side : Side) (s : Standing) : Decidable (Moves side s) :=
  inferInstanceAs (Decidable (_ ∧ _ ∧ _))

/-- One side of `on_trade`. The net contracts are read after the cancel is sent; at the cap the
quote stays as it was recorded. -/
def requote (q : SimpleQuoter) (e : ShadowEngine) (mkt : Nat) (side : Side) (ts : Nat)
    (s : Standing) : ShadowEngine × Standing :=
  if Moves side s then
    let e := e.withdraw s.cid ts
    if e.ledger.net mkt side.buyYes < q.cap then
      let (e, cid) := e.place mkt side.px q.size side.buyYes ts (-1)
      (e, ⟨cid, side.px⟩)
    else (e, s)
  else (e, s)

def onTrade (q : SimpleQuoter) (e : ShadowEngine) (mkt : Nat) (last : Int) (ts : Nat) :
    SimpleQuoter × ShadowEngine :=
  let (e, ask) := q.requote e mkt (q.askSide last) ts (q.state mkt).ask
  let (e, bid) := if q.buySide then q.requote e mkt (q.bidSide last) ts (q.state mkt).bid
    else (e, (q.state mkt).bid)
  ({ q with state := update q.state mkt ⟨ask, bid⟩ }, e)

end SimpleQuoter

/-! ### The replay -/

structure TapeLine where
  isTrade : Bool := false
  tk      : List Char
  fam     : List Char := []
  ts      : Int := 0
  p       : Int := 0
  c       : Int := 0
  y       : Int := 0
  yes     : Int := 0
deriving DecidableEq, Repr

/-- A call into the engine or the quoter. -/
inductive Call
  | print (tk fam : List Char) (price size : Int) (takerYes : Bool) (ts : Nat)
  | quote (tk fam : List Char) (last : Int) (ts : Nat)
  | settle (tk fam : List Char) (yesWins : Bool) (ts : Nat)
deriving DecidableEq, Repr

def Call.ts : Call → Nat
  | .print _ _ _ _ _ ts => ts
  | .quote _ _ _ ts     => ts
  | .settle _ _ _ ts    => ts

/-- The calls that a line of the tape makes: a trade is printed and then quoted on. -/
def TapeLine.calls (t : TapeLine) : List Call :=
  let fam := if t.fam = [] then ['?'] else t.fam
  if t.isTrade then
    [.print t.tk fam (toInt32 t.p) (toInt32 t.c) (t.y ≠ 0) (toUInt64 t.ts),
      .quote t.tk fam (toInt32 t.p) (toUInt64 t.ts)]
  else [.settle t.tk fam (t.yes ≠ 0) (toUInt64 t.ts)]

structure TapeReplay where
  eng    : ShadowEngine
  quoter : SimpleQuoter
  mkts   : List Char → Option Nat := fun _ => none

namespace TapeReplay

/-- The market of a ticker, registered with the engine when the tape first names it. -/
def marketOf (r : TapeReplay) (tk fam : List Char) : TapeReplay × Nat :=
  match r.mkts tk with
  | some m => (r, m)
  | none   =>
    let (eng, m) := r.eng.market tk fam
    ({ r with eng, mkts := update r.mkts tk (some m) }, m)

def step (r : TapeReplay) : Call → TapeReplay
  | .print tk fam price size takerYes ts =>
    let (r, m) := r.marketOf tk fam
    { r with eng := (r.eng.onTrade ⟨m, price, size, takerYes, ts⟩).1 }
  | .quote tk fam last ts                =>
    let (r, m) := r.marketOf tk fam
    let (quoter, eng) := r.quoter.onTrade r.eng m last ts
    { r with quoter, eng }
  | .settle tk fam yesWins ts            =>
    let (r, m) := r.marketOf tk fam
    { r with eng := r.eng.onSettle m yesWins ts }

/-- In every market the net contracts, bought or sold, are at most the cap of the quoter. -/
def WithinCap (r : TapeReplay) : Prop :=
  ∀ b ∈ r.eng.ledger.books, |b.sold - b.bought| ≤ r.quoter.cap

instance (r : TapeReplay) : Decidable r.WithinCap :=
  inferInstanceAs (Decidable (∀ b ∈ r.eng.ledger.books, _))

end TapeReplay

/-- The replay of a tape before its first line. -/
def SimpleQuoter.replay (q : SimpleQuoter) (fees : FeeSchedule) (track : Track)
    (speed : SpeedParams) (horizonNs : Nat) : TapeReplay where
  eng := .new fees track speed horizonNs
  quoter := q

/-! ### Room for a quote -/

/-- An order that this side of the quoter places fits under the cap together with all orders of its
market and direction that may still fill at the times `later`. Of the Queue track no order of the
quoter is part, since the quoter gives no depth. -/
def SimpleQuoter.HasRoom (q : SimpleQuoter) (e : ShadowEngine) (later : List Nat) (mkt : Nat)
    (side : Side) (ts : Nat) (s : Standing) : Prop :=
  Moves side s → (e.withdraw s.cid ts).ledger.net mkt side.buyYes < q.cap →
    e.sim.track = .queue ∨ (e.withdraw s.cid ts).committed later mkt side.buyYes + q.size ≤ q.cap

def SimpleQuoter.Roomy (q : SimpleQuoter) (e : ShadowEngine) (later : List Nat) (mkt : Nat)
    (last : Int) (ts : Nat) : Prop :=
  q.HasRoom e later mkt (q.askSide last) ts (q.state mkt).ask ∧
    (q.buySide → q.HasRoom (q.requote e mkt (q.askSide last) ts (q.state mkt).ask).1 later mkt
      (q.bidSide last) ts (q.state mkt).bid)

namespace TapeReplay

/-- The quotes of a call have room, given the times of the calls that follow. -/
def Roomy (r : TapeReplay) (later : List Nat) : Call → Prop
  | .quote tk fam last ts =>
    (r.marketOf tk fam).1.quoter.Roomy (r.marketOf tk fam).1.eng later (r.marketOf tk fam).2 last ts
  | _                     => True

/-- Every order that the quoter places in a run has room. -/
def RoomyAlong : TapeReplay → List Call → Prop
  | _, []      => True
  | r, c :: cs => r.Roomy (cs.map Call.ts) c ∧ (r.step c).RoomyAlong cs

end TapeReplay

/-! ### Committed contracts -/

/-- No market and direction has more contracts committed than `cap`. -/
structure ShadowEngine.Within (cap : Int) (later : List Nat) (e : ShadowEngine) : Prop where
  inv       : e.Inv
  bounds    : e.FilledBounds
  committed : ∀ m buyYes, e.committed later m buyYes ≤ cap

namespace ShadowEngine

variable {cap : Int} {later : List Nat} {e : ShadowEngine}

lemma new_within (hcap : 0 ≤ cap) (fees : FeeSchedule) (track : Track) (speed : SpeedParams)
    (horizonNs : Nat) (later : List Nat) :
    (new fees track speed horizonNs).Within cap later where
  inv := new_inv fees track speed horizonNs
  bounds i hi := absurd rfl hi
  committed m buyYes := by
    have hopen : (new fees track speed horizonNs).openFor later m buyYes = 0 :=
      Finset.sum_eq_zero fun i _ => openAt_of_free m buyYes rfl later
    have hnet : (new fees track speed horizonNs).ledger.net m buyYes = 0 := rfl
    rw [ShadowEngine.committed, hopen, hnet]
    exact hcap

lemma Within.mono (h : e.Within cap later) {later' : List Nat} (hsub : later' ⊆ later) :
    e.Within cap later' where
  inv := h.inv
  bounds := h.bounds
  committed m buyYes := (h.bounds.committed_mono m buyYes hsub).trans (h.committed m buyYes)

/-- Every operation but a placement keeps the committed contracts within the cap. -/
lemma Within.step (h : e.Within cap later) (op : Op) (hop : op.quote? = none)
    (htimes : ∀ p, op = .trade p → p.tsNs ∈ later) : (e.step op).1.Within cap later where
  inv := step_inv h.inv op
  bounds := by
    refine step_filledBounds h.inv ?_ h.bounds
    cases op with
    | place => cases hop
    | _ => trivial
  committed m buyYes :=
    (step_committed_le m buyYes h.inv h.bounds hop htimes).trans (h.committed m buyYes)

/-- A placement does so when the order has room. -/
lemma Within.place (h : e.Within cap later) (mkt : Nat) (priceCents : Int) {count : Int}
    (side : Bool) (ts : Nat) (hcount : 0 ≤ count)
    (hroom : e.sim.track = .queue ∨ e.committed later mkt side + count ≤ cap) :
    (e.place mkt priceCents count side ts (-1)).1.Within cap later where
  inv := step_inv h.inv (.place mkt priceCents count side ts (-1))
  bounds := by
    have hop : (Op.place mkt priceCents count side ts (-1)).CountNonneg := hcount
    exact step_filledBounds h.inv hop h.bounds
  committed m buyYes := by
    have hle := place_committed_le m buyYes mkt priceCents side ts (-1) h.inv h.bounds hcount later
    refine hle.trans ?_
    rw [opensFor]
    split_ifs with hside
    · obtain ⟨rfl, rfl, htrack⟩ := hside
      exact hroom.resolve_left fun hqueue => htrack ⟨hqueue, by decide⟩
    · rw [Int.add_zero]
      exact h.committed m buyYes

lemma Within.withdraw (h : e.Within cap later) (cid ts : Nat) :
    (e.withdraw cid ts).Within cap later := by
  rw [ShadowEngine.withdraw]
  split_ifs
  · exact h.step (.cancel cid ts) rfl (by rintro p ⟨⟩)
  · exact h

@[simp] lemma withdraw_track (e : ShadowEngine) (cid ts : Nat) :
    (e.withdraw cid ts).sim.track = e.sim.track := by
  rw [withdraw]
  split_ifs
  · exact step_track e (.cancel cid ts)
  · rfl

end ShadowEngine

namespace SimpleQuoter

variable {q : SimpleQuoter} {e : ShadowEngine} {later : List Nat}

/-- A quote has room while the committed contracts leave room for one more order. -/
lemma hasRoom_of_within (h : e.Within (q.cap - q.size) later) {mkt : Nat} {side : Side} {ts : Nat}
    {s : Standing} : q.HasRoom e later mkt side ts s := by
  intro _ _
  have hcommitted := (h.withdraw s.cid ts).committed mkt side.buyYes
  right
  omega

lemma requote_within (hsize : 0 < q.size) {mkt : Nat} {side : Side} {ts : Nat} {s : Standing}
    (h : e.Within q.cap later) (hroom : q.HasRoom e later mkt side ts s) :
    (q.requote e mkt side ts s).1.Within q.cap later := by
  have hcanceled := h.withdraw s.cid ts
  simp only [requote]
  split_ifs with hmoves hnet
  · refine hcanceled.place mkt side.px side.buyYes ts hsize.le ?_
    rw [ShadowEngine.withdraw_track]
    exact hroom hmoves hnet
  · exact hcanceled
  · exact h

lemma onTrade_within (hsize : 0 < q.size) {mkt : Nat} {last : Int} {ts : Nat}
    (h : e.Within q.cap later) (hroom : q.Roomy e later mkt last ts) :
    (q.onTrade e mkt last ts).2.Within q.cap later := by
  have hask := requote_within hsize h hroom.1
  simp only [onTrade]
  split_ifs with hbuy
  · exact requote_within hsize hask (hroom.2 hbuy)
  · exact hask

end SimpleQuoter

namespace TapeReplay

variable {r : TapeReplay} {cap : Int} {later : List Nat}

lemma marketOf_within (h : r.eng.Within cap later) (tk fam : List Char) :
    (r.marketOf tk fam).1.eng.Within cap later := by
  rw [marketOf]
  split
  · exact h
  · exact h.step (.market tk fam) rfl (by rintro p ⟨⟩)

@[simp] lemma marketOf_quoter (r : TapeReplay) (tk fam : List Char) :
    (r.marketOf tk fam).1.quoter = r.quoter := by
  rw [marketOf]
  split <;> rfl

/-- The parameters of the quoter never change. -/
lemma step_quoter (r : TapeReplay) (c : Call) :
    (r.step c).quoter.cap = r.quoter.cap ∧ (r.step c).quoter.size = r.quoter.size := by
  cases c <;> simp [step, SimpleQuoter.onTrade]

/-- A print moves contracts from the open ones to the net ones. -/
lemma print_within (h : r.eng.Within cap later) (tk fam : List Char) (price size : Int)
    (takerYes : Bool) {ts : Nat} (hts : ts ∈ later) :
    (r.step (.print tk fam price size takerYes ts)).eng.Within cap later := by
  have hstep := (marketOf_within h tk fam).step
    (.trade ⟨(r.marketOf tk fam).2, price, size, takerYes, ts⟩) rfl (by rintro p ⟨⟩; exact hts)
  simpa only [step, ShadowEngine.step] using hstep

/-- One call keeps the committed contracts within the cap, for the calls that follow it. -/
lemma step_within (hsize : 0 < r.quoter.size) {c : Call}
    (h : r.eng.Within r.quoter.cap (c.ts :: later)) (hroom : r.Roomy later c) :
    (r.step c).eng.Within r.quoter.cap later := by
  have hsub : later ⊆ c.ts :: later := List.subset_cons_self _ _
  cases c with
  | print tk fam price size takerYes ts =>
    exact (print_within h tk fam price size takerYes List.mem_cons_self).mono hsub
  | quote tk fam last ts =>
    have hmarket := marketOf_within (h.mono hsub) tk fam
    rw [← marketOf_quoter r tk fam] at hsize hmarket ⊢
    exact SimpleQuoter.onTrade_within hsize hmarket hroom
  | settle tk fam yesWins ts =>
    have hmarket := marketOf_within h tk fam
    exact (hmarket.step (.settle _ yesWins ts) rfl (by rintro p ⟨⟩)).mono hsub

lemma withinCap_of_within (h : r.eng.Within r.quoter.cap later) : r.WithinCap := by
  intro b hb
  obtain ⟨m, hm⟩ := List.mem_iff_getElem?.1 hb
  have hbuy := (h.bounds.net_le_committed m true later).trans (h.committed m true)
  have hsell := (h.bounds.net_le_committed m false later).trans (h.committed m false)
  simp only [Ledger.net, hm, Option.elim_some, if_true, Bool.false_eq_true, if_false] at hbuy hsell
  exact abs_le'.2 ⟨hsell, by omega⟩

/-- The orders that may still fill are within the cap before every call, and so are the net
contracts. -/
theorem run_withinCap {calls done : List Call} (hsize : 0 < r.quoter.size)
    (h : r.eng.Within r.quoter.cap (calls.map Call.ts)) (hroomy : r.RoomyAlong calls)
    (hdone : done <+: calls) : (run step r done).WithinCap := by
  induction calls generalizing r done with
  | nil =>
    rw [List.prefix_nil.1 hdone]
    exact withinCap_of_within h
  | cons c calls ih =>
    cases done with
    | nil => exact withinCap_of_within h
    | cons c' done =>
      obtain ⟨rfl, hrest⟩ := List.cons_prefix_cons.1 hdone
      have hnext := step_within hsize h hroomy.1
      obtain ⟨hcap, hquoterSize⟩ := step_quoter r c'
      rw [← hcap] at hnext
      rw [← hquoterSize] at hsize
      rw [run_cons]
      exact ih hsize hnext hroomy.2 hrest

/-- The net contracts of every market stay within the cap of the quoter, in every state of a replay
whose quotes all have room. -/
theorem inventory_within_cap (fees : FeeSchedule) (track : Track) (speed : SpeedParams)
    (horizonNs : Nat) (off size cap : Int) (buySide : Bool) (hsize : 0 < size) (hcap : 0 ≤ cap)
    (tape : List TapeLine)
    (hroomy : RoomyAlong
      (SimpleQuoter.replay { off, size, cap, buySide } fees track speed horizonNs)
      (tape.flatMap TapeLine.calls))
    (done : List Call) (hdone : done <+: tape.flatMap TapeLine.calls) :
    (run step (SimpleQuoter.replay { off, size, cap, buySide } fees track speed horizonNs)
      done).WithinCap :=
  run_withinCap hsize (ShadowEngine.new_within hcap fees track speed horizonNs _) hroomy hdone

/-- A cap of one order: the order fills, and the quoter stops. -/
theorem inventory_within_cap_one_order :
    let tape : List TapeLine := [{ isTrade := true, tk := ['K'], ts := 1, p := 45, c := 1, y := 1 },
      { isTrade := true, tk := ['K'], ts := 20000000, p := 48, c := 10, y := 1 }]
    let start := SimpleQuoter.replay { off := 2, size := 5, cap := 5, buySide := false } ⟨[]⟩
      .strict {} 60000000000
    (run step start (tape.flatMap TapeLine.calls)).eng.ledger.net 0 false = 5 ∧
      (run step start (tape.flatMap TapeLine.calls)).WithinCap := by
  intro tape start
  refine ⟨by decide +kernel, ?_⟩
  refine inventory_within_cap _ _ _ _ 2 5 5 false (by decide) (by decide) tape ?_ _
    (List.prefix_refl _)
  refine ⟨trivial, ⟨?_, ?_⟩, trivial, ⟨?_, ?_⟩, trivial⟩
  · -- nothing is committed before the first quote
    refine SimpleQuoter.hasRoom_of_within ((marketOf_within (print_within
      (ShadowEngine.new_within ?_ _ _ _ _ ((tape.flatMap TapeLine.calls).map Call.ts))
      _ _ _ _ _ ?_) _ _).mono ?_)
    · decide +kernel
    · decide +kernel
    · exact List.map_subset _ (List.subset_append_right _ _)
  · exact fun hbuy => absurd hbuy (by decide +kernel)
  · exact fun _ hnet => absurd hnet (by decide +kernel)
  · exact fun hbuy => absurd hbuy (by decide +kernel)

/-- A cap of one contract: an order of five is placed below it and fills. -/
theorem inventory_within_cap_exceeded :
    let tape : List TapeLine := [{ isTrade := true, tk := ['K'], ts := 1, p := 45, c := 1, y := 1 },
      { isTrade := true, tk := ['K'], ts := 20000000, p := 48, c := 10, y := 1 }]
    ¬ (run step (SimpleQuoter.replay { off := 2, size := 5, cap := 1, buySide := false } ⟨[]⟩
      .strict {} 60000000000) (tape.flatMap TapeLine.calls)).WithinCap := by
  decide +kernel

end TapeReplay

end HftBot
