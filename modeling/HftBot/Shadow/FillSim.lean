import HftBot.Core.Sweep
import HftBot.Shadow.Registry

/-!
# Fill simulator

The three fill tracks of `fill_sim.hpp`. The simulator keeps the slots of the resting orders and
decides, for one taker print of the tape, which of them fill and by how much. It writes to the
registry through a reference, so its operations thread the registry.
-/

namespace HftBot

open HftBot.Core

inductive Track
  | strict | queue | optimistic
deriving DecidableEq, Repr

/-- Latencies from a decision to its effect at the venue, in nanoseconds. -/
structure SpeedParams where
  placeLatencyNs  : Nat := 7000000
  cancelLatencyNs : Nat := 7000000
deriving DecidableEq, Repr

structure Fill where
  orderIdx   : Nat
  market     : Nat
  /-- our resting price: a maker fills at its own level -/
  priceCents : Int
  qty        : Int
  buyYes     : Bool
  tsNs       : Nat
deriving DecidableEq, Repr

/-- A taker print of the tape: YES price, size, and whether the taker bought YES. -/
structure Print where
  market   : Nat
  price    : Int
  size     : Int
  takerYes : Bool
  tsNs     : Nat
deriving DecidableEq, Repr

structure FillSim where
  track                  : Track
  open_                  : List Nat := []
  ineligibleUnknownDepth : Nat := 0

namespace FillSim

/-- The print is at or through the order's price, with the taker on the other side. -/
def crosses (r : OrderRec) (q : Int) (takerYes : Bool) : Bool :=
  if r.buyYes then !takerYes && q ≤ r.priceCents else takerYes && r.priceCents ≤ q

def atLevelOnly (r : OrderRec) (q : Int) : Bool := q = r.priceCents

/-- Returns `false` when the order cannot take part in this track. -/
def activate (sim : FillSim) (reg : OrderRegistry) (idx : Nat) (displayedAtLevel : Int) :
    FillSim × OrderRegistry × Bool :=
  if sim.track = .queue ∧ displayedAtLevel < 0 then
    ({ sim with ineligibleUnknownDepth := sim.ineligibleUnknownDepth + 1 }, reg, false)
  else
    ({ sim with open_ := sim.open_ ++ [idx] },
      reg.setQueueAhead idx (if sim.track = .queue then displayedAtLevel else 0), true)

/-- Swap-removes the first occurrence. -/
def remove (sim : FillSim) (idx : Nat) : FillSim :=
  match sim.open_.findIdx? (· = idx) with
  | none   => sim
  | some i => { sim with open_ := swapRemove sim.open_ i }

/-- The queue ahead of the order and the contracts that reach it, once the print has drained
what stands before it. -/
def reach (track : Track) (r : OrderRec) (q size : Int) : Int × Int :=
  if track = .queue ∧ atLevelOnly r q then
    let drain := if size < r.queueAhead then size else r.queueAhead
    (r.queueAhead - drain, size - drain)
  else if track = .strict ∧ atLevelOnly r q then (r.queueAhead, 0)
  else (r.queueAhead, size)

/-- The print crosses the order inside its window: active, and no cancel in effect. -/
def hits (p : Print) (r : OrderRec) : Bool :=
  (r.market = p.market && decide (r.activeTsNs ≤ p.tsNs) && crosses r p.price p.takerYes) &&
    !(r.cancelEffNs ≠ 0 && decide (r.cancelEffNs ≤ p.tsNs))

/-- The loop body of `on_trade` at one resting slot; `true` removes the slot from `open_`. -/
def visit (track : Track) (p : Print) (st : OrderRegistry × List Fill) (idx : Nat) :
    (OrderRegistry × List Fill) × Bool :=
  let (reg, out) := st
  let r := reg.slots idx
  if hits p r then
    let (queueAhead, available) := reach track r p.price p.size
    let reg := reg.setQueueAhead idx queueAhead
    if 0 < available ∧ (track ≠ .queue ∨ queueAhead = 0) then
      let qty := if available < r.remaining then available else r.remaining
      if 0 < qty then
        let reg := reg.applyFill idx qty
        ((reg, out ++ [⟨idx, p.market, r.priceCents, qty, r.buyYes, p.tsNs⟩]),
          decide ((reg.slots idx).remaining = 0))
      else ((reg, out), false)
    else ((reg, out), false)
  else (st, false)

/-- `on_trade`: the fills of one print, in the order in which they are emitted. -/
def onTrade (sim : FillSim) (reg : OrderRegistry) (p : Print) :
    FillSim × OrderRegistry × List Fill :=
  let (open_, reg, out) := sweep (visit sim.track p) sim.open_ (reg, [])
  ({ sim with open_ := open_ }, reg, out)

end FillSim

end HftBot
