import HftBot.Core.Run
import HftBot.Shadow.Ledger

/-!
# Shadow engine

The record-only engine of `engine.hpp`: registry, fill simulator and ledger behind five tape
operations. `History.step` runs one operation and also records, for every fill that the operation
emits, the client id of the order it filled; the engine itself forgets it when the slot is
recycled.
-/

namespace HftBot

open HftBot.Core Function

/-- An order inside its placement latency. -/
structure Pending where
  idx              : Nat
  displayedAtLevel : Int
deriving DecidableEq, Repr

structure ShadowEngine where
  reg               : OrderRegistry
  sim               : FillSim
  ledger            : Ledger
  speed             : SpeedParams
  cidSeq            : Nat := 0
  droppedFull       : Nat := 0
  ineligible        : Nat := 0
  pendingActivation : List Pending := []
  canceling         : List Nat := []
  byMarket          : Nat → List Nat := fun _ => []

namespace ShadowEngine

/-- The registry size of the engine. -/
def regSize : Nat := 8192

def new (fees : FeeSchedule) (track : Track) (speed : SpeedParams) (horizonNs : Nat) :
    ShadowEngine where
  reg := .new regSize
  sim := { track }
  ledger := { fees, horizonNs }
  speed := speed

def market (e : ShadowEngine) (ticker family : List Char) : ShadowEngine × Nat :=
  let (ledger, idx) := e.ledger.marketIndex ticker family
  ({ e with ledger }, idx)

/-- Returns the client id, or `0` when the registry is full. -/
def place (e : ShadowEngine) (mkt : Nat) (priceCents count : Int) (buyYes : Bool) (ts : Nat)
    (displayedAtLevel : Int) : ShadowEngine × Nat :=
  let cid := e.cidSeq + 1
  let (reg, idx) := e.reg.place cid mkt priceCents count buyYes ts
    (addNs ts e.speed.placeLatencyNs)
  match idx with
  | none     => ({ e with reg, cidSeq := cid, droppedFull := e.droppedFull + 1 }, 0)
  | some idx =>
    ({ e with
        reg
        cidSeq := cid
        ledger := e.ledger.onOrderPlaced mkt count
        pendingActivation := e.pendingActivation ++ [⟨idx, displayedAtLevel⟩]
        byMarket := update e.byMarket mkt (e.byMarket mkt ++ [idx]) }, cid)

/-- The cancel takes effect after the cancel latency; fills inside the window still land. -/
def cancel (e : ShadowEngine) (cid ts : Nat) : ShadowEngine :=
  match e.reg.lookup cid with
  | none     => e
  | some idx =>
    let r := e.reg.slots idx
    if r.state.isTerminal ∨ r.state = .pendingCancel then e
    else
      let reg := e.reg.setCancelEff idx (addNs ts e.speed.cancelLatencyNs)
      { e with
        reg := if r.state = .open then reg.transition idx .pendingCancel else reg
        canceling := e.canceling ++ [idx] }

/-- First loop body of `advance`: an order whose placement latency is over opens. -/
def activateVisit (now : Nat) (st : OrderRegistry × FillSim × Nat) (p : Pending) :
    (OrderRegistry × FillSim × Nat) × Bool :=
  let (reg, sim, ineligible) := st
  if (reg.slots p.idx).activeTsNs ≤ now then
    let reg := reg.transition p.idx .open
    let (sim, reg, eligible) := sim.activate reg p.idx p.displayedAtLevel
    if !eligible then ((reg.transition p.idx .expired, sim, ineligible + 1), true)
    -- a cancel raced the activation: the order opens and at once begins to die
    else if (reg.slots p.idx).cancelEffNs ≠ 0 then
      ((reg.transition p.idx .pendingCancel, sim, ineligible), true)
    else ((reg, sim, ineligible), true)
  else (st, false)

/-- Second loop body of `advance`: a cancel whose latency is over takes the order out. -/
def cancelVisit (now : Nat) (st : OrderRegistry × FillSim) (i : Nat) :
    (OrderRegistry × FillSim) × Bool :=
  let (reg, sim) := st
  let r := reg.slots i
  if r.state = .pendingCancel then
    if r.cancelEffNs ≤ now then (((reg.transition i .canceled).release i, sim.remove i), true)
    else (st, false)
  -- filled, expired or recycled before the cancel landed
  else (st, decide (r.state ≠ .pendingNew ∧ r.state ≠ .open))

/-- First half of `advance`. -/
def advanceActivations (e : ShadowEngine) (now : Nat) : ShadowEngine :=
  let (pendingActivation, reg, sim, ineligible) :=
    sweep (activateVisit now) e.pendingActivation (e.reg, e.sim, e.ineligible)
  { e with pendingActivation, reg, sim, ineligible }

/-- Second half of `advance`. -/
def advanceCancels (e : ShadowEngine) (now : Nat) : ShadowEngine :=
  let (canceling, reg, sim) := sweep (cancelVisit now) e.canceling (e.reg, e.sim)
  { e with canceling, reg, sim }

def advance (e : ShadowEngine) (now : Nat) : ShadowEngine :=
  (e.advanceActivations now).advanceCancels now

/-- The loop of `on_trade` over the emitted fills: book the fill, recycle a filled slot. -/
def bookFills (fills : List Fill) (reg : OrderRegistry) (ledger : Ledger) :
    OrderRegistry × Ledger :=
  fills.foldl (fun (reg, ledger) f =>
    (if (reg.slots f.orderIdx).state = .filled then reg.release f.orderIdx else reg,
      ledger.onFill f)) (reg, ledger)

/-- Returns the fills that the print produced. -/
def onTrade (e : ShadowEngine) (p : Print) : ShadowEngine × List Fill :=
  let e := e.advance p.tsNs
  let (sim, reg, fills) := e.sim.onTrade e.reg p
  let (reg, ledger) := bookFills fills reg e.ledger
  ({ e with reg, sim, ledger := ledger.onTrade p.market p.price p.tsNs }, fills)

/-- The loop body of `on_settle`; recycled slots are validated against market and state. -/
def settleVisit (mkt : Nat) (st : OrderRegistry × FillSim) (i : Nat) :
    OrderRegistry × FillSim :=
  let (reg, sim) := st
  let r := reg.slots i
  if r.market ≠ mkt then st
  else if r.state = .open ∨ r.state = .pendingCancel then
    ((reg.transition i (if r.state = .pendingCancel then .canceled else .expired)).release i,
      sim.remove i)
  else st

def onSettle (e : ShadowEngine) (mkt : Nat) (yesWins : Bool) (ts : Nat) : ShadowEngine :=
  let e := e.advance ts
  let (reg, sim) := (e.byMarket mkt).foldl (settleVisit mkt) (e.reg, e.sim)
  { e with
    reg, sim
    byMarket := update e.byMarket mkt []
    ledger := e.ledger.onSettle mkt yesWins }

end ShadowEngine

/-! ### Operations and histories -/

inductive Op
  | market (ticker family : List Char)
  | place (mkt : Nat) (priceCents count : Int) (buyYes : Bool) (ts : Nat) (displayedAtLevel : Int)
  | cancel (cid ts : Nat)
  | trade (p : Print)
  | settle (mkt : Nat) (yesWins : Bool) (ts : Nat)
  | advance (now : Nat)
deriving DecidableEq, Repr

/-- The tape time of an operation; registering a market has none. -/
def Op.ts? : Op → Option Nat
  | .market _ _          => none
  | .place _ _ _ _ ts _  => some ts
  | .cancel _ ts         => some ts
  | .trade p             => some p.tsNs
  | .settle _ _ ts       => some ts
  | .advance now         => some now

/-- One operation, with the fills it emits. -/
def ShadowEngine.step (e : ShadowEngine) : Op → ShadowEngine × List Fill
  | .market ticker family                        => ((e.market ticker family).1, [])
  | .place mkt priceCents count buyYes ts depth  =>
    ((e.place mkt priceCents count buyYes ts depth).1, [])
  | .cancel cid ts                               => (e.cancel cid ts, [])
  | .trade p                                     => e.onTrade p
  | .settle mkt yesWins ts                       => (e.onSettle mkt yesWins ts, [])
  | .advance now                                 => (e.advance now, [])

/-- A fill together with the client id of the order it filled. -/
structure FillEvent where
  cid  : Nat
  fill : Fill
deriving DecidableEq, Repr

/-- An engine and every fill it has emitted so far. -/
structure History where
  engine : ShadowEngine
  log    : List FillEvent := []

namespace History

/-- The fills of one operation. A slot keeps its client id until it is handed out again, so the
id is still there right after the operation. -/
def events (e : ShadowEngine) (op : Op) : List FillEvent :=
  (e.step op).2.map fun f => ⟨((e.step op).1.reg.slots f.orderIdx).cid, f⟩

def step (h : History) (op : Op) : History where
  engine := (h.engine.step op).1
  log := h.log ++ events h.engine op

/-- Contracts filled so far on the order `cid`. -/
def filledOf (h : History) (cid : Nat) : Int :=
  ((h.log.filter (·.cid = cid)).map (·.fill.qty)).sum

/-- Contracts filled so far. -/
def filledTotal (h : History) : Int :=
  (h.log.map (·.fill.qty)).sum

end History

/-- The history of a schedule on a fresh engine. -/
def ShadowEngine.history (fees : FeeSchedule) (track : Track) (speed : SpeedParams)
    (horizonNs : Nat) (ops : List Op) : History :=
  run History.step { engine := .new fees track speed horizonNs } ops

end HftBot
