import Mathlib.Algebra.BigOperators.Group.Finset.Basic
import Mathlib.Algebra.Order.Ring.Int
import Mathlib.Logic.Function.Basic
import Mathlib.Tactic.Ring

/-!
# Order registry

The slot store of the shadow market-making engine (`order_registry.hpp`): the order lifecycle
with its table of legal transitions, the exposure gauge, and the registry that hands out slots
from a free list and indexes them by client id.

Slot indices, market indices, client ids and nanosecond times are natural numbers, prices and
counts are integers. A fixed-size array is a function of its index. The optional audit callback
of the registry, which the engine does not install, is left out.
-/

namespace HftBot

open Function

/-! ### Lifecycle -/

inductive OrdState
  | free | pendingNew | open | pendingCancel | filled | canceled | expired
deriving DecidableEq, Repr

/-- `legal_transition`: terminal states never transition. -/
def legalTransition : OrdState → OrdState → Bool
  | .free, dst          => dst = .pendingNew
  | .pendingNew, dst    => dst = .open
  | .open, dst          => dst = .pendingCancel || dst = .filled || dst = .expired
  | .pendingCancel, dst => dst = .canceled || dst = .filled
  | _, _                => false

def OrdState.isTerminal (s : OrdState) : Bool :=
  s = .filled || s = .canceled || s = .expired

/-- The order rests in the simulated book. -/
def OrdState.isResting (s : OrdState) : Bool :=
  s = .open || s = .pendingCancel

/-- The order may still be filled, now or after its placement latency. -/
def OrdState.isLive (s : OrdState) : Bool :=
  s = .pendingNew || s = .open || s = .pendingCancel

structure OrderRec where
  cid         : Nat := 0
  market      : Nat := 0
  priceCents  : Int := 0
  count       : Int := 0
  filled      : Int := 0
  buyYes      : Bool := false
  state       : OrdState := .free
  /-- contracts ahead of us at activation; `-1` is unknown -/
  queueAhead  : Int := -1
  placeTsNs   : Nat := 0
  activeTsNs  : Nat := 0
  /-- cancel request plus cancel latency; `0` is no cancel -/
  cancelEffNs : Nat := 0
deriving DecidableEq, Repr

def OrderRec.remaining (r : OrderRec) : Int := r.count - r.filled

/-! ### Exposure gauge -/

def kMarketSlots : Nat := 4096

structure ExposureGauge where
  atRiskCents      : Nat → Int := fun _ => 0
  openContracts    : Nat → Int := fun _ => 0
  totalAtRiskCents : Int := 0

namespace ExposureGauge

/-- Worst-case loss of a resting maker order: buying YES at `p` risks `p` a contract, selling
YES at `p` risks `100 - p`. -/
def riskCents (count p : Int) (buyYes : Bool) : Int :=
  count * (if buyYes then p else 100 - p)

def onOpen (g : ExposureGauge) (mkt : Nat) (count price : Int) (buyYes : Bool) :
    ExposureGauge where
  atRiskCents := update g.atRiskCents (mkt % kMarketSlots)
    (g.atRiskCents (mkt % kMarketSlots) + riskCents count price buyYes)
  openContracts := update g.openContracts (mkt % kMarketSlots)
    (g.openContracts (mkt % kMarketSlots) + count)
  totalAtRiskCents := g.totalAtRiskCents + riskCents count price buyYes

def onClose (g : ExposureGauge) (mkt : Nat) (count price : Int) (buyYes : Bool) :
    ExposureGauge where
  atRiskCents := update g.atRiskCents (mkt % kMarketSlots)
    (g.atRiskCents (mkt % kMarketSlots) - riskCents count price buyYes)
  openContracts := update g.openContracts (mkt % kMarketSlots)
    (g.openContracts (mkt % kMarketSlots) - count)
  totalAtRiskCents := g.totalAtRiskCents - riskCents count price buyYes

def within (g : ExposureGauge) (mkt : Nat) (maxMarketCents maxTotalCents : Int) : Bool :=
  g.atRiskCents (mkt % kMarketSlots) ≤ maxMarketCents && g.totalAtRiskCents ≤ maxTotalCents

def marketAtRiskCents (g : ExposureGauge) (mkt : Nat) : Int :=
  g.atRiskCents (mkt % kMarketSlots)

end ExposureGauge

/-! ### Registry -/

structure OrderRegistry where
  capacity           : Nat
  slots              : Nat → OrderRec := fun _ => {}
  /-- the free list as a stack: its head is `free_.back()` -/
  free               : List Nat
  byCid              : Nat → Option Nat := fun _ => none
  gauge              : ExposureGauge := {}
  illegalTransitions : Nat := 0

namespace OrderRegistry

/-- The constructor pushes `capacity - 1, ..., 0`, so slot `0` is handed out first. -/
def new (capacity : Nat) : OrderRegistry where
  capacity := capacity
  free := List.range capacity

def transition (reg : OrderRegistry) (idx : Nat) (dst : OrdState) : OrderRegistry :=
  let r := reg.slots idx
  if legalTransition r.state dst then
    let gauge := if dst = .open then
        reg.gauge.onOpen r.market r.remaining r.priceCents r.buyYes else reg.gauge
    { reg with
      slots := update reg.slots idx { r with state := dst }
      gauge := if dst.isTerminal then
          gauge.onClose r.market r.remaining r.priceCents r.buyYes else gauge }
  else { reg with illegalTransitions := reg.illegalTransitions + 1 }

/-- `by_cid_.emplace`: a key that is present keeps its slot. -/
def emplaceCid (reg : OrderRegistry) (cid idx : Nat) : OrderRegistry :=
  if (reg.byCid cid).isSome then reg else { reg with byCid := update reg.byCid cid (some idx) }

/-- The slot handed out, or `none` when the table is full. -/
def place (reg : OrderRegistry) (cid market : Nat) (priceCents count : Int) (buyYes : Bool)
    (placeTsNs activeTsNs : Nat) : OrderRegistry × Option Nat :=
  match reg.free with
  | []          => (reg, none)
  | idx :: rest =>
    let r : OrderRec := { cid, market, priceCents, count, buyYes, placeTsNs, activeTsNs }
    let reg := { reg with free := rest, slots := update reg.slots idx r }
    ((reg.transition idx .pendingNew).emplaceCid cid idx, some idx)

/-- A fill consumes remaining quantity; exposure shrinks by the filled part. -/
def applyFill (reg : OrderRegistry) (idx : Nat) (qty : Int) : OrderRegistry :=
  let r := reg.slots idx
  let r' := { r with filled := r.filled + qty }
  { reg with
    gauge := reg.gauge.onClose r.market qty r.priceCents r.buyYes
    slots := update reg.slots idx (if r'.remaining = 0 then { r' with state := .filled } else r') }

def release (reg : OrderRegistry) (idx : Nat) : OrderRegistry :=
  let r := reg.slots idx
  { reg with
    byCid := update reg.byCid r.cid none
    slots := update reg.slots idx { r with state := .free }
    free := idx :: reg.free }

/-- `r.queue_ahead = q`, written through the reference the simulator holds. -/
def setQueueAhead (reg : OrderRegistry) (idx : Nat) (q : Int) : OrderRegistry :=
  { reg with slots := update reg.slots idx { reg.slots idx with queueAhead := q } }

/-- `r.cancel_eff_ns = t`, written through the reference the engine holds. -/
def setCancelEff (reg : OrderRegistry) (idx : Nat) (t : Nat) : OrderRegistry :=
  { reg with slots := update reg.slots idx { reg.slots idx with cancelEffNs := t } }

def lookup (reg : OrderRegistry) (cid : Nat) : Option Nat := reg.byCid cid

def inUse (reg : OrderRegistry) : Nat := reg.capacity - reg.free.length

end OrderRegistry

end HftBot
