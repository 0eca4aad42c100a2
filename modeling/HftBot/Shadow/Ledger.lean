import HftBot.Shadow.FillSim

/-!
# Fees and ledger

The fail-closed fee schedule (`fees.hpp`) and the position ledger (`ledger.hpp`): per-market
inventory and cash, settlement PnL, and the markout of each fill `horizonNs` later.

Text is a list of characters. The markout sums, doubles in the source, are integers: every
summand is one. A market index outside the ledger, which the source leaves undefined, changes
nothing.
-/

namespace HftBot

/-- Addition of two 64-bit nanosecond values. -/
def addNs (a b : Nat) : Nat := (a + b) % 2 ^ 64

/-! ### Fee schedule -/

structure FeeEntry where
  seriesPrefix : List Char
  /-- `-1` is unknown -/
  makerRateE4  : Int := -1
  takerRateE4  : Int := -1
deriving DecidableEq, Repr

structure FeeSchedule where
  entries : List FeeEntry := []
deriving DecidableEq, Repr

namespace FeeSchedule

/-- `match`: the longest prefix of the ticker, the last one among equals. -/
def matchEntry (fees : FeeSchedule) (ticker : List Char) : Option FeeEntry :=
  fees.entries.foldl (fun best e =>
    if (best.elim 0 fun b => b.seriesPrefix.length) ≤ e.seriesPrefix.length ∧
        ticker.take e.seriesPrefix.length = e.seriesPrefix then some e else best) none

/-- `ceil(rate_e4 * count * p * (100 - p) / 1e6)`; C++ division truncates towards zero. -/
def feeCents (rateE4 count p : Int) : Int :=
  (rateE4 * count * p * (100 - p) + 999999).tdiv 1000000

def makerFeeCents (fees : FeeSchedule) (ticker : List Char) (count priceCents : Int) :
    Option Int :=
  match fees.matchEntry ticker with
  | none   => none
  | some e => if e.makerRateE4 < 0 then none else some (feeCents e.makerRateE4 count priceCents)

def known (fees : FeeSchedule) (ticker : List Char) : Bool :=
  match fees.matchEntry ticker with
  | none   => false
  | some e => 0 ≤ e.makerRateE4

end FeeSchedule

/-! ### Ledger -/

structure MarketBook where
  ticker         : List Char
  family         : List Char
  bought         : Int := 0
  boughtCents    : Int := 0
  sold           : Int := 0
  soldCents      : Int := 0
  feeCents       : Int := 0
  feeKnown       : Bool := false
  settled        : Bool := false
  settledYes     : Bool := false
  lastTradeCents : Int := -1
deriving DecidableEq, Repr

structure FamilyReport where
  markets                   : Int := 0
  settledMarkets            : Int := 0
  orders                    : Int := 0
  fills                     : Int := 0
  filledContracts           : Int := 0
  quotedContracts           : Int := 0
  grossPnlCents             : Int := 0
  feeCents                  : Int := 0
  netPnlCents               : Int := 0
  excludedFeeUnknownMarkets : Int := 0
  markoutSumCents           : Int := 0
  markoutN                  : Int := 0
deriving DecidableEq, Repr

structure Markout where
  market     : Nat
  priceCents : Int
  qty        : Int
  buyYes     : Bool
  fillTsNs   : Nat
deriving DecidableEq, Repr

structure Ledger where
  fees             : FeeSchedule
  horizonNs        : Nat
  books            : List MarketBook := []
  index            : List (List Char × Nat) := []
  pendingMarkouts  : List Markout := []
  perFamilyMarkout : List Char → Option (Int × Int) := fun _ => none
  orders           : Int := 0
  fills            : Int := 0
  filledContracts  : Int := 0
  quotedContracts  : Int := 0
  markoutSum       : Int := 0
  markoutN         : Int := 0

namespace Ledger

def marketIndex (l : Ledger) (ticker family : List Char) : Ledger × Nat :=
  match l.index.lookup ticker with
  | some idx => (l, idx)
  | none     =>
    ({ l with
        books := l.books ++ [{ ticker, family, feeKnown := l.fees.known ticker }]
        index := l.index ++ [(ticker, l.books.length)] }, l.books.length)

def onOrderPlaced (l : Ledger) (_mkt : Nat) (count : Int) : Ledger :=
  { l with orders := l.orders + 1, quotedContracts := l.quotedContracts + count }

/-- The effect of one fill on its market's book. -/
def bookFill (fees : FeeSchedule) (f : Fill) (b : MarketBook) : MarketBook :=
  let b := if f.buyYes then
      { b with bought := b.bought + f.qty, boughtCents := b.boughtCents + f.qty * f.priceCents }
    else { b with sold := b.sold + f.qty, soldCents := b.soldCents + f.qty * f.priceCents }
  if b.feeKnown then
    { b with
      feeCents := b.feeCents + (fees.makerFeeCents b.ticker f.qty f.priceCents).getD 0 }
  else b

def onFill (l : Ledger) (f : Fill) : Ledger :=
  { l with
    books := l.books.modify f.market (bookFill l.fees f)
    fills := l.fills + 1
    filledContracts := l.filledContracts + f.qty
    pendingMarkouts :=
      l.pendingMarkouts ++ [⟨f.market, f.priceCents, f.qty, f.buyYes, f.tsNs⟩] }

/-- Marks one due fill out against the last trade of its market. -/
def markOut (l : Ledger) (m : Markout) : Ledger :=
  match l.books[m.market]? with
  | none   => l
  | some b =>
    if b.lastTradeCents < 0 then l
    else
      let drift := if m.buyYes then b.lastTradeCents - m.priceCents
        else m.priceCents - b.lastTradeCents
      let fam := (l.perFamilyMarkout b.family).getD (0, 0)
      { l with
        markoutSum := l.markoutSum + drift * m.qty
        markoutN := l.markoutN + m.qty
        perFamilyMarkout := Function.update l.perFamilyMarkout b.family
          (some (fam.1 + drift * m.qty, fam.2 + m.qty)) }

/-- The `while` loop of `on_trade`, over the markouts still pending. -/
def evalMarkouts (tsNs : Nat) : List Markout → Ledger → Ledger
  | [], l      => { l with pendingMarkouts := [] }
  | m :: ms, l =>
    if addNs m.fillTsNs l.horizonNs ≤ tsNs then evalMarkouts tsNs ms (l.markOut m)
    else { l with pendingMarkouts := m :: ms }

def onTrade (l : Ledger) (mkt : Nat) (priceCents : Int) (tsNs : Nat) : Ledger :=
  let l := { l with books := l.books.modify mkt fun b => { b with lastTradeCents := priceCents } }
  evalMarkouts tsNs l.pendingMarkouts l

def onSettle (l : Ledger) (mkt : Nat) (yesWins : Bool) : Ledger :=
  { l with
    books := l.books.modify mkt fun b => { b with settled := true, settledYes := yesWins } }

def grossPnlCents (b : MarketBook) : Int :=
  let s : Int := if b.settledYes then 100 else 0
  (b.bought * s - b.boughtCents) + (b.soldCents - b.sold * s)

/-- The contribution of one book to the report of its family. -/
def reportBook (r : FamilyReport) (b : MarketBook) : FamilyReport :=
  let r := { r with markets := r.markets + 1 }
  if !b.settled then r
  else
    let r := { r with
      settledMarkets := r.settledMarkets + 1
      grossPnlCents := r.grossPnlCents + grossPnlCents b }
    if b.feeKnown then
      { r with
        feeCents := r.feeCents + b.feeCents
        netPnlCents := r.netPnlCents + (grossPnlCents b - b.feeCents) }
    else if 0 < b.bought + b.sold then
      { r with excludedFeeUnknownMarkets := r.excludedFeeUnknownMarkets + 1 }
    else r

def report (l : Ledger) (family : List Char) : Option FamilyReport :=
  match l.books.filter (·.family = family) with
  | [] => none
  | bs =>
    let r := bs.foldl reportBook {}
    let m := (l.perFamilyMarkout family).getD (0, 0)
    some { r with
      markoutSumCents := m.1
      markoutN := m.2
      orders := l.orders
      fills := l.fills
      filledContracts := l.filledContracts
      quotedContracts := l.quotedContracts }

end Ledger

end HftBot
