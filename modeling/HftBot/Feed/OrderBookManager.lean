import HftBot.Feed.OrderBook
import Mathlib.Logic.Function.Basic

/-!
# Order book manager

The manager half of `orderbook.hpp`: one book per market and one stream per subscription. What the
resync handler is asked for is kept in order.
-/

namespace HftBot

open Function

/-- A request to the resync handler. -/
structure Resync where
  sid     : Nat
  markets : List EntityId
deriving DecidableEq, Repr

structure OrderBookManager where
  streams        : Nat → Option SidStream := fun _ => none
  books          : EntityId → Option OrderBook := fun _ => none
  sidOf          : EntityId → Option Nat := fun _ => none
  resyncs        : Nat := 0
  stale          : Nat := 0
  droppedInvalid : Nat := 0
  corrupt        : Nat := 0
  requests       : List Resync := []

namespace OrderBookManager

variable (m : OrderBookManager)

/-- The stream of a sid, a fresh one where there is none; the epoch only marks a fresh one. -/
def stream (sid epoch : Nat) : SidStream := (m.streams sid).getD { sid, epoch }

/-- The book of a market, a fresh one where there is none. -/
def bookRef (e : EntityId) : OrderBook := (m.books e).getD .new

def setStream (sid : Nat) (s : SidStream) : OrderBookManager :=
  { m with streams := update m.streams sid (some s) }

def setBook (e : EntityId) (b : OrderBook) : OrderBookManager :=
  { m with books := update m.books e (some b) }

def invalidateAll (s : SidStream) : OrderBookManager :=
  { m with
    books   := fun e => if e ∈ s.members then some (m.bookRef e).invalidate else m.books e
    resyncs := m.resyncs + 1 }

def requestResync (sid : Nat) (markets : List EntityId) : OrderBookManager :=
  { m with requests := m.requests ++ [{ sid, markets }] }

def requestAll (s : SidStream) : OrderBookManager :=
  m.requestResync s.sid (s.members.sort (· ≤ ·))

def bind (sid epoch : Nat) (e : EntityId) : OrderBookManager :=
  { m.setStream sid ((m.stream sid epoch).addMarket e) with
    sidOf := update m.sidOf e (some sid) }

/-- The verdict on the snapshot's number is discarded. -/
def onSnapshot (sid epoch : Nat) (e : EntityId) (snap : SnapshotView) (seq : Nat) :
    OrderBookManager :=
  let s := (m.stream sid epoch).addMarket e
  let m := { m with sidOf := update m.sidOf e (some sid) }
  let (_, s) := s.observe seq
  (m.setStream sid s).setBook e (OrderBook.loadSnapshot { snap with seq })

/-- A delta whose number is in order. The lookup creates the book of a market it has never seen. -/
def acceptDelta (sid : Nat) (e : EntityId) (side : Side) (price delta : Int) (seq : Nat) :
    ApplyResult × OrderBookManager :=
  let b := m.bookRef e
  let m := m.setBook e b
  if !b.valid then (.needResync, { m with droppedInvalid := m.droppedInvalid + 1 })
  else
    let (r, b) := b.applyDelta side price delta seq
    let m := m.setBook e b
    if r = .invalid then
      (r, ({ m with corrupt := m.corrupt + 1 } : OrderBookManager).requestResync sid [e])
    else (r, m)

def onDelta (sid epoch : Nat) (e : EntityId) (side : Side) (price delta : Int) (seq : Nat) :
    ApplyResult × OrderBookManager :=
  let (r, s) := (m.stream sid epoch).observe seq
  let m := m.setStream sid s
  match r with
  | .gap   => (.needResync, (m.invalidateAll s).requestAll s)
  | .stale => (.needResync, { m with stale := m.stale + 1 })
  | .first => m.acceptDelta s.sid e side price delta seq
  | .ok    => m.acceptDelta s.sid e side price delta seq

def onControlSeq (sid epoch seq : Nat) : ApplyResult × OrderBookManager :=
  let (r, s) := (m.stream sid epoch).observe seq
  let m := m.setStream sid s
  if r = .gap then (.needResync, (m.invalidateAll s).requestAll s) else (.ok, m)

def forget (e : EntityId) : OrderBookManager :=
  let m := { m with books := update m.books e none }
  match m.sidOf e with
  | none     => m
  | some sid =>
    let m :=
      match m.streams sid with
      | none   => m
      | some s => m.setStream sid (s.removeMarket e)
    { m with sidOf := update m.sidOf e none }

/-- A book is tradeable only if it is present and valid. -/
def tradeable (e : EntityId) : Bool := (m.books e).any (·.valid)

end OrderBookManager

end HftBot
