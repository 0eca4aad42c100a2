import HftBot.Core.SortedMap
import HftBot.Feed.FixedPoint
import Mathlib.Data.Finset.Sort

/-!
# Order books and sequence streams

`sid_stream.hpp` and the book half of `orderbook.hpp`. A stream counts the sequence numbers of one
subscription; a book holds the levels of one market and serves them only while it is valid.
-/

namespace HftBot

open HftBot.Core

/-- A normalised instrument id. -/
abbrev EntityId := Nat

inductive Side
  | yes | no
deriving DecidableEq, Repr

/-- Prices in ten-thousandths of a dollar, sizes in hundredths of a contract. -/
structure Level where
  price : Int
  size  : Int
deriving DecidableEq, Repr

/-! ### Sequence streams -/

inductive SeqResult
  | first | ok | gap | stale
deriving DecidableEq, Repr

structure SidStream where
  sid      : Nat
  epoch    : Nat
  seen     : Bool := false
  expected : Nat := 0
  members  : Finset EntityId := ∅
deriving DecidableEq

namespace SidStream

def addMarket (s : SidStream) (e : EntityId) : SidStream :=
  { s with members := insert e s.members }

def removeMarket (s : SidStream) (e : EntityId) : SidStream :=
  { s with members := s.members.erase e }

/-- Sequence numbers are 64 bits wide. -/
def nextSeq (seq : Nat) : Nat := (seq + 1) % 2 ^ 64

/-- A gap moves the counter to the observed point, a stale number leaves it. -/
def observe (s : SidStream) (seq : Nat) : SeqResult × SidStream :=
  if !s.seen then (.first, { s with seen := true, expected := nextSeq seq })
  else if seq = s.expected then (.ok, { s with expected := nextSeq s.expected })
  else if seq < s.expected then (.stale, s)
  else (.gap, { s with expected := nextSeq seq })

/-- The number before the expected one. -/
def lastSeq (s : SidStream) : Nat := (s.expected + (2 ^ 64 - 1)) % 2 ^ 64

end SidStream

/-! ### Books -/

/-- A snapshot as it is handed to a book. -/
structure SnapshotView where
  yes : List Level := []
  no  : List Level := []
  seq : Nat := 0
deriving DecidableEq, Repr

inductive ApplyResult
  | ok | needResync | invalid
deriving DecidableEq, Repr

structure OrderBook where
  yes     : SortedMap Int Int := {}
  no      : SortedMap Int Int := {}
  lastSeq : Nat := 0
  valid   : Bool := false
deriving DecidableEq

namespace OrderBook

/-- A book without levels, not valid yet. -/
def new : OrderBook := {}

@[simp] lemma new_valid : new.valid = false := rfl

/-- The levels of one side; sizes that are not positive are dropped. -/
def loadSide (levels : List Level) : SortedMap Int Int :=
  levels.foldl (fun m l => if l.size > 0 then m.insert l.price l.size else m) {}

def loadSnapshot (snap : SnapshotView) : OrderBook where
  yes     := loadSide snap.yes
  no      := loadSide snap.no
  lastSeq := snap.seq
  valid   := true

def side (b : OrderBook) : Side → SortedMap Int Int
  | .yes => b.yes
  | .no  => b.no

def setSide (b : OrderBook) (m : SortedMap Int Int) : Side → OrderBook
  | .yes => { b with yes := m }
  | .no  => { b with no := m }

/-- Refused while invalid; a level that would become negative makes the book invalid. -/
def applyDelta (b : OrderBook) (side : Side) (price delta : Int) (seq : Nat) :
    ApplyResult × OrderBook :=
  if !b.valid then (.needResync, b)
  else
    let levels := b.side side
    let next   := (levels.find? price).getD 0 + delta
    if next < 0 then (.invalid, { b with valid := false })
    else
      let levels := if next = 0 then levels.erase price else levels.insert price next
      (.ok, { b.setSide levels side with lastSeq := seq })

def invalidate (b : OrderBook) : OrderBook := { b with valid := false }

/-- The size of a level, zero where there is none. -/
def sizeAt (b : OrderBook) (side : Side) (price : Int) : Int := ((b.side side).find? price).getD 0

/-! ### What a book serves -/

/-- The dearest level of a side. -/
def bestBid (b : OrderBook) (side : Side) : Option Int :=
  if !b.valid || (b.side side).isEmpty then none else (b.side side).lastKey?

def bestYesBid (b : OrderBook) : Option Int := b.bestBid .yes

def bestNoBid (b : OrderBook) : Option Int := b.bestBid .no

/-- A NO bid at `q` is a YES ask at `1 - q`. -/
def impliedYesAsk (b : OrderBook) : Option Int := b.bestNoBid.map fun q => kPriceMax - q

def impliedYesBid (b : OrderBook) : Option Int := b.bestYesBid

def crossed (b : OrderBook) : Bool :=
  match b.bestYesBid, b.impliedYesAsk with
  | some bid, some ask => decide (bid ≥ ask)
  | _, _               => false

/-- Levels are put out until there are `max` of them; a `max` of zero puts out all. -/
def depthLoop (max : Nat) : List (Int × Int) → List Level → List Level
  | [], out             => out
  | (p, s) :: rest, out =>
    let out := out ++ [⟨p, s⟩]
    if max ≠ 0 ∧ out.length ≥ max then out else depthLoop max rest out

def depth (b : OrderBook) (side : Side) (max : Nat) : List Level :=
  if !b.valid then [] else depthLoop max (b.side side).entries []

def yesDepth (b : OrderBook) (max : Nat := 0) : List Level := b.depth .yes max

def noDepth (b : OrderBook) (max : Nat := 0) : List Level := b.depth .no max

/-- The size of a level as it is served. -/
def servedAt (b : OrderBook) (side : Side) (price : Int) : Option Int :=
  if !b.valid then none else some (b.sizeAt side price)

def yesSizeAt (b : OrderBook) (price : Int) : Option Int := b.servedAt .yes price

def noSizeAt (b : OrderBook) (price : Int) : Option Int := b.servedAt .no price

def levels (b : OrderBook) (side : Side) : Nat := if b.valid then (b.side side).size else 0

def yesLevels (b : OrderBook) : Nat := b.levels .yes

def noLevels (b : OrderBook) : Nat := b.levels .no

end OrderBook

end HftBot
