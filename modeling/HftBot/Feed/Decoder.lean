import HftBot.Core.Json
import HftBot.Feed.FixedPoint
import HftBot.Feed.OrderBook

/-!
# Frame decoder

`KalshiRawDecoder::decode` with the record it reads and the events it makes. The JSON parser is a
parameter; clock readings and trace ids are left out.
-/

namespace HftBot

open HftBot.Core

/-- One raw record. A marker carries no payload. -/
structure RawRecord where
  channel           : List Char := []
  sourceTicker      : List Char := []
  sourceSequence    : Option Nat := none
  sourceStreamId    : Option Nat := none
  streamEpoch       : Nat := 0
  sourceEventTimeMs : Option Int := none
  marker            : Option String := none
  raw               : List Char := []
deriving DecidableEq, Repr

/-- The 64-bit hash of the source byte and the ticker's bytes; zero stands for no entity. -/
def makeEntityId (source : UInt8) (ticker : List Char) : EntityId :=
  let prime : UInt64 := 1099511628211
  let mix (h : UInt64) (b : UInt8) : UInt64 := (h ^^^ b.toUInt64) * prime
  let h := (source :: ticker.flatMap String.utf8EncodeChar).foldl mix 1469598103934665603
  (if h = 0 then prime else h).toNat

/-- The source byte of this venue. -/
def kSourceKalshi : UInt8 := 1

inductive LifecycleState
  | unknown | created | opened | paused | closed | determined | settled
deriving DecidableEq, Repr

/-- The alternatives of an event's payload. -/
inductive Payload
  | bookSnapshot (yes no : List Level)
  | bookDelta (side : Side) (price d : Int) (clientOrderId : Option (List Char))
  | ticker (lastPrice yesBid yesAsk volume openInterest : Option Int)
  | trade (price size : Int) (takerSide : Side) (tradeId : List Char)
  | lifecycle (state : LifecycleState) (unknownType : List Char) (settlementValue : Option Int)
deriving DecidableEq, Repr

structure NormalizedEvent where
  entityId          : EntityId
  sourceEventTimeMs : Option Int
  sourceSequence    : Option Nat
  sourceStreamId    : Option Nat
  streamEpoch       : Nat
  payload           : Payload
deriving DecidableEq, Repr

namespace KalshiRawDecoder

open FixedPoint

/-- The elements of one level: a price, a size and nothing else. A level that does not parse is
skipped. -/
def parseLevel (elems : List Json) : Option Level := do
  let texts ← elems.mapM Json.asString
  match texts with
  | [p, c] => return { price := ← parsePriceE4 p, size := ← parseCountFp c }
  | _      => none

/-- The levels of an array of arrays. The loops of the source run once over the error of a value of
any other shape, and that round fails: such a value has no level, and such an element is skipped. -/
def parseLevels (arr : Json) : List Level :=
  (arr.asArray.getD []).filterMap fun pair => pair.asArray.bind parseLevel

/-- The levels of a field, none if it is absent. -/
def levelsField (msg : List (List Char × Json)) (name : String) : List Level :=
  ((Json.field msg name).map parseLevels).getD []

def sideOf (s : List Char) : Side := if s = "no".toList then .no else .yes

def decodeSnapshot (msg : List (List Char × Json)) : Payload :=
  .bookSnapshot (levelsField msg "yes_dollars_fp") (levelsField msg "no_dollars_fp")

/-- A missing side counts as yes. -/
def decodeDelta (msg : List (List Char × Json)) : Option Payload := do
  let price ← parsePriceE4 (← Json.stringField msg "price_dollars")
  let delta ← parseDeltaFp (← Json.stringField msg "delta_fp")
  let side := sideOf ((Json.stringField msg "side").getD [])
  return .bookDelta side price delta
    ((Json.stringField msg "client_order_id").filter fun s => !s.isEmpty)

def decodeTicker (msg : List (List Char × Json)) : Payload :=
  .ticker ((Json.stringField msg "price_dollars").bind parsePriceE4)
    ((Json.stringField msg "yes_bid_dollars").bind parsePriceE4)
    ((Json.stringField msg "yes_ask_dollars").bind parsePriceE4)
    ((Json.stringField msg "volume_fp").bind parseCountFp)
    ((Json.stringField msg "open_interest_fp").bind parseCountFp)

/-- The yes price, or one minus the no price; what does not parse stays zero. -/
def decodeTrade (msg : List (List Char × Json)) : Payload :=
  let price :=
    match Json.stringField msg "yes_price_dollars" with
    | some s => (parsePriceE4 s).getD 0
    | none   =>
      match Json.stringField msg "no_price_dollars" with
      | some s => ((parsePriceE4 s).map fun p => kPriceMax - p).getD 0
      | none   => 0
  let size := ((Json.stringField msg "count_fp").bind parseCountFp).getD 0
  let taker :=
    ((Json.stringField msg "taker_outcome_side").or (Json.stringField msg "taker_side")).getD []
  .trade price size (sideOf taker) ((Json.stringField msg "trade_id").getD [])

def lifecycleState (eventType : List Char) : Option LifecycleState :=
  if eventType = "created".toList then some .created
  else if eventType = "open".toList ∨ eventType = "active".toList then some .opened
  else if eventType = "paused".toList then some .paused
  else if eventType = "closed".toList then some .closed
  else if eventType = "determined".toList then some .determined
  else if eventType = "settled".toList then some .settled
  else none

def decodeLifecycle (msg : List (List Char × Json)) : Payload :=
  let settlementValue := (Json.stringField msg "settlement_value").bind parsePriceE4
  match Json.stringField msg "event_type" with
  | none    => .lifecycle .unknown [] settlementValue
  | some et =>
    match lifecycleState et with
    | some state => .lifecycle state [] settlementValue
    | none       => .lifecycle .unknown et settlementValue

/-- The payload of a frame by its type; other types are not modelled by the source either. -/
def decodePayload (type : List Char) (msg : List (List Char × Json)) : Option Payload :=
  if type = "orderbook_snapshot".toList then some (decodeSnapshot msg)
  else if type = "orderbook_delta".toList then decodeDelta msg
  else if type = "ticker".toList then some (decodeTicker msg)
  else if type = "trade".toList then some (decodeTrade msg)
  else if type = "market_lifecycle_v2".toList ∨ type = "event_lifecycle".toList then
    some (decodeLifecycle msg)
  else none

/-- Deltas, tickers and trades take the event time from the message. -/
def eventTime (type : List Char) (msg : List (List Char × Json)) (fallback : Option Int) :
    Option Int :=
  if type = "orderbook_delta".toList ∨ type = "ticker".toList ∨ type = "trade".toList then
    (Json.int64Field msg "ts_ms").or fallback
  else fallback

def decode (parse : List Char → Option Json) (rec : RawRecord) : Option NormalizedEvent := do
  let root ← (← parse rec.raw).asObject
  let type ← Json.stringField root "type"
  let msg ← Json.objectField root "msg"
  let payload ← decodePayload type msg
  return {
    entityId          := makeEntityId kSourceKalshi rec.sourceTicker
    sourceEventTimeMs := eventTime type msg rec.sourceEventTimeMs
    sourceSequence    := rec.sourceSequence
    sourceStreamId    := rec.sourceStreamId
    streamEpoch       := rec.streamEpoch
    payload }

end KalshiRawDecoder

end HftBot
