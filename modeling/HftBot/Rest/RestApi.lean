import HftBot.Core.Machine
import HftBot.Feed.FixedPoint
import HftBot.Feed.OrderBook
import HftBot.Rest.RequestExecutor

/-!
# REST market data

`rest_api.cpp`: the calls that read markets and order books. Both the dollar-string schema and the
legacy schema of whole cents and whole contracts are read; arithmetic on the latter is that of the
machine and wraps around. The request executor and the JSON parser are parameters. A malformed
document is read as one without fields.
-/

namespace HftBot

open HftBot.Core

namespace FixedPoint

/-- Whole cents as a price, in 32 bits. -/
def centsToE4 (cents : Int) : Int := toInt32 (cents * 100)

end FixedPoint

structure MarketSummary where
  ticker       : List Char := []
  status       : List Char := []
  yesBid       : Option Int := none
  yesAsk       : Option Int := none
  lastPrice    : Option Int := none
  volume       : Option Int := none
  openInterest : Option Int := none
deriving DecidableEq, Repr

structure MarketsPage where
  markets    : List MarketSummary := []
  nextCursor : List Char := []
deriving DecidableEq, Repr

structure OrderbookSnapshot where
  ticker : List Char := []
  yes    : List Level := []
  no     : List Level := []
deriving DecidableEq, Repr

structure MarketsQuery where
  cursor       : List Char := []
  limit        : Int := 100
  status       : List Char := []
  seriesTicker : List Char := []
deriving DecidableEq, Repr

/-- What a library sort by price may do: levels of one price come in any order. -/
structure LevelSort where
  sort    : List Level → List Level
  perm    : ∀ ls, (sort ls).Perm ls
  ordered : ∀ ls, (sort ls).Pairwise fun a b => a.price ≤ b.price

namespace RestApi

open FixedPoint

/-! ### Decoders -/

/-- The price of the dollar string, or else of the whole cents. -/
def decodePrice (obj : List (List Char × Json)) (dollarsKey centsKey : String) : Option Int :=
  ((Json.stringField obj dollarsKey).bind parsePriceE4).or
    ((Json.int64Field obj centsKey).map fun cents => centsToE4 (toInt32 cents))

/-- The count of the decimal string, or else of the whole contracts. -/
def decodeCount (obj : List (List Char × Json)) (fpKey legacyKey : String) : Option Int :=
  ((Json.stringField obj fpKey).bind parseCountFp).or
    ((Json.int64Field obj legacyKey).map fun n => toInt64 (n * 100))

/-- A level is a price, a size and nothing else. A level that does not parse is skipped. -/
def decodeLevel (cents : Bool) : List Json → Option Level
  | [price, size] =>
    if cents then do
      let c ← price.asInt64
      let n ← size.asInt64
      return { price := centsToE4 (toInt32 c), size := toInt64 (n * 100) }
    else do
      let p ← parsePriceE4 (← price.asString)
      let c ← parseCountFp (← size.asString)
      return { price := p, size := c }
  | _ => none

/-- The levels of an array of arrays, in ascending order of price. A value of any other shape has no
level, and an element of any other shape is skipped. -/
def decodeLevels (sort : LevelSort) (cents : Bool) (arr : Json) : List Level :=
  sort.sort ((arr.asArray.getD []).filterMap fun pair => pair.asArray.bind (decodeLevel cents))

/-- The levels of a field, none if it is absent. -/
def levelsField (sort : LevelSort) (cents : Bool) (book : List (List Char × Json)) (name : String) :
    List Level :=
  ((Json.field book name).map (decodeLevels sort cents)).getD []

/-- The book of an object with its schema: that of dollar strings, or else the legacy one. -/
def bookOf (obj : List (List Char × Json)) : Option (Bool × List (List Char × Json)) :=
  ((Json.objectField obj "orderbook_fp").map fun book => (false, book)).or
    ((Json.objectField obj "orderbook").map fun book => (true, book))

def decodeBook (sort : LevelSort) (ticker : List Char) (obj : List (List Char × Json)) :
    OrderbookSnapshot :=
  match bookOf obj with
  | none               => { ticker }
  | some (cents, book) => {
    ticker
    yes := levelsField sort cents book (if cents then "yes" else "yes_dollars")
    no  := levelsField sort cents book (if cents then "no" else "no_dollars") }

def decodeMarket (obj : List (List Char × Json)) : MarketSummary where
  ticker       := (Json.stringField obj "ticker").getD []
  status       := (Json.stringField obj "status").getD []
  yesBid       := decodePrice obj "yes_bid_dollars" "yes_bid"
  yesAsk       := decodePrice obj "yes_ask_dollars" "yes_ask"
  lastPrice    := decodePrice obj "last_price_dollars" "last_price"
  volume       := decodeCount obj "volume_fp" "volume"
  openInterest := decodeCount obj "open_interest_fp" "open_interest"

/-! ### Calls -/

/-- Characters that are unsafe in a path are dropped. -/
def escape (s : List Char) : List Char := s.filter fun c => c ≠ '?' ∧ c ≠ '#' ∧ c ≠ ' '

section

variable (parse : List Char → Option Json) (get : List Char → Except ApiError Response)

/-- The fields of the document that a request is answered with, and the status. -/
def fetch (path : List Char) : Except ApiError (Int × List (List Char × Json)) := do
  let r ← get path
  if r.ok then .ok (r.status, ((parse r.body).bind Json.asObject).getD [])
  else .error (parseKalshiError parse r)

/-- What is missing or cannot be read is reported as that error. -/
def orError {α : Type} (e : ApiError) : Option α → Except ApiError α
  | none   => .error e
  | some a => .ok a

def marketsPath (q : MarketsQuery) : List Char :=
  let option (name : String) (value : List Char) :=
    if value.isEmpty then [] else name.toList ++ escape value
  "/markets?limit=".toList ++ (toString q.limit).toList ++ option "&status=" q.status ++
    option "&series_ticker=" q.seriesTicker ++ option "&cursor=" q.cursor

/-- Elements that are no objects are skipped. -/
def objectsField (doc : List (List Char × Json)) (name : String) :
    List (List (List Char × Json)) :=
  (((Json.field doc name).bind Json.asArray).getD []).filterMap Json.asObject

def markets (q : MarketsQuery) : Except ApiError MarketsPage := do
  let (_, doc) ← fetch parse get (marketsPath q)
  return {
    markets    := (objectsField doc "markets").map decodeMarket
    nextCursor := (Json.stringField doc "cursor").getD [] }

def marketPath (ticker : List Char) : List Char := "/markets/".toList ++ escape ticker

def market (ticker : List Char) : Except ApiError MarketSummary := do
  let (status, doc) ← fetch parse get (marketPath ticker)
  let obj ← orError { kind := .http, httpStatus := status, message := "no market object".toList }
    (Json.objectField doc "market")
  return decodeMarket obj

def orderbookPath (ticker : List Char) (depth : Int) : List Char :=
  "/markets/".toList ++ escape ticker ++ "/orderbook".toList ++
    (if depth > 0 then "?depth=".toList ++ (toString depth).toList else [])

/-- A document without a book is an empty book. -/
def orderbook (sort : LevelSort) (ticker : List Char) (depth : Int) :
    Except ApiError OrderbookSnapshot := do
  let (_, doc) ← fetch parse get (orderbookPath ticker depth)
  return decodeBook sort ticker doc

def batchPath (tickers : List (List Char)) : List Char :=
  "/markets/orderbooks".toList ++ (tickers.mapIdx fun i t =>
    (if i = 0 then "?tickers=" else "&tickers=").toList ++ escape t).flatten

def batchOrderbook (sort : LevelSort) (tickers : List (List Char)) :
    Except ApiError (List OrderbookSnapshot) :=
  if tickers.isEmpty ∨ tickers.length > 100 then
    .error { kind := .http, message := "batch size must be 1..100".toList }
  else do
    let (_, doc) ← fetch parse get (batchPath tickers)
    return (objectsField doc "orderbooks").map fun obj =>
      decodeBook sort ((Json.stringField obj "market_ticker").getD []) obj

end

end RestApi

end HftBot
