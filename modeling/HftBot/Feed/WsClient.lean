import HftBot.Feed.Decoder
import HftBot.Feed.OrderBookManager

/-!
# WebSocket client

`KalshiWsClient` with its book manager, recorder and sink attached: the transport hands it messages,
it counts epochs, records every frame and routes market data into the manager. What the recorder,
the sink and the transport get is kept in order. The handshake and the clock are left out.
-/

namespace HftBot

open HftBot.Core

inductive WsMessage
  | opened
  | closed
  | error
  | text (data : List Char)
  | ping
  | pong
deriving DecidableEq, Repr

structure WsClient where
  epoch            : Nat := 1
  want             : List (List Char) := []
  useYesPrice      : Bool := false
  openedOnce       : Bool := false
  nextId           : Nat := 1
  messages         : Nat := 0
  reconnects       : Nat := 0
  errors           : Nat := 0
  overflowEvents   : Nat := 0
  lifecycleDeletes : Nat := 0
  books            : OrderBookManager := {}
  records          : List RawRecord := []
  events           : List NormalizedEvent := []
  sent             : List (List Char) := []

namespace WsClient

/-! ### Commands -/

def tickerArray (tickers : List (List Char)) : List Char :=
  "[".toList ++
    List.intercalate ",".toList (tickers.map fun t => "\"".toList ++ t ++ "\"".toList) ++
    "]".toList

def buildSubscribe (c : WsClient) (id : Nat) (tickers : List (List Char)) : List Char :=
  "\x7b\"id\":".toList ++ (toString id).toList ++
    ",\"cmd\":\"subscribe\",\"params\":\x7b\"channels\":[\"orderbook_delta\"],".toList ++
    "\"market_tickers\":".toList ++ tickerArray tickers ++ ",\"use_yes_price\":".toList ++
    (if c.useYesPrice then "true" else "false").toList ++ "\x7d\x7d".toList

def record (c : WsClient) (rec : RawRecord) : WsClient := { c with records := c.records ++ [rec] }

/-- Hand a marker to the recorder. -/
def mark (c : WsClient) (kind : String) (sid : Option Nat) : WsClient :=
  c.record { marker := some kind, streamEpoch := c.epoch, sourceStreamId := sid }

def resubscribe (c : WsClient) : WsClient :=
  if c.want.isEmpty then c
  else { c with nextId := c.nextId + 1, sent := c.sent ++ [c.buildSubscribe c.nextId c.want] }

/-- Every opening but the first starts a new epoch. The manager is not told. -/
def onOpen (c : WsClient) : WsClient :=
  let c :=
    if c.openedOnce then
      ({ c with epoch := (c.epoch + 1) % 2 ^ 32, reconnects := c.reconnects + 1 } : WsClient).mark
        "epoch_change" none
    else c
  ({ c with openedOnce := true } : WsClient).resubscribe

def onClose (c : WsClient) : WsClient := c

/-! ### Frames -/

/-- Deliver an event to the sink and route it into the manager. A number that is missing in the
frame is zero here. -/
def onEvent (c : WsClient) (sid seq : Nat) (ev : NormalizedEvent) : WsClient :=
  let c := { c with events := c.events ++ [ev] }
  match ev.payload with
  | .lifecycle state _ _ =>
    if state = .determined ∨ state = .settled then
      { c with books := c.books.forget ev.entityId, lifecycleDeletes := c.lifecycleDeletes + 1 }
    else c
  | .bookSnapshot yes no =>
    let books := c.books.bind sid c.epoch ev.entityId
    { c with books := books.onSnapshot sid c.epoch ev.entityId { yes, no, seq } seq }
  | .bookDelta side price d _ =>
    let (r, books) := c.books.onDelta sid c.epoch ev.entityId side price d seq
    let c := { c with books }
    if r = .needResync then c.mark "gap" (some sid) else c
  | _ => c

/-- The record of a frame. -/
def frameRecord (root : List (List Char × Json)) (type text : List Char) (epoch : Nat) :
    RawRecord where
  channel        := type
  sourceTicker   :=
    ((Json.objectField root "msg").bind (Json.stringField · "market_ticker")).getD []
  sourceStreamId := Json.uint64Field root "sid"
  sourceSequence := Json.uint64Field root "seq"
  streamEpoch    := epoch
  raw            := text

def onText (parse : List Char → Option Json) (c : WsClient) (text : List Char) : WsClient :=
  match (parse text).bind Json.asObject with
  | none      => c
  | some root =>
    match Json.stringField root "type" with
    | none      => c
    | some type =>
      let c := c.record (frameRecord root type text c.epoch)
      if type = "error".toList then
        let code := ((Json.objectField root "msg").bind (Json.int64Field · "code")).getD 0
        { c with
          errors         := c.errors + 1
          overflowEvents := if code = 25 then c.overflowEvents + 1 else c.overflowEvents }
      else if type = "ok".toList ∨ type = "unsubscribed".toList then
        match Json.uint64Field root "sid", Json.uint64Field root "seq" with
        | some sid, some seq => { c with books := (c.books.onControlSeq sid c.epoch seq).2 }
        | _, _               => c
      else if type = "subscribed".toList then c
      else
        match KalshiRawDecoder.decode parse (frameRecord root type text c.epoch) with
        | none    => c
        | some ev =>
          c.onEvent ((Json.uint64Field root "sid").getD 0) ((Json.uint64Field root "seq").getD 0) ev

def onMessage (parse : List Char → Option Json) (c : WsClient) : WsMessage → WsClient
  | .opened    => c.onOpen
  | .closed    => c.onClose
  | .text data => ({ c with messages := c.messages + 1 } : WsClient).onText parse data
  | .error     => { c with errors := c.errors + 1 }
  | .ping      => c
  | .pong      => c

end WsClient

end HftBot
