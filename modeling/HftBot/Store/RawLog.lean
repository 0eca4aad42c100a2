import Mathlib.Logic.Function.Basic
import HftBot.Core.JsonObject
import HftBot.Store.Base64

/-!
# Raw log

`RawRecord`, `RawLogWriter` and `RawLogReader` of `storage.cpp`: one line of JSON for each record. A
payload that passes `is_valid_utf8` is written as an escaped string and any other in base64. The
parser of the lines is a parameter of the reader.
-/

namespace HftBot.Storage

open HftBot.Core HftBot.Core.Utf8 HftBot.Core.JsonText

/-! ### Records -/

inductive SourceId
  | unknown
  | kalshi
  | replay
  | sportsOdds
  | sportsStats
  | news
  | weather
  | custom
deriving DecidableEq, Repr

def SourceId.toString : SourceId → String
  | unknown     => "Unknown"
  | kalshi      => "Kalshi"
  | replay      => "Replay"
  | sportsOdds  => "SportsOdds"
  | sportsStats => "SportsStats"
  | news        => "News"
  | weather     => "Weather"
  | custom      => "Custom"

def sourceFromWire (s : Bytes) : SourceId :=
  if s = ascii "Kalshi" then .kalshi
  else if s = ascii "Replay" then .replay
  else if s = ascii "SportsOdds" then .sportsOdds
  else if s = ascii "SportsStats" then .sportsStats
  else if s = ascii "News" then .news
  else if s = ascii "Weather" then .weather
  else if s = ascii "Custom" then .custom
  else .unknown

structure RawRecord where
  recvMonoNs        : Int64 := 0
  recvWallNs        : Int64 := 0
  sourceEventTimeMs : Option Int64 := none
  source            : SourceId := .unknown
  channel           : Bytes := []
  sourceTicker      : Bytes := []
  sourceSequence    : Option UInt64 := none
  sourceStreamId    : Option UInt64 := none
  streamEpoch       : UInt32 := 0
  marker            : Option Bytes := none
  raw               : Bytes := []
deriving DecidableEq

/-! ### Lines -/

def isContinuation (b : UInt8) : Bool := b >>> 6 = 0x2

/-- The source's own test: lead bytes with the right number of continuation bytes, whatever
character they stand for. -/
def isValidUtf8 : Bytes → Bool
  | []        => true
  | c :: rest =>
    if c < 0x80 then isValidUtf8 rest
    else if c >>> 5 = 0x6 then
      match rest with
      | k₁ :: rest => isContinuation k₁ && isValidUtf8 rest
      | _          => false
    else if c >>> 4 = 0xE then
      match rest with
      | k₁ :: k₂ :: rest => isContinuation k₁ && isContinuation k₂ && isValidUtf8 rest
      | _                => false
    else if c >>> 3 = 0x1E then
      match rest with
      | k₁ :: k₂ :: k₃ :: rest =>
        isContinuation k₁ && isContinuation k₂ && isContinuation k₃ && isValidUtf8 rest
      | _                      => false
    else false

/-- A digit of `%x`. -/
def hex (n : Nat) : UInt8 := (ascii "0123456789abcdef").getD (n % 16) 0

def escapeByte (c : UInt8) : Bytes :=
  if c = '"'.toUInt8 then ascii "\\\""
  else if c = '\\'.toUInt8 then ascii "\\\\"
  else if c = '\n'.toUInt8 then ascii "\\n"
  else if c = '\r'.toUInt8 then ascii "\\r"
  else if c = '\t'.toUInt8 then ascii "\\t"
  else if c = 0x08 then ascii "\\b"
  else if c = 0x0c then ascii "\\f"
  else if c < 0x20 then
    ascii "\\u" ++ [hex (c.toNat / 4096), hex (c.toNat / 256), hex (c.toNat / 16), hex c.toNat]
  else [c]

def jsonEscape (s : Bytes) : Bytes := '"'.toUInt8 :: s.flatMap escapeByte ++ ['"'.toUInt8]

/-- `std::to_string` of an unsigned integer. -/
def decimal (n : Nat) : Bytes := (Nat.toDigits 10 n).map Char.toUInt8

/-- `std::to_string` of a signed integer. -/
def signedDecimal (z : Int) : Bytes :=
  if z < 0 then '-'.toUInt8 :: decimal z.natAbs else decimal z.natAbs

/-- The members of a line, without those that a record has not. -/
def RawRecord.texts (rec : RawRecord) : List (String × Option Bytes) :=
  [("recv_mono_ns", some (signedDecimal rec.recvMonoNs.toInt)),
    ("recv_wall_ns", some (signedDecimal rec.recvWallNs.toInt)),
    ("source_event_time_ms", rec.sourceEventTimeMs.map fun ms => signedDecimal ms.toInt),
    ("source", some ('"'.toUInt8 :: ascii rec.source.toString ++ ['"'.toUInt8])),
    ("channel", some (jsonEscape rec.channel)),
    ("source_ticker", some (jsonEscape rec.sourceTicker)),
    ("source_sequence", rec.sourceSequence.map fun n => decimal n.toNat),
    ("sid", rec.sourceStreamId.map fun n => decimal n.toNat),
    ("stream_epoch", if rec.streamEpoch ≠ 0 then some (decimal rec.streamEpoch.toNat) else none),
    ("marker", rec.marker.map jsonEscape),
    ("raw", if isValidUtf8 rec.raw then some (jsonEscape rec.raw) else none),
    ("raw_b64", if isValidUtf8 rec.raw then none
      else some ('"'.toUInt8 :: base64Encode rec.raw ++ ['"'.toUInt8]))]

/-- A line without its end. -/
def RawRecord.body (rec : RawRecord) : Bytes := objectText (present rec.texts)

def newline : UInt8 := '\n'.toUInt8

def RawRecord.line (rec : RawRecord) : Bytes := rec.body ++ [newline]

/-! ### Writer -/

/-- `files` are the contents of the base path and of the paths with `.1`, `.2` and so on. -/
structure RawLogWriter where
  files     : Nat → Bytes
  maxBytes  : Nat := 256 * 1024 * 1024
  bytes     : Nat := 0
  index     : Nat := 0
  rotations : Nat := 0

namespace RawLogWriter

/-- The file is opened to append to it, and what it holds already is not counted. -/
def openCurrent (w : RawLogWriter) : RawLogWriter := { w with bytes := 0 }

def new (files : Nat → Bytes) (maxBytes : Nat) : RawLogWriter := openCurrent { files, maxBytes }

def rotate (w : RawLogWriter) : RawLogWriter :=
  openCurrent { w with index := w.index + 1, rotations := w.rotations + 1 }

def append (w : RawLogWriter) (line : Bytes) : RawLogWriter :=
  { w with
    files := Function.update w.files w.index (w.files w.index ++ line)
    bytes := w.bytes + line.length }

def write (w : RawLogWriter) (rec : RawRecord) : RawLogWriter :=
  if 0 < w.bytes ∧ w.maxBytes < w.bytes + rec.line.length then w.rotate.append rec.line
  else w.append rec.line

def writeAll (w : RawLogWriter) (recs : List RawRecord) : RawLogWriter := recs.foldl write w

end RawLogWriter

/-! ### Reader -/

/-- The payload, from the string or from base64. -/
def rawOf (raw rawB64 : Option Bytes) : Bytes :=
  match raw with
  | some s => s
  | none   => (rawB64.map base64Decode).getD []

/-- The record of an object, with the defaults for the fields that it has not. -/
def recordOf (members : List (Bytes × Value)) : RawRecord :=
  let int64 name := (field members name).bind Value.asInt64
  let uint64 name := (field members name).bind Value.asUint64
  let string name := (field members name).bind Value.asString
  { recvMonoNs        := (int64 "recv_mono_ns").getD 0
    recvWallNs        := (int64 "recv_wall_ns").getD 0
    sourceEventTimeMs := int64 "source_event_time_ms"
    source            := ((string "source").map sourceFromWire).getD .unknown
    channel           := (string "channel").getD []
    sourceTicker      := (string "source_ticker").getD []
    sourceSequence    := uint64 "source_sequence"
    sourceStreamId    := uint64 "sid"
    streamEpoch       := ((uint64 "stream_epoch").map UInt64.toUInt32).getD 0
    marker            := string "marker"
    raw               := rawOf (string "raw") (string "raw_b64") }

/-- `rest` is what of the file has not been read. -/
structure RawLogReader where
  rest    : Bytes
  skipped : Nat := 0

namespace RawLogReader

variable (parse : Bytes → Option Value)

/-- The record that a line is, if it is an object. -/
def recordOfLine (buf : Bytes) : Option RawRecord :=
  ((parse buf).bind Value.asObject).map recordOf

/-- The loop of `next`, with the part of a line that has been read. -/
def nextFrom (buf : Bytes) : Bytes → Nat → Option RawRecord × RawLogReader
  | [],        skipped => (none, { rest := [], skipped := if buf = [] then skipped else skipped + 1 })
  | c :: rest, skipped =>
    if c = newline then
      if buf = [] then nextFrom [] rest skipped
      else
        match recordOfLine parse buf with
        | none   => nextFrom [] rest (skipped + 1)
        | some r => (some r, { rest, skipped })
    else nextFrom (buf ++ [c]) rest skipped

def next (r : RawLogReader) : Option RawRecord × RawLogReader :=
  nextFrom parse [] r.rest r.skipped

/-- The calls of `next` until it returns nothing. -/
inductive Reads : RawLogReader → List RawRecord → RawLogReader → Prop
  | done {r r' : RawLogReader} (h : next parse r = (none, r')) : Reads r [] r'
  | more {r r' r'' : RawLogReader} {rec : RawRecord} {recs : List RawRecord}
    (h : next parse r = (some rec, r')) (hrest : Reads r' recs r'') : Reads r (rec :: recs) r''

end RawLogReader

end HftBot.Storage
