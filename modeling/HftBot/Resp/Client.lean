import HftBot.Core.Lines
import HftBot.Core.Machine
import HftBot.Store.RawLog

/-!
# RESP client

The client sends commands and reads replies over one connection. What it has received is kept in a
buffer, of which a first part has been parsed.
-/

namespace HftBot.Resp

open HftBot.Core HftBot.Core.Utf8 HftBot.Core.JsonText HftBot.Storage

inductive Reply
  | simple (str : Bytes)
  | err (str : Bytes)
  | integer (n : Int)
  | bulk (str : Bytes)
  | nil
  | array (items : List Reply)

/-! ### The connection -/

/-- What a call of `recv` gives. No bytes mean that the peer has closed the connection. -/
inductive Recv
  | data (bytes : Bytes)
  | interrupted
  | failed (reason : String)

/-- What a call of `send` gives. -/
inductive Send
  | accepted (n : Nat)
  | interrupted
  | failed (reason : String)

/-- A connection: what the next calls give, and the bytes that have been sent. -/
structure Socket where
  recvs : List Recv
  sends : List Send
  sent : Bytes := []

/-- The buffer is `parsed ++ unread`, and `parsed` are its `consumed_` bytes. -/
structure RespClient where
  socket : Option Socket := none
  parsed : Bytes := []
  unread : Bytes := []

def cr : UInt8 := '\r'.toUInt8

def lf : UInt8 := '\n'.toUInt8

def crlf : Bytes := [cr, lf]

/-- The largest length of a bulk string. -/
def kMaxBulk : Int := 67108864

/-- The largest length of an array. -/
def kMaxArray : Int := 1000000

/-- The number that digits stand for, with a minus before them or not. -/
def intOf : Bytes → Option Int
  | []     => none
  | b :: t =>
    if b = '-'.toUInt8 then (natOf t).map fun n : Nat => -(n : Int)
    else (natOf (b :: t)).map fun n : Nat => (n : Int)

/-- `std::from_chars` of the whole text. -/
def parseLl (s : Bytes) : Option Int := (intOf s).filter fun n => InInt64 n

/-! ### Sending -/

/-- The bytes of a command, an array of bulk strings. -/
def commandBytes (args : List Bytes) : Bytes :=
  '*'.toUInt8 :: decimal args.length ++ crlf ++
    args.flatMap fun a => '$'.toUInt8 :: decimal a.length ++ crlf ++ a ++ crlf

namespace RespClient

def close (_ : RespClient) : RespClient := {}

def fail {α : Type} (c : RespClient) (what : String) : Except String α × RespClient :=
  (.error what, c.close)

/-- The calls of `send` for the bytes, and all that has been sent then. Behind the last result that
is given everything is taken. -/
def sendAll : List Send → Bytes → Bytes → Except String (List Send × Bytes)
  | sends, sent, []                         => .ok (sends, sent)
  | [], sent, b :: data                     => .ok ([], sent ++ b :: data)
  | .accepted n :: sends, sent, b :: data   =>
    sendAll sends (sent ++ (b :: data).take n) ((b :: data).drop n)
  | .interrupted :: sends, sent, b :: data  => sendAll sends sent (b :: data)
  | .failed reason :: _, _, _ :: _          => .error ("send: " ++ reason)

def writeAll (c : RespClient) (data : Bytes) : Except String Unit × RespClient :=
  match c.socket with
  | none        => if data = [] then (.ok (), c) else c.fail "send: Bad file descriptor"
  | some socket =>
    match sendAll socket.sends socket.sent data with
    | .ok (sends, sent) => (.ok (), { c with socket := some { socket with sends, sent } })
    | .error e          => c.fail e

def sendCommand (c : RespClient) (args : List Bytes) : Except String Unit × RespClient :=
  c.writeAll (commandBytes args)

/-! ### Receiving -/

/-- The calls of `recv` until that many bytes have not been parsed. -/
def recvUntil (need : Nat) : List Recv → Bytes → Except String (List Recv × Bytes)
  | [], unread            =>
    if need ≤ unread.length then .ok ([], unread) else .error "connection closed by peer"
  | recv :: recvs, unread =>
    if need ≤ unread.length then .ok (recv :: recvs, unread)
    else
      match recv with
      | .data []        => .error "connection closed by peer"
      | .data (b :: bs) => recvUntil need recvs (unread ++ b :: bs)
      | .interrupted    => recvUntil need recvs unread
      | .failed reason  => .error ("recv: " ++ reason)

def fill (c : RespClient) (need : Nat) : Except String Unit × RespClient :=
  match c.socket with
  | none        =>
    if need ≤ c.unread.length then (.ok (), c) else c.fail "recv: Bad file descriptor"
  | some socket =>
    match recvUntil need socket.recvs c.unread with
    | .ok (recvs, unread) => (.ok (), { c with socket := some { socket with recvs }, unread })
    | .error e            => c.fail e

/-- The next bytes of the buffer are parsed. -/
def consume (c : RespClient) (n : Nat) : RespClient :=
  { c with parsed := c.parsed ++ c.unread.take n, unread := c.unread.drop n }

/-- The calls of `recv` that are left. -/
def recvs (c : RespClient) : List Recv := c.socket.elim [] Socket.recvs

/-- Every round but the last takes bytes from the connection. -/
def readLineLoop : Nat → RespClient → Except String Bytes × RespClient
  | 0, c        => c.fail "connection closed by peer"
  | rounds + 1, c =>
    match cutPair cr lf c.unread with
    | some (line, _) => (.ok line, c.consume (line.length + 2))
    | none           =>
      match c.fill (c.unread.length + 1) with
      | (.ok _, c)    => readLineLoop rounds c
      | (.error e, c) => (.error e, c)

/-- One line, without its end. -/
def readLine (c : RespClient) : Except String Bytes × RespClient :=
  readLineLoop (c.recvs.length + 1) c

/-- What the first line of a reply says: all of it, or what follows. -/
inductive Header
  | whole (r : Reply)
  | bulk (len : Nat)
  | array (n : Nat)

/-- The length behind a tag. A negative one says that there is nothing. -/
def lengthHeader (limit : Int) (what : String) (follows : Nat → Header) (rest : Bytes) :
    Except String Header :=
  match parseLl rest with
  | none   => .error what
  | some n =>
    if limit < n then .error what
    else if n < 0 then .ok (.whole .nil)
    else .ok (follows n.toNat)

def header : Bytes → Except String Header
  | []          => .error "protocol error: empty line"
  | tag :: rest =>
    if tag = '+'.toUInt8 then .ok (.whole (.simple rest))
    else if tag = '-'.toUInt8 then .ok (.whole (.err rest))
    else if tag = ':'.toUInt8 then
      match parseLl rest with
      | none   => .error "protocol error: bad integer"
      | some n => .ok (.whole (.integer n))
    else if tag = '$'.toUInt8 then
      lengthHeader kMaxBulk "protocol error: bad bulk length" .bulk rest
    else if tag = '*'.toUInt8 then
      lengthHeader kMaxArray "protocol error: bad array length" .array rest
    else .error "protocol error: unknown reply tag"

/-- That many replies, one behind the other. -/
def readMany (read : RespClient → Except String Reply × RespClient) :
    Nat → RespClient → Except String (List Reply) × RespClient
  | 0, c     => (.ok [], c)
  | n + 1, c =>
    match read c with
    | (.error e, c) => (.error e, c)
    | (.ok r, c)    =>
      match readMany read n c with
      | (.error e, c) => (.error e, c)
      | (.ok rs, c)   => (.ok (r :: rs), c)

/-- A reply whose arrays are nested to the depth at most. -/
def readReplyLoop : Nat → RespClient → Except String Reply × RespClient
  | 0, c         => c.fail "protocol error: nested too deeply"
  | depth + 1, c =>
    match c.readLine with
    | (.error e, c) => (.error e, c)
    | (.ok line, c) =>
      match header line with
      | .error e         => c.fail e
      | .ok (.whole r)   => (.ok r, c)
      | .ok (.bulk len)  =>
        match c.fill (len + 2) with
        | (.error e, c) => (.error e, c)
        | (.ok _, c)    => (.ok (.bulk (c.unread.take len)), c.consume (len + 2))
      | .ok (.array n)   =>
        match readMany (readReplyLoop depth) n c with
        | (.error e, c) => (.error e, c)
        | (.ok rs, c)   => (.ok (.array rs), c)

/-- The bytes that the calls of `recv` give until the connection ends or fails. -/
def arriving : List Recv → Bytes
  | []                       => []
  | .data [] :: _            => []
  | .data (b :: bs) :: recvs => b :: bs ++ arriving recvs
  | .interrupted :: recvs    => arriving recvs
  | .failed _ :: _           => []

/-- The bytes that have not been parsed, received or not. -/
def pending (c : RespClient) : Bytes := c.unread ++ arriving c.recvs

/-- Every array takes a byte of its own, so there are no more of them than bytes. -/
def readReply (c : RespClient) : Except String Reply × RespClient :=
  readReplyLoop (c.pending.length + 1) c

/-- A new connection, given what the attempt at one gives, unless there is one. -/
def connect (c : RespClient) (attempt : Except String Socket) : Except String Unit × RespClient :=
  match c.socket, attempt with
  | some _, _        => (.ok (), c)
  | none, .ok socket => (.ok (), { socket := some socket })
  | none, .error e   => c.fail e

/-- A command and its reply. The parsed part of the buffer is dropped behind a reply. -/
def command (c : RespClient) (attempt : Except String Socket) (args : List Bytes) :
    Except String Reply × RespClient :=
  match c.connect attempt with
  | (.error e, c) => (.error e, c)
  | (.ok _, c)    =>
    match c.sendCommand args with
    | (.error e, c) => (.error e, c)
    | (.ok _, c)    =>
      match c.readReply with
      | (.error e, c) => (.error e, c)
      | (.ok r, c)    => (.ok r, { c with parsed := [] })

end RespClient

end HftBot.Resp
