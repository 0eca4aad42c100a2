import HftBot.Feed.OrderBookManager

/-!
# The server's side of a feed

An abstract exchange: on every subscription it numbers its messages consecutively, and each market
lives on one subscription. Its book of a market after some of the messages is their fold. The
network loses messages but keeps their order.
-/

namespace HftBot

open Function

/-- One message of a subscription. -/
inductive FeedMsg
  | snapshot (e : EntityId) (yes no : List Level)
  | delta (e : EntityId) (side : Side) (price d : Int)
  | control
deriving DecidableEq

/-- The size the server has at each price of each side. -/
abbrev ServerBook := Side → Int → Int

/-- The size of the last positive entry at that price. -/
def sizeIn (levels : List Level) (price : Int) : Int :=
  levels.foldl (fun n l => if 0 < l.size ∧ l.price = price then l.size else n) 0

namespace FeedMsg

def market : FeedMsg → Option EntityId
  | snapshot e _ _ => some e
  | delta e _ _ _  => some e
  | control        => none

/-- What a message does to the server's book of a market. -/
def effect (e : EntityId) (b : ServerBook) : FeedMsg → ServerBook
  | snapshot e' yes no    =>
    if e' = e then (fun | .yes => sizeIn yes | .no => sizeIn no) else b
  | delta e' side price d =>
    if e' = e then update b side (update (b side) price (b side price + d)) else b
  | control               => b

lemma effect_of_ne {msg : FeedMsg} {e : EntityId} (h : msg.market ≠ some e) (b : ServerBook) :
    msg.effect e b = b := by
  cases msg with
  | snapshot e' yes no => exact if_neg fun heq => h (by rw [market, heq])
  | delta e' side price d => exact if_neg fun heq => h (by rw [market, heq])
  | control => rfl

end FeedMsg

/-- The messages of one connection, with the number of the first one on each subscription. -/
structure Feed where
  first   : Nat → Nat
  msgs    : Nat → List FeedMsg
  home    : EntityId → Nat
  initial : EntityId → ServerBook := fun _ _ _ => 0
  homed   : ∀ sid, ∀ msg ∈ msgs sid, ∀ e ∈ msg.market, home e = sid
  width   : ∀ sid, first sid + (msgs sid).length ≤ 2 ^ 64

namespace Feed

variable (feed : Feed)

/-- The server's book of a market after `n` messages of its subscription. -/
def bookAfter (e : EntityId) (n : Nat) : ServerBook :=
  ((feed.msgs (feed.home e)).take n).foldl (fun b msg => msg.effect e b) (feed.initial e)

/-- The server's book of a market as of a sequence number of its subscription. -/
def bookAsOf (e : EntityId) (seq : Nat) : ServerBook :=
  feed.bookAfter e (seq + 1 - feed.first (feed.home e))

lemma bookAsOf_first_add (e : EntityId) (i : Nat) :
    feed.bookAsOf e (feed.first (feed.home e) + i) = feed.bookAfter e (i + 1) := by
  rw [bookAsOf]
  congr 1
  omega

lemma bookAfter_succ {e : EntityId} {i : Nat} {msg : FeedMsg}
    (h : (feed.msgs (feed.home e))[i]? = some msg) :
    feed.bookAfter e (i + 1) = msg.effect e (feed.bookAfter e i) := by
  rw [bookAfter, List.take_add_one, h, List.foldl_append]
  rfl

end Feed

/-! ### Deliveries -/

/-- The manager is told of a market, or message `i` of a subscription arrives. -/
inductive Arrival
  | bind (e : EntityId)
  | message (sid i : Nat)
deriving DecidableEq

def Arrival.indexOn (sid : Nat) : Arrival → Option Nat
  | bind _      => none
  | message s i => if s = sid then some i else none

/-- What arrives on each subscription is a selection of its messages, in their order. -/
def Delivered (feed : Feed) (arrivals : List Arrival) : Prop :=
  ∀ sid, (arrivals.filterMap (Arrival.indexOn sid)).Pairwise (· < ·) ∧
    ∀ i ∈ arrivals.filterMap (Arrival.indexOn sid), i < (feed.msgs sid).length

/-- One arrival, processed within the given epoch. -/
def Feed.step (feed : Feed) (epoch : Nat) (m : OrderBookManager) : Arrival → OrderBookManager
  | .bind e        => m.bind (feed.home e) epoch e
  | .message sid i =>
    match (feed.msgs sid)[i]? with
    | none                         => m
    | some (.snapshot e yes no)    =>
      m.onSnapshot sid epoch e { yes, no, seq := feed.first sid + i } (feed.first sid + i)
    | some (.delta e side price d) =>
      (m.onDelta sid epoch e side price d (feed.first sid + i)).2
    | some .control                => (m.onControlSeq sid epoch (feed.first sid + i)).2

end HftBot
