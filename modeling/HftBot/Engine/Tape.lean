import HftBot.Core.Interleaving
import HftBot.Engine.Frames
import HftBot.Engine.Poller
import HftBot.Resp.Connections
import HftBot.Resp.Subscription

/-!
# Event tape

From the poller of `ingestd` over a publisher, a broker and a subscriber to a recorded tape. Every
connection may break anywhere, and no party keeps a message for another one. What gets through are
events of the poller, unchanged and each at most once, and their numbers show what did not. What the
broker does is not known here but for what is assumed of it.
-/

namespace HftBot

open HftBot.Core HftBot.Core.Utf8 HftBot.Wire HftBot.Poller HftBot.Resp
  HftBot.Resp.RespClient HftBot.Storage

namespace Resp

/-- The number that a reply is to be. -/
def integerReply (name : String) : Reply → Except String Int
  | .integer n => .ok n
  | r          => .error (name ++ " error: " ++ String.ofList (r.str.map fun b => .ofNat b.toNat))

def Reply.isInteger : Reply → Bool
  | .integer _ => true
  | _          => false

def RespClient.publish (c : RespClient) (attempt : Except String Socket)
    (channel message : Bytes) : Except String Int × RespClient :=
  match c.command attempt [ascii "PUBLISH", channel, message] with
  | (.error e, c) => (.error e, c)
  | (.ok r, c)    => (integerReply "PUBLISH" r, c)

end Resp

namespace Tape

def kEventChannel : Bytes := ascii "md:events"

/-- An event to be published, and what an attempt to connect gives if there is one. -/
structure Publication where
  event   : MarketEvent
  attempt : Except String Socket

/-- A call of `TapePublisher`. -/
def publish (c : RespClient) (p : Publication) : RespClient :=
  match c.publish p.attempt kEventChannel p.event.asBytes with
  | (.ok _, c)    => c
  | (.error _, c) => c.close

/-- The command of a publication. -/
def Publication.request (p : Publication) : Resp.Request where
  args    := [ascii "PUBLISH", kEventChannel, p.event.asBytes]
  attempt := p.attempt

lemma publish_eq_issue (c : RespClient) (p : Publication) :
    publish c p = c.issue Resp.Reply.isInteger p.request := by
  rw [publish, RespClient.publish, issue, Publication.request]
  dsimp only
  cases c.command p.attempt [ascii "PUBLISH", kEventChannel, p.event.asBytes] with
  | mk result c' =>
    cases result with
    | error e => rfl
    | ok r => cases r <;> rfl

/-- The connections of a publisher. -/
def connections : RespClient → Connection → List Publication → List Connection
  | _, k, []      => [k]
  | c, k, p :: ps =>
    match c.socket, p.attempt with
    | some s, _      => connections (publish c p) (k.add s p.request.args) ps
    | none, .ok s    => k :: connections (publish c p) (({} : Connection).add s p.request.args) ps
    | none, .error _ => connections (publish c p) k ps

lemma connections_eq (c : RespClient) (k : Connection) (ps : List Publication) :
    connections c k ps =
      Connection.connections Resp.Reply.isInteger c k (ps.map Publication.request) := by
  induction ps generalizing c k with
  | nil => rfl
  | cons p ps ih =>
    simp only [connections, Connection.connections, List.map_cons, publish_eq_issue, ih]
    rfl

/-! ### The broker -/

/-- What the subscribers of a channel get for a command. -/
def relay (channel : Bytes) : List Bytes → Option Resp.Reply
  | [name, name', text] =>
    if name = ascii "PUBLISH" ∧ name' = channel then
      some (.array [.bulk (ascii "message"), .bulk channel, .bulk text])
    else none
  | _ => none

/-- What is relied on of a broker on which there is no other publisher of the channel. It executes
what it hears on each connection in order, between the connections in any order, and what it pushes
to a subscriber are some of the messages, each at most once and in the order of execution. -/
structure Relays (channel : Bytes) (heard : List (List (List Bytes))) (executed : List (List Bytes))
    (pushed : List Resp.Reply) : Prop where
  executes : Interleaves heard executed
  pushes   : pushed.Sublist (executed.filterMap (relay channel))

/-- The broker is done with a connection before it takes up the next one. A publisher that gives up
waiting for a reply and connects again does not make sure of that. -/
def InTurn (heard : List (List (List Bytes))) (executed : List (List Bytes)) : Prop :=
  executed = heard.flatten

/-- The message that a subscriber gets of an event. -/
def push (e : MarketEvent) : Resp.Reply :=
  .array [.bulk (ascii "message"), .bulk kEventChannel, .bulk e.asBytes]

/-- The events among the messages that a subscriber has been handed. -/
def recorded (messages : List Bytes) : List MarketEvent := messages.filterMap decodeEvent

lemma decodeEvent_asBytes {e : MarketEvent} (h : Marked e) : decodeEvent e.asBytes = some e :=
  decodeEvent_eq_some_iff.2 ⟨rfl, h⟩

lemma relay_request (p : Publication) :
    relay kEventChannel p.request.args = some (push p.event) := by
  simp [relay, Publication.request, push]

lemma message_push (e : MarketEvent) : (push e).message = some e.asBytes := by
  simp [push, Resp.Reply.message, Resp.Reply.str]

lemma encodable_push (e : MarketEvent) : Resp.Encodable .client (push e) := by
  have hlength : e.asBytes.length ≤ 100 := by
    rw [e.length_asBytes]
    decide
  exact encodable_three (encodable_bulk (by decide)) (encodable_bulk (by decide))
    (encodable_bulk hlength)

/-- The messages of publications are those of their events. -/
lemma filterMap_relay (ps : List Publication) :
    (ps.map (·.request.args)).filterMap (relay kEventChannel) = (ps.map (·.event)).map push := by
  have hrelay : relay kEventChannel ∘ (fun p : Publication => p.request.args) =
      some ∘ push ∘ fun p => p.event :=
    funext relay_request
  rw [List.filterMap_map, hrelay, List.filterMap_eq_map, List.map_map]

/-- From the messages of events the events are recorded. -/
lemma recorded_push {es : List MarketEvent} (h : ∀ e ∈ es, Marked e) :
    recorded ((es.map push).filterMap Resp.Reply.message) = es := by
  rw [recorded, List.filterMap_filterMap, List.filterMap_map]
  refine (List.filterMap_congr fun e he => ?_).trans List.filterMap_some
  rw [Function.comp_apply, message_push, Option.bind_some, decodeEvent_asBytes (h e he)]

section

variable {ps : List Publication} {heard : List (List (List Bytes))} {executed : List (List Bytes)}
  {pushed : List Resp.Reply}

/-- What the broker hears, one connection behind the other, are some of the publications. -/
lemma sublist_heard (hheard : List.Forall₂ Connection.Heard (connections {} {} ps) heard) :
    heard.flatten.Sublist (ps.map (·.request.args)) := by
  rw [connections_eq] at hheard
  have hsub := Connection.sublist_of_heard hheard
  rwa [List.map_map] at hsub

/-- What is pushed are messages of events, each at most once. -/
lemma subperm_pushed (hheard : List.Forall₂ Connection.Heard (connections {} {} ps) heard)
    (hbroker : Relays kEventChannel heard executed pushed) :
    pushed.Subperm ((ps.map (·.event)).map push) := by
  have hexecuted : executed.Subperm (ps.map (·.request.args)) :=
    hbroker.executes.perm.subperm_right.2 (sublist_heard hheard).subperm
  rw [← filterMap_relay]
  exact hbroker.pushes.subperm.trans (subperm_filterMap _ hexecuted)

/-- If the broker takes the connections in turn, they come in order. -/
lemma sublist_pushed (hheard : List.Forall₂ Connection.Heard (connections {} {} ps) heard)
    (hbroker : Relays kEventChannel heard executed pushed) (hturn : InTurn heard executed) :
    pushed.Sublist ((ps.map (·.event)).map push) := by
  have hpushes := hbroker.pushes
  rw [hturn] at hpushes
  rw [← filterMap_relay]
  exact hpushes.trans ((sublist_heard hheard).filterMap _)

/-! ### The tape -/

/-- What a subscriber records are events of the poller, unchanged and each at most once, wherever
the connections of the two broke. Every event stands in the poller's run where its number says, so
what was recorded without a gap in the numbers was emitted without a gap. From a broker that takes
the publisher's connections in turn the events come in order. -/
theorem tape_keeps_order {answers : List Poller.Answer} {ack : Resp.Reply} {s : Socket}
    (hevents : ps.map (·.event) = runPoll {} answers)
    (hsmall : (runPoll {} answers).length < 2 ^ 64)
    (hheard : List.Forall₂ Connection.Heard (connections {} {} ps) heard)
    (hbroker : Relays kEventChannel heard executed pushed)
    (hack : Resp.Encodable .client ack) (hacknowledges : ack.acknowledges)
    (harriving : arriving s.recvs <+: encodeAll (ack :: pushed)) :
    (∃ e, subscribe {} (.ok s) kEventChannel = (.error e, {})) ∨
      ∃ c, subscribe {} (.ok s) kEventChannel = (.ok (), c) ∧ ∀ polls tape,
        tape = recorded (handed (c.nextMessages polls).1) →
          tape.Subperm (runPoll {} answers) ∧
          (∀ e ∈ tape, (runPoll {} answers)[e.seq.toNat - 1]? = some e) ∧
          (∀ k m, tape.map (·.seq.toNat) = List.range' (1 + k) m →
            tape = ((runPoll {} answers).drop k).take m) ∧
          (InTurn heard executed →
            tape.Sublist (runPoll {} answers) ∧ (tape.map (·.seq.toNat)).Pairwise (· < ·)) := by
  obtain ⟨s', hemits⟩ := emits_runPoll {} answers
  have hsubperm := subperm_pushed hheard hbroker
  rw [hevents] at hsubperm
  have hread : ∀ r ∈ pushed, Resp.Encodable .client r := by
    intro r hr
    obtain ⟨e, -, rfl⟩ := List.mem_map.1 (hsubperm.subset hr)
    exact encodable_push e
  have hnumbers := numbers_runPoll hsmall
  have hall := recorded_push hemits.mark
  refine (subscribe_cases kEventChannel hack hacknowledges harriving).imp id ?_
  rintro ⟨c, hok, hpending, -⟩
  refine ⟨c, hok, ?_⟩
  rintro polls _ rfl
  obtain ⟨done, rest, hdone, hhanded, -⟩ := nextMessages_inStep hread hpending polls
  have hfirst : done.Sublist pushed := hdone ▸ List.sublist_append_left done rest
  rw [hhanded]
  have hsub : (recorded (done.filterMap Resp.Reply.message)).Subperm (runPoll {} answers) := by
    rw [← hall]
    exact subperm_filterMap _ (subperm_filterMap _ (hfirst.subperm.trans hsubperm))
  refine ⟨hsub, fun e he => ?_, fun k m hrange => ?_, fun hturn => ?_⟩
  · exact (getElem?_of_numbers hnumbers (hsub.subset he)).2
  · exact eq_piece_of_numbers hsub.subset hnumbers hrange
  · have hinorder := sublist_pushed hheard hbroker hturn
    rw [hevents] at hinorder
    have hpart : (recorded (done.filterMap Resp.Reply.message)).Sublist (runPoll {} answers) := by
      rw [← hall]
      exact ((hfirst.trans hinorder).filterMap _).filterMap _
    exact ⟨hpart, pairwise_numbers hpart hnumbers⟩

end

/-- Three events: on the first connection two of them, of which one is never answered, and on the
second one the beginning of the third one. -/
def threeEvents : List Publication :=
  let first  : Socket := ⟨[.data (ascii ":0\r\n")], [], []⟩
  let second : Socket := ⟨[], [.accepted 10, .failed "Broken pipe"], []⟩
  List.zipWith .mk (runPoll {} twoRounds) [.ok first, .error "refused", .ok second]

/-- A subscriber that comes when the first of them is over. -/
def lateSubscriber : Socket where
  recvs := [.data (ascii "*3\r\n$9\r\nsubscribe\r\n$9\r\nmd:events\r\n:1\r\n"),
    .data (encodeAll ((((runPoll {} twoRounds).drop 1).take 1).map push))]
  sends := []

theorem tape_keeps_order_late :
    (∃ e, subscribe {} (.ok lateSubscriber) kEventChannel = (.error e, {})) ∨
      ∃ c, subscribe {} (.ok lateSubscriber) kEventChannel = (.ok (), c) ∧ ∀ polls,
        (recorded (handed (c.nextMessages polls).1)).Sublist (runPoll {} twoRounds) := by
  have hheard : List.Forall₂ Connection.Heard (connections {} {} threeEvents)
      [[], (threeEvents.take 2).map (·.request.args), []] := by
    decide +kernel
  have hack : Resp.Encodable .client
      (.array [.bulk (ascii "subscribe"), .bulk kEventChannel, .integer 1]) :=
    encodable_three (encodable_bulk (by decide)) (encodable_bulk (by decide)) (.integer (by decide))
  have hevents : threeEvents.map (·.event) = runPoll {} twoRounds := rfl
  have hbroker : Relays kEventChannel [[], (threeEvents.take 2).map (·.request.args), []]
      [[], (threeEvents.take 2).map (·.request.args), []].flatten
      ((((runPoll {} twoRounds).drop 1).take 1).map push) := by
    refine ⟨.flatten _, ?_⟩
    have hflatten : [[], (threeEvents.take 2).map (·.request.args), []].flatten =
        (threeEvents.take 2).map (·.request.args) := by
      simp
    have htwo : (threeEvents.take 2).map (·.event) = (runPoll {} twoRounds).take 2 := by
      rw [List.map_take, hevents]
    rw [hflatten, filterMap_relay, htwo, List.take_drop]
    exact (List.drop_sublist _ _).map _
  have harriving : arriving lateSubscriber.recvs <+: encodeAll
      (.array [.bulk (ascii "subscribe"), .bulk kEventChannel, .integer 1] ::
        (((runPoll {} twoRounds).drop 1).take 1).map push) := by
    decide +kernel
  have hsmall : (runPoll {} twoRounds).length < 2 ^ 64 := by decide +kernel
  refine (tape_keeps_order hevents hsmall hheard hbroker hack rfl harriving).imp id ?_
  rintro ⟨c, hok, htape⟩
  exact ⟨c, hok, fun polls => ((htape polls _ rfl).2.2.2 rfl).1⟩

end Tape

end HftBot
