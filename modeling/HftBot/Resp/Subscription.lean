import HftBot.Resp.Session

/-!
# Subscriptions

A client that has subscribed is handed the messages of its channel one by one. What arrives together
with the answer to `SUBSCRIBE`, or together with an earlier message, is kept in the buffer and comes
before anything that is still on its way.
-/

namespace HftBot.Resp

open HftBot.Core HftBot.Core.Utf8 HftBot.Storage

/-- What a call of `poll` gives. -/
inductive Poll
  | ready
  | timedOut
  | interrupted
  | failed (reason : String)

def Poll.isReady : Poll → Bool
  | .ready => true
  | _      => false

/-- The text of a reply, which has none if it is a number, nothing or an array. -/
def Reply.str : Reply → Bytes
  | .simple str => str
  | .err str    => str
  | .bulk str   => str
  | .integer _  => []
  | .nil        => []
  | .array _    => []

/-- Whether a reply says that the client has subscribed. -/
def Reply.acknowledges : Reply → Bool
  | .array (kind :: _) => kind.str == ascii "subscribe"
  | _                  => false

/-- What a reply has for a subscriber: the third part of a message. -/
def Reply.message : Reply → Option Bytes
  | .array [kind, _, .bulk str] => if kind.str = ascii "message" then some str else none
  | _                           => none

namespace RespClient

def subscribe (c : RespClient) (attempt : Except String Socket) (channel : Bytes) :
    Except String Unit × RespClient :=
  match c.command attempt [ascii "SUBSCRIBE", channel] with
  | (.error e, c) => (.error e, c)
  | (.ok r, c)    =>
    if r.acknowledges then (.ok (), c) else (.error "unexpected SUBSCRIBE reply", c)

/-- The message of the next reply. The parsed part of the buffer is dropped behind it. -/
def takeMessage (c : RespClient) : Except String (Option Bytes) × RespClient :=
  match c.readReply with
  | (.error e, c) => (.error e, c)
  | (.ok r, c)    => (.ok r.message, { c with parsed := [] })

/-- A reply that has begun to arrive is read without asking whether there is more. -/
def nextMessage (c : RespClient) (poll : Poll) : Except String (Option Bytes) × RespClient :=
  match c.socket with
  | none   => (.error "not connected", c)
  | some _ =>
    if c.unread = [] then
      match poll with
      | .failed reason => c.fail ("poll: " ++ reason)
      | .interrupted   => (.ok none, c)
      | .timedOut      => (.ok none, c)
      | .ready         => c.takeMessage
    else c.takeMessage

/-- What the calls return, and the client behind them. -/
def nextMessages : RespClient → List Poll → List (Except String (Option Bytes)) × RespClient
  | c, []            => ([], c)
  | c, poll :: polls =>
    let next := c.nextMessage poll
    ((next.1 :: (nextMessages next.2 polls).1), (nextMessages next.2 polls).2)

/-- The messages among what the calls return. -/
def handed (outcomes : List (Except String (Option Bytes))) : List Bytes :=
  outcomes.filterMap fun outcome => outcome.toOption.join

variable {c c' : RespClient}

lemma handed_cons (outcome : Except String (Option Bytes))
    (outcomes : List (Except String (Option Bytes))) :
    handed (outcome :: outcomes) = outcome.toOption.join.toList ++ handed outcomes := by
  cases h : outcome.toOption.join <;> simp [handed, h]

/-! ### One message -/

lemma not_frames_nil {lim : Limits} {r : Reply} {ms : List Mark} : ¬ Frames lim [] [r] ms := by
  generalize hb : ([] : Bytes) = b
  intro h
  cases h <;> simp at hb

/-- A reply is taken from the front of what was pushed, or none is. -/
lemma takeMessage_inStep {pushes : List Reply} (hpushes : ∀ r ∈ pushes, Encodable .client r)
    (hpending : c.pending <+: encodeAll pushes) :
    (∃ e, c.takeMessage = (.error e, {})) ∨
      ∃ r rest c', pushes = r :: rest ∧ c.takeMessage = (.ok r.message, c') ∧
        c'.pending <+: encodeAll rest := by
  rw [takeMessage]
  obtain ⟨e, herror⟩ | ⟨r, c', b, ms, hread, hframe, htook⟩ := readReply_cases c
  · exact .inl ⟨e, by simp only [herror]⟩
  cases pushes with
  | nil =>
    rw [encodeAll, List.prefix_nil, htook.2] at hpending
    rw [(List.append_eq_nil_iff.1 hpending).1] at hframe
    exact absurd hframe not_frames_nil
  | cons push rest =>
    obtain ⟨rfl, hrest⟩ := readReply_inStep (List.forall_mem_cons.1 hpushes).1 hpending hread
    exact .inr ⟨r, rest, { c' with parsed := [] }, rfl, by simp only [hread], hrest⟩

/-- A call takes a reply from the front of what was pushed and hands out its message, or it takes
none and hands out nothing. -/
lemma nextMessage_inStep {pushes : List Reply} (hpushes : ∀ r ∈ pushes, Encodable .client r)
    (hpending : c.pending <+: encodeAll pushes) (poll : Poll) :
    ∃ done rest, pushes = done ++ rest ∧ (c.nextMessage poll).2.pending <+: encodeAll rest ∧
      (c.nextMessage poll).1.toOption.join.toList = done.filterMap Reply.message := by
  have htake : ∃ done rest, pushes = done ++ rest ∧
      c.takeMessage.2.pending <+: encodeAll rest ∧
      c.takeMessage.1.toOption.join.toList = done.filterMap Reply.message := by
    obtain ⟨e, herror⟩ | ⟨r, rest, c', rfl, hok, hrest⟩ := takeMessage_inStep hpushes hpending
    · refine ⟨[], pushes, rfl, ?_, ?_⟩
      · rw [herror]
        exact List.nil_prefix
      · rw [herror]
        rfl
    · refine ⟨[r], rest, rfl, by rwa [hok], ?_⟩
      rw [hok]
      cases hmessage : r.message <;> simp [Except.toOption, hmessage]
  rw [nextMessage.eq_def]
  cases c.socket with
  | none => exact ⟨[], pushes, rfl, hpending, rfl⟩
  | some s =>
    dsimp only
    split_ifs
    · cases poll with
      | ready => exact htake
      | timedOut => exact ⟨[], pushes, rfl, hpending, rfl⟩
      | interrupted => exact ⟨[], pushes, rfl, hpending, rfl⟩
      | failed reason => exact ⟨[], pushes, rfl, List.nil_prefix, rfl⟩
    · exact htake

/-! ### Runs -/

lemma nextMessages_inStep {pushes : List Reply} (hpushes : ∀ r ∈ pushes, Encodable .client r)
    (hpending : c.pending <+: encodeAll pushes) (polls : List Poll) :
    ∃ done rest, pushes = done ++ rest ∧
      handed (c.nextMessages polls).1 = done.filterMap Reply.message ∧
      (c.nextMessages polls).2.pending <+: encodeAll rest := by
  induction polls generalizing c pushes with
  | nil => exact ⟨[], pushes, rfl, rfl, hpending⟩
  | cons poll polls ih =>
    obtain ⟨done, rest, rfl, hnext, hone⟩ := nextMessage_inStep hpushes hpending poll
    obtain ⟨done', rest', rfl, hmore, hlast⟩ :=
      ih (fun r hr => hpushes r (List.mem_append_right _ hr)) hnext
    refine ⟨done ++ done', rest', (List.append_assoc _ _ _).symm, ?_, hlast⟩
    rw [nextMessages, handed_cons, hone, hmore, List.filterMap_append]

lemma isSome_of_sending (h : c'.sending = c.sending) : c'.socket.isSome = c.socket.isSome := by
  have hsame := congrArg Option.isSome h
  rwa [sending, sending, Option.isSome_map, Option.isSome_map] at hsame

lemma isSome_sendCommand {args : List Bytes} (hsocket : c.socket.isSome)
    (h : c.sendCommand args = (.ok (), c')) : c'.socket.isSome := by
  obtain ⟨s, hs⟩ := Option.isSome_iff_exists.1 hsocket
  rw [sendCommand, writeAll, hs] at h
  dsimp only at h
  cases hsend : sendAll s.sends s.sent (commandBytes args) with
  | error e =>
    rw [hsend] at h
    cases h
  | ok result =>
    rw [hsend] at h
    rw [← (Prod.mk.inj h).2]
    rfl

/-- A reply that has arrived in full is taken by a client that knows that there is something. -/
lemma takeMessage_arrived {r : Reply} {rest : List Reply} (hr : Encodable .client r)
    (hsocket : c.socket.isSome) (hpending : c.pending = encodeAll (r :: rest)) :
    ∃ c', c.takeMessage = (.ok r.message, c') ∧ c'.socket.isSome ∧
      c'.pending = encodeAll rest := by
  rw [encodeAll] at hpending
  obtain ⟨c', hread, -, hrest⟩ := readReply_encode hr hpending
  have hsending : c'.sending = c.sending := readReplyLoop_sending hread
  refine ⟨{ c' with parsed := [] }, by simp only [takeMessage, hread], ?_, hrest⟩
  change c'.socket.isSome
  rw [isSome_of_sending hsending, hsocket]

/-- A call that is told that there is something takes the next reply. Another one may. -/
lemma nextMessage_arrived {r : Reply} {rest : List Reply} (hr : Encodable .client r)
    (hsocket : c.socket.isSome) (hpending : c.pending = encodeAll (r :: rest)) {poll : Poll}
    (hpoll : ∀ reason, poll ≠ .failed reason) :
    (¬ poll.isReady ∧ c.nextMessage poll = (.ok none, c)) ∨
      ∃ c', c.nextMessage poll = (.ok r.message, c') ∧ c'.socket.isSome ∧
        c'.pending = encodeAll rest := by
  have htake := takeMessage_arrived hr hsocket hpending
  obtain ⟨s, hs⟩ := Option.isSome_iff_exists.1 hsocket
  rw [nextMessage.eq_def, hs]
  dsimp only
  split_ifs
  · cases poll with
    | ready => exact .inr htake
    | timedOut => exact .inl ⟨Bool.false_ne_true, rfl⟩
    | interrupted => exact .inl ⟨Bool.false_ne_true, rfl⟩
    | failed reason => exact absurd rfl (hpoll reason)
  · exact .inr htake

lemma nextMessages_arrived {pushes : List Reply} (hpushes : ∀ r ∈ pushes, Encodable .client r)
    (hsocket : c.socket.isSome) (hpending : c.pending = encodeAll pushes) {polls : List Poll}
    (hpolls : ∀ poll ∈ polls, ∀ reason, poll ≠ .failed reason)
    (henough : pushes.length ≤ polls.countP Poll.isReady) :
    handed (c.nextMessages polls).1 = pushes.filterMap Reply.message := by
  induction polls generalizing c pushes with
  | nil =>
    obtain rfl := List.eq_nil_of_length_eq_zero (Nat.le_zero.1 henough)
    rfl
  | cons poll polls ih =>
    obtain ⟨hpoll, hpolls⟩ := List.forall_mem_cons.1 hpolls
    cases pushes with
    | nil =>
      -- nothing is left to be handed out
      have hprefix : c.pending <+: encodeAll [] := by rw [hpending]
      obtain ⟨done, rest, hnil, hhanded, -⟩ :=
        nextMessages_inStep hpushes hprefix (poll :: polls)
      rw [hhanded, (List.nil_eq_append_iff.1 hnil).1]
    | cons r rest =>
      obtain ⟨hr, hrest⟩ := List.forall_mem_cons.1 hpushes
      obtain ⟨hlater, hsame⟩ | ⟨c', hnow, hsocket', hpending'⟩ :=
        nextMessage_arrived hr hsocket hpending hpoll
      · rw [List.countP_cons_of_neg hlater] at henough
        rw [nextMessages, hsame, handed_cons, ih hpushes hsocket hpending hpolls henough]
        rfl
      · have hfewer : rest.length ≤ polls.countP Poll.isReady := by
          rw [List.length_cons, List.countP_cons] at henough
          split_ifs at henough <;> omega
        rw [nextMessages, hnow, handed_cons, ih hrest hsocket' hpending' hpolls hfewer]
        cases hmessage : r.message <;> simp [Except.toOption, hmessage]

/-- A client that has subscribed has everything before it that was pushed behind the answer. -/
lemma subscribe_cases {ack : Reply} {pushes : List Reply} {s : Socket} (channel : Bytes)
    (hack : Encodable .client ack) (hacknowledges : ack.acknowledges)
    (harriving : arriving s.recvs <+: encodeAll (ack :: pushes)) :
    (∃ e, subscribe {} (.ok s) channel = (.error e, {})) ∨
      ∃ c, subscribe {} (.ok s) channel = (.ok (), c) ∧ c.pending <+: encodeAll pushes ∧
        (arriving s.recvs = encodeAll (ack :: pushes) →
          c.socket.isSome ∧ c.pending = encodeAll pushes) := by
  obtain ⟨e, herror⟩ | ⟨r, c₁, c₂, c₃, hconnect, hsend, hread, hcommand⟩ :=
    command_cases {} (.ok s) [ascii "SUBSCRIBE", channel]
  · exact .inl ⟨e, by simp only [subscribe, herror]⟩
  obtain rfl : c₁ = { socket := some s } := (Prod.mk.inj hconnect).2.symm
  obtain ⟨-, hsame, -⟩ := sendCommand_ok hsend
  have hstream : c₂.pending = arriving s.recvs := by
    rw [hsame]
    exact List.nil_append _
  obtain ⟨rfl, hrest⟩ := readReply_inStep hack (hstream ▸ harriving) hread
  have hok : subscribe {} (.ok s) channel = (.ok (), { c₃ with parsed := [] }) := by
    simp only [subscribe, hcommand, hacknowledges, ↓reduceIte]
  refine .inr ⟨_, hok, hrest, fun hall => ⟨?_, ?_⟩⟩
  · change c₃.socket.isSome
    rw [isSome_of_sending (readReplyLoop_sending hread)]
    exact isSome_sendCommand rfl hsend
  · have hwhole : c₂.pending = encode r ++ encodeAll pushes := by
      rw [hstream, hall, encodeAll]
    obtain ⟨c', hread', -, hrest'⟩ := readReply_encode hack hwhole
    obtain rfl : c₃ = c' := (Prod.mk.inj (hread.symm.trans hread')).2
    exact hrest'

/-- A client that has subscribed hands out the messages of a first part of what was pushed behind
the answer, each of them once and in order, and it still has all of the rest before it or has been
closed. It hands out every one if all arrive and it is told so often enough. -/
theorem messages_in_order {ack : Reply} {pushes : List Reply} {s : Socket} (channel : Bytes)
    (hack : Encodable .client ack) (hacknowledges : ack.acknowledges)
    (hpushes : ∀ r ∈ pushes, Encodable .client r)
    (harriving : arriving s.recvs <+: encodeAll (ack :: pushes)) :
    (∃ e, subscribe {} (.ok s) channel = (.error e, {})) ∨
      ∃ c, subscribe {} (.ok s) channel = (.ok (), c) ∧ ∀ polls,
        (∃ done rest, pushes = done ++ rest ∧
          handed (c.nextMessages polls).1 = done.filterMap Reply.message ∧
          (c.nextMessages polls).2.pending <+: encodeAll rest) ∧
        (arriving s.recvs = encodeAll (ack :: pushes) →
          (∀ poll ∈ polls, ∀ reason, poll ≠ .failed reason) →
          pushes.length ≤ polls.countP Poll.isReady →
            handed (c.nextMessages polls).1 = pushes.filterMap Reply.message) := by
  obtain herror | ⟨c, hok, hpending, hall⟩ := subscribe_cases channel hack hacknowledges harriving
  · exact .inl herror
  · refine .inr ⟨c, hok, fun polls => ⟨nextMessages_inStep hpushes hpending polls, ?_⟩⟩
    intro harrived hpolls henough
    obtain ⟨hsocket, hwhole⟩ := hall harrived
    exact nextMessages_arrived hpushes hsocket hwhole hpolls henough

/-- A reply of three parts, as the ones to a subscriber are. -/
lemma encodable_three {x y z : Reply} (hx : Encodable .client x) (hy : Encodable .client y)
    (hz : Encodable .client z) : Encodable .client (.array [x, y, z]) := by
  have hthree : Limits.client.array (3 : Nat) := ⟨by decide, by decide⟩
  refine .array hthree ?_
  simp only [List.forall_mem_cons]
  exact ⟨hx, hy, hz, nofun⟩

lemma encodable_bulk {str : Bytes} (h : str.length ≤ 100) : Encodable .client (.bulk str) := by
  refine .bulk ⟨?_, ?_⟩
  · rw [InInt64]
    omega
  · rw [kMaxBulk]
    omega

def messageReply (text : Bytes) : Reply :=
  .array [.bulk (ascii "message"), .bulk (ascii "c"), .bulk text]

/-- The first message comes together with the answer to `SUBSCRIBE`, the second one in two pieces. -/
def twoMessages : Socket :=
  ⟨[.data (ascii "*3\r\n$9\r\nsubscribe\r\n$1\r\nc\r\n:1\r\n" ++
      ascii "*3\r\n$7\r\nmessage\r\n$1\r\nc\r\n$1\r\nx\r\n"),
    .data (ascii "*3\r\n$7\r\nmess"), .data (ascii "age\r\n$1\r\nc\r\n$0\r\n\r\n")], [], []⟩

theorem messages_in_order_two :
    (∃ e, subscribe {} (.ok twoMessages) (ascii "c") = (.error e, {})) ∨
      ∃ c, subscribe {} (.ok twoMessages) (ascii "c") = (.ok (), c) ∧
        handed (c.nextMessages [.timedOut, .ready, .interrupted, .ready]).1 = [ascii "x", []] := by
  have hack : Encodable .client
      (.array [.bulk (ascii "subscribe"), .bulk (ascii "c"), .integer 1]) :=
    encodable_three (encodable_bulk (by decide)) (encodable_bulk (by decide)) (.integer (by decide))
  have hpushes : ∀ r ∈ [messageReply (ascii "x"), messageReply []], Encodable .client r := by
    rw [List.forall_mem_cons, List.forall_mem_singleton]
    constructor <;>
    · apply encodable_three
      all_goals exact encodable_bulk (by decide)
  have harriving : arriving twoMessages.recvs = encodeAll
      (.array [.bulk (ascii "subscribe"), .bulk (ascii "c"), .integer 1] ::
        [messageReply (ascii "x"), messageReply []]) := by
    decide +kernel
  refine (messages_in_order (ascii "c") hack rfl hpushes (harriving ▸ List.prefix_refl _)).imp id ?_
  rintro ⟨c, hok, hruns⟩
  refine ⟨c, hok, ((hruns _).2 harriving ?_ (by decide)).trans (by decide)⟩
  simp

end RespClient

end HftBot.Resp
