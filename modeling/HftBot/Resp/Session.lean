import HftBot.Resp.Protocol

/-!
# Sessions

Calls of a client one after another, over connections that may break anywhere and are opened anew by
the next call. The server answers the commands of a connection in order; how its bytes are cut, how
far they get and how the commands are taken is left open.
-/

namespace HftBot.Resp

open HftBot.Core HftBot.Core.Utf8 HftBot.Core.JsonText HftBot.Storage

/-! ### Commands -/

/-- A command, what an attempt to connect gives if there is one, and what the server answers. -/
structure Call where
  args    : List Bytes
  attempt : Except String Socket
  reply   : Reply

namespace RespClient

/-- What the calls return, and the client behind them. -/
def commands : RespClient → List Call → List (Except String Reply) × RespClient
  | c, []            => ([], c)
  | c, call :: calls =>
    let next := c.command call.attempt call.args
    ((next.1 :: (commands next.2 calls).1), (commands next.2 calls).2)

variable {c c' : RespClient}

lemma pending_connect {attempt : Except String Socket} (h : c.connect attempt = (.ok (), c')) :
    c' = c ∨ (c.socket = none ∧ ∃ s, attempt = .ok s ∧ c' = { socket := some s }) := by
  rw [connect.eq_def] at h
  cases hsocket : c.socket with
  | some s =>
    rw [hsocket] at h
    exact .inl (Prod.mk.inj h).2.symm
  | none =>
    cases attempt with
    | ok s =>
      rw [hsocket] at h
      exact .inr ⟨rfl, s, rfl, (Prod.mk.inj h).2.symm⟩
    | error e =>
      rw [hsocket] at h
      cases h

/-- A command that has been sent leaves what comes next as it is. -/
lemma sendCommand_ok {args : List Bytes} (h : c.sendCommand args = (.ok (), c')) :
    c'.parsed = c.parsed ∧ c'.pending = c.pending ∧ c'.sent = c.sent ++ commandBytes args := by
  refine ⟨?_, ?_, sent_sendCommand h⟩
  all_goals
    obtain ⟨_ | socket, parsed, unread⟩ := c
    · cases h
    · rw [sendCommand, writeAll] at h
      cases hsend : sendAll socket.sends socket.sent (commandBytes args) with
      | error e =>
        simp only [hsend] at h
        cases h
      | ok result =>
        simp only [hsend] at h
        cases h
        rfl

/-- A client that cannot connect is closed. -/
lemma connect_cases (c : RespClient) (attempt : Except String Socket) :
    (∃ e, c.connect attempt = (.error e, {})) ∨ ∃ c', c.connect attempt = (.ok (), c') := by
  rw [connect.eq_def]
  cases c.socket with
  | some s => exact .inr ⟨_, rfl⟩
  | none =>
    cases attempt with
    | ok s => exact .inr ⟨_, rfl⟩
    | error e => exact .inl ⟨_, rfl⟩

lemma sendCommand_cases (c : RespClient) (args : List Bytes) :
    (∃ e, c.sendCommand args = (.error e, {})) ∨ ∃ c', c.sendCommand args = (.ok (), c') := by
  rw [sendCommand, writeAll]
  cases c.socket with
  | none =>
    dsimp only
    split_ifs
    · exact .inr ⟨_, rfl⟩
    · exact .inl ⟨_, rfl⟩
  | some s =>
    dsimp only
    cases sendAll s.sends s.sent (commandBytes args) with
    | error e => exact .inl ⟨_, rfl⟩
    | ok result => exact .inr ⟨_, rfl⟩

/-- A call returns a reply that has been read behind its command, or it closes the client. -/
lemma command_cases (c : RespClient) (attempt : Except String Socket) (args : List Bytes) :
    (∃ e, c.command attempt args = (.error e, {})) ∨
      ∃ r c₁ c₂ c', c.connect attempt = (.ok (), c₁) ∧ c₁.sendCommand args = (.ok (), c₂) ∧
        c₂.readReply = (.ok r, c') ∧
        c.command attempt args = (.ok r, { c' with parsed := [] }) := by
  obtain ⟨e, hconnect⟩ | ⟨c₁, hconnect⟩ := connect_cases c attempt
  · exact .inl ⟨e, by simp only [command, hconnect]⟩
  obtain ⟨e, hsend⟩ | ⟨c₂, hsend⟩ := sendCommand_cases c₁ args
  · exact .inl ⟨e, by simp only [command, hconnect, hsend]⟩
  obtain ⟨e, hread⟩ | ⟨r, c', -, -, hread, -⟩ := readReply_cases c₂
  · exact .inl ⟨e, by simp only [command, hconnect, hsend, hread]⟩
  · exact .inr ⟨r, c₁, c₂, c', hconnect, hsend, hread, by
      simp only [command, hconnect, hsend, hread]⟩

/-- What is read from a beginning of replies is the first of them. -/
lemma readReply_inStep {r r' : Reply} {rs : List Reply} (hr : Encodable .client r)
    (hpending : c.pending <+: encodeAll (r :: rs)) (h : c.readReply = (.ok r', c')) :
    r' = r ∧ c'.pending <+: encodeAll rs := by
  have hnil : Limits.client.bulk (-1) := ⟨by decide, by decide⟩
  obtain ⟨ms, hframe, -⟩ := encodes_encode hnil hr
  obtain ⟨e, herror⟩ | ⟨r'', c'', b, ms', hread, hframe', htook⟩ := readReply_cases c
  · rw [h] at herror
    cases herror
  rw [h] at hread
  obtain ⟨hr'', rfl⟩ := Prod.mk.inj hread
  cases hr''
  obtain ⟨t, ht⟩ := hpending
  have heq : b ++ (c'.pending ++ t) = encode r ++ encodeAll rs := by
    rw [← List.append_assoc, ← htook.2, ht, encodeAll]
  obtain ⟨rfl, hrs, -⟩ := hframe'.unique hframe rfl heq
  exact ⟨List.singleton_inj.1 hrs, t, List.append_cancel_left heq⟩

/-! ### Sessions of commands -/

/-- The bytes of a connection are a beginning of the answers to the commands from the call on that
opens it. -/
def Honest : List Call → Prop
  | []            => True
  | call :: calls =>
    (∀ s, call.attempt = .ok s →
      arriving s.recvs <+: encodeAll ((call :: calls).map (·.reply)) ∧ s.sent = []) ∧
    Honest calls

/-- A call returns its own answer, or nothing. -/
lemma command_inStep {call : Call} {calls : List Call} (hhonest : Honest (call :: calls))
    (hreply : Encodable .client call.reply) (hparsed : c.parsed = [])
    (hpending : c.pending <+: encodeAll ((call :: calls).map (·.reply))) :
    (∃ e, c.command call.attempt call.args = (.error e, {})) ∨
      ∃ c', c.command call.attempt call.args = (.ok call.reply, c') ∧ c'.parsed = [] ∧
        c'.pending <+: encodeAll (calls.map (·.reply)) := by
  obtain herror | ⟨r, c₁, c₂, c', hconnect, hsend, hread, hcommand⟩ :=
    command_cases c call.attempt call.args
  · exact .inl herror
  obtain ⟨-, hsame, -⟩ := sendCommand_ok hsend
  have hstream : c₂.pending <+: encodeAll ((call :: calls).map (·.reply)) := by
    rw [hsame]
    rcases pending_connect hconnect with rfl | ⟨-, s, hs, rfl⟩
    · exact hpending
    · exact (hhonest.1 s hs).1
  obtain ⟨rfl, hrest⟩ := readReply_inStep hreply hstream hread
  exact .inr ⟨_, hcommand, rfl, hrest⟩

/-! ### What reading leaves alone -/

/-- What of a connection is for sending. -/
def sending (c : RespClient) : Option (List Send × Bytes) :=
  c.socket.map fun s => (s.sends, s.sent)

lemma fill_sending {need : Nat} (h : c.fill need = (.ok (), c')) : c'.sending = c.sending := by
  rw [fill.eq_def] at h
  cases hsocket : c.socket with
  | none =>
    rw [hsocket] at h
    dsimp only at h
    split_ifs at h
    · rw [(Prod.mk.inj h).2]
    · cases h
  | some s =>
    rw [hsocket] at h
    dsimp only at h
    cases hrecv : recvUntil need s.recvs c.unread with
    | error e =>
      rw [hrecv] at h
      cases h
    | ok result =>
      rw [hrecv] at h
      rw [← (Prod.mk.inj h).2, sending, sending, hsocket]
      rfl

lemma readLineLoop_sending {rounds : Nat} {line : Bytes}
    (h : readLineLoop rounds c = (.ok line, c')) : c'.sending = c.sending := by
  induction rounds generalizing c with
  | zero => cases h
  | succ rounds ih =>
    rw [readLineLoop] at h
    cases hcut : cutPair cr lf c.unread with
    | some p =>
      rw [hcut] at h
      rw [← (Prod.mk.inj h).2]
      rfl
    | none =>
      rw [hcut] at h
      dsimp only at h
      cases hfill : c.fill (c.unread.length + 1) with
      | mk result c₁ =>
        rw [hfill] at h
        cases result with
        | error e => cases h
        | ok u => rw [ih h, fill_sending hfill]

lemma readMany_sending {read : RespClient → Except String Reply × RespClient}
    (hread : ∀ {c c' : RespClient} {r : Reply}, read c = (.ok r, c') → c'.sending = c.sending)
    {n : Nat} {rs : List Reply} (h : readMany read n c = (.ok rs, c')) :
    c'.sending = c.sending := by
  induction n generalizing c c' rs with
  | zero => rw [(Prod.mk.inj h).2]
  | succ n ih =>
    rw [readMany] at h
    cases hone : read c with
    | mk result c₁ =>
      rw [hone] at h
      cases result with
      | error e => cases h
      | ok r =>
        dsimp only at h
        cases hmany : readMany read n c₁ with
        | mk results c₂ =>
          rw [hmany] at h
          cases results with
          | error e => cases h
          | ok rs' =>
            rw [← (Prod.mk.inj h).2, ih hmany, hread hone]

lemma readReplyLoop_sending {depth : Nat} {r : Reply} (h : readReplyLoop depth c = (.ok r, c')) :
    c'.sending = c.sending := by
  induction depth generalizing c c' r with
  | zero => cases h
  | succ depth ih =>
    rw [readReplyLoop] at h
    cases hline : c.readLine with
    | mk result c₁ =>
      rw [hline] at h
      cases result with
      | error e => cases h
      | ok line =>
        have hc₁ : c₁.sending = c.sending := readLineLoop_sending hline
        dsimp only at h
        split at h
        · cases h
        · rw [← (Prod.mk.inj h).2, hc₁]
        · next len hheader =>
          cases hfill : c₁.fill (len + 2) with
          | mk result c₂ =>
            rw [hfill] at h
            cases result with
            | error e => cases h
            | ok u =>
              rw [← (Prod.mk.inj h).2, ← hc₁, ← fill_sending hfill]
              rfl
        · next n hheader =>
          cases hmany : readMany (readReplyLoop depth) n c₁ with
          | mk results c₂ =>
            rw [hmany] at h
            cases results with
            | error e => cases h
            | ok rs => rw [← (Prod.mk.inj h).2, readMany_sending ih hmany, hc₁]

lemma sendAll_reliable {sends : List Send} (hsends : ∀ x ∈ sends, ∀ reason, x ≠ .failed reason)
    (sent data : Bytes) : ∃ sends', sendAll sends sent data = .ok (sends', sent ++ data) ∧
      sends' <:+ sends := by
  induction sends, sent, data using sendAll.induct with
  | case1 sends sent => exact ⟨sends, by simp [sendAll], List.suffix_refl _⟩
  | case2 sent b data => exact ⟨[], by simp [sendAll], List.suffix_refl _⟩
  | case3 sent b data n sends ih =>
    obtain ⟨sends', hsend, hsuffix⟩ := ih (List.forall_mem_cons.1 hsends).2
    refine ⟨sends', ?_, hsuffix.trans (List.suffix_cons _ _)⟩
    rw [sendAll, hsend, List.append_assoc, List.take_append_drop]
  | case4 sent b data sends ih =>
    obtain ⟨sends', hsend, hsuffix⟩ := ih (List.forall_mem_cons.1 hsends).2
    exact ⟨sends', by rw [sendAll, hsend], hsuffix.trans (List.suffix_cons _ _)⟩
  | case5 => exact absurd rfl (hsends _ List.mem_cons_self _)

/-- On a connection that takes every command and brings every answer, every call returns its own. -/
lemma commands_reliable {calls : List Call}
    (hreplies : ∀ call ∈ calls, Encodable .client call.reply) {s : Socket} (hs : c.socket = some s)
    (hsends : ∀ x ∈ s.sends, ∀ reason, x ≠ .failed reason)
    (hpending : c.pending = encodeAll (calls.map (·.reply))) :
    (c.commands calls).1 = calls.map (fun call => .ok call.reply) ∧
      (c.commands calls).2.sent = s.sent ++ calls.flatMap fun call => commandBytes call.args := by
  induction calls generalizing c s with
  | nil => simp [commands, sent, hs]
  | cons call calls ih =>
    obtain ⟨hreply, hreplies⟩ := List.forall_mem_cons.1 hreplies
    have hconnect : c.connect call.attempt = (.ok (), c) := by simp only [connect, hs]
    obtain ⟨sends', hsend, hsuffix⟩ := sendAll_reliable hsends s.sent (commandBytes call.args)
    have hsent : c.sendCommand call.args = (.ok (), { c with
        socket := some { s with sends := sends', sent := s.sent ++ commandBytes call.args } }) := by
      simp only [sendCommand, writeAll, hs, hsend]
    obtain ⟨-, hsame, -⟩ := sendCommand_ok hsent
    rw [List.map_cons, encodeAll, ← hsame] at hpending
    obtain ⟨c₂, hread, -, hrest⟩ := readReply_encode hreply hpending
    -- the reply has been read from the same connection
    have hsending : c₂.sending = some (sends', s.sent ++ commandBytes call.args) :=
      readReplyLoop_sending hread
    obtain ⟨s₂, hs₂, heq⟩ := Option.map_eq_some_iff.1 hsending
    obtain ⟨hsends₂, hsent₂⟩ := Prod.mk.inj heq
    have hcommand : c.command call.attempt call.args =
        (.ok call.reply, { c₂ with parsed := [] }) := by
      simp only [command, hconnect, hsent, hread]
    obtain ⟨houtcomes, hlast⟩ := ih (c := { c₂ with parsed := [] }) hreplies hs₂
      (fun x hx => hsends x (hsuffix.mem (hsends₂ ▸ hx))) hrest
    simp only [commands, hcommand]
    refine ⟨by rw [houtcomes, List.map_cons], ?_⟩
    rw [hlast, hsent₂, List.append_assoc, List.flatMap_cons]

/-- A call returns its own answer, or that it failed. -/
def OwnAnswer (call : Call) (outcome : Except String Reply) : Prop :=
  outcome = .ok call.reply ∨ ∃ e, outcome = .error e

/-- Whatever becomes of its connections, a client never takes the answer to one command for the
answer to another: a call returns its own answer or an error. On a connection that holds, every call
returns its answer and the server gets exactly the commands. -/
theorem replies_keep_step {calls : List Call} (hhonest : Honest calls)
    (hreplies : ∀ call ∈ calls, Encodable .client call.reply) :
    List.Forall₂ OwnAnswer calls (commands {} calls).1 ∧
      ∀ call rest s, calls = call :: rest → call.attempt = .ok s →
        (∀ x ∈ s.sends, ∀ reason, x ≠ .failed reason) →
        arriving s.recvs = encodeAll (calls.map (·.reply)) →
          (commands {} calls).1 = calls.map (fun call => .ok call.reply) ∧
            (commands {} calls).2.sent = calls.flatMap fun call => commandBytes call.args := by
  constructor
  · have hstep : ∀ c : RespClient, c.parsed = [] →
        c.pending <+: encodeAll (calls.map (·.reply)) →
        List.Forall₂ OwnAnswer calls (commands c calls).1 := by
      induction calls with
      | nil => exact fun _ _ _ => .nil
      | cons call calls ih =>
        obtain ⟨hreply, hreplies⟩ := List.forall_mem_cons.1 hreplies
        intro c hparsed hpending
        obtain ⟨e, herror⟩ | ⟨c', hok, hparsed', hpending'⟩ :=
          command_inStep hhonest hreply hparsed hpending
        · rw [commands, herror]
          exact .cons (.inr ⟨e, rfl⟩) (ih hhonest.2 hreplies {} rfl List.nil_prefix)
        · rw [commands, hok]
          exact .cons (.inl rfl) (ih hhonest.2 hreplies c' hparsed' hpending')
    exact hstep {} rfl List.nil_prefix
  · rintro call rest s rfl hattempt hsends harriving
    -- the first call opens the connection, and then nothing is different
    have hsame : commands {} (call :: rest) = commands { socket := some s } (call :: rest) := by
      simp only [commands, command, connect, hattempt]
    obtain ⟨houtcomes, hlast⟩ := commands_reliable (c := { socket := some s }) hreplies rfl hsends
      harriving
    rw [hsame]
    refine ⟨houtcomes, ?_⟩
    rw [hlast, (hhonest.1 s hattempt).2, List.nil_append]

/-- The answer to the first call is cut off in the middle, and the second call connects anew. -/
def reconnecting : List Call :=
  [⟨[ascii "PING"], .ok ⟨[.data (ascii "+PO"), .failed "timed out"], [], []⟩,
      .simple (ascii "PONG")⟩,
    ⟨[ascii "LPUSH", ascii "k", ascii "v"],
      .ok ⟨[.data (ascii ":1"), .data (ascii "2\r\n")], [.accepted 5], []⟩, .integer 12⟩]

theorem replies_keep_step_reconnecting :
    List.Forall₂ OwnAnswer reconnecting (commands {} reconnecting).1 ∧
      (commands {} reconnecting).1.map (·.isOk) = [false, true] := by
  have hhonest : Honest reconnecting := by
    refine ⟨?_, ?_, trivial⟩
    all_goals
      intro s hs
      obtain rfl := Except.ok.inj hs
      exact ⟨by decide, rfl⟩
  have hreplies : ∀ call ∈ reconnecting, Encodable .client call.reply := by
    rw [reconnecting, List.forall_mem_cons, List.forall_mem_singleton]
    exact ⟨.simple (by decide), .integer (by decide)⟩
  exact ⟨(replies_keep_step hhonest hreplies).1, by decide +kernel⟩

end RespClient

end HftBot.Resp
