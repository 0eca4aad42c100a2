import HftBot.Resp.Session

/-!
# Connections

What the other side gets of a client that keeps sending commands, over connections that break
anywhere: of every connection the commands that were sent on it in full, in order. No command is
sent on two connections, and none twice on one.
-/

namespace HftBot.Resp

open HftBot.Core HftBot.Core.Utf8 HftBot.Core.JsonText HftBot.Storage

/-- A command, and what an attempt to connect gives if there is one. -/
structure Request where
  args    : List Bytes
  attempt : Except String Socket

/-- The commands that were begun on a connection, and the bytes that were sent on it. -/
structure Connection where
  commands : List (List Bytes) := []
  bytes    : Bytes := []
deriving DecidableEq

namespace RespClient

/-- The bytes that the calls of `send` take. -/
def taken : List Send → Bytes → Bytes
  | _, []                                 => []
  | [], b :: data                         => b :: data
  | .accepted n :: sends, b :: data       =>
    (b :: data).take n ++ taken sends ((b :: data).drop n)
  | .interrupted :: sends, b :: data      => taken sends (b :: data)
  | .failed _ :: _, _ :: _                => []

/-- A command, behind which the client is closed unless the reply is one to be kept. -/
def issue (keep : Reply → Bool) (c : RespClient) (r : Request) : RespClient :=
  match c.command r.attempt r.args with
  | (.ok reply, c) => if keep reply then c else c.close
  | (.error _, c)  => c.close

end RespClient

namespace Connection

open RespClient

/-- A command is begun on a connection. -/
def add (k : Connection) (s : Socket) (args : List Bytes) : Connection where
  commands := k.commands ++ [args]
  bytes    := k.bytes ++ taken s.sends (commandBytes args)

/-- The connections of a client that issues commands, given the one it is on or was on last. -/
def connections (keep : Reply → Bool) : RespClient → Connection → List Request → List Connection
  | _, k, []      => [k]
  | c, k, r :: rs =>
    match c.socket, r.attempt with
    | some s, _      => connections keep (c.issue keep r) (k.add s r.args) rs
    | none, .ok s    =>
      k :: connections keep (c.issue keep r) (({} : Connection).add s r.args) rs
    | none, .error _ => connections keep (c.issue keep r) k rs

end Connection

/-! ### Bytes of commands -/

/-- Commands are told apart by their bytes, whatever follows them. -/
lemma commandBytes_unique {args args' : List Bytes} {s s' : Bytes}
    (h : commandBytes args ++ s = commandBytes args' ++ s') : args = args' ∧ s = s' := by
  have hencodes (a : List Bytes) : Encodes .none (commandBytes a) (commandReply a) := by
    rw [commandBytes_eq]
    exact encodes_encode trivial (encodable_commandReply trivial fun _ _ => trivial)
  obtain ⟨ms, hframe, -⟩ := hencodes args
  obtain ⟨ms', hframe', -⟩ := hencodes args'
  obtain ⟨hbytes, hreplies, -⟩ := hframe.unique hframe' rfl h
  rw [hbytes] at h
  refine ⟨?_, List.append_cancel_left h⟩
  have hbulk : args.map Reply.bulk = args'.map Reply.bulk :=
    Reply.array.inj (List.singleton_inj.1 hreplies)
  exact List.map_injective_iff.2 (fun _ _ => Reply.bulk.inj) hbulk

/-- Whole commands at the beginning of the bytes of others are the first of them. -/
lemma prefix_of_flatMap {cs cs' : List (List Bytes)}
    (h : cs.flatMap commandBytes <+: cs'.flatMap commandBytes) : cs <+: cs' := by
  induction cs generalizing cs' with
  | nil => exact List.nil_prefix
  | cons args cs ih =>
    obtain ⟨t, ht⟩ := h
    cases cs' with
    | nil =>
      rw [List.flatMap_cons, List.append_assoc] at ht
      exact absurd (List.append_eq_nil_iff.1 ht).1 (by simp [commandBytes])
    | cons args' cs' =>
      rw [List.flatMap_cons, List.flatMap_cons, List.append_assoc] at ht
      obtain ⟨rfl, hrest⟩ := commandBytes_unique ht
      exact (List.prefix_cons_inj _).2 (ih ⟨t, hrest⟩)

namespace RespClient

variable {c c' : RespClient} {keep : Reply → Bool}

lemma isPrefix_taken (sends : List Send) (data : Bytes) : taken sends data <+: data := by
  induction sends, data using taken.induct with
  | case1 sends => rw [taken]
  | case2 b data => rw [taken]
  | case3 n sends b data ih =>
    rw [taken]
    conv_rhs => rw [← List.take_append_drop n (b :: data)]
    exact (List.prefix_append_right_inj _).2 ih
  | case4 sends b data ih =>
    rw [taken]
    exact ih
  | case5 =>
    rw [taken]
    exact List.nil_prefix

/-- Sending ends well if everything has been taken. -/
lemma taken_of_sendAll {sends sends' : List Send} {sent sent' data : Bytes}
    (h : sendAll sends sent data = .ok (sends', sent')) : taken sends data = data := by
  induction sends, sent, data using sendAll.induct with
  | case1 sends sent => rw [taken]
  | case2 sent b data => rw [taken]
  | case3 sent b data n sends ih =>
    rw [sendAll] at h
    rw [taken, ih h, List.take_append_drop]
  | case4 sent b data sends ih =>
    rw [sendAll] at h
    rw [taken, ih h]
  | case5 =>
    rw [sendAll] at h
    cases h

lemma taken_of_sendCommand {s : Socket} {args : List Bytes} (hsocket : c.socket = some s)
    (h : c.sendCommand args = (.ok (), c')) :
    taken s.sends (commandBytes args) = commandBytes args := by
  rw [sendCommand, writeAll, hsocket] at h
  dsimp only at h
  cases hsend : sendAll s.sends s.sent (commandBytes args) with
  | error e =>
    rw [hsend] at h
    cases h
  | ok result => exact taken_of_sendAll hsend

/-- A client that is still open has sent its command in full. -/
lemma taken_of_issue {r : Request} {s : Socket}
    (hs : c.socket = some s ∨ c.socket = none ∧ r.attempt = .ok s)
    (hopen : (c.issue keep r).socket.isSome) :
    taken s.sends (commandBytes r.args) = commandBytes r.args := by
  rw [issue] at hopen
  obtain ⟨e, herror⟩ | ⟨reply, c₁, c₂, c₃, hconnect, hsend, -, -⟩ :=
    command_cases c r.attempt r.args
  · rw [herror] at hopen
    cases hopen
  refine taken_of_sendCommand ?_ hsend
  obtain hsocket | ⟨hsocket, hattempt⟩ := hs
  · simp only [connect, hsocket] at hconnect
    rw [← (Prod.mk.inj hconnect).2, hsocket]
  · simp only [connect, hsocket, hattempt] at hconnect
    rw [← (Prod.mk.inj hconnect).2]

lemma socket_issue_of_error {r : Request} (hsocket : c.socket = none) {e : String}
    (hattempt : r.attempt = .error e) : (c.issue keep r).socket = none := by
  have hcommand : c.command r.attempt r.args = (.error e, {}) := by
    simp only [command, connect, hsocket, hattempt, fail, close]
  rw [issue, hcommand]
  rfl

end RespClient

namespace Connection

open RespClient

variable {c : RespClient} {k : Connection} {keep : Reply → Bool}

/-- What was sent is the bytes of the commands, of which the last may have been broken off if the
connection is not open any more. -/
structure Sent (c : RespClient) (k : Connection) : Prop where
  begun : k.bytes <+: k.commands.flatMap commandBytes
  whole : c.socket.isSome → k.bytes = k.commands.flatMap commandBytes

lemma Sent.add {r : Request} {s : Socket} (hwhole : k.bytes = k.commands.flatMap commandBytes)
    (hs : c.socket = some s ∨ c.socket = none ∧ r.attempt = .ok s) :
    Sent (c.issue keep r) (k.add s r.args) := by
  constructor
  · rw [Connection.add, hwhole, List.flatMap_append, List.flatMap_singleton]
    exact (List.prefix_append_right_inj _).2 (isPrefix_taken _ _)
  · intro hopen
    rw [Connection.add, hwhole, List.flatMap_append, List.flatMap_singleton,
      taken_of_issue hs hopen]

/-- On every connection the commands are sent one behind the other. -/
lemma bytes_connections (h : Sent c k) (rs : List Request) :
    ∀ k' ∈ connections keep c k rs, k'.bytes <+: k'.commands.flatMap commandBytes := by
  induction rs generalizing c k with
  | nil =>
    rw [connections, List.forall_mem_singleton]
    exact h.begun
  | cons r rs ih =>
    rw [connections]
    split
    · next s hsocket => exact ih (.add (h.whole (by rw [hsocket]; rfl)) (.inl hsocket))
    · next s hsocket hattempt =>
      rw [List.forall_mem_cons]
      exact ⟨h.begun, ih (.add rfl (.inr ⟨hsocket, hattempt⟩))⟩
    · next e hsocket hattempt =>
      refine ih ⟨h.begun, fun hopen => ?_⟩
      rw [socket_issue_of_error hsocket hattempt] at hopen
      cases hopen

/-- Every command is begun at most once, and in order. -/
lemma commands_connections (rs : List Request) :
    ((connections keep c k rs).flatMap (·.commands)).Sublist (k.commands ++ rs.map (·.args)) := by
  induction rs generalizing c k with
  | nil => simp [connections]
  | cons r rs ih =>
    rw [connections]
    split
    · next s hsocket =>
      have hrest := ih (c := c.issue keep r) (k := k.add s r.args)
      simpa [Connection.add] using hrest
    · next s hsocket hattempt =>
      have hrest := ih (c := c.issue keep r) (k := ({} : Connection).add s r.args)
      rw [List.flatMap_cons]
      exact (List.append_sublist_append_left _).2 (by simpa [Connection.add] using hrest)
    · exact ih.trans ((List.append_sublist_append_left _).2 (List.sublist_cons_self _ _))

/-- Of a connection its other end takes up whole commands, as far as its bytes have got. -/
def Heard (k : Connection) (commands : List (List Bytes)) : Prop :=
  commands.flatMap commandBytes <+: k.bytes

instance : DecidableRel Heard :=
  fun k commands => inferInstanceAs (Decidable (commands.flatMap commandBytes <+: k.bytes))

/-- What is heard on all connections, one behind the other, is some of the commands, each once and
in order. -/
lemma sublist_of_heard {rs : List Request} {heard : List (List (List Bytes))}
    (h : List.Forall₂ Heard (connections keep {} {} rs) heard) :
    heard.flatten.Sublist (rs.map (·.args)) := by
  have hnew : Sent {} {} := ⟨List.nil_prefix, fun _ => rfl⟩
  have hbytes : ∀ k ∈ connections keep {} {} rs, k.bytes <+: k.commands.flatMap commandBytes :=
    bytes_connections hnew rs
  have hsub : ((connections keep {} {} rs).flatMap (·.commands)).Sublist (rs.map (·.args)) :=
    commands_connections rs
  refine List.Sublist.trans ?_ hsub
  generalize connections keep {} {} rs = ks at h hbytes
  induction h with
  | nil => exact .slnil
  | @cons k commands ks heard hk _ ih =>
    obtain ⟨hfirst, hrest⟩ := List.forall_mem_cons.1 hbytes
    rw [List.flatten_cons, List.flatMap_cons]
    exact (prefix_of_flatMap (hk.trans hfirst)).sublist.append (ih hrest)

end Connection

end HftBot.Resp
