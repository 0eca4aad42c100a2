import HftBot.Resp.Reading

/-!
# RESP protocol

Reading inverts encoding, whatever the bytes of a reply contain and however they arrive. It is
strict unless there are two bytes other than a line end behind a bulk string, or a length with a
sign that is not `-1`.
-/

namespace HftBot.Resp

open HftBot.Core HftBot.Core.Utf8 HftBot.Core.JsonText HftBot.Storage

mutual

/-- The bytes of a reply. -/
def encode : Reply → Bytes
  | .simple str  => '+'.toUInt8 :: str ++ crlf
  | .err str     => '-'.toUInt8 :: str ++ crlf
  | .integer n   => ':'.toUInt8 :: signedDecimal n ++ crlf
  | .bulk str    => '$'.toUInt8 :: decimal str.length ++ crlf ++ str ++ crlf
  | .nil         => '$'.toUInt8 :: ascii "-1" ++ crlf
  | .array items => '*'.toUInt8 :: decimal items.length ++ crlf ++ encodeAll items

def encodeAll : List Reply → Bytes
  | []      => []
  | r :: rs => encode r ++ encodeAll rs

end

/-- The replies that have bytes: strings of one line, integers of 64 bits, and bulk strings and
arrays within the limits. -/
inductive Encodable (lim : Limits) : Reply → Prop
  | simple {str : Bytes} (hstr : ¬ crlf <:+: str) : Encodable lim (.simple str)
  | err {str : Bytes} (hstr : ¬ crlf <:+: str) : Encodable lim (.err str)
  | integer {n : Int} (hn : InInt64 n) : Encodable lim (.integer n)
  | bulk {str : Bytes} (hstr : lim.bulk str.length) : Encodable lim (.bulk str)
  | nil : Encodable lim .nil
  | array {items : List Reply} (hlength : lim.array items.length)
      (hitems : ∀ r ∈ items, Encodable lim r) : Encodable lim (.array items)

/-! ### Numbers -/

lemma intOf_decimal (n : Nat) : intOf (decimal n) = some (n : Int) := by
  have hnat := natOf_decimal n
  have hdigits := isDigit_decimal n
  obtain ⟨d, ds, hds⟩ := List.exists_cons_of_ne_nil (decimal_ne_nil n)
  rw [hds] at hnat hdigits ⊢
  have hd : d ≠ '-'.toUInt8 := by
    rintro rfl
    exact absurd (hdigits _ List.mem_cons_self) (by decide)
  rw [intOf, if_neg hd, hnat, Option.map_some]

lemma intOf_signedDecimal (n : Int) : intOf (signedDecimal n) = some n := by
  rw [signedDecimal]
  split_ifs with hneg
  · rw [intOf, if_pos rfl, natOf_decimal, Option.map_some,
      Int.ofNat_natAbs_of_nonpos (Int.le_of_lt hneg), Int.neg_neg]
  · rw [intOf_decimal, Int.natAbs_of_nonneg (Int.not_lt.1 hneg)]

lemma not_infix_of_cr_notMem {l : Bytes} (h : cr ∉ l) : ¬ crlf <:+: l :=
  fun hcrlf => h (hcrlf.subset List.mem_cons_self)

lemma cr_notMem_decimal (n : Nat) : cr ∉ decimal n :=
  fun h => absurd (isDigit_decimal n cr h) (by decide)

lemma cr_notMem_signedDecimal (n : Int) : cr ∉ signedDecimal n := by
  rw [signedDecimal]
  split_ifs
  · rw [List.mem_cons, not_or]
    exact ⟨by decide, cr_notMem_decimal _⟩
  · exact cr_notMem_decimal _

lemma not_crlf_infix_cons {tag : UInt8} (htag : tag ≠ cr) {str : Bytes} (hstr : ¬ crlf <:+: str) :
    ¬ crlf <:+: tag :: str := by
  rw [List.infix_cons_iff, not_or]
  refine ⟨fun hhead => htag ?_, hstr⟩
  exact (List.cons_prefix_cons.1 hhead).1.symm

lemma not_crlf_infix_length {tag : UInt8} (htag : tag ≠ cr) (n : Nat) :
    ¬ crlf <:+: tag :: decimal n :=
  not_crlf_infix_cons htag (not_infix_of_cr_notMem (cr_notMem_decimal n))

lemma plain_decimal (n : Nat) : (Mark.length (decimal n)).Plain := by
  right
  rw [natOf_decimal, Option.isSome_some]

/-! ### Encodings -/

lemma frames_encodeAll {lim : Limits} {rs : List Reply}
    (hrs : ∀ r ∈ rs, Encodes lim (encode r) r) :
    ∃ ms, Frames lim (encodeAll rs) rs ms ∧ ∀ m ∈ ms, m.Plain := by
  induction rs with
  | nil => exact ⟨[], .nil, nofun⟩
  | cons r rs ih =>
    rw [List.forall_mem_cons] at hrs
    obtain ⟨⟨ms, hframe, hplain⟩, hrest⟩ := hrs
    obtain ⟨ms', hframes, hplain'⟩ := ih hrest
    refine ⟨ms ++ ms', ?_, List.forall_mem_append.2 ⟨hplain, hplain'⟩⟩
    rw [encodeAll]
    exact hframe.cons hframes

lemma encodes_line {lim : Limits} {line : Bytes} {r : Reply} {ms : List Mark}
    (hno : ¬ crlf <:+: line) (hline : FirstLine lim line (.whole r) ms)
    (hplain : ∀ m ∈ ms, m.Plain) : Encodes lim (line ++ crlf) r :=
  ⟨ms ++ [], .whole hno hline .nil, by rwa [List.append_nil]⟩

lemma encodes_encode {lim : Limits} (hnil : lim.bulk (-1)) {r : Reply} (hr : Encodable lim r) :
    Encodes lim (encode r) r := by
  induction hr with
  | simple hstr =>
    rw [encode]
    exact encodes_line (not_crlf_infix_cons (by decide) hstr) (.simple _) nofun
  | err hstr =>
    rw [encode]
    exact encodes_line (not_crlf_infix_cons (by decide) hstr) (.err _) nofun
  | @integer n hn =>
    rw [encode]
    refine encodes_line (not_crlf_infix_cons (by decide)
      (not_infix_of_cr_notMem (cr_notMem_signedDecimal n))) (.integer ?_) nofun
    exact RespClient.parseLl_eq_some_iff.2 ⟨intOf_signedDecimal n, hn⟩
  | @bulk str hstr =>
    rw [encode]
    have hno : ¬ crlf <:+: '$'.toUInt8 :: decimal str.length :=
      not_crlf_infix_length (by decide) str.length
    have hend : crlf.length = 2 := rfl
    have hframe := Frames.bulk hno (.bulk (intOf_decimal _) hstr) hend .nil
    refine ⟨[.length (decimal str.length), .ending crlf], by simpa [crlf] using hframe, ?_⟩
    rw [List.forall_mem_cons, List.forall_mem_singleton]
    exact ⟨plain_decimal _, rfl⟩
  | nil =>
    rw [encode]
    have htext : intOf (ascii "-1") = some (-1) := by decide
    refine encodes_line (by decide) (.nilBulk htext hnil (by decide)) ?_
    rw [List.forall_mem_singleton]
    exact Or.inl rfl
  | @array items hlength hitems ih =>
    obtain ⟨ms, hframes, hplain⟩ := frames_encodeAll ih
    have hframe := Frames.array (not_crlf_infix_length (by decide) items.length)
      (.array (intOf_decimal _) hlength) hframes .nil
    rw [encode]
    refine ⟨_, by simpa [crlf] using hframe, ?_⟩
    simpa [plain_decimal] using hplain

lemma encodes_unique {lim lim' : Limits} {b : Bytes} {r r' : Reply} (h : Encodes lim b r)
    (h' : Encodes lim' b r') : r = r' := by
  obtain ⟨ms, hframe, -⟩ := h
  obtain ⟨ms', hframe', -⟩ := h'
  have hunique := hframe.unique hframe' rfl (rfl : b ++ [] = b ++ [])
  exact List.singleton_inj.1 hunique.2.1

/-- A command is the array of its arguments. -/
def commandReply (args : List Bytes) : Reply := .array (args.map .bulk)

lemma encodeAll_bulk (args : List Bytes) : encodeAll (args.map .bulk) =
    args.flatMap fun a => '$'.toUInt8 :: decimal a.length ++ crlf ++ a ++ crlf := by
  induction args with
  | nil => rfl
  | cons a args ih => rw [List.map_cons, encodeAll, encode, ih, List.flatMap_cons]

lemma commandBytes_eq (args : List Bytes) : commandBytes args = encode (commandReply args) := by
  rw [commandReply, encode, encodeAll_bulk, List.length_map, commandBytes]

lemma encodable_commandReply {lim : Limits} {args : List Bytes} (hlength : lim.array args.length)
    (hargs : ∀ a ∈ args, lim.bulk a.length) : Encodable lim (commandReply args) := by
  refine .array (by rwa [List.length_map]) fun r hr => ?_
  obtain ⟨a, ha, rfl⟩ := List.mem_map.1 hr
  exact .bulk (hargs a ha)

/-! ### Sending -/

namespace RespClient

lemma sendAll_eq_ok {sends sends' : List Send} {sent sent' data : Bytes}
    (h : sendAll sends sent data = .ok (sends', sent')) : sent' = sent ++ data := by
  induction sends, sent, data using sendAll.induct with
  | case1 sends sent =>
    rw [sendAll] at h
    cases h
    exact (List.append_nil _).symm
  | case2 sent b data =>
    rw [sendAll] at h
    cases h
    rfl
  | case3 sent b data n sends ih =>
    rw [sendAll] at h
    rw [ih h, List.append_assoc, List.take_append_drop]
  | case4 sent b data sends ih =>
    rw [sendAll] at h
    exact ih h
  | case5 sent b data reason sends =>
    rw [sendAll] at h
    cases h

/-- What has been sent on the connection. -/
def sent (c : RespClient) : Bytes := c.socket.elim [] Socket.sent

lemma sent_sendCommand {c c' : RespClient} {args : List Bytes}
    (h : c.sendCommand args = (.ok (), c')) : c'.sent = c.sent ++ commandBytes args := by
  obtain ⟨_ | socket, parsed, unread⟩ := c
  · cases h
  · rw [sendCommand, writeAll] at h
    cases hsend : sendAll socket.sends socket.sent (commandBytes args) with
    | error e =>
      simp only [hsend] at h
      cases h
    | ok result =>
      obtain ⟨sends, sent'⟩ := result
      simp only [hsend] at h
      cases h
      exact sendAll_eq_ok hsend

end RespClient

/-! ### The round trip -/

lemma readReply_encode {c : RespClient} {r : Reply} {suffix : Bytes} (hr : Encodable .client r)
    (hpending : c.pending = encode r ++ suffix) : ∃ c', c.readReply = (.ok r, c') ∧
      c'.parsed = c.parsed ++ encode r ∧ c'.pending = suffix := by
  have hnil : Limits.client.bulk (-1) := ⟨by decide, by decide⟩
  obtain ⟨ms, hframe, -⟩ := encodes_encode hnil hr
  obtain ⟨c', hread, hparsed, hrest⟩ := RespClient.readReply_ok hframe hpending
  exact ⟨c', hread, hparsed, List.append_cancel_left (hrest.symm.trans hpending)⟩

/-- A reply within the limits is read from its bytes, whatever follows them and however they arrive,
and nothing behind them is parsed. The bytes of a command are those of the array of its arguments
and of no other reply. -/
theorem reading_inverts_encoding :
    (∀ (r : Reply) (suffix : Bytes) (c : RespClient), Encodable .client r →
      c.pending = encode r ++ suffix → ∃ c', c.readReply = (.ok r, c') ∧
        c'.parsed = c.parsed ++ encode r ∧ c'.pending = suffix) ∧
    ∀ args : List Bytes,
      (∀ c c' : RespClient, c.sendCommand args = (.ok (), c') →
        c'.sent = c.sent ++ commandBytes args) ∧
      Encodes .none (commandBytes args) (commandReply args) ∧
      (∀ r, Encodes .none (commandBytes args) r → r = commandReply args) ∧
      ((args.length : Int) ≤ kMaxArray → (∀ a ∈ args, (a.length : Int) ≤ kMaxBulk) →
        ∀ (suffix : Bytes) (c : RespClient), c.pending = commandBytes args ++ suffix →
          ∃ c', c.readReply = (.ok (commandReply args), c') ∧ c'.pending = suffix) := by
  refine ⟨fun r suffix c => readReply_encode, fun args => ?_⟩
  have hencodes : Encodes .none (commandBytes args) (commandReply args) := by
    rw [commandBytes_eq]
    exact encodes_encode trivial (encodable_commandReply trivial fun _ _ => trivial)
  refine ⟨fun c c' => RespClient.sent_sendCommand, hencodes,
    fun r hr => encodes_unique hr hencodes, fun hlength hargs suffix c hpending => ?_⟩
  have hsmall (n : Nat) (limit : Int) (hlimit : limit < 2 ^ 63) (hn : (n : Int) ≤ limit) :
      InInt64 n := ⟨by omega, by omega⟩
  have hencodable : Encodable .client (commandReply args) :=
    encodable_commandReply ⟨hsmall _ kMaxArray (by decide) hlength, hlength⟩
      fun a ha => ⟨hsmall _ kMaxBulk (by decide) (hargs a ha), hargs a ha⟩
  rw [commandBytes_eq] at hpending
  obtain ⟨c', hread, -, hrest⟩ := readReply_encode hencodable hpending
  exact ⟨c', hread, hrest⟩

/-- The ends of lines are cut, and a bulk string is a line end itself. -/
theorem reading_inverts_encoding_cut : ∃ c',
    RespClient.readReply ⟨some ⟨[.data (ascii "*2\r"), .data (ascii "\n$2\r\n\r"), .interrupted,
      .data (ascii "\n\r\n:-7\r\n+OK")], [], []⟩, [], []⟩ =
        (.ok (.array [.bulk (ascii "\r\n"), .integer (-7)]), c') ∧
    c'.parsed = [] ++ encode (.array [.bulk (ascii "\r\n"), .integer (-7)]) ∧
    c'.pending = ascii "+OK" := by
  refine reading_inverts_encoding.1 _ _ _ (.array ⟨by decide, by decide⟩ ?_) (by decide)
  rw [List.forall_mem_cons, List.forall_mem_singleton]
  exact ⟨.bulk ⟨by decide, by decide⟩, .integer (by decide)⟩

/-! ### Strictness -/

namespace RespClient

/-- Reading gives a reply for the bytes that the protocol has for it, or it gives an error and
leaves neither a connection nor a buffer. -/
def Strict (c : RespClient) : Prop :=
  match c.readReply with
  | (.ok r, c')    => ∃ b, Took c b c' ∧ Encodes .none b r
  | (.error _, c') => c' = {}

lemma plain_of_encodes {lim : Limits} {b : Bytes} {r r' : Reply} {ms : List Mark}
    (hframe : Frames lim b [r] ms) (h : Encodes .none b r') : ∀ m ∈ ms, m.Plain := by
  obtain ⟨ms', hframe', hplain⟩ := h
  obtain ⟨-, -, rfl⟩ := hframe.unique hframe' rfl (rfl : b ++ [] = b ++ [])
  exact hplain

lemma plain_of_strict {c : RespClient} (hstrict : c.Strict) {b : Bytes} {r : Reply} {ms : List Mark}
    (hb : b <+: c.pending) (hframe : Frames .client b [r] ms) : ∀ m ∈ ms, m.Plain := by
  obtain ⟨s, hs⟩ := hb
  obtain ⟨c', hread, htook⟩ := readReply_ok hframe hs.symm
  rw [Strict, hread] at hstrict
  obtain ⟨b', htook', hencodes⟩ := hstrict
  obtain rfl : b = b' := List.append_cancel_left (htook.1.symm.trans htook'.1)
  exact plain_of_encodes hframe hencodes

/-- Reading is strict if the reply that comes next, where there is one within the limits, has
nothing but digits and `-1` for its lengths and nothing but line ends behind its bulk strings. -/
theorem strict_iff (c : RespClient) :
    c.Strict ↔ ∀ b r ms, b <+: c.pending → Frames .client b [r] ms → ∀ m ∈ ms, m.Plain := by
  constructor
  · exact fun hstrict b r ms => plain_of_strict hstrict
  · intro hplain
    rw [Strict]
    obtain ⟨e, herror⟩ | ⟨r, c', b, ms, hok, hframe, htook⟩ := readReply_cases c
    · rw [herror]
    · rw [hok]
      have hb : b <+: c.pending := ⟨c'.pending, htook.2.symm⟩
      exact ⟨b, htook, ms, hframe.mono, hplain b r ms hb hframe⟩

/-- Bytes that slipped by one, and a length of `-2`. -/
theorem strict_iff_slipped :
    ¬ Strict ⟨some ⟨[.data (ascii "$1\r\nab\r\n")], [], []⟩, [], []⟩ ∧
      ¬ Strict ⟨some ⟨[.data (ascii "$-2\r\n")], [], []⟩, [], []⟩ := by
  constructor
  · intro hstrict
    have hline : FirstLine .client (ascii "$1") (.bulk (ascii "a").length) [.length (ascii "1")] :=
      .bulk (by decide) ⟨by decide, by decide⟩
    have hend : (ascii "b\r").length = 2 := by decide
    have hframe := Frames.bulk (by decide) hline hend .nil
    have hplain : ascii "b\r" = crlf :=
      plain_of_strict hstrict (by decide) hframe (.ending (ascii "b\r")) (by simp)
    exact absurd hplain (by decide)
  · intro hstrict
    have hline : FirstLine .client (ascii "$-2") (.whole .nil) [.length (ascii "-2")] :=
      .nilBulk (by decide : intOf (ascii "-2") = some (-2)) ⟨by decide, by decide⟩ (by decide)
    have hframe := Frames.whole (by decide) hline .nil
    have hplain : ascii "-2" = ascii "-1" ∨ (natOf (ascii "-2")).isSome :=
      plain_of_strict hstrict (by decide) hframe (.length (ascii "-2")) (by simp)
    exact absurd hplain (by decide)

end RespClient

end HftBot.Resp
