import HftBot.Resp.Grammar

/-!
# Reading of replies

A client reads the replies whose bytes come next, however they arrive, and parses no byte behind
them. When they are not the bytes of a reply it fails, and a client that has failed is closed.
-/

namespace HftBot.Resp

open HftBot.Core HftBot.Core.Utf8 HftBot.Core.JsonText HftBot.Storage

namespace RespClient

/-- The client has parsed the bytes, and the others are those that come next. -/
def Took (c : RespClient) (b : Bytes) (c' : RespClient) : Prop :=
  c'.parsed = c.parsed ++ b ∧ c.pending = b ++ c'.pending

variable {c c' c'' : RespClient} {b b' : Bytes}

lemma Took.trans (h : Took c b c') (h' : Took c' b' c'') : Took c (b ++ b') c'' := by
  obtain ⟨hparsed, hpending⟩ := h
  obtain ⟨hparsed', hpending'⟩ := h'
  exact ⟨by rw [hparsed', hparsed, List.append_assoc],
    by rw [hpending, hpending', List.append_assoc]⟩

lemma Took.refl (c : RespClient) : Took c [] c := ⟨(List.append_nil _).symm, rfl⟩

lemma Took.consume (c : RespClient) (n : Nat) : Took c (c.unread.take n) (c.consume n) := by
  refine ⟨rfl, ?_⟩
  change c.unread ++ arriving c.recvs = c.unread.take n ++ (c.unread.drop n ++ arriving c.recvs)
  rw [← List.append_assoc, List.take_append_drop]

/-! ### Filling the buffer -/

/-- With enough bytes to come the buffer is filled, by a call at least unless it was full. -/
lemma recvUntil_ok {need : Nat} {recvs : List Recv} {unread : Bytes}
    (hneed : need ≤ (unread ++ arriving recvs).length) : ∃ recvs' unread',
    recvUntil need recvs unread = .ok (recvs', unread') ∧ need ≤ unread'.length ∧
      unread' ++ arriving recvs' = unread ++ arriving recvs ∧
      recvs'.length ≤ recvs.length ∧ (unread.length < need → recvs'.length < recvs.length) := by
  induction recvs generalizing unread with
  | nil =>
    rw [arriving, List.append_nil] at hneed
    exact ⟨[], unread, if_pos hneed, hneed, rfl, Nat.le_refl _,
      fun h => absurd hneed (Nat.not_le.2 h)⟩
  | cons recv recvs ih =>
    by_cases henough : need ≤ unread.length
    · exact ⟨recv :: recvs, unread, if_pos henough, henough, rfl,
        Nat.le_refl _, fun h => absurd henough (Nat.not_le.2 h)⟩
    match recv with
    | .data [] =>
      rw [arriving, List.append_nil] at hneed
      exact absurd hneed henough
    | .data (b :: bs) =>
      rw [arriving, ← List.append_assoc] at hneed ⊢
      obtain ⟨recvs', unread', hok, henough', hsame, hle, -⟩ := ih hneed
      rw [recvUntil, if_neg henough, hok]
      exact ⟨recvs', unread', rfl, henough', hsame, Nat.le_succ_of_le hle,
        fun _ => Nat.lt_succ_of_le hle⟩
    | .interrupted =>
      obtain ⟨recvs', unread', hok, henough', hsame, hle, -⟩ := ih hneed
      rw [recvUntil, if_neg henough, hok]
      exact ⟨recvs', unread', rfl, henough', hsame, Nat.le_succ_of_le hle,
        fun _ => Nat.lt_succ_of_le hle⟩
    | .failed _ =>
      rw [arriving, List.append_nil] at hneed
      exact absurd hneed henough

lemma recvUntil_error {need : Nat} {recvs : List Recv} {unread : Bytes}
    (hneed : (unread ++ arriving recvs).length < need) :
    ∃ e, recvUntil need recvs unread = .error e := by
  induction recvs generalizing unread with
  | nil =>
    rw [arriving, List.append_nil] at hneed
    exact ⟨_, if_neg (Nat.not_le.2 hneed)⟩
  | cons recv recvs ih =>
    have hshort : ¬ need ≤ unread.length := by
      rw [List.length_append] at hneed
      omega
    match recv with
    | .data [] => exact ⟨_, by rw [recvUntil, if_neg hshort]⟩
    | .data (b :: bs) =>
      rw [arriving, ← List.append_assoc] at hneed
      rw [recvUntil, if_neg hshort]
      exact ih hneed
    | .interrupted =>
      rw [recvUntil, if_neg hshort]
      exact ih hneed
    | .failed reason => exact ⟨_, by rw [recvUntil, if_neg hshort]⟩

lemma fill_ok {need : Nat} (hneed : need ≤ c.pending.length) : ∃ c', c.fill need = (.ok (), c') ∧
    need ≤ c'.unread.length ∧ Took c [] c' ∧ c'.recvs.length ≤ c.recvs.length ∧
      (c.unread.length < need → c'.recvs.length < c.recvs.length) := by
  obtain ⟨_ | socket, parsed, unread⟩ := c
  · have henough : need ≤ unread.length := by
      simpa [pending, recvs, arriving] using hneed
    exact ⟨_, if_pos henough, henough, .refl _, Nat.le_refl _,
      fun h => absurd henough (Nat.not_le.2 h)⟩
  · change need ≤ (unread ++ arriving socket.recvs).length at hneed
    obtain ⟨recvs', unread', hok, henough, hsame, hle, hlt⟩ := recvUntil_ok hneed
    refine ⟨⟨some { socket with recvs := recvs' }, parsed, unread'⟩, ?_, henough,
      ⟨(List.append_nil _).symm, hsame.symm⟩, hle, hlt⟩
    simp only [fill, hok]

lemma fill_error {need : Nat} (hneed : c.pending.length < need) :
    ∃ e, c.fill need = (.error e, {}) := by
  obtain ⟨_ | socket, parsed, unread⟩ := c
  · have hshort : ¬ need ≤ unread.length := by
      simpa [pending, recvs, arriving] using hneed
    exact ⟨_, if_neg hshort⟩
  · change (unread ++ arriving socket.recvs).length < need at hneed
    obtain ⟨e, he⟩ := recvUntil_error hneed
    refine ⟨e, ?_⟩
    simp only [fill, he, fail, close]

/-! ### Lines -/

/-- The first line is read as soon as its end has arrived. -/
lemma readLineLoop_ok {line rest : Bytes} {rounds : Nat}
    (hcut : cutPair cr lf c.pending = some (line, rest)) (hrounds : c.recvs.length < rounds) :
    ∃ c', readLineLoop rounds c = (.ok line, c') ∧ Took c (line ++ crlf) c' ∧
      c'.pending = rest := by
  induction rounds generalizing c with
  | zero => cases hrounds
  | succ rounds ih =>
    rw [readLineLoop]
    cases hunread : cutPair cr lf c.unread with
    | some cut =>
      obtain ⟨line', rest'⟩ := cut
      have hgrown := cutPair_append_right hunread (arriving c.recvs)
      obtain ⟨rfl, hrest⟩ := Prod.mk.inj (Option.some.inj (hgrown.symm.trans hcut))
      have hsplit := (eq_of_cutPair hunread).1
      have htake : c.unread.take (line'.length + 2) = line' ++ crlf := by
        rw [hsplit, List.take_append, List.take_of_length_le (Nat.le_add_right _ _),
          Nat.add_sub_cancel_left]
        rfl
      have htook := Took.consume c (line'.length + 2)
      rw [htake] at htook
      have hpending := htook.2.symm.trans (eq_of_cutPair hcut).1
      rw [List.append_assoc] at hpending
      exact ⟨_, rfl, htook, List.append_cancel_left (List.append_cancel_left hpending)⟩
    | none =>
      have hneed : c.unread.length + 1 ≤ c.pending.length := by
        rw [pending, List.length_append]
        apply Nat.add_le_add_left
        rw [Nat.one_le_iff_ne_zero]
        intro hlength
        rw [pending, List.length_eq_zero_iff.1 hlength, List.append_nil, hunread] at hcut
        cases hcut
      obtain ⟨c', hfill, -, htook, -, hfewer⟩ := fill_ok hneed
      rw [hfill]
      have hpending : c.pending = c'.pending := htook.2
      have hlt := hfewer (Nat.lt_succ_self _)
      rw [hpending] at hcut
      obtain ⟨c'', hread, htook', hrest⟩ := ih hcut (by omega)
      exact ⟨c'', hread, htook.trans htook', hrest⟩

lemma readLineLoop_error {rounds : Nat} (hcut : cutPair cr lf c.pending = none)
    (hrounds : c.recvs.length < rounds) : ∃ e, readLineLoop rounds c = (.error e, {}) := by
  induction rounds generalizing c with
  | zero => cases hrounds
  | succ rounds ih =>
    have hunread : cutPair cr lf c.unread = none := by
      cases hunread : cutPair cr lf c.unread with
      | none => rfl
      | some cut => exact absurd (hcut.symm.trans (cutPair_append_right hunread _)) nofun
    rw [readLineLoop, hunread]
    rcases Nat.lt_or_ge c.unread.length c.pending.length with hmore | hnone
    · obtain ⟨c', hfill, -, htook, -, hfewer⟩ := fill_ok (Nat.succ_le_of_lt hmore)
      have hpending : c.pending = c'.pending := htook.2
      have hlt := hfewer (Nat.lt_succ_self _)
      rw [hpending] at hcut
      simp only [hfill]
      exact ih hcut (by omega)
    · obtain ⟨e, hfill⟩ := fill_error (Nat.lt_succ_of_le hnone)
      exact ⟨e, by rw [hfill]⟩

lemma readLine_ok {line rest : Bytes} (hcut : cutPair cr lf c.pending = some (line, rest)) :
    ∃ c', c.readLine = (.ok line, c') ∧ Took c (line ++ crlf) c' ∧ c'.pending = rest :=
  readLineLoop_ok hcut (Nat.lt_succ_self _)

lemma readLine_error (hcut : cutPair cr lf c.pending = none) :
    ∃ e, c.readLine = (.error e, {}) :=
  readLineLoop_error hcut (Nat.lt_succ_self _)

lemma parseLl_eq_some_iff {s : Bytes} {n : Int} :
    parseLl s = some n ↔ intOf s = some n ∧ InInt64 n := by
  rw [parseLl, Option.filter_eq_some_iff, decide_eq_true_iff]

/-- The number that is read is within the limit, and its sign decides. -/
lemma lengthHeader_eq_ok {limit : Int} {what : String} {follows : Nat → Header} {rest : Bytes}
    {h : Header} (hh : lengthHeader limit what follows rest = .ok h) :
    ∃ n, intOf rest = some n ∧ (InInt64 n ∧ n ≤ limit) ∧
      (n < 0 ∧ h = .whole .nil ∨ ∃ k : Nat, n = k ∧ h = follows k) := by
  rw [lengthHeader] at hh
  cases hparse : parseLl rest with
  | none =>
    rw [hparse] at hh
    cases hh
  | some n =>
    simp only [hparse] at hh
    obtain ⟨htext, hrange⟩ := parseLl_eq_some_iff.1 hparse
    split_ifs at hh with hbig hneg
    · cases hh
      exact ⟨n, htext, ⟨hrange, Int.not_lt.1 hbig⟩, Or.inl ⟨hneg, rfl⟩⟩
    · cases hh
      exact ⟨n, htext, ⟨hrange, Int.not_lt.1 hbig⟩,
        Or.inr ⟨n.toNat, (Int.toNat_of_nonneg (Int.not_lt.1 hneg)).symm, rfl⟩⟩

lemma lengthHeader_neg {limit : Int} {what : String} {follows : Nat → Header} {rest : Bytes}
    {n : Int} (hrest : intOf rest = some n) (hn : InInt64 n ∧ n ≤ limit) (hneg : n < 0) :
    lengthHeader limit what follows rest = .ok (.whole .nil) := by
  simp only [lengthHeader, parseLl_eq_some_iff.2 ⟨hrest, hn.1⟩]
  rw [if_neg (Int.not_lt.2 hn.2), if_pos hneg]

lemma lengthHeader_nat {limit : Int} {what : String} {follows : Nat → Header} {rest : Bytes}
    {n : Nat} (hrest : intOf rest = some (n : Int)) (hn : InInt64 n ∧ (n : Int) ≤ limit) :
    lengthHeader limit what follows rest = .ok (follows n) := by
  simp only [lengthHeader, parseLl_eq_some_iff.2 ⟨hrest, hn.1⟩]
  rw [if_neg (Int.not_lt.2 hn.2), if_neg (Int.not_lt.2 (Int.natCast_nonneg n)), Int.toNat_natCast]

lemma firstLine_of_header {line : Bytes} {h : Header} (hh : header line = .ok h) :
    ∃ ms, FirstLine .client line h ms := by
  match line with
  | [] => cases hh
  | tag :: rest =>
    rw [header] at hh
    split_ifs at hh with hplus hminus hcolon hdollar hstar
    · cases hh
      rw [hplus]
      exact ⟨_, .simple rest⟩
    · cases hh
      rw [hminus]
      exact ⟨_, .err rest⟩
    · cases hn : parseLl rest with
      | none =>
        rw [hn] at hh
        cases hh
      | some n =>
        rw [hn] at hh
        cases hh
        rw [hcolon]
        exact ⟨_, .integer hn⟩
    · rw [hdollar]
      obtain ⟨n, htext, hn, ⟨hneg, rfl⟩ | ⟨k, rfl, rfl⟩⟩ := lengthHeader_eq_ok hh
      · exact ⟨_, .nilBulk htext hn hneg⟩
      · exact ⟨_, .bulk htext hn⟩
    · rw [hstar]
      obtain ⟨n, htext, hn, ⟨hneg, rfl⟩ | ⟨k, rfl, rfl⟩⟩ := lengthHeader_eq_ok hh
      · exact ⟨_, .nilArray htext hn hneg⟩
      · exact ⟨_, .array htext hn⟩

lemma header_of_firstLine {line : Bytes} {h : Header} {ms : List Mark}
    (hline : FirstLine .client line h ms) : header line = .ok h := by
  cases hline with
  | simple text => rfl
  | err text => rfl
  | @integer text n htext =>
    rw [header, if_neg (by decide), if_neg (by decide), if_pos rfl, htext]
  | bulk htext hn => exact lengthHeader_nat htext hn
  | nilBulk htext hn hneg => exact lengthHeader_neg htext hn hneg
  | array htext hn => exact lengthHeader_nat htext hn
  | nilArray htext hn hneg => exact lengthHeader_neg htext hn hneg

/-! ### Replies -/

lemma readMany_succ {read : RespClient → Except String Reply × RespClient} {n : Nat} {r : Reply}
    {rs : List Reply} (hr : read c = (.ok r, c')) (hrs : readMany read n c' = (.ok rs, c'')) :
    readMany read (n + 1) c = (.ok (r :: rs), c'') := by
  simp only [readMany, hr, hrs]

lemma read_of_readMany_one {read : RespClient → Except String Reply × RespClient} {r : Reply}
    (h : readMany read 1 c = (.ok [r], c')) : read c = (.ok r, c') := by
  rw [readMany] at h
  split at h
  · cases h
  · cases h
    assumption

/-- The bytes of a bulk string and its end are taken as soon as they have arrived. -/
lemma fill_bulk {str e s : Bytes} (hpending : c.pending = str ++ (e ++ s)) (he : e.length = 2) :
    ∃ c', c.fill (str.length + 2) = (.ok (), c') ∧ c'.unread.take str.length = str ∧
      Took c (str ++ e) (c'.consume (str.length + 2)) := by
  have hneed : str.length + 2 ≤ c.pending.length := by
    rw [hpending, List.length_append, List.length_append, he]
    omega
  obtain ⟨c', hfill, henough, htook, -⟩ := fill_ok hneed
  have hunread (n : Nat) (hn : n ≤ str.length + 2) : c'.unread.take n = c.pending.take n := by
    rw [htook.2, List.nil_append, pending, List.take_append_of_le_length (hn.trans henough)]
  have hstr : c'.unread.take str.length = str := by
    rw [hunread _ (Nat.le_add_right _ _), hpending, List.take_left]
  have hboth : c'.unread.take (str.length + 2) = str ++ e := by
    rw [hunread _ (Nat.le_refl _), hpending, ← List.append_assoc, ← he, ← List.length_append,
      List.take_left]
  have htaken := Took.consume c' (str.length + 2)
  rw [hboth] at htaken
  exact ⟨c', hfill, hstr, htook.trans htaken⟩

/-- Replies that come next are read, at any depth that suffices. -/
lemma readMany_ok {rs : List Reply} {ms : List Mark} {s : Bytes} {depth : Nat}
    (hframes : Frames .client b rs ms) (hpending : c.pending = b ++ s) (hdepth : b.length ≤ depth) :
    ∃ c', readMany (readReplyLoop depth) rs.length c = (.ok rs, c') ∧ Took c b c' := by
  induction hframes generalizing c s depth with
  | nil => exact ⟨c, rfl, .refl c⟩
  | @whole line b r rs ms ms' hno hline hrest ih =>
    rw [List.length_append, List.length_cons, List.length_cons] at hdepth
    obtain ⟨depth, rfl⟩ : ∃ d, depth = d + 1 := ⟨depth - 1, by omega⟩
    rw [List.append_assoc] at hpending
    obtain ⟨c₁, hread, htook, hpending₁⟩ :=
      readLine_ok (hpending ▸ cutPair_append (by decide) hno (b ++ s))
    have hreply : readReplyLoop (depth + 1) c = (.ok r, c₁) := by
      simp only [readReplyLoop, hread, header_of_firstLine hline]
    have hle : b.length ≤ depth + 1 := by omega
    obtain ⟨c₂, hmany, htook₂⟩ := ih hpending₁ hle
    have hboth := htook.trans htook₂
    rw [List.append_assoc] at hboth
    exact ⟨c₂, readMany_succ hreply hmany, hboth⟩
  | @bulk line str e b rs ms ms' hno hline he hrest ih =>
    rw [List.length_append, List.length_cons, List.length_cons, List.length_append,
      List.length_append] at hdepth
    obtain ⟨depth, rfl⟩ : ∃ d, depth = d + 1 := ⟨depth - 1, by omega⟩
    rw [List.append_assoc] at hpending
    obtain ⟨c₁, hread, htook, hpending₁⟩ :=
      readLine_ok (hpending ▸ cutPair_append (by decide) hno (str ++ (e ++ b) ++ s))
    rw [List.append_assoc, List.append_assoc] at hpending₁
    obtain ⟨c₂, hfill, hstr, htook₂⟩ := fill_bulk hpending₁ he
    have hreply : readReplyLoop (depth + 1) c = (.ok (.bulk str), c₂.consume (str.length + 2)) := by
      simp only [readReplyLoop, hread, header_of_firstLine hline, hfill, hstr]
    have hpending₂ : (c₂.consume (str.length + 2)).pending = b ++ s := by
      have hrest := htook₂.2.symm.trans hpending₁
      rw [List.append_assoc] at hrest
      exact List.append_cancel_left (List.append_cancel_left hrest)
    have hle : b.length ≤ depth + 1 := by omega
    obtain ⟨c₃, hmany, htook₃⟩ := ih hpending₂ hle
    have hall := (htook.trans htook₂).trans htook₃
    simp only [List.append_assoc] at hall
    exact ⟨c₃, readMany_succ hreply hmany, hall⟩
  | @array line b b' items rs ms ms' ms'' hno hline hitems hrest ihitems ih =>
    rw [List.length_append, List.length_cons, List.length_cons, List.length_append] at hdepth
    obtain ⟨depth, rfl⟩ : ∃ d, depth = d + 1 := ⟨depth - 1, by omega⟩
    rw [List.append_assoc] at hpending
    obtain ⟨c₁, hread, htook, hpending₁⟩ :=
      readLine_ok (hpending ▸ cutPair_append (by decide) hno (b ++ b' ++ s))
    rw [List.append_assoc] at hpending₁
    have hle : b.length ≤ depth := by omega
    have hle' : b'.length ≤ depth + 1 := by omega
    obtain ⟨c₂, hmany, htook₂⟩ := ihitems hpending₁ hle
    have hreply : readReplyLoop (depth + 1) c = (.ok (.array items), c₂) := by
      simp only [readReplyLoop, hread, header_of_firstLine hline, hmany]
    have hpending₂ : c₂.pending = b' ++ s :=
      List.append_cancel_left (htook₂.2.symm.trans hpending₁)
    obtain ⟨c₃, hmany', htook₃⟩ := ih hpending₂ hle'
    have hall := (htook.trans htook₂).trans htook₃
    simp only [List.append_assoc] at hall
    exact ⟨c₃, readMany_succ hreply hmany', hall⟩

/-- The outcome of the array behind its first line. -/
def arrayOf : Except String (List Reply) × RespClient → Except String Reply × RespClient
  | (.error e, c) => (.error e, c)
  | (.ok rs, c)   => (.ok (.array rs), c)

/-- What the client does with the bytes that come next. Only an array is read to a depth. -/
lemma readReplyLoop_cases (c : RespClient) :
    (∃ e, ∀ depth, readReplyLoop (depth + 1) c = (.error e, {})) ∨
    ∃ line c₁ h ms, ¬ crlf <:+: line ∧ Took c (line ++ crlf) c₁ ∧ FirstLine .client line h ms ∧
      match h with
      | .whole r  => ∀ depth, readReplyLoop (depth + 1) c = (.ok r, c₁)
      | .bulk len => ∃ str e c₂, str.length = len ∧ e.length = 2 ∧ Took c₁ (str ++ e) c₂ ∧
          ∀ depth, readReplyLoop (depth + 1) c = (.ok (.bulk str), c₂)
      | .array n  => ∀ depth, readReplyLoop (depth + 1) c =
          arrayOf (readMany (readReplyLoop depth) n c₁) := by
  cases hcut : cutPair cr lf c.pending with
  | none =>
    obtain ⟨e, hread⟩ := readLine_error hcut
    exact Or.inl ⟨e, fun depth => by simp only [readReplyLoop, hread]⟩
  | some cut =>
    obtain ⟨line, rest⟩ := cut
    obtain ⟨c₁, hread, htook, hrest⟩ := readLine_ok hcut
    have hno := (eq_of_cutPair hcut).2
    cases hheader : header line with
    | error e =>
      exact Or.inl ⟨e, fun depth => by simp only [readReplyLoop, hread, hheader, fail, close]⟩
    | ok h =>
      obtain ⟨ms, hline⟩ := firstLine_of_header hheader
      cases h with
      | whole r =>
        exact Or.inr ⟨line, c₁, _, ms, hno, htook, hline,
          fun depth => by simp only [readReplyLoop, hread, hheader]⟩
      | bulk len =>
        rcases Nat.lt_or_ge c₁.pending.length (len + 2) with hshort | henough
        · obtain ⟨e, hfill⟩ := fill_error hshort
          exact Or.inl ⟨e, fun depth => by simp only [readReplyLoop, hread, hheader, hfill]⟩
        · have hstr : (c₁.pending.take len).length = len :=
            List.length_take_of_le (by omega)
          have he : ((c₁.pending.drop len).take 2).length = 2 :=
            List.length_take_of_le (by rw [List.length_drop]; omega)
          have hsplit : c₁.pending = c₁.pending.take len ++
              ((c₁.pending.drop len).take 2 ++ (c₁.pending.drop len).drop 2) := by
            rw [List.take_append_drop, List.take_append_drop]
          obtain ⟨c₂, hfill, htake, htook₂⟩ := fill_bulk hsplit he
          rw [hstr] at hfill htake htook₂
          refine Or.inr ⟨line, c₁, _, ms, hno, htook, hline, _, _, _, hstr, he, htook₂, ?_⟩
          intro depth
          simp only [readReplyLoop, hread, hheader, hfill, htake]
      | array n =>
        refine Or.inr ⟨line, c₁, _, ms, hno, htook, hline, fun depth => ?_⟩
        simp only [readReplyLoop, hread, hheader]
        rfl

/-- A reader of single replies that come next, which closes the client when there is none. -/
def Reads (read : RespClient → Except String Reply × RespClient) : Prop :=
  ∀ c, (∃ e, read c = (.error e, {})) ∨
    ∃ r c' b ms, read c = (.ok r, c') ∧ Frames .client b [r] ms ∧ Took c b c'

lemma readMany_cases {read : RespClient → Except String Reply × RespClient} (hread : Reads read)
    (n : Nat) (c : RespClient) : (∃ e, readMany read n c = (.error e, {})) ∨
    ∃ rs c' b ms, readMany read n c = (.ok rs, c') ∧ rs.length = n ∧ Frames .client b rs ms ∧
      Took c b c' := by
  induction n generalizing c with
  | zero => exact Or.inr ⟨[], c, [], [], rfl, rfl, .nil, .refl c⟩
  | succ n ih =>
    obtain ⟨e, herror⟩ | ⟨r, c₁, b, ms, hok, hframe, htook⟩ := hread c
    · exact Or.inl ⟨e, by simp only [readMany, herror]⟩
    obtain ⟨e, herror⟩ | ⟨rs, c₂, b', ms', hok', hlength, hframes, htook'⟩ := ih c₁
    · exact Or.inl ⟨e, by simp only [readMany, hok, herror]⟩
    · refine Or.inr ⟨r :: rs, c₂, b ++ b', ms ++ ms', readMany_succ hok hok', ?_,
        hframe.cons hframes, htook.trans htook'⟩
      rw [List.length_cons, hlength]

lemma reads_readReplyLoop (depth : Nat) : Reads (readReplyLoop depth) := by
  induction depth with
  | zero => exact fun c => Or.inl ⟨_, rfl⟩
  | succ depth ih =>
    intro c
    obtain ⟨e, herror⟩ | ⟨line, c₁, h, ms, hno, htook, hline, hrest⟩ := readReplyLoop_cases c
    · exact Or.inl ⟨e, herror depth⟩
    cases h with
    | whole r =>
      exact Or.inr ⟨r, c₁, _, _, hrest depth, .whole hno hline .nil, htook⟩
    | bulk len =>
      obtain ⟨str, e, c₂, rfl, he, htook₂, hread⟩ := hrest
      refine Or.inr ⟨_, c₂, _, _, hread depth, .bulk hno hline he .nil, ?_⟩
      have hboth := htook.trans htook₂
      rw [List.append_assoc] at hboth
      rwa [List.append_nil]
    | array n =>
      have hread := hrest depth
      obtain ⟨e, herror⟩ | ⟨rs, c₂, b, ms', hok, rfl, hframes, htook₂⟩ := readMany_cases ih n c₁
      · exact Or.inl ⟨e, by rw [hread, herror]; rfl⟩
      · refine Or.inr ⟨.array rs, c₂, _, _, by rw [hread, hok]; rfl,
          .array hno hline hframes .nil, ?_⟩
        have hboth := htook.trans htook₂
        rw [List.append_assoc] at hboth
        rwa [List.append_nil]

/-- Readers that agree on clients with fewer bytes to come read the same replies. -/
lemma readMany_congr {read read' : RespClient → Except String Reply × RespClient}
    (hread : Reads read) {n : Nat}
    (hsame : ∀ c', c'.pending.length ≤ c.pending.length → read c' = read' c') :
    readMany read n c = readMany read' n c := by
  induction n generalizing c with
  | zero => rfl
  | succ n ih =>
    have hfirst := hsame c (Nat.le_refl _)
    obtain ⟨e, herror⟩ | ⟨r, c₁, b, ms, hok, -, htook⟩ := hread c
    · simp only [readMany, ← hfirst, herror]
    · have hle : c₁.pending.length ≤ c.pending.length := by
        rw [htook.2, List.length_append]
        omega
      simp only [readMany, ← hfirst, hok, ih fun c' hc' => hsame c' (hc'.trans hle)]

/-- More depth than there are bytes makes no difference. -/
lemma readReplyLoop_succ {depth : Nat} (hdepth : c.pending.length < depth) :
    readReplyLoop (depth + 1) c = readReplyLoop depth c := by
  induction depth generalizing c with
  | zero => cases hdepth
  | succ depth ih =>
    obtain ⟨e, herror⟩ | ⟨line, c₁, h, ms, hno, htook, hline, hrest⟩ := readReplyLoop_cases c
    · rw [herror, herror]
    cases h with
    | whole r => rw [hrest, hrest]
    | bulk len =>
      obtain ⟨str, e, c₂, -, -, -, hread⟩ := hrest
      rw [hread, hread]
    | array n =>
      rw [hrest, hrest]
      congr 1
      apply readMany_congr (reads_readReplyLoop _)
      intro c' hc'
      apply ih
      have hpending := congrArg List.length htook.2
      rw [List.length_append, List.length_append] at hpending
      have hcrlf : crlf.length = 2 := rfl
      omega

/-- The depth of `readReply` is as good as any that is larger. -/
lemma readReplyLoop_eq_readReply {depth : Nat} (hdepth : c.pending.length < depth) :
    readReplyLoop depth c = c.readReply := by
  induction depth, hdepth using Nat.le_induction with
  | base => rfl
  | succ depth hdepth ih => rw [readReplyLoop_succ hdepth, ih]

/-- Reading gives an error and closes the client, or it gives the reply that comes next. -/
lemma readReply_cases (c : RespClient) : (∃ e, c.readReply = (.error e, {})) ∨
    ∃ r c' b ms, c.readReply = (.ok r, c') ∧ Frames .client b [r] ms ∧ Took c b c' :=
  reads_readReplyLoop _ c

/-- A reply that comes next is read. -/
lemma readReply_ok {r : Reply} {ms : List Mark} {s : Bytes} (hframe : Frames .client b [r] ms)
    (hpending : c.pending = b ++ s) : ∃ c', c.readReply = (.ok r, c') ∧ Took c b c' := by
  have hdepth : b.length ≤ c.pending.length + 1 := by
    rw [hpending, List.length_append]
    omega
  obtain ⟨c', hmany, htook⟩ := readMany_ok hframe hpending hdepth
  exact ⟨c', read_of_readMany_one hmany, htook⟩

end RespClient

end HftBot.Resp
