import HftBot.Store.RawLog

/-!
# Lines of the raw log

A line is read back as the record it was written for, every field exact, provided that its bytes are
valid UTF-8. That is so if the strings of the record are, and the payload is when it passes
`is_valid_utf8`.
-/

namespace HftBot.Storage

open HftBot.Core HftBot.Core.Utf8 HftBot.Core.JsonText

/-! ### Decimals -/

lemma isDigit_toUInt8 {c : Char} (h : c.isDigit = true) :
    isDigit c.toUInt8 = true ∧ c.toUInt8.toNat = c.toNat := by
  obtain ⟨hlow, hhigh⟩ := Char.isDigit_iff_toNat.1 h
  have hlow' : 48 ≤ c.toNat := hlow
  have hhigh' : c.toNat ≤ 57 := hhigh
  have hnat : c.toUInt8.toNat = c.toNat := by
    change c.toNat % 256 = c.toNat
    omega
  refine ⟨?_, hnat⟩
  simp only [isDigit, decide_eq_true_eq, UInt8.le_iff_toNat_le, hnat]
  exact ⟨hlow, hhigh⟩

lemma isDigit_decimal (n : Nat) : ∀ b ∈ decimal n, isDigit b = true := by
  intro b hb
  obtain ⟨c, hc, rfl⟩ := List.mem_map.1 hb
  exact (isDigit_toUInt8 (Nat.isDigit_of_mem_toDigits (by decide) (by decide) hc)).1

lemma decimal_ne_nil (n : Nat) : decimal n ≠ [] := by
  simp [decimal, Nat.toDigits_ne_nil]

lemma natOf_decimal (n : Nat) : natOf (decimal n) = some n := by
  have hall : (decimal n).all isDigit = true := List.all_eq_true.2 (isDigit_decimal n)
  have hfold : ∀ (l : List Char) (init : Nat), (∀ c ∈ l, c.isDigit = true) →
      (l.map Char.toUInt8).foldl (fun n b => 10 * n + (b.toNat - '0'.toNat)) init =
        Nat.ofDigitChars 10 l init := by
    intro l
    induction l with
    | nil => intro init _; rw [Nat.ofDigitChars_nil]; rfl
    | cons c l ih =>
      intro init hl
      rw [List.map_cons, List.foldl_cons, Nat.ofDigitChars_cons,
        (isDigit_toUInt8 (hl c List.mem_cons_self)).2]
      exact ih _ fun d hd => hl d (List.mem_cons_of_mem c hd)
  rw [natOf, if_pos ⟨decimal_ne_nil n, hall⟩, decimal, hfold _ _ fun c hc =>
    Nat.isDigit_of_mem_toDigits (by decide) (by decide) hc, Nat.ofDigitChars_ten_toDigits]

/-- Only zero begins with a zero. -/
lemma toDigits_head {n : Nat} (hn : 0 < n) : (Nat.toDigits 10 n).head? ≠ some '0' := by
  induction n using Nat.base_induction 10 (by decide) with
  | single m hm =>
    rw [Nat.toDigits_of_lt_base hm]
    intro h
    have : m = 0 := by
      have hdigit := Nat.toNat_digitChar_sub_48_of_lt_ten hm
      rw [Option.some.inj h] at hdigit
      exact hdigit.symm
    omega
  | digit m k hk hm ih =>
    rw [← Nat.toDigits_append_toDigits (by decide) hm hk, List.head?_append_of_ne_nil]
    · exact ih hm
    · exact Nat.toDigits_ne_nil

lemma decimal_zero_or_head (n : Nat) :
    (decimal n).length = 1 ∨ (decimal n).head? ≠ some '0'.toUInt8 := by
  rcases Nat.eq_zero_or_pos n with rfl | hn
  · exact Or.inl (by simp [decimal])
  · refine Or.inr fun h => toDigits_head hn ?_
    rw [decimal, List.head?_map, Option.map_eq_some_iff] at h
    obtain ⟨c, hc, hzero⟩ := h
    have hdigit := isDigit_toUInt8 (Nat.isDigit_of_mem_toDigits (by decide) (by decide)
      (List.mem_of_mem_head? hc))
    have : c = '0' := Char.toNat_inj.1 (by rw [← hdigit.2, hzero]; rfl)
    rw [hc, this]

lemma readsAs_decimal (n : Nat) : ReadsAs (decimal n) (.num (decimal n)) :=
  readsAs_nat (isDigit_decimal n) (decimal_ne_nil n) (decimal_zero_or_head n)

lemma readsAs_signedDecimal (z : Int) : ReadsAs (signedDecimal z) (.num (signedDecimal z)) := by
  rw [signedDecimal]
  split_ifs with hz
  · exact readsAs_neg (isDigit_decimal _) (decimal_ne_nil _) (decimal_zero_or_head _)
  · exact readsAs_decimal _

lemma asUint64_decimal {n : Nat} (hn : n < 2 ^ 64) :
    (Value.num (decimal n)).asUint64 = some (UInt64.ofNat n) := by
  rw [Value.asUint64, natOf_decimal, Option.filter_some, decide_eq_true hn, if_pos rfl,
    Option.map_some]

lemma asInt64_signedDecimal (z : Int64) :
    (Value.num (signedDecimal z.toInt)).asInt64 = some z := by
  have hlow := z.le_toInt
  have hhigh := z.toInt_lt
  rw [signedDecimal]
  split_ifs with hz
  · have hle : z.toInt.natAbs ≤ 2 ^ 63 := by omega
    have hneg : (-(z.toInt.natAbs : Int)) = z.toInt := by omega
    rw [Value.asInt64, if_pos rfl, natOf_decimal, Option.filter_some, decide_eq_true hle,
      if_pos rfl, Option.map_some, hneg, Int64.ofInt_toInt]
  · obtain ⟨d, ds, hds⟩ := List.exists_cons_of_ne_nil (decimal_ne_nil z.toInt.natAbs)
    have hd : d ≠ '-'.toUInt8 := by
      rintro rfl
      exact absurd (isDigit_decimal z.toInt.natAbs '-'.toUInt8 (by rw [hds]; simp)) (by decide)
    have hlt : z.toInt.natAbs < 2 ^ 63 := by omega
    have habs : (z.toInt.natAbs : Int) = z.toInt := by omega
    have hnat := natOf_decimal z.toInt.natAbs
    rw [hds] at hnat ⊢
    rw [Value.asInt64, if_neg hd, hnat, Option.filter_some, decide_eq_true hlt, if_pos rfl,
      Option.map_some, habs, Int64.ofInt_toInt]

/-! ### Strings -/

/-- Four digits name a control character. -/
lemma control_code (c : UInt8) (hc : c < 0x20) : ∃ n,
    codeUnit (hex (c.toNat / 4096)) (hex (c.toNat / 256)) (hex (c.toNat / 16)) (hex c.toNat) =
      some n ∧ n < 0xd800 ∧
    (∀ b ∈ [hex (c.toNat / 4096), hex (c.toNat / 256), hex (c.toNat / 16), hex c.toNat], Plain b) ∧
    encode [Char.ofNat n] = [c] := by
  have hall : ∀ k < 32,
      codeUnit (hex (k / 4096)) (hex (k / 256)) (hex (k / 16)) (hex k) = some k ∧
      [hex (k / 4096), hex (k / 256), hex (k / 16), hex k].all (fun b => Plain b) = true ∧
      encode [Char.ofNat k] = [UInt8.ofNat k] := by
    decide +kernel
  have hlt : c.toNat < 32 := UInt8.lt_iff_toNat_lt.1 hc
  obtain ⟨hcode, hplain, hencode⟩ := hall c.toNat hlt
  exact ⟨c.toNat, hcode, by omega, forall_mem_of_all hplain, by rw [hencode, UInt8.ofNat_toNat]⟩

/-- The three ways in which a byte is written in a string: a backslash and a letter, a backslash
and four digits, or the byte itself. -/
lemma escapeByte_forms (c : UInt8) :
    (∃ e, escapeByte c = ['\\'.toUInt8, e] ∧ e ≠ 'u'.toUInt8 ∧ escapeLetter e = some c ∧
        IsAscii c ∧ IsAscii e ∧ ¬ e < 0x20) ∨
      (c < 0x20 ∧ escapeByte c = ['\\'.toUInt8, 'u'.toUInt8, hex (c.toNat / 4096),
        hex (c.toNat / 256), hex (c.toNat / 16), hex c.toNat]) ∨
      (Plain c ∧ escapeByte c = [c]) := by
  rw [escapeByte]
  by_cases hquote : c = '"'.toUInt8
  · rw [if_pos hquote, hquote]
    exact .inl ⟨'"'.toUInt8, rfl, by decide⟩
  rw [if_neg hquote]
  by_cases hback : c = '\\'.toUInt8
  · rw [if_pos hback, hback]
    exact .inl ⟨'\\'.toUInt8, rfl, by decide⟩
  rw [if_neg hback]
  by_cases hn : c = '\n'.toUInt8
  · rw [if_pos hn, hn]
    exact .inl ⟨'n'.toUInt8, rfl, by decide⟩
  rw [if_neg hn]
  by_cases hr : c = '\r'.toUInt8
  · rw [if_pos hr, hr]
    exact .inl ⟨'r'.toUInt8, rfl, by decide⟩
  rw [if_neg hr]
  by_cases ht : c = '\t'.toUInt8
  · rw [if_pos ht, ht]
    exact .inl ⟨'t'.toUInt8, rfl, by decide⟩
  rw [if_neg ht]
  by_cases hb : c = 0x08
  · rw [if_pos hb, hb]
    exact .inl ⟨'b'.toUInt8, rfl, by decide⟩
  rw [if_neg hb]
  by_cases hf : c = 0x0c
  · rw [if_pos hf, hf]
    exact .inl ⟨'f'.toUInt8, rfl, by decide⟩
  rw [if_neg hf]
  by_cases hcontrol : c < 0x20
  · rw [if_pos hcontrol]
    exact .inr (.inl ⟨hcontrol, rfl⟩)
  · rw [if_neg hcontrol]
    exact .inr (.inr ⟨⟨hcontrol, hquote, hback⟩, rfl⟩)

lemma escapes_escapeByte (c : UInt8) : Escapes (escapeByte c) [c] := by
  rcases escapeByte_forms c with ⟨e, heq, hu, hletter, -⟩ | ⟨hcontrol, heq⟩ | ⟨hplain, heq⟩
  · rw [heq]
    exact .letter hu hletter
  · obtain ⟨n, hn, hlt, hplain, hchar⟩ := control_code c hcontrol
    have hcode := Escapes.code hn hlt (.of_plain hplain)
    rw [hchar] at hcode
    rw [heq]
    exact hcode
  · rw [heq]
    exact .plain hplain

lemma readsAs_jsonEscape (s : Bytes) : ReadsAs (jsonEscape s) (.str s) :=
  readsAs_string (Escapes.flatMap fun b _ => escapes_escapeByte b)

lemma plain_base64Encode (s : Bytes) : ∀ b ∈ base64Encode s, IsAscii b ∧ Plain b := by
  have hall : kB64.all (fun b => IsAscii b ∧ Plain b) = true := by
    simp only [kB64, ascii, String.reduceToList]
    decide
  have hsextet : ∀ i < 64, IsAscii (sextet i) ∧ Plain (sextet i) := by
    intro i _
    have hlt : i &&& 63 < kB64.length := Nat.lt_succ_of_le Nat.and_le_right
    rw [sextet, List.getD_eq_getElem?_getD, List.getElem?_eq_getElem hlt, Option.getD_some]
    exact forall_mem_of_all hall _ (List.getElem_mem hlt)
  exact forall_mem_base64Encode hsextet (by decide) s

/-! ### Records -/

/-- What the members of a line are read as. -/
def RawRecord.rows (rec : RawRecord) : List (String × Option Value) :=
  [("recv_mono_ns", some (.num (signedDecimal rec.recvMonoNs.toInt))),
    ("recv_wall_ns", some (.num (signedDecimal rec.recvWallNs.toInt))),
    ("source_event_time_ms", rec.sourceEventTimeMs.map fun ms => .num (signedDecimal ms.toInt)),
    ("source", some (.str (ascii rec.source.toString))),
    ("channel", some (.str rec.channel)),
    ("source_ticker", some (.str rec.sourceTicker)),
    ("source_sequence", rec.sourceSequence.map fun n => .num (decimal n.toNat)),
    ("sid", rec.sourceStreamId.map fun n => .num (decimal n.toNat)),
    ("stream_epoch",
      if rec.streamEpoch ≠ 0 then some (.num (decimal rec.streamEpoch.toNat)) else none),
    ("marker", rec.marker.map .str),
    ("raw", if isValidUtf8 rec.raw then some (.str rec.raw) else none),
    ("raw_b64", if isValidUtf8 rec.raw then none else some (.str (base64Encode rec.raw)))]

lemma rel_map {α β γ : Type} {R : α → β → Prop} {f : γ → α} {g : γ → β} (h : ∀ x, R (f x) (g x))
    (o : Option γ) : Option.Rel R (o.map f) (o.map g) := by
  cases o with
  | none => exact .none
  | some x => exact .some (h x)

lemma plain_source (s : SourceId) : ∀ b ∈ ascii s.toString, IsAscii b ∧ Plain b := by
  cases s <;> exact forall_mem_of_all (by decide)

/-- The names of all members. -/
def names : List String :=
  ["recv_mono_ns", "recv_wall_ns", "source_event_time_ms", "source", "channel", "source_ticker",
    "source_sequence", "sid", "stream_epoch", "marker", "raw", "raw_b64"]

lemma names_printable : ∀ name ∈ names, ∀ b ∈ ascii name, IsAscii b ∧ Plain b := by
  have hall : ∀ name ∈ names, (ascii name).all (fun b => IsAscii b ∧ Plain b) = true := by
    simp only [names, List.forall_mem_cons, ascii, String.reduceToList]
    decide
  exact fun name hname => forall_mem_of_all (hall name hname)

lemma names_nodup : (names.map ascii).Nodup := by
  simp only [names, List.map_cons, List.map_nil, ascii, String.reduceToList]
  decide

lemma texts_printable (rec : RawRecord) :
    ∀ row ∈ rec.texts, ∀ b ∈ ascii row.1, IsAscii b ∧ Plain b := by
  intro row hrow
  have hnames : rec.texts.map Prod.fst = names := rfl
  exact names_printable row.1 (hnames ▸ List.mem_map_of_mem hrow)

lemma rowAs_texts (rec : RawRecord) : List.Forall₂ RowAs rec.texts rec.rows := by
  simp only [RawRecord.rows, RawRecord.texts, List.forall₂_cons, List.forall₂_nil_right_iff]
  refine ⟨⟨rfl, .some (readsAs_signedDecimal _)⟩, ⟨rfl, .some (readsAs_signedDecimal _)⟩,
    ⟨rfl, rel_map (fun _ => readsAs_signedDecimal _) _⟩,
    ⟨rfl, .some (readsAs_string (.of_plain fun b hb => (plain_source _ b hb).2))⟩,
    ⟨rfl, .some (readsAs_jsonEscape _)⟩, ⟨rfl, .some (readsAs_jsonEscape _)⟩,
    ⟨rfl, rel_map (fun _ => readsAs_decimal _) _⟩, ⟨rfl, rel_map (fun _ => readsAs_decimal _) _⟩,
    ⟨rfl, ?_⟩, ⟨rfl, rel_map (fun _ => readsAs_jsonEscape _) _⟩, ⟨rfl, ?_⟩, ⟨rfl, ?_⟩, trivial⟩
  · split_ifs
    · exact .some (readsAs_decimal _)
    · exact .none
  · split_ifs
    · exact .some (readsAs_jsonEscape _)
    · exact .none
  · split_ifs
    · exact .none
    · exact .some (readsAs_string (.of_plain fun b hb => (plain_base64Encode _ b hb).2))

/-- The members of a line are read as those of its record. -/
lemma memberAs_texts (rec : RawRecord) :
    List.Forall₂ MemberAs (present rec.texts) (membersOf rec.rows) :=
  memberAs_present (fun row hrow b hb => (texts_printable rec row hrow b hb).2) (rowAs_texts rec)

lemma sourceFromWire_toString (s : SourceId) : sourceFromWire (ascii s.toString) = s := by
  cases s <;> decide

/-- Reading the members gives back the record. -/
lemma recordOf_rows (rec : RawRecord) : recordOf (membersOf rec.rows) = rec := by
  have hnodup : (rec.rows.map fun row => ascii row.1).Nodup := names_nodup
  have hfield : ∀ row ∈ rec.rows, field (membersOf rec.rows) row.1 = row.2 :=
    fun row hrow => field_membersOf hnodup hrow
  generalize membersOf rec.rows = members at hfield ⊢
  simp only [RawRecord.rows, List.forall_mem_cons] at hfield
  obtain ⟨hmono, hwall, htime, hsource, hchannel, hticker, hsequence, hsid, hepoch, hmarker, hraw,
    hb64, -⟩ := hfield
  have hsigned : ∀ o : Option Int64,
      (o.map fun z => Value.num (signedDecimal z.toInt)).bind Value.asInt64 = o := by
    intro o
    cases o with
    | none => rfl
    | some z => exact asInt64_signedDecimal z
  have hunsigned : ∀ o : Option UInt64,
      (o.map fun n => Value.num (decimal n.toNat)).bind Value.asUint64 = o := by
    intro o
    cases o with
    | none => rfl
    | some n => simpa using asUint64_decimal n.toNat_lt
  have hepoch' : (((field members "stream_epoch").bind Value.asUint64).map UInt64.toUInt32).getD 0 =
      rec.streamEpoch := by
    rw [hepoch]
    split_ifs with hzero
    · have hlt : rec.streamEpoch.toNat < 2 ^ 64 := Nat.lt_trans rec.streamEpoch.toNat_lt (by decide)
      rw [Option.bind_some, asUint64_decimal hlt]
      exact UInt32.toNat_inj.1 (by simp)
    · exact (not_not.1 hzero).symm
  have hmarker' : (field members "marker").bind Value.asString = rec.marker := by
    rw [hmarker]
    cases rec.marker <;> rfl
  have hraw' : rawOf ((field members "raw").bind Value.asString)
      ((field members "raw_b64").bind Value.asString) = rec.raw := by
    rw [hraw, hb64]
    cases isValidUtf8 rec.raw with
    | true => rfl
    | false => exact base64Decode_encode rec.raw
  simp only [recordOf, hmono, hwall, htime, hsource, hchannel, hticker, hsequence, hsid, hepoch',
    hmarker', hraw', hsigned, hunsigned, Option.bind_some, asInt64_signedDecimal, Value.asString,
    Option.map_some, Option.getD_some, sourceFromWire_toString]

/-! ### Bytes of a line -/

lemma printable_of_isDigit {b : UInt8} (h : isDigit b = true) : IsAscii b ∧ ¬ b < 0x20 := by
  simp only [isDigit, decide_eq_true_eq, UInt8.le_iff_toNat_le] at h
  simp only [IsAscii, UInt8.lt_iff_toNat_lt]
  have hlow : 48 ≤ b.toNat := h.1
  have hhigh : b.toNat ≤ 57 := h.2
  constructor
  · exact Nat.lt_of_le_of_lt hhigh (by decide)
  · exact Nat.not_lt.2 (Nat.le_trans (by decide) hlow)

lemma printable_decimal (n : Nat) : ∀ b ∈ decimal n, IsAscii b ∧ ¬ b < 0x20 :=
  fun b hb => printable_of_isDigit (isDigit_decimal n b hb)

lemma printable_signedDecimal (z : Int) : ∀ b ∈ signedDecimal z, IsAscii b ∧ ¬ b < 0x20 := by
  rw [signedDecimal]
  split_ifs with hz
  · exact List.forall_mem_cons.2 ⟨by decide, printable_decimal _⟩
  · exact printable_decimal _

/-- A byte is written as it is, or it is ASCII and a backslash and more of ASCII are written. -/
lemma escapeByte_cases (c : UInt8) :
    (escapeByte c = [c] ∧ Plain c) ∨
      (IsAscii c ∧ ∃ x e, escapeByte c = '\\'.toUInt8 :: x :: e ∧ (IsAscii x ∧ ¬ x < 0x20) ∧
        ∀ b ∈ e, IsAscii b ∧ Plain b) := by
  have hhex : ∀ n, IsAscii (hex n) ∧ Plain (hex n) := by
    intro n
    have hall : (ascii "0123456789abcdef").all (fun b => IsAscii b ∧ Plain b) = true := by
      simp only [ascii, String.reduceToList]
      decide
    have hlt : n % 16 < (ascii "0123456789abcdef").length := Nat.mod_lt n (by decide)
    rw [hex, List.getD_eq_getElem?_getD, List.getElem?_eq_getElem hlt, Option.getD_some]
    exact forall_mem_of_all hall _ (List.getElem_mem hlt)
  rcases escapeByte_forms c with ⟨e, heq, -, -, hc, he⟩ | ⟨hcontrol, heq⟩ | ⟨hplain, heq⟩
  · exact Or.inr ⟨hc, e, [], heq, he, by simp⟩
  · refine Or.inr ⟨UInt8.lt_trans hcontrol (by decide), _, _, heq, by decide, ?_⟩
    simp only [List.forall_mem_cons]
    exact ⟨hhex _, hhex _, hhex _, hhex _, by simp⟩
  · exact Or.inl ⟨heq, hplain⟩

lemma valid_flatMap_escapeByte_iff (s : Bytes) : ∀ x : Bytes,
    Valid (x ++ s.flatMap escapeByte) ↔ Valid (x ++ s) := by
  -- `x` collects the bytes that are written as they are
  induction s with
  | nil => exact fun x => Iff.rfl
  | cons c s ih =>
    intro x
    rw [List.flatMap_cons]
    rcases escapeByte_cases c with ⟨hsame, -⟩ | ⟨hc, x', e, hescape, hx, he⟩
    · rw [hsame]
      simpa using ih (x ++ [c])
    · rw [hescape, List.cons_append, List.cons_append, valid_append_cons_iff (by decide),
        valid_cons_iff hx.1, valid_append_iff fun b hb => (he b hb).1, valid_append_cons_iff hc]
      exact and_congr_right fun _ => ih []

lemma valid_jsonEscape_iff (s : Bytes) : Valid (jsonEscape s) ↔ Valid s := by
  rw [jsonEscape, List.cons_append, valid_cons_iff (by decide), valid_append_cons_iff (by decide),
    and_iff_left Valid.nil]
  exact valid_flatMap_escapeByte_iff s []

/-- The strings of a record are valid, and so is its payload if it passes `is_valid_utf8`. -/
def RawRecord.Storable (rec : RawRecord) : Prop :=
  Valid rec.channel ∧ Valid rec.sourceTicker ∧ (∀ m ∈ rec.marker, Valid m) ∧
    (isValidUtf8 rec.raw = true → Valid rec.raw)

instance (rec : RawRecord) : Decidable rec.Storable := inferInstanceAs (Decidable (_ ∧ _ ∧ _ ∧ _))

lemma valid_of_printable {s : Bytes} (h : ∀ b ∈ s, IsAscii b ∧ ¬ b < 0x20) : Valid s :=
  valid_of_isAscii fun b hb => (h b hb).1

/-- What holds of every text that may be written holds of the members of a line. -/
lemma forall_mem_texts {Q : Bytes → Prop} {rec : RawRecord} (hsigned : ∀ z, Q (signedDecimal z))
    (hdecimal : ∀ n, Q (decimal n))
    (hquoted : ∀ s, (∀ b ∈ s, IsAscii b ∧ Plain b) → Q ('"'.toUInt8 :: s ++ ['"'.toUInt8]))
    (hchannel : Q (jsonEscape rec.channel)) (hticker : Q (jsonEscape rec.sourceTicker))
    (hmarker : ∀ m ∈ rec.marker, Q (jsonEscape m))
    (hraw : isValidUtf8 rec.raw = true → Q (jsonEscape rec.raw)) :
    ∀ row ∈ rec.texts, ∀ a ∈ row.2, Q a := by
  simp only [RawRecord.texts, List.forall_mem_cons, Option.mem_def, Option.some.injEq, forall_eq']
  refine ⟨hsigned _, hsigned _, ?_, hquoted _ (plain_source _), hchannel, hticker, ?_, ?_, ?_, ?_,
    ?_, ?_, fun _ hrow => absurd hrow List.not_mem_nil⟩
  · intro a ha
    obtain ⟨z, -, rfl⟩ := Option.map_eq_some_iff.1 ha
    exact hsigned _
  · intro a ha
    obtain ⟨n, -, rfl⟩ := Option.map_eq_some_iff.1 ha
    exact hdecimal _
  · intro a ha
    obtain ⟨n, -, rfl⟩ := Option.map_eq_some_iff.1 ha
    exact hdecimal _
  · intro a ha
    split_ifs at ha
    rw [← Option.some.inj ha]
    exact hdecimal _
  · intro a ha
    obtain ⟨m, hm, rfl⟩ := Option.map_eq_some_iff.1 ha
    exact hmarker m hm
  · intro a ha
    split_ifs at ha with htext
    rw [← Option.some.inj ha]
    exact hraw htext
  · intro a ha
    split_ifs at ha
    rw [← Option.some.inj ha]
    exact hquoted _ (plain_base64Encode _)

/-- A line is valid UTF-8 exactly if its record is storable. -/
lemma valid_body_iff (rec : RawRecord) : Valid rec.body ↔ rec.Storable := by
  have hnames : ∀ m ∈ present rec.texts, ∀ b ∈ ascii m.1, IsAscii b := by
    rw [forall_present_iff]
    exact fun row hrow _ _ b hb => (texts_printable rec row hrow b hb).1
  rw [RawRecord.body, valid_objectText_iff hnames, forall_present_iff]
  constructor
  · simp only [RawRecord.texts, List.forall_mem_cons, Option.mem_def, Option.some.injEq, forall_eq']
    rintro ⟨-, -, -, -, hchannel, hticker, -, -, -, hmarker, hraw, -⟩
    refine ⟨(valid_jsonEscape_iff _).1 hchannel, (valid_jsonEscape_iff _).1 hticker,
      fun m hm => (valid_jsonEscape_iff m).1 (hmarker _ ?_),
      fun htext => (valid_jsonEscape_iff _).1 (hraw _ (if_pos htext))⟩
    rw [hm, Option.map_some]
  · rintro ⟨hchannel, hticker, hmarker, hraw⟩
    refine forall_mem_texts (fun z => valid_of_printable (printable_signedDecimal z))
      (fun n => valid_of_printable (printable_decimal n)) (fun s hs => ?_)
      ((valid_jsonEscape_iff _).2 hchannel) ((valid_jsonEscape_iff _).2 hticker)
      (fun m hm => (valid_jsonEscape_iff m).2 (hmarker m hm))
      (fun htext => (valid_jsonEscape_iff _).2 (hraw htext))
    rw [List.cons_append, valid_cons_iff (by decide), valid_append_cons_iff (by decide)]
    exact ⟨valid_of_isAscii fun b hb => (hs b hb).1, .nil⟩

lemma printable_jsonEscape (s : Bytes) : ∀ b ∈ jsonEscape s, ¬ b < 0x20 := by
  intro b hb
  simp only [jsonEscape, List.cons_append, List.mem_cons, List.mem_append, List.mem_flatMap,
    List.not_mem_nil, or_false] at hb
  rcases hb with rfl | ⟨c, -, hb⟩ | rfl
  · decide
  · rcases escapeByte_cases c with ⟨hsame, hc⟩ | ⟨-, x, e, hescape, hx, he⟩
    · rw [hsame, List.mem_singleton] at hb
      rw [hb]
      exact hc.1
    · rw [hescape, List.mem_cons, List.mem_cons] at hb
      rcases hb with rfl | rfl | hb
      · decide
      · exact hx.2
      · exact (he b hb).2.1
  · decide

/-- A line has no control characters, its end apart. -/
lemma printable_body (rec : RawRecord) : ∀ b ∈ rec.body, ¬ b < 0x20 := by
  have htexts : ∀ row ∈ rec.texts, ∀ a ∈ row.2, ∀ b ∈ a, ¬ b < 0x20 := by
    refine forall_mem_texts (fun z b hb => (printable_signedDecimal z b hb).2)
      (fun n b hb => (printable_decimal n b hb).2) (fun s hs => ?_) (printable_jsonEscape _)
      (printable_jsonEscape _) (fun m _ => printable_jsonEscape m)
      (fun _ => printable_jsonEscape _)
    intro b hb
    simp only [List.cons_append, List.mem_cons, List.mem_append, List.not_mem_nil, or_false] at hb
    rcases hb with rfl | hb | rfl
    · decide
    · exact (hs b hb).2.1
    · decide
  refine forall_mem_objectText (forall_mem_of_all (by decide))
    (forall_present_iff.2 fun row hrow a ha => ⟨?_, ?_⟩)
  · exact fun b hb => (texts_printable rec row hrow b hb).2.1
  · exact htexts row hrow a ha

lemma newline_notMem_body (rec : RawRecord) : newline ∉ rec.body :=
  fun h => printable_body rec newline h (by decide)

lemma body_ne_nil (rec : RawRecord) : rec.body ≠ [] := List.cons_ne_nil _ _

/-- A parser that takes the texts of the standard for what they are there and refuses what is not
valid UTF-8. It may look at the fields of an object only when they are asked for, so nothing is said
of texts that are valid but no JSON. -/
structure Conforms (parse : Bytes → Option Value) : Prop where
  takes   : ∀ text v, read text = some v → parse text = some v
  refuses : ∀ text, ¬ Valid text → parse text = none

lemma conforms_read : Conforms read :=
  ⟨fun _ _ h => h, fun _ h => if_neg h⟩

/-- A line is read back as its record, or not at all. -/
theorem recordOfLine_body {parse : Bytes → Option Value} (hparse : Conforms parse)
    (rec : RawRecord) :
    RawLogReader.recordOfLine parse rec.body = if rec.Storable then some rec else none := by
  have hne : present rec.texts ≠ [] := List.cons_ne_nil _ _
  have hread : read rec.body = if Valid rec.body then some (.obj (membersOf rec.rows)) else none :=
    read_objectText (memberAs_texts rec) hne
  by_cases hvalid : Valid rec.body
  · rw [if_pos hvalid] at hread
    rw [RawLogReader.recordOfLine, hparse.takes _ _ hread, if_pos ((valid_body_iff rec).1 hvalid),
      Option.bind_some, Value.asObject, Option.map_some, recordOf_rows]
  · rw [RawLogReader.recordOfLine, hparse.refuses _ hvalid,
      if_neg fun h => hvalid ((valid_body_iff rec).2 h), Option.bind_none, Option.map_none]

end HftBot.Storage
