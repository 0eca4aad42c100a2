import HftBot.Core.JsonObject
import HftBot.Engine.OrderId
import HftBot.Feed.FixedPoint
import HftBot.Store.RawLine

/-!
# Body of an order

From the 80 bytes of a frame to the JSON object that places the order. The book of the exchange is
YES-normalized: buying YES and selling NO are bids, the others asks at the complementary price. The
body is put together without escapes, which is safe for the characters that a ticker may have.
-/

namespace HftBot.Wire

open HftBot.Core HftBot.Core.Utf8 HftBot.Core.JsonText
open HftBot.FixedPoint (parsePriceE4)
open HftBot.Storage (decimal signedDecimal natOf_decimal isDigit_decimal)

/-! ### Frames -/

/-- A number whose low byte comes first. -/
def littleEndian (bytes : Bytes) : Nat := bytes.foldr (fun b n => b.toNat + 256 * n) 0

/-- The fields of a frame, which are packed. -/
def ExecPayload.ofFrame (bytes : Vector UInt8 80) : ExecPayload where
  magic      := bytes[0]
  version    := bytes[1]
  strategyId := bytes[2]
  action     := bytes[3]
  side       := bytes[4]
  orderType  := bytes[5]
  count      := .ofInt (littleEndian (bytes.extract 6 10).toList)
  priceCents := .ofInt (littleEndian (bytes.extract 10 14).toList)
  seq        := littleEndian (bytes.extract 14 22).toList
  tsNs       := .ofNat (littleEndian (bytes.extract 22 30).toList)
  ttlNs      := .ofNat (littleEndian (bytes.extract 30 38).toList)
  ticker     := bytes.extract 38 80

/-- `decode_exec` on the bytes of a frame. -/
def decodeFrame (bytes : Bytes) : Except String ExecPayload :=
  if h : bytes.length = 80 then decodeExec (.ofFrame ⟨bytes.toArray, by simpa using h⟩)
  else .error "bad size"

/-! ### The body -/

def isBid (p : ExecPayload) : Bool := (p.action == kActionBuy) == (p.side == kSideYes)

def yesCents (p : ExecPayload) : Int :=
  if p.orderType = kTypeMarket then if isBid p then 99 else 1
  else if p.side = kSideYes then p.priceCents.toInt else 100 - p.priceCents.toInt

/-- `%d.%02d00` of the dollars and the cents. -/
def priceText (cents : Int) : Bytes :=
  signedDecimal (cents.tdiv 100) ++ '.'.toUInt8 ::
    (signedDecimal (cents.tmod 100)).leftpad 2 '0'.toUInt8 ++ ascii "00"

def orderJson (p : ExecPayload) (postOnly : Bool) : Bytes :=
  ascii "\x7b\"ticker\":\"" ++ p.tickerView ++
  ascii "\",\"side\":\"" ++ ascii (if isBid p then "bid" else "ask") ++
  ascii "\",\"count\":\"" ++ signedDecimal p.count.toInt ++
  ascii "\",\"price\":\"" ++ priceText (yesCents p) ++
  ascii "\",\"time_in_force\":\"" ++
  ascii (if p.orderType = kTypeMarket then "immediate_or_cancel" else "good_till_canceled") ++
  ascii "\",\"self_trade_prevention_type\":\"taker_at_cross\"" ++
  (if postOnly then ascii ",\"post_only\":true" else []) ++
  ascii ",\"client_order_id\":\"" ++ clientOrderId p ++
  ascii "\"\x7d"

/-- The members of the body, of which one is not always there. -/
def bodyRows (p : ExecPayload) (postOnly : Bool) : List (String × Option Bytes) :=
  let quote (s : Bytes) : Option Bytes := some ('"'.toUInt8 :: s ++ ['"'.toUInt8])
  [("ticker", quote p.tickerView),
    ("side", quote (ascii (if isBid p then "bid" else "ask"))),
    ("count", quote (signedDecimal p.count.toInt)),
    ("price", quote (priceText (yesCents p))),
    ("time_in_force", quote (ascii
      (if p.orderType = kTypeMarket then "immediate_or_cancel" else "good_till_canceled"))),
    ("self_trade_prevention_type", quote (ascii "taker_at_cross")),
    ("post_only", if postOnly then some (ascii "true") else none),
    ("client_order_id", quote (clientOrderId p))]

lemma orderJson_eq (p : ExecPayload) (postOnly : Bool) :
    orderJson p postOnly = objectText (present (bodyRows p postOnly)) := by
  cases postOnly <;>
  · simp only [orderJson, bodyRows, present, objectText, membersText, memberText,
      List.filterMap_cons, List.filterMap_nil, List.map_cons, List.map_nil, Option.map_some,
      Option.map_none, List.intercalate_cons_cons, List.intercalate_singleton, List.append_assoc,
      List.cons_append, List.nil_append, Bool.false_eq_true, ↓reduceIte]
    rfl

/-! ### Characters -/

/-- An ASCII byte that stands for itself in a string. -/
def Printable (b : UInt8) : Prop := Plain b ∧ IsAscii b

instance (b : UInt8) : Decidable (Printable b) := inferInstanceAs (Decidable (_ ∧ _))

/-- A property of all bytes is one of the numbers below 256. -/
lemma forall_byte {P : UInt8 → Prop} (h : ∀ n < 256, P (UInt8.ofNat n)) (b : UInt8) : P b := by
  have hb := h b.toNat b.toNat_lt
  rwa [UInt8.ofNat_toNat] at hb

lemma printable_of_tickerByte (b : UInt8) : tickerByte b = true → Printable b :=
  forall_byte (P := fun b => tickerByte b = true → Printable b) (by decide +kernel) b

lemma printable_of_lowerHex (b : UInt8) : LowerHex b → Printable b :=
  forall_byte (P := fun b => LowerHex b → Printable b) (by decide +kernel) b

lemma printable_of_isDigit (b : UInt8) : isDigit b = true → Printable b :=
  forall_byte (P := fun b => isDigit b = true → Printable b) (by decide +kernel) b

/-- What holds of a separator and of what it stands between holds of the text. -/
lemma forall_mem_intercalate {P : UInt8 → Prop} {sep : Bytes} {groups : List Bytes}
    (hsep : ∀ b ∈ sep, P b) (hgroups : ∀ g ∈ groups, ∀ b ∈ g, P b) :
    ∀ b ∈ sep.intercalate groups, P b := by
  induction groups with
  | nil =>
    rw [List.intercalate_nil]
    exact fun b hb => absurd hb List.not_mem_nil
  | cons g groups ih =>
    obtain ⟨hg, hgroups⟩ := List.forall_mem_cons.1 hgroups
    cases groups with
    | nil =>
      rw [List.intercalate_singleton]
      exact hg
    | cons g' groups =>
      rw [List.intercalate_cons_cons, List.forall_mem_append, List.forall_mem_append]
      exact ⟨⟨hg, hsep⟩, ih hgroups⟩

lemma printable_clientOrderId (p : ExecPayload) : ∀ b ∈ clientOrderId p, Printable b := by
  obtain ⟨groups, heq, -, hhex⟩ := uuidForm_clientOrderId p
  rw [heq]
  refine forall_mem_intercalate ?_ fun g hg b hb => printable_of_lowerHex b (hhex g hg b hb)
  exact List.forall_mem_singleton.2 (by decide)

lemma signedDecimal_of_pos {z : Int} (hz : 0 < z) : signedDecimal z = decimal z.natAbs := by
  rw [signedDecimal, if_neg (Int.not_lt.2 hz.le)]

/-- The cents of a price are read back as they were written. -/
lemma priceText_spec : ∀ n : Nat, n < 100 → 0 < n → (∀ b ∈ priceText n, Printable b) ∧
    parsePriceE4 ((priceText n).map fun b => Char.ofNat b.toNat) = some (100 * (n : Int)) := by
  have hall : ∀ n : Nat, n < 100 → 0 < n → (priceText n).all (fun b => Printable b) = true ∧
      parsePriceE4 ((priceText n).map fun b => Char.ofNat b.toNat) = some (100 * (n : Int)) := by
    decide +kernel
  exact fun n hn hpos => ⟨forall_mem_of_all (hall n hn hpos).1, (hall n hn hpos).2⟩

/-! ### What the body says -/

/-- A bid on the YES side. -/
def Bid (p : ExecPayload) : Prop :=
  (p.action = kActionBuy ∧ p.side = kSideYes) ∨ (p.action = kActionSell ∧ p.side = kSideNo)

instance (p : ExecPayload) : Decidable (Bid p) := inferInstanceAs (Decidable (_ ∨ _))

/-- The price of YES, in cents, that an intent stands for. -/
def yesPrice (p : ExecPayload) : Int :=
  if p.orderType = kTypeMarket then if Bid p then 99 else 1
  else if p.side = kSideNo then 100 - p.priceCents.toInt else p.priceCents.toInt

/-- A text is a JSON object without duplicate names that asks for the order of an intent. -/
structure AsksFor (body : Bytes) (p : ExecPayload) (members : List (Bytes × Value)) : Prop where
  read   : read body = some (.obj members)
  nodup  : (members.map Prod.fst).Nodup
  ticker : field members "ticker" = some (.str p.tickerView)
  count  : ∃ text, field members "count" = some (.str text) ∧
    (natOf text).map Int.ofNat = some p.count.toInt
  side   : field members "side" = some (.str (ascii (if Bid p then "bid" else "ask")))
  price  : ∃ text, field members "price" = some (.str text) ∧
    parsePriceE4 (text.map fun b => Char.ofNat b.toNat) = some (100 * yesPrice p) ∧
    100 ≤ 100 * yesPrice p ∧ 100 * yesPrice p ≤ 9900

/-- The values of the members of a body. -/
def bodyValues (p : ExecPayload) (postOnly : Bool) : List (String × Option Value) :=
  [("ticker", some (.str p.tickerView)),
    ("side", some (.str (ascii (if isBid p then "bid" else "ask")))),
    ("count", some (.str (signedDecimal p.count.toInt))),
    ("price", some (.str (priceText (yesCents p)))),
    ("time_in_force", some (.str (ascii
      (if p.orderType = kTypeMarket then "immediate_or_cancel" else "good_till_canceled")))),
    ("self_trade_prevention_type", some (.str (ascii "taker_at_cross"))),
    ("post_only", if postOnly then some (.bool true) else none),
    ("client_order_id", some (.str (clientOrderId p)))]

/-- A row that is read as it should be and is valid UTF-8. -/
def SafeRow (row : String × Option Bytes) (row' : String × Option Value) : Prop :=
  RowAs row row' ∧ ∀ text ∈ row.2, Valid text

lemma safeRow_string (name : String) {s : Bytes} (hs : ∀ b ∈ s, Printable b) :
    SafeRow (name, some ('"'.toUInt8 :: s ++ ['"'.toUInt8])) (name, some (.str s)) := by
  refine ⟨⟨rfl, .some (readsAs_string (Escapes.of_plain fun b hb => (hs b hb).1))⟩, ?_⟩
  rintro _ ⟨⟩
  refine valid_of_isAscii ?_
  rw [List.cons_append, List.forall_mem_cons, List.forall_mem_append, List.forall_mem_singleton]
  exact ⟨by decide, fun b hb => (hs b hb).2, by decide⟩

lemma readsAs_true : ReadsAs (ascii "true") (.bool true) := by
  constructor
  · intro t
    exact skipSpace_cons (by decide) _
  · intro n t _
    rfl

lemma printable_bodyNames (p : ExecPayload) (postOnly : Bool) :
    ∀ row ∈ bodyRows p postOnly, ∀ b ∈ ascii row.1, Printable b := by
  simp only [bodyRows, List.forall_mem_cons]
  refine ⟨?_, ?_, ?_, ?_, ?_, ?_, ?_, ?_, fun _ hrow => absurd hrow List.not_mem_nil⟩ <;>
    exact forall_mem_of_all (by decide)

lemma nodup_bodyNames (p : ExecPayload) (postOnly : Bool) :
    ((bodyValues p postOnly).map fun row => ascii row.1).Nodup := by
  simp only [bodyValues, List.map_cons, List.map_nil]
  decide

section

variable {p : ExecPayload} (h : Accepted p)
include h

lemma isBid_iff : isBid p = true ↔ Bid p := by
  rcases h.action with haction | haction <;> rcases h.side with hside | hside <;>
    simp [isBid, Bid, haction, hside, kActionBuy, kActionSell, kSideYes, kSideNo]

lemma yesCents_eq : yesCents p = yesPrice p := by
  rw [yesCents, yesPrice]
  simp only [isBid_iff h]
  rcases h.side with hside | hside <;> simp [hside, kSideYes, kSideNo]

lemma yesCents_bounds : 1 ≤ yesCents p ∧ yesCents p ≤ 99 := by
  rcases h.orderType with htype | htype
  · obtain ⟨hlow, hhigh⟩ := h.price htype
    have hlow' : 1 ≤ p.priceCents.toInt := Int32.le_iff_toInt_le.1 hlow
    have hhigh' : p.priceCents.toInt ≤ 99 := Int32.le_iff_toInt_le.1 hhigh
    simp only [yesCents, htype, show kTypeLimit ≠ kTypeMarket by decide, ↓reduceIte]
    split_ifs <;> omega
  · simp only [yesCents, htype, ↓reduceIte]
    split_ifs <;> omega

lemma priceText_yesCents : (∀ b ∈ priceText (yesCents p), Printable b) ∧
    parsePriceE4 ((priceText (yesCents p)).map fun b => Char.ofNat b.toNat) =
      some (100 * yesCents p) := by
  obtain ⟨hlow, hhigh⟩ := yesCents_bounds h
  have hspec := priceText_spec (yesCents p).toNat (by omega) (by omega)
  rwa [Int.toNat_of_nonneg (by omega)] at hspec

lemma count_pos : 0 < p.count.toInt := Int32.lt_iff_toInt_lt.1 h.count

/-- Nothing in the body needs an escape. -/
lemma safeRow_body (postOnly : Bool) :
    List.Forall₂ SafeRow (bodyRows p postOnly) (bodyValues p postOnly) := by
  have hticker : ∀ b ∈ p.tickerView, Printable b :=
    fun b hb => printable_of_tickerByte b (h.ticker.chars b hb)
  have hcount : ∀ b ∈ signedDecimal p.count.toInt, Printable b := by
    rw [signedDecimal_of_pos (count_pos h)]
    exact fun b hb => printable_of_isDigit b (isDigit_decimal _ b hb)
  have hside : ∀ b ∈ ascii (if isBid p then "bid" else "ask"), Printable b := by
    split_ifs <;> exact forall_mem_of_all (by decide)
  have htime : ∀ b ∈ ascii (if p.orderType = kTypeMarket then "immediate_or_cancel"
      else "good_till_canceled"), Printable b := by
    split_ifs <;> exact forall_mem_of_all (by decide)
  have hself : ∀ b ∈ ascii "taker_at_cross", Printable b := forall_mem_of_all (by decide)
  have hpost : SafeRow ("post_only", if postOnly then some (ascii "true") else none)
      ("post_only", if postOnly then some (.bool true) else none) := by
    cases postOnly with
    | false => exact ⟨⟨rfl, .none⟩, nofun⟩
    | true =>
      refine ⟨⟨rfl, .some readsAs_true⟩, ?_⟩
      rintro _ ⟨⟩
      exact valid_of_isAscii (forall_mem_of_all (by decide))
  exact .cons (safeRow_string _ hticker) (.cons (safeRow_string _ hside)
    (.cons (safeRow_string _ hcount) (.cons (safeRow_string _ (priceText_yesCents h).1)
    (.cons (safeRow_string _ htime) (.cons (safeRow_string _ hself) (.cons hpost
    (.cons (safeRow_string _ (printable_clientOrderId p)) .nil)))))))

lemma read_orderJson (postOnly : Bool) :
    read (orderJson p postOnly) = some (.obj (membersOf (bodyValues p postOnly))) := by
  have hrows := safeRow_body h postOnly
  have hnames := printable_bodyNames p postOnly
  have hmembers := memberAs_present (fun row hrow b hb => (hnames row hrow b hb).1)
    (hrows.imp fun _ _ hrow => hrow.1)
  have hvalid : Valid (objectText (present (bodyRows p postOnly))) := by
    rw [valid_objectText_iff, forall_present_iff]
    · exact forall_of_forall₂ hrows fun _ _ hrow => hrow.2
    · rw [forall_present_iff]
      exact fun row hrow _ _ b hb => (hnames row hrow b hb).2
  rw [orderJson_eq, read_objectText hmembers (by simp [bodyRows, present]), if_pos hvalid]

/-- The body of an intent that passed the checks asks for its order. -/
lemma asksFor_orderJson (postOnly : Bool) :
    AsksFor (orderJson p postOnly) p (membersOf (bodyValues p postOnly)) := by
  have hnodup := nodup_bodyNames p postOnly
  have hcents := yesCents_eq h
  have hbounds := yesCents_bounds h
  refine ⟨read_orderJson h postOnly, nodup_membersOf hnodup, ?_, ?_, ?_, ?_⟩
  · exact field_membersOf hnodup (by simp [bodyValues])
  · refine ⟨signedDecimal p.count.toInt, field_membersOf hnodup (by simp [bodyValues]), ?_⟩
    have hpos := count_pos h
    rw [signedDecimal_of_pos hpos, natOf_decimal, Option.map_some, Option.some.injEq]
    exact Int.natAbs_of_nonneg hpos.le
  · simp only [← isBid_iff h]
    exact field_membersOf hnodup (by simp [bodyValues])
  · rw [← hcents]
    exact ⟨priceText (yesCents p), field_membersOf hnodup (by simp [bodyValues]),
      (priceText_yesCents h).2, by omega, by omega⟩

end

/-- Every frame that is accepted is turned into a body that asks for its order. -/
theorem order_body_fidelity {bytes : Bytes} {p : ExecPayload} (h : decodeFrame bytes = .ok p)
    (postOnly : Bool) : ∃ members, AsksFor (orderJson p postOnly) p members := by
  rw [decodeFrame] at h
  split_ifs at h with hsize
  obtain rfl := eq_of_decodeExec h
  exact ⟨_, asksFor_orderJson (decodeExec_eq_ok_iff.1 h) postOnly⟩

/-- A limit order of strategy 7 for three contracts of NO at 35 cents. -/
def sampleFrame : Bytes :=
  [0xEB, 1, 7, 1, 2, 1] ++ [3, 0, 0, 0] ++ [35, 0, 0, 0] ++ [9, 0, 0, 0, 0, 0, 0, 0] ++
    [0, 1, 0, 0, 0, 0, 0, 0] ++ List.replicate 8 0 ++ [75, 88, 45, 65] ++ List.replicate 38 0

theorem order_body_sample : ∃ p members, decodeFrame sampleFrame = .ok p ∧ Bid p = False ∧
    yesPrice p = 65 ∧ AsksFor (orderJson p true) p members := by
  have h : decodeFrame sampleFrame = .ok (.ofFrame ⟨sampleFrame.toArray, rfl⟩) := rfl
  obtain ⟨members, hmembers⟩ := order_body_fidelity h true
  exact ⟨_, members, h, eq_false (by decide), by decide, hmembers⟩

end HftBot.Wire
