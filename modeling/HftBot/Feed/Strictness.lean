import HftBot.Feed.Decimal
import HftBot.Feed.Decoder

/-!
# Strictness of the frame decoder

What the events of `KalshiRawDecoder::decode` have to do with the messages they are made of. A
snapshot should hold every level of its two arrays, and a delta or a trade the price, size and side
that its message states. A level that is refused is skipped, and a side, a price or a size that is
missing or refused is replaced by a default, so this holds exactly of the messages in which nothing
is refused.
-/

namespace HftBot

open HftBot.Core FixedPoint

/-! ### Messages -/

/-- The record holds a message of that type. -/
def IsMessage (parse : List Char → Option Json) (rec : RawRecord) (type : String)
    (msg : List (List Char × Json)) : Prop :=
  ∃ root, (parse rec.raw).bind Json.asObject = some root ∧
    Json.stringField root "type" = some type.toList ∧ Json.objectField root "msg" = some msg

variable {parse : List Char → Option Json} {rec : RawRecord} {type : String}
  {msg : List (List Char × Json)}

lemma IsMessage.payload_decode (h : IsMessage parse rec type msg) :
    (KalshiRawDecoder.decode parse rec).map NormalizedEvent.payload =
      KalshiRawDecoder.decodePayload type.toList msg := by
  obtain ⟨root, hroot, htype, hmsg⟩ := h
  obtain ⟨doc, hdoc, hobject⟩ := Option.bind_eq_some_iff.1 hroot
  rw [KalshiRawDecoder.decode]
  simp only [hdoc, hobject, htype, hmsg, Option.bind_eq_bind, Option.bind_some]
  cases KalshiRawDecoder.decodePayload type.toList msg with
  | none => rfl
  | some payload => rfl

/-- What holds of all events of a message. -/
lemma IsMessage.forall_decode_iff (h : IsMessage parse rec type msg) (P : Payload → Prop) :
    (∀ ev, KalshiRawDecoder.decode parse rec = some ev → P ev.payload) ↔
      ∀ payload, KalshiRawDecoder.decodePayload type.toList msg = some payload → P payload := by
  rw [← h.payload_decode]
  constructor
  · intro hev payload hpayload
    obtain ⟨ev, hdecode, rfl⟩ := Option.map_eq_some_iff.1 hpayload
    exact hev ev hdecode
  · intro hpayload ev hdecode
    exact hpayload _ (Option.map_eq_some_iff.2 ⟨ev, hdecode, rfl⟩)

/-- The text is that price. -/
def PriceText (s : List Char) (v : Int) : Prop :=
  parsePriceE4 s = some v ∧ decimalValue s = some ((v : ℚ) / 10000) ∧ 0 ≤ v ∧ v ≤ 10000

/-- The text is that count. -/
def CountText (s : List Char) (v : Int) : Prop :=
  parseCountFp s = some v ∧ decimalValue s = some ((v : ℚ) / 100)

/-- The text is that change of a count. -/
def DeltaText (s : List Char) (v : Int) : Prop :=
  parseDeltaFp s = some v ∧ decimalValue s = some ((v : ℚ) / 100)

lemma priceText_iff {s : List Char} {v : Int} : PriceText s v ↔ parsePriceE4 s = some v := by
  refine ⟨And.left, fun h => ⟨h, decimalValue_of_parsePriceE4 h, ?_⟩⟩
  exact parsePriceE4_bounds h

lemma countText_iff {s : List Char} {v : Int} : CountText s v ↔ parseCountFp s = some v :=
  ⟨And.left, fun h => ⟨h, (decimalValue_of_parseCountFp h).2⟩⟩

lemma deltaText_iff {s : List Char} {v : Int} : DeltaText s v ↔ parseDeltaFp s = some v :=
  ⟨And.left, fun h => ⟨h, decimalValue_of_parseDeltaFp h⟩⟩

/-! ### Snapshots -/

/-- The element is a pair of texts, which are the price and the size of the level. -/
def LevelIs (item : Json) (l : Level) : Prop :=
  ∃ p c, item = .arr [.str p, .str c] ∧ PriceText p l.price ∧ CountText c l.size

/-- The levels are those of the array, one for one. An omitted array has none. -/
def LevelsAre : Option Json → List Level → Prop
  | none,     ls => ls = []
  | some arr, ls => ∃ items, arr = .arr items ∧ List.Forall₂ LevelIs items ls

/-- The element is a pair of texts, and both are accepted. -/
def LevelAccepted (item : Json) : Prop :=
  ∃ p c, item = .arr [.str p, .str c] ∧ (parsePriceE4 p).isSome ∧ (parseCountFp c).isSome

/-- An array of accepted levels, or nothing. -/
def LevelsAccepted (arr : Option Json) : Prop :=
  ∀ j ∈ arr, ∃ items, j = .arr items ∧ ∀ item ∈ items, LevelAccepted item

/-- Every snapshot of the record holds the levels of the message, all of them. -/
def SnapshotExact (parse : List Char → Option Json) (rec : RawRecord)
    (msg : List (List Char × Json)) : Prop :=
  ∀ ev, KalshiRawDecoder.decode parse rec = some ev →
    ∃ yes no, ev.payload = .bookSnapshot yes no ∧
      LevelsAre (Json.field msg "yes_dollars_fp") yes ∧
      LevelsAre (Json.field msg "no_dollars_fp") no

lemma eq_str_of_asString {j : Json} {s : List Char} (h : j.asString = some s) : j = .str s := by
  cases j <;> simp_all [Json.asString]

lemma eq_arr_of_asArray {j : Json} {items : List Json} (h : j.asArray = some items) :
    j = .arr items := by
  cases j <;> simp_all [Json.asArray]

lemma eq_map_str_of_mapM {js : List Json} {ss : List (List Char)}
    (h : js.mapM Json.asString = some ss) : js = ss.map .str := by
  induction js generalizing ss with
  | nil =>
    obtain rfl : [] = ss := Option.some.inj h
    rfl
  | cons j js ih =>
    simp only [List.mapM_cons, Option.bind_eq_bind, Option.bind_eq_some_iff, Option.pure_def,
      Option.some.injEq] at h
    obtain ⟨s, hs, ss', hss', rfl⟩ := h
    rw [List.map_cons, eq_str_of_asString hs, ih hss']

lemma parseLevel_eq_some_iff {elems : List Json} {l : Level} :
    KalshiRawDecoder.parseLevel elems = some l ↔
      ∃ p c, elems = [.str p, .str c] ∧ parsePriceE4 p = some l.price ∧
        parseCountFp c = some l.size := by
  constructor
  · intro h
    simp only [KalshiRawDecoder.parseLevel, Option.bind_eq_bind, Option.bind_eq_some_iff] at h
    obtain ⟨texts, htexts, h⟩ := h
    split at h
    · next p c =>
      simp only [Option.bind_eq_some_iff, Option.pure_def, Option.some.injEq] at h
      obtain ⟨price, hp, size, hc, rfl⟩ := h
      exact ⟨p, c, eq_map_str_of_mapM htexts, hp, hc⟩
    · cases h
  · rintro ⟨p, c, rfl, hp, hc⟩
    simp [KalshiRawDecoder.parseLevel, Json.asString, hp, hc]

/-- What `parseLevels` makes of one element. -/
def levelOfItem (item : Json) : Option Level := item.asArray.bind KalshiRawDecoder.parseLevel

lemma levelIs_iff {item : Json} {l : Level} : LevelIs item l ↔ levelOfItem item = some l := by
  simp only [LevelIs, priceText_iff, countText_iff, levelOfItem, Option.bind_eq_some_iff,
    parseLevel_eq_some_iff]
  constructor
  · rintro ⟨p, c, rfl, hp, hc⟩
    exact ⟨_, rfl, p, c, rfl, hp, hc⟩
  · rintro ⟨elems, helems, p, c, rfl, hp, hc⟩
    exact ⟨p, c, eq_arr_of_asArray helems, hp, hc⟩

lemma levelAccepted_iff {item : Json} : LevelAccepted item ↔ (levelOfItem item).isSome := by
  rw [Option.isSome_iff_exists]
  constructor
  · rintro ⟨p, c, rfl, hp, hc⟩
    obtain ⟨price, hprice⟩ := Option.isSome_iff_exists.1 hp
    obtain ⟨size, hsize⟩ := Option.isSome_iff_exists.1 hc
    exact ⟨⟨price, size⟩, levelIs_iff.1
      ⟨p, c, rfl, priceText_iff.2 hprice, countText_iff.2 hsize⟩⟩
  · rintro ⟨l, hl⟩
    obtain ⟨p, c, rfl, hp, hc⟩ := levelIs_iff.2 hl
    exact ⟨p, c, rfl, Option.isSome_iff_exists.2 ⟨_, hp.1⟩, Option.isSome_iff_exists.2 ⟨_, hc.1⟩⟩

/-- A partial function maps a list one for one exactly when it is defined on all of it. -/
lemma forall₂_filterMap_iff {α β : Type} {f : α → Option β} (l : List α) :
    List.Forall₂ (fun a b => f a = some b) l (l.filterMap f) ↔ ∀ a ∈ l, (f a).isSome := by
  induction l with
  | nil => simp
  | cons a l ih =>
    rw [List.forall_mem_cons, ← ih]
    cases hf : f a with
    | none =>
      simp only [List.filterMap_cons_none hf, Option.isSome_none, Bool.false_eq_true, false_and,
        iff_false]
      intro h
      have hlength := h.length_eq
      have hle := List.length_filterMap_le f l
      rw [List.length_cons] at hlength
      omega
    | some b => simp [List.filterMap_cons_some hf, hf]

lemma levelsAre_levelsField_iff (msg : List (List Char × Json)) (name : String) :
    LevelsAre (Json.field msg name) (KalshiRawDecoder.levelsField msg name) ↔
      LevelsAccepted (Json.field msg name) := by
  rw [KalshiRawDecoder.levelsField]
  cases Json.field msg name with
  | none => simp [LevelsAre, LevelsAccepted]
  | some arr =>
    have hitems (items : List Json) :
        List.Forall₂ LevelIs items (items.filterMap levelOfItem) ↔
          ∀ item ∈ items, LevelAccepted item := by
      have hrel : LevelIs = fun item l => levelOfItem item = some l := by
        funext item l
        exact propext levelIs_iff
      rw [hrel, forall₂_filterMap_iff]
      exact forall₂_congr fun item _ => levelAccepted_iff.symm
    simp only [LevelsAre, LevelsAccepted, Option.map_some, Option.getD_some, Option.mem_def,
      Option.some.injEq, forall_eq']
    refine exists_congr fun items => and_congr_right ?_
    rintro rfl
    exact hitems items

/-- A snapshot is exact if and only if every level of its message is accepted. -/
theorem snapshot_exact_iff (h : IsMessage parse rec "orderbook_snapshot" msg) :
    SnapshotExact parse rec msg ↔
      LevelsAccepted (Json.field msg "yes_dollars_fp") ∧
        LevelsAccepted (Json.field msg "no_dollars_fp") := by
  rw [SnapshotExact, h.forall_decode_iff fun payload => ∃ yes no,
    payload = .bookSnapshot yes no ∧ LevelsAre (Json.field msg "yes_dollars_fp") yes ∧
      LevelsAre (Json.field msg "no_dollars_fp") no]
  have hpayload : KalshiRawDecoder.decodePayload "orderbook_snapshot".toList msg =
      some (KalshiRawDecoder.decodeSnapshot msg) := if_pos rfl
  rw [hpayload, ← levelsAre_levelsField_iff, ← levelsAre_levelsField_iff]
  simp [KalshiRawDecoder.decodeSnapshot]

/-- A level as it is sent. -/
def pairJson (price size : String) : Json := .arr [.str price.toList, .str size.toList]

def snapshotMsg (yes no : List Json) : List (List Char × Json) :=
  [("yes_dollars_fp".toList, .arr yes), ("no_dollars_fp".toList, .arr no)]

def messageJson (type : String) (msg : List (List Char × Json)) : Json :=
  .obj [("type".toList, .str type.toList), ("msg".toList, .obj msg)]

theorem snapshot_exact_two_levels :
    SnapshotExact (fun _ => some (messageJson "orderbook_snapshot"
      (snapshotMsg [pairJson "0.0800" "300.00"] [pairJson "0.5400" "20.00"]))) {}
      (snapshotMsg [pairJson "0.0800" "300.00"] [pairJson "0.5400" "20.00"]) := by
  refine (snapshot_exact_iff ⟨_, rfl, rfl, rfl⟩).2 ⟨?_, ?_⟩
  · rintro j ⟨⟩
    refine ⟨_, rfl, ?_⟩
    simp only [List.mem_singleton, forall_eq]
    exact ⟨_, _, rfl, by decide, by decide⟩
  · rintro j ⟨⟩
    refine ⟨_, rfl, ?_⟩
    simp only [List.mem_singleton, forall_eq]
    exact ⟨_, _, rfl, by decide, by decide⟩

/-- A price with five digits behind the point is left out of the book. -/
theorem snapshot_exact_excess_precision :
    ¬ SnapshotExact (fun _ => some (messageJson "orderbook_snapshot"
      (snapshotMsg [pairJson "0.0800" "300.00", pairJson "0.22001" "333.00"] []))) {}
      (snapshotMsg [pairJson "0.0800" "300.00", pairJson "0.22001" "333.00"] []) := by
  intro h
  obtain ⟨yes, no, hpayload, ⟨items, hitems, hyes⟩, -⟩ := h _ rfl
  obtain ⟨rfl, -⟩ : [(⟨800, 30000⟩ : Level)] = yes ∧ [] = no := by
    simpa using (show Payload.bookSnapshot [⟨800, 30000⟩] [] = .bookSnapshot yes no from hpayload)
  obtain rfl : [pairJson "0.0800" "300.00", pairJson "0.22001" "333.00"] = items :=
    Json.arr.inj hitems
  cases hyes.length_eq

/-! ### Deltas and trades -/

/-- The text of a side. -/
def sideText : Side → List Char
  | .yes => "yes".toList
  | .no  => "no".toList

/-- The side, price and change of a delta are those that the message states. -/
structure DeltaIs (msg : List (List Char × Json)) (side : Side) (price d : Int) : Prop where
  price : ∃ s ∈ Json.stringField msg "price_dollars", PriceText s price
  delta : ∃ s ∈ Json.stringField msg "delta_fp", DeltaText s d
  side  : Json.stringField msg "side" = some (sideText side)

/-- The price, size and taker side of a trade are those that the message states: the yes price, or
one minus the no price if there is no yes price, and the outcome side, or the deprecated field if
there is none. -/
structure TradeIs (msg : List (List Char × Json)) (price size : Int) (taker : Side) : Prop where
  price : (∃ s ∈ Json.stringField msg "yes_price_dollars", PriceText s price) ∨
    Json.field msg "yes_price_dollars" = none ∧
      ∃ s ∈ Json.stringField msg "no_price_dollars", PriceText s (kPriceMax - price)
  size  : ∃ s ∈ Json.stringField msg "count_fp", CountText s size
  taker : Json.stringField msg "taker_outcome_side" = some (sideText taker) ∨
    Json.field msg "taker_outcome_side" = none ∧
      Json.stringField msg "taker_side" = some (sideText taker)

def DeltaStrict (parse : List Char → Option Json) (rec : RawRecord)
    (msg : List (List Char × Json)) : Prop :=
  ∀ ev, KalshiRawDecoder.decode parse rec = some ev →
    ∃ side price d cid, ev.payload = .bookDelta side price d cid ∧ DeltaIs msg side price d

def TradeStrict (parse : List Char → Option Json) (rec : RawRecord)
    (msg : List (List Char × Json)) : Prop :=
  ∀ ev, KalshiRawDecoder.decode parse rec = some ev →
    ∃ price size taker tradeId, ev.payload = .trade price size taker tradeId ∧
      TradeIs msg price size taker

/-- The text is one of the two sides. -/
def SideAccepted (s : Option (List Char)) : Prop := s = some "yes".toList ∨ s = some "no".toList

/-- A delta whose price and change are accepted states one of the two sides. -/
def DeltaAccepted (msg : List (List Char × Json)) : Prop :=
  ((Json.stringField msg "price_dollars").bind parsePriceE4).isSome →
    ((Json.stringField msg "delta_fp").bind parseDeltaFp).isSome →
      SideAccepted (Json.stringField msg "side")

/-- The price, size and side of the trade are stated, and accepted. -/
structure TradeAccepted (msg : List (List Char × Json)) : Prop where
  price : ((Json.stringField msg "yes_price_dollars").bind parsePriceE4).isSome ∨
    Json.field msg "yes_price_dollars" = none ∧
      ((Json.stringField msg "no_price_dollars").bind parsePriceE4).isSome
  size  : ((Json.stringField msg "count_fp").bind parseCountFp).isSome
  taker : SideAccepted (Json.stringField msg "taker_outcome_side") ∨
    Json.field msg "taker_outcome_side" = none ∧ SideAccepted (Json.stringField msg "taker_side")

lemma sideText_sideOf_iff (s : Option (List Char)) :
    s = some (sideText (KalshiRawDecoder.sideOf (s.getD []))) ↔ SideAccepted s := by
  cases s with
  | none => simp [SideAccepted]
  | some s =>
    rw [Option.getD_some, KalshiRawDecoder.sideOf, SideAccepted]
    split_ifs with hno
    · rw [hno]
      exact iff_of_true rfl (Or.inr rfl)
    · simp only [Option.some.injEq, hno, or_false]
      rfl

lemma isSome_bind_iff {α β : Type} {o : Option α} {f : α → Option β} :
    (o.bind f).isSome ↔ ∃ a ∈ o, ∃ b, f a = some b := by
  cases o with
  | none => simp
  | some a => simp [Option.isSome_iff_exists]

lemma decodeDelta_eq_some_iff {payload : Payload} :
    KalshiRawDecoder.decodeDelta msg = some payload ↔
      ∃ s ∈ Json.stringField msg "price_dollars", ∃ price, parsePriceE4 s = some price ∧
        ∃ s' ∈ Json.stringField msg "delta_fp", ∃ d, parseDeltaFp s' = some d ∧
          .bookDelta (KalshiRawDecoder.sideOf ((Json.stringField msg "side").getD [])) price d
            ((Json.stringField msg "client_order_id").filter fun s => !s.isEmpty) = payload := by
  simp only [KalshiRawDecoder.decodeDelta, Option.bind_eq_bind, Option.bind_eq_some_iff,
    Option.pure_def, Option.some.injEq, Option.mem_def]

lemma deltaStrict_iff (h : IsMessage parse rec "orderbook_delta" msg) :
    DeltaStrict parse rec msg ↔ DeltaAccepted msg := by
  rw [DeltaStrict, h.forall_decode_iff fun payload => ∃ side price d cid,
    payload = .bookDelta side price d cid ∧ DeltaIs msg side price d]
  have hpayload : KalshiRawDecoder.decodePayload "orderbook_delta".toList msg =
      KalshiRawDecoder.decodeDelta msg := rfl
  rw [hpayload]
  constructor
  · intro hstrict hprice hdelta
    obtain ⟨s, hs, price, hprice⟩ := isSome_bind_iff.1 hprice
    obtain ⟨s', hs', d, hdelta⟩ := isSome_bind_iff.1 hdelta
    obtain ⟨side, price', d', cid, heq, hside⟩ :=
      hstrict _ (decodeDelta_eq_some_iff.2 ⟨s, hs, price, hprice, s', hs', d, hdelta, rfl⟩)
    obtain ⟨rfl, -, -, -⟩ := Payload.bookDelta.inj heq
    exact (sideText_sideOf_iff _).1 hside.side
  · intro haccepted payload hdecode
    obtain ⟨s, hs, price, hprice, s', hs', d, hdelta, rfl⟩ := decodeDelta_eq_some_iff.1 hdecode
    have hside := haccepted (isSome_bind_iff.2 ⟨s, hs, price, hprice⟩)
      (isSome_bind_iff.2 ⟨s', hs', d, hdelta⟩)
    exact ⟨_, _, _, _, rfl, ⟨s, hs, priceText_iff.2 hprice⟩, ⟨s', hs', deltaText_iff.2 hdelta⟩,
      (sideText_sideOf_iff _).2 hside⟩

/-- The price of a trade as it is read. -/
def tradePrice (msg : List (List Char × Json)) : Int :=
  match Json.stringField msg "yes_price_dollars" with
  | some s => (parsePriceE4 s).getD 0
  | none   =>
    match Json.stringField msg "no_price_dollars" with
    | some s => ((parsePriceE4 s).map fun p => kPriceMax - p).getD 0
    | none   => 0

lemma tradePrice_iff :
    (∃ s ∈ Json.stringField msg "yes_price_dollars", PriceText s (tradePrice msg)) ∨
      Json.field msg "yes_price_dollars" = none ∧
        (∃ s ∈ Json.stringField msg "no_price_dollars", PriceText s (kPriceMax - tradePrice msg)) ↔
    ((Json.stringField msg "yes_price_dollars").bind parsePriceE4).isSome ∨
      Json.field msg "yes_price_dollars" = none ∧
        ((Json.stringField msg "no_price_dollars").bind parsePriceE4).isSome := by
  have haccepted {s : List Char} {v w : Int} (h : parsePriceE4 s = some v) (hw : v = w) :
      PriceText s w := priceText_iff.2 (hw ▸ h)
  simp only [isSome_bind_iff, tradePrice]
  constructor
  · rintro (⟨s, hs, hprice⟩ | ⟨hnone, s, hs, hprice⟩)
    · exact Or.inl ⟨s, hs, _, hprice.1⟩
    · exact Or.inr ⟨hnone, s, hs, _, hprice.1⟩
  · rintro (⟨s, hs, v, hv⟩ | ⟨hnone, s, hs, v, hv⟩)
    · refine Or.inl ⟨s, hs, haccepted hv ?_⟩
      rw [Option.mem_def.1 hs]
      simp [hv]
    · refine Or.inr ⟨hnone, s, hs, haccepted hv ?_⟩
      rw [Json.stringField, hnone, Option.bind_none, Option.mem_def.1 hs]
      simp [hv]

lemma tradeSize_iff :
    (∃ s ∈ Json.stringField msg "count_fp",
      CountText s (((Json.stringField msg "count_fp").bind parseCountFp).getD 0)) ↔
        ((Json.stringField msg "count_fp").bind parseCountFp).isSome := by
  rw [isSome_bind_iff]
  refine exists_congr fun s => and_congr_right fun hs => ?_
  rw [Option.mem_def.1 hs, Option.bind_some, countText_iff]
  cases parseCountFp s with
  | none => simp
  | some v => simp

lemma tradeTaker_iff {taker : Side}
    (htaker : taker = KalshiRawDecoder.sideOf (((Json.stringField msg "taker_outcome_side").or
      (Json.stringField msg "taker_side")).getD [])) :
    Json.stringField msg "taker_outcome_side" = some (sideText taker) ∨
      Json.field msg "taker_outcome_side" = none ∧
        Json.stringField msg "taker_side" = some (sideText taker) ↔
    SideAccepted (Json.stringField msg "taker_outcome_side") ∨
      Json.field msg "taker_outcome_side" = none ∧
        SideAccepted (Json.stringField msg "taker_side") := by
  subst htaker
  cases hfield : Json.field msg "taker_outcome_side" with
  | none =>
    have hstring : Json.stringField msg "taker_outcome_side" = none := by
      rw [Json.stringField, hfield, Option.bind_none]
    rw [hstring, Option.none_or, sideText_sideOf_iff]
    simp [SideAccepted]
  | some j =>
    simp only [reduceCtorEq, false_and, or_false]
    cases hstring : Json.stringField msg "taker_outcome_side" with
    | none => simp [SideAccepted]
    | some s =>
      rw [Option.some_or]
      exact sideText_sideOf_iff (some s)

lemma tradeStrict_iff (h : IsMessage parse rec "trade" msg) :
    TradeStrict parse rec msg ↔ TradeAccepted msg := by
  rw [TradeStrict, h.forall_decode_iff fun payload => ∃ price size taker tradeId,
    payload = .trade price size taker tradeId ∧ TradeIs msg price size taker]
  have hpayload : KalshiRawDecoder.decodePayload "trade".toList msg =
      some (.trade (tradePrice msg)
        (((Json.stringField msg "count_fp").bind parseCountFp).getD 0)
        (KalshiRawDecoder.sideOf (((Json.stringField msg "taker_outcome_side").or
          (Json.stringField msg "taker_side")).getD []))
        ((Json.stringField msg "trade_id").getD [])) := rfl
  rw [hpayload]
  constructor
  · intro hstrict
    obtain ⟨price, size, taker, tradeId, heq, hprice, hsize, htaker⟩ := hstrict _ rfl
    obtain ⟨rfl, rfl, rfl, -⟩ := Payload.trade.inj heq
    exact ⟨tradePrice_iff.1 hprice, tradeSize_iff.1 hsize, (tradeTaker_iff rfl).1 htaker⟩
  · rintro ⟨hprice, hsize, htaker⟩ payload hdecode
    obtain rfl := Option.some.inj hdecode
    exact ⟨_, _, _, _, rfl, tradePrice_iff.2 hprice, tradeSize_iff.2 hsize,
      (tradeTaker_iff rfl).2 htaker⟩

/-- Deltas and trades are strict if and only if nothing that they need is missing or refused. -/
theorem decode_strict_iff (parse : List Char → Option Json) (rec : RawRecord)
    (msg : List (List Char × Json)) :
    (IsMessage parse rec "orderbook_delta" msg →
      (DeltaStrict parse rec msg ↔ DeltaAccepted msg)) ∧
      (IsMessage parse rec "trade" msg → (TradeStrict parse rec msg ↔ TradeAccepted msg)) :=
  ⟨deltaStrict_iff, tradeStrict_iff⟩

def textFields (fields : List (String × String)) : List (List Char × Json) :=
  fields.map fun f => (f.1.toList, .str f.2.toList)

/-- A delta on the no side, and a trade that has only a no price. -/
theorem decode_strict_no_side :
    let delta := textFields [("price_dollars", "0.960"), ("delta_fp", "-54.00"), ("side", "no")]
    let trade := textFields [("no_price_dollars", "0.3000"), ("count_fp", "2.00"),
      ("taker_side", "yes")]
    DeltaStrict (fun _ => some (messageJson "orderbook_delta" delta)) {} delta ∧
      TradeStrict (fun _ => some (messageJson "trade" trade)) {} trade := by
  refine ⟨((decode_strict_iff _ _ _).1 ⟨_, rfl, rfl, rfl⟩).2 fun _ _ => Or.inr (by decide),
    ((decode_strict_iff _ _ _).2 ⟨_, rfl, rfl, rfl⟩).2 ⟨Or.inr ⟨by decide, by decide⟩, by decide,
      Or.inr ⟨by decide, Or.inl (by decide)⟩⟩⟩

/-- A delta without a side is read as one on the yes side, and a trade whose price is refused as one
at price zero. -/
theorem decode_strict_defaults :
    let delta := textFields [("price_dollars", "0.960"), ("delta_fp", "-54.00")]
    let trade := textFields [("yes_price_dollars", "0.30001"), ("count_fp", "2.00"),
      ("taker_outcome_side", "yes")]
    ¬ DeltaStrict (fun _ => some (messageJson "orderbook_delta" delta)) {} delta ∧
      ¬ TradeStrict (fun _ => some (messageJson "trade" trade)) {} trade := by
  refine ⟨fun h => ?_, fun h => ?_⟩
  · obtain ⟨side, price, d, cid, -, hdelta⟩ := h _ rfl
    have hside := hdelta.side
    revert hside
    cases side <;> decide
  · obtain ⟨price, size, taker, tradeId, -, htrade⟩ := h _ rfl
    rcases htrade.price with ⟨s, hs, hprice⟩ | ⟨hnone, -⟩
    · obtain rfl : "0.30001".toList = s := Option.some.inj hs
      have hnone : parsePriceE4 "0.30001".toList = none := by decide
      rw [PriceText, hnone] at hprice
      cases hprice.1
    · cases hnone

end HftBot
