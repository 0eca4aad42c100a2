import HftBot.Feed.Strictness
import HftBot.Rest.RestApi

/-!
# Prices and counts on the bus

Every price is to lie between 0 and 10000, and every count is to be the number in the message times
100. The decimal strings of both gateways are read so. The legacy integers are not checked, so for
them it is exactly a matter of the numbers in the message; and a trade without a readable count is
given the count zero.
-/

namespace HftBot

open HftBot.Core FixedPoint

def PriceOk (v : Int) : Prop := kPriceMin ≤ v ∧ v ≤ kPriceMax

/-- The number that a JSON value is read as. -/
def Core.Json.number : Json → Option ℚ
  | .str s => decimalValue s
  | j      => j.asInt64.map fun n => (n : ℚ)

/-- A count that is the number in the message times 100. -/
structure CountOf (j : Json) (v : Int) : Prop where
  nonneg : 0 ≤ v
  exact  : j.number = some ((v : ℚ) / 100)

/-- Whole cents that are a price, in the arithmetic of 32 bits. -/
def LegacyPriceOk (cents : Int) : Prop := 100 * cents % 2 ^ 32 ≤ 10000

/-- Whole contracts that are counted without wrap-around. -/
def LegacyCountOk (n : Int) : Prop := 0 ≤ n ∧ 100 * n < 2 ^ 63

/-! ### Numbers -/

lemma priceOk_centsToE4_iff (cents : Int) :
    PriceOk (centsToE4 (toInt32 cents)) ↔ LegacyPriceOk cents := by
  have hwrap : centsToE4 (toInt32 cents) = (100 * cents).bmod (2 ^ 32) := by
    rw [centsToE4, toInt32, toInt32, Int.bmod_mul_bmod, mul_comm]
  have hnonneg := Int.emod_nonneg (100 * cents) (by decide : (2 ^ 32 : Int) ≠ 0)
  rw [hwrap, PriceOk, LegacyPriceOk, Int.bmod_def, kPriceMin, kPriceMax]
  push_cast
  split_ifs <;> omega

lemma number_of_asInt64 {j : Json} {n : Int} (h : j.asInt64 = some n) :
    j.number = some (n : ℚ) := by
  cases j with
  | str s => simp [Json.asInt64] at h
  | _ => simp [Json.number, h]

lemma countOf_toInt64_iff {j : Json} {n : Int} (h : j.asInt64 = some n) :
    CountOf j (toInt64 (n * 100)) ↔ LegacyCountOk n := by
  have hbounds := toInt64_bounds (n * 100)
  constructor
  · rintro ⟨hnonneg, hexact⟩
    rw [number_of_asInt64 h, Option.some.injEq, eq_div_iff (by norm_num)] at hexact
    have heq : n * 100 = toInt64 (n * 100) := by exact_mod_cast hexact
    rw [LegacyCountOk]
    omega
  · rintro ⟨hnonneg, hlt⟩
    have heq : toInt64 (n * 100) = n * 100 := toInt64_of_inInt64 ⟨by omega, by omega⟩
    rw [heq]
    refine ⟨by omega, ?_⟩
    rw [number_of_asInt64 h]
    push_cast
    rw [mul_div_cancel_right₀ _ (by norm_num)]

lemma countOf_parseCountFp {s : List Char} {v : Int} (h : parseCountFp s = some v) :
    CountOf (.str s) v := by
  obtain ⟨hnonneg, hvalue⟩ := decimalValue_of_parseCountFp h
  exact ⟨hnonneg, hvalue⟩

/-! ### Market summaries -/

/-- The field a count is taken from: the decimal string if it is one, else the legacy integer. -/
def countField (obj : List (List Char × Json)) (fpKey legacyKey : String) : Option Json :=
  if ((Json.stringField obj fpKey).bind parseCountFp).isSome then Json.field obj fpKey
  else Json.field obj legacyKey

structure SummaryOf (obj : List (List Char × Json)) (ms : MarketSummary) : Prop where
  yesBid       : ∀ v ∈ ms.yesBid, PriceOk v
  yesAsk       : ∀ v ∈ ms.yesAsk, PriceOk v
  lastPrice    : ∀ v ∈ ms.lastPrice, PriceOk v
  volume       : ∀ v ∈ ms.volume, ∃ j ∈ countField obj "volume_fp" "volume", CountOf j v
  openInterest : ∀ v ∈ ms.openInterest,
    ∃ j ∈ countField obj "open_interest_fp" "open_interest", CountOf j v

/-- A legacy price is used only when the dollar string is not. -/
def LegacyPriceFieldOk (obj : List (List Char × Json)) (dollarsKey centsKey : String) : Prop :=
  (Json.stringField obj dollarsKey).bind parsePriceE4 = none →
    ∀ cents ∈ Json.int64Field obj centsKey, LegacyPriceOk cents

def LegacyCountFieldOk (obj : List (List Char × Json)) (fpKey legacyKey : String) : Prop :=
  (Json.stringField obj fpKey).bind parseCountFp = none →
    ∀ n ∈ Json.int64Field obj legacyKey, LegacyCountOk n

structure LegacyMarketOk (obj : List (List Char × Json)) : Prop where
  yesBid       : LegacyPriceFieldOk obj "yes_bid_dollars" "yes_bid"
  yesAsk       : LegacyPriceFieldOk obj "yes_ask_dollars" "yes_ask"
  lastPrice    : LegacyPriceFieldOk obj "last_price_dollars" "last_price"
  volume       : LegacyCountFieldOk obj "volume_fp" "volume"
  openInterest : LegacyCountFieldOk obj "open_interest_fp" "open_interest"

lemma decodePrice_ok_iff (obj : List (List Char × Json)) (dollarsKey centsKey : String) :
    (∀ v ∈ RestApi.decodePrice obj dollarsKey centsKey, PriceOk v) ↔
      LegacyPriceFieldOk obj dollarsKey centsKey := by
  rw [RestApi.decodePrice, LegacyPriceFieldOk]
  cases hdollars : (Json.stringField obj dollarsKey).bind parsePriceE4 with
  | some v =>
    obtain ⟨s, -, hs⟩ := Option.bind_eq_some_iff.1 hdollars
    have hok : PriceOk v := parsePriceE4_bounds hs
    simpa using hok
  | none =>
    cases Json.int64Field obj centsKey with
    | none => simp
    | some cents => simpa using priceOk_centsToE4_iff cents

lemma decodeCount_ok_iff (obj : List (List Char × Json)) (fpKey legacyKey : String) :
    (∀ v ∈ RestApi.decodeCount obj fpKey legacyKey,
        ∃ j ∈ countField obj fpKey legacyKey, CountOf j v) ↔
      LegacyCountFieldOk obj fpKey legacyKey := by
  rw [RestApi.decodeCount, LegacyCountFieldOk, countField]
  cases hfp : (Json.stringField obj fpKey).bind parseCountFp with
  | some v =>
    obtain ⟨s, hstring, hs⟩ := Option.bind_eq_some_iff.1 hfp
    obtain ⟨j, hfield, hj⟩ := Option.bind_eq_some_iff.1 hstring
    simp [hfield, eq_str_of_asString hj, countOf_parseCountFp hs]
  | none =>
    cases hlegacy : Json.int64Field obj legacyKey with
    | none => simp
    | some n =>
      obtain ⟨j, hfield, hj⟩ := Option.bind_eq_some_iff.1 hlegacy
      simpa [hfield] using countOf_toInt64_iff hj

lemma summaryOf_decodeMarket_iff (obj : List (List Char × Json)) :
    SummaryOf obj (RestApi.decodeMarket obj) ↔ LegacyMarketOk obj := by
  constructor
  · rintro ⟨hbid, hask, hlast, hvolume, hinterest⟩
    exact ⟨(decodePrice_ok_iff _ _ _).1 hbid, (decodePrice_ok_iff _ _ _).1 hask,
      (decodePrice_ok_iff _ _ _).1 hlast, (decodeCount_ok_iff _ _ _).1 hvolume,
      (decodeCount_ok_iff _ _ _).1 hinterest⟩
  · rintro ⟨hbid, hask, hlast, hvolume, hinterest⟩
    exact ⟨(decodePrice_ok_iff _ _ _).2 hbid, (decodePrice_ok_iff _ _ _).2 hask,
      (decodePrice_ok_iff _ _ _).2 hlast, (decodeCount_ok_iff _ _ _).2 hvolume,
      (decodeCount_ok_iff _ _ _).2 hinterest⟩

/-! ### Levels -/

/-- The elements of an array that are arrays. -/
def pairsOf (arr : Option Json) : List (List Json) :=
  ((arr.bind Json.asArray).getD []).filterMap Json.asArray

/-- A level in range whose size is its second number times 100. -/
structure LevelOf (elems : List Json) (l : Level) : Prop where
  price : PriceOk l.price
  size  : ∃ j ∈ elems[1]?, CountOf j l.size

/-- The levels are, in some order, those of the pairs that are read as one. -/
def LevelsOf (read : List Json → Option Level) (arr : Option Json) (levels : List Level) : Prop :=
  ∃ ds : List (List Json × Level),
    ds.map Prod.fst = (pairsOf arr).filter (fun elems => (read elems).isSome) ∧
      (ds.map Prod.snd).Perm levels ∧ ∀ d ∈ ds, LevelOf d.1 d.2

lemma levelsOf_of_forall {read : List Json → Option Level} {arr : Option Json}
    {levels : List Level} (hperm : ((pairsOf arr).filterMap read).Perm levels)
    (h : ∀ elems ∈ pairsOf arr, ∀ l ∈ read elems, LevelOf elems l) : LevelsOf read arr levels := by
  refine ⟨(pairsOf arr).filterMap fun elems => (read elems).map (elems, ·), ?_, ?_, ?_⟩
  · induction pairsOf arr with
    | nil => rfl
    | cons elems pairs ih => cases hread : read elems <;> simp [hread, ih]
  · refine List.Perm.trans (List.Perm.of_eq ?_) hperm
    rw [List.map_filterMap]
    congr 1
    funext elems
    cases read elems <;> rfl
  · rintro ⟨elems, l⟩ hmem
    obtain ⟨elems', helems, hread⟩ := List.mem_filterMap.1 hmem
    obtain ⟨l', hl', heq⟩ := Option.map_eq_some_iff.1 hread
    obtain ⟨rfl, rfl⟩ := Prod.mk.inj heq
    exact h _ helems _ hl'

/-- What follows for a pair that is read as a level: its size is matched, and its own price is that
of some matched level. -/
lemma LevelsOf.of_mem {read : List Json → Option Level} {arr : Option Json} {levels : List Level}
    (h : LevelsOf read arr levels) (hperm : ((pairsOf arr).filterMap read).Perm levels)
    {elems : List Json} (helems : elems ∈ pairsOf arr) {l : Level} (hl : l ∈ read elems) :
    PriceOk l.price ∧ ∃ l' ∈ (pairsOf arr).filterMap read, LevelOf elems l' := by
  obtain ⟨ds, hfst, hsnd, hds⟩ := h
  constructor
  · have hmem : l ∈ ds.map Prod.snd :=
      (hsnd.trans hperm.symm).mem_iff.2 (List.mem_filterMap.2 ⟨elems, helems, hl⟩)
    obtain ⟨d, hd, rfl⟩ := List.mem_map.1 hmem
    exact (hds d hd).price
  · have hmem : elems ∈ ds.map Prod.fst := by
      rw [hfst, List.mem_filter]
      exact ⟨helems, by rw [Option.mem_def.1 hl]; rfl⟩
    obtain ⟨d, hd, rfl⟩ := List.mem_map.1 hmem
    exact ⟨d.2, (hsnd.trans hperm.symm).mem_iff.1 (List.mem_map_of_mem hd), hds d hd⟩

/-- A level of decimal strings is always one. -/
lemma levelOf_strings {p c : List Char} {price size : Int} (hp : parsePriceE4 p = some price)
    (hc : parseCountFp c = some size) : LevelOf [.str p, .str c] ⟨price, size⟩ :=
  ⟨parsePriceE4_bounds hp, .str c, rfl, countOf_parseCountFp hc⟩

lemma levelOf_parseLevel {elems : List Json} {l : Level}
    (h : KalshiRawDecoder.parseLevel elems = some l) : LevelOf elems l := by
  obtain ⟨p, c, rfl, hp, hc⟩ := parseLevel_eq_some_iff.1 h
  exact levelOf_strings hp hc

lemma levelOf_decodeLevel_false {elems : List Json} {l : Level}
    (h : RestApi.decodeLevel false elems = some l) : LevelOf elems l := by
  unfold RestApi.decodeLevel at h
  split at h
  · next price size =>
    simp only [Bool.false_eq_true, if_false, Option.bind_eq_bind, Option.bind_eq_some_iff,
      Option.pure_def, Option.some.injEq] at h
    obtain ⟨p, hprice, v, hp, c, hsize, n, hc, rfl⟩ := h
    rw [eq_str_of_asString hprice, eq_str_of_asString hsize]
    exact levelOf_strings hp hc
  · cases h

lemma decodeLevel_true_eq_some {elems : List Json} {l : Level}
    (h : RestApi.decodeLevel true elems = some l) :
    ∃ price size cents n, elems = [price, size] ∧ price.asInt64 = some cents ∧
      size.asInt64 = some n ∧ l = ⟨centsToE4 (toInt32 cents), toInt64 (n * 100)⟩ := by
  unfold RestApi.decodeLevel at h
  split at h
  · next price size =>
    simp only [if_true, Option.bind_eq_bind, Option.bind_eq_some_iff, Option.pure_def,
      Option.some.injEq] at h
    obtain ⟨cents, hcents, n, hn, rfl⟩ := h
    exact ⟨price, size, cents, n, rfl, hcents, hn, rfl⟩
  · cases h

/-- Both legacy integers of a level are as they should be. -/
def LegacyLevelOk : List Json → Prop
  | [price, size] =>
    ∀ cents ∈ price.asInt64, ∀ n ∈ size.asInt64, LegacyPriceOk cents ∧ LegacyCountOk n
  | _             => True

lemma levelsOf_iff {cents : Bool} {arr : Option Json} {levels : List Level}
    (hperm : ((pairsOf arr).filterMap (RestApi.decodeLevel cents)).Perm levels) :
    LevelsOf (RestApi.decodeLevel cents) arr levels ↔
      (cents → ∀ elems ∈ pairsOf arr, LegacyLevelOk elems) := by
  cases cents with
  | false =>
    have h := levelsOf_of_forall hperm fun elems _ l hl => levelOf_decodeLevel_false hl
    exact ⟨fun _ hfalse => absurd hfalse Bool.false_ne_true, fun _ => h⟩
  | true =>
    constructor
    · intro h _ elems helems
      unfold LegacyLevelOk
      split
      · next price size =>
        intro cents hcents n hn
        have hl : (⟨centsToE4 (toInt32 cents), toInt64 (n * 100)⟩ : Level) ∈
            RestApi.decodeLevel true [price, size] := by
          rw [Option.mem_def] at hcents hn ⊢
          simp [RestApi.decodeLevel, hcents, hn]
        obtain ⟨hprice, l', hmem, hl'⟩ := h.of_mem hperm helems hl
        refine ⟨(priceOk_centsToE4_iff cents).1 hprice, ?_⟩
        -- The matched size is a 64-bit integer, so the number times 100 is one.
        obtain ⟨elems', -, hread⟩ := List.mem_filterMap.1 hmem
        obtain ⟨_, _, _, m, -, -, -, rfl⟩ := decodeLevel_true_eq_some hread
        obtain ⟨j, hj, hnonneg, hexact⟩ := hl'.size
        obtain rfl : size = j := Option.some.inj hj
        rw [number_of_asInt64 hn, Option.some.injEq, eq_div_iff (by norm_num)] at hexact
        have heq : n * 100 = toInt64 (m * 100) := by exact_mod_cast hexact
        have hbounds := toInt64_bounds (m * 100)
        rw [LegacyCountOk]
        simp only at hnonneg
        omega
      · trivial
    · intro h
      refine levelsOf_of_forall hperm fun elems helems l hl => ?_
      obtain ⟨price, size, cents, n, rfl, hcents, hn, rfl⟩ := decodeLevel_true_eq_some hl
      obtain ⟨hprice, hcount⟩ := h rfl _ helems cents hcents n hn
      exact ⟨(priceOk_centsToE4_iff cents).2 hprice, size, rfl, (countOf_toInt64_iff hn).2 hcount⟩

/-! ### Order books -/

lemma filterMap_pairsOf {α : Type} (read : List Json → Option α) (arr : Json) :
    (pairsOf (some arr)).filterMap read =
      (arr.asArray.getD []).filterMap fun pair => pair.asArray.bind read := by
  rw [pairsOf, Option.bind_some, List.filterMap_filterMap]

lemma perm_levelsField (sort : LevelSort) (cents : Bool) (book : List (List Char × Json))
    (name : String) :
    ((pairsOf (Json.field book name)).filterMap (RestApi.decodeLevel cents)).Perm
      (RestApi.levelsField sort cents book name) := by
  rw [RestApi.levelsField]
  cases Json.field book name with
  | none => exact List.Perm.refl _
  | some arr =>
    rw [filterMap_pairsOf]
    exact (sort.perm _).symm

def yesField (cents : Bool) (book : List (List Char × Json)) : Option Json :=
  Json.field book (if cents then "yes" else "yes_dollars")

def noField (cents : Bool) (book : List (List Char × Json)) : Option Json :=
  Json.field book (if cents then "no" else "no_dollars")

/-- The levels of a snapshot are those of the book in the object. -/
def BookOf (obj : List (List Char × Json)) (ob : OrderbookSnapshot) : Prop :=
  match RestApi.bookOf obj with
  | none               => ob.yes = [] ∧ ob.no = []
  | some (cents, book) =>
    LevelsOf (RestApi.decodeLevel cents) (yesField cents book) ob.yes ∧
      LevelsOf (RestApi.decodeLevel cents) (noField cents book) ob.no

/-- The legacy integers of a legacy book are as they should be. -/
def LegacyBookOk (obj : List (List Char × Json)) : Prop :=
  ∀ book, RestApi.bookOf obj = some (true, book) →
    ∀ elems ∈ pairsOf (yesField true book) ++ pairsOf (noField true book), LegacyLevelOk elems

lemma bookOf_decodeBook_iff (sort : LevelSort) (ticker : List Char)
    (obj : List (List Char × Json)) :
    BookOf obj (RestApi.decodeBook sort ticker obj) ↔ LegacyBookOk obj := by
  rw [RestApi.decodeBook, BookOf, LegacyBookOk]
  cases RestApi.bookOf obj with
  | none => simp
  | some cb =>
    obtain ⟨cents, book⟩ := cb
    dsimp only
    rw [yesField, noField, levelsOf_iff (perm_levelsField sort cents book _),
      levelsOf_iff (perm_levelsField sort cents book _)]
    cases cents with
    | false => simp
    | true => simp [yesField, noField, or_imp, forall_and]

/-! ### Calls -/

section

variable (parse : List Char → Option Json) (get : List Char → Except ApiError Response)

/-- The fields of the document that a request is answered with. -/
def Served (path : List Char) (doc : List (List Char × Json)) : Prop :=
  ∃ r, get path = .ok r ∧ r.ok ∧ doc = ((parse r.body).bind Json.asObject).getD []

/-- Every summary of a call is that of the market of the document. -/
def MarketExact (ticker : List Char) : Prop :=
  ∀ ms, RestApi.market parse get ticker = .ok ms →
    ∃ doc obj, Served parse get (RestApi.marketPath ticker) doc ∧
      Json.objectField doc "market" = some obj ∧ SummaryOf obj ms

def MarketsExact (q : MarketsQuery) : Prop :=
  ∀ page, RestApi.markets parse get q = .ok page →
    ∃ doc, Served parse get (RestApi.marketsPath q) doc ∧
      List.Forall₂ SummaryOf (RestApi.objectsField doc "markets") page.markets

def OrderbookExact (sort : LevelSort) (ticker : List Char) (depth : Int) : Prop :=
  ∀ ob, RestApi.orderbook parse get sort ticker depth = .ok ob →
    ∃ doc, Served parse get (RestApi.orderbookPath ticker depth) doc ∧ BookOf doc ob

def BatchOrderbookExact (sort : LevelSort) (tickers : List (List Char)) : Prop :=
  ∀ obs, RestApi.batchOrderbook parse get sort tickers = .ok obs →
    ∃ doc, Served parse get (RestApi.batchPath tickers) doc ∧
      List.Forall₂ BookOf (RestApi.objectsField doc "orderbooks") obs

variable {parse get}

lemma Served.unique {path : List Char} {doc doc' : List (List Char × Json)}
    (h : Served parse get path doc) (h' : Served parse get path doc') : doc = doc' := by
  obtain ⟨r, hr, -, rfl⟩ := h
  obtain ⟨r', hr', -, rfl⟩ := h'
  rw [hr] at hr'
  rw [Except.ok.inj hr']

/-- A call that does not look at the status succeeds on the document served. -/
lemma fetch_bind_eq_ok_iff {α : Type} {path : List Char}
    {f : Int × List (List Char × Json) → Except ApiError α} {P : List (List Char × Json) → Prop}
    {a : α} (hf : ∀ status doc, f (status, doc) = .ok a ↔ P doc) :
    (RestApi.fetch parse get path >>= f) = .ok a ↔
      ∃ doc, Served parse get path doc ∧ P doc := by
  rw [RestApi.fetch]
  cases hget : get path with
  | error e =>
    constructor
    · intro h
      cases h
    · rintro ⟨doc, ⟨r, hr, -⟩, -⟩
      rw [hget] at hr
      cases hr
  | ok r =>
    cases hok : r.ok with
    | false =>
      constructor
      · intro h
        simp only [bind, Except.bind, hok] at h
        cases h
      · rintro ⟨doc, ⟨r', hr', hok', -⟩, -⟩
        rw [hget] at hr'
        rw [← Except.ok.inj hr', hok] at hok'
        cases hok'
    | true =>
      have heq : ((Except.ok r >>= fun r => if r.ok then
          .ok (r.status, ((parse r.body).bind Json.asObject).getD [])
          else .error (parseKalshiError parse r) : Except ApiError _) >>= f) =
          f (r.status, ((parse r.body).bind Json.asObject).getD []) := by
        simp only [bind, Except.bind, hok]
        rfl
      have hserved : Served parse get path (((parse r.body).bind Json.asObject).getD []) :=
        ⟨r, hget, hok, rfl⟩
      rw [heq, hf]
      exact ⟨fun h => ⟨_, hserved, h⟩, fun ⟨doc, hdoc, h⟩ => hserved.unique hdoc ▸ h⟩

lemma market_eq_ok_iff {ticker : List Char} {ms : MarketSummary} :
    RestApi.market parse get ticker = .ok ms ↔
      ∃ doc, Served parse get (RestApi.marketPath ticker) doc ∧
        ∃ obj, Json.objectField doc "market" = some obj ∧ ms = RestApi.decodeMarket obj := by
  rw [RestApi.market]
  apply fetch_bind_eq_ok_iff
  intro status doc
  cases hobj : Json.objectField doc "market" with
  | none =>
    constructor
    · intro h
      simp only [hobj] at h
      cases h
    · rintro ⟨obj, hobj', -⟩
      cases hobj'
  | some obj =>
    simp only [hobj, Option.some.injEq, exists_eq_left']
    exact ⟨fun h => (Except.ok.inj h).symm, fun h => h ▸ rfl⟩

lemma markets_eq_ok_iff {q : MarketsQuery} {page : MarketsPage} :
    RestApi.markets parse get q = .ok page ↔
      ∃ doc, Served parse get (RestApi.marketsPath q) doc ∧
        page = {
          markets    := (RestApi.objectsField doc "markets").map RestApi.decodeMarket
          nextCursor := (Json.stringField doc "cursor").getD [] } := by
  rw [RestApi.markets]
  apply fetch_bind_eq_ok_iff
  intro status doc
  exact ⟨fun h => (Except.ok.inj h).symm, fun h => h ▸ rfl⟩

lemma orderbook_eq_ok_iff {sort : LevelSort} {ticker : List Char} {depth : Int}
    {ob : OrderbookSnapshot} :
    RestApi.orderbook parse get sort ticker depth = .ok ob ↔
      ∃ doc, Served parse get (RestApi.orderbookPath ticker depth) doc ∧
        ob = RestApi.decodeBook sort ticker doc := by
  rw [RestApi.orderbook]
  apply fetch_bind_eq_ok_iff
  intro status doc
  exact ⟨fun h => (Except.ok.inj h).symm, fun h => h ▸ rfl⟩

lemma batchOrderbook_eq_ok_iff {sort : LevelSort} {tickers : List (List Char)}
    {obs : List OrderbookSnapshot} :
    RestApi.batchOrderbook parse get sort tickers = .ok obs ↔
      (0 < tickers.length ∧ tickers.length ≤ 100) ∧
        ∃ doc, Served parse get (RestApi.batchPath tickers) doc ∧
          obs = (RestApi.objectsField doc "orderbooks").map fun obj => RestApi.decodeBook sort
            ((Json.stringField obj "market_ticker").getD []) obj := by
  have hsize : (tickers.isEmpty ∨ tickers.length > 100) ↔
      ¬ (0 < tickers.length ∧ tickers.length ≤ 100) := by
    rw [List.isEmpty_iff_length_eq_zero]
    omega
  rw [RestApi.batchOrderbook]
  split_ifs with hbad
  · constructor
    · intro h
      cases h
    · intro h
      exact absurd h.1 (hsize.1 hbad)
  · rw [and_iff_right (by_contra fun hnot => hbad (hsize.2 hnot))]
    apply fetch_bind_eq_ok_iff
    intro status doc
    exact ⟨fun h => (Except.ok.inj h).symm, fun h => h ▸ rfl⟩

lemma marketExact_iff (ticker : List Char) :
    MarketExact parse get ticker ↔
      ∀ doc, Served parse get (RestApi.marketPath ticker) doc →
        ∀ obj ∈ Json.objectField doc "market", LegacyMarketOk obj := by
  constructor
  · intro h doc hdoc obj hobj
    obtain ⟨doc', obj', hdoc', hobj', hsummary⟩ :=
      h _ (market_eq_ok_iff.2 ⟨doc, hdoc, obj, hobj, rfl⟩)
    obtain rfl := hdoc.unique hdoc'
    obtain rfl : obj = obj' := Option.some.inj (hobj.symm.trans hobj')
    exact (summaryOf_decodeMarket_iff obj).1 hsummary
  · intro h ms hms
    obtain ⟨doc, hdoc, obj, hobj, rfl⟩ := market_eq_ok_iff.1 hms
    exact ⟨doc, obj, hdoc, hobj, (summaryOf_decodeMarket_iff obj).2 (h doc hdoc obj hobj)⟩

lemma marketsExact_iff (q : MarketsQuery) :
    MarketsExact parse get q ↔
      ∀ doc, Served parse get (RestApi.marketsPath q) doc →
        ∀ obj ∈ RestApi.objectsField doc "markets", LegacyMarketOk obj := by
  have hsummaries (objs : List (List (List Char × Json))) :
      List.Forall₂ SummaryOf objs (objs.map RestApi.decodeMarket) ↔
        ∀ obj ∈ objs, LegacyMarketOk obj := by
    rw [List.forall₂_map_right_iff, List.forall₂_same]
    exact forall₂_congr fun obj _ => summaryOf_decodeMarket_iff obj
  constructor
  · intro h doc hdoc
    obtain ⟨doc', hdoc', hsummary⟩ := h _ (markets_eq_ok_iff.2 ⟨doc, hdoc, rfl⟩)
    obtain rfl := hdoc.unique hdoc'
    exact (hsummaries _).1 hsummary
  · intro h page hpage
    obtain ⟨doc, hdoc, rfl⟩ := markets_eq_ok_iff.1 hpage
    exact ⟨doc, hdoc, (hsummaries _).2 (h doc hdoc)⟩

lemma orderbookExact_iff (sort : LevelSort) (ticker : List Char) (depth : Int) :
    OrderbookExact parse get sort ticker depth ↔
      ∀ doc, Served parse get (RestApi.orderbookPath ticker depth) doc → LegacyBookOk doc := by
  constructor
  · intro h doc hdoc
    obtain ⟨doc', hdoc', hbook⟩ := h _ (orderbook_eq_ok_iff.2 ⟨doc, hdoc, rfl⟩)
    obtain rfl := hdoc.unique hdoc'
    exact (bookOf_decodeBook_iff sort ticker doc).1 hbook
  · intro h ob hob
    obtain ⟨doc, hdoc, rfl⟩ := orderbook_eq_ok_iff.1 hob
    exact ⟨doc, hdoc, (bookOf_decodeBook_iff sort ticker doc).2 (h doc hdoc)⟩

lemma batchOrderbookExact_iff (sort : LevelSort) (tickers : List (List Char)) :
    BatchOrderbookExact parse get sort tickers ↔
      (0 < tickers.length ∧ tickers.length ≤ 100 →
        ∀ doc, Served parse get (RestApi.batchPath tickers) doc →
          ∀ obj ∈ RestApi.objectsField doc "orderbooks", LegacyBookOk obj) := by
  have hbooks (objs : List (List (List Char × Json))) :
      List.Forall₂ BookOf objs (objs.map fun obj => RestApi.decodeBook sort
        ((Json.stringField obj "market_ticker").getD []) obj) ↔
          ∀ obj ∈ objs, LegacyBookOk obj := by
    rw [List.forall₂_map_right_iff, List.forall₂_same]
    exact forall₂_congr fun obj _ => bookOf_decodeBook_iff sort _ obj
  constructor
  · intro h hsize doc hdoc
    obtain ⟨doc', hdoc', hexact⟩ := h _ (batchOrderbook_eq_ok_iff.2 ⟨hsize, doc, hdoc, rfl⟩)
    obtain rfl := hdoc.unique hdoc'
    exact (hbooks _).1 hexact
  · intro h obs hobs
    obtain ⟨hsize, doc, hdoc, rfl⟩ := batchOrderbook_eq_ok_iff.1 hobs
    exact ⟨doc, hdoc, (hbooks _).2 (h hsize doc hdoc)⟩

end

/-! ### The decoder of the feed -/

/-- The prices and counts of a payload are those of the message. -/
def PayloadOf (msg : List (List Char × Json)) : Payload → Prop
  | .bookSnapshot yes no =>
    LevelsOf KalshiRawDecoder.parseLevel (Json.field msg "yes_dollars_fp") yes ∧
      LevelsOf KalshiRawDecoder.parseLevel (Json.field msg "no_dollars_fp") no
  | .bookDelta _ price _ _ => PriceOk price
  | .ticker lastPrice yesBid yesAsk volume openInterest =>
    (∀ v ∈ lastPrice, PriceOk v) ∧ (∀ v ∈ yesBid, PriceOk v) ∧ (∀ v ∈ yesAsk, PriceOk v) ∧
      (∀ v ∈ volume, ∃ j ∈ Json.field msg "volume_fp", CountOf j v) ∧
      (∀ v ∈ openInterest, ∃ j ∈ Json.field msg "open_interest_fp", CountOf j v)
  | .trade price size _ _ =>
    PriceOk price ∧ ∃ s ∈ Json.stringField msg "count_fp", CountOf (.str s) size
  | .lifecycle _ _ settlementValue => ∀ v ∈ settlementValue, PriceOk v

/-- A trade has a count that is read, or one that is zero. -/
def TradeCountOk (msg : List (List Char × Json)) : Prop :=
  ∃ s ∈ Json.stringField msg "count_fp", (parseCountFp s).isSome ∨ decimalValue s = some 0

/-- Every event of a record is that of its message. -/
def EventExact (parse : List Char → Option Json) (rec : RawRecord) : Prop :=
  ∀ ev, KalshiRawDecoder.decode parse rec = some ev →
    ∃ root msg, (parse rec.raw).bind Json.asObject = some root ∧
      Json.objectField root "msg" = some msg ∧ PayloadOf msg ev.payload

lemma priceOk_of_bind {o : Option (List Char)} {v : Int} (h : v ∈ o.bind parsePriceE4) :
    PriceOk v := by
  obtain ⟨s, -, hs⟩ := Option.bind_eq_some_iff.1 h
  exact parsePriceE4_bounds hs

lemma countOf_of_bind {msg : List (List Char × Json)} {name : String} {v : Int}
    (h : v ∈ (Json.stringField msg name).bind parseCountFp) :
    ∃ j ∈ Json.field msg name, CountOf j v := by
  obtain ⟨s, hstring, hs⟩ := Option.bind_eq_some_iff.1 h
  obtain ⟨j, hfield, hj⟩ := Option.bind_eq_some_iff.1 hstring
  refine ⟨j, hfield, ?_⟩
  rw [eq_str_of_asString hj]
  exact countOf_parseCountFp hs

lemma levelsOf_levelsField (msg : List (List Char × Json)) (name : String) :
    LevelsOf KalshiRawDecoder.parseLevel (Json.field msg name)
      (KalshiRawDecoder.levelsField msg name) := by
  refine levelsOf_of_forall (List.Perm.of_eq ?_) fun elems _ l hl => levelOf_parseLevel hl
  rw [KalshiRawDecoder.levelsField]
  cases Json.field msg name with
  | none => rfl
  | some arr => exact filterMap_pairsOf _ arr

lemma priceOk_zero : PriceOk 0 := ⟨le_rfl, by decide⟩

lemma priceOk_complement {v : Int} (h : PriceOk v) : PriceOk (kPriceMax - v) := by
  obtain ⟨hlow, hhigh⟩ := h
  simp only [PriceOk, kPriceMin, kPriceMax] at *
  omega

/-- Unreadable text is read as the count zero. -/
lemma countOf_getD_iff (s : List Char) :
    CountOf (.str s) ((parseCountFp s).getD 0) ↔
      (parseCountFp s).isSome ∨ decimalValue s = some 0 := by
  cases hparse : parseCountFp s with
  | some v => simp [countOf_parseCountFp hparse]
  | none =>
    simp only [Option.getD_none, Option.isSome_none, Bool.false_eq_true, false_or]
    constructor
    · rintro ⟨-, hexact⟩
      simpa [Json.number] using hexact
    · intro hzero
      exact ⟨le_rfl, by simpa [Json.number] using hzero⟩

lemma payloadOf_decodeTrade_iff (msg : List (List Char × Json)) :
    PayloadOf msg (KalshiRawDecoder.decodeTrade msg) ↔ TradeCountOk msg := by
  simp only [KalshiRawDecoder.decodeTrade, PayloadOf, TradeCountOk]
  have hgetD {o : Option Int} (h : ∀ v ∈ o, PriceOk v) : PriceOk (o.getD 0) := by
    cases o with
    | none => exact priceOk_zero
    | some v => exact h v rfl
  refine (and_iff_right ?_).trans (exists_congr fun s => and_congr_right fun hs => ?_)
  · split
    · exact hgetD fun v hv => parsePriceE4_bounds hv
    · split
      · refine hgetD fun v hv => ?_
        obtain ⟨p, hp, rfl⟩ := Option.map_eq_some_iff.1 hv
        exact priceOk_complement (parsePriceE4_bounds hp)
      · exact priceOk_zero
  · rw [Option.mem_def.1 hs, Option.bind_some]
    exact countOf_getD_iff s

lemma payloadOf_decodePayload_iff {type : List Char} {msg : List (List Char × Json)}
    {payload : Payload} (h : KalshiRawDecoder.decodePayload type msg = some payload) :
    PayloadOf msg payload ↔ (type = "trade".toList → TradeCountOk msg) := by
  rw [KalshiRawDecoder.decodePayload] at h
  split_ifs at h with hsnapshot hdelta hticker htrade hlifecycle
  · subst hsnapshot
    obtain rfl := Option.some.inj h
    exact iff_of_true ⟨levelsOf_levelsField msg _, levelsOf_levelsField msg _⟩
      (fun heq => absurd heq (by decide))
  · subst hdelta
    simp only [KalshiRawDecoder.decodeDelta, Option.bind_eq_bind, Option.bind_eq_some_iff,
      Option.pure_def, Option.some.injEq] at h
    obtain ⟨s, -, price, hprice, -, -, d, -, rfl⟩ := h
    exact iff_of_true (parsePriceE4_bounds hprice) (fun heq => absurd heq (by decide))
  · subst hticker
    obtain rfl := Option.some.inj h
    exact iff_of_true ⟨fun _ => priceOk_of_bind, fun _ => priceOk_of_bind, fun _ => priceOk_of_bind,
      fun _ => countOf_of_bind, fun _ => countOf_of_bind⟩ (fun heq => absurd heq (by decide))
  · obtain rfl := Option.some.inj h
    rw [payloadOf_decodeTrade_iff, imp_iff_right htrade]
  · obtain rfl := Option.some.inj h
    refine iff_of_true ?_ (fun heq => absurd heq htrade)
    rw [KalshiRawDecoder.decodeLifecycle]
    split
    · exact fun _ => priceOk_of_bind
    · split
      · exact fun _ => priceOk_of_bind
      · exact fun _ => priceOk_of_bind

/-- The events of the decoder: a payload for the message in the record. -/
lemma KalshiRawDecoder.decode_eq_some_iff {parse : List Char → Option Json} {rec : RawRecord}
    {ev : NormalizedEvent} : decode parse rec = some ev ↔
      ∃ root, (parse rec.raw).bind Json.asObject = some root ∧
        ∃ type, Json.stringField root "type" = some type ∧
          ∃ msg, Json.objectField root "msg" = some msg ∧
            ∃ payload, decodePayload type msg = some payload ∧ ev = {
              entityId          := makeEntityId kSourceKalshi rec.sourceTicker
              sourceEventTimeMs := eventTime type msg rec.sourceEventTimeMs
              sourceSequence    := rec.sourceSequence
              sourceStreamId    := rec.sourceStreamId
              streamEpoch       := rec.streamEpoch
              payload } := by
  simp only [decode, Option.bind_eq_bind, Option.bind_eq_some_iff, Option.pure_def,
    Option.some.injEq]
  constructor
  · rintro ⟨j, hj, root, hroot, type, htype, msg, hmsg, payload, hpayload, rfl⟩
    exact ⟨root, ⟨j, hj, hroot⟩, type, htype, msg, hmsg, payload, hpayload, rfl⟩
  · rintro ⟨root, ⟨j, hj, hroot⟩, type, htype, msg, hmsg, payload, hpayload, rfl⟩
    exact ⟨j, hj, root, hroot, type, htype, msg, hmsg, payload, hpayload, rfl⟩

lemma eventExact_iff (parse : List Char → Option Json) (rec : RawRecord) :
    EventExact parse rec ↔
      ∀ root, (parse rec.raw).bind Json.asObject = some root →
        Json.stringField root "type" = some "trade".toList →
          ∀ msg ∈ Json.objectField root "msg", TradeCountOk msg := by
  constructor
  · intro h root hroot htype msg hmsg
    have hpayload : KalshiRawDecoder.decodePayload "trade".toList msg =
        some (KalshiRawDecoder.decodeTrade msg) := rfl
    obtain ⟨root', msg', hroot', hmsg', hof⟩ :=
      h _ (KalshiRawDecoder.decode_eq_some_iff.2
        ⟨root, hroot, _, htype, msg, hmsg, _, hpayload, rfl⟩)
    obtain rfl : root = root' := Option.some.inj (hroot.symm.trans hroot')
    obtain rfl : msg = msg' := Option.some.inj (hmsg.symm.trans hmsg')
    exact (payloadOf_decodeTrade_iff msg).1 hof
  · intro h ev hev
    obtain ⟨root, hroot, type, htype, msg, hmsg, payload, hpayload, rfl⟩ :=
      KalshiRawDecoder.decode_eq_some_iff.1 hev
    refine ⟨root, msg, hroot, hmsg, (payloadOf_decodePayload_iff hpayload).2 ?_⟩
    rintro rfl
    exact h root hroot htype msg hmsg

/-! ### All decoders -/

/-- Prices and counts of all decoders are as they should be exactly when the legacy integers that
are used are, and the counts of trades can be read. -/
theorem bus_invariant_iff (parse : List Char → Option Json)
    (get : List Char → Except ApiError Response) (sort : LevelSort) (rec : RawRecord)
    (q : MarketsQuery) (ticker : List Char) (depth : Int) (tickers : List (List Char)) :
    (EventExact parse rec ↔
        ∀ root, (parse rec.raw).bind Json.asObject = some root →
          Json.stringField root "type" = some "trade".toList →
            ∀ msg ∈ Json.objectField root "msg", TradeCountOk msg) ∧
      (MarketExact parse get ticker ↔
        ∀ doc, Served parse get (RestApi.marketPath ticker) doc →
          ∀ obj ∈ Json.objectField doc "market", LegacyMarketOk obj) ∧
      (MarketsExact parse get q ↔
        ∀ doc, Served parse get (RestApi.marketsPath q) doc →
          ∀ obj ∈ RestApi.objectsField doc "markets", LegacyMarketOk obj) ∧
      (OrderbookExact parse get sort ticker depth ↔
        ∀ doc, Served parse get (RestApi.orderbookPath ticker depth) doc → LegacyBookOk doc) ∧
      (BatchOrderbookExact parse get sort tickers ↔
        (0 < tickers.length ∧ tickers.length ≤ 100 →
          ∀ doc, Served parse get (RestApi.batchPath tickers) doc →
            ∀ obj ∈ RestApi.objectsField doc "orderbooks", LegacyBookOk obj)) :=
  ⟨eventExact_iff parse rec, marketExact_iff ticker, marketsExact_iff q,
    orderbookExact_iff sort ticker depth, batchOrderbookExact_iff sort tickers⟩

/-- A legacy price of 150 cents is passed on as the price 15000. -/
theorem bus_invariant_legacy_price :
    ¬ MarketExact
      (fun _ => some (.obj [("market".toList, .obj [("yes_bid".toList, .num "150".toList)])]))
      (fun _ => .ok {
        status := 200
        body   := "\x7b\"market\":\x7b\"yes_bid\":150\x7d\x7d".toList })
      "T".toList := by
  intro h
  obtain ⟨doc, obj, -, -, hsummary⟩ :=
    h (RestApi.decodeMarket [("yes_bid".toList, .num "150".toList)]) rfl
  have hprice := hsummary.yesBid 15000 (by decide)
  exact absurd hprice.2 (by decide)

end HftBot
