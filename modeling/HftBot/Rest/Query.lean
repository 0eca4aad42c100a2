import HftBot.Core.Query
import HftBot.Rest.RestApi

/-!
# Fidelity of request targets

`escape` drops three characters and passes all others on. A value is what the server finds in the
query exactly if it has none of the three, no `&`, and no percent sign that the server decodes.
-/

namespace HftBot.RestApi

open HftBot.Core HftBot.Core.Query HftBot.Core.Utf8

/-! ### What `escape` keeps -/

/-- A text that `escape` and the decoding of the server leave as it is. -/
structure Verbatim (s : List Char) : Prop where
  question : '?' ∉ s
  hash     : '#' ∉ s
  space    : ' ' ∉ s
  plain    : ¬ Escaped s

lemma escape_eq_self_iff {s : List Char} : escape s = s ↔ '?' ∉ s ∧ '#' ∉ s ∧ ' ' ∉ s := by
  rw [escape, List.filter_eq_self]
  constructor
  · intro h
    have hkeep := fun c hc => of_decide_eq_true (h c hc)
    exact ⟨fun hc => (hkeep _ hc).1 rfl, fun hc => (hkeep _ hc).2.1 rfl,
      fun hc => (hkeep _ hc).2.2 rfl⟩
  · rintro ⟨hquestion, hhash, hspace⟩ c hc
    refine decide_eq_true ⟨?_, ?_, ?_⟩ <;> rintro rfl
    · exact hquestion hc
    · exact hhash hc
    · exact hspace hc

/-- What is dropped is missing in the bytes. -/
lemma escape_cases (s : List Char) :
    escape s = s ∨ (encode (escape s)).length < (encode s).length := by
  induction s with
  | nil => exact Or.inl rfl
  | cons c s ih =>
    have hc := length_utf8EncodeChar_pos c
    rw [escape, List.filter_cons]
    split_ifs
    · rw [encode_cons, encode_cons, List.length_append, List.length_append]
      exact ih.imp (congrArg _) fun hlt => Nat.add_lt_add_left hlt _
    · refine Or.inr ?_
      rw [encode_cons, List.length_append]
      rcases ih with heq | hlt
      · rw [escape] at heq
        rw [heq]
        omega
      · rw [escape] at hlt
        omega

lemma percentDecode_escape_iff {s : List Char} :
    percentDecode (escape s) = encode s ↔ Verbatim s := by
  constructor
  · intro heq
    rcases escape_cases s with hsame | hlt
    · obtain ⟨hquestion, hhash, hspace⟩ := escape_eq_self_iff.1 hsame
      rw [hsame] at heq
      exact ⟨hquestion, hhash, hspace, percentDecode_eq_encode_iff.1 heq⟩
    · have hle := (decodes (escape s)).length_le
      rw [heq] at hle
      omega
  · intro h
    rw [escape_eq_self_iff.2 ⟨h.question, h.hash, h.space⟩]
    exact percentDecode_eq_encode_iff.2 h.plain

lemma mem_escape_of_ne {c : Char} {s : List Char} (hc : c ≠ '?' ∧ c ≠ '#' ∧ c ≠ ' ') :
    c ∈ escape s ↔ c ∈ s := by
  simp [escape, hc]

/-! ### Queries -/

/-- A value that is found in the query as it was given. -/
def Clean (s : List Char) : Prop := '&' ∉ s ∧ Verbatim s

/-- A name and its value in the query. -/
def piece (o : List Char × List Char) : List Char := o.1 ++ '=' :: escape o.2

/-- The parameters of a query and their values in bytes. -/
def given (os : List (List Char × List Char)) : List (List Char × Bytes) :=
  os.map fun o => (o.1, encode o.2)

/-- A name that can be told in a query. -/
def PlainName (s : List Char) : Prop := '=' ∉ s ∧ '&' ∉ s

instance (s : List Char) : Decidable (PlainName s) := inferInstanceAs (Decidable (_ ∧ _))

lemma params_query_iff {path : List Char} (hpath : '?' ∉ path)
    {o : List Char × List Char} {os : List (List Char × List Char)}
    (hnames : ∀ p ∈ o :: os, PlainName p.1) :
    params (path ++ '?' :: ['&'].intercalate ((o :: os).map piece)) = given (o :: os) ↔
      ∀ p ∈ o :: os, Clean p.2 := by
  have hmem : '?' ∈ path ++ '?' :: ['&'].intercalate ((o :: os).map piece) := by simp
  rw [params, if_pos hmem, splitFirst_append hpath, List.map_cons, splitOn_intercalate_eq,
    ← List.map_cons, List.flatMap_map, given, map_flatMap_splitOn_eq_iff]
  refine forall₂_congr fun p hp => ?_
  obtain ⟨heq, hamp⟩ := hnames p hp
  rw [piece, param_append heq, Prod.mk.injEq, percentDecode_escape_iff, Clean]
  simp [hamp, mem_escape_of_ne]

/-! ### Markets -/

/-- What a query asks for: a limit, and the values that are not empty. -/
def options (q : MarketsQuery) : List (List Char × List Char) :=
  ("limit".toList, (toString q.limit).toList) ::
    [("status".toList, q.status), ("series_ticker".toList, q.seriesTicker),
      ("cursor".toList, q.cursor)].filter fun o => !o.2.isEmpty

lemma mem_toString {z : Int} {c : Char} (hc : c ∈ (toString z).toList) :
    c.isDigit = true ∨ c = '-' := by
  have hdigit {n : Nat} (hn : c ∈ (Nat.repr n).toList) : c.isDigit = true := by
    rw [Nat.toList_repr] at hn
    exact Nat.isDigit_of_mem_toDigits (by decide) (by decide) hn
  cases z with
  | ofNat n => exact Or.inl (hdigit hc)
  | negSucc n =>
    have hmem : c ∈ ("-" ++ Nat.repr (n + 1)).toList := hc
    rw [String.toList_append, List.mem_append] at hmem
    exact hmem.elim (fun hminus => Or.inr (by simpa using hminus)) fun hn => Or.inl (hdigit hn)

lemma clean_toString (z : Int) : Clean (toString z).toList := by
  have hno {c : Char} (hc : ¬ (c.isDigit = true ∨ c = '-')) : c ∉ (toString z).toList :=
    fun hmem => hc (mem_toString hmem)
  refine ⟨hno (by decide), hno (by decide), hno (by decide), hno (by decide), ?_⟩
  rintro ⟨a, b, -, hin⟩
  exact hno (by decide) (hin.subset List.mem_cons_self)

lemma clean_nil : Clean [] :=
  ⟨List.not_mem_nil, List.not_mem_nil, List.not_mem_nil, List.not_mem_nil, not_escaped_nil⟩

lemma escape_of_clean {s : List Char} (h : Clean s) : escape s = s :=
  escape_eq_self_iff.2 ⟨h.2.question, h.2.hash, h.2.space⟩

/-- A value that is not empty adds its piece. -/
lemma option_eq (text name : String) (htext : text.toList = '&' :: (name.toList ++ ['=']))
    (value : List Char) : (if value.isEmpty then [] else text.toList ++ escape value) =
      ([(name.toList, value)].filter fun o => !o.2.isEmpty).flatMap fun o => '&' :: piece o := by
  cases value with
  | nil => rfl
  | cons c value => simp [htext, piece]

lemma marketsPath_eq (q : MarketsQuery) : marketsPath q =
    "/markets".toList ++ '?' :: ['&'].intercalate ((options q).map piece) := by
  have hlimit : piece ("limit".toList, (toString q.limit).toList) =
      "limit=".toList ++ (toString q.limit).toList := by
    have htext : "limit=".toList = "limit".toList ++ ['='] := by decide
    rw [piece, escape_of_clean (clean_toString q.limit), htext, List.append_assoc,
      List.singleton_append]
  have hfront : "/markets?limit=".toList = "/markets".toList ++ '?' :: "limit=".toList := by decide
  have hsplit : [("status".toList, q.status), ("series_ticker".toList, q.seriesTicker),
      ("cursor".toList, q.cursor)] = [("status".toList, q.status)] ++
        ([("series_ticker".toList, q.seriesTicker)] ++ [("cursor".toList, q.cursor)]) := rfl
  rw [options, List.map_cons, intercalate_cons_eq, hlimit, List.flatMap_map, hsplit,
    List.filter_append, List.filter_append, List.flatMap_append, List.flatMap_append]
  change "/markets?limit=".toList ++ (toString q.limit).toList ++
    (if q.status.isEmpty then [] else "&status=".toList ++ escape q.status) ++
    (if q.seriesTicker.isEmpty then [] else "&series_ticker=".toList ++ escape q.seriesTicker) ++
    (if q.cursor.isEmpty then [] else "&cursor=".toList ++ escape q.cursor) = _
  rw [option_eq "&status=" "status" (by decide), option_eq "&series_ticker=" "series_ticker"
    (by decide), option_eq "&cursor=" "cursor" (by decide), hfront]
  simp only [List.append_assoc, List.cons_append]

/-- The path is that of the markets, and the query is what was asked for. -/
def MarketsFaithful (q : MarketsQuery) : Prop :=
  segments (marketsPath q) = [[], encode "markets".toList] ∧
    params (marketsPath q) = given (options q)

lemma marketsFaithful_iff (q : MarketsQuery) :
    MarketsFaithful q ↔ Clean q.status ∧ Clean q.seriesTicker ∧ Clean q.cursor := by
  have hsegments : segments (marketsPath q) = [[], encode "markets".toList] := by
    rw [marketsPath_eq, segments, splitFirst_append (by decide)]
    rfl
  have hnames : ∀ o ∈ options q, PlainName o.1 := by
    intro o ho
    have hplain : ∀ name ∈ ["limit", "status", "series_ticker", "cursor"],
        PlainName name.toList := by decide
    rcases List.mem_cons.1 ho with rfl | ho
    · exact hplain "limit" (by simp)
    · have hmem := List.mem_of_mem_filter ho
      simp only [List.mem_cons, List.not_mem_nil, or_false] at hmem
      rcases hmem with rfl | rfl | rfl
      · exact hplain "status" (by simp)
      · exact hplain "series_ticker" (by simp)
      · exact hplain "cursor" (by simp)
  rw [MarketsFaithful, and_iff_right hsegments, marketsPath_eq]
  refine (params_query_iff (by decide) hnames).trans ?_
  rw [List.forall_mem_cons, and_iff_right (clean_toString q.limit)]
  -- an empty value is left out, and it is clean
  have hempty {s : List Char} : (¬ s = [] → Clean s) ↔ Clean s := by
    cases s with
    | nil => simpa using clean_nil
    | cons c s => simp
  simp [hempty]

/-! ### Batches -/

/-- What a batch asks for. -/
def tickerOptions (tickers : List (List Char)) : List (List Char × List Char) :=
  tickers.map fun t => ("tickers".toList, t)

lemma batchPath_cons (t : List Char) (ts : List (List Char)) : batchPath (t :: ts) =
    "/markets/orderbooks".toList ++ '?' ::
      ['&'].intercalate ((tickerOptions (t :: ts)).map piece) := by
  have hfirst : "?tickers=".toList = '?' :: ("tickers".toList ++ ['=']) := by decide
  have hnext : "&tickers=".toList = '&' :: ("tickers".toList ++ ['=']) := by decide
  have htail : (ts.mapIdx fun i t => (if i + 1 = 0 then "?tickers=" else "&tickers=").toList ++
      escape t).flatten = ts.flatMap fun t => "&tickers=".toList ++ escape t := by
    rw [List.flatMap_def]
    refine congrArg _ (List.ext_getElem? fun i => ?_)
    simp
  rw [tickerOptions, List.map_cons, List.map_cons, intercalate_cons_eq, List.map_map,
    List.flatMap_map]
  change "/markets/orderbooks".toList ++ ((t :: ts).mapIdx fun i t =>
    (if i = 0 then "?tickers=" else "&tickers=").toList ++ escape t).flatten = _
  rw [List.mapIdx_cons, List.flatten_cons, htail, if_pos rfl, hfirst, hnext]
  simp only [Function.comp_apply, piece, List.append_assoc, List.cons_append, List.nil_append]

/-- The path is that of the books, and the query lists the tickers. -/
def BatchFaithful (tickers : List (List Char)) : Prop :=
  segments (batchPath tickers) = [[], encode "markets".toList, encode "orderbooks".toList] ∧
    params (batchPath tickers) = given (tickerOptions tickers)

lemma batchFaithful_iff (tickers : List (List Char)) :
    BatchFaithful tickers ↔ ∀ t ∈ tickers, Clean t := by
  cases tickers with
  | nil => exact iff_of_true ⟨by decide, by decide⟩ fun t ht => absurd ht List.not_mem_nil
  | cons t ts =>
    have hsegments : segments (batchPath (t :: ts)) =
        [[], encode "markets".toList, encode "orderbooks".toList] := by
      rw [batchPath_cons, segments, splitFirst_append (by decide)]
      rfl
    have hnames : ∀ o ∈ tickerOptions (t :: ts), PlainName o.1 := by
      intro o ho
      obtain ⟨t', -, rfl⟩ := List.mem_map.1 ho
      exact (by decide : PlainName "tickers".toList)
    rw [BatchFaithful, and_iff_right hsegments, batchPath_cons]
    refine (params_query_iff (by decide) hnames).trans ?_
    rw [← List.map_cons (f := fun t => ("tickers".toList, t))]
    exact List.forall_mem_map

/-! ### Segments -/

/-- A ticker that is a segment of the path as it was given. -/
def CleanSegment (s : List Char) : Prop := '/' ∉ s ∧ Verbatim s

lemma map_splitOn_escape_iff {s : List Char} :
    ((escape s).splitOn '/').map percentDecode = [encode s] ↔ CleanSegment s := by
  have hone : ([s].flatMap fun s => (escape s).splitOn '/').map percentDecode = [s].map encode ↔
      ∀ t ∈ [s], '/' ∉ escape t ∧ percentDecode (escape t) = encode t :=
    map_flatMap_splitOn_eq_iff
  simp only [List.flatMap_cons, List.flatMap_nil, List.append_nil, List.map_cons, List.map_nil,
    List.forall_mem_singleton, percentDecode_escape_iff] at hone
  rw [hone, mem_escape_of_ne (by decide), CleanSegment]

/-- The ticker is the last segment. -/
def MarketFaithful (ticker : List Char) : Prop :=
  segments (marketPath ticker) = [[], encode "markets".toList, encode ticker]

/-- The ticker is the segment before the last. -/
def OrderbookFaithful (ticker : List Char) (depth : Int) : Prop :=
  segments (orderbookPath ticker depth) =
    [[], encode "markets".toList, encode ticker, encode "orderbook".toList]

lemma splitOn_marketPath (s : List Char) :
    ("/markets/".toList ++ s).splitOn '/' = [] :: "markets".toList :: s.splitOn '/' := by
  have hfront : "/markets/".toList = '/' :: ("markets".toList ++ ['/']) := by decide
  have htext : "/markets/".toList ++ s = [] ++ '/' :: ("markets".toList ++ '/' :: s) := by
    rw [hfront]
    simp only [List.cons_append, List.append_assoc, List.nil_append]
  rw [htext, List.splitOn_append_cons_self, List.splitOn_append_cons_self,
    List.splitOn_eq_singleton (show '/' ∉ "markets".toList by decide)]
  simp

lemma question_notMem_escape (s : List Char) : '?' ∉ escape s := by
  simp [escape]

lemma marketFaithful_iff (ticker : List Char) : MarketFaithful ticker ↔ CleanSegment ticker := by
  have hpath : '?' ∉ "/markets/".toList ++ escape ticker := by
    rw [List.mem_append, not_or]
    exact ⟨by decide, question_notMem_escape ticker⟩
  have hsegments : segments (marketPath ticker) = [] :: encode "markets".toList ::
      ((escape ticker).splitOn '/').map percentDecode := by
    change ((splitFirst '?' ("/markets/".toList ++ escape ticker)).1.splitOn '/').map
      percentDecode = _
    rw [splitFirst_of_not_mem hpath, splitOn_marketPath]
    rfl
  rw [MarketFaithful, hsegments, ← map_splitOn_escape_iff, List.cons.injEq, List.cons.injEq,
    and_iff_right rfl, and_iff_right rfl]

lemma orderbookFaithful_iff (ticker : List Char) (depth : Int) :
    OrderbookFaithful ticker depth ↔ CleanSegment ticker := by
  have hpath : '?' ∉ "/markets/".toList ++ (escape ticker ++ "/orderbook".toList) := by
    rw [List.mem_append, List.mem_append, not_or, not_or]
    exact ⟨by decide, question_notMem_escape ticker, by decide⟩
  have hslash : "/orderbook".toList = '/' :: "orderbook".toList := by decide
  have hsplit : (splitFirst '?' (orderbookPath ticker depth)).1 =
      "/markets/".toList ++ (escape ticker ++ "/orderbook".toList) := by
    have hquery : "?depth=".toList = '?' :: "depth=".toList := by decide
    change (splitFirst '?' ("/markets/".toList ++ escape ticker ++ "/orderbook".toList ++
      (if depth > 0 then "?depth=".toList ++ (toString depth).toList else []))).1 = _
    rw [List.append_assoc ("/markets/".toList)]
    split_ifs
    · rw [hquery, List.cons_append, splitFirst_append hpath]
    · rw [List.append_nil, splitFirst_of_not_mem hpath]
  have hsegments : segments (orderbookPath ticker depth) = [] :: encode "markets".toList ::
      (((escape ticker).splitOn '/').map percentDecode ++ [encode "orderbook".toList]) := by
    rw [segments, hsplit, splitOn_marketPath, hslash, List.splitOn_append_cons_self,
      List.splitOn_eq_singleton (show '/' ∉ "orderbook".toList by decide), List.map_cons,
      List.map_cons, List.map_append]
    rfl
  have hlast : [encode ticker, encode "orderbook".toList] =
      [encode ticker] ++ [encode "orderbook".toList] := rfl
  rw [OrderbookFaithful, hsegments, ← map_splitOn_escape_iff, List.cons.injEq, List.cons.injEq,
    and_iff_right rfl, and_iff_right rfl, hlast, List.append_left_inj]

/-- A request says what was asked for exactly if the values are clean: none of them has a character
that is dropped or that ends it, or a percent sign that is decoded. -/
theorem query_fidelity_iff (q : MarketsQuery) (tickers : List (List Char)) (ticker : List Char)
    (depth : Int) :
    (MarketsFaithful q ↔ Clean q.status ∧ Clean q.seriesTicker ∧ Clean q.cursor) ∧
    (BatchFaithful tickers ↔ ∀ t ∈ tickers, Clean t) ∧
    (MarketFaithful ticker ↔ CleanSegment ticker) ∧
    (OrderbookFaithful ticker depth ↔ CleanSegment ticker) :=
  ⟨marketsFaithful_iff q, batchFaithful_iff tickers, marketFaithful_iff ticker,
    orderbookFaithful_iff ticker depth⟩

/-- A cursor with an `&` is cut in two, so that the next page is not the one it stands for. -/
theorem cursor_is_cut : ¬ ∀ q, MarketsFaithful q := by
  intro h
  have hclean := (marketsFaithful_iff { cursor := "CjAx&limit=1".toList }).1 (h _)
  exact hclean.2.2.1 (by decide)

end HftBot.RestApi
