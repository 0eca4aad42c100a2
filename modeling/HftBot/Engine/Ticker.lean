import HftBot.Engine.Wire

/-!
# Tickers in fixed-size fields

Events and orders carry a ticker in 40 and 42 bytes. `set_ticker` leaves room for a final zero and
cuts a longer ticker, which no later check can see: two markets of one family can end up under one
name.
-/

namespace HftBot.Wire

def kEventMagic : UInt8 := 0xED

def kEventTicker : UInt8 := 1

/-- One normalized market-data update. -/
structure MarketEvent where
  magic        : UInt8 := kEventMagic
  version      : UInt8 := kWireVersion
  kind         : UInt8 := kEventTicker
  pad          : UInt8 := 0
  yesBid       : Int32 := -1
  yesAsk       : Int32 := -1
  lastPrice    : Int32 := -1
  volume       : Int64 := -1
  openInterest : Int64 := -1
  tsNs         : UInt64 := 0
  seq          : UInt64 := 0
  ticker       : Vector UInt8 40 := .replicate 40 0

/-- The number of bytes that go into a field of `n`. -/
def copied (n : Nat) (t : List UInt8) : Nat := if t.length < n then t.length else n - 1

/-- A cleared field of `n` bytes with the front of a ticker. -/
def fillTicker (n : Nat) (t : List UInt8) : Vector UInt8 n where
  toArray       := (t.take (copied n t) ++ .replicate (n - copied n t) 0).toArray
  size_toArray  := by
    simp only [copied]
    split_ifs <;> simp <;> omega

def ExecPayload.setTicker (p : ExecPayload) (t : List UInt8) : ExecPayload :=
  { p with ticker := fillTicker 42 t }

def MarketEvent.setTicker (e : MarketEvent) (t : List UInt8) : MarketEvent :=
  { e with ticker := fillTicker 40 t }

def MarketEvent.tickerView (e : MarketEvent) : List UInt8 := e.ticker.toList.takeWhile (· ≠ 0)

/-! ### What is read back -/

lemma IsTicker.ne_zero {t : List UInt8} (ht : IsTicker t) : ∀ b ∈ t, b ≠ 0 := by
  rintro b hb rfl
  exact absurd (ht.chars 0 hb) (by decide)

lemma take_copied (n : Nat) (t : List UInt8) : t.take (copied n t) = t.take (n - 1) := by
  rw [copied]
  split_ifs with hlt
  · rw [List.take_length, List.take_of_length_le (by omega)]
  · rfl

/-- All but the last byte of a field can hold a ticker. -/
lemma takeWhile_fillTicker {n : Nat} {t : List UInt8} (ht : ∀ b ∈ t, b ≠ 0) :
    (fillTicker n t).toList.takeWhile (· ≠ 0) = t.take (n - 1) := by
  have hlist : (fillTicker n t).toList =
      t.take (n - 1) ++ List.replicate (n - copied n t) 0 := by
    rw [← take_copied]
    rfl
  have hfront : ∀ b ∈ t.take (n - 1), decide (b ≠ 0) = true :=
    fun b hb => decide_eq_true (ht b (List.mem_of_mem_take hb))
  rw [hlist, List.takeWhile_append_of_pos hfront, List.takeWhile_replicate]
  simp

variable {t t' : List UInt8}

lemma ExecPayload.tickerView_setTicker (p : ExecPayload) (ht : IsTicker t) :
    (p.setTicker t).tickerView = t.take 41 := takeWhile_fillTicker ht.ne_zero

lemma MarketEvent.tickerView_setTicker (e : MarketEvent) (ht : IsTicker t) :
    (e.setTicker t).tickerView = t.take 39 := takeWhile_fillTicker ht.ne_zero

/-! ### Tickers that are kept apart -/

/-- Two orders that pass the checks are for two markets. -/
def OrdersApart (t t' : List UInt8) : Prop := ∀ p : ExecPayload,
  (p.setTicker t).tickerView ≠ (p.setTicker t').tickerView ∨
    ¬ (decodeExec (p.setTicker t)).isOk ∨ ¬ (decodeExec (p.setTicker t')).isOk

/-- Two events are of two markets. -/
def EventsApart (t t' : List UInt8) : Prop := ∀ e : MarketEvent,
  (e.setTicker t).tickerView ≠ (e.setTicker t').tickerView

/-- The tickers differ at one of the first `n` places, of which one may have none. -/
def DifferWithin (n : Nat) (t t' : List UInt8) : Prop := ∃ i < n, t[i]? ≠ t'[i]?

instance (n : Nat) (t t' : List UInt8) : Decidable (DifferWithin n t t') :=
  inferInstanceAs (Decidable (∃ i < n, t[i]? ≠ t'[i]?))

lemma differWithin_iff {n : Nat} : DifferWithin n t t' ↔ t.take n ≠ t'.take n := by
  constructor
  · rintro ⟨i, hi, hne⟩ heq
    have hget := congrArg (·[i]?) heq
    simp only [List.getElem?_take, hi, ↓reduceIte] at hget
    exact hne hget
  · intro hne
    by_contra hnone
    simp only [DifferWithin, not_exists, not_and, not_not] at hnone
    refine hne (List.ext_getElem? fun i => ?_)
    rw [List.getElem?_take, List.getElem?_take]
    split_ifs with hi
    · exact hnone i hi
    · rfl

/-- An order of one contract that is refused for its ticker only. -/
def sampleOrder : ExecPayload :=
  { action := kActionBuy, side := kSideYes, orderType := kTypeMarket, count := 1 }

lemma decodeExec_sampleOrder (ht : IsTicker t) :
    decodeExec (sampleOrder.setTicker t) = .ok (sampleOrder.setTicker t) := by
  have hticker : IsTicker (t.take 41) :=
    ⟨by simp [ht.nonempty], fun b hb => ht.chars b (List.mem_of_mem_take hb)⟩
  rw [← sampleOrder.tickerView_setTicker ht] at hticker
  exact decodeExec_eq_ok_iff.2 ⟨rfl, rfl, show sampleOrder.strategyId.toNat < _ by decide,
    Or.inl rfl, Or.inl rfl, Or.inr rfl, show 0 < sampleOrder.count by decide,
    fun hlimit => absurd hlimit (show sampleOrder.orderType ≠ kTypeLimit by decide), hticker⟩

lemma ordersApart_iff (ht : IsTicker t) (ht' : IsTicker t') :
    OrdersApart t t' ↔ DifferWithin 41 t t' := by
  rw [differWithin_iff]
  constructor
  · intro h
    have hsample := h sampleOrder
    rw [decodeExec_sampleOrder ht, decodeExec_sampleOrder ht',
      sampleOrder.tickerView_setTicker ht, sampleOrder.tickerView_setTicker ht'] at hsample
    simpa [Except.isOk, Except.toBool] using hsample
  · intro hne p
    rw [p.tickerView_setTicker ht, p.tickerView_setTicker ht']
    exact Or.inl hne

lemma eventsApart_iff (ht : IsTicker t) (ht' : IsTicker t') :
    EventsApart t t' ↔ DifferWithin 39 t t' := by
  have hviews : ∀ e : MarketEvent, ((e.setTicker t).tickerView ≠ (e.setTicker t').tickerView ↔
      t.take 39 ≠ t'.take 39) := by
    intro e
    rw [e.tickerView_setTicker ht, e.tickerView_setTicker ht']
  rw [differWithin_iff]
  exact ⟨fun h => (hviews {}).1 (h {}), fun hne e => (hviews e).2 hne⟩

/-- Two tickers are kept apart exactly if they differ within the bytes that a field holds. -/
theorem tickers_apart_iff (ht : IsTicker t) (ht' : IsTicker t') :
    (OrdersApart t t' ↔ DifferWithin 41 t t') ∧ (EventsApart t t' ↔ DifferWithin 39 t t') :=
  ⟨ordersApart_iff ht ht', eventsApart_iff ht ht'⟩

/-- Two markets of a family whose names are 42 bytes long. -/
def familyMarket (b : UInt8) : List UInt8 := List.replicate 41 'K'.toUInt8 ++ [b]

/-- Names that are one byte shorter are kept apart in an order but not in an event. -/
theorem tickers_apart_family :
    OrdersApart ((familyMarket 'A'.toUInt8).drop 1) ((familyMarket 'B'.toUInt8).drop 1) ∧
    ¬ EventsApart ((familyMarket 'A'.toUInt8).drop 1) ((familyMarket 'B'.toUInt8).drop 1) := by
  have hA : IsTicker ((familyMarket 'A'.toUInt8).drop 1) := by decide +kernel
  have hB : IsTicker ((familyMarket 'B'.toUInt8).drop 1) := by decide +kernel
  obtain ⟨horders, hevents⟩ := tickers_apart_iff hA hB
  exact ⟨horders.2 (by decide), fun h => absurd (hevents.1 h) (by decide)⟩

theorem tickers_conflated : ¬ ∀ t t' : List UInt8, IsTicker t → IsTicker t' → t ≠ t' →
    OrdersApart t t' ∧ EventsApart t t' := by
  intro h
  have hA : IsTicker (familyMarket 'A'.toUInt8) := by decide +kernel
  have hB : IsTicker (familyMarket 'B'.toUInt8) := by decide +kernel
  have happart := (h _ _ hA hB (by decide)).1
  rw [ordersApart_iff hA hB] at happart
  exact absurd happart (by decide)

end HftBot.Wire
