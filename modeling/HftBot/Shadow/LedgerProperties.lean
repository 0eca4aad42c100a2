import HftBot.Shadow.Ledger
import Mathlib.Algebra.BigOperators.Group.List.Basic
import Mathlib.Tactic.Ring

/-!
# Properties of the ledger

A book against the fills of its market, and what the operations of the ledger do to the books and
the contract totals.
-/

namespace HftBot

open HftBot.Core Function

/-! ### One book -/

/-- The fills of market `m`. -/
def fillsOf (m : Nat) (fills : List Fill) : List Fill := fills.filter (·.market = m)

/-- The settlement value of a contract in cents. -/
def settleCents (yesWins : Bool) : Int := if yesWins then 100 else 0

/-- What a fill earns at settlement value `s`. -/
def Fill.pnlCents (s : Int) (f : Fill) : Int :=
  (if f.buyYes then s - f.priceCents else f.priceCents - s) * f.qty

/-- A book against the fills of its market. A known fee is known for every fill. -/
structure MarketBook.Exact (fees : FeeSchedule) (fills : List Fill) (b : MarketBook) : Prop where
  bought      : b.bought = ((fills.filter (·.buyYes)).map (·.qty)).sum
  boughtCents : b.boughtCents = ((fills.filter (·.buyYes)).map fun f => f.qty * f.priceCents).sum
  sold        : b.sold = ((fills.filter (!·.buyYes)).map (·.qty)).sum
  soldCents   : b.soldCents = ((fills.filter (!·.buyYes)).map fun f => f.qty * f.priceCents).sum
  feeKnown    : b.feeKnown = fees.known b.ticker
  feeSome     : b.feeKnown → ∀ count price, (fees.makerFeeCents b.ticker count price).isSome
  feeCents    : b.feeCents = if b.feeKnown then
    (fills.filterMap fun f => fees.makerFeeCents b.ticker f.qty f.priceCents).sum else 0

lemma FeeSchedule.isSome_of_known {fees : FeeSchedule} {ticker : List Char}
    (h : fees.known ticker) (count price : Int) :
    (fees.makerFeeCents ticker count price).isSome := by
  simp only [known, makerFeeCents] at h ⊢
  cases hm : fees.matchEntry ticker with
  | none => simp [hm] at h
  | some entry =>
    have hrate : ¬ entry.makerRateE4 < 0 := by simpa [hm] using h
    simp [hrate]

namespace Ledger

variable (fees : FeeSchedule) (f : Fill) (b : MarketBook)

@[simp] lemma bookFill_ticker : (bookFill fees f b).ticker = b.ticker := by
  simp only [bookFill]
  split_ifs <;> rfl

@[simp] lemma bookFill_family : (bookFill fees f b).family = b.family := by
  simp only [bookFill]
  split_ifs <;> rfl

@[simp] lemma bookFill_settled : (bookFill fees f b).settled = b.settled := by
  simp only [bookFill]
  split_ifs <;> rfl

@[simp] lemma bookFill_settledYes : (bookFill fees f b).settledYes = b.settledYes := by
  simp only [bookFill]
  split_ifs <;> rfl

@[simp] lemma bookFill_feeKnown : (bookFill fees f b).feeKnown = b.feeKnown := by
  simp only [bookFill]
  split_ifs <;> rfl

@[simp] lemma bookFill_bought :
    (bookFill fees f b).bought = b.bought + if f.buyYes then f.qty else 0 := by
  simp only [bookFill]
  split_ifs <;> simp

@[simp] lemma bookFill_boughtCents :
    (bookFill fees f b).boughtCents =
      b.boughtCents + if f.buyYes then f.qty * f.priceCents else 0 := by
  simp only [bookFill]
  split_ifs <;> simp

@[simp] lemma bookFill_sold :
    (bookFill fees f b).sold = b.sold + if f.buyYes then 0 else f.qty := by
  simp only [bookFill]
  split_ifs <;> simp

@[simp] lemma bookFill_soldCents :
    (bookFill fees f b).soldCents =
      b.soldCents + if f.buyYes then 0 else f.qty * f.priceCents := by
  simp only [bookFill]
  split_ifs <;> simp

lemma bookFill_feeCents :
    (bookFill fees f b).feeCents = b.feeCents +
      if b.feeKnown then (fees.makerFeeCents b.ticker f.qty f.priceCents).getD 0 else 0 := by
  simp only [bookFill]
  split_ifs <;> simp_all

end Ledger

namespace MarketBook.Exact

variable {fees : FeeSchedule} {fills : List Fill} {b : MarketBook}

/-- A market that was just registered. -/
lemma new (fees : FeeSchedule) (ticker family : List Char) :
    ({ ticker, family, feeKnown := fees.known ticker } : MarketBook).Exact fees [] :=
  ⟨rfl, rfl, rfl, rfl, rfl, FeeSchedule.isSome_of_known, by simp⟩

/-- Fields that have nothing to do with fills play no part. -/
lemma of_eq (h : b.Exact fees fills) {b' : MarketBook} (hticker : b'.ticker = b.ticker)
    (hbought : b'.bought = b.bought) (hboughtCents : b'.boughtCents = b.boughtCents)
    (hsold : b'.sold = b.sold) (hsoldCents : b'.soldCents = b.soldCents)
    (hknown : b'.feeKnown = b.feeKnown) (hfee : b'.feeCents = b.feeCents) :
    b'.Exact fees fills := by
  obtain ⟨h1, h2, h3, h4, h5, h6, h7⟩ := h
  refine ⟨?_, ?_, ?_, ?_, ?_, ?_, ?_⟩
  · rw [hbought, h1]
  · rw [hboughtCents, h2]
  · rw [hsold, h3]
  · rw [hsoldCents, h4]
  · rw [hknown, hticker, h5]
  · rwa [hknown, hticker]
  · rw [hfee, hknown, hticker, h7]

/-- Booking a fill of the market. -/
lemma fill (h : b.Exact fees fills) (f : Fill) :
    (Ledger.bookFill fees f b).Exact fees (fills ++ [f]) where
  bought := by cases hbuy : f.buyYes <;> simp [hbuy, h.bought]
  boughtCents := by cases hbuy : f.buyYes <;> simp [hbuy, h.boughtCents]
  sold := by cases hbuy : f.buyYes <;> simp [hbuy, h.sold]
  soldCents := by cases hbuy : f.buyYes <;> simp [hbuy, h.soldCents]
  feeKnown := by simpa using h.feeKnown
  feeSome := by simpa using h.feeSome
  feeCents := by
    rw [Ledger.bookFill_feeCents, Ledger.bookFill_feeKnown, Ledger.bookFill_ticker, h.feeCents]
    split_ifs with hknown
    · obtain ⟨cents, hcents⟩ := Option.isSome_iff_exists.1 (h.feeSome hknown f.qty f.priceCents)
      simp [List.filterMap_append, hcents]
    · simp

/-- The profit at settlement is that of the single fills. -/
lemma gross (h : b.Exact fees fills) :
    Ledger.grossPnlCents b = (fills.map (Fill.pnlCents (settleCents b.settledYes))).sum := by
  have main : ∀ (s : Int) (fills : List Fill),
      (((fills.filter (·.buyYes)).map (·.qty)).sum * s -
          ((fills.filter (·.buyYes)).map fun f => f.qty * f.priceCents).sum) +
        (((fills.filter (!·.buyYes)).map fun f => f.qty * f.priceCents).sum -
          ((fills.filter (!·.buyYes)).map (·.qty)).sum * s) =
        (fills.map (Fill.pnlCents s)).sum := by
    intro s fills
    induction fills with
    | nil => simp
    | cons f fills ih =>
      rw [List.map_cons, List.sum_cons, ← ih]
      cases hbuy : f.buyYes <;> simp [hbuy, Fill.pnlCents] <;> ring
  rw [← main, ← h.bought, ← h.boughtCents, ← h.sold, ← h.soldCents]
  rfl

end MarketBook.Exact

/-! ### The ledger -/

namespace Ledger

variable {l : Ledger} {fills : List Fill}

/-- Every book is exact for the fills so far. -/
def BooksExact (l : Ledger) (fills : List Fill) : Prop :=
  ∀ (m : Nat) (b : MarketBook), l.books[m]? = some b → b.Exact l.fees (fillsOf m fills)

lemma exists_of_modify {books : List MarketBook} {g : MarketBook → MarketBook} {mkt m : Nat}
    {b' : MarketBook} (h : (books.modify mkt g)[m]? = some b') :
    ∃ b, books[m]? = some b ∧ b' = if mkt = m then g b else b := by
  rw [List.getElem?_modify, Option.map_eq_map, Option.map_eq_some_iff] at h
  obtain ⟨b, hb, rfl⟩ := h
  exact ⟨b, hb, rfl⟩

/-- A change of books that touches no amounts. -/
lemma BooksExact.modify (h : l.BooksExact fills) (mkt : Nat) {g : MarketBook → MarketBook}
    (hg : ∀ b fills', b.Exact l.fees fills' → (g b).Exact l.fees fills') :
    ({ l with books := l.books.modify mkt g } : Ledger).BooksExact fills := by
  intro m b' hb'
  obtain ⟨b, hb, rfl⟩ := exists_of_modify hb'
  split_ifs
  · exact hg b _ (h m b hb)
  · exact h m b hb

lemma BooksExact.onFill (h : l.BooksExact fills) (f : Fill) :
    (l.onFill f).BooksExact (fills ++ [f]) := by
  intro m b' hb'
  obtain ⟨b, hb, rfl⟩ := exists_of_modify hb'
  by_cases hm : f.market = m
  · have hfills : fillsOf m (fills ++ [f]) = fillsOf m fills ++ [f] := by simp [fillsOf, hm]
    rw [hfills, if_pos hm]
    exact (h m b hb).fill f
  · have hfills : fillsOf m (fills ++ [f]) = fillsOf m fills := by simp [fillsOf, hm]
    rw [hfills, if_neg hm]
    exact h m b hb

/-- The loop over the fills of a print. -/
lemma BooksExact.onFills (h : l.BooksExact fills) (more : List Fill) :
    (more.foldl Ledger.onFill l).BooksExact (fills ++ more) := by
  induction more generalizing l fills with
  | nil => simpa using h
  | cons f more ih => simpa using ih (h.onFill f)

/-- A market without fills gets an empty book. -/
lemma BooksExact.marketIndex (h : l.BooksExact fills)
    (hfills : ∀ f ∈ fills, f.market < l.books.length) (ticker family : List Char) :
    (l.marketIndex ticker family).1.BooksExact fills := by
  rw [Ledger.marketIndex]
  split
  · exact h
  · intro m b hb
    rcases lt_trichotomy m l.books.length with hlt | rfl | hgt
    · rw [List.getElem?_append_left hlt] at hb
      exact h m b hb
    · have hnone : fillsOf l.books.length fills = [] := by
        rw [fillsOf, List.filter_eq_nil_iff]
        intro f hf hm
        exact absurd (hfills f hf) (by simpa using Nat.le_of_eq (of_decide_eq_true hm).symm)
      rw [List.getElem?_concat_length, Option.some.injEq] at hb
      rw [hnone, ← hb]
      exact .new l.fees ticker family
    · rw [List.getElem?_eq_none (by simp; omega)] at hb
      cases hb

@[simp] lemma foldl_onFill_fees (more : List Fill) (l : Ledger) :
    (more.foldl onFill l).fees = l.fees := by
  induction more generalizing l with
  | nil => rfl
  | cons f more ih => exact ih (l.onFill f)

@[simp] lemma foldl_onFill_length (more : List Fill) (l : Ledger) :
    (more.foldl onFill l).books.length = l.books.length := by
  induction more generalizing l with
  | nil => rfl
  | cons f more ih => rw [List.foldl_cons, ih, onFill, List.length_modify]

@[simp] lemma foldl_onFill_quoted (more : List Fill) (l : Ledger) :
    (more.foldl onFill l).quotedContracts = l.quotedContracts := by
  induction more generalizing l with
  | nil => rfl
  | cons f more ih => exact ih (l.onFill f)

lemma foldl_onFill_filled (more : List Fill) (l : Ledger) :
    (more.foldl onFill l).filledContracts = l.filledContracts + (more.map (·.qty)).sum := by
  induction more generalizing l with
  | nil => simp
  | cons f more ih =>
    rw [List.foldl_cons, ih, List.map_cons, List.sum_cons, ← Int.add_assoc]
    rfl

/-- Fills leave the settlement of every market alone. -/
lemma foldl_onFill_settled {m : Nat} {b : MarketBook} {more : List Fill} {l : Ledger}
    (h : (more.foldl onFill l).books[m]? = some b) :
    ∃ b₀, l.books[m]? = some b₀ ∧ b.settled = b₀.settled ∧ b.settledYes = b₀.settledYes := by
  induction more generalizing l with
  | nil => exact ⟨b, h, rfl, rfl⟩
  | cons f more ih =>
    obtain ⟨b₁, hb₁, hsettled, hyes⟩ := ih h
    obtain ⟨b₀, hb₀, rfl⟩ := exists_of_modify hb₁
    refine ⟨b₀, hb₀, ?_, ?_⟩
    · rw [hsettled]
      split_ifs <;> simp
    · rw [hyes]
      split_ifs <;> simp

/-- Markouts touch neither the books nor the contract totals. -/
lemma evalMarkouts_spec (tsNs : Nat) (ms : List Markout) (l : Ledger) :
    (evalMarkouts tsNs ms l).books = l.books ∧ (evalMarkouts tsNs ms l).fees = l.fees ∧
      (evalMarkouts tsNs ms l).filledContracts = l.filledContracts ∧
      (evalMarkouts tsNs ms l).quotedContracts = l.quotedContracts := by
  have hone : ∀ (l : Ledger) (m : Markout), (l.markOut m).books = l.books ∧
      (l.markOut m).fees = l.fees ∧ (l.markOut m).filledContracts = l.filledContracts ∧
      (l.markOut m).quotedContracts = l.quotedContracts := by
    intro l m
    rw [markOut]
    split
    · exact ⟨rfl, rfl, rfl, rfl⟩
    · split_ifs <;> exact ⟨rfl, rfl, rfl, rfl⟩
  induction ms generalizing l with
  | nil => exact ⟨rfl, rfl, rfl, rfl⟩
  | cons m ms ih =>
    rw [evalMarkouts]
    split_ifs
    · obtain ⟨h1, h2, h3, h4⟩ := ih (l.markOut m)
      obtain ⟨g1, g2, g3, g4⟩ := hone l m
      exact ⟨h1.trans g1, h2.trans g2, h3.trans g3, h4.trans g4⟩
    · exact ⟨rfl, rfl, rfl, rfl⟩

/-- The net profit of a report is that of the settled markets with a known fee. -/
lemma foldl_reportBook_net (bs : List MarketBook) (r : FamilyReport) :
    (bs.foldl reportBook r).netPnlCents = r.netPnlCents +
      ((bs.filter fun b => b.settled && b.feeKnown).map
        fun b => grossPnlCents b - b.feeCents).sum := by
  induction bs generalizing r with
  | nil => simp
  | cons b bs ih =>
    rw [List.foldl_cons, ih]
    cases hsettled : b.settled with
    | false => simp [reportBook, hsettled]
    | true =>
      cases hknown : b.feeKnown with
      | false =>
        by_cases hpos : 0 < b.bought + b.sold <;> simp [reportBook, hsettled, hknown, hpos]
      | true =>
        simp [reportBook, hsettled, hknown]
        ring

end Ledger

end HftBot
