import HftBot.Core.Machine
import HftBot.Shadow.LedgerProperties
import Mathlib.Data.Rat.Floor
import Mathlib.Tactic.GCongr
import Mathlib.Tactic.Linarith
import Mathlib.Tactic.Positivity
import Mathlib.Tactic.Ring

/-!
# Rounding of fees

A fee is the exact amount rounded up to the cent, without overflow within the limits of its
arguments. The fees of partial fills are together at least the fee of the whole, and more by less
than a cent for each of them.
-/

namespace HftBot

open HftBot.Core

namespace FeeSchedule

/-- The fee as the 64-bit operations compute it, if none of them overflows. -/
def feeCentsChecked (rateE4 count p : Int) : Option Int := do
  let perContract ← checked (rateE4 * count)
  let priced ← checked (perContract * p)
  let other ← checked (100 - p)
  let num ← checked (priced * other)
  let rounded ← checked (num + 999999)
  checked (rounded.tdiv 1000000)

/-- The numerator of a fee within the limits. -/
lemma num_bounds {rateE4 count p : Int} (hrate : 0 ≤ rateE4 ∧ rateE4 ≤ 1000000)
    (hcount : 0 ≤ count ∧ count < 2 ^ 31) (hp : 0 ≤ p ∧ p ≤ 100) :
    0 ≤ rateE4 * count ∧ rateE4 * count ≤ 1000000 * 2 ^ 31 ∧ 0 ≤ p * (100 - p) ∧
      p * (100 - p) ≤ 2500 := by
  refine ⟨Int.mul_nonneg hrate.1 hcount.1, ?_, Int.mul_nonneg hp.1 (by omega), ?_⟩
  · exact Int.mul_le_mul hrate.2 (Int.le_of_lt hcount.2) hcount.1 (by decide)
  · nlinarith [sq_nonneg (p - 50)]

/-- The fee is the least number of cents that covers the amount. -/
lemma feeCents_bounds {rateE4 count p : Int} (hrate : 0 ≤ rateE4) (hcount : 0 ≤ count)
    (hp : 0 ≤ p ∧ p ≤ 100) :
    rateE4 * count * p * (100 - p) ≤ 1000000 * feeCents rateE4 count p ∧
      1000000 * feeCents rateE4 count p < rateE4 * count * p * (100 - p) + 1000000 := by
  have hnonneg : 0 ≤ rateE4 * count * p * (100 - p) :=
    Int.mul_nonneg (Int.mul_nonneg (Int.mul_nonneg hrate hcount) hp.1) (by omega)
  rw [feeCents, Int.tdiv_eq_ediv_of_nonneg (by omega)]
  omega

lemma feeCents_eq_ceil {rateE4 count p : Int} (hrate : 0 ≤ rateE4) (hcount : 0 ≤ count)
    (hp : 0 ≤ p ∧ p ≤ 100) :
    feeCents rateE4 count p = ⌈(rateE4 * count * p * (100 - p) : ℚ) / 1000000⌉ := by
  obtain ⟨hlow, hhigh⟩ := feeCents_bounds hrate hcount hp
  symm
  rw [Int.ceil_eq_iff, lt_div_iff₀ (by norm_num), div_le_iff₀ (by norm_num)]
  constructor
  · have : ((1000000 * feeCents rateE4 count p : Int) : ℚ) <
        ((rateE4 * count * p * (100 - p) + 1000000 : Int) : ℚ) := by exact_mod_cast hhigh
    push_cast at this
    linarith
  · have : ((rateE4 * count * p * (100 - p) : Int) : ℚ) ≤
        ((1000000 * feeCents rateE4 count p : Int) : ℚ) := by exact_mod_cast hlow
    push_cast at this
    linarith

lemma feeCentsChecked_eq {rateE4 count p : Int} (hrate : 0 ≤ rateE4 ∧ rateE4 ≤ 1000000)
    (hcount : 0 ≤ count ∧ count < 2 ^ 31) (hp : 0 ≤ p ∧ p ≤ 100) :
    feeCentsChecked rateE4 count p = some (feeCents rateE4 count p) := by
  obtain ⟨hlow, hhigh, hplow, hphigh⟩ := num_bounds hrate hcount hp
  have hpriced : 0 ≤ rateE4 * count * p ∧ rateE4 * count * p ≤ 1000000 * 2 ^ 31 * 100 :=
    ⟨Int.mul_nonneg hlow hp.1, Int.mul_le_mul hhigh hp.2 hp.1 (by decide)⟩
  have hnum : 0 ≤ rateE4 * count * p * (100 - p) ∧
      rateE4 * count * p * (100 - p) ≤ 1000000 * 2 ^ 31 * 2500 := by
    rw [Int.mul_assoc (rateE4 * count)]
    exact ⟨Int.mul_nonneg hlow hplow, Int.mul_le_mul hhigh hphigh hplow (by decide)⟩
  have hfee := feeCents_bounds hrate.1 hcount.1 hp
  have hlast : checked (feeCents rateE4 count p) = some (feeCents rateE4 count p) :=
    if_pos ⟨by omega, by omega⟩
  simp only [feeCentsChecked, Option.bind_eq_bind]
  rw [checked_bind (by omega) (by omega), checked_bind (by omega) (by omega),
    checked_bind (by omega) (by omega), checked_bind (by omega) (by omega),
    checked_bind (by omega) (by omega)]
  exact hlast

/-! ### Partial fills -/

/-- Amounts that are rounded up one by one: their sum is rounded up by less than a cent for each. -/
lemma sum_feeCents_bounds {rateE4 p : Int} (hrate : 0 ≤ rateE4) (hp : 0 ≤ p ∧ p ≤ 100)
    {counts : List Int} (hcounts : ∀ count ∈ counts, 0 ≤ count) :
    rateE4 * counts.sum * p * (100 - p) ≤
      1000000 * (counts.map fun count => feeCents rateE4 count p).sum ∧
    1000000 * (counts.map fun count => feeCents rateE4 count p).sum ≤
      rateE4 * counts.sum * p * (100 - p) + 999999 * counts.length := by
  induction counts with
  | nil => simp
  | cons count counts ih =>
    rw [List.forall_mem_cons] at hcounts
    obtain ⟨hlow, hhigh⟩ := ih hcounts.2
    obtain ⟨hlow', hhigh'⟩ := feeCents_bounds hrate hcounts.1 hp
    have hsplit : rateE4 * (count + counts.sum) * p * (100 - p) =
        rateE4 * count * p * (100 - p) + rateE4 * counts.sum * p * (100 - p) := by ring
    rw [List.sum_cons, List.map_cons, List.sum_cons, List.length_cons, hsplit]
    push_cast
    omega

/-- The fees of the parts against the fee of the whole. -/
lemma feeCents_sum_le {rateE4 p : Int} (hrate : 0 ≤ rateE4) (hp : 0 ≤ p ∧ p ≤ 100)
    {counts : List Int} (hcounts : ∀ count ∈ counts, 0 ≤ count) (hne : counts ≠ []) :
    feeCents rateE4 counts.sum p ≤ (counts.map fun count => feeCents rateE4 count p).sum ∧
    (counts.map fun count => feeCents rateE4 count p).sum ≤
      feeCents rateE4 counts.sum p + (counts.length - 1) := by
  obtain ⟨hlow, hhigh⟩ := sum_feeCents_bounds hrate hp hcounts
  obtain ⟨hlow', hhigh'⟩ := feeCents_bounds hrate (List.sum_nonneg hcounts) hp
  have hlength : 0 < counts.length := List.length_pos_iff.2 hne
  omega

end FeeSchedule

namespace Ledger

/-- The fees that fills of one market add to its book. -/
lemma foldl_onFill_feeCents {l : Ledger} {m : Nat} {b : MarketBook} {e : FeeEntry} {p : Int}
    (hb : l.books[m]? = some b) (hknown : b.feeKnown) (he : l.fees.matchEntry b.ticker = some e)
    (hrate : 0 ≤ e.makerRateE4) {fills : List Fill}
    (hfills : ∀ f ∈ fills, f.market = m ∧ f.priceCents = p) :
    ∃ b', (fills.foldl onFill l).books[m]? = some b' ∧ b'.feeCents = b.feeCents +
      ((fills.map (·.qty)).map fun count => FeeSchedule.feeCents e.makerRateE4 count p).sum := by
  induction fills generalizing l b with
  | nil => exact ⟨b, hb, by simp⟩
  | cons f fills ih =>
    rw [List.forall_mem_cons] at hfills
    obtain ⟨⟨hm, hp⟩, hfills⟩ := hfills
    have hb' : (l.onFill f).books[m]? = some (bookFill l.fees f b) := by
      simp [onFill, hb, hm]
    have hfee : (bookFill l.fees f b).feeCents =
        b.feeCents + FeeSchedule.feeCents e.makerRateE4 f.qty p := by
      rw [bookFill_feeCents, if_pos hknown, FeeSchedule.makerFeeCents, he]
      simp [Int.not_lt.2 hrate, hp]
    obtain ⟨b', hlast, hsum⟩ :=
      ih hb' (by rwa [bookFill_feeKnown]) (by rwa [bookFill_ticker]) hfills
    refine ⟨b', hlast, ?_⟩
    rw [hsum, hfee, List.map_cons, List.map_cons, List.sum_cons, Int.add_assoc]

/-- Fees are rounded up exactly and without overflow, and the fees that partial fills of one price
are charged are together at least the fee of the whole, and at most a cent more for each fill but
one. -/
theorem fee_rounding_and_splitting :
    (∀ rateE4 count p : Int, 0 ≤ rateE4 ∧ rateE4 ≤ 1000000 → 0 ≤ count ∧ count < 2 ^ 31 →
      0 ≤ p ∧ p ≤ 100 →
        FeeSchedule.feeCentsChecked rateE4 count p = some (FeeSchedule.feeCents rateE4 count p) ∧
        FeeSchedule.feeCents rateE4 count p =
          ⌈(rateE4 * count * p * (100 - p) : ℚ) / 1000000⌉) ∧
    ∀ (l : Ledger) (m : Nat) (b : MarketBook) (e : FeeEntry) (p : Int) (fills : List Fill),
      l.books[m]? = some b → b.feeKnown → l.fees.matchEntry b.ticker = some e →
      0 ≤ e.makerRateE4 ∧ e.makerRateE4 ≤ 1000000 → 0 ≤ p ∧ p ≤ 100 → fills ≠ [] →
      (∀ f ∈ fills, f.market = m ∧ f.priceCents = p ∧ 0 ≤ f.qty) →
      ∃ b', (fills.foldl onFill l).books[m]? = some b' ∧
        FeeSchedule.feeCents e.makerRateE4 (fills.map (·.qty)).sum p ≤ b'.feeCents - b.feeCents ∧
        b'.feeCents - b.feeCents ≤
          FeeSchedule.feeCents e.makerRateE4 (fills.map (·.qty)).sum p + (fills.length - 1) := by
  constructor
  · intro rateE4 count p hrate hcount hp
    exact ⟨FeeSchedule.feeCentsChecked_eq hrate hcount hp,
      FeeSchedule.feeCents_eq_ceil hrate.1 hcount.1 hp⟩
  · intro l m b e p fills hb hknown he hrate hp hne hfills
    obtain ⟨b', hb', hfee⟩ := foldl_onFill_feeCents hb hknown he hrate.1
      fun f hf => ⟨(hfills f hf).1, (hfills f hf).2.1⟩
    have hcounts : ∀ count ∈ fills.map (·.qty), 0 ≤ count := by
      intro count hcount
      obtain ⟨f, hf, rfl⟩ := List.mem_map.1 hcount
      exact (hfills f hf).2.2
    have hparts := FeeSchedule.feeCents_sum_le hrate.1 hp hcounts (by simpa using hne)
    rw [List.length_map] at hparts
    refine ⟨b', hb', ?_⟩
    rw [hfee, add_sub_cancel_left]
    exact hparts

/-- Three fills of one contract each at 50 cents are charged three cents, and the fee of the whole
is two. -/
theorem fee_rounding_and_splitting_three_fills :
    let l : Ledger := { fees := ⟨[⟨[], 175, 700⟩]⟩, horizonNs := 0
                        books := [{ ticker := [], family := [], feeKnown := true }] }
    let f : Fill := ⟨0, 0, 50, 1, true, 0⟩
    ∃ b', ([f, f, f].foldl onFill l).books[0]? = some b' ∧
      FeeSchedule.feeCents 175 3 50 ≤ b'.feeCents - 0 ∧
      b'.feeCents - 0 ≤ FeeSchedule.feeCents 175 3 50 + (3 - 1) := by
  intro l f
  exact fee_rounding_and_splitting.2 l 0 { ticker := [], family := [], feeKnown := true }
    ⟨[], 175, 700⟩ 50 [f, f, f] rfl rfl (by decide) (by decide) (by decide) (by simp) (by decide)

end Ledger

end HftBot
