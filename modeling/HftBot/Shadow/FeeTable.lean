import HftBot.Core.Decimal
import HftBot.Core.LastBest
import HftBot.Core.Machine
import HftBot.Shadow.Ledger

/-!
# Fee tables

`FeeSchedule::load_csv`: a table has a row for each prefix of tickers, and a row that does not load
is skipped. A number is read as far as it goes, so that a row may load with a part of what it says,
and the row of a shorter prefix takes the place of one that is skipped.
-/

namespace HftBot

open HftBot.Core

/-! ### Numbers -/

/-- `std::isspace` -/
def isSpace (c : Char) : Bool := c ∈ [' ', '\t', '\n', '\x0b', '\x0c', '\r']

/-- Whether there is a minus, and what follows the sign. -/
def splitSign : List Char → Bool × List Char
  | '-' :: s => (true, s)
  | '+' :: s => (false, s)
  | s        => (false, s)

def applySign (negative : Bool) (n : Nat) : Int := if negative then -n else n

/-- The number that the whole text is the decimal of. -/
def integerValue (s : List Char) : Option Int :=
  (digitsValue (splitSign s).2).map (applySign (splitSign s).1)

/-- `std::stoll`: the number at the beginning of the text, behind white space. -/
def stoll (s : List Char) : Option Int :=
  let (negative, t) := splitSign (s.dropWhile isSpace)
  (digitsValue (t.takeWhile Char.isDigit)).bind fun n => checked (applySign negative n)

/-! ### Rows -/

/-- The fields that `std::getline` finds in a line: behind the last comma there is one if there is
text. -/
def csvFields (line : List Char) : List (List Char) :=
  let fields := line.splitOn ','
  if fields.getLast? = some [] then fields.dropLast else fields

/-- The rows of a table, without comments and empty lines. -/
def csvRows (text : List Char) : List (List (List Char)) :=
  ((text.splitOn '\n').filter fun line => line ≠ [] ∧ line.head? ≠ some '#').map csvFields

/-- What a row loads as. -/
def rowEntry : List (List Char) → Option FeeEntry
  | seriesPrefix :: maker :: taker :: _ => do
    let makerRateE4 ← stoll maker
    let takerRateE4 ← stoll taker
    return { seriesPrefix, makerRateE4, takerRateE4 }
  | _                                   => none

def FeeSchedule.loadCsv (text : List Char) : FeeSchedule := ⟨(csvRows text).filterMap rowEntry⟩

/-! ### Numbers that are read in full -/

lemma digitsValue_eq_some {s : List Char} {n : Nat} (h : digitsValue s = some n) :
    s ≠ [] ∧ s.all Char.isDigit := by
  rw [digitsValue] at h
  split_ifs at h with hs
  exact hs

lemma isSpace_of_isDigit {c : Char} (hc : c.isDigit = true) : isSpace c = false := by
  apply decide_eq_false
  intro hmem
  have hall : ([' ', '\t', '\n', '\x0b', '\x0c', '\r'].all fun c => !c.isDigit) = true := by
    decide
  have hnot := List.all_eq_true.1 hall c hmem
  rw [hc] at hnot
  cases hnot

/-- There is no white space before a number. -/
lemma dropWhile_isSpace {s : List Char} {n : Nat} (h : digitsValue (splitSign s).2 = some n) :
    s.dropWhile isSpace = s := by
  cases s with
  | nil => rfl
  | cons c s =>
    have hc : isSpace c = false := by
      by_cases hsign : c = '-' ∨ c = '+'
      · rcases hsign with rfl | rfl <;> decide
      · rw [not_or] at hsign
        have hsplit : splitSign (c :: s) = (false, c :: s) := by
          rw [splitSign]
          · exact fun t ht => hsign.1 (List.cons.inj ht).1
          · exact fun t ht => hsign.2 (List.cons.inj ht).1
        rw [hsplit] at h
        exact isSpace_of_isDigit (List.all_eq_true.1 (digitsValue_eq_some h).2 c List.mem_cons_self)
    rw [List.dropWhile_cons_of_neg (by rw [hc]; decide)]

/-- A number that is the whole text is read, if it has 64 bits. -/
lemma stoll_of_integerValue {s : List Char} {n : Int} (h : integerValue s = some n) :
    stoll s = checked n := by
  obtain ⟨k, hk, rfl⟩ := Option.map_eq_some_iff.1 h
  have hdigits := (digitsValue_eq_some hk).2
  have htake := List.takeWhile_eq_self_iff.2 (List.all_eq_true.1 hdigits)
  simp only [stoll, dropWhile_isSpace hk, htake, hk, Option.bind_some]

/-! ### The row that decides -/

def rowPrefix (row : List (List Char)) : List Char := row.headD []

/-- Among the rows whose prefix begins the ticker, the last one of the longest prefix. -/
def Decides (text ticker : List Char) (row : List (List Char)) : Prop :=
  LastBest (fun row => rowPrefix row <+: ticker) (fun row => (rowPrefix row).length)
    (csvRows text) row

/-- The same, among the rows that load. -/
def DecidesLoaded (text ticker : List Char) (row : List (List Char)) : Prop :=
  LastBest (fun row => rowPrefix row <+: ticker ∧ (rowEntry row).isSome)
    (fun row => (rowPrefix row).length) (csvRows text) row

/-- The rates of a row are decimal integers in full, and the maker rate is that number. -/
def InFull (row : List (List Char)) (rate : Int) : Prop :=
  ∃ seriesPrefix maker taker rest, row = seriesPrefix :: maker :: taker :: rest ∧
    integerValue maker = some rate ∧ (integerValue taker).isSome

lemma rowEntry_eq_some {row : List (List Char)} {e : FeeEntry} (h : rowEntry row = some e) :
    ∃ maker taker rest, row = e.seriesPrefix :: maker :: taker :: rest ∧
      stoll maker = some e.makerRateE4 ∧ stoll taker = some e.takerRateE4 := by
  match row with
  | seriesPrefix :: maker :: taker :: rest =>
    simp only [rowEntry, Option.bind_eq_bind, Option.bind_eq_some_iff, Option.pure_def,
      Option.some.injEq] at h
    obtain ⟨m, hm, k, hk, rfl⟩ := h
    exact ⟨maker, taker, rest, rfl, hm, hk⟩
  | [] => cases h
  | [_] => cases h
  | [_, _] => cases h

lemma inFull_rate {row : List (List Char)} {e : FeeEntry} (he : rowEntry row = some e) {rate : Int}
    (h : InFull row rate) : rate = e.makerRateE4 := by
  obtain ⟨maker, taker, rest, rfl, hmaker, -⟩ := rowEntry_eq_some he
  obtain ⟨seriesPrefix', maker', taker', rest', heq, hrate, -⟩ := h
  obtain ⟨-, rfl, -⟩ := List.cons.inj heq |>.imp_right List.cons.inj
  rw [stoll_of_integerValue hrate, checked] at hmaker
  split_ifs at hmaker
  exact Option.some.inj hmaker

namespace FeeSchedule

lemma matchEntry_loadCsv_iff {text ticker : List Char} {e : FeeEntry} :
    (loadCsv text).matchEntry ticker = some e ↔
      ∃ row, rowEntry row = some e ∧ DecidesLoaded text ticker row := by
  have hmatch : (loadCsv text).matchEntry ticker =
      lastBest (fun e => ticker.take e.seriesPrefix.length = e.seriesPrefix)
        (fun e => e.seriesPrefix.length) ((csvRows text).filterMap rowEntry) := rfl
  rw [hmatch, lastBest_eq_some_iff]
  apply lastBest_filterMap_iff
  intro row e he
  obtain ⟨maker, taker, rest, rfl, -⟩ := rowEntry_eq_some he
  exact ⟨by rw [List.prefix_iff_eq_take, eq_comm]; rfl, rfl⟩

lemma known_iff {fees : FeeSchedule} {ticker : List Char} :
    fees.known ticker ↔ ∃ e, fees.matchEntry ticker = some e ∧ 0 ≤ e.makerRateE4 := by
  rw [known]
  cases fees.matchEntry ticker with
  | none => simp
  | some e => simp

/-- A ticker is known by the row that decides and at no other rate than that row has in full. -/
def FailsClosed (text ticker : List Char) : Prop :=
  (loadCsv text).known ticker → ∃ row rate, Decides text ticker row ∧ InFull row rate ∧ 0 ≤ rate ∧
    ∀ count priceCents,
      (loadCsv text).makerFeeCents ticker count priceCents = some (feeCents rate count priceCents)

lemma makerFeeCents_eq {fees : FeeSchedule} {ticker : List Char} {e : FeeEntry}
    (he : fees.matchEntry ticker = some e) (hrate : 0 ≤ e.makerRateE4) (count priceCents : Int) :
    fees.makerFeeCents ticker count priceCents =
      some (feeCents e.makerRateE4 count priceCents) := by
  rw [makerFeeCents, he]
  exact if_neg (Int.not_lt.2 hrate)

/-- Different rates make different fees. -/
lemma rate_eq_of_feeCents {rate rate' : Int} (hrate : 0 ≤ rate) (hrate' : 0 ≤ rate')
    (h : ∀ count priceCents, feeCents rate count priceCents = feeCents rate' count priceCents) :
    rate = rate' := by
  have hfee {r : Int} (hr : 0 ≤ r) : feeCents r 1000000 1 = 99 * r := by
    rw [feeCents, Int.tdiv_eq_ediv_of_nonneg (by omega)]
    omega
  have heq := h 1000000 1
  rw [hfee hrate, hfee hrate'] at heq
  omega

/-- Some row decides if one loads that covers the ticker. -/
lemma exists_decides {text ticker : List Char} {row : List (List Char)}
    (h : DecidesLoaded text ticker row) : ∃ row', Decides text ticker row' := by
  obtain ⟨row', -, hbest⟩ | ⟨-, hno⟩ := lastBest_cases (fun row => rowPrefix row <+: ticker)
    (fun row => (rowPrefix row).length) (csvRows text)
  · exact ⟨row', hbest⟩
  · exact absurd h.mem.2.1 (hno row h.mem.1)

/-- If the row that decides loads, it is the one that is used. -/
lemma decidesLoaded_of_decides {text ticker : List Char} {row : List (List Char)}
    (h : Decides text ticker row) (hloads : (rowEntry row).isSome) :
    DecidesLoaded text ticker row := by
  obtain ⟨before, after, hrows, hrow, hbefore, hafter⟩ := h
  exact ⟨before, after, hrows, ⟨hrow, hloads⟩, fun y hy hp => hbefore y hy hp.1,
    fun y hy hp => hafter y hy hp.1⟩

/-- A table fails closed for a ticker if the row that decides has its rates in full, loads with a
negative rate, or is skipped where no other row loads for the ticker but with a negative rate, or
with the rate that the row has in full. -/
theorem failsClosed_iff (text ticker : List Char) :
    FailsClosed text ticker ↔ ∀ row, Decides text ticker row →
      (∀ e, rowEntry row = some e → e.makerRateE4 < 0 ∨ ∃ rate, InFull row rate) ∧
      (rowEntry row = none → ∀ row' e, DecidesLoaded text ticker row' → rowEntry row' = some e →
        e.makerRateE4 < 0 ∨ InFull row e.makerRateE4) := by
  constructor
  · intro hclosed row hrow
    have hused (row' : List (List Char)) (e : FeeEntry) (hrow' : DecidesLoaded text ticker row')
        (he : rowEntry row' = some e) : e.makerRateE4 < 0 ∨ InFull row e.makerRateE4 := by
      rw [or_iff_not_imp_left, Int.not_lt]
      intro hrate
      have hmatch := matchEntry_loadCsv_iff.2 ⟨row', he, hrow'⟩
      obtain ⟨row₂, rate, hrow₂, hfull, hrate₂, hfees⟩ := hclosed (known_iff.2 ⟨e, hmatch, hrate⟩)
      obtain rfl := hrow.unique hrow₂
      have hrates : e.makerRateE4 = rate := rate_eq_of_feeCents hrate hrate₂ fun count priceCents =>
        Option.some.inj ((makerFeeCents_eq hmatch hrate count priceCents).symm.trans
          (hfees count priceCents))
      rwa [hrates]
    refine ⟨fun e he => ?_, fun _ => hused⟩
    have hloaded := decidesLoaded_of_decides hrow (by rw [he]; rfl)
    exact (hused row e hloaded he).imp_right fun hfull => ⟨e.makerRateE4, hfull⟩
  · intro hrows hknown
    obtain ⟨e, hmatch, hrate⟩ := known_iff.1 hknown
    obtain ⟨row', he, hrow'⟩ := matchEntry_loadCsv_iff.1 hmatch
    obtain ⟨row, hrow⟩ := exists_decides hrow'
    have hfull : InFull row e.makerRateE4 := by
      cases hentry : rowEntry row with
      | some e' =>
        have hloaded := decidesLoaded_of_decides hrow (by rw [hentry]; rfl)
        obtain rfl := hloaded.unique hrow'
        obtain ⟨rate, hfull⟩ := ((hrows row hrow).1 e he).resolve_left (Int.not_lt.2 hrate)
        rwa [inFull_rate he hfull] at hfull
      | none => exact ((hrows row hrow).2 hentry row' e hrow' he).resolve_left (Int.not_lt.2 hrate)
    exact ⟨row, e.makerRateE4, hrow, hfull, hrate, makerFeeCents_eq hmatch hrate⟩

/-- A rate in dollars loads as its whole part, and a damaged row leaves the one of a shorter
prefix. -/
theorem failsClosed_iff_damaged :
    ¬ FailsClosed "KX,0.0175,0.07".toList "KXABC".toList ∧
      ¬ FailsClosed "KX,0,7\nKXA,x,7".toList "KXABC".toList := by
  have hnot {seriesPrefix maker taker : List Char} {rate : Int} (h : integerValue maker = none) :
      ¬ InFull [seriesPrefix, maker, taker] rate := by
    rintro ⟨_, _, _, _, heq, hmaker, -⟩
    obtain ⟨-, rfl, -⟩ := List.cons.inj heq |>.imp_right List.cons.inj
    rw [h] at hmaker
    cases hmaker
  constructor
  · intro h
    obtain ⟨row, rate, hrow, hfull, -⟩ := h (by decide)
    have hrows : csvRows "KX,0.0175,0.07".toList =
        [["KX".toList, "0.0175".toList, "0.07".toList]] := by decide
    obtain rfl := List.mem_singleton.1 (hrows ▸ hrow.mem.1)
    exact hnot (by decide) hfull
  · intro h
    obtain ⟨row, rate, hrow, hfull, -⟩ := h (by decide)
    have hrows : csvRows "KX,0,7\nKXA,x,7".toList = [["KX".toList, "0".toList, "7".toList],
        ["KXA".toList, "x".toList, "7".toList]] := by decide
    have hlonger := hrow.le (y := ["KXA".toList, "x".toList, "7".toList]) (by rw [hrows]; decide)
      (by decide)
    rcases List.mem_cons.1 (hrows ▸ hrow.mem.1) with rfl | hmem
    · exact absurd hlonger (by decide)
    · obtain rfl := List.mem_singleton.1 hmem
      exact hnot (by decide) hfull

end FeeSchedule

end HftBot
