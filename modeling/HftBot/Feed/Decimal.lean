import HftBot.Core.Decimal
import HftBot.Feed.FixedPoint

/-!
# Values of fixed-point numbers

What the parsers of `fixedpoint.hpp` accept denotes the number they return, to scale.
-/

namespace HftBot.FixedPoint

open HftBot.Core

/-- Digits with at most one point, cut at the point. -/
inductive Numeral : List Char → List Char → List Char → Prop
  | point {ds fs : List Char} (hds : ds.all Char.isDigit) (hfs : fs.all Char.isDigit) :
    Numeral (ds ++ '.' :: fs) ds fs
  | digits {ds : List Char} (hds : ds.all Char.isDigit) : Numeral ds ds []

/-- The largest integer part that is accepted. -/
def kMaxInt : Nat := 1000000000000

lemma appendDigits_cons (n : Nat) (c : Char) (s : List Char) :
    appendDigits n (c :: s) = appendDigits (10 * n + digit c) s := by
  simp only [appendDigits, List.foldl_cons, digit]

@[simp] lemma appendDigits_nil (n : Nat) : appendDigits n [] = n := rfl

lemma le_appendDigits (n : Nat) (s : List Char) : n ≤ appendDigits n s := by
  rw [appendDigits_eq]
  exact (Nat.le_mul_of_pos_right n (Nat.pow_pos (by decide))).trans (Nat.le_add_right _ _)

lemma intDigits_eq_some {n m : Nat} {s rest : List Char} (h : intDigits n s = some (m, rest))
    (hn : n ≤ kMaxInt) :
    ∃ ds, s = ds ++ rest ∧ ds.all Char.isDigit ∧ m = appendDigits n ds ∧ m ≤ kMaxInt := by
  induction s generalizing n with
  | nil =>
    obtain ⟨rfl, rfl⟩ := Prod.mk.inj (Option.some.inj h)
    exact ⟨[], rfl, rfl, rfl, hn⟩
  | cons c cs ih =>
    simp only [intDigits] at h
    split_ifs at h with hdigit hlarge
    · obtain ⟨ds, rfl, hds, hm, hle⟩ := ih h (Nat.le_of_not_lt hlarge)
      refine ⟨c :: ds, rfl, ?_, hm, hle⟩
      rw [List.all_cons, hdigit, hds]
      rfl
    · obtain ⟨rfl, rfl⟩ := Prod.mk.inj (Option.some.inj h)
      exact ⟨[], rfl, rfl, rfl, hn⟩

lemma intDigits_append {n : Nat} {ds rest : List Char} (hds : ds.all Char.isDigit)
    (hle : appendDigits n ds ≤ kMaxInt) (hrest : ∀ c ∈ rest.head?, ¬ c.isDigit) :
    intDigits n (ds ++ rest) = some (appendDigits n ds, rest) := by
  induction ds generalizing n with
  | nil =>
    cases rest with
    | nil => rfl
    | cons c cs => exact if_neg (hrest c rfl)
  | cons c ds ih =>
    rw [List.all_cons, Bool.and_eq_true] at hds
    rw [appendDigits_cons] at hle ⊢
    have hsmall : ¬ 10 * n + digit c > 1000000000000 :=
      Nat.not_lt_of_le ((le_appendDigits _ ds).trans hle)
    rw [List.cons_append, intDigits, if_pos hds.1]
    dsimp only
    rw [if_neg hsmall]
    exact ih hds.2 hle

lemma fracDigits_eq_some {maxFrac k n k' m : Nat} {s rest : List Char}
    (h : fracDigits maxFrac k n s = some (k', m, rest)) (hk : k ≤ maxFrac) :
    ∃ ds, s = ds ++ rest ∧ ds.all Char.isDigit ∧ m = appendDigits n ds ∧ k' = k + ds.length ∧
      k' ≤ maxFrac := by
  induction s generalizing k n with
  | nil =>
    simp only [fracDigits, Option.some.injEq, Prod.mk.injEq] at h
    obtain ⟨rfl, rfl, rfl⟩ := h
    exact ⟨[], rfl, rfl, rfl, rfl, hk⟩
  | cons c cs ih =>
    rw [fracDigits] at h
    split_ifs at h with hdigit hfull
    · obtain ⟨ds, rfl, hds, hm, hk', hle⟩ := ih h (by omega)
      refine ⟨c :: ds, rfl, ?_, hm, ?_, hle⟩
      · rw [List.all_cons, hdigit, hds]
        rfl
      · rw [hk', List.length_cons]
        omega
    · simp only [Option.some.injEq, Prod.mk.injEq] at h
      obtain ⟨rfl, rfl, rfl⟩ := h
      exact ⟨[], rfl, rfl, rfl, rfl, hk⟩

lemma fracDigits_digits {maxFrac k n : Nat} {fs : List Char} (hfs : fs.all Char.isDigit)
    (hle : k + fs.length ≤ maxFrac) :
    fracDigits maxFrac k n fs = some (k + fs.length, appendDigits n fs, []) := by
  induction fs generalizing k n with
  | nil => rfl
  | cons c fs ih =>
    rw [List.all_cons, Bool.and_eq_true] at hfs
    rw [List.length_cons] at hle
    rw [fracDigits, if_pos hfs.1, if_neg (by omega), ih hfs.2 (by omega), appendDigits_cons,
      List.length_cons]
    congr 2
    omega

/-- The strings that are accepted, with their values. -/
lemma parseScaledUnsigned_eq_some_iff {s : List Char} {maxFrac : Nat} {v : Int} :
    parseScaledUnsigned s maxFrac = some v ↔
      s.length ≤ 24 ∧ ∃ ds fs, Numeral s ds fs ∧ ds ++ fs ≠ [] ∧ fs.length ≤ maxFrac ∧
        appendDigits 0 ds ≤ kMaxInt ∧
        v = (appendDigits 0 ds * 10 ^ maxFrac +
          appendDigits 0 fs * 10 ^ (maxFrac - fs.length) : Nat) := by
  constructor
  · intro h
    rw [parseScaledUnsigned] at h
    split_ifs at h with hlength
    simp only [Bool.or_eq_true, List.isEmpty_iff, decide_eq_true_eq, not_or] at hlength
    simp only [Option.bind_eq_bind, Option.bind_eq_some_iff, Prod.exists] at h
    obtain ⟨int, rest, hint, h⟩ := h
    obtain ⟨ds, rfl, hds, rfl, hle⟩ := intDigits_eq_some hint (Nat.zero_le _)
    refine ⟨Nat.le_of_not_lt hlength.2, ds, ?_⟩
    split at h
    · next cs =>
      simp only [Option.bind_eq_some_iff, Prod.exists, Option.ite_none_left_eq_some,
        Option.some.injEq] at h
      obtain ⟨k, frac, rest', hfrac, haccepted, rfl⟩ := h
      obtain ⟨fs, rfl, hfs, rfl, rfl, hle'⟩ := fracDigits_eq_some hfrac (Nat.zero_le _)
      obtain ⟨rfl, hany⟩ : rest' = [] ∧ (ds = [] → fs ≠ []) := by simpa using haccepted
      rw [List.append_nil, Nat.zero_add] at *
      refine ⟨fs, .point hds hfs, ?_, hle', hle, rfl⟩
      intro hnil
      obtain ⟨hds, hfs⟩ := List.append_eq_nil_iff.1 hnil
      exact hany hds hfs
    · next hpoint =>
      simp only [Option.bind_some, Option.ite_none_left_eq_some, Option.some.injEq] at h
      obtain ⟨haccepted, rfl⟩ := h
      obtain ⟨rfl, hany⟩ : rest = [] ∧ ds ≠ [] := by simpa using haccepted
      rw [List.append_nil] at *
      exact ⟨[], .digits hds, by rwa [List.append_nil], Nat.zero_le _, hle, rfl⟩
  · rintro ⟨hlength, ds, fs, hs, hne, hprecision, hmagnitude, rfl⟩
    have hbound : ¬ (s.isEmpty || decide (s.length > 24)) := by
      have hnil : s ≠ [] := by
        cases hs with
        | point => simp
        | digits => rwa [List.append_nil] at hne
      simpa [hnil] using hlength
    rw [parseScaledUnsigned, if_neg hbound]
    cases hs with
    | point hds hfs =>
      have hint : intDigits 0 (ds ++ '.' :: fs) = _ := intDigits_append hds hmagnitude (by simp)
      have hfrac := fracDigits_digits (k := 0) (n := 0) hfs ((Nat.zero_add _).le.trans hprecision)
      simp only [hint, hfrac, Option.bind_eq_bind, Option.bind_some]
      rw [if_neg]
      · simp
      · intro hnil
        have hempty : ds = [] ∧ fs = [] := by simpa using hnil
        exact hne (List.append_eq_nil_iff.2 hempty)
    | digits hds =>
      have hint : intDigits 0 (s ++ []) = _ := intDigits_append hds hmagnitude (by simp)
      rw [List.append_nil] at hint hne
      simp only [hint, Option.bind_eq_bind, Option.bind_some]
      rw [if_neg]
      · simp
      · simp [List.length_pos_iff, hne]

/-- What is accepted is a numeral, and the result is its number times the scale. -/
lemma unsignedValue_of_parseScaledUnsigned {s : List Char} {maxFrac : Nat} {v : Int}
    (h : parseScaledUnsigned s maxFrac = some v) :
    0 ≤ v ∧ unsignedValue s = some ((v : ℚ) / 10 ^ maxFrac) := by
  obtain ⟨-, ds, fs, hs, hne, hle, -, rfl⟩ := parseScaledUnsigned_eq_some_iff.1 h
  refine ⟨Int.natCast_nonneg _, ?_⟩
  cases hs with
  | point hds hfs =>
    rw [unsignedValue_point hds hfs hne, appendDigits_append, appendDigits_eq _ fs]
    obtain ⟨j, rfl⟩ := Nat.exists_eq_add_of_le hle
    rw [Nat.add_sub_cancel_left, pow_add, pow_add]
    push_cast
    field_simp
  | digits hds =>
    rw [List.append_nil] at hne
    rw [unsignedValue_digits hds hne, appendDigits_nil, Nat.zero_mul, Nat.add_zero, Nat.cast_mul]
    push_cast
    rw [mul_div_cancel_right₀ _ (pow_ne_zero _ (by norm_num))]

lemma decimalValue_of_not_signed {s : List Char} (h : ¬ signed s) :
    decimalValue s = unsignedValue s := by
  cases s with
  | nil => rfl
  | cons c cs =>
    simp only [signed, List.head?_cons, Option.some.injEq, Bool.or_eq_true, decide_eq_true_eq,
      not_or] at h
    rw [decimalValue]
    · rintro cs' ⟨⟩
      exact h.1 rfl
    · rintro cs' ⟨⟩
      exact h.2 rfl

lemma parsePriceE4_bounds {s : List Char} {v : Int} (h : parsePriceE4 s = some v) :
    kPriceMin ≤ v ∧ v ≤ kPriceMax := by
  rw [parsePriceE4] at h
  split_ifs at h
  simpa using (Option.filter_eq_some_iff.1 h).2

lemma decimalValue_of_parseCountFp {s : List Char} {v : Int} (h : parseCountFp s = some v) :
    0 ≤ v ∧ decimalValue s = some ((v : ℚ) / 100) := by
  rw [parseCountFp] at h
  split_ifs at h with hsigned
  obtain ⟨hnonneg, hvalue⟩ := unsignedValue_of_parseScaledUnsigned h
  refine ⟨hnonneg, ?_⟩
  rw [decimalValue_of_not_signed hsigned, hvalue]
  norm_num

lemma decimalValue_of_parsePriceE4 {s : List Char} {v : Int} (h : parsePriceE4 s = some v) :
    decimalValue s = some ((v : ℚ) / 10000) := by
  rw [parsePriceE4] at h
  split_ifs at h with hsigned
  obtain ⟨-, hvalue⟩ := unsignedValue_of_parseScaledUnsigned (Option.filter_eq_some_iff.1 h).1
  rw [decimalValue_of_not_signed hsigned, hvalue]
  norm_num

lemma parseDeltaFp_minus (t : List Char) :
    parseDeltaFp ('-' :: t) = (parseScaledUnsigned t 2).map (- ·) := rfl

lemma parseDeltaFp_plus (t : List Char) : parseDeltaFp ('+' :: t) = parseScaledUnsigned t 2 :=
  Option.map_id'

lemma parseDeltaFp_of_not_signed {s : List Char} (h : ¬ signed s) :
    parseDeltaFp s = parseScaledUnsigned s 2 := if_neg h

lemma decimalValue_of_parseDeltaFp {s : List Char} {v : Int} (h : parseDeltaFp s = some v) :
    decimalValue s = some ((v : ℚ) / 100) := by
  by_cases hsigned : signed s
  · cases s with
    | nil => exact absurd hsigned (by decide)
    | cons c t =>
      have hsign : c = '-' ∨ c = '+' := by simpa [signed] using hsigned
      rcases hsign with rfl | rfl
      · rw [parseDeltaFp_minus] at h
        obtain ⟨w, hw, rfl⟩ := Option.map_eq_some_iff.1 h
        obtain ⟨-, hvalue⟩ := unsignedValue_of_parseScaledUnsigned hw
        rw [decimalValue, hvalue, Option.map_some]
        norm_num [neg_div]
      · rw [parseDeltaFp_plus] at h
        obtain ⟨-, hvalue⟩ := unsignedValue_of_parseScaledUnsigned h
        rw [decimalValue, hvalue]
        norm_num
  · rw [parseDeltaFp_of_not_signed hsigned] at h
    obtain ⟨-, hvalue⟩ := unsignedValue_of_parseScaledUnsigned h
    rw [decimalValue_of_not_signed hsigned, hvalue]
    norm_num

end HftBot.FixedPoint
