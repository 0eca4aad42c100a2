import HftBot.Core.Machine
import HftBot.Feed.Decimal
import Mathlib.Tactic.IntervalCases

/-!
# The scanner of fixed-point numbers

The strings that the parsers of `fixedpoint.hpp` accept and the values they return, and the round
trip through the canonical count string. The scanner is also stated with every 64-bit operation of
the source as one that has no result where it overflows; there is always one.
-/

namespace HftBot.FixedPoint

open HftBot.Core

/-! ### Accepted strings -/

/-- The characters before the point. -/
def intPart (s : List Char) : List Char := s.takeWhile (· ≠ '.')

/-- The characters behind the point. -/
def fracPart (s : List Char) : List Char := (s.dropWhile (· ≠ '.')).tail

/-- What is accepted with at most `maxFrac` digits behind the point. -/
structure Accepted (s : List Char) (maxFrac : Nat) : Prop where
  length_pos : 1 ≤ s.length
  length_le  : s.length ≤ 24
  chars      : ∀ c ∈ s, c.isDigit ∨ c = '.'
  one_point  : s.count '.' ≤ 1
  any_digit  : ∃ c ∈ s, c.isDigit
  precision  : (fracPart s).length ≤ maxFrac
  magnitude  : appendDigits 0 (intPart s) ≤ kMaxInt

lemma Numeral.parts {s ds fs : List Char} (h : Numeral s ds fs) :
    intPart s = ds ∧ fracPart s = fs := by
  cases h with
  | point hds hfs =>
    have hpoint := fun c hc => ne_point_of_isDigit hds (c := c) hc
    rw [intPart, fracPart, List.takeWhile_append_of_pos hpoint,
      List.dropWhile_append_of_pos hpoint]
    simp
  | digits hds =>
    have hpoint := fun c hc => ne_point_of_isDigit hds (c := c) hc
    rw [intPart, fracPart, List.takeWhile_eq_self_iff.2 hpoint, List.dropWhile_eq_nil_iff.2 hpoint]
    exact ⟨rfl, rfl⟩

lemma Numeral.all {s ds fs : List Char} (h : Numeral s ds fs) :
    ds.all Char.isDigit ∧ fs.all Char.isDigit := by
  cases h with
  | point hds hfs => exact ⟨hds, hfs⟩
  | digits hds => exact ⟨hds, rfl⟩

lemma Numeral.chars {s ds fs : List Char} (h : Numeral s ds fs) :
    (∀ c ∈ s, c.isDigit ∨ c = '.') ∧ s.count '.' ≤ 1 := by
  have hzero {ds : List Char} (hds : ds.all Char.isDigit) : ds.count '.' = 0 := by
    rw [List.count_eq_zero]
    intro hmem
    exact absurd (List.all_eq_true.1 hds _ hmem) (by decide)
  cases h with
  | point hds hfs =>
    refine ⟨fun c hc => ?_, ?_⟩
    · rcases List.mem_append.1 hc with hc | hc
      · exact Or.inl (List.all_eq_true.1 hds c hc)
      · rcases List.mem_cons.1 hc with rfl | hc
        · exact Or.inr rfl
        · exact Or.inl (List.all_eq_true.1 hfs c hc)
    · rw [List.count_append, List.count_cons_self, hzero hds, hzero hfs]
  | digits hds =>
    refine ⟨fun c hc => Or.inl (List.all_eq_true.1 hds c hc), ?_⟩
    rw [hzero hds]
    exact Nat.zero_le 1

lemma numeral_of_chars {s : List Char} (hchars : ∀ c ∈ s, c.isDigit ∨ c = '.')
    (hpoint : s.count '.' ≤ 1) : Numeral s (intPart s) (fracPart s) := by
  have hdigits {l : List Char} (hl : ∀ c ∈ l, c ∈ s) (hno : '.' ∉ l) : l.all Char.isDigit := by
    rw [List.all_eq_true]
    intro c hc
    rcases hchars c (hl c hc) with hdigit | rfl
    · exact hdigit
    · exact absurd hc hno
  have hcut : s = intPart s ++ s.dropWhile (· ≠ '.') := List.takeWhile_append_dropWhile.symm
  have hint : '.' ∉ intPart s := by
    intro hmem
    simpa using List.mem_takeWhile_imp hmem
  have hds : (intPart s).all Char.isDigit :=
    hdigits (fun c hc => hcut ▸ List.mem_append_left _ hc) hint
  cases hrest : s.dropWhile (· ≠ '.') with
  | nil =>
    have hs : s = intPart s := by rwa [hrest, List.append_nil] at hcut
    have hfrac : fracPart s = [] := by rw [fracPart, hrest, List.tail_nil]
    rw [hfrac]
    nth_rewrite 1 [hs]
    exact .digits hds
  | cons c fs =>
    have hc : c = '.' := by
      have hhead := List.head?_dropWhile_not (· ≠ '.') s
      rw [hrest] at hhead
      simpa using hhead
    subst hc
    have hfrac : fracPart s = fs := by rw [fracPart, hrest, List.tail_cons]
    rw [hrest] at hcut
    rw [hcut, List.count_append, List.count_cons_self] at hpoint
    have hno : '.' ∉ fs := List.count_eq_zero.1 (by omega)
    rw [hfrac]
    nth_rewrite 1 [hcut]
    refine .point hds (hdigits (fun c hc => ?_) hno)
    rw [hcut]
    exact List.mem_append_right _ (List.mem_cons_of_mem _ hc)

lemma Numeral.mem_iff {s ds fs : List Char} (h : Numeral s ds fs) {c : Char} (hc : c.isDigit) :
    c ∈ s ↔ c ∈ ds ++ fs := by
  have hpoint : c ≠ '.' := by
    rintro rfl
    exact absurd hc (by decide)
  cases h with
  | point => simp [hpoint]
  | digits => simp

lemma isSome_parseScaledUnsigned_iff (s : List Char) (maxFrac : Nat) :
    (parseScaledUnsigned s maxFrac).isSome ↔ Accepted s maxFrac := by
  rw [Option.isSome_iff_exists]
  constructor
  · rintro ⟨v, hv⟩
    obtain ⟨hlength, ds, fs, hs, hne, hprecision, hmagnitude, -⟩ :=
      parseScaledUnsigned_eq_some_iff.1 hv
    obtain ⟨hint, hfrac⟩ := hs.parts
    obtain ⟨c, hc⟩ := List.exists_mem_of_ne_nil _ hne
    have hdigit : c.isDigit := by
      rcases List.mem_append.1 hc with hmem | hmem
      · exact List.all_eq_true.1 hs.all.1 c hmem
      · exact List.all_eq_true.1 hs.all.2 c hmem
    have hmem : c ∈ s := (hs.mem_iff hdigit).2 hc
    exact {
      length_pos := List.length_pos_of_mem hmem
      length_le  := hlength
      chars      := hs.chars.1
      one_point  := hs.chars.2
      any_digit  := ⟨c, hmem, hdigit⟩
      precision  := hfrac ▸ hprecision
      magnitude  := hint ▸ hmagnitude }
  · intro h
    have hs := numeral_of_chars h.chars h.one_point
    obtain ⟨c, hmem, hdigit⟩ := h.any_digit
    have hne : intPart s ++ fracPart s ≠ [] :=
      List.ne_nil_of_mem ((hs.mem_iff hdigit).1 hmem)
    exact ⟨_, parseScaledUnsigned_eq_some_iff.2
      ⟨h.length_le, _, _, hs, hne, h.precision, h.magnitude, rfl⟩⟩

/-! ### Overflow -/

/-- The digits before the point, with overflow. -/
def intDigitsChecked (n : Int) : List Char → Option (Option (Int × List Char))
  | []      => some (some (n, []))
  | c :: cs =>
    if c.isDigit then do
      let shifted ← checked (n * 10)
      let n       ← checked (shifted + digit c)
      if n > 1000000000000 then return none else intDigitsChecked n cs
    else some (some (n, c :: cs))

/-- The digits behind the point, with overflow. -/
def fracDigitsChecked (maxFrac k : Nat) (n : Int) :
    List Char → Option (Option (Nat × Int × List Char))
  | []      => some (some (k, n, []))
  | c :: cs =>
    if c.isDigit then
      if k ≥ maxFrac then some none
      else do
        let shifted ← checked (n * 10)
        let n       ← checked (shifted + digit c)
        fracDigitsChecked maxFrac (k + 1) n cs
    else some (some (k, n, c :: cs))

/-- The loops that compute a power of ten. -/
def scaleChecked : Nat → Option Int
  | 0     => some 1
  | k + 1 => do checked ((← scaleChecked k) * 10)

/-- The outer option is empty when an operation overflows. -/
def parseScaledUnsignedChecked (s : List Char) (maxFrac : Nat) : Option (Option Int) :=
  if s.isEmpty || s.length > 24 then some none
  else do
    match ← intDigitsChecked 0 s with
    | none             => return none
    | some (int, rest) =>
      let scanned ←
        match rest with
        | '.' :: cs => fracDigitsChecked maxFrac 0 0 cs
        | _         => some (some (0, 0, rest))
      match scanned with
      | none                  => return none
      | some (k, frac, rest') =>
        let any := rest.length < s.length || k > 0
        if !rest'.isEmpty || !any then return none
        else
          let scale     ← scaleChecked maxFrac
          let fracScale ← scaleChecked (maxFrac - k)
          let whole     ← checked (int * scale)
          let part      ← checked (frac * fracScale)
          let v         ← checked (whole + part)
          return some v

lemma digit_lt {c : Char} (h : c.isDigit) : digit c < 10 := by
  obtain ⟨hlow, hhigh⟩ := Char.isDigit_iff_toNat.1 h
  have hlow' : 48 ≤ c.toNat := hlow
  have hhigh' : c.toNat ≤ 57 := hhigh
  have hzero : '0'.toNat = 48 := rfl
  rw [digit, hzero]
  omega

lemma intDigitsChecked_eq {n : Nat} (hn : n ≤ kMaxInt) (s : List Char) :
    intDigitsChecked n s = some ((intDigits n s).map fun r => ((r.1 : Int), r.2)) := by
  induction s generalizing n with
  | nil => rfl
  | cons c cs ih =>
    rw [intDigitsChecked, intDigits]
    split_ifs with hdigit
    · have hlt := digit_lt hdigit
      have hstep : (n : Int) * 10 + digit c = (10 * n + digit c : Nat) := by
        push_cast
        ring
      rw [kMaxInt] at hn
      simp only [Option.bind_eq_bind]
      rw [checked_bind (by omega) (by omega), checked_bind (by omega) (by omega), hstep]
      by_cases hlarge : 10 * n + digit c > 1000000000000
      · rw [if_pos (by exact_mod_cast hlarge)]
        simp [hlarge]
      · rw [if_neg (by exact_mod_cast hlarge), ih (Nat.le_of_not_lt hlarge)]
        simp [hlarge]
    · rfl

lemma fracDigitsChecked_eq {maxFrac k n : Nat} (hmax : maxFrac ≤ 4) (hn : n < 10 ^ k)
    (s : List Char) :
    fracDigitsChecked maxFrac k n s =
      some ((fracDigits maxFrac k n s).map fun r => (r.1, (r.2.1 : Int), r.2.2)) := by
  induction s generalizing k n with
  | nil => rfl
  | cons c cs ih =>
    rw [fracDigitsChecked, fracDigits]
    split_ifs with hdigit hfull
    · rfl
    · have hlt := digit_lt hdigit
      have hstep : (n : Int) * 10 + digit c = (10 * n + digit c : Nat) := by
        push_cast
        ring
      have hpow : 10 ^ k ≤ 10 ^ 4 := Nat.pow_le_pow_right (by decide) (by omega)
      have hnext : 10 * n + digit c < 10 ^ (k + 1) := by
        rw [pow_succ]
        omega
      simp only [Option.bind_eq_bind]
      rw [checked_bind (by omega) (by omega), checked_bind (by omega) (by omega), hstep, ih hnext]
    · rfl

lemma scaleChecked_eq {k : Nat} (hk : k ≤ 4) : scaleChecked k = some ((10 ^ k : Nat) : Int) := by
  interval_cases k <;> rfl

lemma appendDigits_lt {n : Nat} {ds : List Char} (hds : ds.all Char.isDigit) :
    appendDigits n ds < (n + 1) * 10 ^ ds.length := by
  induction ds generalizing n with
  | nil => simp
  | cons c ds ih =>
    rw [List.all_cons, Bool.and_eq_true] at hds
    have hdigit := digit_lt hds.1
    calc
      appendDigits n (c :: ds) = appendDigits (10 * n + digit c) ds := appendDigits_cons n c ds
      _ < (10 * n + digit c + 1) * 10 ^ ds.length := ih hds.2
      _ ≤ (n + 1) * 10 * 10 ^ ds.length := Nat.mul_le_mul_right _ (by omega)
      _ = (n + 1) * 10 ^ (c :: ds).length := by rw [List.length_cons, pow_succ]; ring

lemma scaled_int_le {int maxFrac : Nat} (hmax : maxFrac ≤ 4) (hint : int ≤ kMaxInt) :
    int * 10 ^ maxFrac ≤ 10000000000000000 := by
  have hpow : 10 ^ maxFrac ≤ 10 ^ 4 := Nat.pow_le_pow_right (by decide) hmax
  calc
    int * 10 ^ maxFrac ≤ kMaxInt * 10 ^ 4 := Nat.mul_le_mul hint hpow
    _ = 10000000000000000 := by norm_num [kMaxInt]

lemma scaled_frac_lt {frac k maxFrac : Nat} (hmax : maxFrac ≤ 4) (hfrac : frac < 10 ^ k)
    (hk : k ≤ maxFrac) : frac * 10 ^ (maxFrac - k) < 10000 :=
  calc
    frac * 10 ^ (maxFrac - k) < 10 ^ k * 10 ^ (maxFrac - k) :=
      Nat.mul_lt_mul_of_pos_right hfrac (Nat.pow_pos (by decide))
    _ = 10 ^ maxFrac := by rw [← pow_add, Nat.add_sub_cancel' hk]
    _ ≤ 10 ^ 4 := Nat.pow_le_pow_right (by decide) hmax
    _ = 10000 := by norm_num

lemma sum_checked {int frac scale fracScale : Int} {first second : Option Int}
    (hfirst : first = some scale) (hsecond : second = some fracScale) (hwhole : 0 ≤ int * scale)
    (hwhole' : int * scale < 2 ^ 62) (hpart : 0 ≤ frac * fracScale)
    (hpart' : frac * fracScale < 2 ^ 62) :
    (do
      let scale     ← first
      let fracScale ← second
      let whole     ← checked (int * scale)
      let part      ← checked (frac * fracScale)
      let v         ← checked (whole + part)
      return some v) = some (some (int * scale + frac * fracScale)) := by
  subst hfirst hsecond
  simp only [Option.bind_eq_bind, Option.bind_some, Option.pure_def]
  rw [checked_bind (by omega) (by omega), checked_bind (by omega) (by omega),
    checked_bind (by omega) (by omega)]

lemma scaled_checked {int frac k maxFrac : Nat} (hmax : maxFrac ≤ 4) (hint : int ≤ kMaxInt)
    (hfrac : frac < 10 ^ k) (hk : k ≤ maxFrac) :
    (do
      let scale     ← scaleChecked maxFrac
      let fracScale ← scaleChecked (maxFrac - k)
      let whole     ← checked (int * scale)
      let part      ← checked (frac * fracScale)
      let v         ← checked (whole + part)
      return some v) =
        some (some ((int * 10 ^ maxFrac + frac * 10 ^ (maxFrac - k) : Nat) : Int)) := by
  have hwhole := scaled_int_le hmax hint
  have hpart := scaled_frac_lt hmax hfrac hk
  have hscale := scaleChecked_eq hmax
  have hfracScale := scaleChecked_eq ((Nat.sub_le maxFrac k).trans hmax)
  rw [sum_checked hscale hfracScale, Nat.cast_add, Nat.cast_mul, Nat.cast_mul]
  · positivity
  · rw [← Nat.cast_mul]
    omega
  · positivity
  · rw [← Nat.cast_mul]
    omega

/-- No operation overflows. -/
lemma parseScaledUnsignedChecked_eq {maxFrac : Nat} (hmax : maxFrac ≤ 4) (s : List Char) :
    parseScaledUnsignedChecked s maxFrac = some (parseScaledUnsigned s maxFrac) := by
  have hzero : intDigitsChecked 0 s = _ := intDigitsChecked_eq (n := 0) (Nat.zero_le _) s
  rw [parseScaledUnsignedChecked, parseScaledUnsigned, hzero]
  split_ifs with hlength
  · rfl
  · cases hint : intDigits 0 s with
    | none => rfl
    | some r =>
      obtain ⟨int, rest⟩ := r
      obtain ⟨-, -, -, -, hle⟩ := intDigits_eq_some hint (Nat.zero_le _)
      simp only [Option.map_some, Option.bind_eq_bind, Option.bind_some]
      split
      · next cs =>
        have hfirst : fracDigitsChecked maxFrac 0 0 cs = _ :=
          fracDigitsChecked_eq (k := 0) (n := 0) hmax (by decide) cs
        rw [hfirst]
        rcases Option.eq_none_or_eq_some (fracDigits maxFrac 0 0 cs) with hfrac | ⟨r', hfrac⟩
        · simp only [hfrac]
          rfl
        · obtain ⟨k, frac, rest'⟩ := r'
          obtain ⟨fs, -, hfs, rfl, rfl, hk⟩ := fracDigits_eq_some hfrac (Nat.zero_le _)
          have hlt : appendDigits 0 fs < 10 ^ (0 + fs.length) := by
            have := appendDigits_lt (n := 0) hfs
            simpa using this
          simp only [hfrac, Option.map_some, Option.bind_some]
          split_ifs
          · rfl
          · exact scaled_checked hmax hle hlt hk
      · next hpoint =>
        simp only [gt_iff_lt, Nat.lt_irrefl, decide_false, Bool.or_false]
        split_ifs
        · rfl
        · exact scaled_checked hmax hle (show 0 < 10 ^ 0 by decide) (Nat.zero_le _)

/-! ### Round trip -/

lemma digit_digitChar {n : Nat} (h : n < 10) : digit (Nat.digitChar n) = n :=
  Nat.toNat_digitChar_sub_48_of_lt_ten h

lemma isDigit_digitChar {n : Nat} (h : n < 10) : (Nat.digitChar n).isDigit := by
  interval_cases n <;> rfl

lemma appendDigits_twoDigits {n : Nat} (h : n < 100) : appendDigits 0 (twoDigits n) = n := by
  rw [twoDigits, appendDigits_cons, appendDigits_cons, appendDigits_nil,
    digit_digitChar (by omega), digit_digitChar (by omega)]
  omega

lemma appendDigits_toDigits (n : Nat) : appendDigits 0 (Nat.toDigits 10 n) = n :=
  Nat.ofDigitChars_ten_toDigits

/-- The canonical text of an unsigned count is read back. -/
lemma parseScaledUnsigned_format {a : Nat} (h : a ≤ 10 ^ 14 + 99) :
    parseScaledUnsigned (Nat.toDigits 10 (a / 100) ++ '.' :: twoDigits (a % 100)) 2 =
      some (a : Int) := by
  have hds : (Nat.toDigits 10 (a / 100)).all Char.isDigit := by
    rw [List.all_eq_true]
    intro c hc
    exact Nat.isDigit_of_mem_toDigits (by decide) (by decide) hc
  have hfs : (twoDigits (a % 100)).all Char.isDigit := by
    rw [twoDigits, List.all_cons, List.all_cons, isDigit_digitChar (by omega),
      isDigit_digitChar (by omega)]
    rfl
  have hint : a / 100 < 10 ^ 13 := by omega
  have hlength : (Nat.toDigits 10 (a / 100)).length ≤ 13 :=
    (Nat.length_toDigits_le_iff (by decide) (by decide)).2 hint
  refine parseScaledUnsigned_eq_some_iff.2
    ⟨?_, _, _, .point hds hfs, by simp [twoDigits], ?_, ?_, ?_⟩
  · simp only [List.length_append, List.length_cons, twoDigits, List.length_nil]
    omega
  · exact le_rfl
  · rw [appendDigits_toDigits, kMaxInt]
    omega
  · rw [appendDigits_toDigits, appendDigits_twoDigits (by omega)]
    simp only [twoDigits, List.length_cons, List.length_nil]
    omega

/-! ### Signs -/

lemma parseScaledUnsigned_of_signed {s : List Char} {maxFrac : Nat} (h : signed s) :
    parseScaledUnsigned s maxFrac = none := by
  rw [← Option.not_isSome_iff_eq_none, isSome_parseScaledUnsigned_iff]
  intro haccepted
  cases s with
  | nil => exact absurd h (by decide)
  | cons c cs =>
    have hsign : c = '-' ∨ c = '+' := by simpa [signed] using h
    rcases hsign with rfl | rfl <;>
      exact absurd (haccepted.chars _ List.mem_cons_self) (by decide)

lemma parsePriceE4_eq_some_iff {s : List Char} {v : Int} :
    parsePriceE4 s = some v ↔ parseScaledUnsigned s 4 = some v ∧ 0 ≤ v ∧ v ≤ 10000 := by
  rw [parsePriceE4]
  split_ifs with hsigned
  · rw [parseScaledUnsigned_of_signed hsigned]
    simp
  · rw [Option.filter_eq_some_iff, decide_eq_true_eq, kPriceMin, kPriceMax]

lemma parseCountFp_eq (s : List Char) : parseCountFp s = parseScaledUnsigned s 2 := by
  rw [parseCountFp]
  split_ifs with hsigned
  · exact (parseScaledUnsigned_of_signed hsigned).symm
  · rfl

lemma parseDeltaFp_eq_some_iff {s : List Char} {v : Int} :
    parseDeltaFp s = some v ↔
      parseScaledUnsigned s 2 = some v ∨
        (∃ t, s = '+' :: t ∧ parseScaledUnsigned t 2 = some v) ∨
        (∃ t, s = '-' :: t ∧ parseScaledUnsigned t 2 = some (-v)) := by
  by_cases hsigned : signed s
  · rw [parseScaledUnsigned_of_signed hsigned]
    cases s with
    | nil => exact absurd hsigned (by decide)
    | cons c t =>
      have hsign : c = '-' ∨ c = '+' := by simpa [signed] using hsigned
      rcases hsign with rfl | rfl
      · rw [parseDeltaFp_minus]
        simp [neg_eq_iff_eq_neg]
      · rw [parseDeltaFp_plus]
        simp
  · rw [parseDeltaFp_of_not_signed hsigned]
    constructor
    · exact Or.inl
    · rintro (h | ⟨t, rfl, -⟩ | ⟨t, rfl, -⟩)
      · exact h
      · exact absurd rfl hsigned
      · exact absurd rfl hsigned

lemma parseDeltaFp_formatCountFp {v : Int} (h : |v| ≤ 10 ^ 14 + 99) :
    parseDeltaFp (formatCountFp v) = some v := by
  have habs : v.natAbs ≤ 10 ^ 14 + 99 := by
    rw [Int.abs_eq_natAbs] at h
    exact_mod_cast h
  have hread := parseScaledUnsigned_format habs
  rw [formatCountFp, parseDeltaFp_eq_some_iff]
  split_ifs with hneg
  · refine Or.inr (Or.inr ⟨_, rfl, hread.trans ?_⟩)
    congr 1
    omega
  · refine Or.inl (hread.trans ?_)
    congr 1
    omega

/-! ### The parsers are exact -/

/-- The scanner accepts exactly the numerals within its limits and returns their number to scale,
without overflow; the three parsers differ from it in range and sign only, and every count of
accepted magnitude survives its canonical text. -/
theorem fixed_point_exact :
    (∀ (s : List Char) (maxFrac : Nat), maxFrac = 2 ∨ maxFrac = 4 →
      ((parseScaledUnsigned s maxFrac).isSome ↔ Accepted s maxFrac) ∧
        (∀ v, parseScaledUnsigned s maxFrac = some v →
          ∃ q, unsignedValue s = some q ∧ (v : ℚ) = q * 10 ^ maxFrac) ∧
        parseScaledUnsignedChecked s maxFrac = some (parseScaledUnsigned s maxFrac)) ∧
      (∀ s v, parsePriceE4 s = some v ↔ parseScaledUnsigned s 4 = some v ∧ 0 ≤ v ∧ v ≤ 10000) ∧
      (∀ s, parseCountFp s = parseScaledUnsigned s 2) ∧
      (∀ s v, parseDeltaFp s = some v ↔
        parseScaledUnsigned s 2 = some v ∨
          (∃ t, s = '+' :: t ∧ parseScaledUnsigned t 2 = some v) ∨
          (∃ t, s = '-' :: t ∧ parseScaledUnsigned t 2 = some (-v))) ∧
      ∀ v : Int, |v| ≤ 10 ^ 14 + 99 → parseDeltaFp (formatCountFp v) = some v := by
  refine ⟨fun s maxFrac hmax => ⟨isSome_parseScaledUnsigned_iff s maxFrac, fun v hv => ?_, ?_⟩,
    fun s v => parsePriceE4_eq_some_iff, parseCountFp_eq, fun s v => parseDeltaFp_eq_some_iff,
    fun v => parseDeltaFp_formatCountFp⟩
  · obtain ⟨-, hvalue⟩ := unsignedValue_of_parseScaledUnsigned hv
    refine ⟨_, hvalue, ?_⟩
    rw [div_mul_cancel₀ _ (pow_ne_zero _ (by norm_num))]
  · exact parseScaledUnsignedChecked_eq (by omega) s

/-- A price with a trailing point, and the largest count. -/
theorem fixed_point_exact_limits :
    (parseScaledUnsigned "1.".toList 4).isSome ∧
      parseDeltaFp (formatCountFp (-(10 ^ 14 + 99))) = some (-(10 ^ 14 + 99)) :=
  ⟨((fixed_point_exact.1 "1.".toList 4 (Or.inr rfl)).1).2 {
      length_pos := by decide
      length_le  := by decide
      chars      := by simp [Char.isDigit]
      one_point  := by decide
      any_digit  := ⟨'1', by decide, by decide⟩
      precision  := by decide
      magnitude  := by decide },
    fixed_point_exact.2.2.2.2 _ (by decide)⟩

end HftBot.FixedPoint
