import Mathlib.Algebra.Ring.Nat
import Mathlib.Data.Nat.Log
import Mathlib.Data.List.DropRight

/-!
# Binary64 numbers

A finite double is a sign and a magnitude `m * 2 ^ e` in the one form the format gives it, so two
doubles that differ are equal as numbers only when they are the two zeros. The decimal text of a
double is the shortest one that reads back as it, in positional form between `1e-4` and `1e16` and
with an exponent elsewhere.
-/

namespace HftBot.Core

/-- The form of a finite magnitude: 53 bits, and fewer only at the lowest exponent. -/
def IsBinary64 (m : Nat) (e : Int) : Prop :=
  m < 2 ^ 53 ∧ -1074 ≤ e ∧ e ≤ 971 ∧ (2 ^ 52 ≤ m ∨ e = -1074)

instance (m : Nat) (e : Int) : Decidable (IsBinary64 m e) :=
  inferInstanceAs (Decidable (_ ∧ _ ∧ _ ∧ (_ ∨ _)))

inductive Double
  | finite (neg : Bool) (m : Nat) (e : Int) (h : IsBinary64 m e)
  | inf (neg : Bool)
  | nan
  deriving DecidableEq

namespace Double

/-! ### Rounding -/

/-- `num / den` to the nearest integer, a tie to the even one. -/
def roundHalfEven (num den : Nat) : Nat :=
  let q := num / den
  let r := num % den
  if 2 * r < den ∨ 2 * r = den ∧ q % 2 = 0 then q else q + 1

/-- The exponent of the last bit that a double near `num / den` has. -/
def lastBit (num den : Nat) : Int :=
  let k : Int := (Nat.log 2 num : Int) - Nat.log 2 den
  -- the binary logarithm of the quotient is `k` or one less
  let k := if den * 2 ^ k.toNat ≤ num * 2 ^ (-k).toNat then k else k - 1
  max (k - 52) (-1074)

/-- The double with that magnitude: one that does not fit is out of range. -/
def ofMagnitude (neg : Bool) (m : Nat) (e : Int) : Double :=
  if h : IsBinary64 m e then finite neg m e h else inf neg

/-- The double nearest to `num / den`, a tie to the even one. -/
def ofRatio (neg : Bool) (num den : Nat) : Double :=
  if num = 0 then ofMagnitude neg 0 (-1074) else
  let e := lastBit num den
  let m := roundHalfEven (num * 2 ^ (-e).toNat) (den * 2 ^ e.toNat)
  if m = 2 ^ 53 then ofMagnitude neg (2 ^ 52) (e + 1) else ofMagnitude neg m e

/-- The double nearest to an integer, unless that is out of range. -/
def ofInt (n : Int) : Option Double :=
  match ofRatio (n < 0) n.natAbs 1 with
  | finite neg m e h => some (finite neg m e h)
  | _                => none

def zero : Double := finite false 0 (-1074) (by decide)

/-! ### Comparison and addition -/

/-- The magnitude, as a fraction. -/
def fraction (m : Nat) (e : Int) : Nat × Nat := (m * 2 ^ e.toNat, 2 ^ (-e).toNat)

def signed (neg : Bool) (n : Nat) : Int := if neg then -n else n

/-- The number is that integer. -/
def eqInt : Double → Int → Bool
  | finite neg m e _, n => signed neg (fraction m e).1 = n * (fraction m e).2
  | _, _                => false

/-- The two numbers are equal: the zeros are, and a NaN equals nothing. -/
def eq : Double → Double → Bool
  | finite neg m e _, finite neg' m' e' _ =>
    m = 0 ∧ m' = 0 ∨ neg = neg' ∧ m = m' ∧ e = e'
  | inf neg, inf neg' => neg = neg'
  | _, _              => false

def add : Double → Double → Double
  | finite neg m e _, finite neg' m' e' _ =>
    let low := min e e'
    let s := signed neg (m * 2 ^ (e - low).toNat) + signed neg' (m' * 2 ^ (e' - low).toNat)
    let both := neg && neg'
    ofRatio (if s = 0 then both else s < 0) (fraction s.natAbs low).1 (fraction s.natAbs low).2
  | inf neg, inf neg' => if neg = neg' then inf neg else nan
  | nan, _            => nan
  | _, nan            => nan
  | inf neg, _        => inf neg
  | _, inf neg        => inf neg

lemma eq_self {x : Double} (h : x ≠ nan) : x.eq x = true := by
  cases x with
  | finite neg m e _ => exact decide_eq_true (.inr ⟨rfl, rfl, rfl⟩)
  | inf neg => exact decide_eq_true rfl
  | nan => exact absurd rfl h

lemma ofMagnitude_ne_nan (neg : Bool) (m : Nat) (e : Int) : ofMagnitude neg m e ≠ nan := by
  rw [ofMagnitude]
  split
  · intro h
    cases h
  · intro h
    cases h

lemma ofRatio_ne_nan (neg : Bool) (num den : Nat) : ofRatio neg num den ≠ nan := by
  rw [ofRatio]
  split
  · exact ofMagnitude_ne_nan _ _ _
  simp only
  split
  · exact ofMagnitude_ne_nan _ _ _
  · exact ofMagnitude_ne_nan _ _ _

/-! ### The shortest decimal text -/

/-- The point of the decimal fraction: the number is below `10 ^ k` and not below `10 ^ (k - 1)`. -/
def decimalPoint (num den : Nat) : Int :=
  let k : Int := (Nat.log 10 num : Int) - Nat.log 10 den
  if den * 10 ^ k.toNat ≤ num * 10 ^ (-k).toNat then k + 1 else k

/-- `n` digits, and the digits next to them, that the number lies between, the nearer first. -/
def candidates (num den : Nat) (shift : Int) : List Nat :=
  let num := num * 10 ^ shift.toNat
  let den := den * 10 ^ (-shift).toNat
  let near := roundHalfEven num den
  [near, if near = num / den then near + 1 else num / den]

/-- A number of `n` digits, with the place of its point: a carry moves that, and the zeros at the
end go. -/
def digitsOf (d : Nat) (n : Nat) (point : Int) : List Char × Int :=
  let digits := Nat.toDigits 10 d
  (digits.rdropWhile (· = '0'), point + (digits.length - n))

/-- The shortest digits that read back as the double, with the place of their point. -/
def shortest (m : Nat) (e : Int) : List Char × Int :=
  let (num, den) := fraction m e
  let point := decimalPoint num den
  let readsBack (shift : Int) (d : Nat) : Bool :=
    match ofRatio false (d * 10 ^ (-shift).toNat) (10 ^ shift.toNat) with
    | finite _ m' e' _ => m' = m ∧ e' = e
    | _                => false
  let found := (List.range 17).findSome? fun (i : Nat) =>
    let shift := (i + 1 : Int) - point
    ((candidates num den shift).find? (readsBack shift)).map (digitsOf · (i + 1) point)
  -- seventeen digits always read back
  found.getD (['0'], point)

/-- The digits with their point. -/
def positional (digits : List Char) (point : Int) : List Char :=
  if point ≤ 0 then '0' :: '.' :: (List.replicate (-point).toNat '0' ++ digits)
  else
    let whole := point.toNat
    digits.take whole ++ List.replicate (whole - digits.length) '0' ++ '.' ::
      (if digits.length ≤ whole then ['0'] else digits.drop whole)

/-- The digits with an exponent of at least two digits. -/
def scientific (digits : List Char) (point : Int) : List Char :=
  let x := point - 1
  let exponent := Nat.toDigits 10 x.natAbs
  let exponent := if exponent.length < 2 then '0' :: exponent else exponent
  digits.take 1 ++ (if digits.length ≤ 1 then [] else '.' :: digits.drop 1) ++
    'e' :: (if x < 0 then '-' else '+') :: exponent

/-- The text of a finite magnitude. -/
def magnitude (m : Nat) (e : Int) : List Char :=
  if m = 0 then ['0', '.', '0'] else
  let (digits, point) := shortest m e
  if -4 < point ∧ point ≤ 16 then positional digits point else scientific digits point

/-- The text a JSON writer gives the number. -/
def text : Double → List Char
  | finite neg m e _ => (if neg then ['-'] else []) ++ magnitude m e
  | inf neg          => (if neg then ['-'] else []) ++ "Infinity".toList
  | nan              => "NaN".toList

/-! ### The characters of the text -/

/-- A character that the text of a finite number may have. -/
def IsNumeral (c : Char) : Prop := c.isDigit = true ∨ c = '-' ∨ c = '+' ∨ c = '.' ∨ c = 'e'

lemma isNumeral_toDigits {n : Nat} : ∀ c ∈ Nat.toDigits 10 n, IsNumeral c :=
  fun _ hc => .inl (Nat.isDigit_of_mem_toDigits (by decide) (by decide) hc)

lemma isNumeral_shortest {m : Nat} {e : Int} : ∀ c ∈ (shortest m e).1, IsNumeral c := by
  intro c hc
  rw [shortest] at hc
  simp only at hc
  generalize hfound : List.findSome? _ _ = found at hc
  cases found with
  | none =>
    rw [Option.getD_none, List.mem_singleton] at hc
    exact .inl (hc ▸ rfl)
  | some p =>
    obtain ⟨i, -, hi⟩ := List.exists_of_findSome?_eq_some hfound
    obtain ⟨d, -, rfl⟩ := Option.map_eq_some_iff.1 hi
    exact isNumeral_toDigits c ((List.rdropWhile_prefix _ _).subset hc)

lemma isNumeral_positional {digits : List Char} {point : Int} (h : ∀ c ∈ digits, IsNumeral c) :
    ∀ c ∈ positional digits point, IsNumeral c := by
  intro c hc
  rw [positional] at hc
  split at hc
  · rcases List.mem_cons.1 hc with rfl | hc
    · exact .inl rfl
    rcases List.mem_cons.1 hc with rfl | hc
    · exact .inr (.inr (.inr (.inl rfl)))
    rcases List.mem_append.1 hc with hc | hc
    · exact .inl (List.eq_of_mem_replicate hc ▸ rfl)
    · exact h c hc
  · rcases List.mem_append.1 hc with hc | hc
    · rcases List.mem_append.1 hc with hc | hc
      · exact h c (List.mem_of_mem_take hc)
      · exact .inl (List.eq_of_mem_replicate hc ▸ rfl)
    rcases List.mem_cons.1 hc with rfl | hc
    · exact .inr (.inr (.inr (.inl rfl)))
    split at hc
    · exact .inl (List.mem_singleton.1 hc ▸ rfl)
    · exact h c (List.mem_of_mem_drop hc)

lemma isNumeral_scientific {digits : List Char} {point : Int} (h : ∀ c ∈ digits, IsNumeral c) :
    ∀ c ∈ scientific digits point, IsNumeral c := by
  intro c hc
  rw [scientific] at hc
  rcases List.mem_append.1 hc with hc | hc
  · rcases List.mem_append.1 hc with hc | hc
    · exact h c (List.mem_of_mem_take hc)
    split at hc
    · exact absurd hc List.not_mem_nil
    rcases List.mem_cons.1 hc with rfl | hc
    · exact .inr (.inr (.inr (.inl rfl)))
    · exact h c (List.mem_of_mem_drop hc)
  rcases List.mem_cons.1 hc with rfl | hc
  · exact .inr (.inr (.inr (.inr rfl)))
  rcases List.mem_cons.1 hc with rfl | hc
  · split
    · exact .inr (.inl rfl)
    · exact .inr (.inr (.inl rfl))
  split at hc
  · rcases List.mem_cons.1 hc with rfl | hc
    · exact .inl rfl
    · exact isNumeral_toDigits c hc
  · exact isNumeral_toDigits c hc

lemma isNumeral_magnitude {m : Nat} {e : Int} : ∀ c ∈ magnitude m e, IsNumeral c := by
  intro c hc
  rw [magnitude] at hc
  split at hc
  · simp only [List.mem_cons, List.not_mem_nil, or_false] at hc
    rcases hc with rfl | rfl | rfl
    · exact .inl rfl
    · exact .inr (.inr (.inr (.inl rfl)))
    · exact .inl rfl
  simp only at hc
  split at hc
  · exact isNumeral_positional isNumeral_shortest c hc
  · exact isNumeral_scientific isNumeral_shortest c hc

/-- The text of a finite number is not that of an integer. -/
lemma point_mem_magnitude (m : Nat) (e : Int) : '.' ∈ magnitude m e ∨ 'e' ∈ magnitude m e := by
  rw [magnitude]
  split
  · exact .inl (by decide)
  simp only
  split
  · left
    rw [positional]
    split
    · exact List.mem_cons_of_mem _ List.mem_cons_self
    · exact List.mem_append_right _ List.mem_cons_self
  · exact .inr (List.mem_append_right _ List.mem_cons_self)

lemma isNumeral_text {neg : Bool} {m : Nat} {e : Int} {h : IsBinary64 m e} :
    ∀ c ∈ text (finite neg m e h), IsNumeral c := by
  intro c hc
  rcases List.mem_append.1 hc with hc | hc
  · split at hc
    · exact .inr (.inl (List.mem_singleton.1 hc))
    · exact absurd hc List.not_mem_nil
  · exact isNumeral_magnitude c hc

/-- Doubles that are equal as numbers differ at most in the sign of a zero, which the text shows. -/
theorem eq_of_text {x y : Double} (h : x.eq y = true) (htext : x.text = y.text) : x = y := by
  cases x with
  | nan => exact absurd h Bool.false_ne_true
  | inf neg =>
    cases y with
    | inf neg' => rw [of_decide_eq_true h]
    | finite neg' m' e' h' => exact absurd h Bool.false_ne_true
    | nan => exact absurd h Bool.false_ne_true
  | finite neg m e hx =>
    cases y with
    | inf neg' => exact absurd h Bool.false_ne_true
    | nan => exact absurd h Bool.false_ne_true
    | finite neg' m' e' hy =>
      rcases of_decide_eq_true h with ⟨rfl, rfl⟩ | ⟨rfl, rfl, rfl⟩
      · obtain rfl : e = -1074 := hx.2.2.2.resolve_left (by decide)
        obtain rfl : e' = -1074 := hy.2.2.2.resolve_left (by decide)
        have hzero : ∀ b c : Bool, (if b then ['-'] else []) ++ magnitude 0 (-1074) =
            (if c then ['-'] else []) ++ magnitude 0 (-1074) → b = c := by decide
        cases hzero neg neg' htext
        rfl
      · rfl

end Double

end HftBot.Core
