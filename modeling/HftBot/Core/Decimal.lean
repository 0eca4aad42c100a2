import HftBot.Core.Json
import Mathlib.Algebra.Field.Rat
import Mathlib.Data.List.TakeWhile
import Mathlib.Tactic.FieldSimp
import Mathlib.Tactic.Ring

/-!
# Decimal numerals

The number that a decimal numeral denotes, whatever its precision.
-/

namespace HftBot.Core

/-- The value of the digits of `s` written behind those of `n`. -/
def appendDigits (n : Nat) (s : List Char) : Nat :=
  s.foldl (fun n c => 10 * n + (c.toNat - '0'.toNat)) n

lemma appendDigits_append (n : Nat) (s t : List Char) :
    appendDigits n (s ++ t) = appendDigits (appendDigits n s) t := List.foldl_append

lemma appendDigits_eq (n : Nat) (s : List Char) :
    appendDigits n s = n * 10 ^ s.length + appendDigits 0 s := by
  induction s generalizing n with
  | nil => simp [appendDigits]
  | cons c s ih =>
    have hcons (m : Nat) :
        appendDigits m (c :: s) = appendDigits (10 * m + (c.toNat - '0'.toNat)) s := rfl
    rw [hcons, hcons, ih, ih (10 * 0 + (c.toNat - '0'.toNat)), List.length_cons]
    ring

lemma digitsValue_eq {s : List Char} (hne : s ≠ []) (hs : s.all Char.isDigit) :
    digitsValue s = some (appendDigits 0 s) := if_pos ⟨hne, hs⟩

/-- The number of digits with at most one point, before, between or behind them. -/
def unsignedValue (s : List Char) : Option ℚ :=
  let int  := s.takeWhile (· ≠ '.')
  let frac := (s.dropWhile (· ≠ '.')).tail
  (digitsValue (int ++ frac)).map fun n => (n : ℚ) / 10 ^ frac.length

/-- The number of such digits with at most one sign before them. -/
def decimalValue : List Char → Option ℚ
  | '-' :: s => (unsignedValue s).map (- ·)
  | '+' :: s => unsignedValue s
  | s        => unsignedValue s

lemma ne_point_of_isDigit {s : List Char} (hs : s.all Char.isDigit) {c : Char} (hc : c ∈ s) :
    decide (c ≠ '.') = true := by
  apply decide_eq_true
  rintro rfl
  exact absurd (List.all_eq_true.1 hs _ hc) (by decide)

lemma unsignedValue_point {ds fs : List Char} (hds : ds.all Char.isDigit)
    (hfs : fs.all Char.isDigit) (hne : ds ++ fs ≠ []) :
    unsignedValue (ds ++ '.' :: fs) = some ((appendDigits 0 (ds ++ fs) : ℚ) / 10 ^ fs.length) := by
  have hpoint := fun c hc => ne_point_of_isDigit hds (c := c) hc
  have hall : (ds ++ fs).all Char.isDigit := by
    rw [List.all_append, hds, hfs]
    rfl
  simp only [unsignedValue, List.takeWhile_append_of_pos hpoint,
    List.dropWhile_append_of_pos hpoint]
  simp [digitsValue_eq hne hall]

lemma unsignedValue_digits {ds : List Char} (hds : ds.all Char.isDigit) (hne : ds ≠ []) :
    unsignedValue ds = some (appendDigits 0 ds : ℚ) := by
  have hpoint := fun c hc => ne_point_of_isDigit hds (c := c) hc
  have htake := List.takeWhile_eq_self_iff.2 hpoint
  have hdrop := List.dropWhile_eq_nil_iff.2 hpoint
  simp only [unsignedValue, htake, hdrop, List.tail_nil, List.append_nil, digitsValue_eq hne hds]
  simp

end HftBot.Core
