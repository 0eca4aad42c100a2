import Mathlib.Algebra.Ring.Int.Defs
import Mathlib.Algebra.Ring.Nat
import Mathlib.Tactic.Common

/-!
# Machine integers

Signed arithmetic that is undefined outside its width has no result there. A conversion to a smaller
width keeps the value modulo that width.
-/

namespace HftBot.Core

/-- The values of a signed 64-bit integer. -/
def InInt64 (x : Int) : Prop := -2 ^ 63 ≤ x ∧ x < 2 ^ 63

instance (x : Int) : Decidable (InInt64 x) := inferInstanceAs (Decidable (_ ∧ _))

/-- The result of a 64-bit operation whose exact result is `x`. -/
def checked (x : Int) : Option Int := if InInt64 x then some x else none

lemma checked_bind {α : Type} {x : Int} {f : Int → Option α} (hlow : -2 ^ 63 ≤ x)
    (hhigh : x < 2 ^ 63) : (checked x).bind f = f x := by
  rw [checked, if_pos ⟨hlow, hhigh⟩, Option.bind_some]

/-- Conversion to a signed 32-bit integer. -/
def toInt32 (x : Int) : Int := x.bmod (2 ^ 32)

lemma toInt32_bounds (x : Int) : -2 ^ 31 ≤ toInt32 x ∧ toInt32 x < 2 ^ 31 := by
  have hlow := Int.le_bmod (x := x) (m := 2 ^ 32) (by decide)
  have hhigh := Int.bmod_lt (x := x) (m := 2 ^ 32) (by decide)
  rw [toInt32]
  omega

/-- Conversion to a signed 64-bit integer. -/
def toInt64 (x : Int) : Int := x.bmod (2 ^ 64)

lemma toInt64_bounds (x : Int) : -2 ^ 63 ≤ toInt64 x ∧ toInt64 x < 2 ^ 63 := by
  have hlow := Int.le_bmod (x := x) (m := 2 ^ 64) (by decide)
  have hhigh := Int.bmod_lt (x := x) (m := 2 ^ 64) (by decide)
  rw [toInt64]
  omega

/-- Conversion to an unsigned 64-bit integer. -/
def toUInt64 (x : Int) : Nat := (x % 2 ^ 64).toNat

lemma toInt64_of_inInt64 {x : Int} (h : InInt64 x) : toInt64 x = x := by
  obtain ⟨hlow, hhigh⟩ := h
  exact Int.bmod_eq_of_le (by omega) (by omega)

end HftBot.Core
