import Mathlib.Algebra.Ring.Int.Defs
import Mathlib.Algebra.Ring.Nat
import Mathlib.Data.List.Basic

/-!
# Fixed-point numbers

`fixedpoint.hpp`: exact parsing of decimal strings into prices (ten-thousandths of a dollar) and
counts (hundredths of a contract), by digit accumulation, and the canonical text of a count.
-/

namespace HftBot

def kPriceMin : Int := 0

def kPriceMax : Int := 10000

namespace FixedPoint

def digit (c : Char) : Nat := c.toNat - '0'.toNat

/-- The digits before the point; a magnitude beyond 10¹² is refused. -/
def intDigits (n : Nat) : List Char → Option (Nat × List Char)
  | []      => some (n, [])
  | c :: cs =>
    if c.isDigit then
      let n := 10 * n + digit c
      if n > 1000000000000 then none else intDigits n cs
    else some (n, c :: cs)

/-- The digits behind the point with their number; more than `maxFrac` are refused. -/
def fracDigits (maxFrac k n : Nat) : List Char → Option (Nat × Nat × List Char)
  | []      => some (k, n, [])
  | c :: cs =>
    if c.isDigit then
      if k ≥ maxFrac then none else fracDigits maxFrac (k + 1) (10 * n + digit c) cs
    else some (k, n, c :: cs)

/-- An unsigned decimal with at most `maxFrac` digits behind the point, scaled by their power. -/
def parseScaledUnsigned (s : List Char) (maxFrac : Nat) : Option Int :=
  if s.isEmpty || s.length > 24 then none
  else do
    let (int, rest) ← intDigits 0 s
    let (k, frac, rest') ←
      match rest with
      | '.' :: cs => fracDigits maxFrac 0 0 cs
      | _         => some (0, 0, rest)
    let any := rest.length < s.length || k > 0
    if !rest'.isEmpty || !any then none
    else some ((int * 10 ^ maxFrac + frac * 10 ^ (maxFrac - k) : Nat) : Int)

def signed (s : List Char) : Bool := s.head? = some '-' || s.head? = some '+'

def parsePriceE4 (s : List Char) : Option Int :=
  if signed s then none
  else (parseScaledUnsigned s 4).filter fun v => kPriceMin ≤ v ∧ v ≤ kPriceMax

def parseCountFp (s : List Char) : Option Int :=
  if signed s then none else parseScaledUnsigned s 2

def parseDeltaFp (s : List Char) : Option Int :=
  if signed s then
    (parseScaledUnsigned s.tail 2).map fun v => if s.head? = some '-' then -v else v
  else parseScaledUnsigned s 2

/-- `%02lld` of a number below 100. -/
def twoDigits (n : Nat) : List Char := [Nat.digitChar (n / 10), Nat.digitChar (n % 10)]

/-- The canonical count string. -/
def formatCountFp (v : Int) : List Char :=
  let a := v.natAbs
  (if v < 0 then ['-'] else []) ++ Nat.toDigits 10 (a / 100) ++ '.' :: twoDigits (a % 100)

end FixedPoint

end HftBot
