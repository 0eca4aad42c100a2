import Mathlib.Algebra.Ring.Int.Defs
import Mathlib.Algebra.Ring.Nat
import Mathlib.Data.List.Basic

/-!
# JSON documents

The tree that a JSON parser presents, and the typed field accesses of a strict reader. A number is
kept as its token, so that integer accesses can be exact: they accept a plain decimal integer that
fits the requested width and nothing else.
-/

namespace HftBot.Core

inductive Json
  | null
  | bool (b : Bool)
  | num (token : List Char)
  | str (s : List Char)
  | arr (items : List Json)
  | obj (fields : List (List Char × Json))

/-- Decimal value of a nonempty string of digits. -/
def digitsValue (s : List Char) : Option Nat :=
  if s ≠ [] ∧ s.all Char.isDigit then
    some (s.foldl (fun n c => 10 * n + (c.toNat - '0'.toNat)) 0)
  else none

namespace Json

def asObject : Json → Option (List (List Char × Json))
  | obj fields => some fields
  | _          => none

def asArray : Json → Option (List Json)
  | arr items => some items
  | _         => none

def asString : Json → Option (List Char)
  | str s => some s
  | _     => none

/-- An unsigned 64-bit integer. -/
def asUint64 : Json → Option Nat
  | num token => (digitsValue token).filter (· < 2 ^ 64)
  | _         => none

/-- A signed 64-bit integer. -/
def asInt64 : Json → Option Int
  | num ('-' :: digits) => ((digitsValue digits).filter (· ≤ 2 ^ 63)).map fun n => -(n : Int)
  | num digits          => ((digitsValue digits).filter (· < 2 ^ 63)).map fun n => (n : Int)
  | _                   => none

/-- The first field of that name. The `find_field_unordered` of the source's parser goes on from the
field it found last, so of two fields of one name it may take the second. -/
def field (fields : List (List Char × Json)) (name : String) : Option Json :=
  fields.lookup name.toList

def stringField (fields : List (List Char × Json)) (name : String) : Option (List Char) :=
  (field fields name).bind asString

def uint64Field (fields : List (List Char × Json)) (name : String) : Option Nat :=
  (field fields name).bind asUint64

def int64Field (fields : List (List Char × Json)) (name : String) : Option Int :=
  (field fields name).bind asInt64

def objectField (fields : List (List Char × Json)) (name : String) :
    Option (List (List Char × Json)) :=
  (field fields name).bind asObject

end Json

end HftBot.Core
