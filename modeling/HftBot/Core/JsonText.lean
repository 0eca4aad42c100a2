import Mathlib.Algebra.Ring.Nat
import HftBot.Core.Utf8

/-!
# JSON texts

A reader of JSON texts as the standard has them: it takes bytes that are valid UTF-8, a value with
white space around it and nothing else, and unescapes strings. A number is kept as its token.
-/

namespace HftBot.Core.JsonText

open HftBot.Core.Utf8

inductive Value
  | null
  | bool (b : Bool)
  | num (token : Bytes)
  | str (s : Bytes)
  | arr (items : List Value)
  | obj (members : List (Bytes × Value))

/-! ### Strings -/

/-- A string up to its closing quote, with its escapes, and the rest of the text. -/
def quoted : Bytes → Option (Bytes × Bytes)
  | []     => none
  | b :: t =>
    if b = '"'.toUInt8 then some ([], t)
    else if b = '\\'.toUInt8 then
      match t with
      | []     => none
      | e :: t => (quoted t).map fun (s, rest) => (b :: e :: s, rest)
    else (quoted t).map fun (s, rest) => (b :: s, rest)

def hexDigit (b : UInt8) : Option Nat :=
  if '0'.toUInt8 ≤ b ∧ b ≤ '9'.toUInt8 then some (b.toNat - '0'.toNat)
  else if 'a'.toUInt8 ≤ b ∧ b ≤ 'f'.toUInt8 then some (b.toNat - 'a'.toNat + 10)
  else if 'A'.toUInt8 ≤ b ∧ b ≤ 'F'.toUInt8 then some (b.toNat - 'A'.toNat + 10)
  else none

/-- The code unit that four digits stand for. -/
def codeUnit (a b c d : UInt8) : Option Nat := do
  return (((← hexDigit a) * 16 + (← hexDigit b)) * 16 + (← hexDigit c)) * 16 + (← hexDigit d)

/-- What a single letter after a backslash stands for. -/
def escapeLetter (e : UInt8) : Option UInt8 :=
  if e = '"'.toUInt8 ∨ e = '\\'.toUInt8 ∨ e = '/'.toUInt8 then some e
  else if e = 'b'.toUInt8 then some 0x08
  else if e = 'f'.toUInt8 then some 0x0c
  else if e = 'n'.toUInt8 then some 0x0a
  else if e = 'r'.toUInt8 then some 0x0d
  else if e = 't'.toUInt8 then some 0x09
  else none

/-- The characters of a string without its escapes. Two code units may stand for one character, and
neither of them stands alone. -/
def unescape : Bytes → Option Bytes
  | []     => some []
  | b :: t =>
    if b = '\\'.toUInt8 then
      match t with
      | []     => none
      | e :: t =>
        if e = 'u'.toUInt8 then
          match t with
          | h₁ :: h₂ :: h₃ :: h₄ :: t =>
            match codeUnit h₁ h₂ h₃ h₄ with
            | none   => none
            | some n =>
              if 0xd800 ≤ n ∧ n < 0xdc00 then
                match t with
                | b' :: u :: l₁ :: l₂ :: l₃ :: l₄ :: t =>
                  match codeUnit l₁ l₂ l₃ l₄ with
                  | none   => none
                  | some m =>
                    if b' = '\\'.toUInt8 ∧ u = 'u'.toUInt8 ∧ 0xdc00 ≤ m ∧ m < 0xe000 then
                      (unescape t).map (encode
                        [Char.ofNat (0x10000 + (n - 0xd800) * 0x400 + (m - 0xdc00))] ++ ·)
                    else none
                | _ => none
              else if 0xdc00 ≤ n ∧ n < 0xe000 then none
              else (unescape t).map (encode [Char.ofNat n] ++ ·)
          | _ => none
        else
          match escapeLetter e with
          | none   => none
          | some c => (unescape t).map (c :: ·)
    else if b < 0x20 then none
    else (unescape t).map (b :: ·)

/-- A string after its opening quote. -/
def string (t : Bytes) : Option (Bytes × Bytes) := do
  let (s, rest) ← quoted t
  return (← unescape s, rest)

/-! ### Numbers -/

def isDigit (b : UInt8) : Bool := '0'.toUInt8 ≤ b ∧ b ≤ '9'.toUInt8

/-- The digits in front of a text, of which there is one at least. -/
def digits (t : Bytes) : Option (Bytes × Bytes) :=
  if t.takeWhile isDigit = [] then none else some (t.takeWhile isDigit, t.dropWhile isDigit)

/-- An integer has no leading zeros. -/
def integer (t : Bytes) : Option (Bytes × Bytes) :=
  (digits t).filter fun (ds, _) => ds.length = 1 ∨ ds.head? ≠ some '0'.toUInt8

/-- One byte that may stand in front of a text. -/
def optionally (p : UInt8 → Bool) : Bytes → Bytes × Bytes
  | []     => ([], [])
  | b :: t => if p b then ([b], t) else ([], b :: t)

def fraction (t : Bytes) : Option (Bytes × Bytes) :=
  match optionally (· = '.'.toUInt8) t with
  | ([], _)     => some ([], t)
  | (dot, rest) => (digits rest).map fun (ds, rest) => (dot ++ ds, rest)

def exponent (t : Bytes) : Option (Bytes × Bytes) :=
  match optionally (fun b => b = 'e'.toUInt8 ∨ b = 'E'.toUInt8) t with
  | ([], _)   => some ([], t)
  | (e, rest) =>
    let (sign, rest) := optionally (fun b => b = '+'.toUInt8 ∨ b = '-'.toUInt8) rest
    (digits rest).map fun (ds, rest) => (e ++ sign ++ ds, rest)

def number (t : Bytes) : Option (Bytes × Bytes) := do
  let (sign, t) := optionally (· = '-'.toUInt8) t
  let (whole, t) ← integer t
  let (frac, t) ← fraction t
  let (exp, t) ← exponent t
  return (sign ++ whole ++ frac ++ exp, t)

/-! ### Values -/

def isSpace (b : UInt8) : Bool := b = 0x20 ∨ b = 0x09 ∨ b = 0x0a ∨ b = 0x0d

def skipSpace (t : Bytes) : Bytes := t.dropWhile isSpace

def literal (word : Bytes) (v : Value) (t : Bytes) : Option (Value × Bytes) :=
  if word.isPrefixOf t then some (v, t.drop word.length) else none

section

variable {α : Type} (item : Bytes → Option (α × Bytes)) (close : UInt8)

/-- Items with commas between them, up to a closing byte. -/
def items : Nat → Bytes → Option (List α × Bytes)
  | 0,     _ => none
  | n + 1, t => do
    let (a, t) ← item (skipSpace t)
    match skipSpace t with
    | []     => none
    | b :: t =>
      if b = close then some ([a], t)
      else if b = ','.toUInt8 then (items n t).map fun (as, rest) => (a :: as, rest)
      else none

/-- The inside of an array or an object, which may be empty. -/
def container (t : Bytes) : Option (List α × Bytes) :=
  match skipSpace t with
  | []     => none
  | b :: t => if b = close then some ([], t) else items item close (b :: t).length (b :: t)

end

/-- A name, a colon and a value. -/
def member (value : Bytes → Option (Value × Bytes)) : Bytes → Option ((Bytes × Value) × Bytes)
  | []     => none
  | b :: t =>
    if b = '"'.toUInt8 then do
      let (name, t) ← string t
      match skipSpace t with
      | []     => none
      | c :: t =>
        if c = ':'.toUInt8 then (value (skipSpace t)).map fun (v, rest) => ((name, v), rest)
        else none
    else none

/-- A value at the front of a text. The number bounds how deep it is nested. -/
def value : Nat → Bytes → Option (Value × Bytes)
  | 0,     _      => none
  | _ + 1, []     => none
  | n + 1, b :: t =>
    if b = '{'.toUInt8 then
      (container (member (value n)) '}'.toUInt8 t).map fun (ms, rest) => (.obj ms, rest)
    else if b = '['.toUInt8 then
      (container (value n) ']'.toUInt8 t).map fun (vs, rest) => (.arr vs, rest)
    else if b = '"'.toUInt8 then (string t).map fun (s, rest) => (.str s, rest)
    else if b = 'n'.toUInt8 then literal (ascii "null") .null (b :: t)
    else if b = 't'.toUInt8 then literal (ascii "true") (.bool true) (b :: t)
    else if b = 'f'.toUInt8 then literal (ascii "false") (.bool false) (b :: t)
    else (number (b :: t)).map fun (token, rest) => (.num token, rest)

/-- The value that a whole text is. No text is nested deeper than it is long. -/
def read (t : Bytes) : Option Value :=
  if Valid t then
    match value t.length (skipSpace t) with
    | some (v, rest) => if skipSpace rest = [] then some v else none
    | none           => none
  else none

/-! ### Fields of an object -/

/-- Decimal value of a nonempty string of digits. -/
def natOf (ds : Bytes) : Option Nat :=
  if ds ≠ [] ∧ ds.all isDigit then
    some (ds.foldl (fun n b => 10 * n + (b.toNat - '0'.toNat)) 0)
  else none

namespace Value

def asObject : Value → Option (List (Bytes × Value))
  | obj members => some members
  | _           => none

def asString : Value → Option Bytes
  | str s => some s
  | _     => none

def asUint64 : Value → Option UInt64
  | num token => ((natOf token).filter (· < 2 ^ 64)).map UInt64.ofNat
  | _         => none

def asInt64 : Value → Option Int64
  | num []       => none
  | num (b :: t) =>
    if b = '-'.toUInt8 then
      ((natOf t).filter (· ≤ 2 ^ 63)).map fun n : Nat => Int64.ofInt (-(n : Int))
    else ((natOf (b :: t)).filter (· < 2 ^ 63)).map fun n : Nat => Int64.ofInt n
  | _            => none

end Value

/-- The first member of that name. -/
def field (members : List (Bytes × Value)) (name : String) : Option Value :=
  members.lookup (ascii name)

end HftBot.Core.JsonText
