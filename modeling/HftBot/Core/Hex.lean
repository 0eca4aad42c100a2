import Mathlib.Data.Nat.Digits.Lemmas
import HftBot.Core.JsonText

/-!
# Hexadecimal numbers of a fixed width

The text of a number in lower-case hexadecimal digits, filled up with zeros in front. A number that
fits the width is told by its text.
-/

namespace HftBot.Core

open HftBot.Core.Utf8

/-- The digit that stands for a number below sixteen. -/
def hexChar (d : Nat) : UInt8 := (Nat.digitChar d).toUInt8

def hexText (width n : Nat) : Bytes := (Nat.digitsAppend 16 width n).reverse.map hexChar

/-- A lower-case hexadecimal digit. -/
def LowerHex (c : UInt8) : Prop :=
  ('0'.toUInt8 ≤ c ∧ c ≤ '9'.toUInt8) ∨ ('a'.toUInt8 ≤ c ∧ c ≤ 'f'.toUInt8)

instance (c : UInt8) : Decidable (LowerHex c) := inferInstanceAs (Decidable (_ ∨ _))

lemma lowerHex_hexChar : ∀ d < 16, LowerHex (hexChar d) := by decide

lemma hexDigit_hexChar : ∀ d < 16, JsonText.hexDigit (hexChar d) = some d := by decide

lemma length_hexText {width n : Nat} (hn : n < 16 ^ width) : (hexText width n).length = width := by
  rw [hexText, List.length_map, List.length_reverse, Nat.length_digitsAppend (by decide) width hn]

lemma lowerHex_of_mem_hexText {width n : Nat} {c : UInt8} (hc : c ∈ hexText width n) :
    LowerHex c := by
  obtain ⟨d, hd, rfl⟩ := List.mem_map.1 hc
  rw [List.mem_reverse] at hd
  exact lowerHex_hexChar d (Nat.lt_of_mem_digitsAppend (by decide) width d hd)

/-- The digits of a text are those of its number. -/
lemma map_hexDigit_hexText (width n : Nat) : (hexText width n).map JsonText.hexDigit =
    (Nat.digitsAppend 16 width n).reverse.map some := by
  rw [hexText, List.map_map]
  refine List.map_congr_left fun d hd => ?_
  rw [List.mem_reverse] at hd
  exact hexDigit_hexChar d (Nat.lt_of_mem_digitsAppend (by decide) width d hd)

/-- Two numbers with the same text are the same. -/
lemma hexText_inj {width n m : Nat} (h : hexText width n = hexText width m) : n = m := by
  have hsome := congrArg (List.map JsonText.hexDigit) h
  rw [map_hexDigit_hexText, map_hexDigit_hexText,
    List.map_inj_right fun _ _ => Option.some.inj] at hsome
  have hvalue : ∀ k, Nat.ofDigits 16 (Nat.digitsAppend 16 width k) = k := by
    intro k
    rw [Nat.digitsAppend, Nat.ofDigits_append_replicate_zero, Nat.ofDigits_digits]
  rw [← hvalue n, ← hvalue m, List.reverse_injective hsome]

end HftBot.Core
