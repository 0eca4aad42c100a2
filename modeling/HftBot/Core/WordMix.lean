import Mathlib.Data.BitVec
import Mathlib.Tactic.Common

/-!
# Mixing of machine words

A word xored with a shift of itself and a product with an odd constant lose nothing, so that a
generator built from them takes every value.
-/

namespace HftBot.Core

/-- What three shifts push out of the word, xoring with one shift can be undone. -/
lemma exists_xor_ushiftRight {w k : Nat} (hk : w ≤ k + k + k) (z : BitVec w) :
    ∃ x : BitVec w, x ^^^ x >>> k = z := by
  refine ⟨z ^^^ z >>> k ^^^ z >>> (k + k), ?_⟩
  apply BitVec.eq_of_getLsbD_eq
  intro i _
  have hout : z.getLsbD (k + (k + (k + i))) = false := BitVec.getLsbD_of_ge z _ (by omega)
  simp only [BitVec.getLsbD_xor, BitVec.getLsbD_ushiftRight, Nat.add_assoc, hout]
  generalize z.getLsbD i = a
  generalize z.getLsbD (k + i) = b
  generalize z.getLsbD (k + (k + i)) = c
  cases a <;> cases b <;> cases c <;> rfl

lemma exists_xor_shiftRight {k : UInt64} (hk : 22 ≤ k.toNat ∧ k.toNat < 64) (z : UInt64) :
    ∃ x : UInt64, x ^^^ x >>> k = z := by
  obtain ⟨x, hx⟩ := exists_xor_ushiftRight (k := k.toNat) (by omega) z.toBitVec
  refine ⟨⟨x⟩, UInt64.toBitVec_inj.1 ?_⟩
  have hmod : (k.toBitVec % 64).toNat = k.toNat := Nat.mod_eq_of_lt hk.2
  rw [UInt64.toBitVec_xor, UInt64.toBitVec_shiftRight, BitVec.ushiftRight_eq', hmod]
  exact hx

/-- A product with a constant that has an inverse can be undone. -/
lemma exists_mul {c d : UInt64} (h : d * c = 1) (z : UInt64) : ∃ x : UInt64, x * c = z :=
  ⟨z * d, by rw [UInt64.mul_assoc, h, UInt64.mul_one]⟩

end HftBot.Core
