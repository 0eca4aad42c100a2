import Mathlib.Data.List.Basic

/-!
# UTF-8

A byte string is valid UTF-8 when it is the encoding of a list of characters, which excludes
overlong forms, surrogates and everything above `U+10FFFF`. The bytes below 128 stand for themselves
and occur in no other encoding, so a text can be split at any of them.
-/

namespace HftBot.Core

abbrev Bytes := List UInt8

namespace Utf8

def encode (cs : List Char) : Bytes := cs.flatMap String.utf8EncodeChar

def Valid (s : Bytes) : Prop := ∃ cs, s = encode cs

lemma validateUTF8_iff (s : Bytes) : s.toByteArray.validateUTF8 = true ↔ Valid s := by
  rw [ByteArray.validateUTF8_eq_true_iff]
  constructor
  · rintro ⟨cs, hcs⟩
    refine ⟨cs, ?_⟩
    rw [List.utf8Encode, ByteArray.ext_iff, List.data_toByteArray, List.data_toByteArray] at hcs
    simpa [encode] using hcs
  · rintro ⟨cs, rfl⟩
    exact ⟨cs, rfl⟩

instance (s : Bytes) : Decidable (Valid s) := decidable_of_iff _ (validateUTF8_iff s)

/-- A byte that is a character of its own. -/
def IsAscii (b : UInt8) : Prop := b < 128

instance (b : UInt8) : Decidable (IsAscii b) := inferInstanceAs (Decidable (b < 128))

/-- The bytes of a text of such characters. -/
def ascii (s : String) : Bytes := s.toList.map Char.toUInt8

/-- The bytes of a text are looked at, and not all there are. -/
lemma forall_mem_of_all {P : UInt8 → Prop} [DecidablePred P] {s : Bytes}
    (h : s.all (fun b => P b) = true) : ∀ b ∈ s, P b :=
  fun b hb => of_decide_eq_true (List.all_eq_true.1 h b hb)

/-! ### Encodings of characters -/

lemma encode_append (cs ds : List Char) : encode (cs ++ ds) = encode cs ++ encode ds :=
  List.flatMap_append

lemma encode_cons (c : Char) (cs : List Char) :
    encode (c :: cs) = String.utf8EncodeChar c ++ encode cs :=
  List.flatMap_cons

lemma encode_inj {cs ds : List Char} (h : encode cs = encode ds) : cs = ds := by
  refine String.ofList_injective (String.toByteArray_inj.1 ?_)
  exact congrArg List.toByteArray h

lemma not_isAscii_or {a b : UInt8} (hb : ¬ IsAscii b) : ¬ IsAscii (a ||| b) := by
  rw [IsAscii, UInt8.lt_iff_toNat_lt, Nat.not_lt] at hb ⊢
  rw [UInt8.toNat_or]
  exact Nat.le_trans hb Nat.right_le_or

/-- An encoding that has an ASCII byte is that byte. -/
lemma utf8EncodeChar_eq_of_mem {c : Char} {b : UInt8} (hb : IsAscii b)
    (hmem : b ∈ String.utf8EncodeChar c) : String.utf8EncodeChar c = [b] := by
  -- the bytes of a longer encoding all have their highest bit set
  have hlong : ∀ a k : UInt8, ¬ IsAscii k → b ≠ a ||| k := by
    rintro a k hk rfl
    exact not_isAscii_or hk hb
  rcases c.utf8Size_eq with h | h | h | h
  · rw [String.utf8EncodeChar_eq_singleton h] at hmem ⊢
    rw [List.mem_singleton.1 hmem]
  · rw [String.utf8EncodeChar_eq_cons_cons h] at hmem
    simp only [List.mem_cons, List.not_mem_nil, or_false] at hmem
    rcases hmem with hmem | hmem <;> exact absurd hmem (hlong _ _ (by decide))
  · rw [String.utf8EncodeChar_eq_cons_cons_cons h] at hmem
    simp only [List.mem_cons, List.not_mem_nil, or_false] at hmem
    rcases hmem with hmem | hmem | hmem <;> exact absurd hmem (hlong _ _ (by decide))
  · rw [String.utf8EncodeChar_eq_cons_cons_cons_cons h] at hmem
    simp only [List.mem_cons, List.not_mem_nil, or_false] at hmem
    rcases hmem with hmem | hmem | hmem | hmem <;> exact absurd hmem (hlong _ _ (by decide))

lemma exists_utf8EncodeChar {b : UInt8} (hb : IsAscii b) :
    ∃ c : Char, String.utf8EncodeChar c = [b] := by
  refine ⟨Char.ofUInt8 b, ?_⟩
  have hsize : (Char.ofUInt8 b).utf8Size = 1 := by
    rw [Char.utf8Size_eq_one_iff, UInt32.le_iff_toNat_le]
    rw [IsAscii, UInt8.lt_iff_toNat_lt] at hb
    exact Nat.le_of_lt_succ hb
  have hval : (Char.ofUInt8 b).val = b.toUInt32 := rfl
  rw [String.utf8EncodeChar_eq_singleton hsize, hval, UInt8.toUInt8_toUInt32]

/-! ### Valid texts -/

variable {s t : Bytes} {b : UInt8}

lemma Valid.nil : Valid [] := ⟨[], rfl⟩

lemma Valid.append (hs : Valid s) (ht : Valid t) : Valid (s ++ t) := by
  obtain ⟨cs, rfl⟩ := hs
  obtain ⟨ds, rfl⟩ := ht
  exact ⟨cs ++ ds, (encode_append cs ds).symm⟩

lemma Valid.cons (hb : IsAscii b) (hs : Valid s) : Valid (b :: s) := by
  obtain ⟨c, hc⟩ := exists_utf8EncodeChar hb
  obtain ⟨cs, rfl⟩ := hs
  exact ⟨c :: cs, by rw [encode_cons, hc]; rfl⟩

/-- A text can be split at an ASCII byte. -/
theorem valid_append_cons_iff (hb : IsAscii b) : Valid (s ++ b :: t) ↔ Valid s ∧ Valid t := by
  constructor
  · rintro ⟨cs, hcs⟩
    induction cs generalizing s with
    | nil => exact absurd hcs (by simp [encode])
    | cons c cs ih =>
      rw [encode_cons, List.append_eq_append_iff] at hcs
      rcases hcs with ⟨z, hc, hz⟩ | ⟨z, rfl, hz⟩
      · -- the split lies inside the encoding of `c`
        cases z with
        | nil =>
          rw [List.append_nil] at hc
          obtain ⟨-, ht⟩ := ih (s := []) (by simpa using hz)
          exact ⟨⟨[c], by simp [encode, ← hc]⟩, ht⟩
        | cons b' z =>
          obtain ⟨rfl, rfl⟩ := List.cons.inj hz
          have hsingle := utf8EncodeChar_eq_of_mem hb (by rw [hc]; simp)
          rw [hsingle] at hc
          cases s with
          | nil =>
            obtain rfl : z = [] := by simpa using hc.symm
            exact ⟨.nil, cs, rfl⟩
          | cons a s => simp at hc
      · obtain ⟨hs, ht⟩ := ih hz.symm
        exact ⟨Valid.append ⟨[c], by simp [encode]⟩ hs, ht⟩
  · rintro ⟨hs, ht⟩
    exact hs.append (ht.cons hb)

lemma valid_of_isAscii (h : ∀ a ∈ s, IsAscii a) : Valid s := by
  induction s with
  | nil => exact .nil
  | cons a s ih =>
    exact (ih fun b hb => h b (List.mem_cons_of_mem a hb)).cons (h a List.mem_cons_self)

lemma valid_cons_iff (hb : IsAscii b) : Valid (b :: t) ↔ Valid t := by
  have h := valid_append_cons_iff (s := []) (t := t) hb
  rw [List.nil_append] at h
  rw [h]
  exact and_iff_right .nil

/-- ASCII characters in front of a text do not matter. -/
lemma valid_append_iff (hs : ∀ a ∈ s, IsAscii a) : Valid (s ++ t) ↔ Valid t := by
  induction s with
  | nil => exact Iff.rfl
  | cons a s ih =>
    rw [List.cons_append, valid_cons_iff (hs a List.mem_cons_self)]
    exact ih fun b hb => hs b (List.mem_cons_of_mem a hb)

end Utf8

end HftBot.Core
