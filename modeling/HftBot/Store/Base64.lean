import Mathlib.Algebra.Ring.Nat
import HftBot.Core.Utf8

/-!
# Base64

The codec of `storage.cpp` for payloads that are not text. The decoder shifts six bits at a time
into a 32-bit accumulator, which wraps, and takes a byte out whenever there are eight; bytes that
are not in the alphabet are skipped, and it stops at the padding.
-/

namespace HftBot.Storage

open HftBot.Core HftBot.Core.Utf8

def kB64 : Bytes := ascii "ABCDEFGHIJKLMNOPQRSTUVWXYZabcdefghijklmnopqrstuvwxyz0123456789+/"

/-- The character of the low six bits. -/
def sextet (v : Nat) : UInt8 := kB64.getD (v &&& 63) 0

def base64Encode : Bytes → Bytes
  | a :: b :: c :: rest =>
    let v := a.toNat <<< 16 ||| b.toNat <<< 8 ||| c.toNat
    sextet (v >>> 18) :: sextet (v >>> 12) :: sextet (v >>> 6) :: sextet v :: base64Encode rest
  | [a, b]              =>
    let v := a.toNat <<< 16 ||| b.toNat <<< 8
    [sextet (v >>> 18), sextet (v >>> 12), sextet (v >>> 6), '='.toUInt8]
  | [a]                 =>
    let v := a.toNat <<< 16
    [sextet (v >>> 18), sextet (v >>> 12), '='.toUInt8, '='.toUInt8]
  | []                  => []

/-- `none` is the source's `-1`. -/
def b64val (c : UInt8) : Option Nat :=
  if 'A'.toUInt8 ≤ c ∧ c ≤ 'Z'.toUInt8 then some (c.toNat - 'A'.toNat)
  else if 'a'.toUInt8 ≤ c ∧ c ≤ 'z'.toUInt8 then some (c.toNat - 'a'.toNat + 26)
  else if '0'.toUInt8 ≤ c ∧ c ≤ '9'.toUInt8 then some (c.toNat - '0'.toNat + 52)
  else if c = '+'.toUInt8 then some 62
  else if c = '/'.toUInt8 then some 63
  else none

/-- The loop of `base64_decode`. The accumulator is signed in the source; the eight bits taken out
of it are never its highest ones. -/
def base64Loop (buf bits : Nat) : Bytes → Bytes
  | []     => []
  | c :: t =>
    if c = '='.toUInt8 then []
    else
      match b64val c with
      | none   => base64Loop buf bits t
      | some v =>
        let buf := (buf <<< 6 ||| v) % 2 ^ 32
        if 8 ≤ bits + 6 then
          UInt8.ofNat (buf >>> (bits + 6 - 8) &&& 0xff) :: base64Loop buf (bits + 6 - 8) t
        else base64Loop buf (bits + 6) t

def base64Decode (s : Bytes) : Bytes := base64Loop 0 0 s

/-! ### Round trip -/

lemma sextet_spec : ∀ i < 64, IsAscii (sextet i) ∧ sextet i ≠ '='.toUInt8 ∧
    b64val (sextet i) = some i := by
  decide +kernel

lemma sextet_mod (v : Nat) : sextet v = sextet (v % 64) := by
  have h : v &&& 63 = v % 64 &&& 63 := by
    rw [Nat.and_two_pow_sub_one_eq_mod v 6, Nat.and_two_pow_sub_one_eq_mod (v % 64) 6]
    simp
  rw [sextet, sextet, h]

/-- What the accumulator holds after one more character. -/
def accumulate (buf v : Nat) : Nat := (buf * 64 + v % 64) % 2 ^ 32

lemma accumulate_eq (buf v : Nat) : (buf <<< 6 ||| v % 64) % 2 ^ 32 = accumulate buf v := by
  have hlt : v % 64 < 2 ^ 6 := Nat.mod_lt v (by decide)
  rw [← Nat.shiftLeft_add_eq_or_of_lt hlt, Nat.shiftLeft_eq, accumulate]

lemma ofNat_and (n : Nat) : UInt8.ofNat (n &&& 0xff) = UInt8.ofNat n := by
  rw [Nat.and_two_pow_sub_one_eq_mod n 8]
  exact UInt8.toNat_inj.1 (by simp)

lemma base64Loop_fill (buf v : Nat) (t : Bytes) :
    base64Loop buf 0 (sextet v :: t) = base64Loop (accumulate buf v) 6 t := by
  obtain ⟨-, hne, hval⟩ := sextet_spec (v % 64) (Nat.mod_lt v (by decide))
  rw [sextet_mod, base64Loop, if_neg hne, hval]
  simp only [accumulate_eq]
  rfl

lemma base64Loop_take (buf bits v : Nat) (t : Bytes) :
    base64Loop buf (bits + 2) (sextet v :: t) =
      UInt8.ofNat (accumulate buf v / 2 ^ bits) :: base64Loop (accumulate buf v) bits t := by
  obtain ⟨-, hne, hval⟩ := sextet_spec (v % 64) (Nat.mod_lt v (by decide))
  rw [sextet_mod, base64Loop, if_neg hne, hval]
  simp only [accumulate_eq]
  rw [if_pos (by omega), ofNat_and, Nat.shiftRight_eq_div_pow]
  rfl

lemma base64Loop_padding (buf bits : Nat) (t : Bytes) :
    base64Loop buf bits ('='.toUInt8 :: t) = [] := by
  rw [base64Loop, if_pos rfl]

lemma ofNat_eq_of_mod {n : Nat} {a : UInt8} (h : n % 256 = a.toNat) : UInt8.ofNat n = a :=
  UInt8.toNat_inj.1 (by simpa using h)

/-- Three bytes as one number. -/
lemma or_eq_add (a b c : UInt8) : a.toNat <<< 16 ||| b.toNat <<< 8 ||| c.toNat =
    a.toNat * 2 ^ 16 + b.toNat * 2 ^ 8 + c.toNat := by
  have hb := b.toNat_lt
  have hc := c.toNat_lt
  have hbc : b.toNat <<< 8 ||| c.toNat = b.toNat * 2 ^ 8 + c.toNat := by
    rw [← Nat.shiftLeft_add_eq_or_of_lt hc, Nat.shiftLeft_eq]
  rw [Nat.or_assoc, hbc, ← Nat.shiftLeft_add_eq_or_of_lt (by omega), Nat.shiftLeft_eq,
    Nat.add_assoc]

section

variable {a b c : UInt8} {buf n : Nat}

/-- The first byte is complete with the second character. -/
lemma first_byte (h : n / 2 ^ 16 % 256 = a.toNat) :
    UInt8.ofNat (accumulate (accumulate buf (n >>> 18)) (n >>> 12) / 2 ^ 4) = a := by
  refine ofNat_eq_of_mod ?_
  simp only [accumulate, Nat.shiftRight_eq_div_pow]
  omega

/-- The second byte is complete with the third character. -/
lemma second_byte (h : n / 2 ^ 8 % 256 = b.toNat) :
    UInt8.ofNat (accumulate (accumulate buf (n >>> 12)) (n >>> 6) / 2 ^ 2) = b := by
  refine ofNat_eq_of_mod ?_
  simp only [accumulate, Nat.shiftRight_eq_div_pow]
  omega

/-- The third byte is complete with the fourth character. -/
lemma third_byte (h : n % 256 = c.toNat) :
    UInt8.ofNat (accumulate (accumulate buf (n >>> 6)) n / 2 ^ 0) = c := by
  refine ofNat_eq_of_mod ?_
  simp only [accumulate, Nat.shiftRight_eq_div_pow]
  omega

end

/-- Whatever is left in the accumulator, the decoder gives back what was encoded. -/
lemma base64Loop_encode (buf : Nat) (s : Bytes) : base64Loop buf 0 (base64Encode s) = s := by
  induction s using base64Encode.induct generalizing buf with
  | case1 a b c rest ih =>
    have ha := a.toNat_lt
    have hb := b.toNat_lt
    have hc := c.toNat_lt
    rw [base64Encode, or_eq_add, base64Loop_fill, base64Loop_take _ 4, base64Loop_take _ 2,
      base64Loop_take _ 0, ih, first_byte (a := a) (by omega), second_byte (b := b) (by omega),
      third_byte (c := c) (by omega)]
  | case2 a b =>
    have ha := a.toNat_lt
    have hb := b.toNat_lt
    have hv : a.toNat <<< 16 ||| b.toNat <<< 8 = a.toNat * 2 ^ 16 + b.toNat * 2 ^ 8 := by
      simpa using or_eq_add a b 0
    rw [base64Encode, hv, base64Loop_fill, base64Loop_take _ 4, base64Loop_take _ 2,
      base64Loop_padding, first_byte (a := a) (by omega), second_byte (b := b) (by omega)]
  | case3 a =>
    have ha := a.toNat_lt
    rw [base64Encode, Nat.shiftLeft_eq, base64Loop_fill, base64Loop_take _ 4, base64Loop_padding,
      first_byte (a := a) (by omega)]
  | case4 => rfl

/-- Every byte string survives the codec. -/
theorem base64Decode_encode (s : Bytes) : base64Decode (base64Encode s) = s := base64Loop_encode 0 s

/-- A property of the alphabet and the padding is one of all that is written. -/
lemma forall_mem_base64Encode {P : UInt8 → Prop} (hsextet : ∀ v < 64, P (sextet v))
    (hpad : P '='.toUInt8) (s : Bytes) : ∀ b ∈ base64Encode s, P b := by
  have hall : ∀ v, P (sextet v) := by
    intro v
    rw [sextet_mod]
    exact hsextet _ (Nat.mod_lt v (by decide))
  induction s using base64Encode.induct with
  | case1 a b c rest ih =>
    simp only [base64Encode, List.forall_mem_cons]
    exact ⟨hall _, hall _, hall _, hall _, ih⟩
  | case2 a b =>
    simp only [base64Encode, List.forall_mem_cons]
    exact ⟨hall _, hall _, hall _, hpad, fun _ hb => absurd hb List.not_mem_nil⟩
  | case3 a =>
    simp only [base64Encode, List.forall_mem_cons]
    exact ⟨hall _, hall _, hpad, hpad, fun _ hb => absurd hb List.not_mem_nil⟩
  | case4 => exact fun _ hb => absurd hb List.not_mem_nil

/-! ### What is written -/

lemma sextet_mem (v : Nat) : sextet v ∈ kB64 := by
  have hlt : v &&& 63 < kB64.length := by
    rw [Nat.and_two_pow_sub_one_eq_mod v 6]
    exact Nat.mod_lt v (by decide)
  rw [sextet, List.getD_eq_getElem?_getD, List.getElem?_eq_getElem hlt, Option.getD_some]
  exact List.getElem_mem hlt

/-- Four characters for every three bytes, the last group being filled up. -/
lemma length_base64Encode (s : Bytes) : (base64Encode s).length = 4 * ((s.length + 2) / 3) := by
  induction s using base64Encode.induct with
  | case1 a b c rest ih =>
    simp only [base64Encode, List.length_cons, ih]
    omega
  | case2 a b => simp [base64Encode]
  | case3 a => simp [base64Encode]
  | case4 => simp [base64Encode]

/-- The alphabet comes first, and at most two bytes of padding close the text. -/
lemma exists_base64Encode_eq (s : Bytes) : ∃ body pad,
    base64Encode s = body ++ List.replicate pad '='.toUInt8 ∧ pad ≤ 2 ∧ ∀ c ∈ body, c ∈ kB64 := by
  induction s using base64Encode.induct with
  | case1 a b c rest ih =>
    obtain ⟨body, pad, heq, hpad, hbody⟩ := ih
    rw [base64Encode, heq]
    refine ⟨_ :: _ :: _ :: _ :: body, pad, rfl, hpad, ?_⟩
    simp only [List.forall_mem_cons]
    exact ⟨sextet_mem _, sextet_mem _, sextet_mem _, sextet_mem _, hbody⟩
  | case2 a b =>
    rw [base64Encode]
    refine ⟨[_, _, _], 1, rfl, by decide, ?_⟩
    simp only [List.forall_mem_cons]
    exact ⟨sextet_mem _, sextet_mem _, sextet_mem _, fun _ hc => absurd hc List.not_mem_nil⟩
  | case3 a =>
    rw [base64Encode]
    refine ⟨[_, _], 2, rfl, le_rfl, ?_⟩
    simp only [List.forall_mem_cons]
    exact ⟨sextet_mem _, sextet_mem _, fun _ hc => absurd hc List.not_mem_nil⟩
  | case4 =>
    rw [base64Encode]
    exact ⟨[], 0, rfl, by decide, fun _ hc => absurd hc List.not_mem_nil⟩

/-- Every byte string survives the codec, whose text has the length and the shape of the
standard. -/
theorem base64_codec (s : Bytes) :
    base64Decode (base64Encode s) = s ∧
    (base64Encode s).length = 4 * ((s.length + 2) / 3) ∧
    ∃ body pad, base64Encode s = body ++ List.replicate pad '='.toUInt8 ∧ pad ≤ 2 ∧
      ∀ c ∈ body, c ∈ kB64 :=
  ⟨base64Decode_encode s, length_base64Encode s, exists_base64Encode_eq s⟩

end HftBot.Storage
