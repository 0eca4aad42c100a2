import Mathlib.Data.List.Infix
import Mathlib.Data.List.TakeWhile
import HftBot.Core.Utf8

/-!
# Request targets

How a server takes a request target apart: the path ends at the first `?` and is cut at `/`, the
query is cut at `&` and each piece of it at its first `=`. Names are taken as they stand; segments
and values are percent-decoded to bytes, and a percent sign that two hexadecimal digits do not
follow stands for itself.
-/

namespace HftBot.Core.Query

open HftBot.Core.Utf8

/-! ### Percent-decoding -/

def hexValue (c : Char) : Option Nat :=
  if '0' ≤ c ∧ c ≤ '9' then some (c.toNat - '0'.toNat)
  else if 'a' ≤ c ∧ c ≤ 'f' then some (c.toNat - 'a'.toNat + 10)
  else if 'A' ≤ c ∧ c ≤ 'F' then some (c.toNat - 'A'.toNat + 10)
  else none

/-- The byte that two digits stand for. -/
def hexByte (a b : Char) : Option UInt8 := do
  return .ofNat (16 * (← hexValue a) + (← hexValue b))

def percentDecode : List Char → Bytes
  | '%' :: a :: b :: s =>
    match hexByte a b with
    | some byte => byte :: percentDecode s
    | none      => '%'.toUInt8 :: percentDecode (a :: b :: s)
  | c :: s => String.utf8EncodeChar c ++ percentDecode s
  | []     => []

/-- A percent sign with two hexadecimal digits behind it. -/
def Escaped (s : List Char) : Prop := ∃ a b, (hexByte a b).isSome ∧ ['%', a, b] <:+: s

lemma escaped_cons_iff {c : Char} {s : List Char} : Escaped (c :: s) ↔
    (∃ a b t, c = '%' ∧ s = a :: b :: t ∧ (hexByte a b).isSome) ∨ Escaped s := by
  simp only [Escaped, List.infix_cons_iff, and_or_left, exists_or]
  refine or_congr_left ?_
  constructor
  · rintro ⟨a, b, hbyte, t, ht⟩
    obtain ⟨rfl, rfl⟩ : '%' = c ∧ a :: b :: t = s := by simpa using ht
    exact ⟨a, b, t, rfl, rfl, hbyte⟩
  · rintro ⟨a, b, t, rfl, rfl, hbyte⟩
    exact ⟨a, b, hbyte, t, rfl⟩

lemma not_escaped_nil : ¬ Escaped [] := by
  rintro ⟨a, b, -, h⟩
  exact absurd h (by simp)

lemma length_utf8EncodeChar_pos (c : Char) : 0 < (String.utf8EncodeChar c).length := by
  rw [String.length_utf8EncodeChar]
  exact Char.utf8Size_pos c

/-- What decoding does to a text: there is something to decode and the text gets shorter, or it is
left as it is. -/
def Decodes (s : List Char) : Prop :=
  Escaped s ∧ (percentDecode s).length < (encode s).length ∨
    ¬ Escaped s ∧ percentDecode s = encode s

lemma Decodes.cons {c : Char} {s : List Char} (h : Decodes s)
    (hno : ¬ ∃ a b t, c = '%' ∧ s = a :: b :: t ∧ (hexByte a b).isSome)
    (hdecode : percentDecode (c :: s) = String.utf8EncodeChar c ++ percentDecode s) :
    Decodes (c :: s) := by
  rw [Decodes, escaped_cons_iff, or_iff_right hno, hdecode, encode_cons, List.length_append,
    List.length_append]
  rcases h with ⟨hescaped, hlt⟩ | ⟨hplain, heq⟩
  · exact Or.inl ⟨hescaped, Nat.add_lt_add_left hlt _⟩
  · exact Or.inr ⟨hplain, by rw [heq]⟩

lemma Decodes.length_le {s : List Char} (h : Decodes s) :
    (percentDecode s).length ≤ (encode s).length := by
  rcases h with ⟨-, hlt⟩ | ⟨-, heq⟩
  · exact hlt.le
  · rw [heq]

lemma decodes (s : List Char) : Decodes s := by
  induction s using percentDecode.induct with
  | case1 a b s byte hbyte ih =>
    refine Or.inl ⟨escaped_cons_iff.2 (Or.inl ⟨a, b, s, rfl, rfl, by simp [hbyte]⟩), ?_⟩
    have hle := ih.length_le
    have ha := length_utf8EncodeChar_pos a
    have hb := length_utf8EncodeChar_pos b
    have hpercent := length_utf8EncodeChar_pos '%'
    simp only [percentDecode, hbyte, encode_cons, List.length_append, List.length_cons]
    omega
  | case2 a b s hnone ih =>
    refine ih.cons ?_ (by simp only [percentDecode, hnone]; rfl)
    rintro ⟨a', b', t, -, heq, hbyte⟩
    obtain ⟨rfl, rfl, -⟩ : a = a' ∧ b = b' ∧ s = t := by simpa using heq
    simp [hnone] at hbyte
  | case3 c s hno ih =>
    refine ih.cons ?_ (percentDecode.eq_2 c s hno)
    rintro ⟨a, b, t, hc, hs, -⟩
    exact hno a b t hc hs
  | case4 => exact Or.inr ⟨not_escaped_nil, rfl⟩

lemma percentDecode_eq_encode_iff {s : List Char} : percentDecode s = encode s ↔ ¬ Escaped s := by
  constructor
  · intro heq
    rcases decodes s with ⟨-, hlt⟩ | ⟨hplain, -⟩
    · rw [heq] at hlt
      exact absurd hlt (lt_irrefl _)
    · exact hplain
  · intro hplain
    rcases decodes s with ⟨hescaped, -⟩ | ⟨-, heq⟩
    · exact absurd hescaped hplain
    · exact heq

/-! ### Taking a target apart -/

/-- The parts before and behind the first `c`. -/
def splitFirst (c : Char) (s : List Char) : List Char × List Char :=
  (s.takeWhile (· ≠ c), (s.dropWhile (· ≠ c)).drop 1)

lemma splitFirst_append {c : Char} {s : List Char} (hs : c ∉ s) (t : List Char) :
    splitFirst c (s ++ c :: t) = (s, t) := by
  have hall : ∀ d ∈ s, decide (d ≠ c) = true :=
    fun d hd => decide_eq_true fun heq => hs (heq ▸ hd)
  rw [splitFirst, List.takeWhile_append_of_pos hall, List.dropWhile_append_of_pos hall]
  simp

lemma splitFirst_of_not_mem {c : Char} {s : List Char} (hs : c ∉ s) : splitFirst c s = (s, []) := by
  have hall : ∀ d ∈ s, decide (d ≠ c) = true :=
    fun d hd => decide_eq_true fun heq => hs (heq ▸ hd)
  rw [splitFirst, List.takeWhile_eq_self_iff.2 hall, List.dropWhile_eq_nil_iff.2 hall, List.drop_nil]

/-- A name with its value. -/
def param (piece : List Char) : List Char × Bytes :=
  ((splitFirst '=' piece).1, percentDecode (splitFirst '=' piece).2)

/-- The parameters of the query of a target, if it has one. -/
def params (target : List Char) : List (List Char × Bytes) :=
  if '?' ∈ target then ((splitFirst '?' target).2.splitOn '&').map param else []

/-- The segments of the path of a target. -/
def segments (target : List Char) : List Bytes :=
  ((splitFirst '?' target).1.splitOn '/').map percentDecode

lemma param_append {name : List Char} (hname : '=' ∉ name) (value : List Char) :
    param (name ++ '=' :: value) = (name, percentDecode value) := by
  rw [param, splitFirst_append hname]

/-! ### Pieces -/

section

variable {α β : Type*} [DecidableEq α] {c : α}

lemma length_splitOn_pos (s : List α) : 0 < (s.splitOn c).length :=
  List.length_pos_of_ne_nil (List.splitOn_ne_nil c s)

lemma length_splitOn_eq_one_iff {s : List α} : (s.splitOn c).length = 1 ↔ c ∉ s := by
  constructor
  · intro hlength hc
    obtain ⟨t, u, rfl⟩ := List.append_of_mem hc
    rw [List.splitOn_append_cons_self, List.length_append] at hlength
    have ht := length_splitOn_pos (c := c) t
    have hu := length_splitOn_pos (c := c) u
    omega
  · intro hc
    rw [List.splitOn_eq_singleton hc]
    rfl

omit [DecidableEq α] in
lemma intercalate_cons_eq (p : List α) (ps : List (List α)) :
    [c].intercalate (p :: ps) = p ++ ps.flatMap (c :: ·) := by
  induction ps generalizing p with
  | nil => simp
  | cons p' ps ih =>
    rw [List.intercalate_cons_cons, ih, List.flatMap_cons, List.append_assoc,
      List.singleton_append, List.cons_append]

lemma splitOn_intercalate_eq (p : List α) (ps : List (List α)) :
    ([c].intercalate (p :: ps)).splitOn c = (p :: ps).flatMap (List.splitOn c) := by
  induction ps generalizing p with
  | nil => simp
  | cons p' ps ih =>
    rw [List.intercalate_cons_cons, List.append_assoc, List.singleton_append,
      List.splitOn_append_cons_self, ih, List.flatMap_cons (x := p)]

variable {γ : Type*} {h : γ → List α}

lemma length_le_flatMap_splitOn (os : List γ) :
    os.length ≤ (os.flatMap fun o => (h o).splitOn c).length := by
  induction os with
  | nil => exact Nat.zero_le _
  | cons o os ih =>
    have ho := length_splitOn_pos (c := c) (h o)
    rw [List.flatMap_cons, List.length_append, List.length_cons]
    omega

/-- Pieces that are cut further are too many. -/
lemma map_flatMap_splitOn_eq_iff {f : List α → β} {g : γ → β} {os : List γ} :
    (os.flatMap fun o => (h o).splitOn c).map f = os.map g ↔
      ∀ o ∈ os, c ∉ h o ∧ f (h o) = g o := by
  induction os with
  | nil => simp
  | cons o os ih =>
    rw [List.forall_mem_cons, ← ih, List.flatMap_cons, List.map_append, List.map_cons]
    constructor
    · intro heq
      have hlength := congrArg List.length heq
      have ho := length_splitOn_pos (c := c) (h o)
      have hos := length_le_flatMap_splitOn (c := c) (h := h) os
      simp only [List.length_append, List.length_map, List.length_cons] at hlength
      have hone : c ∉ h o := length_splitOn_eq_one_iff.1 (by omega)
      rw [List.splitOn_eq_singleton hone] at heq
      obtain ⟨hhead, htail⟩ := List.cons.inj heq
      exact ⟨⟨hone, hhead⟩, htail⟩
    · rintro ⟨⟨hone, hhead⟩, htail⟩
      rw [List.splitOn_eq_singleton hone, htail, ← hhead]
      rfl

end

end HftBot.Core.Query
