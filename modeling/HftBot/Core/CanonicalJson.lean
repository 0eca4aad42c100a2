import HftBot.Core.PyValue
import HftBot.Core.Utf8
import Mathlib.Data.List.Sort
import Mathlib.Data.List.Lex
import Mathlib.Order.Fin.Basic

/-!
# Canonical JSON text

`json.dumps` with sorted keys, no blanks and every character that is not escaped written as itself.
Two objects that the language finds equal may still differ in the kind of a number; their canonical
texts then differ too, so the text of a value settles which of its equals it is.
-/

namespace HftBot.Core.PyValue

/-! ### Sorted members -/

mutual

/-- The value with the members of every object in the order of their keys. -/
def sorted : PyValue → PyValue
  | list items   => list (sortedItems items)
  | dict members => dict ((sortedMembers members).insertionSort fun a b => a.1 ≤ b.1)
  | v            => v

def sortedItems : List PyValue → List PyValue
  | []        => []
  | v :: rest => sorted v :: sortedItems rest

def sortedMembers : List (Text × PyValue) → List (Text × PyValue)
  | []             => []
  | (k, v) :: rest => (k, sorted v) :: sortedMembers rest

end

/-! ### The text -/

/-- The numeric escape of a control character. -/
def escapeCode (c : CodePoint) : List Char :=
  let digits := Nat.toDigits 16 c.val
  "\\u".toList ++ List.replicate (4 - digits.length) '0' ++ digits

def escape (c : CodePoint) : Text :=
  if c = codePoint '"' then text "\\\""
  else if c = codePoint '\\' then text "\\\\"
  else if c = codePoint '\n' then text "\\n"
  else if c = codePoint '\r' then text "\\r"
  else if c = codePoint '\t' then text "\\t"
  else if c.val = 8 then text "\\b"
  else if c.val = 12 then text "\\f"
  else if c.val < 0x20 then (escapeCode c).map codePoint
  else [c]

def quoted (s : Text) : Text := codePoint '"' :: s.flatMap escape ++ [codePoint '"']

/-- A decimal integer. -/
def decimalInt (n : Int) : List Char :=
  (if n < 0 then ['-'] else []) ++ Nat.toDigits 10 n.natAbs

mutual

def write : PyValue → Text
  | null                   => text "null"
  | bool b                 => text (if b then "true" else "false")
  | int n                  => (decimalInt n).map codePoint
  | float x                => x.text.map codePoint
  | str s                  => quoted s
  | list []                => text "[]"
  | list (v :: rest)       => codePoint '[' :: write v ++ writeItems rest
  | dict []                => text "\x7b\x7d"
  | dict ((k, v) :: rest)  =>
    codePoint '\x7b' :: quoted k ++ codePoint ':' :: write v ++ writeMembers rest

/-- The elements after the first one, and the end. -/
def writeItems : List PyValue → Text
  | []        => [codePoint ']']
  | v :: rest => codePoint ',' :: write v ++ writeItems rest

def writeMembers : List (Text × PyValue) → Text
  | []             => [codePoint '\x7d']
  | (k, v) :: rest =>
    codePoint ',' :: quoted k ++ codePoint ':' :: write v ++ writeMembers rest

end

/-- A text as UTF-8: a lone surrogate has no encoding. -/
def utf8 (t : Text) : Raising Bytes :=
  if t.any fun c => c.IsSurrogate then .error .unicodeEncodeError
  else .ok (Utf8.encode (t.map fun c => Char.ofNat c.val))

def canonicalJson (v : PyValue) : Raising Bytes := utf8 v.sorted.write

/-- The text of an encoding. -/
def decodeUtf8 (bytes : Bytes) : Raising Text :=
  if h : bytes.toByteArray.IsValidUTF8 then .ok (text (String.ofByteArray bytes.toByteArray h))
  else .error .unicodeDecodeError

/-! ### Members and elements -/

lemma sortedItems_eq (items : List PyValue) : sortedItems items = items.map sorted := by
  induction items with
  | nil => rfl
  | cons v rest ih => rw [sortedItems, ih, List.map_cons]

lemma sortedMembers_eq (members : List (Text × PyValue)) :
    sortedMembers members = members.map fun m => (m.1, m.2.sorted) := by
  induction members with
  | nil => rfl
  | cons m rest ih => rw [sortedMembers, ih, List.map_cons]

lemma eqMembers_iff {xs ys : List (Text × PyValue)} :
    eqMembers xs ys = true ↔ ∀ m ∈ xs, ∃ w, ys.lookup m.1 = some w ∧ m.2.eq w = true := by
  induction xs with
  | nil => simp [eqMembers]
  | cons m rest ih =>
    rw [eqMembers, Bool.and_eq_true, ih, List.forall_mem_cons]
    refine and_congr_left fun _ => ?_
    cases ys.lookup m.1 with
    | none => simp
    | some w => simp

lemma mem_of_lookup {α β : Type} [BEq α] [LawfulBEq α] {ys : List (α × β)} {k : α} {w : β}
    (h : ys.lookup k = some w) : (k, w) ∈ ys := by
  obtain ⟨l₁, l₂, rfl, -⟩ := List.lookup_eq_some_iff.1 h
  exact List.mem_append_right _ List.mem_cons_self

mutual

/-- The keys of every object are different. -/
def WellFormed : PyValue → Prop
  | list items   => WellFormedItems items
  | dict members => (members.map (·.1)).Nodup ∧ WellFormedMembers members
  | _            => True

def WellFormedItems : List PyValue → Prop
  | []        => True
  | v :: rest => WellFormed v ∧ WellFormedItems rest

def WellFormedMembers : List (Text × PyValue) → Prop
  | []             => True
  | (_, v) :: rest => WellFormed v ∧ WellFormedMembers rest

end

lemma wellFormedItems_iff {items : List PyValue} :
    WellFormedItems items ↔ ∀ v ∈ items, WellFormed v := by
  induction items with
  | nil => simp [WellFormedItems]
  | cons v rest ih => rw [WellFormedItems, ih, List.forall_mem_cons]

lemma wellFormedMembers_iff {members : List (Text × PyValue)} :
    WellFormedMembers members ↔ ∀ m ∈ members, WellFormed m.2 := by
  induction members with
  | nil => simp [WellFormedMembers]
  | cons m rest ih => rw [WellFormedMembers, ih, List.forall_mem_cons]

/-! ### Where a text ends -/

/-- What follows an element or a member. -/
def IsDelimiter (c : CodePoint) : Prop :=
  c = codePoint ',' ∨ c = codePoint ']' ∨ c = codePoint '\x7d'

/-- The end of the text, or a delimiter. -/
def Delimited (t : Text) : Prop := ∀ c ∈ t.head?, IsDelimiter c

lemma delimited_cons {c : CodePoint} {t : Text} (hc : IsDelimiter c) : Delimited (c :: t) := by
  intro d hd
  rw [List.head?_cons, Option.mem_def, Option.some.injEq] at hd
  exact hd ▸ hc

/-- A text without delimiters ends where the first delimiter stands. -/
lemma append_inj_of_delimited {u u' s t : Text} (hu : ∀ c ∈ u, ¬ IsDelimiter c)
    (hu' : ∀ c ∈ u', ¬ IsDelimiter c) (hs : Delimited s) (ht : Delimited t)
    (h : u ++ s = u' ++ t) : u = u' ∧ s = t := by
  induction u generalizing u' with
  | nil =>
    cases u' with
    | nil => exact ⟨rfl, h⟩
    | cons c u' =>
      rw [List.nil_append, List.cons_append] at h
      exact absurd (hs c (by rw [h]; rfl)) (hu' c List.mem_cons_self)
  | cons c u ih =>
    cases u' with
    | nil =>
      rw [List.nil_append, List.cons_append] at h
      exact absurd (ht c (by rw [← h]; rfl)) (hu c List.mem_cons_self)
    | cons d u' =>
      rw [List.cons_append, List.cons_append, List.cons.injEq] at h
      obtain ⟨rfl, hst⟩ := ih (fun c hc => hu c (List.mem_cons_of_mem _ hc))
        (fun c hc => hu' c (List.mem_cons_of_mem _ hc)) h.2
      exact ⟨by rw [h.1], hst⟩

/-! ### Numbers -/

lemma not_isDelimiter_of_isNumeral {c : Char} (hc : Double.IsNumeral c) :
    ¬ IsDelimiter (codePoint c) := by
  rintro (h | h | h) <;> obtain rfl := codePoint_inj.1 h <;>
    exact absurd hc (by unfold Double.IsNumeral; decide)

lemma isNumeral_decimalInt {n : Int} : ∀ c ∈ decimalInt n, Double.IsNumeral c := by
  intro c hc
  rcases List.mem_append.1 hc with hc | hc
  · split at hc
    · exact .inr (.inl (List.mem_singleton.1 hc))
    · exact absurd hc List.not_mem_nil
  · exact Double.isNumeral_toDigits c hc

lemma point_not_mem_decimalInt {n : Int} : '.' ∉ decimalInt n ∧ 'e' ∉ decimalInt n := by
  have h : ∀ c ∈ decimalInt n, c.isDigit = true ∨ c = '-' := by
    intro c hc
    rcases List.mem_append.1 hc with hc | hc
    · split at hc
      · exact .inr (List.mem_singleton.1 hc)
      · exact absurd hc List.not_mem_nil
    · exact .inl (Nat.isDigit_of_mem_toDigits (by decide) (by decide) hc)
  exact ⟨fun hc => absurd (h _ hc) (by decide), fun hc => absurd (h _ hc) (by decide)⟩

/-- The characters of a number's text. -/
def numberChars : PyValue → List Char
  | bool b  => (if b then "true" else "false").toList
  | int n   => decimalInt n
  | float x => x.text
  | _       => []

lemma write_of_number {v : PyValue} (h : v.number.isSome = true) :
    v.write = v.numberChars.map codePoint := by
  cases v <;> first | rfl | exact absurd h Bool.false_ne_true

lemma eq_of_number {v w : PyValue} {x : Int ⊕ Double} (hv : v.number = some x)
    (h : v.eq w = true) : ∃ y, w.number = some y ∧ numberEq x y = true := by
  have heq : v.eq w = eqNumber x w := by
    cases v with
    | bool b => cases hv; cases w <;> rfl
    | int n => cases hv; cases w <;> rfl
    | float z => cases hv; cases w <;> rfl
    | _ => exact absurd hv (by intro h; cases h)
  rw [heq, eqNumber, Option.any_eq_true] at h
  exact h

lemma isNumeral_of_eqInt {x : Double} {n : Int} (h : x.eqInt n = true) :
    (∀ c ∈ x.text, Double.IsNumeral c) ∧ ('.' ∈ x.text ∨ 'e' ∈ x.text) := by
  cases x with
  | finite neg m e hx =>
    exact ⟨Double.isNumeral_text, (Double.point_mem_magnitude m e).imp
      (List.mem_append_right _) (List.mem_append_right _)⟩
  | inf neg => exact absurd h Bool.false_ne_true
  | nan => exact absurd h Bool.false_ne_true

/-- A truth value is not written like a number. -/
lemma boolChars_ne {b : Bool} {cs : List Char} (h : ∀ c ∈ cs, Double.IsNumeral c) :
    (if b then "true" else "false").toList ≠ cs := by
  rintro rfl
  cases b with
  | false => exact absurd (h 'f' (by decide)) (by unfold Double.IsNumeral; decide)
  | true => exact absurd (h 't' (by decide)) (by unfold Double.IsNumeral; decide)

/-- Numbers that are equal and have the same text are of one kind. -/
lemma eq_of_numberChars {v w : PyValue} {x : Int ⊕ Double} (hv : v.number = some x)
    (h : v.eq w = true) (hchars : v.numberChars = w.numberChars) : v = w := by
  obtain ⟨y, hw, hxy⟩ := eq_of_number hv h
  -- an integer is written without a point and without an exponent
  have hfloat : ∀ {n : Int} {z : Double}, z.eqInt n = true → decimalInt n ≠ z.text := by
    intro n z hz hn
    rcases (isNumeral_of_eqInt hz).2 with hc | hc
    · exact point_not_mem_decimalInt.1 (hn ▸ hc)
    · exact point_not_mem_decimalInt.2 (hn ▸ hc)
  cases v with
  | bool b =>
    cases hv
    cases w with
    | bool c =>
      cases hw
      have hbc : b.toInt = c.toInt := of_decide_eq_true hxy
      cases b <;> cases c <;> first | rfl | exact absurd hbc (by decide)
    | int n => exact absurd hchars (boolChars_ne isNumeral_decimalInt)
    | float z => cases hw; exact absurd hchars (boolChars_ne (isNumeral_of_eqInt hxy).1)
    | _ => cases hw
  | int n =>
    cases hv
    cases w with
    | bool c => exact absurd hchars.symm (boolChars_ne isNumeral_decimalInt)
    | int k => cases hw; rw [of_decide_eq_true hxy]
    | float z => cases hw; exact absurd hchars (hfloat hxy)
    | _ => cases hw
  | float z =>
    cases hv
    cases w with
    | bool c => cases hw; exact absurd hchars.symm (boolChars_ne (isNumeral_of_eqInt hxy).1)
    | int k => cases hw; exact absurd hchars.symm (hfloat hxy)
    | float z' => cases hw; rw [Double.eq_of_text hxy hchars]
    | _ => cases hw
  | _ => cases hv

lemma not_isDelimiter_numberChars {v : PyValue} {x : Int ⊕ Double} (hv : v.number = some x) :
    ∀ c ∈ v.numberChars.map codePoint, ¬ IsDelimiter c := by
  have hchars : ∀ c ∈ v.numberChars, ¬ IsDelimiter (codePoint c) := by
    intro c hc
    -- the words that are no numerals are the two truth values and the names of the infinities
    have hword : ∀ d ∈ "truefals-InfinityNaN".toList, ¬ IsDelimiter (codePoint d) := by
      have hall : "truefals-InfinityNaN".toList.all (fun d => ¬ (codePoint d = codePoint ',' ∨
          codePoint d = codePoint ']' ∨ codePoint d = codePoint '\x7d')) = true := by
        decide +kernel
      intro d hd
      have hne := of_decide_eq_true (List.all_eq_true.1 hall d hd)
      exact hne
    have hsub (s : String) (h : s.toList.all (· ∈ "truefals-InfinityNaN".toList) = true) :
        ∀ d ∈ s.toList, d ∈ "truefals-InfinityNaN".toList :=
      fun d hd => of_decide_eq_true (List.all_eq_true.1 h d hd)
    cases v with
    | bool b =>
      cases b with
      | false => exact hword c (hsub "false" (by decide) c hc)
      | true => exact hword c (hsub "true" (by decide) c hc)
    | int n => exact not_isDelimiter_of_isNumeral (isNumeral_decimalInt c hc)
    | float z =>
      cases z with
      | finite neg m e h =>
        exact not_isDelimiter_of_isNumeral (Double.isNumeral_text (h := h) c hc)
      | inf neg =>
        cases neg with
        | false => exact hword c (hsub "Infinity" (by decide) c hc)
        | true => exact hword c (hsub "-Infinity" (by decide) c hc)
      | nan => exact hword c (hsub "NaN" (by decide) c hc)
    | _ => cases hv
  intro c hc
  obtain ⟨d, hd, rfl⟩ := List.mem_map.1 hc
  exact hchars d hd

/-! ### Objects as maps -/

/-- The members in the order of their keys. -/
abbrev byKey (members : List (Text × PyValue)) : List (Text × PyValue) :=
  members.insertionSort fun a b => a.1 ≤ b.1

lemma byKey_keys_sorted (members : List (Text × PyValue)) :
    ((byKey members).map (·.1)).Pairwise (· ≤ ·) := by
  have htotal : Std.Total fun a b : Text × PyValue => a.1 ≤ b.1 := ⟨fun a b => le_total a.1 b.1⟩
  have htrans : IsTrans (Text × PyValue) fun a b => a.1 ≤ b.1 := ⟨fun _ _ _ => le_trans⟩
  exact List.pairwise_map.2 (List.pairwise_insertionSort _ members)

/-- Members that stand for the same key in two objects that are equal. -/
def Aligned (xs ys : List (Text × PyValue)) (a b : Text × PyValue) : Prop :=
  a.1 = b.1 ∧ ∃ v w, (a.1, v) ∈ xs ∧ (a.1, w) ∈ ys ∧ v.eq w = true ∧
    a.2 = v.sorted ∧ b.2 = w.sorted

lemma keys_perm {xs ys : List (Text × PyValue)} (hx : (xs.map (·.1)).Nodup)
    (hlen : xs.length = ys.length) (h : eqMembers xs ys = true) :
    (xs.map (·.1)).Perm (ys.map (·.1)) := by
  refine (List.subperm_of_subset hx ?_).perm_of_length_le (by simp [hlen])
  intro k hk
  obtain ⟨m, hm, rfl⟩ := List.mem_map.1 hk
  obtain ⟨w, hw, -⟩ := eqMembers_iff.1 h m hm
  exact List.mem_map.2 ⟨_, mem_of_lookup hw, rfl⟩

lemma eq_of_mem_of_nodup {α β : Type} {ys : List (α × β)} (hy : (ys.map (·.1)).Nodup) {k : α}
    {v w : β} (hv : (k, v) ∈ ys) (hw : (k, w) ∈ ys) : v = w :=
  congrArg (·.2) (List.inj_on_of_nodup_map hy hv hw rfl)

lemma mem_byKey_sortedMembers {xs : List (Text × PyValue)} {a : Text × PyValue}
    (ha : a ∈ byKey (sortedMembers xs)) : ∃ v, (a.1, v) ∈ xs ∧ a.2 = v.sorted := by
  rw [List.mem_insertionSort, sortedMembers_eq] at ha
  obtain ⟨m, hm, rfl⟩ := List.mem_map.1 ha
  exact ⟨m.2, hm, rfl⟩

lemma byKey_keys_perm (xs : List (Text × PyValue)) :
    ((byKey (sortedMembers xs)).map (·.1)).Perm (xs.map (·.1)) := by
  rw [sortedMembers_eq]
  refine ((List.perm_insertionSort _ _).map _).trans ?_
  rw [List.map_map]
  exact .refl _

lemma aligned_byKey {xs ys : List (Text × PyValue)} (hx : (xs.map (·.1)).Nodup)
    (hy : (ys.map (·.1)).Nodup) (hlen : xs.length = ys.length) (h : eqMembers xs ys = true) :
    List.Forall₂ (Aligned xs ys) (byKey (sortedMembers xs)) (byKey (sortedMembers ys)) := by
  have hkeys : (byKey (sortedMembers xs)).map (·.1) = (byKey (sortedMembers ys)).map (·.1) :=
    List.Perm.eq_of_pairwise (fun _ _ _ _ => le_antisymm) (byKey_keys_sorted _)
      (byKey_keys_sorted _)
      (((byKey_keys_perm xs).trans (keys_perm hx hlen h)).trans (byKey_keys_perm ys).symm)
  refine List.forall₂_iff_zip.2 ⟨by simpa using congrArg List.length hkeys, fun {a b} hab => ?_⟩
  have hk : a.1 = b.1 := by
    have hall : List.Forall₂ (fun a b : Text × PyValue => a.1 = b.1) (byKey (sortedMembers xs))
        (byKey (sortedMembers ys)) := by
      rw [← List.forall₂_map_right_iff, ← List.forall₂_map_left_iff, hkeys,
        List.forall₂_eq_eq_eq]
    exact (List.forall₂_iff_zip.1 hall).2 hab
  obtain ⟨ha, hb⟩ := List.of_mem_zip hab
  obtain ⟨v, hv, hav⟩ := mem_byKey_sortedMembers ha
  obtain ⟨w, hw, hbw⟩ := mem_byKey_sortedMembers hb
  obtain ⟨w', hw', hvw⟩ := eqMembers_iff.1 h _ hv
  obtain rfl := eq_of_mem_of_nodup hy (mem_of_lookup hw') (hk ▸ hw)
  exact ⟨hk, v, w', hv, hk ▸ hw, hvw, hav, hbw⟩

/-! ### A text settles the value among its equals -/

/-- Texts of the two values that go on in any way are equal only when the values are. -/
def SameByText (v w : PyValue) : Prop :=
  ∀ s t : Text, Delimited s → Delimited t → v.write ++ s = w.write ++ t → v = w ∧ s = t

lemma writeItems_inj {xs ys : List PyValue} (h : List.Forall₂ SameByText xs ys) {s t : Text}
    (htext : writeItems xs ++ s = writeItems ys ++ t) : xs = ys ∧ s = t := by
  induction h with
  | nil => exact ⟨rfl, List.append_cancel_left htext⟩
  | @cons v w xs ys hvw _ ih =>
    have hdelim : ∀ zs : List PyValue, ∀ u : Text, Delimited (writeItems zs ++ u) := by
      rintro (_ | _) u
      · exact delimited_cons (.inr (.inl rfl))
      · exact delimited_cons (.inl rfl)
    simp only [writeItems, List.cons_append, List.append_assoc, List.cons.injEq, true_and]
      at htext
    obtain ⟨rfl, hrest⟩ := hvw _ _ (hdelim xs s) (hdelim ys t) htext
    obtain ⟨rfl, hst⟩ := ih hrest
    exact ⟨rfl, hst⟩

lemma writeList_inj {xs ys : List PyValue} (h : List.Forall₂ SameByText xs ys) {s t : Text}
    (htext : write (list xs) ++ s = write (list ys) ++ t) : xs = ys ∧ s = t := by
  cases h with
  | nil => exact ⟨rfl, List.append_cancel_left htext⟩
  | cons hvw hrest =>
    -- the first element follows a bracket where the others follow a comma
    exact writeItems_inj (.cons hvw hrest)
      (congrArg (codePoint ',' :: ·) (List.cons.inj htext).2)

lemma writeMembers_inj {xs ys : List (Text × PyValue)}
    (h : List.Forall₂ (fun a b => a.1 = b.1 ∧ SameByText a.2 b.2) xs ys) {s t : Text}
    (htext : writeMembers xs ++ s = writeMembers ys ++ t) : xs = ys ∧ s = t := by
  induction h with
  | nil => exact ⟨rfl, List.append_cancel_left htext⟩
  | @cons a b xs ys hab _ ih =>
    have hdelim : ∀ zs : List (Text × PyValue), ∀ u : Text, Delimited (writeMembers zs ++ u) := by
      rintro (_ | _) u
      · exact delimited_cons (.inr (.inr rfl))
      · exact delimited_cons (.inl rfl)
    obtain ⟨k, v⟩ := a
    obtain ⟨k', w⟩ := b
    obtain ⟨rfl, hvw⟩ : k = k' ∧ SameByText v w := hab
    simp only [writeMembers, List.cons_append, List.append_assoc, List.cons.injEq, true_and,
      List.append_cancel_left_eq] at htext
    obtain ⟨rfl, hrest⟩ := hvw _ _ (hdelim xs s) (hdelim ys t) htext
    obtain ⟨rfl, hst⟩ := ih hrest
    exact ⟨rfl, hst⟩

lemma writeDict_inj {xs ys : List (Text × PyValue)}
    (h : List.Forall₂ (fun a b => a.1 = b.1 ∧ SameByText a.2 b.2) xs ys) {s t : Text}
    (htext : write (dict xs) ++ s = write (dict ys) ++ t) : xs = ys ∧ s = t := by
  cases h with
  | nil => exact ⟨rfl, List.append_cancel_left htext⟩
  | cons hab hrest =>
    exact writeMembers_inj (.cons hab hrest)
      (congrArg (codePoint ',' :: ·) (List.cons.inj htext).2)

lemma sameByText_of_number {v w : PyValue} {x : Int ⊕ Double} (hv : v.number = some x)
    (h : v.eq w = true) : SameByText v w := by
  obtain ⟨y, hw, -⟩ := eq_of_number hv h
  intro s t hs ht htext
  rw [write_of_number (by rw [hv]; rfl), write_of_number (by rw [hw]; rfl)] at htext
  obtain ⟨hchars, hst⟩ := append_inj_of_delimited (not_isDelimiter_numberChars hv)
    (not_isDelimiter_numberChars hw) hs ht htext
  exact ⟨eq_of_numberChars hv h ((List.map_inj_right fun _ _ => codePoint_inj.1).1 hchars), hst⟩

lemma sorted_of_number {v : PyValue} {x : Int ⊕ Double} (hv : v.number = some x) :
    v.sorted = v := by
  cases v <;> first | rfl | cases hv

lemma sameByText_items {xs : List PyValue}
    (ih : ∀ v ∈ xs, ∀ {w : PyValue}, v.WellFormed → w.WellFormed → v.eq w = true →
      SameByText v.sorted w.sorted) (hx : ∀ v ∈ xs, v.WellFormed) :
    ∀ {ys : List PyValue}, (∀ w ∈ ys, w.WellFormed) → eqList xs ys = true →
      List.Forall₂ SameByText (xs.map sorted) (ys.map sorted) := by
  induction xs with
  | nil =>
    intro ys _ h
    cases ys with
    | nil => exact .nil
    | cons w ys => exact absurd h Bool.false_ne_true
  | cons v xs ihxs =>
    intro ys hy h
    cases ys with
    | nil => exact absurd h Bool.false_ne_true
    | cons w ys =>
      obtain ⟨hvw, hrest⟩ := Bool.and_eq_true_iff.1 h
      exact .cons (ih v List.mem_cons_self (hx v List.mem_cons_self) (hy w List.mem_cons_self) hvw)
        (ihxs (fun v hv => ih v (List.mem_cons_of_mem _ hv))
          (fun v hv => hx v (List.mem_cons_of_mem _ hv))
          (fun w hw => hy w (List.mem_cons_of_mem _ hw)) hrest)

/-- Among the values that the language finds equal, the canonical text belongs to one. -/
theorem sameByText_sorted (v : PyValue) : ∀ {w : PyValue}, v.WellFormed → w.WellFormed →
    v.eq w = true → SameByText v.sorted w.sorted := by
  have hnumber : ∀ {v w : PyValue} {x : Int ⊕ Double}, v.number = some x → v.eq w = true →
      SameByText v.sorted w.sorted := by
    intro v w x hv h
    obtain ⟨y, hw, -⟩ := eq_of_number hv h
    rw [sorted_of_number hv, sorted_of_number hw]
    exact sameByText_of_number hv h
  induction v using PyValue.induct with
  | null =>
    intro w _ _ h
    cases w with
    | null => exact fun s t _ _ htext => ⟨rfl, List.append_cancel_left htext⟩
    | _ => exact absurd h Bool.false_ne_true
  | bool b => exact fun _ _ h => hnumber rfl h
  | int n => exact fun _ _ h => hnumber rfl h
  | float x => exact fun _ _ h => hnumber rfl h
  | str s =>
    intro w _ _ h
    cases w with
    | str s' =>
      obtain rfl : s = s' := of_decide_eq_true h
      exact fun s t _ _ htext => ⟨rfl, List.append_cancel_left htext⟩
    | _ => exact absurd h Bool.false_ne_true
  | list xs ih =>
    intro w hv hw h
    cases w with
    | list ys =>
      rw [sorted, sorted, sortedItems_eq, sortedItems_eq]
      have hsame : List.Forall₂ SameByText (xs.map sorted) (ys.map sorted) :=
        sameByText_items ih (wellFormedItems_iff.1 hv) (wellFormedItems_iff.1 hw) h
      exact fun s t _ _ htext => (writeList_inj hsame htext).imp_left (congrArg list)
    | _ => exact absurd h Bool.false_ne_true
  | dict xs ih =>
    intro w hv hw h
    cases w with
    | dict ys =>
      obtain ⟨hlen, h⟩ := Bool.and_eq_true_iff.1 h
      rw [sorted, sorted]
      have hsame : List.Forall₂ (fun a b => a.1 = b.1 ∧ SameByText a.2 b.2)
          (byKey (sortedMembers xs)) (byKey (sortedMembers ys)) := by
        refine (aligned_byKey hv.1 hw.1 (eq_of_beq hlen) h).imp ?_
        rintro a b ⟨hk, v, w, hv', hw', hvw, ha, hb⟩
        rw [ha, hb]
        exact ⟨hk, ih _ hv' (wellFormedMembers_iff.1 hv.2 _ hv')
          (wellFormedMembers_iff.1 hw.2 _ hw') hvw⟩
      exact fun s t _ _ htext => (writeDict_inj hsame htext).imp_left (congrArg dict)
    | _ => exact absurd h Bool.false_ne_true

lemma codePoint_charOf {c : CodePoint} (hc : ¬ c.IsSurrogate) :
    codePoint (Char.ofNat c.val) = c := by
  have hvalid : c.val.isValidChar := by
    have hlt := c.isLt
    rw [CodePoint.IsSurrogate] at hc
    unfold Nat.isValidChar
    omega
  apply Fin.ext
  rw [codePoint, Char.ofNat, dif_pos hvalid]
  rfl

lemma charOf_inj {c d : CodePoint} (hc : ¬ c.IsSurrogate) (hd : ¬ d.IsSurrogate)
    (h : Char.ofNat c.val = Char.ofNat d.val) : c = d := by
  rw [← codePoint_charOf hc, h, codePoint_charOf hd]

lemma map_charOf_inj {t : Text} (ht : ∀ c ∈ t, ¬ c.IsSurrogate) :
    ∀ {u : Text}, (∀ c ∈ u, ¬ c.IsSurrogate) →
      t.map (fun c => Char.ofNat c.val) = u.map (fun c => Char.ofNat c.val) → t = u := by
  induction t with
  | nil => exact fun _ h => (List.map_eq_nil_iff.1 h.symm).symm
  | cons c t ih =>
    intro u hu h
    cases u with
    | nil => cases h
    | cons d u =>
      obtain ⟨hc, ht⟩ := List.forall_mem_cons.1 ht
      obtain ⟨hd, hu⟩ := List.forall_mem_cons.1 hu
      rw [List.map_cons, List.map_cons, List.cons.injEq] at h
      rw [charOf_inj hc hd h.1, ih ht hu h.2]

lemma any_isSurrogate {t : Text} :
    t.any (fun c => c.IsSurrogate) = true ↔ ∃ c ∈ t, c.IsSurrogate := by
  simp only [List.any_eq_true, decide_eq_true_iff]

lemma utf8_inj {t u : Text} {b : Bytes} (ht : utf8 t = .ok b) (hu : utf8 u = .ok b) : t = u := by
  rw [utf8] at ht hu
  split at ht
  · cases ht
  split at hu
  · cases hu
  rename_i hst hsu
  rw [any_isSurrogate] at hst hsu
  exact map_charOf_inj (fun c hc h => hst ⟨c, hc, h⟩) (fun c hc h => hsu ⟨c, hc, h⟩)
    (Utf8.encode_inj ((Except.ok.inj ht).trans (Except.ok.inj hu).symm))

lemma decodeUtf8_eq_ok {t : Text} {b : Bytes} (h : utf8 t = .ok b) : decodeUtf8 b = .ok t := by
  rw [utf8] at h
  split at h
  · cases h
  rename_i hsurr
  rw [any_isSurrogate] at hsurr
  cases h
  let cs := t.map fun c => Char.ofNat c.val
  have hchars : text (String.ofList cs) = t := by
    rw [text, String.toList_ofList, List.map_map]
    exact (List.map_congr_left fun c hc => codePoint_charOf fun h => hsurr ⟨c, hc, h⟩).trans
      (List.map_id t)
  rw [decodeUtf8, dif_pos (show (Utf8.encode cs).toByteArray.IsValidUTF8 from
    (String.ofList cs).isValidUTF8)]
  exact congrArg Except.ok hchars

/-- What the language finds equal and the canonical bytes do not tell apart is equal, up to the
order of the members. -/
theorem sorted_eq_of_canonicalJson {v w : PyValue} {b : Bytes} (hv : v.WellFormed)
    (hw : w.WellFormed) (h : v.eq w = true) (hvb : v.canonicalJson = .ok b)
    (hwb : w.canonicalJson = .ok b) : v.sorted = w.sorted := by
  refine (sameByText_sorted v hv hw h [] [] ?_ ?_ ?_).1
  · exact fun c hc => absurd hc (by simp)
  · exact fun c hc => absurd hc (by simp)
  · rw [utf8_inj hvb hwb]

/-! ### What can be encoded -/

mutual

/-- The code points of all texts and keys. -/
def codePoints : PyValue → List CodePoint
  | str s        => s
  | list items   => itemPoints items
  | dict members => memberPoints members
  | _            => []

def itemPoints : List PyValue → List CodePoint
  | []        => []
  | v :: rest => codePoints v ++ itemPoints rest

def memberPoints : List (Text × PyValue) → List CodePoint
  | []             => []
  | (k, v) :: rest => k ++ codePoints v ++ memberPoints rest

end

/-- No text has a lone surrogate. -/
def Plain (v : PyValue) : Prop := ∀ c ∈ v.codePoints, ¬ c.IsSurrogate

lemma mem_itemPoints {c : CodePoint} {items : List PyValue} :
    c ∈ itemPoints items ↔ ∃ v ∈ items, c ∈ v.codePoints := by
  induction items with
  | nil => simp [itemPoints]
  | cons v rest ih => simp [itemPoints, ih]

lemma mem_memberPoints {c : CodePoint} {members : List (Text × PyValue)} :
    c ∈ memberPoints members ↔ ∃ m ∈ members, c ∈ m.1 ∨ c ∈ m.2.codePoints := by
  induction members with
  | nil => simp [memberPoints]
  | cons m rest ih => simp [memberPoints, ih, or_assoc]

lemma not_isSurrogate_codePoint (d : Char) : ¬ (codePoint d).IsSurrogate := by
  rintro ⟨hlow, hhigh⟩
  rcases d.valid with h | h
  · exact absurd (Nat.lt_of_le_of_lt hlow h) (Nat.lt_irrefl _)
  · exact absurd (Nat.lt_of_lt_of_le h.1 (Nat.le_of_lt_succ hhigh)) (Nat.lt_irrefl _)

lemma ne_codePoint {c : CodePoint} (hc : c.IsSurrogate) (d : Char) : c ≠ codePoint d := by
  rintro rfl
  exact not_isSurrogate_codePoint _ hc

lemma not_mem_map_codePoint {c : CodePoint} (hc : c.IsSurrogate) (cs : List Char) :
    c ∉ cs.map codePoint := by
  intro h
  obtain ⟨d, -, rfl⟩ := List.mem_map.1 h
  exact not_isSurrogate_codePoint d hc

lemma not_mem_text {c : CodePoint} (hc : c.IsSurrogate) (s : String) : c ∉ text s :=
  not_mem_map_codePoint hc s.toList

/-- An escape has no surrogate, and one stands for itself. -/
lemma mem_escape {c d : CodePoint} (hc : c.IsSurrogate) : c ∈ escape d ↔ c = d := by
  constructor
  · intro h
    unfold escape at h
    split_ifs at h
    · exact absurd h (not_mem_text hc _)
    · exact absurd h (not_mem_text hc _)
    · exact absurd h (not_mem_text hc _)
    · exact absurd h (not_mem_text hc _)
    · exact absurd h (not_mem_text hc _)
    · exact absurd h (not_mem_text hc _)
    · exact absurd h (not_mem_text hc _)
    · exact absurd h (not_mem_map_codePoint hc _)
    · exact List.mem_singleton.1 h
  · rintro rfl
    have hne : ∀ e : Char, c ≠ codePoint e := ne_codePoint hc
    have hlow : 0xd800 ≤ c.val := hc.1
    rw [escape, if_neg (hne _), if_neg (hne _), if_neg (hne _), if_neg (hne _), if_neg (hne _),
      if_neg (by omega), if_neg (by omega), if_neg (by omega)]
    exact List.mem_singleton_self c

lemma mem_quoted {c : CodePoint} (hc : c.IsSurrogate) {s : Text} : c ∈ quoted s ↔ c ∈ s := by
  simp [quoted, ne_codePoint hc, mem_escape hc]

lemma mem_writeItems {c : CodePoint} (hc : c.IsSurrogate) {items : List PyValue} :
    c ∈ writeItems items ↔ ∃ v ∈ items, c ∈ v.write := by
  induction items with
  | nil => simp [writeItems, ne_codePoint hc]
  | cons v rest ih => simp [writeItems, ne_codePoint hc, ih]

lemma mem_writeMembers {c : CodePoint} (hc : c.IsSurrogate)
    {members : List (Text × PyValue)} :
    c ∈ writeMembers members ↔ ∃ m ∈ members, c ∈ m.1 ∨ c ∈ m.2.write := by
  induction members with
  | nil => simp [writeMembers, ne_codePoint hc]
  | cons m rest ih => simp [writeMembers, ne_codePoint hc, ih, mem_quoted hc, or_assoc]

/-- The surrogates of the text are those of the value. -/
lemma mem_write {c : CodePoint} (hc : c.IsSurrogate) (v : PyValue) :
    c ∈ v.write ↔ c ∈ v.codePoints := by
  induction v using PyValue.induct with
  | null => simp [write, codePoints, not_mem_text hc]
  | bool b => simp [write, codePoints, not_mem_text hc]
  | int n => exact ⟨fun h => absurd h (not_mem_map_codePoint hc _), fun h => by cases h⟩
  | float x => exact ⟨fun h => absurd h (not_mem_map_codePoint hc _), fun h => by cases h⟩
  | str s => rw [write, mem_quoted hc, codePoints]
  | list items ih =>
    rw [codePoints, mem_itemPoints]
    cases items with
    | nil => simp [write, not_mem_text hc]
    | cons v rest =>
      have hlist : c ∈ write (list (v :: rest)) ↔ c ∈ writeItems (v :: rest) := by
        simp [write, writeItems, ne_codePoint hc]
      rw [hlist, mem_writeItems hc]
      exact exists_congr fun v => and_congr_right (ih v)
  | dict members ih =>
    rw [codePoints, mem_memberPoints]
    cases members with
    | nil => simp [write, not_mem_text hc]
    | cons m rest =>
      have hdict : c ∈ write (dict (m :: rest)) ↔ c ∈ writeMembers (m :: rest) := by
        simp [write, writeMembers, ne_codePoint hc]
      rw [hdict, mem_writeMembers hc]
      exact exists_congr fun m => and_congr_right fun hm => or_congr_right (ih m hm)

lemma mem_codePoints_sorted {c : CodePoint} (v : PyValue) :
    c ∈ v.sorted.codePoints ↔ c ∈ v.codePoints := by
  induction v using PyValue.induct with
  | null => exact Iff.rfl
  | bool b => exact Iff.rfl
  | int n => exact Iff.rfl
  | float x => exact Iff.rfl
  | str s => exact Iff.rfl
  | list items ih =>
    rw [sorted, codePoints, codePoints, mem_itemPoints, mem_itemPoints, sortedItems_eq]
    simp only [List.mem_map, exists_exists_and_eq_and]
    exact exists_congr fun v => and_congr_right (ih v)
  | dict members ih =>
    rw [sorted, codePoints, codePoints, mem_memberPoints, mem_memberPoints, sortedMembers_eq]
    simp only [List.mem_insertionSort, List.mem_map, exists_exists_and_eq_and]
    exact exists_congr fun m => and_congr_right fun hm => or_congr_right (ih m hm)

/-- The canonical bytes exist just when there is no lone surrogate. -/
theorem canonicalJson_returns_iff {v : PyValue} :
    (∃ b, v.canonicalJson = .ok b) ↔ v.Plain := by
  have hplain : (∃ c ∈ v.sorted.write, c.IsSurrogate) ↔ ¬ v.Plain := by
    simp only [Plain, not_forall, not_not, exists_prop]
    refine exists_congr fun c => and_congr_left fun hc => ?_
    rw [mem_write hc, mem_codePoints_sorted]
  rw [canonicalJson, utf8]
  split
  · rename_i h
    rw [any_isSurrogate] at h
    exact ⟨fun ⟨b, hb⟩ => (by cases hb), fun h' => absurd h' (hplain.1 h)⟩
  · rename_i h
    rw [any_isSurrogate] at h
    exact ⟨fun _ => not_not.1 fun h' => h (hplain.2 h'), fun _ => ⟨_, rfl⟩⟩

/-! ### Values that are equal to themselves -/

/-- A value that has a canonical text of its own and is equal to itself. -/
structure Regular (v : PyValue) : Prop where
  plain : v.Plain
  wellFormed : v.WellFormed
  eq_self : v.eq v = true

lemma lookup_of_mem_of_nodup {α β : Type} [BEq α] [LawfulBEq α] {ys : List (α × β)}
    (hy : (ys.map (·.1)).Nodup) {m : α × β} (hm : m ∈ ys) : ys.lookup m.1 = some m.2 := by
  cases h : ys.lookup m.1 with
  | none => exact absurd (List.lookup_eq_none_iff.1 h m hm) (by simp)
  | some w => rw [eq_of_mem_of_nodup hy (mem_of_lookup h) hm]

@[simp] lemma regular_null : Regular null :=
  ⟨fun _ h => absurd h List.not_mem_nil, trivial, rfl⟩

@[simp] lemma regular_bool (b : Bool) : Regular (bool b) :=
  ⟨fun _ h => absurd h List.not_mem_nil, trivial, decide_eq_true rfl⟩

@[simp] lemma regular_int (n : Int) : Regular (int n) :=
  ⟨fun _ h => absurd h List.not_mem_nil, trivial, decide_eq_true rfl⟩

lemma regular_float {x : Double} (h : x.eq x = true) : Regular (float x) :=
  ⟨fun _ h => absurd h List.not_mem_nil, trivial, h⟩

lemma regular_str {s : Text} (h : ∀ c ∈ s, ¬ c.IsSurrogate) : Regular (str s) :=
  ⟨h, trivial, decide_eq_true rfl⟩

@[simp] lemma regular_string (s : String) : Regular (string s) :=
  regular_str fun _ h hc => not_mem_text hc s h

@[simp] lemma regular_char (c : Char) : Regular (str [codePoint c]) := by
  refine regular_str fun d hd => ?_
  rw [List.mem_singleton.1 hd]
  exact not_isSurrogate_codePoint c

lemma regular_list {items : List PyValue} (h : ∀ v ∈ items, v.Regular) :
    Regular (list items) := by
  refine ⟨fun c hc => ?_, wellFormedItems_iff.2 fun v hv => (h v hv).wellFormed, ?_⟩
  · obtain ⟨v, hv, hc⟩ := mem_itemPoints.1 hc
    exact (h v hv).plain c hc
  · change eqList items items = true
    induction items with
    | nil => rfl
    | cons v rest ih =>
      obtain ⟨hv, hrest⟩ := List.forall_mem_cons.1 h
      exact Bool.and_eq_true_iff.2 ⟨hv.eq_self, ih hrest⟩

lemma regular_map {α : Type} {f : α → PyValue} (h : ∀ x, (f x).Regular) (xs : List α) :
    Regular (list (xs.map f)) := by
  refine regular_list fun v hv => ?_
  obtain ⟨x, -, rfl⟩ := List.mem_map.1 hv
  exact h x

@[simp] lemma regular_strings (ss : List String) : Regular (strings ss) :=
  regular_map regular_string ss

lemma regular_dict {members : List (Text × PyValue)} (hkeys : (members.map (·.1)).Nodup)
    (h : ∀ m ∈ members, (∀ c ∈ m.1, ¬ c.IsSurrogate) ∧ m.2.Regular) : Regular (dict members) := by
  refine ⟨fun c hc => ?_, ⟨hkeys, wellFormedMembers_iff.2 fun m hm => (h m hm).2.wellFormed⟩,
    Bool.and_eq_true_iff.2 ⟨decide_eq_true rfl, eqMembers_iff.2 fun m hm => ?_⟩⟩
  · obtain ⟨m, hm, hc⟩ := mem_memberPoints.1 hc
    exact hc.elim ((h m hm).1 c) ((h m hm).2.plain c)
  · exact ⟨m.2, lookup_of_mem_of_nodup hkeys hm, (h m hm).2.eq_self⟩

lemma regular_object {members : List (String × PyValue)} (hkeys : (members.map (·.1)).Nodup)
    (h : ∀ m ∈ members, m.2.Regular) : Regular (object members) := by
  have hnodup : ((members.map fun m => (text m.1, m.2)).map (·.1)).Nodup := by
    have htexts := hkeys.map fun _ _ => text_inj.1
    rwa [List.map_map] at htexts ⊢
  refine regular_dict hnodup fun m hm => ?_
  obtain ⟨m', hm', rfl⟩ := List.mem_map.1 hm
  exact ⟨fun c hc hsurr => not_mem_text hsurr _ hc, h m' hm'⟩

end HftBot.Core.PyValue
