import HftBot.Core.CanonicalJson

/-!
# What lies between the punctuation

A part of a JSON text that has no punctuation lies in one key, one string or one word. This also
holds after the characters are changed, as by a conversion to upper case, when no punctuation is
changed into one of the part.
-/

namespace HftBot.Core

lemma infix_append_cons {α : Type} {t a b : List α} {c : α} (hc : c ∉ t)
    (h : t <:+: a ++ c :: b) : t <:+: a ∨ t <:+: b := by
  obtain ⟨s, u, h⟩ := h
  rw [List.append_eq_append_iff] at h
  rcases h with ⟨z, rfl, -⟩ | ⟨z, hst, hz⟩
  · exact .inl (List.infix_append s t z)
  cases z with
  | nil =>
    rw [List.append_nil] at hst
    exact .inl (hst ▸ List.infix_append_right)
  | cons d z =>
    obtain ⟨rfl, rfl⟩ := List.cons.inj hz
    rw [List.append_eq_append_iff] at hst
    rcases hst with ⟨y, -, rfl⟩ | ⟨y, -, hy⟩
    · exact absurd (List.mem_append_right y List.mem_cons_self) hc
    cases y with
    | nil =>
      rw [List.nil_append] at hy
      exact absurd (hy ▸ List.mem_cons_self) hc
    | cons e y =>
      -- the part comes after the separator
      obtain ⟨-, rfl⟩ := List.cons.inj hy
      exact .inr (List.infix_append y t u)

namespace PyValue

mutual

/-- The keys, strings and words of the text. -/
def leaves : PyValue → List Text
  | str s        => [s.flatMap escape]
  | list items   => itemLeaves items
  | dict members => memberLeaves members
  | v            => [v.write]

def itemLeaves : List PyValue → List Text
  | []        => []
  | v :: rest => leaves v ++ itemLeaves rest

def memberLeaves : List (Text × PyValue) → List Text
  | []             => []
  | (k, v) :: rest => k.flatMap escape :: leaves v ++ memberLeaves rest

end

lemma mem_itemLeaves {leaf : Text} {items : List PyValue} :
    leaf ∈ itemLeaves items ↔ ∃ v ∈ items, leaf ∈ v.leaves := by
  induction items with
  | nil => simp [itemLeaves]
  | cons v rest ih => simp [itemLeaves, ih]

lemma mem_memberLeaves {leaf : Text} {members : List (Text × PyValue)} :
    leaf ∈ memberLeaves members ↔
      ∃ m ∈ members, leaf = m.1.flatMap escape ∨ leaf ∈ m.2.leaves := by
  induction members with
  | nil => simp [memberLeaves]
  | cons m rest ih => simp [memberLeaves, ih, or_assoc]

lemma mem_leaves_sorted {leaf : Text} (v : PyValue) : leaf ∈ v.sorted.leaves ↔ leaf ∈ v.leaves := by
  induction v using PyValue.induct with
  | null => exact Iff.rfl
  | bool b => exact Iff.rfl
  | int n => exact Iff.rfl
  | float x => exact Iff.rfl
  | str s => exact Iff.rfl
  | list items ih =>
    rw [sorted, leaves, leaves, mem_itemLeaves, mem_itemLeaves, sortedItems_eq]
    simp only [List.mem_map, exists_exists_and_eq_and]
    exact exists_congr fun v => and_congr_right (ih v)
  | dict members ih =>
    rw [sorted, leaves, leaves, mem_memberLeaves, mem_memberLeaves, sortedMembers_eq]
    simp only [List.mem_insertionSort, List.mem_map, exists_exists_and_eq_and]
    exact exists_congr fun m => and_congr_right fun hm => or_congr_right (ih m hm)

/-! ### Leaves of literals -/

lemma forall_leaves_object {P : Text → Prop} {members : List (String × PyValue)} :
    (∀ leaf ∈ (object members).leaves, P leaf) ↔
      ∀ m ∈ members, P ((text m.1).flatMap escape) ∧ ∀ leaf ∈ m.2.leaves, P leaf := by
  simp only [object, leaves, mem_memberLeaves, List.mem_map, exists_exists_and_eq_and,
    forall_exists_index, and_imp]
  rw [forall_comm]
  refine forall_congr' fun m => ?_
  constructor
  · exact fun h hm => ⟨h _ hm (.inl rfl), fun leaf hleaf => h leaf hm (.inr hleaf)⟩
  · rintro h leaf hm (rfl | hleaf)
    · exact (h hm).1
    · exact (h hm).2 leaf hleaf

lemma forall_leaves_string {P : Text → Prop} {s : String} :
    (∀ leaf ∈ (string s).leaves, P leaf) ↔ P ((text s).flatMap escape) :=
  List.forall_mem_singleton

lemma forall_leaves_strings {P : Text → Prop} {ss : List String} :
    (∀ leaf ∈ (strings ss).leaves, P leaf) ↔ ∀ s ∈ ss, P ((text s).flatMap escape) := by
  simp only [strings, leaves, mem_itemLeaves, List.mem_map, exists_exists_and_eq_and,
    forall_exists_index, and_imp]
  rw [forall_comm]
  exact forall_congr' fun s => ⟨fun h hs => h _ hs (List.mem_singleton_self _),
    fun h leaf hs hleaf => List.mem_singleton.1 hleaf ▸ h hs⟩

/-! ### Parts of the text -/

def punctuation : List CodePoint := ['"', '[', ']', '\x7b', '\x7d', ',', ':'].map codePoint

section

variable {t : Text} {f : CodePoint → CodePoint}

/-- The part is in the text before a punctuation or in the text after it. -/
lemma infix_punctuation (hf : ∀ c ∈ punctuation, f c ∉ t) {a b : Text} {c : CodePoint}
    (hc : c ∈ punctuation) (h : t <:+: (a ++ c :: b).map f) : t <:+: a.map f ∨ t <:+: b.map f := by
  rw [List.map_append, List.map_cons] at h
  exact infix_append_cons (hf c hc) h

/-- Two punctuations have nothing between them. -/
lemma not_infix_pair (ht : t ≠ []) (hf : ∀ c ∈ punctuation, f c ∉ t) {c d : CodePoint}
    (hc : c ∈ punctuation) (hd : d ∈ punctuation) : ¬ t <:+: [c, d].map f := by
  intro h
  rcases infix_punctuation (a := []) hf hc h with h | h
  · exact ht (List.infix_nil.1 h)
  rcases infix_punctuation (a := []) (b := []) hf hd h with h | h
  · exact ht (List.infix_nil.1 h)
  · exact ht (List.infix_nil.1 h)

lemma infix_quoted (ht : t ≠ []) (hf : ∀ c ∈ punctuation, f c ∉ t) {k : Text}
    (h : t <:+: (quoted k).map f) : t <:+: (k.flatMap escape).map f := by
  have hquote : codePoint '"' ∈ punctuation := List.mem_map_of_mem (by decide)
  rcases infix_punctuation (a := []) hf hquote h with h | h
  · exact absurd (List.infix_nil.1 h) ht
  rcases infix_punctuation (b := []) hf hquote h with h | h
  · exact h
  · exact absurd (List.infix_nil.1 h) ht

lemma infix_writeItems (ht : t ≠ []) (hf : ∀ c ∈ punctuation, f c ∉ t) {items : List PyValue} :
    ∀ {x : Text}, t <:+: (x ++ writeItems items).map f →
      t <:+: x.map f ∨ ∃ v ∈ items, t <:+: v.write.map f := by
  induction items with
  | nil =>
    intro x h
    rcases infix_punctuation hf (List.mem_map_of_mem (by decide)) h with h | h
    · exact .inl h
    · exact absurd (List.infix_nil.1 h) ht
  | cons v rest ih =>
    intro x h
    rcases infix_punctuation hf (List.mem_map_of_mem (by decide)) h with h | h
    · exact .inl h
    rcases ih h with h | ⟨w, hw, h⟩
    · exact .inr ⟨v, List.mem_cons_self, h⟩
    · exact .inr ⟨w, List.mem_cons_of_mem v hw, h⟩

lemma infix_writeMembers (ht : t ≠ []) (hf : ∀ c ∈ punctuation, f c ∉ t)
    {members : List (Text × PyValue)} : ∀ {x : Text}, t <:+: (x ++ writeMembers members).map f →
      t <:+: x.map f ∨
        ∃ m ∈ members, t <:+: (m.1.flatMap escape).map f ∨ t <:+: m.2.write.map f := by
  induction members with
  | nil =>
    intro x h
    rcases infix_punctuation hf (List.mem_map_of_mem (by decide)) h with h | h
    · exact .inl h
    · exact absurd (List.infix_nil.1 h) ht
  | cons m rest ih =>
    intro x h
    obtain ⟨k, v⟩ := m
    rw [writeMembers, List.cons_append, List.cons_append, List.append_assoc] at h
    rcases infix_punctuation hf (List.mem_map_of_mem (by decide)) h with h | h
    · exact .inl h
    rcases infix_punctuation hf (List.mem_map_of_mem (by decide)) h with h | h
    · exact .inr ⟨(k, v), List.mem_cons_self, .inl (infix_quoted ht hf h)⟩
    rcases ih h with h | ⟨m, hm, h⟩
    · exact .inr ⟨(k, v), List.mem_cons_self, .inr h⟩
    · exact .inr ⟨m, List.mem_cons_of_mem (k, v) hm, h⟩

/-- A part without punctuation lies in a key, a string or a word. -/
theorem infix_write (ht : t ≠ []) (hf : ∀ c ∈ punctuation, f c ∉ t) (v : PyValue) :
    t <:+: v.write.map f → ∃ leaf ∈ v.leaves, t <:+: leaf.map f := by
  induction v using PyValue.induct with
  | null => exact fun h => ⟨_, List.mem_singleton_self _, h⟩
  | bool b => exact fun h => ⟨_, List.mem_singleton_self _, h⟩
  | int n => exact fun h => ⟨_, List.mem_singleton_self _, h⟩
  | float x => exact fun h => ⟨_, List.mem_singleton_self _, h⟩
  | str s => exact fun h => ⟨_, List.mem_singleton_self _, infix_quoted ht hf h⟩
  | list items ih =>
    intro h
    have hitem : ∃ v ∈ items, t <:+: v.write.map f := by
      cases items with
      | nil =>
        have hbrackets : text "[]" = [codePoint '[', codePoint ']'] := by decide
        rw [write, hbrackets] at h
        exact absurd h (not_infix_pair ht hf (List.mem_map_of_mem (by decide))
          (List.mem_map_of_mem (by decide)))
      | cons v rest =>
        rcases infix_punctuation (a := []) hf (List.mem_map_of_mem (by decide)) h with h | h
        · exact absurd (List.infix_nil.1 h) ht
        rcases infix_writeItems ht hf h with h | ⟨w, hw, h⟩
        · exact ⟨v, List.mem_cons_self, h⟩
        · exact ⟨w, List.mem_cons_of_mem v hw, h⟩
    obtain ⟨v, hv, h⟩ := hitem
    obtain ⟨leaf, hleaf, h⟩ := ih v hv h
    exact ⟨leaf, mem_itemLeaves.2 ⟨v, hv, hleaf⟩, h⟩
  | dict members ih =>
    intro h
    have hmember : ∃ m ∈ members,
        t <:+: (m.1.flatMap escape).map f ∨ t <:+: m.2.write.map f := by
      cases members with
      | nil =>
        have hbraces : text "\x7b\x7d" = [codePoint '\x7b', codePoint '\x7d'] := by decide
        rw [write, hbraces] at h
        exact absurd h (not_infix_pair ht hf (List.mem_map_of_mem (by decide))
          (List.mem_map_of_mem (by decide)))
      | cons m rest =>
        obtain ⟨k, v⟩ := m
        rw [write, List.cons_append, List.cons_append, List.append_assoc] at h
        rcases infix_punctuation (a := []) hf (List.mem_map_of_mem (by decide)) h with h | h
        · exact absurd (List.infix_nil.1 h) ht
        rcases infix_punctuation hf (List.mem_map_of_mem (by decide)) h with h | h
        · exact ⟨(k, v), List.mem_cons_self, .inl (infix_quoted ht hf h)⟩
        rcases infix_writeMembers ht hf h with h | ⟨m, hm, h⟩
        · exact ⟨(k, v), List.mem_cons_self, .inr h⟩
        · exact ⟨m, List.mem_cons_of_mem (k, v) hm, h⟩
    obtain ⟨m, hm, h | h⟩ := hmember
    · exact ⟨_, mem_memberLeaves.2 ⟨m, hm, .inl rfl⟩, h⟩
    · obtain ⟨leaf, hleaf, h⟩ := ih m hm h
      exact ⟨leaf, mem_memberLeaves.2 ⟨m, hm, .inr hleaf⟩, h⟩

/-- A character of the text is a punctuation or in a leaf. -/
lemma mem_punctuation_or_leaf {v : PyValue} {c : CodePoint} (h : c ∈ v.write) :
    c ∈ punctuation ∨ ∃ leaf ∈ v.leaves, c ∈ leaf := by
  by_cases hc : c ∈ punctuation
  · exact .inl hc
  have hpart : [c] <:+: v.write.map id := by
    rwa [List.map_id, List.singleton_infix_iff]
  have hne : ∀ d ∈ punctuation, id d ∉ [c] := by
    intro d hd hmem
    exact hc (List.mem_singleton.1 hmem ▸ hd)
  obtain ⟨leaf, hleaf, h⟩ := infix_write (List.cons_ne_nil c []) hne v hpart
  rw [List.map_id, List.singleton_infix_iff] at h
  exact .inr ⟨leaf, hleaf, h⟩

end

/-! ### Literals -/

/-- A character that is written as it is. -/
lemma escape_of_plain {c : CodePoint} (hlow : 32 ≤ c.val) (hquote : c.val ≠ 34)
    (hbackslash : c.val ≠ 92) : escape c = [c] := by
  have hne : ∀ d : Char, d.toNat = 34 ∨ d.toNat = 92 ∨ d.toNat < 32 → c ≠ codePoint d := by
    rintro d hd rfl
    change 32 ≤ d.toNat at hlow
    change d.toNat ≠ 34 at hquote
    change d.toNat ≠ 92 at hbackslash
    omega
  rw [escape, if_neg (hne _ (by decide)), if_neg (hne _ (by decide)), if_neg (hne _ (by decide)),
    if_neg (hne _ (by decide)), if_neg (hne _ (by decide)), if_neg (by omega), if_neg (by omega),
    if_neg (by omega)]

def ofByte (b : UInt8) : CodePoint := ⟨b.toNat, Nat.lt_trans b.toNat_lt (by decide)⟩

/-- The text of a literal whose characters are ASCII, read off its bytes. -/
def byteText (s : String) : Text := s.toByteArray.data.toList.map ofByte

/-- The characters are ASCII and are written as they are. -/
def isPlain (s : String) : Bool :=
  s.toByteArray.data.toList.all fun b => 32 ≤ b && b < 128 && b != 34 && b != 92

lemma data_toByteArray (s : String) : s.toByteArray.data.toList = Utf8.encode s.toList := by
  have h : (String.ofList s.toList).toByteArray.data.toList = Utf8.encode s.toList := by
    rw [String.toByteArray_ofList, List.utf8Encode, List.data_toByteArray]
    rfl
  rwa [String.ofList_toList] at h

lemma codePoint_of_encoding {c : Char} {b : UInt8} (h : String.utf8EncodeChar c = [b]) :
    codePoint c = ofByte b := by
  have hsize : c.utf8Size = 1 := by
    rw [← String.length_utf8EncodeChar, h, List.length_singleton]
  rw [String.utf8EncodeChar_eq_singleton hsize] at h
  obtain rfl := List.singleton_inj.1 h
  rw [Char.utf8Size_eq_one_iff, UInt32.le_iff_toNat_le] at hsize
  apply Fin.ext
  change c.val.toNat = c.val.toUInt8.toNat
  rw [UInt32.toNat_toUInt8, Nat.mod_eq_of_lt]
  exact Nat.lt_of_le_of_lt hsize (by decide)

lemma map_codePoint {cs : List Char} (h : ∀ b ∈ Utf8.encode cs, Utf8.IsAscii b) :
    cs.map codePoint = (Utf8.encode cs).map ofByte := by
  induction cs with
  | nil => rfl
  | cons c cs ih =>
    rw [Utf8.encode_cons, List.forall_mem_append] at h
    obtain ⟨b, hb⟩ := List.exists_mem_of_ne_nil _ (String.utf8EncodeChar_ne_nil (c := c))
    have hc := Utf8.utf8EncodeChar_eq_of_mem (h.1 b hb) hb
    rw [List.map_cons, ih h.2, codePoint_of_encoding hc, Utf8.encode_cons, hc]
    rfl

/-- A plain literal is its own leaf, which its bytes give. -/
lemma text_of_isPlain {s : String} (h : isPlain s = true) : text s = byteText s ∧
    (text s).flatMap escape = byteText s ∧ ∀ c ∈ byteText s, c.val < 128 := by
  have hbytes : ∀ b ∈ s.toByteArray.data.toList, 32 ≤ b ∧ b < 128 ∧ b ≠ 34 ∧ b ≠ 92 := by
    intro b hb
    have hb := List.all_eq_true.1 h b hb
    simpa [and_assoc] using hb
  have htext : text s = byteText s := by
    rw [text, byteText, data_toByteArray]
    refine map_codePoint fun b hb => ?_
    rw [← data_toByteArray] at hb
    exact (hbytes b hb).2.1
  refine ⟨htext, ?_, fun c hc => ?_⟩
  · rw [htext, byteText]
    refine (List.flatMap_congr fun c hc => ?_).trans (List.flatMap_singleton' _)
    obtain ⟨b, hb, rfl⟩ := List.mem_map.1 hc
    obtain ⟨hlow, -, hquote, hbackslash⟩ := hbytes b hb
    refine escape_of_plain hlow (fun h => hquote ?_) fun h => hbackslash ?_
    · exact UInt8.toNat_inj.1 h
    · exact UInt8.toNat_inj.1 h
  · obtain ⟨b, hb, rfl⟩ := List.mem_map.1 hc
    exact (hbytes b hb).2.1

def firstByte (s : String) : UInt8 := s.toByteArray.data.toList.headD 0

/-- A literal that begins with an ASCII character. -/
lemma head_text {s : String} (hpos : 0 < firstByte s) (hascii : firstByte s < 128) :
    s.toList.head? = some (Char.ofUInt8 (firstByte s)) := by
  rw [firstByte, data_toByteArray] at hpos hascii ⊢
  cases hs : s.toList with
  | nil =>
    rw [hs] at hpos
    exact absurd hpos (by decide)
  | cons c rest =>
    rw [hs, Utf8.encode_cons] at hascii
    obtain ⟨b, bs, hc⟩ := List.exists_cons_of_ne_nil (String.utf8EncodeChar_ne_nil (c := c))
    rw [hc] at hascii
    have hsingle := Utf8.utf8EncodeChar_eq_of_mem hascii (hc ▸ List.mem_cons_self)
    have hbyte : codePoint c = codePoint (Char.ofUInt8 b) := codePoint_of_encoding hsingle
    rw [Utf8.encode_cons, hc, codePoint_inj.1 hbyte]
    rfl

end PyValue

end HftBot.Core
