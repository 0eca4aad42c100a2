import Mathlib.Data.List.Forall2
import HftBot.Core.JsonText

/-!
# Reading an object

What a reader makes of a text is said piece by piece, each of them in front of any rest: the bytes
of a string, a value before a comma or a brace, and the members of an object.
-/

namespace HftBot.Core.JsonText

open HftBot.Core.Utf8

/-! ### Strings -/

/-- In front of any rest of a string, the bytes `c` stand for `s`. -/
structure Escapes (c s : Bytes) : Prop where
  quoted   : ∀ t, quoted (c ++ t) = (quoted t).map fun (x, rest) => (c ++ x, rest)
  unescape : ∀ t, unescape (c ++ t) = (unescape t).map (s ++ ·)

/-- A byte that stands for itself in a string. -/
def Plain (b : UInt8) : Prop := ¬ b < 0x20 ∧ b ≠ '"'.toUInt8 ∧ b ≠ '\\'.toUInt8

instance (b : UInt8) : Decidable (Plain b) := inferInstanceAs (Decidable (_ ∧ _))

namespace Escapes

variable {c s d r : Bytes} {b e : UInt8}

lemma nil : Escapes [] [] := by
  constructor <;> intro t <;> simp

lemma append (h : Escapes c s) (h' : Escapes d r) : Escapes (c ++ d) (s ++ r) := by
  constructor
  · intro t
    rw [List.append_assoc, h.quoted, h'.quoted, Option.map_map]
    simp only [Function.comp_def, List.append_assoc]
  · intro t
    rw [List.append_assoc, h.unescape, h'.unescape, Option.map_map]
    simp only [Function.comp_def, List.append_assoc]

lemma plain (hb : Plain b) : Escapes [b] [b] := by
  obtain ⟨hcontrol, hquote, hback⟩ := hb
  constructor
  · intro t
    rw [List.singleton_append, JsonText.quoted.eq_def]
    simp only [if_neg hquote, if_neg hback, List.singleton_append]
  · intro t
    rw [List.singleton_append, JsonText.unescape.eq_def]
    simp only [if_neg hback, if_neg hcontrol, List.singleton_append]

/-- A backslash takes the next byte into the string, whatever it is. -/
lemma quoted_backslash (e : UInt8) (t : Bytes) : JsonText.quoted ('\\'.toUInt8 :: e :: t) =
    (JsonText.quoted t).map fun (x, rest) => ('\\'.toUInt8 :: e :: x, rest) := by
  rw [JsonText.quoted.eq_def]
  simp only [if_neg (show '\\'.toUInt8 ≠ '"'.toUInt8 by decide), ↓reduceIte]

lemma letter (he : e ≠ 'u'.toUInt8) (hb : escapeLetter e = some b) :
    Escapes ['\\'.toUInt8, e] [b] := by
  constructor
  · intro t
    exact quoted_backslash e t
  · intro t
    rw [List.cons_append, List.singleton_append, JsonText.unescape.eq_def]
    simp only [↓reduceIte, if_neg he, hb, List.singleton_append]

lemma code {h₁ h₂ h₃ h₄ : UInt8} {n : Nat} (hn : codeUnit h₁ h₂ h₃ h₄ = some n) (hlt : n < 0xd800)
    (hplain : Escapes [h₁, h₂, h₃, h₄] [h₁, h₂, h₃, h₄]) :
    Escapes ['\\'.toUInt8, 'u'.toUInt8, h₁, h₂, h₃, h₄] (encode [Char.ofNat n]) := by
  constructor
  · intro t
    have hdigits := hplain.quoted t
    simp only [List.cons_append, List.nil_append] at hdigits ⊢
    rw [quoted_backslash, hdigits, Option.map_map]
    rfl
  · intro t
    simp only [List.cons_append, List.nil_append]
    rw [JsonText.unescape.eq_def]
    simp only [↓reduceIte, hn]
    rw [if_neg (by omega), if_neg (by omega)]

lemma flatMap {f : UInt8 → Bytes} (h : ∀ b ∈ s, Escapes (f b) [b]) : Escapes (s.flatMap f) s := by
  induction s with
  | nil => exact nil
  | cons a s ih =>
    exact (h a List.mem_cons_self).append (ih fun b hb => h b (List.mem_cons_of_mem a hb))

lemma of_plain (h : ∀ b ∈ s, Plain b) : Escapes s s := by
  have hs : s.flatMap (fun b => [b]) = s := by simp
  rw [← hs]
  nth_rewrite 2 [hs]
  exact flatMap fun b hb => plain (h b hb)

/-- A string is read up to its closing quote. -/
lemma string (h : Escapes c s) (t : Bytes) :
    JsonText.string (c ++ '"'.toUInt8 :: t) = some (s, t) := by
  have hquoted : JsonText.quoted (c ++ '"'.toUInt8 :: t) = some (c, t) := by
    rw [h.quoted, JsonText.quoted.eq_def]
    simp
  have hunescape : JsonText.unescape c = some s := by
    have := h.unescape []
    simpa [JsonText.unescape] using this
  simp [JsonText.string, hquoted, hunescape]

end Escapes

/-! ### Values -/

/-- What may follow a value in an object. -/
inductive Ends : Bytes → Prop
  | comma (t : Bytes) : Ends (','.toUInt8 :: t)
  | brace (t : Bytes) : Ends ('}'.toUInt8 :: t)

/-- In front of what may follow it in an object, `s` is the value `v`. -/
structure ReadsAs (s : Bytes) (v : Value) : Prop where
  skipSpace : ∀ t, skipSpace (s ++ t) = s ++ t
  value     : ∀ n t, Ends t → value (n + 1) (s ++ t) = some (v, t)

lemma skipSpace_cons {b : UInt8} (hb : isSpace b = false) (t : Bytes) :
    skipSpace (b :: t) = b :: t := by
  simp [skipSpace, hb]

lemma readsAs_string {c s : Bytes} (h : Escapes c s) :
    ReadsAs ('"'.toUInt8 :: c ++ ['"'.toUInt8]) (.str s) := by
  constructor
  · intro t
    exact skipSpace_cons (by decide) _
  · intro n t _
    have hs := h.string t
    rw [List.cons_append, List.cons_append, List.append_assoc, List.singleton_append,
      JsonText.value, if_neg (by decide), if_neg (by decide), if_pos rfl, hs]
    rfl

lemma Ends.head {t : Bytes} (h : Ends t) : ∃ b t', t = b :: t' ∧ isDigit b = false ∧
    b ≠ '.'.toUInt8 ∧ b ≠ 'e'.toUInt8 ∧ b ≠ 'E'.toUInt8 := by
  cases h with
  | comma t => exact ⟨_, t, rfl, by decide⟩
  | brace t => exact ⟨_, t, rfl, by decide⟩

lemma integer_append {ds t : Bytes} (hds : ∀ b ∈ ds, isDigit b = true) (hne : ds ≠ [])
    (hzero : ds.length = 1 ∨ ds.head? ≠ some '0'.toUInt8) (ht : Ends t) :
    integer (ds ++ t) = some (ds, t) := by
  obtain ⟨b, t, rfl, hb, -⟩ := ht.head
  have htake : (ds ++ b :: t).takeWhile isDigit = ds := by
    rw [List.takeWhile_append_of_pos hds, List.takeWhile_cons_of_neg (by simp [hb]),
      List.append_nil]
  have hdrop : (ds ++ b :: t).dropWhile isDigit = b :: t := by
    rw [List.dropWhile_append_of_pos hds, List.dropWhile_cons_of_neg (by simp [hb])]
  rw [integer, digits, htake, hdrop, if_neg hne]
  simp [hzero]

lemma fraction_eq {t : Bytes} (ht : Ends t) : fraction t = some ([], t) := by
  obtain ⟨b, t, rfl, -, hdot, -⟩ := ht.head
  simp [fraction, optionally, hdot]

lemma exponent_eq {t : Bytes} (ht : Ends t) : exponent t = some ([], t) := by
  obtain ⟨b, t, rfl, -, -, he, hE⟩ := ht.head
  simp [exponent, optionally, he, hE]

/-- A digit or a sign begins nothing but a number. -/
lemma value_number {b : UInt8} (hb : isDigit b = true ∨ b = '-'.toUInt8) (n : Nat) (t : Bytes) :
    value (n + 1) (b :: t) = (number (b :: t)).map fun (token, rest) => (.num token, rest) := by
  have hne : ∀ c : Char, isDigit c.toUInt8 = false → c.toUInt8 ≠ '-'.toUInt8 → b ≠ c.toUInt8 := by
    rintro c hdigit hminus rfl
    rcases hb with hb | hb
    · rw [hdigit] at hb
      exact Bool.false_ne_true hb
    · exact hminus hb
  rw [value, if_neg (hne '{' (by decide) (by decide)), if_neg (hne '[' (by decide) (by decide)),
    if_neg (hne '"' (by decide) (by decide)), if_neg (hne 'n' (by decide) (by decide)),
    if_neg (hne 't' (by decide) (by decide)), if_neg (hne 'f' (by decide) (by decide))]

lemma isSpace_of_isDigit {b : UInt8} (hb : isDigit b = true) : isSpace b = false := by
  simp only [isDigit, decide_eq_true_eq] at hb
  simp only [isSpace, decide_eq_false_iff_not]
  rintro (rfl | rfl | rfl | rfl) <;> exact absurd hb (by decide)

section

variable {ds : Bytes} (hds : ∀ b ∈ ds, isDigit b = true) (hne : ds ≠ [])
  (hzero : ds.length = 1 ∨ ds.head? ≠ some '0'.toUInt8)
include hds hne hzero

lemma readsAs_nat : ReadsAs ds (.num ds) := by
  obtain ⟨d, ds', rfl⟩ := List.exists_cons_of_ne_nil hne
  have hd := hds d List.mem_cons_self
  constructor
  · intro t
    exact skipSpace_cons (isSpace_of_isDigit hd) _
  · intro n t ht
    have hsign : optionally (· = '-'.toUInt8) (d :: ds' ++ t) = ([], d :: ds' ++ t) := by
      have hminus : d ≠ '-'.toUInt8 := by
        rintro rfl
        exact absurd hd (by decide)
      simp [optionally, hminus]
    have hinteger := integer_append hds hne hzero ht
    rw [List.cons_append, value_number (Or.inl hd), ← List.cons_append, number, hsign]
    simp only [Option.bind_eq_bind, hinteger, Option.bind_some, fraction_eq ht, exponent_eq ht]
    simp

lemma readsAs_neg : ReadsAs ('-'.toUInt8 :: ds) (.num ('-'.toUInt8 :: ds)) := by
  constructor
  · intro t
    exact skipSpace_cons (by decide) _
  · intro n t ht
    have hsign : optionally (· = '-'.toUInt8) ('-'.toUInt8 :: ds ++ t) =
        (['-'.toUInt8], ds ++ t) := by
      simp [optionally]
    rw [List.cons_append, value_number (Or.inr rfl), ← List.cons_append, number, hsign]
    simp only [Option.bind_eq_bind, integer_append hds hne hzero ht, Option.bind_some,
      fraction_eq ht, exponent_eq ht]
    simp

end

/-! ### Objects -/

/-- The members of an object that are there. -/
def present {α : Type} (rows : List (String × Option α)) : List (String × α) :=
  rows.filterMap fun row => row.2.map (row.1, ·)

/-- A name and a text with a colon between them. -/
def memberText (m : String × Bytes) : Bytes :=
  '"'.toUInt8 :: ascii m.1 ++ '"'.toUInt8 :: ':'.toUInt8 :: m.2

/-- The members, with commas between them. -/
def membersText (ms : List (String × Bytes)) : Bytes :=
  [','.toUInt8].intercalate (ms.map memberText)

/-- The text of an object. -/
def objectText (ms : List (String × Bytes)) : Bytes :=
  '{'.toUInt8 :: membersText ms ++ ['}'.toUInt8]

/-- A member is read as its name and its value. -/
def MemberAs (m : String × Bytes) (v : Bytes × Value) : Prop :=
  (∀ b ∈ ascii m.1, Plain b) ∧ v.1 = ascii m.1 ∧ ReadsAs m.2 v.2

lemma membersText_singleton (m : String × Bytes) : membersText [m] = memberText m := by
  simp [membersText]

lemma membersText_cons_cons (m m' : String × Bytes) (ms : List (String × Bytes)) :
    membersText (m :: m' :: ms) = memberText m ++ ','.toUInt8 :: membersText (m' :: ms) := by
  simp [membersText]

lemma member_append {m : String × Bytes} {v : Bytes × Value} (h : MemberAs m v) (n : Nat)
    {t : Bytes} (ht : Ends t) : member (value (n + 1)) (memberText m ++ t) = some (v, t) := by
  obtain ⟨hplain, hname, hvalue⟩ := h
  have hstring := (Escapes.of_plain hplain).string (':'.toUInt8 :: (m.2 ++ t))
  have htext : memberText m ++ t =
      '"'.toUInt8 :: (ascii m.1 ++ '"'.toUInt8 :: ':'.toUInt8 :: (m.2 ++ t)) := by
    simp [memberText]
  have hcolon : skipSpace (':'.toUInt8 :: (m.2 ++ t)) = ':'.toUInt8 :: (m.2 ++ t) :=
    skipSpace_cons (by decide) _
  rw [htext, member, if_pos rfl]
  simp only [Option.bind_eq_bind, hstring, Option.bind_some, hcolon, ↓reduceIte,
    hvalue.skipSpace, hvalue.value n t ht, Option.map_some]
  rw [← hname]

/-- The members of an object are read one after the other. -/
lemma items_members {ms : List (String × Bytes)} {vs : List (Bytes × Value)}
    (h : List.Forall₂ MemberAs ms vs) (hne : ms ≠ []) (n : Nat) (t : Bytes) {fuel : Nat}
    (hfuel : ms.length ≤ fuel) : items (member (value (n + 1))) '}'.toUInt8 fuel
      (membersText ms ++ '}'.toUInt8 :: t) = some (vs, t) := by
  induction h generalizing fuel with
  | nil => exact absurd rfl hne
  | @cons m v ms vs hm hms ih =>
    obtain ⟨fuel, rfl⟩ : ∃ k, fuel = k + 1 :=
      Nat.exists_eq_add_one_of_ne_zero (by simp at hfuel; omega)
    have hquote : ∀ u, skipSpace (memberText m ++ u) = memberText m ++ u :=
      fun u => skipSpace_cons (by decide) _
    cases hms with
    | nil =>
      have hmember := member_append hm n (.brace t)
      rw [membersText_singleton, items, hquote]
      simp only [Option.bind_eq_bind, hmember, Option.bind_some]
      rw [skipSpace_cons (by decide)]
      simp only [↓reduceIte]
    | @cons m' v' ms vs hm' hms =>
      have hmember := member_append hm n (.comma (membersText (m' :: ms) ++ '}'.toUInt8 :: t))
      have hrest := ih (by simp) (Nat.le_of_succ_le_succ hfuel)
      rw [membersText_cons_cons, List.append_assoc, List.cons_append, items, hquote]
      simp only [Option.bind_eq_bind, hmember, Option.bind_some]
      rw [skipSpace_cons (by decide)]
      simp only [if_neg (show ','.toUInt8 ≠ '}'.toUInt8 by decide), ↓reduceIte, hrest,
        Option.map_some]

lemma length_le_membersText (ms : List (String × Bytes)) :
    ms.length ≤ (membersText ms).length := by
  induction ms with
  | nil => exact Nat.zero_le _
  | cons m ms ih =>
    have hm : 0 < (memberText m).length := by simp [memberText]
    cases ms with
    | nil =>
      rw [membersText_singleton]
      exact hm
    | cons m' ms =>
      rw [membersText_cons_cons, List.length_append, List.length_cons, List.length_cons]
      exact Nat.add_comm 1 _ ▸ Nat.add_le_add hm (Nat.le_succ_of_le ih)

/-- The members that a table of values stands for. -/
def membersOf (rows : List (String × Option Value)) : List (Bytes × Value) :=
  (present rows).map fun row => (ascii row.1, row.2)

/-- A row is read as another one: it is there if the other one is. -/
def RowAs (row : String × Option Bytes) (row' : String × Option Value) : Prop :=
  row.1 = row'.1 ∧ Option.Rel ReadsAs row.2 row'.2

lemma memberAs_present {rows : List (String × Option Bytes)} {rows' : List (String × Option Value)}
    (hplain : ∀ row ∈ rows, ∀ b ∈ ascii row.1, Plain b) (h : List.Forall₂ RowAs rows rows') :
    List.Forall₂ MemberAs (present rows) (membersOf rows') := by
  induction h with
  | nil => exact .nil
  | @cons row row' rows rows' hrow hrows ih =>
    obtain ⟨hname, hplain⟩ := List.forall_mem_cons.1 hplain
    have htail := ih hplain
    obtain ⟨name, o⟩ := row
    obtain ⟨name', o'⟩ := row'
    obtain ⟨rfl, hvalue⟩ := hrow
    cases hvalue with
    | some hvalue => exact .cons ⟨hname, rfl, hvalue⟩ htail
    | none => exact htail

/-- A member of a table with distinct names is found under its name. -/
lemma field_membersOf {rows : List (String × Option Value)}
    (hnodup : (rows.map fun row => ascii row.1).Nodup) {name : String} {o : Option Value}
    (hmem : (name, o) ∈ rows) : field (membersOf rows) name = o := by
  induction rows with
  | nil => exact absurd hmem List.not_mem_nil
  | cons row rows ih =>
    obtain ⟨name', o'⟩ := row
    rw [List.map_cons, List.nodup_cons] at hnodup
    obtain ⟨hnew, hnodup⟩ := hnodup
    rcases List.mem_cons.1 hmem with heq | hmem
    · obtain ⟨rfl, rfl⟩ := Prod.mk.inj heq
      cases o with
      | some v => simp [field, membersOf, present]
      | none =>
        -- the name occurs in no later row
        refine List.lookup_eq_none_iff.2 fun p hp => ?_
        have hne : p.1 ∈ rows.map fun row => ascii row.1 := by
          simp only [membersOf, present, List.filterMap_cons, Option.map_none, List.mem_map,
            List.mem_filterMap, Option.map_eq_some_iff] at hp
          obtain ⟨-, ⟨row, hrow, v, -, rfl⟩, rfl⟩ := hp
          exact List.mem_map.2 ⟨row, hrow, rfl⟩
        rw [bne_iff_ne]
        intro heq
        exact hnew (heq ▸ hne)
    · have hne : ascii name ≠ ascii name' := by
        intro heq
        exact hnew (heq ▸ List.mem_map.2 ⟨(name, o), hmem, rfl⟩)
      have hih := ih hnodup hmem
      cases o' with
      | some v =>
        simp only [field, membersOf, present, List.filterMap_cons, Option.map_some, List.map_cons,
          List.lookup_cons, beq_eq_false_iff_ne.2 hne] at hih ⊢
        exact hih
      | none => exact hih

/-- The members of a table with distinct names have distinct names. -/
lemma nodup_membersOf {rows : List (String × Option Value)}
    (hnodup : (rows.map fun row => ascii row.1).Nodup) :
    ((membersOf rows).map Prod.fst).Nodup := by
  refine hnodup.sublist ?_
  clear hnodup
  induction rows with
  | nil => exact .slnil
  | cons row rows ih =>
    obtain ⟨name, o⟩ := row
    cases o with
    | some v => exact ih.cons_cons _
    | none => exact ih.cons _

/-- What a relation says of its first argument holds of all of a related list. -/
lemma forall_of_forall₂ {α β : Type} {R : α → β → Prop} {P : α → Prop} {as : List α} {bs : List β}
    (h : List.Forall₂ R as bs) (hR : ∀ a b, R a b → P a) : ∀ a ∈ as, P a := by
  induction h with
  | nil => exact fun a ha => absurd ha List.not_mem_nil
  | cons hab _ ih => exact List.forall_mem_cons.2 ⟨hR _ _ hab, ih⟩

section

variable {ms : List (String × Bytes)} {vs : List (Bytes × Value)}
  (h : List.Forall₂ MemberAs ms vs) (hne : ms ≠ [])
include h hne

/-- An object is read as its members, and whatever follows it is left. -/
theorem value_objectText (n : Nat) (t : Bytes) :
    value (n + 2) (objectText ms ++ t) = some (.obj vs, t) := by
  obtain ⟨m, ms, rfl⟩ := List.exists_cons_of_ne_nil hne
  have hquote : ∃ u, membersText (m :: ms) = '"'.toUInt8 :: u := by
    cases ms with
    | nil => exact ⟨_, by rw [membersText_singleton, memberText, List.cons_append]⟩
    | cons m' ms =>
      exact ⟨_, by rw [membersText_cons_cons, memberText, List.cons_append, List.cons_append]⟩
  have hlength := length_le_membersText (m :: ms)
  obtain ⟨u, hu⟩ := hquote
  have hfuel : (m :: ms).length ≤ ('"'.toUInt8 :: (u ++ '}'.toUInt8 :: t)).length := by
    rw [hu] at hlength
    simp only [List.length_cons, List.length_append] at hlength ⊢
    omega
  have hitems := items_members h hne n t hfuel
  rw [hu, List.cons_append] at hitems
  have htext : objectText (m :: ms) ++ t =
      '{'.toUInt8 :: '"'.toUInt8 :: (u ++ '}'.toUInt8 :: t) := by
    simp [objectText, hu]
  rw [htext, value, if_pos rfl, container, skipSpace_cons (by decide)]
  simp only [if_neg (show '"'.toUInt8 ≠ '}'.toUInt8 by decide), hitems, Option.map_some]

/-- A text that is one object is read as its members if it is valid. -/
theorem read_objectText :
    read (objectText ms) = if Valid (objectText ms) then some (.obj vs) else none := by
  obtain ⟨n, hn⟩ : ∃ n, (objectText ms).length = n + 2 := by
    refine ⟨(membersText ms).length, ?_⟩
    simp [objectText]
  have hskip : skipSpace (objectText ms) = objectText ms := skipSpace_cons (by decide) _
  have hvalue := value_objectText h hne n []
  rw [List.append_nil] at hvalue
  rw [read, hskip, hn, hvalue]
  simp [skipSpace]

end

/-! ### Bytes of an object -/

lemma forall_present_iff {α : Type} {rows : List (String × Option α)} {P : String × α → Prop} :
    (∀ m ∈ present rows, P m) ↔ ∀ row ∈ rows, ∀ a ∈ row.2, P (row.1, a) := by
  constructor
  · intro h row hrow a ha
    refine h (row.1, a) (List.mem_filterMap.2 ⟨row, hrow, ?_⟩)
    rw [Option.mem_def.1 ha, Option.map_some]
  · intro h m hm
    obtain ⟨row, hrow, heq⟩ := List.mem_filterMap.1 hm
    obtain ⟨a, ha, rfl⟩ := Option.map_eq_some_iff.1 heq
    exact h row hrow a ha

/-- A property of the punctuation, the names and the texts is one of all bytes. -/
lemma forall_mem_objectText {P : UInt8 → Prop} {ms : List (String × Bytes)}
    (hpunct : ∀ c ∈ ascii "\x7b\x7d,:\"", P c)
    (hms : ∀ m ∈ ms, (∀ b ∈ ascii m.1, P b) ∧ ∀ b ∈ m.2, P b) : ∀ b ∈ objectText ms, P b := by
  have hmember : ∀ m ∈ ms, ∀ b ∈ memberText m, P b := by
    intro m hm b hb
    simp only [memberText, List.cons_append, List.mem_cons, List.mem_append] at hb
    rcases hb with rfl | hb | rfl | rfl | hb
    · exact hpunct _ (by decide)
    · exact (hms m hm).1 b hb
    · exact hpunct _ (by decide)
    · exact hpunct _ (by decide)
    · exact (hms m hm).2 b hb
  have hmembers : ∀ b ∈ membersText ms, P b := by
    clear hms
    induction ms with
    | nil => exact fun b hb => absurd hb (by simp [membersText])
    | cons m ms ih =>
      have htail := ih fun m' hm' => hmember m' (List.mem_cons_of_mem m hm')
      cases ms with
      | nil =>
        rw [membersText_singleton]
        exact hmember m List.mem_cons_self
      | cons m' ms =>
        intro b hb
        rw [membersText_cons_cons, List.mem_append, List.mem_cons] at hb
        rcases hb with hb | rfl | hb
        · exact hmember m List.mem_cons_self b hb
        · exact hpunct _ (by decide)
        · exact htail b hb
  intro b hb
  simp only [objectText, List.cons_append, List.mem_cons, List.mem_append, List.not_mem_nil,
    or_false] at hb
  rcases hb with rfl | hb | rfl
  · exact hpunct _ (by decide)
  · exact hmembers b hb
  · exact hpunct _ (by decide)

/-- An object with ASCII names is valid exactly if its texts are. -/
lemma valid_objectText_iff {ms : List (String × Bytes)}
    (hms : ∀ m ∈ ms, ∀ b ∈ ascii m.1, IsAscii b) :
    Valid (objectText ms) ↔ ∀ m ∈ ms, Valid m.2 := by
  have hmember : ∀ m ∈ ms, (Valid (memberText m) ↔ Valid m.2) := by
    intro m hm
    rw [memberText, List.cons_append, valid_cons_iff (by decide), valid_append_iff (hms m hm),
      valid_cons_iff (by decide), valid_cons_iff (by decide)]
  rw [objectText, List.cons_append, valid_cons_iff (by decide), valid_append_cons_iff (by decide),
    and_iff_left Valid.nil]
  clear hms
  induction ms with
  | nil => simpa [membersText] using Valid.nil
  | cons m ms ih =>
    have hhead := hmember m List.mem_cons_self
    have htail := ih fun m' hm' => hmember m' (List.mem_cons_of_mem m hm')
    rw [List.forall_mem_cons]
    cases ms with
    | nil =>
      rw [membersText_singleton, hhead]
      simp
    | cons m' ms =>
      rw [membersText_cons_cons, valid_append_cons_iff (by decide), hhead]
      exact and_congr_right fun _ => htail

end HftBot.Core.JsonText
