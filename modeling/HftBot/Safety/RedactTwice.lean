import HftBot.Safety.Redact

/-!
# Redaction ends and is idempotent

The loop searches the text that it lengthens, but what it puts in has no name in it, so every round
leaves fewer places to come to. A line that one pass leaves as it is stays so through the passes for
the other names: a pass cuts a line at a colon, and a name in front of that colon has no other colon
behind it.
-/

namespace HftBot

open HftBot.Core

/-! ### The loop without a bound -/

/-- The loop for a key from `start` on ends with that text. -/
inductive KeyLoopEnds (key : List Char) : Nat → List Char → List Char → Prop
  | done {start s} (h : findFrom key s start = none) : KeyLoopEnds key start s s
  | round {start s p r} (h : findFrom key s start = some p)
      (hrest : KeyLoopEnds key (p + 1) (redactAt p s) r) : KeyLoopEnds key start s r

/-- The loops for the keys end one after the other. -/
inductive RedactionEnds : List (List Char) → List Char → List Char → Prop
  | nil {s} : RedactionEnds [] s s
  | cons {key keys s t r} (h : KeyLoopEnds key 0 s t) (hrest : RedactionEnds keys t r) :
    RedactionEnds (key :: keys) s r

lemma KeyLoopEnds.unique {key : List Char} {start : Nat} {s r r' : List Char}
    (h : KeyLoopEnds key start s r) (h' : KeyLoopEnds key start s r') : r = r' := by
  induction h with
  | done hnone =>
    cases h' with
    | done _ => rfl
    | round hsome _ => rw [hnone] at hsome; cases hsome
  | round hsome _ ih =>
    cases h' with
    | done hnone => rw [hsome] at hnone; cases hnone
    | round hsome' hrest =>
      rw [hsome] at hsome'
      cases hsome'
      exact ih hrest

lemma exists_lines (t : List Char) : ∃ w ls, t = w ++ moreLines ls ∧ '\n' ∉ w := by
  obtain ⟨w, ls, hsplit⟩ := List.exists_cons_of_ne_nil (List.splitOn_ne_nil '\n' t)
  refine ⟨w, ls, ?_, newline_notMem_of_mem_splitOn (s := t) (by rw [hsplit]; simp)⟩
  rw [← intercalate_eq, ← hsplit, List.intercalate_splitOn]

namespace IsKey

variable {key : List Char} (hkey : IsKey key)

include hkey

/-- A round leaves fewer places behind the one it came to. -/
lemma occurrences_redactAt_lt {s : List Char} {start p : Nat} (h : findFrom key s start = some p) :
    occurrences key ((redactAt p s).drop (p + 1)) < occurrences key (s.drop start) := by
  obtain ⟨n, hn, rfl⟩ := Option.map_eq_some_iff.1 h
  obtain ⟨u, x, v, hdrop, hu, hx, hfewer⟩ := find_eq_some hkey.ne_nil hn
  refine Nat.lt_of_le_of_lt ?_ hfewer
  obtain ⟨w, ls, hlines, hw⟩ := exists_lines (x :: v)
  have hprefix : key <+: w := by
    rw [hlines] at hx
    cases ls with
    | nil => rwa [moreLines, List.flatMap_nil, List.append_nil] at hx
    | cons l ls =>
      rw [moreLines, List.flatMap_cons, List.cons_append] at hx
      exact (prefix_append_cons_iff hkey.newline w _).1 hx
  -- the line is entered at the first character of the key
  obtain ⟨c, key', rfl⟩ := List.exists_cons_of_ne_nil hkey.ne_nil
  obtain ⟨w', rfl⟩ : ∃ w', w = c :: w' := by
    obtain ⟨t, rfl⟩ := hprefix
    exact ⟨key' ++ t, rfl⟩
  rw [List.cons_append, List.cons.injEq] at hlines
  obtain ⟨rfl, rfl⟩ := hlines
  obtain ⟨v', hv', -, hle⟩ := hkey.redactLine_tail hprefix
  have hstart : start ≤ s.length := by
    by_contra hlong
    rw [List.drop_eq_nil_of_le (by omega)] at hdrop
    cases u <;> cases hdrop
  have hs : s = s.take start ++ u ++ (x :: w' ++ moreLines ls) := by
    rw [List.append_assoc, List.cons_append, ← hdrop, List.take_append_drop]
  have hlength : (s.take start ++ u).length = start + n := by
    rw [List.length_append, List.length_take, hu]
    omega
  have hat := redactAt_append (s.take start ++ u) hw ls
  rw [← hs, hlength, hv'] at hat
  have hsplit : s.take start ++ u ++ (x :: v' ++ moreLines ls) =
      (s.take start ++ u ++ [x]) ++ (v' ++ moreLines ls) := by simp
  rw [hat, hsplit, List.drop_left' (by simp [hu]; omega), hkey.occurrences_moreLines,
    hkey.occurrences_moreLines]
  exact Nat.add_le_add_right hle _

lemma keyLoopEnds {rounds start : Nat} {s : List Char}
    (h : occurrences key (s.drop start) < rounds) :
    KeyLoopEnds key start s (redactKeyLoop key rounds start s) := by
  induction rounds generalizing start s with
  | zero => cases h
  | succ rounds ih =>
    rw [redactKeyLoop]
    cases hp : findFrom key s start with
    | none => exact .done hp
    | some p =>
      have hfewer := hkey.occurrences_redactAt_lt hp
      exact .round hp (ih (by omega))

lemma keyLoopEnds_redactKey (s : List Char) : KeyLoopEnds key 0 s (redactKey key s) :=
  hkey.keyLoopEnds (Nat.lt_succ_of_le (occurrences_le_length key s))

end IsKey

/-- Without a bound on the rounds the loops end with the text of the passes. -/
theorem redactionEnds_iff {keys : List (List Char)} (hkeys : ∀ key ∈ keys, IsKey key)
    {s r : List Char} :
    RedactionEnds keys s r ↔ keys.foldl (fun s key => redactKey key s) s = r := by
  induction keys generalizing s with
  | nil =>
    constructor
    · rintro ⟨⟩
      rfl
    · rintro rfl
      exact .nil
  | cons key keys ih =>
    rw [List.forall_mem_cons] at hkeys
    have hends := hkeys.1.keyLoopEnds_redactKey s
    rw [List.foldl_cons, ← ih hkeys.2]
    constructor
    · rintro (_ | ⟨h, hrest⟩)
      rwa [hends.unique h]
    · exact .cons hends

/-! ### Lines that a pass leaves as they are -/

lemma exists_cut {u v : List Char} (h : ':' ∈ v) :
    ∃ w z, u ++ v = w ++ ':' :: z ∧ u.length ≤ w.length ∧ ':' ∉ w.drop u.length := by
  obtain ⟨x, z, rfl, hx⟩ := List.eq_append_cons_of_mem h
  exact ⟨u ++ x, z, (List.append_assoc u x _).symm, by simp, by rwa [List.drop_left]⟩

namespace IsKey

variable {key : List Char} (hkey : IsKey key)

include hkey

/-- A place in front of a colon is found with and without what follows. -/
lemma find_append_colon {w : List Char} {p : Nat} (hp : p ≤ w.length) (z : List Char) :
    find key (w ++ ':' :: z) = some p ↔ find key w = some p := by
  rw [find_append_cons hkey.ne_nil hkey.colon]
  cases hw : find key w with
  | some q => rw [Option.some_or]
  | none =>
    refine iff_of_false (fun h => ?_) (fun h => by cases h)
    rw [Option.none_or] at h
    obtain ⟨q, -, hq⟩ := Option.map_eq_some_iff.1 h
    omega

/-- The line is cut at the first colon behind the place of the key. -/
lemma redactLine_append_cons {w : List Char} {p : Nat} (hp : find key w = some p)
    (hw : ':' ∉ w.drop p) (z : List Char) :
    redactLine key (w ++ ':' :: z) = w ++ ':' :: (redacted ++ lineEnd z) := by
  obtain ⟨u, c, v, rfl, rfl, -, -⟩ := find_eq_some hkey.ne_nil hp
  rw [List.drop_left] at hw
  have hfind : find key (u ++ (c :: v ++ ':' :: z)) = some u.length := by
    rw [← List.append_assoc]
    exact (hkey.find_append_colon (by simp) z).2 hp
  rw [List.append_assoc, redactLine_append hfind, redactValue_append_cons hw, List.append_assoc]

/-- A pass leaves a line as it is or cuts it. -/
lemma redactLine_cases (l : List Char) : redactLine key l = l ∨
    ∃ w z p, l = w ++ ':' :: z ∧ find key w = some p ∧ ':' ∉ w.drop p := by
  cases hp : find key l with
  | none => exact .inl (redactLine_of_find_eq_none hp)
  | some p =>
    obtain ⟨u, c, v, rfl, rfl, -, -⟩ := find_eq_some hkey.ne_nil hp
    by_cases hcolon : ':' ∈ c :: v
    · obtain ⟨w, z, hsplit, hle, hw⟩ := exists_cut (u := u) hcolon
      rw [hsplit] at hp ⊢
      exact .inr ⟨w, z, u.length, rfl, (hkey.find_append_colon hle z).1 hp, hw⟩
    · exact .inl (by rw [redactLine_append hp, redactValue_of_notMem hcolon])

/-- What a pass cuts again it has cut before. -/
lemma redactLine_redactLine (l : List Char) :
    redactLine key (redactLine key l) = redactLine key l := by
  rcases hkey.redactLine_cases l with h | ⟨w, z, p, rfl, hp, hw⟩
  · rw [h, h]
  · rw [hkey.redactLine_append_cons hp hw, hkey.redactLine_append_cons hp hw, lineEnd_redacted]

/-- A line is cut where it has a second colon behind the place of the key. -/
lemma redactLine_ne {w : List Char} {p : Nat} (hp : find key w = some p) (hw : ':' ∈ w.drop p)
    (z : List Char) : redactLine key (w ++ ':' :: z) ≠ w ++ ':' :: z := by
  obtain ⟨u, c, v, rfl, rfl, -, -⟩ := find_eq_some hkey.ne_nil hp
  rw [List.drop_left] at hw
  obtain ⟨x, y, hsplit, hle, hx⟩ := exists_cut (u := u) hw
  rw [hsplit] at hp ⊢
  have hp' := (hkey.find_append_colon hle y).1 hp
  rw [List.append_assoc, List.cons_append, hkey.redactLine_append_cons hp' hx]
  intro h
  -- the text that is put in has no colon
  have htail := List.append_cancel_left h
  have hmem : ':' ∈ redacted ++ lineEnd (y ++ ':' :: z) := by
    rw [(List.cons.inj htail).2]
    simp
  rw [lineEnd] at hmem
  split_ifs at hmem <;> revert hmem <;> decide

/-- The pass for another key does not undo what one has done. -/
lemma redactLine_stays {other : List Char} (hother : IsKey other) {l : List Char}
    (h : redactLine key l = l) : redactLine key (redactLine other l) = redactLine other l := by
  rcases hother.redactLine_cases l with hsame | ⟨w, z, p, rfl, hp, hw⟩
  · rw [hsame, h]
  · rw [hother.redactLine_append_cons hp hw]
    cases hq : find key w with
    | none =>
      have hnone := (find_eq_none_iff hkey.ne_nil).2 (hkey.not_isInfix_value z)
      refine redactLine_of_find_eq_none ?_
      rw [find_append_cons hkey.ne_nil hkey.colon, hq, hnone]
      rfl
    | some q =>
      have hcolon : ':' ∉ w.drop q := fun hmem => hkey.redactLine_ne hq hmem z h
      rw [hkey.redactLine_append_cons hq hcolon, lineEnd_redacted]

end IsKey

/-! ### All keys -/

lemma redactHeader_stays {key : List Char} (hkey : IsKey key) {keys : List (List Char)}
    (hkeys : ∀ key ∈ keys, IsKey key) {l : List Char} (h : redactLine key l = l) :
    redactLine key (redactHeader keys l) = redactHeader keys l := by
  induction keys generalizing l with
  | nil => exact h
  | cons other keys ih =>
    rw [List.forall_mem_cons] at hkeys
    exact ih hkeys.2 (hkey.redactLine_stays hkeys.1 h)

/-- Every pass leaves the line as it is that all of them have made. -/
lemma redactLine_redactHeader {keys : List (List Char)} (hkeys : ∀ key ∈ keys, IsKey key)
    (l : List Char) : ∀ key ∈ keys, redactLine key (redactHeader keys l) = redactHeader keys l := by
  induction keys generalizing l with
  | nil => exact fun _ h => absurd h List.not_mem_nil
  | cons key keys ih =>
    rw [List.forall_mem_cons] at hkeys ⊢
    exact ⟨redactHeader_stays hkeys.1 hkeys.2 (hkeys.1.redactLine_redactLine l), ih hkeys.2 _⟩

lemma redactHeader_of_forall {keys : List (List Char)} {l : List Char}
    (h : ∀ key ∈ keys, redactLine key l = l) : redactHeader keys l = l := by
  induction keys with
  | nil => rfl
  | cons key keys ih =>
    rw [List.forall_mem_cons] at h
    rw [redactHeader, List.foldl_cons, h.1]
    exact ih h.2

lemma redactHeader_redactHeader {keys : List (List Char)} (hkeys : ∀ key ∈ keys, IsKey key)
    (l : List Char) : redactHeader keys (redactHeader keys l) = redactHeader keys l :=
  redactHeader_of_forall (redactLine_redactHeader hkeys l)

lemma redactHeader_comp_redactHeader {keys : List (List Char)} (hkeys : ∀ key ∈ keys, IsKey key) :
    redactHeader keys ∘ redactHeader keys = redactHeader keys :=
  funext (redactHeader_redactHeader hkeys)

lemma isKey_kSensitive : ∀ key ∈ kSensitive, IsKey key := fun _ h => isKey_of_mem h

lemma redactAuthHeaders_idem (s : List Char) :
    redactAuthHeaders (redactAuthHeaders s) = redactAuthHeaders s := by
  have hlines : (redactAuthHeaders (redactAuthHeaders s)).splitOn '\n' =
      (redactAuthHeaders s).splitOn '\n' := by
    rw [splitOn_redactAuthHeaders, splitOn_redactAuthHeaders, List.map_map,
      redactHeader_comp_redactHeader isKey_kSensitive]
  calc redactAuthHeaders (redactAuthHeaders s)
      = ['\n'].intercalate ((redactAuthHeaders (redactAuthHeaders s)).splitOn '\n') :=
        (List.intercalate_splitOn '\n').symm
    _ = ['\n'].intercalate ((redactAuthHeaders s).splitOn '\n') :=
        congrArg _ hlines
    _ = redactAuthHeaders s := List.intercalate_splitOn '\n'

/-- The loops end with the redacted text, which a second redaction leaves as it is. -/
theorem redaction_ends_idem (s : List Char) :
    (∀ r, RedactionEnds kSensitive s r ↔ redactAuthHeaders s = r) ∧
      redactAuthHeaders (redactAuthHeaders s) = redactAuthHeaders s :=
  ⟨fun _ => redactionEnds_iff isKey_kSensitive, redactAuthHeaders_idem s⟩

end HftBot
