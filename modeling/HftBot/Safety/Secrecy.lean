import HftBot.Safety.Redact
import Mathlib.Data.List.Forall2

/-!
# Secrecy of authentication headers

Blocks that differ in the values of sensitive headers only are redacted to the same text, provided
that the names of these headers are written as the client writes them.
-/

namespace HftBot

open HftBot.Core

/-- The text before the first colon. -/
def headerName (l : List Char) : List Char := l.takeWhile (· ≠ ':')

/-- A header line with a sensitive name, in whatever case its letters are. -/
def Sensitive (l : List Char) : Prop :=
  ':' ∈ l ∧ ∃ key ∈ kSensitive, lower (headerName l) = lower key

instance (l : List Char) : Decidable (Sensitive l) := inferInstanceAs (Decidable (_ ∧ _))

/-- Equal lines, or sensitive lines with equal names and line ends. -/
def SameButValue (l l' : List Char) : Prop :=
  l = l' ∨ Sensitive l ∧ ':' ∈ l' ∧ headerName l = headerName l' ∧ lineEnd l = lineEnd l'

/-- Blocks that differ in the values of sensitive headers only. -/
def SameButValues (s s' : List Char) : Prop :=
  List.Forall₂ SameButValue (s.splitOn '\n') (s'.splitOn '\n')

/-- The line has none of the names in it, in whatever case. -/
def Unnamed (l : List Char) : Prop := ∀ key ∈ kSensitive, ¬ lower key <:+: lower l

/-- The values of sensitive headers are not seen in what is logged, and lines without such a name
are logged as they are. -/
def Secret (s : List Char) : Prop :=
  (∀ s', SameButValues s s' → redactAuthHeaders s = redactAuthHeaders s') ∧
  ∀ (i : Nat) (l : List Char), (s.splitOn '\n')[i]? = some l → Unnamed l →
    ((redactAuthHeaders s).splitOn '\n')[i]? = some l

/-! ### Lines -/

lemma redactLine_of_not_isInfix {key l : List Char} (hne : key ≠ []) (h : ¬ key <:+: l) :
    redactLine key l = l :=
  redactLine_of_find_eq_none ((find_eq_none_iff hne).2 h)

lemma redactHeader_of_not_isInfix {keys : List (List Char)} {l : List Char}
    (hne : ∀ key ∈ keys, key ≠ []) (h : ∀ key ∈ keys, ¬ key <:+: l) : redactHeader keys l = l := by
  induction keys with
  | nil => rfl
  | cons key keys ih =>
    rw [List.forall_mem_cons] at hne h
    rw [redactHeader, List.foldl_cons, redactLine_of_not_isInfix hne.1 h.1]
    exact ih hne.2 h.2

/-- A line without a name in it is kept. -/
lemma redactHeader_of_unnamed {l : List Char} (h : Unnamed l) : redactHeader kSensitive l = l :=
  redactHeader_of_not_isInfix (fun _ hkey => (isKey_of_mem hkey).ne_nil)
    fun key hkey hl => h key hkey (hl.map Char.toLower)

lemma lineEnd_append {w : List Char} (hw : w ≠ []) (t : List Char) :
    lineEnd (t ++ w) = lineEnd w := by
  rw [lineEnd, lineEnd, List.getLast?_append_of_ne_nil t hw]

lemma lineEnd_redactValue (l : List Char) : lineEnd (redactValue l) = lineEnd l := by
  by_cases hcolon : ':' ∈ l
  · obtain ⟨x, y, rfl, hx⟩ := List.eq_append_cons_of_mem hcolon
    rw [redactValue_append_cons hx, lineEnd_append_cons, lineEnd_append_cons, lineEnd_redacted]
  · rw [redactValue_of_notMem hcolon]

lemma lineEnd_redactLine {key : List Char} (hkey : IsKey key) (l : List Char) :
    lineEnd (redactLine key l) = lineEnd l := by
  cases hp : find key l with
  | none => rw [redactLine_of_find_eq_none hp]
  | some p =>
    obtain ⟨u, c, v, rfl, rfl, hc, -⟩ := find_eq_some hkey.ne_nil hp
    obtain ⟨v', hv', -⟩ := hkey.redactLine_tail hc
    rw [redactLine_append hp, lineEnd_append (List.cons_ne_nil c v), hv',
      lineEnd_append (List.cons_ne_nil c v'), ← hv', lineEnd_redactValue]

/-- The pass for another name acts on the value. -/
lemma redactLine_value {key name : List Char} (hkey : IsKey key) (hname : ¬ key <:+: name)
    (y : List Char) : redactLine key (name ++ ':' :: y) = name ++ ':' :: redactLine key y := by
  have hnone := (find_eq_none_iff hkey.ne_nil).2 hname
  have hfind := find_append_cons hkey.ne_nil hkey.colon name y
  rw [hnone, Option.none_or] at hfind
  cases hp : find key y with
  | none =>
    rw [hp] at hfind
    rw [redactLine_of_find_eq_none hfind, redactLine_of_find_eq_none hp]
  | some p =>
    obtain ⟨u, c, v, rfl, rfl, -⟩ := find_eq_some hkey.ne_nil hp
    have hsplit : name ++ ':' :: (u ++ c :: v) = (name ++ ':' :: u) ++ c :: v := by simp
    rw [hp, hsplit, Option.map_some] at hfind
    rw [hsplit, redactLine_append (by rw [hfind]; simp; omega), redactLine_append hp]
    simp

lemma redactHeader_redacted {keys : List (List Char)} (hkeys : ∀ key ∈ keys, IsKey key)
    {name : List Char} (hname : ':' ∉ name) (l : List Char) :
    redactHeader keys (name ++ ':' :: (redacted ++ lineEnd l)) =
      name ++ ':' :: (redacted ++ lineEnd l) := by
  induction keys with
  | nil => rfl
  | cons key keys ih =>
    rw [List.forall_mem_cons] at hkeys
    rw [redactHeader, List.foldl_cons, hkeys.1.redactLine_redacted hname]
    exact ih hkeys.2

/-- The value of a header whose name is a key is replaced, whatever the other passes find in it. -/
lemma redactHeader_of_mem {keys : List (List Char)} (hkeys : ∀ key ∈ keys, IsKey key)
    {name : List Char} (hname : name ∈ keys) (hother : ∀ key ∈ keys, key <:+: name → key = name)
    (y : List Char) :
    redactHeader keys (name ++ ':' :: y) = name ++ ':' :: (redacted ++ lineEnd y) := by
  have hcolon := (hkeys name hname).colon
  induction keys generalizing y with
  | nil => cases hname
  | cons key keys ih =>
    have hkeys' := List.forall_mem_cons.1 hkeys
    have hother' := List.forall_mem_cons.1 hother
    rw [redactHeader, List.foldl_cons]
    by_cases heq : key = name
    · subst heq
      have hfirst : redactLine key (key ++ ':' :: y) = redactValue (key ++ ':' :: y) :=
        redactLine_append (u := []) (find_eq_zero (List.prefix_append _ _))
      rw [hfirst, redactValue_append_cons hcolon, ← redactHeader]
      exact redactHeader_redacted hkeys'.2 hcolon y
    · have hvalue := redactLine_value hkeys'.1 (fun h => heq (hother'.1 h)) y
      have hmem := (List.mem_cons.1 hname).resolve_left (Ne.symm heq)
      rw [hvalue, ← redactHeader, ih hkeys'.2 hmem hother'.2 _ , lineEnd_redactLine hkeys'.1]

/-! ### Names -/

/-- No name is part of another, in whatever case. -/
lemma eq_of_lower_isInfix {key name : List Char} (hkey : key ∈ kSensitive)
    (hname : name ∈ kSensitive) (h : lower key <:+: lower name) : key = name := by
  have hall : ∀ name ∈ kSensitive, ∀ key ∈ kSensitive, lower key <:+: lower name → key = name := by
    decide
  exact hall name hname key hkey h

lemma headerName_append {name : List Char} (hname : ':' ∉ name) (y : List Char) :
    headerName (name ++ ':' :: y) = name := by
  rw [headerName, List.takeWhile_append_of_pos fun c hc => ?_]
  · simp
  · apply decide_eq_true
    rintro rfl
    exact hname hc

lemma eq_headerName_append {l : List Char} (h : ':' ∈ l) :
    ∃ y, l = headerName l ++ ':' :: y ∧ ':' ∉ headerName l := by
  obtain ⟨x, y, rfl, hx⟩ := List.eq_append_cons_of_mem h
  rw [headerName_append hx]
  exact ⟨y, rfl, hx⟩

/-- A line whose name is written as the client writes it shows its name and its end only. -/
lemma redactHeader_of_headerName {l : List Char} (hcolon : ':' ∈ l)
    (hname : headerName l ∈ kSensitive) :
    redactHeader kSensitive l = headerName l ++ ':' :: (redacted ++ lineEnd l) := by
  obtain ⟨y, hl, -⟩ := eq_headerName_append hcolon
  have hother : ∀ key ∈ kSensitive, key <:+: headerName l → key = headerName l :=
    fun key hkey h => eq_of_lower_isInfix hkey hname (h.map Char.toLower)
  have hredact := redactHeader_of_mem (fun _ => isKey_of_mem) hname hother y
  rw [← hl] at hredact
  rw [hredact]
  nth_rewrite 3 [hl]
  rw [lineEnd_append_cons]

/-- The line with another value. -/
def withValue (v l : List Char) : List Char := headerName l ++ ':' :: (v ++ lineEnd l)

lemma sameButValue_withValue {v l : List Char} (hl : Sensitive l)
    (hv : lineEnd (v ++ lineEnd l) = lineEnd l) : SameButValue l (withValue v l) := by
  obtain ⟨y, -, hcolon⟩ := eq_headerName_append hl.1
  refine Or.inr ⟨hl, by simp [withValue], ?_, ?_⟩
  · rw [withValue, headerName_append hcolon]
  · rw [withValue, lineEnd_append_cons, hv]

/-- A value without a name in it is shown if the name of the header is written otherwise. -/
lemma redactHeader_withValue {v l : List Char} (hl : Sensitive l)
    (hname : headerName l ∉ kSensitive) (hv : ∀ key ∈ kSensitive, ¬ key <:+: v ++ lineEnd l) :
    redactHeader kSensitive (withValue v l) = withValue v l := by
  apply redactHeader_of_not_isInfix fun _ hkey => (isKey_of_mem hkey).ne_nil
  intro key hkey h
  have hk := isKey_of_mem hkey
  obtain ⟨-, name, hmem, hlower⟩ := hl
  have hfind := find_append_cons hk.ne_nil hk.colon (headerName l) (v ++ lineEnd l)
  have hnone := (find_eq_none_iff hk.ne_nil).2 (hv key hkey)
  rw [hnone, Option.map_none, Option.or_none] at hfind
  have hinside : key <:+: headerName l := by
    by_contra hnot
    rw [(find_eq_none_iff hk.ne_nil).2 hnot, find_eq_none_iff hk.ne_nil] at hfind
    exact hfind h
  obtain rfl := eq_of_lower_isInfix hkey hmem (hlower ▸ hinside.map Char.toLower)
  have hlength := congrArg List.length hlower
  rw [lower, lower, List.length_map, List.length_map] at hlength
  rw [← hinside.eq_of_length hlength.symm] at hname
  exact hname hkey

/-! ### Blocks -/

lemma eq_of_splitOn_eq {s s' : List Char} (h : s.splitOn '\n' = s'.splitOn '\n') : s = s' := by
  calc s = ['\n'].intercalate (s.splitOn '\n') := (List.intercalate_splitOn '\n').symm
    _ = ['\n'].intercalate (s'.splitOn '\n') := by rw [h]
    _ = s' := List.intercalate_splitOn '\n'

/-- Lines that differ in the value only are redacted to the same line. -/
lemma redactHeader_eq {l l' : List Char} (hname : Sensitive l → headerName l ∈ kSensitive)
    (h : SameButValue l l') : redactHeader kSensitive l = redactHeader kSensitive l' := by
  obtain rfl | ⟨hl, hcolon, heq, hend⟩ := h
  · rfl
  · rw [redactHeader_of_headerName hl.1 (hname hl),
      redactHeader_of_headerName hcolon (heq ▸ hname hl), heq, hend]

lemma redactAuthHeaders_eq {s s' : List Char}
    (hnames : ∀ l ∈ s.splitOn '\n', Sensitive l → headerName l ∈ kSensitive)
    (h : SameButValues s s') : redactAuthHeaders s = redactAuthHeaders s' := by
  apply eq_of_splitOn_eq
  rw [splitOn_redactAuthHeaders, splitOn_redactAuthHeaders]
  rw [SameButValues] at h
  generalize s.splitOn '\n' = ls at h hnames
  generalize s'.splitOn '\n' = ls' at h
  induction h with
  | nil => rfl
  | cons hl _ ih =>
    rw [List.forall_mem_cons] at hnames
    rw [List.map_cons, List.map_cons, redactHeader_eq hnames.1 hl, ih hnames.2]

lemma newline_notMem_withValue {v l : List Char} (hv : '\n' ∉ v) (hl : '\n' ∉ l) :
    '\n' ∉ withValue v l := by
  have hend : '\n' ∉ lineEnd l := by
    rw [lineEnd]
    split_ifs <;> decide
  rw [withValue, List.mem_append, List.mem_cons, List.mem_append]
  rintro (h | h | h | h)
  · exact hl (List.takeWhile_subset _ h)
  · exact absurd h (by decide)
  · exact hv h
  · exact hend h

/-- The block with another value in one of its lines. -/
lemma exists_withValue {s l : List Char} {ls ls' : List (List Char)} {v : List Char}
    (hs : s.splitOn '\n' = ls ++ l :: ls') (hv : '\n' ∉ v) (hl : SameButValue l (withValue v l)) :
    ∃ s', s'.splitOn '\n' = ls ++ withValue v l :: ls' ∧ SameButValues s s' := by
  have hlines (l' : List Char) (hl' : l' ∈ ls ++ l :: ls') : '\n' ∉ l' :=
    newline_notMem_of_mem_splitOn (hs ▸ hl')
  have hnewline : ∀ l' ∈ ls ++ withValue v l :: ls', '\n' ∉ l' := by
    intro l' hl'
    rcases List.mem_append.1 hl' with hl' | hl'
    · exact hlines l' (List.mem_append_left _ hl')
    rcases List.mem_cons.1 hl' with rfl | hl'
    · exact newline_notMem_withValue hv (hlines l (by simp))
    · exact hlines l' (List.mem_append_right _ (List.mem_cons_of_mem _ hl'))
  have hsplit := List.splitOn_intercalate '\n' hnewline (by simp)
  refine ⟨_, hsplit, ?_⟩
  rw [SameButValues, hs, hsplit]
  have hrefl (ls : List (List Char)) : List.Forall₂ SameButValue ls ls :=
    List.forall₂_same.2 fun _ _ => Or.inl rfl
  exact List.rel_append (hrefl ls) (.cons hl (hrefl ls'))

/-- Two values of a header whose name is written otherwise are both shown. -/
lemma headerName_mem_of_secret {s : List Char} (h : Secret s) {l : List Char}
    (hmem : l ∈ s.splitOn '\n') (hl : Sensitive l) : headerName l ∈ kSensitive := by
  by_contra hname
  obtain ⟨ls, ls', hs⟩ := List.append_of_mem hmem
  have hshown (v : List Char) (hnewline : '\n' ∉ v) (hend : lineEnd (v ++ lineEnd l) = lineEnd l)
      (hkeys : ∀ key ∈ kSensitive, ¬ key <:+: v ++ lineEnd l) :
      (redactAuthHeaders s).splitOn '\n' = ls.map (redactHeader kSensitive) ++
        withValue v l :: ls'.map (redactHeader kSensitive) := by
    obtain ⟨s', hs', hsame⟩ := exists_withValue hs hnewline (sameButValue_withValue hl hend)
    rw [h.1 s' hsame, splitOn_redactAuthHeaders, hs', List.map_append, List.map_cons,
      redactHeader_withValue hl hname hkeys]
  have hzero := hshown ['0'] (by decide) (by rw [lineEnd.eq_def l]; split_ifs <;> decide)
    (by rw [lineEnd]; split_ifs <;> decide)
  have hone := hshown ['1'] (by decide) (by rw [lineEnd.eq_def l]; split_ifs <;> decide)
    (by rw [lineEnd]; split_ifs <;> decide)
  rw [hzero] at hone
  have hlines := List.cons.inj (List.append_cancel_left hone)
  have hvalues := List.cons.inj (List.append_cancel_left hlines.1)
  exact absurd (List.cons.inj hvalues.2).1 (by decide)

/-- The values of a block are secret if the names of its sensitive headers are written as the client
writes them. -/
theorem secret_iff (s : List Char) :
    Secret s ↔ ∀ l ∈ s.splitOn '\n', Sensitive l → headerName l ∈ kSensitive := by
  constructor
  · exact fun h l => headerName_mem_of_secret h
  · intro hnames
    refine ⟨fun s' => redactAuthHeaders_eq hnames, fun i l hl hunnamed => ?_⟩
    rw [splitOn_redactAuthHeaders, List.getElem?_map, hl, Option.map_some,
      redactHeader_of_unnamed hunnamed]

/-- A header with a name in small letters is logged with its value. -/
theorem secret_iff_lower_case : ¬ Secret "authorization: Bearer secret".toList := by
  intro h
  have hname := headerName_mem_of_secret h (l := "authorization: Bearer secret".toList)
  exact absurd (hname (by decide) (by decide)) (by decide)

end HftBot
