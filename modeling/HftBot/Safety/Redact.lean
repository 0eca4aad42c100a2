import HftBot.Core.Search
import HftBot.Core.Url

/-!
# Redaction of authentication headers

`redact.hpp`: the value of a sensitive header is replaced before a block of header lines is logged.
The text is searched and edited as a whole, once for each name, and the passes act on its lines one
by one.
-/

namespace HftBot

open HftBot.Core

/-- The names whose values are secret. -/
def kSensitive : List (List Char) :=
  ["KALSHI-ACCESS-KEY".toList, "KALSHI-ACCESS-SIGNATURE".toList, "KALSHI-ACCESS-TIMESTAMP".toList,
    "Authorization".toList]

def redacted : List Char := " ***REDACTED***".toList

/-- The text behind the first colon of the line that is entered at `p` is replaced. -/
def redactAt (p : Nat) (s : List Char) : List Char :=
  match findFrom [':'] s p with
  | none       => s
  | some colon =>
    let eol := findFrom ['\n'] s p
    if eol.any (· < colon) then s
    else
      let vend := eol.getD s.length
      -- a carriage return at the end of the line is kept
      let vend := if colon + 1 < vend ∧ s[vend - 1]? = some '\r' then vend - 1 else vend
      s.take (colon + 1) ++ redacted ++ s.drop vend

/-- The places of the key from `start` on, each searched for in what the one before has left. -/
def redactKeyLoop (key : List Char) : Nat → Nat → List Char → List Char
  | 0, _, s             => s
  | rounds + 1, start, s =>
    match findFrom key s start with
    | none   => s
    | some p => redactKeyLoop key rounds (p + 1) (redactAt p s)

/-- There are no more places than characters. -/
def redactKey (key s : List Char) : List Char := redactKeyLoop key (s.length + 1) 0 s

def redactAuthHeaders (s : List Char) : List Char := kSensitive.foldl (fun s key => redactKey key s) s

/-! ### One line -/

/-- The carriage return at the end of a line, if there is one. -/
def lineEnd (l : List Char) : List Char := if l.getLast? = some '\r' then ['\r'] else []

/-- The text behind the first colon is replaced. -/
def redactValue (l : List Char) : List Char :=
  if ':' ∈ l then l.takeWhile (· ≠ ':') ++ ':' :: (redacted ++ lineEnd l) else l

/-- A line behind the pass for a key: it is entered where the key stands first. -/
def redactLine (key l : List Char) : List Char :=
  match find key l with
  | none   => l
  | some p => l.take p ++ redactValue (l.drop p)

lemma lineEnd_append_cons (x y : List Char) : lineEnd (x ++ ':' :: y) = lineEnd y := by
  cases y with
  | nil => simp [lineEnd]
  | cons c y => simp [lineEnd, List.getLast?_append]

lemma lineEnd_redacted (l : List Char) : lineEnd (redacted ++ lineEnd l) = lineEnd l := by
  rw [lineEnd.eq_def l]
  split_ifs <;> decide

/-- A line is its text and its end. -/
lemma redactValue_append_cons {x : List Char} (hx : ':' ∉ x) (y : List Char) :
    redactValue (x ++ ':' :: y) = x ++ ':' :: (redacted ++ lineEnd y) := by
  have hne : ∀ c ∈ x, (decide (c ≠ ':')) = true := by
    intro c hc
    apply decide_eq_true
    rintro rfl
    exact hx hc
  rw [redactValue, if_pos (List.mem_append_right x List.mem_cons_self), lineEnd_append_cons,
    List.takeWhile_append_of_pos hne]
  simp

lemma redactValue_of_notMem {l : List Char} (h : ':' ∉ l) : redactValue l = l := if_neg h

/-! ### The lines of a text -/

/-- Further lines, each behind the end of the one before. -/
def moreLines (ls : List (List Char)) : List Char := ls.flatMap ('\n' :: ·)

lemma intercalate_eq (l : List Char) (ls : List (List Char)) :
    ['\n'].intercalate (l :: ls) = l ++ moreLines ls := by
  induction ls generalizing l with
  | nil => simp [moreLines]
  | cons l' ls ih =>
    rw [List.intercalate_cons_cons, ih, moreLines, moreLines, List.flatMap_cons, List.append_assoc]
    rfl

lemma find_colon_moreLines {w : List Char} {ls : List (List Char)} (hw : '\n' ∉ w) (hc : ':' ∉ w)
    {colon : Nat} (h : find [':'] (w ++ moreLines ls) = some colon) :
    ∃ eol, find ['\n'] (w ++ moreLines ls) = some eol ∧ eol < colon := by
  cases ls with
  | nil =>
    rw [moreLines, List.flatMap_nil, List.append_nil, find_singleton_eq_none hc] at h
    cases h
  | cons l ls =>
    rw [moreLines, List.flatMap_cons, List.cons_append] at h ⊢
    refine ⟨w.length, find_singleton hw _, ?_⟩
    rw [find_append_cons (by decide) (by decide), find_singleton_eq_none hc, Option.none_or] at h
    obtain ⟨n, -, rfl⟩ := Option.map_eq_some_iff.1 h
    omega

/-- The line ends where the next one begins, or with the text. -/
lemma findFrom_eol (u : List Char) {w : List Char} (hw : '\n' ∉ w) (ls : List (List Char)) :
    findFrom ['\n'] (u ++ (w ++ moreLines ls)) u.length = some (u.length + w.length) ∨
      findFrom ['\n'] (u ++ (w ++ moreLines ls)) u.length = none ∧ moreLines ls = [] := by
  rw [findFrom_append]
  cases ls with
  | nil =>
    right
    rw [moreLines, List.flatMap_nil, List.append_nil, find_singleton_eq_none hw]
    exact ⟨rfl, rfl⟩
  | cons l ls =>
    left
    rw [moreLines, List.flatMap_cons, List.cons_append, find_singleton hw, Option.map_some]

/-- What is kept of a value is the end of its line. -/
lemma drop_value (a y t : List Char) {vend : Nat} (hvend : vend = a.length + y.length) :
    (a ++ (y ++ t)).drop (if a.length < vend ∧ (a ++ (y ++ t))[vend - 1]? = some '\r' then vend - 1
      else vend) = lineEnd y ++ t := by
  subst hvend
  rcases List.eq_nil_or_concat' y with rfl | ⟨y, c, rfl⟩
  · rw [if_neg (fun h => absurd h.1 (by simp)), List.nil_append, List.length_nil, Nat.add_zero,
      List.drop_left]
    rfl
  · have hsplit : a ++ (y ++ [c] ++ t) = (a ++ y) ++ c :: t := by simp
    have hlength : a.length + (y ++ [c]).length = (a ++ y).length + 1 := by
      rw [List.length_append, List.length_append, List.length_singleton, Nat.add_assoc]
    have hlt : a.length < (a ++ y).length + 1 := by
      rw [List.length_append]
      exact Nat.lt_succ_of_le (Nat.le_add_right _ _)
    have hlast : ((a ++ y) ++ c :: t)[(a ++ y).length]? = some c := by simp
    have hend : lineEnd (y ++ [c]) = if c = '\r' then ['\r'] else [] := by
      simp [lineEnd]
    rw [hsplit, hlength, Nat.add_sub_cancel, hlast, hend]
    by_cases hc : c = '\r'
    · rw [if_pos ⟨hlt, congrArg some hc⟩, if_pos hc, List.drop_left, hc]
      rfl
    · rw [if_neg (fun h => hc (Option.some.inj h.2)), if_neg hc, ← List.drop_drop, List.drop_left]
      rfl

lemma redactAt_append (u : List Char) {w : List Char} (hw : '\n' ∉ w) (ls : List (List Char)) :
    redactAt u.length (u ++ (w ++ moreLines ls)) = u ++ (redactValue w ++ moreLines ls) := by
  by_cases hc : ':' ∈ w
  · obtain ⟨x, y, rfl, hx⟩ := List.eq_append_cons_of_mem hc
    have hcolon : findFrom [':'] (u ++ (x ++ ':' :: y ++ moreLines ls)) u.length =
        some (u.length + x.length) := by
      rw [findFrom_append, List.append_assoc, List.cons_append, find_singleton hx, Option.map_some]
    have heol := findFrom_eol u hw ls
    have hlast : (findFrom ['\n'] (u ++ (x ++ ':' :: y ++ moreLines ls)) u.length).any
        (· < u.length + x.length) = false := by
      rcases heol with heol | ⟨heol, -⟩
      · rw [heol, Option.any_some, List.length_append]
        exact decide_eq_false (by omega)
      · rw [heol, Option.any_none]
    have hvend : (findFrom ['\n'] (u ++ (x ++ ':' :: y ++ moreLines ls)) u.length).getD
        (u ++ (x ++ ':' :: y ++ moreLines ls)).length = (u ++ (x ++ [':'])).length + y.length := by
      rcases heol with heol | ⟨heol, hmore⟩
      · rw [heol]
        simp
        omega
      · rw [heol, hmore]
        simp
        omega
    have hsplit : u ++ (x ++ ':' :: y ++ moreLines ls) =
        u ++ (x ++ [':']) ++ (y ++ moreLines ls) := by simp
    have hlength : u.length + x.length + 1 = (u ++ (x ++ [':'])).length := by simp; omega
    rw [redactAt, hcolon]
    simp only [hlast, hlength]
    rw [if_neg (by decide)]
    rw [redactValue_append_cons hx]
    rw [hsplit] at hvend ⊢
    rw [drop_value _ _ _ hvend, List.take_left]
    simp
  · rw [redactValue_of_notMem hc, redactAt, findFrom_append, findFrom_append]
    cases hcolon : find [':'] (w ++ moreLines ls) with
    | none => rfl
    | some colon =>
      obtain ⟨eol, heol, hlt⟩ := find_colon_moreLines hw hc hcolon
      simp only [heol, Option.map_some, Option.any_some]
      rw [if_pos (decide_eq_true (Nat.add_lt_add_left hlt u.length))]

/-! ### One pass -/

/-- A key is on one side of a colon and of a line end, and not in the text that replaces a value. -/
structure IsKey (key : List Char) : Prop where
  ne_nil  : key ≠ []
  colon   : ':' ∉ key
  newline : '\n' ∉ key
  value   : ¬ key <:+: redacted
  valueCr : ¬ key <:+: redacted ++ ['\r']

lemma isKey_of_mem {key : List Char} (h : key ∈ kSensitive) : IsKey key := by
  have hall : ∀ key ∈ kSensitive, key ≠ [] ∧ ':' ∉ key ∧ '\n' ∉ key ∧ ¬ key <:+: redacted ∧
      ¬ key <:+: redacted ++ ['\r'] := by decide
  obtain ⟨hne, hcolon, hnewline, hredacted, hredactedCr⟩ := hall key h
  exact ⟨hne, hcolon, hnewline, hredacted, hredactedCr⟩

lemma redactLine_of_find_eq_none {key l : List Char} (h : find key l = none) :
    redactLine key l = l := by
  rw [redactLine, h]

lemma redactLine_append {key u w : List Char} (h : find key (u ++ w) = some u.length) :
    redactLine key (u ++ w) = u ++ redactValue w := by
  simp only [redactLine, h, List.take_left, List.drop_left]

lemma newline_notMem_redactValue {l : List Char} (hl : '\n' ∉ l) : '\n' ∉ redactValue l := by
  have hend : '\n' ∉ redacted ++ lineEnd l := by
    rw [lineEnd]
    split_ifs <;> decide
  rw [redactValue]
  split_ifs
  · rw [List.mem_append, List.mem_cons, not_or, not_or]
    exact ⟨fun h => hl (List.takeWhile_subset _ h), by decide, hend⟩
  · exact hl

/-- From the rest of a line on all lines are done, if there are rounds for all the places. -/
def Finishes (key : List Char) (rounds : Nat) (u l : List Char) (ls : List (List Char)) : Prop :=
  '\n' ∉ l → (∀ l ∈ ls, '\n' ∉ l) → occurrences key (l ++ moreLines ls) < rounds →
    redactKeyLoop key rounds u.length (u ++ (l ++ moreLines ls)) =
      u ++ (redactLine key l ++ moreLines (ls.map (redactLine key)))

namespace IsKey

variable {key : List Char} (hkey : IsKey key)

include hkey

lemma not_isInfix_value (l : List Char) : ¬ key <:+: redacted ++ lineEnd l := by
  rw [lineEnd]
  split_ifs
  · exact hkey.valueCr
  · rw [List.append_nil]
    exact hkey.value

/-- A pass leaves a line as it is whose value has been replaced. -/
lemma redactLine_redacted {x : List Char} (hx : ':' ∉ x) (l : List Char) :
    redactLine key (x ++ ':' :: (redacted ++ lineEnd l)) =
      x ++ ':' :: (redacted ++ lineEnd l) := by
  have hnone := (find_eq_none_iff hkey.ne_nil).2 (hkey.not_isInfix_value l)
  have hfind := find_append_cons hkey.ne_nil hkey.colon x (redacted ++ lineEnd l)
  rw [hnone, Option.map_none, Option.or_none] at hfind
  cases hp : find key x with
  | none => exact redactLine_of_find_eq_none (hfind.trans hp)
  | some p =>
    obtain ⟨u, c, v, rfl, rfl, -, -⟩ := find_eq_some hkey.ne_nil hp
    have hv : ':' ∉ c :: v := fun h => hx (List.mem_append_right u h)
    rw [hp, List.append_assoc] at hfind
    rw [List.append_assoc, redactLine_append hfind, redactValue_append_cons hv, lineEnd_redacted]

/-- What is left of a line behind the place where it was entered has been done. -/
lemma redactLine_tail {c : Char} {w : List Char} (hc : key <+: c :: w) : ∃ v,
    redactValue (c :: w) = c :: v ∧ redactLine key v = v ∧
      occurrences key v ≤ occurrences key w := by
  by_cases hcolon : ':' ∈ c :: w
  · obtain ⟨x, y, hsplit, hx⟩ := List.eq_append_cons_of_mem hcolon
    cases x with
    | nil =>
      -- the line is entered at a character of the key
      obtain ⟨rfl, -⟩ := List.cons.inj hsplit
      exact absurd hc (not_prefix_cons hkey.ne_nil hkey.colon w)
    | cons d x =>
      rw [List.cons_append, List.cons.injEq] at hsplit
      obtain ⟨rfl, rfl⟩ := hsplit
      have hx' : ':' ∉ x := fun h => hx (List.mem_cons_of_mem c h)
      have hzero := (occurrences_eq_zero_iff hkey.ne_nil).2 (hkey.not_isInfix_value y)
      refine ⟨x ++ ':' :: (redacted ++ lineEnd y), redactValue_append_cons hx y,
        hkey.redactLine_redacted hx' y, ?_⟩
      rw [occurrences_append_cons hkey.ne_nil hkey.colon,
        occurrences_append_cons hkey.ne_nil hkey.colon, hzero]
      exact Nat.add_le_add_left (Nat.zero_le _) _
  · refine ⟨w, redactValue_of_notMem hcolon, ?_, Nat.le_refl _⟩
    cases hp : find key w with
    | none => exact redactLine_of_find_eq_none hp
    | some p =>
      obtain ⟨u, d, v, rfl, rfl, -, -⟩ := find_eq_some hkey.ne_nil hp
      have hv : ':' ∉ d :: v := fun h => hcolon (List.mem_cons_of_mem c (List.mem_append_right u h))
      rw [redactLine_append hp, redactValue_of_notMem hv]

lemma find_moreLines_of_some {l : List Char} {p : Nat} (h : find key l = some p)
    (ls : List (List Char)) : find key (l ++ moreLines ls) = some p := by
  cases ls with
  | nil => rwa [moreLines, List.flatMap_nil, List.append_nil]
  | cons l' ls =>
    rw [moreLines, List.flatMap_cons, List.cons_append,
      find_append_cons hkey.ne_nil hkey.newline, h, Option.some_or]

lemma occurrences_moreLines (l : List Char) (ls : List (List Char)) :
    occurrences key (l ++ moreLines ls) = occurrences key l + occurrences key (moreLines ls) := by
  cases ls with
  | nil => rw [moreLines, List.flatMap_nil, List.append_nil, occurrences, Nat.add_zero]
  | cons l' ls =>
    have hfirst := occurrences_append_cons hkey.ne_nil hkey.newline [] (l' ++ moreLines ls)
    rw [List.nil_append, occurrences, Nat.zero_add] at hfirst
    rw [moreLines, List.flatMap_cons, List.cons_append, ← moreLines, hfirst,
      occurrences_append_cons hkey.ne_nil hkey.newline]

/-- A round enters the line where the key stands first and goes on behind that place. -/
lemma redactKeyLoop_succ (rounds : Nat) (u : List Char) {l : List Char} {p : Nat} (hl : '\n' ∉ l)
    (hp : find key l = some p) (ls : List (List Char)) : ∃ w v, redactLine key l = w ++ v ∧
      redactLine key v = v ∧ '\n' ∉ v ∧ occurrences key v < occurrences key l ∧
      redactKeyLoop key (rounds + 1) u.length (u ++ (l ++ moreLines ls)) =
        redactKeyLoop key rounds (u ++ w).length (u ++ w ++ (v ++ moreLines ls)) := by
  have hfind := hkey.find_moreLines_of_some hp ls
  obtain ⟨w, c, t, rfl, rfl, hc, hfewer⟩ := find_eq_some hkey.ne_nil hp
  obtain ⟨v, hv, hdone, hle⟩ := hkey.redactLine_tail hc
  have hct : '\n' ∉ c :: t := fun h => hl (List.mem_append_right w h)
  have hcv := newline_notMem_redactValue hct
  rw [hv] at hcv
  refine ⟨w ++ [c], v, ?_, hdone, fun h => hcv (List.mem_cons_of_mem c h),
    Nat.lt_of_le_of_lt hle hfewer, ?_⟩
  · rw [redactLine_append hp, hv, List.append_assoc, List.singleton_append]
  · have hat := redactAt_append (u ++ w) hct ls
    rw [hv] at hat
    have hsplit : u ++ (w ++ c :: t ++ moreLines ls) = u ++ w ++ (c :: t ++ moreLines ls) := by simp
    rw [redactKeyLoop, findFrom_append, hfind, Option.map_some, hsplit, ← List.length_append]
    simp only [hat]
    congr 1
    · simp
      omega
    · simp

lemma finishes_of_find_eq_some {rounds : Nat} {u l : List Char} {ls : List (List Char)} {p : Nat}
    (hp : find key l = some p) (ih : ∀ u l ls, Finishes key rounds u l ls) :
    Finishes key (rounds + 1) u l ls := by
  intro hl hls hrounds
  obtain ⟨w, v, hline, hdone, hv, hfewer, hloop⟩ := hkey.redactKeyLoop_succ rounds u hl hp ls
  have hrounds' : occurrences key (v ++ moreLines ls) < rounds := by
    rw [hkey.occurrences_moreLines] at hrounds ⊢
    omega
  rw [hloop, ih (u ++ w) v ls hv hls hrounds', hdone, hline]
  simp only [List.append_assoc]

/-- Where the key is not in a line the next one is searched. -/
lemma redactKeyLoop_next {rounds : Nat} (u : List Char) {l : List Char} (hp : find key l = none)
    (l' : List Char) (ls : List (List Char)) :
    redactKeyLoop key (rounds + 1) u.length (u ++ (l ++ moreLines (l' :: ls))) =
      redactKeyLoop key (rounds + 1) (u ++ (l ++ ['\n'])).length
        (u ++ (l ++ ['\n']) ++ (l' ++ moreLines ls)) := by
  have hsplit : u ++ (l ++ moreLines (l' :: ls)) = u ++ (l ++ ['\n']) ++ (l' ++ moreLines ls) := by
    simp [moreLines]
  have hfind : findFrom key (u ++ (l ++ moreLines (l' :: ls))) u.length =
      findFrom key (u ++ (l ++ ['\n']) ++ (l' ++ moreLines ls)) (u ++ (l ++ ['\n'])).length := by
    rw [findFrom_append, findFrom_append, moreLines, List.flatMap_cons, List.cons_append,
      ← moreLines, find_append_cons hkey.ne_nil hkey.newline, hp, Option.none_or, Option.map_map]
    congr 1
    funext n
    simp
    omega
  rw [redactKeyLoop, redactKeyLoop, hfind, hsplit]

lemma finishes (rounds : Nat) (u l : List Char) (ls : List (List Char)) :
    Finishes key rounds u l ls := by
  -- the rounds go over the places, and between two of them the lines without one are passed
  induction rounds generalizing u l ls with
  | zero =>
    intro _ _ hrounds
    cases hrounds
  | succ rounds ih =>
    induction ls generalizing u l with
    | nil =>
      cases hp : find key l with
      | none =>
        intro _ _ _
        have hnone : findFrom key (u ++ (l ++ moreLines [])) u.length = none := by
          rw [findFrom_append, moreLines, List.flatMap_nil, List.append_nil, hp, Option.map_none]
        simp only [redactKeyLoop, hnone, redactLine_of_find_eq_none hp, List.map_nil]
      | some p => exact hkey.finishes_of_find_eq_some hp ih
    | cons l' ls ihls =>
      cases hp : find key l with
      | none =>
        intro hl hls hrounds
        rw [List.forall_mem_cons] at hls
        have hrounds' : occurrences key (l' ++ moreLines ls) < rounds + 1 := by
          rw [moreLines, List.flatMap_cons, List.cons_append, ← moreLines,
            occurrences_append_cons hkey.ne_nil hkey.newline] at hrounds
          omega
        rw [hkey.redactKeyLoop_next u hp l' ls, ihls _ _ hls.1 hls.2 hrounds',
          redactLine_of_find_eq_none hp]
        simp [moreLines]
      | some p => exact hkey.finishes_of_find_eq_some hp ih

/-- A pass acts on the lines one by one. -/
lemma redactKey_lines {ls : List (List Char)} (hls : ∀ l ∈ ls, '\n' ∉ l) :
    redactKey key (['\n'].intercalate ls) = ['\n'].intercalate (ls.map (redactLine key)) := by
  cases ls with
  | nil =>
    have hnone : find key [] = none := (find_eq_none_iff hkey.ne_nil).2 fun h =>
      hkey.ne_nil (List.infix_nil.1 h)
    simp [redactKey, redactKeyLoop, findFrom, hnone]
  | cons l ls =>
    rw [List.forall_mem_cons] at hls
    have hrounds := Nat.lt_succ_of_le (occurrences_le_length key (l ++ moreLines ls))
    rw [List.map_cons, intercalate_eq, intercalate_eq]
    exact hkey.finishes _ [] l ls hls.1 hls.2 hrounds

end IsKey

/-! ### All passes -/

lemma newline_notMem_redactLine (key : List Char) {l : List Char} (hl : '\n' ∉ l) :
    '\n' ∉ redactLine key l := by
  rw [redactLine]
  split
  · exact hl
  · rw [List.mem_append, not_or]
    exact ⟨fun h => hl (List.mem_of_mem_take h),
      newline_notMem_redactValue fun h => hl (List.mem_of_mem_drop h)⟩

/-- A line behind the passes for some keys. -/
def redactHeader (keys : List (List Char)) (l : List Char) : List Char :=
  keys.foldl (fun l key => redactLine key l) l

lemma newline_notMem_redactHeader (keys : List (List Char)) {l : List Char} (hl : '\n' ∉ l) :
    '\n' ∉ redactHeader keys l := by
  induction keys generalizing l with
  | nil => exact hl
  | cons key keys ih => exact ih (newline_notMem_redactLine key hl)

lemma newline_notMem_of_mem_splitOn {s l : List Char} (hl : l ∈ s.splitOn '\n') : '\n' ∉ l := by
  induction s generalizing l with
  | nil =>
    rw [List.splitOn_nil, List.mem_singleton] at hl
    rw [hl]
    exact List.not_mem_nil
  | cons c s ih =>
    rw [List.splitOn_cons_eq_if_modifyHead] at hl
    split_ifs at hl with hc
    · rcases List.mem_cons.1 hl with rfl | hl
      · exact List.not_mem_nil
      · exact ih hl
    · obtain ⟨l', ls, hs⟩ := List.exists_cons_of_ne_nil (List.splitOn_ne_nil '\n' s)
      rw [hs] at hl ih
      rcases List.mem_cons.1 hl with rfl | hl
      · rw [List.mem_cons, not_or]
        exact ⟨fun h => hc (beq_iff_eq.2 h.symm), ih List.mem_cons_self⟩
      · exact ih (List.mem_cons_of_mem _ hl)

lemma foldl_redactKey_lines {keys : List (List Char)} (hkeys : ∀ key ∈ keys, IsKey key)
    {ls : List (List Char)} (hls : ∀ l ∈ ls, '\n' ∉ l) :
    keys.foldl (fun s key => redactKey key s) (['\n'].intercalate ls) =
      ['\n'].intercalate (ls.map (redactHeader keys)) := by
  induction keys generalizing ls with
  | nil =>
    have hid : redactHeader [] = id := rfl
    rw [hid, List.map_id, List.foldl_nil]
  | cons key keys ih =>
    rw [List.forall_mem_cons] at hkeys
    have hdone : ∀ l ∈ ls.map (redactLine key), '\n' ∉ l := by
      intro l hl
      obtain ⟨l', hl', rfl⟩ := List.mem_map.1 hl
      exact newline_notMem_redactLine key (hls l' hl')
    rw [List.foldl_cons, hkeys.1.redactKey_lines hls, ih hkeys.2 hdone, List.map_map]
    rfl

/-- The lines of a redacted text are the redacted lines. -/
lemma splitOn_redactAuthHeaders (s : List Char) :
    (redactAuthHeaders s).splitOn '\n' = (s.splitOn '\n').map (redactHeader kSensitive) := by
  have hs : redactAuthHeaders s =
      ['\n'].intercalate ((s.splitOn '\n').map (redactHeader kSensitive)) := by
    have hfold := foldl_redactKey_lines (fun _ => isKey_of_mem)
      (fun _ => newline_notMem_of_mem_splitOn (s := s))
    rwa [List.intercalate_splitOn] at hfold
  rw [hs]
  apply List.splitOn_intercalate
  · intro l hl
    obtain ⟨l', hl', rfl⟩ := List.mem_map.1 hl
    exact newline_notMem_redactHeader _ (newline_notMem_of_mem_splitOn hl')
  · rw [ne_eq, List.map_eq_nil_iff]
    exact List.splitOn_ne_nil _ _

end HftBot
