import Mathlib.Data.List.TakeWhile

/-!
# URLs as a generic parser splits them

The splitting of RFC 3986: the scheme ends at the first delimiter, which must open `://`, the
authority ends at the next `/`, `?` or `#`, the host follows the userinfo and ends before the port.
Scheme and host are compared without regard to case.
-/

namespace HftBot.Core

def lower (s : List Char) : List Char := s.map Char.toLower

namespace Url

/-- The delimiters of which none can be part of a scheme. -/
def isDelim (c : Char) : Bool := c = ':' || c = '/' || c = '?' || c = '#'

/-- The scheme and what follows its `://`. -/
def split (url : List Char) : Option (List Char × List Char) :=
  match url.takeWhile (!isDelim ·), url.dropWhile (!isDelim ·) with
  | c :: scheme, ':' :: '/' :: '/' :: rest => some (c :: scheme, rest)
  | _, _                                   => none

def authority (rest : List Char) : List Char :=
  rest.takeWhile fun c => !(c = '/' || c = '?' || c = '#')

/-- What follows the last `@`. -/
def dropUserinfo (auth : List Char) : List Char := (auth.reverse.takeWhile (· ≠ '@')).reverse

/-- A literal address stands in brackets. -/
def dropPort (hostPort : List Char) : List Char :=
  if hostPort.head? = some '[' then hostPort.takeWhile (· ≠ ']') ++ [']']
  else hostPort.takeWhile (· ≠ ':')

/-- The host named in what follows `://`. -/
def hostOf (rest : List Char) : List Char := lower (dropPort (dropUserinfo (authority rest)))

def scheme? (url : List Char) : Option (List Char) := (split url).map fun p => lower p.1

def host? (url : List Char) : Option (List Char) := (split url).map fun p => hostOf p.2

/-! ### The first separator -/

/-- Split at the first `://`, whatever stands before it. -/
def splitSep : List Char → Option (List Char × List Char)
  | ':' :: '/' :: '/' :: rest => some ([], rest)
  | c :: cs                   => (splitSep cs).map fun p => (c :: p.1, p.2)
  | []                        => none

lemma splitSep_cons {c : Char} (hc : c ≠ ':') (cs : List Char) :
    splitSep (c :: cs) = (splitSep cs).map fun p => (c :: p.1, p.2) := by
  rw [splitSep]
  rintro rest rfl
  exact absurd rfl hc

/-- The part before the first separator and the part behind it make up the text. -/
lemma eq_of_splitSep {url s r : List Char} (h : splitSep url = some (s, r)) :
    url = s ++ ':' :: '/' :: '/' :: r := by
  induction url using splitSep.induct generalizing s with
  | case1 rest =>
    rw [splitSep] at h
    cases h
    rfl
  | case2 c cs hne ih =>
    rw [splitSep] at h
    · obtain ⟨⟨s', r'⟩, hcs, hp⟩ := Option.map_eq_some_iff.1 h
      cases hp
      rw [ih hcs]
      rfl
    · exact hne
  | case3 => cases h

/-- Where the part before a separator has no colon, the separator is the first one. -/
lemma splitSep_append {s : List Char} (hs : ':' ∉ s) (r : List Char) :
    splitSep (s ++ ':' :: '/' :: '/' :: r) = some (s, r) := by
  induction s with
  | nil => rfl
  | cons c s ih =>
    rw [List.mem_cons, not_or] at hs
    obtain ⟨hc, hs⟩ := hs
    rw [List.cons_append, splitSep_cons (Ne.symm hc), ih hs]
    rfl

/-- A generic parser splits at the first `://`, provided that a scheme stands before it. -/
lemma split_eq_some_iff {url s r : List Char} :
    split url = some (s, r) ↔ splitSep url = some (s, r) ∧ s ≠ [] ∧ ∀ c ∈ s, isDelim c = false := by
  constructor
  · intro h
    simp only [split] at h
    split at h
    next c scheme rest htake hdrop =>
      cases h
      have hurl : url = (c :: scheme) ++ ':' :: '/' :: '/' :: r := by
        rw [← htake, ← hdrop, List.takeWhile_append_dropWhile]
      have hplain : ∀ d ∈ c :: scheme, isDelim d = false := by
        intro d hd
        rw [← htake] at hd
        simpa using List.mem_takeWhile_imp hd
      refine ⟨?_, List.cons_ne_nil _ _, hplain⟩
      rw [hurl]
      apply splitSep_append
      intro hmem
      exact absurd (hplain ':' hmem) (by decide)
    next => cases h
  · rintro ⟨hsep, hne, hplain⟩
    have hplain' : ∀ d ∈ s, (!isDelim d) = true := by
      intro d hd
      simp [hplain d hd]
    obtain ⟨c, s, rfl⟩ := List.exists_cons_of_ne_nil hne
    rw [eq_of_splitSep hsep, split, List.takeWhile_append_of_pos hplain',
      List.dropWhile_append_of_pos hplain']
    simp [isDelim]

lemma split_eq_none_of_delim {url s r : List Char} (h : splitSep url = some (s, r)) {c : Char}
    (hc : c ∈ s) (hd : isDelim c) : split url = none := by
  rw [Option.eq_none_iff_forall_ne_some]
  rintro ⟨s', r'⟩ hsplit
  obtain ⟨hsep, -, hplain⟩ := split_eq_some_iff.1 hsplit
  rw [h] at hsep
  cases hsep
  simp [hplain c hc] at hd

/-! ### Hosts without userinfo -/

lemma dropUserinfo_of_not_mem {auth : List Char} (h : '@' ∉ auth) : dropUserinfo auth = auth := by
  have hall : ∀ c ∈ auth.reverse, decide (c ≠ '@') = true := by
    intro c hc
    simpa using ne_of_mem_of_not_mem (List.mem_reverse.1 hc) h
  rw [dropUserinfo, List.takeWhile_eq_self_iff.2 hall, List.reverse_reverse]

/-- Without userinfo, a text up to the first `:` or `/` that has no other delimiter is the host. -/
lemma hostOf_eq {rest host : List Char} (hat : '@' ∉ authority rest)
    (hhost : lower (rest.takeWhile fun c => !(c = ':' || c = '/')) = host)
    (hplain : ∀ c ∈ host, c ≠ '?' ∧ c ≠ '#' ∧ c ≠ '[') : hostOf rest = host := by
  set text := rest.takeWhile fun c => !(c = ':' || c = '/') with htext
  have hfix : ∀ c ∈ text, c ≠ '?' ∧ c ≠ '#' ∧ c ≠ '[' := by
    intro c hc
    have hlower := hplain c.toLower (hhost ▸ List.mem_map_of_mem hc)
    refine ⟨?_, ?_, ?_⟩ <;> rintro rfl <;> simp at hlower
  have hhead : (authority rest).head? ≠ some '[' := by
    cases rest with
    | nil => simp [authority]
    | cons c cs =>
      intro h
      by_cases hc : c = '['
      · subst hc
        exact (hfix '[' (by simp [htext])).2.2 rfl
      · simp only [authority, List.takeWhile_cons] at h
        split at h <;> simp_all
  have hcut : (authority rest).takeWhile (· ≠ ':') = text := by
    have hall : ∀ c ∈ text, decide (c ≠ '?' ∧ c ≠ '#') = true := by
      intro c hc
      simpa using ⟨(hfix c hc).1, (hfix c hc).2.1⟩
    rw [← List.takeWhile_eq_self_iff.2 hall, htext, authority, List.takeWhile_takeWhile,
      List.takeWhile_takeWhile]
    congr 1
    funext c
    by_cases h1 : c = ':' <;> by_cases h2 : c = '/' <;> by_cases h3 : c = '?' <;> simp_all
  rw [hostOf, dropUserinfo_of_not_mem hat, dropPort, if_neg hhead, hcut, hhost]

end Url

end HftBot.Core
