import Mathlib.Data.List.Basic
import Mathlib.Logic.Function.Basic

/-!
# Streams of changes

A stream of entries gives every key its last value. A stream that leaves out the entries that say
nothing new gives the same, and so does one whose keys are renamed apart. A stream whose entries are
numbered shows what is missing from it.
-/

namespace HftBot.Core

variable {κ κ' ν : Type*} [DecidableEq κ] [DecidableEq κ']

section

variable [DecidableEq ν] {f : κ → Option ν} {cs : List (κ × ν)}

/-- The last value of every key, given the values before. -/
def table (f : κ → Option ν) (cs : List (κ × ν)) : κ → Option ν :=
  cs.foldl (fun f c => Function.update f c.1 (some c.2)) f

/-- The entries that say something new. -/
def changes : (κ → Option ν) → List (κ × ν) → List (κ × ν)
  | _, []      => []
  | f, c :: cs =>
    if f c.1 = some c.2 then changes f cs
    else c :: changes (Function.update f c.1 (some c.2)) cs

omit [DecidableEq ν] in
@[simp]
lemma table_cons (f : κ → Option ν) (c : κ × ν) (cs : List (κ × ν)) :
    table f (c :: cs) = table (Function.update f c.1 (some c.2)) cs := rfl

omit [DecidableEq ν] in
lemma table_append (f : κ → Option ν) (cs cs' : List (κ × ν)) :
    table f (cs ++ cs') = table (table f cs) cs' := List.foldl_append

lemma changes_append (f : κ → Option ν) (cs cs' : List (κ × ν)) :
    changes f (cs ++ cs') = changes f cs ++ changes (table f cs) cs' := by
  induction cs generalizing f with
  | nil => rfl
  | cons c cs ih =>
    rw [List.cons_append, changes, changes, table_cons]
    split_ifs with hsame
    · rw [ih, ← hsame, Function.update_eq_self]
    · rw [ih, List.cons_append]

/-- What says nothing new may be left out. -/
lemma table_changes (f : κ → Option ν) (cs : List (κ × ν)) :
    table f (changes f cs) = table f cs := by
  induction cs generalizing f with
  | nil => rfl
  | cons c cs ih =>
    rw [changes, table_cons]
    split_ifs with hsame
    · rw [ih, ← hsame, Function.update_eq_self]
    · rw [table_cons, ih]

lemma changes_sublist (f : κ → Option ν) (cs : List (κ × ν)) : (changes f cs).Sublist cs := by
  induction cs generalizing f with
  | nil => exact .slnil
  | cons c cs ih =>
    rw [changes]
    split_ifs
    · exact (ih f).cons c
    · exact (ih _).cons_cons c

/-- Nothing that is left says again what was said before. -/
lemma changes_new {before after : List (κ × ν)} {c : κ × ν}
    (h : changes f cs = before ++ c :: after) : table f before c.1 ≠ some c.2 := by
  induction cs generalizing f before with
  | nil => exact absurd h.symm (List.append_ne_nil_of_right_ne_nil _ (List.cons_ne_nil _ _))
  | cons c' cs ih =>
    rw [changes] at h
    split_ifs at h with hsame
    · exact ih h
    · cases before with
      | nil =>
        obtain ⟨rfl, -⟩ := List.cons.inj h
        exact hsame
      | cons c'' before =>
        obtain ⟨rfl, hrest⟩ := List.cons.inj h
        rw [table_cons]
        exact ih hrest

omit [DecidableEq ν] in
/-- Renaming the keys changes no value, if no other key gets the same name. -/
lemma table_rename {f' : κ' → Option ν} {g : κ → κ'} {k : κ} (hf : f' (g k) = f k)
    (hg : ∀ c ∈ cs, g c.1 = g k → c.1 = k) :
    table f' (cs.map fun c => (g c.1, c.2)) (g k) = table f cs k := by
  induction cs generalizing f f' with
  | nil => exact hf
  | cons c cs ih =>
    obtain ⟨hc, hcs⟩ := List.forall_mem_cons.1 hg
    rw [List.map_cons, table_cons, table_cons]
    apply ih _ hcs
    by_cases hk : c.1 = k
    · rw [hk, Function.update_self, Function.update_self]
    · rw [Function.update_of_ne (fun heq => hk (hc heq.symm)),
        Function.update_of_ne (fun heq => hk heq.symm), hf]

end

section

variable {α : Type*} {num : α → Nat} {l l' : List α}

lemma num_getElem {k n i : Nat} (h : l.map num = List.range' k n) (hi : i < l.length) :
    num l[i] = k + i := by
  have hlt : i < (l.map num).length := by rwa [List.length_map]
  have hnum := List.getElem_of_eq h hlt
  rwa [List.getElem_map, List.getElem_range', Nat.one_mul] at hnum

/-- In a numbered stream everything stands where its number says. -/
lemma getElem?_of_numbers {k n : Nat} (h : l.map num = List.range' k n) {a : α} (ha : a ∈ l) :
    k ≤ num a ∧ l[num a - k]? = some a := by
  obtain ⟨i, hi, rfl⟩ := List.mem_iff_getElem.1 ha
  rw [num_getElem h hi, Nat.add_sub_cancel_left, List.getElem?_eq_getElem hi]
  exact ⟨Nat.le_add_right k i, rfl⟩

/-- A part of a numbered stream that has numbers without a gap is a piece of it. -/
lemma eq_piece_of_numbers {k n j m : Nat} (hsub : l' ⊆ l) (h : l.map num = List.range' k n)
    (h' : l'.map num = List.range' (k + j) m) : l' = (l.drop j).take m := by
  have hlength : l'.length = m := by simpa using congrArg List.length h'
  have hat (i : Nat) (hi : i < l'.length) : l[j + i]? = some l'[i] := by
    have hplace := (getElem?_of_numbers h (hsub (List.getElem_mem hi))).2
    rwa [num_getElem h' hi, Nat.add_assoc, Nat.add_sub_cancel_left] at hplace
  apply List.ext_getElem?
  intro i
  rw [List.getElem?_take, List.getElem?_drop]
  split_ifs with hi
  · rw [← hlength] at hi
    rw [hat i hi, List.getElem?_eq_getElem hi]
  · exact List.getElem?_eq_none (by omega)

/-- A part of a numbered stream has increasing numbers. -/
lemma pairwise_numbers {k n : Nat} (hsub : l'.Sublist l) (h : l.map num = List.range' k n) :
    (l'.map num).Pairwise (· < ·) := by
  have hall : (l.map num).Pairwise (· < ·) := h ▸ List.pairwise_lt_range'
  exact hall.sublist (hsub.map num)

end

end HftBot.Core
