import Mathlib.Order.Lattice
import Mathlib.Order.Bounds.Basic
import Mathlib.Data.List.Basic
import Mathlib.Tactic.Common

/-!
# Ordered maps

A finite map as its list of entries in strictly ascending order of keys. An entry list that is not
sorted cannot be built.
-/

namespace HftBot.Core

variable {κ ν : Type*} [LinearOrder κ]

/-- Put a value in the place of its key. -/
def insertEntry (k : κ) (v : ν) : List (κ × ν) → List (κ × ν)
  | []             => [(k, v)]
  | (j, w) :: rest =>
    if k < j then (k, v) :: (j, w) :: rest
    else if k = j then (k, v) :: rest
    else (j, w) :: insertEntry k v rest

def findEntry (k : κ) : List (κ × ν) → Option ν
  | []             => none
  | (j, w) :: rest => if k = j then some w else findEntry k rest

lemma eq_or_mem_of_mem_insertEntry {k : κ} {v : ν} {p : κ × ν} {l : List (κ × ν)}
    (h : p ∈ insertEntry k v l) : p = (k, v) ∨ p ∈ l := by
  induction l with
  | nil => simpa [insertEntry] using h
  | cons q rest ih =>
    obtain ⟨j, w⟩ := q
    rw [insertEntry] at h
    split_ifs at h with hlt heq
    · simpa using h
    · rcases List.mem_cons.1 h with rfl | hrest
      · exact Or.inl rfl
      · exact Or.inr (List.mem_cons_of_mem _ hrest)
    · rcases List.mem_cons.1 h with rfl | hrest
      · exact Or.inr List.mem_cons_self
      · exact (ih hrest).imp_right (List.mem_cons_of_mem _)

lemma insertEntry_sorted (k : κ) (v : ν) {l : List (κ × ν)}
    (h : l.Pairwise fun p q => p.1 < q.1) :
    (insertEntry k v l).Pairwise fun p q => p.1 < q.1 := by
  induction l with
  | nil => simp [insertEntry]
  | cons q rest ih =>
    obtain ⟨j, w⟩ := q
    obtain ⟨hhead, hrest⟩ := List.pairwise_cons.1 h
    rw [insertEntry]
    split_ifs with hlt heq
    · refine List.pairwise_cons.2 ⟨fun p hp => ?_, h⟩
      rcases List.mem_cons.1 hp with rfl | hp
      · exact hlt
      · exact lt_trans hlt (hhead p hp)
    · subst heq
      exact List.pairwise_cons.2 ⟨hhead, hrest⟩
    · refine List.pairwise_cons.2 ⟨fun p hp => ?_, ih hrest⟩
      rcases eq_or_mem_of_mem_insertEntry hp with rfl | hp
      · exact lt_of_le_of_ne (not_lt.1 hlt) (Ne.symm heq)
      · exact hhead p hp

lemma findEntry_insertEntry (k j : κ) (v : ν) (l : List (κ × ν)) :
    findEntry j (insertEntry k v l) = if j = k then some v else findEntry j l := by
  induction l with
  | nil => rfl
  | cons q rest ih =>
    obtain ⟨i, w⟩ := q
    rw [insertEntry]
    by_cases hjk : j = k
    · subst hjk
      split_ifs with hlt heq <;> simp_all [findEntry]
    · split_ifs with hlt heq <;> simp_all [findEntry]

lemma findEntry_filter_ne (k j : κ) (l : List (κ × ν)) :
    findEntry j (l.filter fun p => p.1 ≠ k) = if j = k then none else findEntry j l := by
  induction l with
  | nil => simp [findEntry]
  | cons q rest ih =>
    obtain ⟨i, w⟩ := q
    by_cases hik : i = k
    · subst hik
      by_cases hji : j = i <;> simp_all [findEntry]
    · by_cases hji : j = i <;> simp_all [findEntry]

/-- In a sorted list a key stands once, with the value that is found under it. -/
lemma findEntry_eq_some_iff {k : κ} {v : ν} {l : List (κ × ν)}
    (h : l.Pairwise fun p q => p.1 < q.1) : findEntry k l = some v ↔ (k, v) ∈ l := by
  induction l with
  | nil => simp [findEntry]
  | cons q rest ih =>
    obtain ⟨j, w⟩ := q
    obtain ⟨hhead, hrest⟩ := List.pairwise_cons.1 h
    rw [findEntry, List.mem_cons, Prod.mk.injEq]
    split_ifs with heq
    · subst heq
      have hnot : (k, v) ∉ rest := fun hmem => lt_irrefl k (hhead _ hmem)
      simp [hnot, eq_comm]
    · simp [heq, ih hrest]

lemma findEntry_map (f : κ → ν → ν) (k : κ) (l : List (κ × ν)) :
    findEntry k (l.map fun p => (p.1, f p.1 p.2)) = (findEntry k l).map (f k) := by
  induction l with
  | nil => rfl
  | cons p rest ih =>
    rw [List.map_cons, findEntry, findEntry, ih]
    split_ifs with heq
    · rw [heq, Option.map_some]
    · rfl

/-- A finite map, with its entries in ascending order. -/
structure SortedMap (κ ν : Type*) [LinearOrder κ] where
  entries : List (κ × ν) := []
  sorted  : entries.Pairwise fun p q => p.1 < q.1 := by simp
deriving DecidableEq

namespace SortedMap

def find? (m : SortedMap κ ν) (k : κ) : Option ν := findEntry k m.entries

def insert (m : SortedMap κ ν) (k : κ) (v : ν) : SortedMap κ ν :=
  ⟨insertEntry k v m.entries, insertEntry_sorted k v m.sorted⟩

def erase (m : SortedMap κ ν) (k : κ) : SortedMap κ ν :=
  ⟨m.entries.filter fun p => p.1 ≠ k, m.sorted.filter _⟩

def isEmpty (m : SortedMap κ ν) : Bool := m.entries.isEmpty

def size (m : SortedMap κ ν) : Nat := m.entries.length

/-- The greatest key. -/
def lastKey? (m : SortedMap κ ν) : Option κ := m.entries.getLast?.map (·.1)

lemma find?_eq_some_iff {m : SortedMap κ ν} {k : κ} {v : ν} :
    m.find? k = some v ↔ (k, v) ∈ m.entries :=
  findEntry_eq_some_iff m.sorted

/-- Maps in which the same is found under every key are equal. -/
lemma ext_find? {m m' : SortedMap κ ν} (h : ∀ k, m.find? k = m'.find? k) : m = m' := by
  have hmem : ∀ p, p ∈ m.entries ↔ p ∈ m'.entries := by
    rintro ⟨k, v⟩
    rw [← find?_eq_some_iff, ← find?_eq_some_iff, h]
  have hnodup : ∀ m : SortedMap κ ν, m.entries.Nodup := fun m =>
    m.sorted.imp fun hlt heq => absurd (congrArg Prod.fst heq) hlt.ne
  have hperm := (List.perm_ext_iff_of_nodup (hnodup m) (hnodup m')).2 hmem
  have hentries : m.entries = m'.entries := by
    apply hperm.eq_of_pairwise _ m.sorted m'.sorted
    intro p q _ _ hlt hgt
    exact absurd hlt hgt.asymm
  cases m
  cases m'
  cases hentries
  rfl

lemma lastKey?_eq_some_iff {m : SortedMap κ ν} {k : κ} :
    m.lastKey? = some k ↔ IsGreatest {j | ∃ v, m.find? j = some v} k := by
  simp only [find?_eq_some_iff]
  rw [lastKey?, Option.map_eq_some_iff]
  constructor
  · rintro ⟨⟨j, v⟩, hlast, rfl⟩
    obtain ⟨init, hinit⟩ := List.getLast?_eq_some_iff.1 hlast
    have hsorted := m.sorted
    rw [hinit, List.pairwise_append] at hsorted
    refine ⟨⟨v, by simp [hinit]⟩, ?_⟩
    rintro i ⟨w, hmem⟩
    rw [hinit, List.mem_append, List.mem_singleton] at hmem
    rcases hmem with hmem | heq
    · exact (hsorted.2.2 _ hmem _ (by simp)).le
    · exact (Prod.mk.inj heq).1.le
  · rintro ⟨⟨v, hmem⟩, hgreatest⟩
    have hne : m.entries ≠ [] := List.ne_nil_of_mem hmem
    refine ⟨m.entries.getLast hne, List.getLast?_eq_some_getLast hne, ?_⟩
    apply le_antisymm
    · exact hgreatest ⟨_, List.getLast_mem hne⟩
    · -- The last entry is not before any other.
      rw [← List.dropLast_append_getLast hne, List.mem_append, List.mem_singleton] at hmem
      rcases hmem with hmem | heq
      · have hsorted := m.sorted
        rw [← List.dropLast_append_getLast hne, List.pairwise_append] at hsorted
        exact (hsorted.2.2 _ hmem _ (by simp)).le
      · rw [← heq]

/-- Change every value in place. -/
def mapValues (m : SortedMap κ ν) (f : κ → ν → ν) : SortedMap κ ν where
  entries := m.entries.map fun p => (p.1, f p.1 p.2)
  sorted  := List.pairwise_map.2 m.sorted

lemma find?_mapValues (m : SortedMap κ ν) (f : κ → ν → ν) (k : κ) :
    (m.mapValues f).find? k = (m.find? k).map (f k) :=
  findEntry_map f k m.entries

lemma find?_insert (m : SortedMap κ ν) (k j : κ) (v : ν) :
    (m.insert k v).find? j = if j = k then some v else m.find? j :=
  findEntry_insertEntry k j v m.entries

lemma find?_erase (m : SortedMap κ ν) (k j : κ) :
    (m.erase k).find? j = if j = k then none else m.find? j :=
  findEntry_filter_ne k j m.entries

/-- The keys, in ascending order. -/
def keys (m : SortedMap κ ν) : List κ := m.entries.map (·.1)

lemma mem_keys {m : SortedMap κ ν} {k : κ} : k ∈ m.keys ↔ ∃ v, m.find? k = some v := by
  simp [keys, find?_eq_some_iff]

lemma keys_sorted (m : SortedMap κ ν) : m.keys.Pairwise (· < ·) := List.pairwise_map.2 m.sorted

@[simp] lemma keys_mapValues (m : SortedMap κ ν) (f : κ → ν → ν) :
    (m.mapValues f).keys = m.keys := by
  simp [keys, mapValues, Function.comp_def]

/-- Of what is listed key by key, the part of the only key that lists anything. -/
lemma flatMap_keys_of_single {α : Type*} {m : SortedMap κ ν} {k : κ} (hk : k ∈ m.keys)
    {f : κ → List α} (hf : ∀ j ≠ k, f j = []) : m.keys.flatMap f = f k := by
  have hsorted := m.keys_sorted
  obtain ⟨before, after, hkeys⟩ := List.append_of_mem hk
  rw [hkeys, List.pairwise_append] at hsorted
  obtain ⟨-, hrest, hlt⟩ := hsorted
  have hbefore : before.flatMap f = [] := by
    rw [List.flatMap_eq_nil_iff]
    exact fun j hj => hf j (hlt j hj k List.mem_cons_self).ne
  have hafter : after.flatMap f = [] := by
    rw [List.flatMap_eq_nil_iff]
    exact fun j hj => hf j ((List.pairwise_cons.1 hrest).1 j hj).ne'
  rw [hkeys, List.flatMap_append, List.flatMap_cons, hbefore, hafter, List.nil_append,
    List.append_nil]

end SortedMap

end HftBot.Core
