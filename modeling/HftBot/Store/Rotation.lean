import HftBot.Store.RawLog
import Mathlib.Data.List.GetD
import Mathlib.Data.List.Induction

/-!
# Log rotation

The writer cuts the sequence of its records into consecutive groups, one for each file. Every file
holds the lines of its group and is within the limit, unless its group is a single record.
-/

namespace HftBot.Storage

open HftBot.Core HftBot.Core.JsonText

/-- The lines of records, one behind the other. -/
def linesOf (recs : List RawRecord) : Bytes := recs.flatMap RawRecord.line

@[simp] lemma linesOf_nil : linesOf [] = [] := rfl

@[simp] lemma linesOf_append (recs recs' : List RawRecord) :
    linesOf (recs ++ recs') = linesOf recs ++ linesOf recs' := List.flatMap_append

@[simp] lemma linesOf_singleton (rec : RawRecord) : linesOf [rec] = rec.line :=
  List.append_nil rec.line

lemma linesOf_eq_nil_iff {recs : List RawRecord} : linesOf recs = [] ↔ recs = [] := by
  cases recs with
  | nil => simp
  | cons rec recs => simp [linesOf, RawRecord.line]

/-- A file of the group is within the limit, or the group is a single record. -/
def Fits (maxBytes : Nat) (group : List RawRecord) : Prop :=
  (linesOf group).length ≤ maxBytes ∨ group.length = 1

namespace RawLogWriter

variable {maxBytes : Nat} {w : RawLogWriter} {closed : List (List RawRecord)}
  {current : List RawRecord}

/-- The contents of the files: the groups that are closed and, in the file that is open, the
current one. -/
def contents (closed : List (List RawRecord)) (current : List RawRecord) : Nat → Bytes :=
  Function.update (fun i => linesOf (closed.getD i [])) closed.length (linesOf current)

lemma contents_eq (closed : List (List RawRecord)) (current : List RawRecord) (i : Nat) :
    contents closed current i = linesOf ((closed ++ [current]).getD i []) := by
  rw [contents]
  rcases Nat.lt_trichotomy i closed.length with hi | rfl | hi
  · rw [Function.update_of_ne (Nat.ne_of_lt hi), List.getD_append _ _ _ _ hi]
  · rw [Function.update_self, List.getD_append_right _ _ _ _ (Nat.le_refl _), Nat.sub_self,
      List.getD_cons_zero]
  · rw [Function.update_of_ne (Nat.ne_of_gt hi), List.getD_eq_default _ _ (Nat.le_of_lt hi),
      List.getD_eq_default]
    rwa [List.length_append, List.length_singleton]

/-- A file that has just been opened is empty. -/
lemma contents_nil (closed : List (List RawRecord)) (current : List RawRecord) :
    contents (closed ++ [current]) [] = contents closed current := by
  funext i
  rw [contents_eq closed, contents, List.length_append, List.length_singleton]
  by_cases hi : i = closed.length + 1
  · subst hi
    rw [Function.update_self, List.getD_eq_default]
    rw [List.length_append, List.length_singleton]
  · rw [Function.update_of_ne hi]

/-- What the writer has written, and its counters. -/
structure Holds (maxBytes : Nat) (w : RawLogWriter) (closed : List (List RawRecord))
    (current : List RawRecord) : Prop where
  limit     : w.maxBytes = maxBytes
  index     : w.index = closed.length
  rotations : w.rotations = closed.length
  bytes     : w.bytes = (linesOf current).length
  files     : w.files = contents closed current
  fits      : ∀ group ∈ closed ++ [current], Fits maxBytes group

lemma holds_new (maxBytes : Nat) : Holds maxBytes (new (fun _ => []) maxBytes) [] [] where
  limit     := rfl
  index     := rfl
  rotations := rfl
  bytes     := rfl
  files     := by
    funext i
    rw [contents_eq]
    cases i <;> rfl
  fits      := by
    intro group hgroup
    obtain rfl := List.mem_singleton.1 hgroup
    exact Or.inl (Nat.zero_le _)

lemma Holds.rotate (h : Holds maxBytes w closed current) :
    Holds maxBytes w.rotate (closed ++ [current]) [] where
  limit     := h.limit
  index     := by
    rw [List.length_append, ← h.index]
    rfl
  rotations := by
    rw [List.length_append, ← h.rotations]
    rfl
  bytes     := rfl
  files     := h.files.trans (contents_nil closed current).symm
  fits      := by
    intro group hgroup
    rcases List.mem_append.1 hgroup with hgroup | hgroup
    · exact h.fits group hgroup
    · obtain rfl := List.mem_singleton.1 hgroup
      exact Or.inl (Nat.zero_le _)

/-- A record in the file that is open. -/
lemma Holds.append (h : Holds maxBytes w closed current) {rec : RawRecord}
    (hfits : Fits maxBytes (current ++ [rec])) :
    Holds maxBytes (w.append rec.line) closed (current ++ [rec]) where
  limit     := h.limit
  index     := h.index
  rotations := h.rotations
  bytes     := by simp [RawLogWriter.append, h.bytes]
  files     := by
    rw [RawLogWriter.append, h.files, h.index, contents, contents, Function.update_self,
      Function.update_idem, linesOf_append, linesOf_singleton]
  fits      := by
    intro group hgroup
    rcases List.mem_append.1 hgroup with hgroup | hgroup
    · exact h.fits group (List.mem_append_left _ hgroup)
    · obtain rfl := List.mem_singleton.1 hgroup
      exact hfits

/-- One record more, in the current group or in one of its own. -/
lemma Holds.write (h : Holds maxBytes w closed current) (rec : RawRecord) :
    ∃ closed' current', Holds maxBytes (w.write rec) closed' current' ∧
      (closed' ++ [current']).flatten = (closed ++ [current]).flatten ++ [rec] := by
  rw [RawLogWriter.write]
  split_ifs with hfull
  · refine ⟨closed ++ [current], [rec], ?_, by simp⟩
    exact h.rotate.append (Or.inr rfl)
  · refine ⟨closed, current ++ [rec], h.append ?_, by simp⟩
    rw [Fits, linesOf_append, linesOf_singleton, List.length_append, ← h.bytes]
    by_cases hempty : 0 < w.bytes
    · refine Or.inl (Nat.le_of_not_lt fun hlt => hfull ⟨hempty, ?_⟩)
      rwa [h.limit]
    · -- Nothing is in the file yet, so the record is alone in it.
      have hnil : current = [] := by
        rw [← linesOf_eq_nil_iff, ← List.length_eq_zero_iff, ← h.bytes]
        exact Nat.eq_zero_of_not_pos hempty
      exact Or.inr (by rw [hnil]; rfl)

lemma Holds.writeAll (h : Holds maxBytes w closed current) (recs : List RawRecord) :
    ∃ closed' current', Holds maxBytes (w.writeAll recs) closed' current' ∧
      (closed' ++ [current']).flatten = (closed ++ [current]).flatten ++ recs := by
  induction recs generalizing w closed current with
  | nil => exact ⟨closed, current, h, (List.append_nil _).symm⟩
  | cons rec recs ih =>
    obtain ⟨closed', current', h', hflatten⟩ := h.write rec
    obtain ⟨closed'', current'', h'', hflatten'⟩ := ih h'
    refine ⟨closed'', current'', h'', ?_⟩
    rw [hflatten', hflatten, List.append_assoc, List.singleton_append]

lemma flatMap_range_getD (groups : List (List RawRecord)) :
    (List.range groups.length).flatMap (fun i => linesOf (groups.getD i [])) =
      linesOf groups.flatten := by
  induction groups using List.reverseRecOn with
  | nil => rfl
  | append_singleton groups group ih =>
    have hinit : (List.range groups.length).flatMap
        (fun i => linesOf ((groups ++ [group]).getD i [])) = linesOf groups.flatten := by
      rw [← ih]
      refine List.flatMap_congr fun i hi => ?_
      rw [List.getD_append _ _ _ _ (List.mem_range.1 hi)]
    rw [List.length_append, List.length_singleton, List.range_succ, List.flatMap_append, hinit]
    simp

/-- For every limit and every list of records, the files are the lines of consecutive groups of the
records, each within the limit or of a single record; so nothing is lost, split or reordered. -/
theorem rotation_faithful (maxBytes : Nat) (recs : List RawRecord) :
    let w := (new (fun _ => []) maxBytes).writeAll recs
    (List.range (w.rotations + 1)).flatMap w.files = linesOf recs ∧
      ∃ groups : List (List RawRecord), groups.flatten = recs ∧
        groups.length = w.rotations + 1 ∧ (∀ i, w.files i = linesOf (groups.getD i [])) ∧
        ∀ group ∈ groups, Fits maxBytes group := by
  intro w
  obtain ⟨closed, current, h, hflatten⟩ := (holds_new maxBytes).writeAll recs
  have hlength : (closed ++ [current]).length = w.rotations + 1 := by
    rw [List.length_append, List.length_singleton, h.rotations]
  have hfiles (i : Nat) : w.files i = linesOf ((closed ++ [current]).getD i []) := by
    rw [h.files, contents_eq]
  have hrecs : (closed ++ [current]).flatten = recs := hflatten
  refine ⟨?_, closed ++ [current], hrecs, hlength, hfiles, h.fits⟩
  rw [← hlength, funext hfiles, flatMap_range_getD, hrecs]

end RawLogWriter

end HftBot.Storage
