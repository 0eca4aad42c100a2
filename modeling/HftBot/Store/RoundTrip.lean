import HftBot.Store.RawLine

/-!
# Round trip of the raw log

The reader takes a file line by line, so what it returns is what its lines are read as, in order. A
log that was written without rotation is read back exactly, unless a payload passes `is_valid_utf8`
without being valid UTF-8: it is written as a string that the parser refuses, and its record is
lost.
-/

namespace HftBot.Storage

open HftBot.Core HftBot.Core.Utf8 HftBot.Core.JsonText

/-! ### What the writer leaves in the base file -/

namespace RawLogWriter

/-- The records that go into the current file, before the next rotation. -/
def unrotated (maxBytes : Nat) : Nat → List RawRecord → List RawRecord
  | _,     []          => []
  | bytes, rec :: recs =>
    if 0 < bytes ∧ maxBytes < bytes + rec.line.length then []
    else rec :: unrotated maxBytes (bytes + rec.line.length) recs

lemma writeAll_cons (w : RawLogWriter) (rec : RawRecord) (recs : List RawRecord) :
    w.writeAll (rec :: recs) = (w.write rec).writeAll recs := rfl

lemma append_files_of_ne {w : RawLogWriter} (hw : 0 < w.index) (line : Bytes) :
    (w.append line).files 0 = w.files 0 :=
  Function.update_of_ne (Nat.ne_of_gt hw).symm _ _

lemma append_files_of_eq {w : RawLogWriter} (hw : w.index = 0) (line : Bytes) :
    (w.append line).files 0 = w.files 0 ++ line := by
  simp [append, hw]

/-- Once the writer has rotated, the base file stays as it is. -/
lemma files_zero_writeAll {w : RawLogWriter} (hw : 0 < w.index) (recs : List RawRecord) :
    (w.writeAll recs).files 0 = w.files 0 := by
  induction recs generalizing w with
  | nil => rfl
  | cons rec recs ih =>
    rw [writeAll_cons, write]
    split_ifs
    · have hrotate : 0 < w.rotate.index := Nat.succ_pos w.index
      rw [ih (w := w.rotate.append rec.line) hrotate, append_files_of_ne hrotate]
      rfl
    · rw [ih (w := w.append rec.line) hw, append_files_of_ne hw]

/-- The base file holds the lines of the records before the first rotation. -/
lemma files_zero_of_index_zero {w : RawLogWriter} (hw : w.index = 0) (recs : List RawRecord) :
    (w.writeAll recs).files 0 =
      w.files 0 ++ (unrotated w.maxBytes w.bytes recs).flatMap RawRecord.line := by
  induction recs generalizing w with
  | nil => simp [writeAll, unrotated]
  | cons rec recs ih =>
    rw [writeAll_cons, write, unrotated]
    split_ifs with hfull
    · have hrotate : 0 < w.rotate.index := Nat.succ_pos w.index
      rw [files_zero_writeAll (w := w.rotate.append rec.line) hrotate, append_files_of_ne hrotate,
        List.flatMap_nil, List.append_nil]
      rfl
    · rw [ih (w := w.append rec.line) hw, append_files_of_eq hw, List.flatMap_cons,
        List.append_assoc]
      rfl

lemma rotations_le_writeAll (w : RawLogWriter) (recs : List RawRecord) :
    w.rotations ≤ (w.writeAll recs).rotations := by
  induction recs generalizing w with
  | nil => exact Nat.le_refl _
  | cons rec recs ih =>
    refine Nat.le_trans ?_ (ih (w.write rec))
    rw [write]
    split_ifs
    · exact Nat.le_succ _
    · exact Nat.le_refl _

lemma unrotated_of_rotations {w : RawLogWriter} {recs : List RawRecord}
    (h : (w.writeAll recs).rotations = w.rotations) : unrotated w.maxBytes w.bytes recs = recs := by
  induction recs generalizing w with
  | nil => rfl
  | cons rec recs ih =>
    rw [writeAll_cons] at h
    rw [unrotated]
    rw [write] at h
    split_ifs at h ⊢ with hfull
    · have hle := rotations_le_writeAll (w.rotate.append rec.line) recs
      rw [h] at hle
      exact absurd hle (Nat.not_succ_le_self _)
    · exact congrArg _ (ih (w := w.append rec.line) h)

end RawLogWriter

/-! ### What the reader makes of the lines of a file -/

namespace RawLogReader

variable {parse : Bytes → Option Value}

lemma nextFrom_append {l : Bytes} (hl : newline ∉ l) (buf t : Bytes) (skipped : Nat) :
    nextFrom parse buf (l ++ t) skipped = nextFrom parse (buf ++ l) t skipped := by
  induction l generalizing buf with
  | nil => rw [List.nil_append, List.append_nil]
  | cons c l ih =>
    have hc : c ≠ newline := fun heq => hl (heq ▸ List.mem_cons_self)
    rw [List.cons_append, nextFrom, if_neg hc, ih fun h => hl (List.mem_cons_of_mem c h),
      List.append_assoc, List.singleton_append]

/-- A line that is a record is returned. -/
lemma next_record {l : Bytes} {rec : RawRecord} (hrec : recordOfLine parse l = some rec)
    (hl : newline ∉ l) (hne : l ≠ []) (t : Bytes) (skipped : Nat) :
    next parse ⟨l ++ newline :: t, skipped⟩ = (some rec, ⟨t, skipped⟩) := by
  rw [next, nextFrom_append hl, List.nil_append, nextFrom, if_pos rfl, if_neg hne, hrec]

/-- Any other line is skipped. -/
lemma next_skip {l : Bytes} (hrec : recordOfLine parse l = none) (hl : newline ∉ l) (hne : l ≠ [])
    (t : Bytes) (skipped : Nat) :
    next parse ⟨l ++ newline :: t, skipped⟩ = next parse ⟨t, skipped + 1⟩ := by
  rw [next, nextFrom_append hl, List.nil_append, nextFrom, if_pos rfl, if_neg hne, hrec]
  rfl

lemma next_end {t : Bytes} (ht : newline ∉ t) (skipped : Nat) :
    next parse ⟨t, skipped⟩ = (none, ⟨[], if t = [] then skipped else skipped + 1⟩) := by
  have h : nextFrom parse [] (t ++ []) skipped = nextFrom parse ([] ++ t) [] skipped :=
    nextFrom_append ht [] [] skipped
  rw [List.append_nil, List.nil_append] at h
  rw [next, h, nextFrom]

lemma Reads.congr {r r' r'' : RawLogReader} {recs : List RawRecord}
    (hnext : next parse r = next parse r') (h : Reads parse r' recs r'') :
    Reads parse r recs r'' := by
  cases h with
  | done h => exact .done (hnext.trans h)
  | more h hrest => exact .more (hnext.trans h) hrest

/-- The calls return one thing only. -/
lemma Reads.unique {r r₁ r₂ : RawLogReader} {recs₁ recs₂ : List RawRecord}
    (h₁ : Reads parse r recs₁ r₁) (h₂ : Reads parse r recs₂ r₂) : recs₁ = recs₂ ∧ r₁ = r₂ := by
  induction h₁ generalizing recs₂ with
  | done h =>
    cases h₂ with
    | done h' => exact ⟨rfl, (Prod.mk.inj (h.symm.trans h')).2⟩
    | more h' _ => exact absurd (Prod.mk.inj (h.symm.trans h')).1 (by simp)
  | more h _ ih =>
    cases h₂ with
    | done h' => exact absurd (Prod.mk.inj (h.symm.trans h')).1 (by simp)
    | more h' hrest =>
      obtain ⟨hrec, rfl⟩ := Prod.mk.inj (h.symm.trans h')
      obtain ⟨rfl, hr⟩ := ih hrest
      exact ⟨by rw [Option.some.inj hrec], hr⟩

/-- A file of lines and a last line that has no end. -/
def fileOf (ls : List Bytes) (t : Bytes) : Bytes := ls.flatMap (· ++ [newline]) ++ t

/-- How many lines are skipped. -/
def skippedOf (parse : Bytes → Option Value) (ls : List Bytes) (t : Bytes) : Nat :=
  ls.countP (fun l => (recordOfLine parse l).isNone) + if t = [] then 0 else 1

/-- The records of a file are those of its lines. -/
theorem reads_fileOf {ls : List Bytes} {t : Bytes} (hls : ∀ l ∈ ls, newline ∉ l ∧ l ≠ [])
    (ht : newline ∉ t) (skipped : Nat) :
    Reads parse ⟨fileOf ls t, skipped⟩ (ls.filterMap (recordOfLine parse))
      ⟨[], skipped + skippedOf parse ls t⟩ := by
  induction ls generalizing skipped with
  | nil =>
    refine Reads.done ?_
    rw [fileOf, List.flatMap_nil, List.nil_append, next_end ht, skippedOf]
    split_ifs <;> rfl
  | cons l ls ih =>
    obtain ⟨⟨hl, hne⟩, hls⟩ := List.forall_mem_cons.1 hls
    have hfile : fileOf (l :: ls) t = l ++ newline :: fileOf ls t := by simp [fileOf]
    rw [hfile]
    cases hrec : recordOfLine parse l with
    | none =>
      have hskip : skipped + skippedOf parse (l :: ls) t =
          skipped + 1 + skippedOf parse ls t := by
        simp only [skippedOf, List.countP_cons, hrec, Option.isNone_none, if_true]
        omega
      rw [List.filterMap_cons_none hrec, hskip]
      exact (ih hls (skipped + 1)).congr (next_skip hrec hl hne (fileOf ls t) skipped)
    | some rec =>
      have hskip : skippedOf parse (l :: ls) t = skippedOf parse ls t := by
        simp [skippedOf, hrec]
      rw [List.filterMap_cons_some hrec, hskip]
      exact .more (next_record hrec hl hne (fileOf ls t) skipped) (ih hls skipped)

end RawLogReader

/-! ### Logs that are read back -/

open RawLogReader RawLogWriter

/-- The bodies of lines as lines of a file. -/
lemma bodies_spec (recs : List RawRecord) :
    ∀ l ∈ recs.map RawRecord.body, newline ∉ l ∧ l ≠ [] := by
  intro l hl
  obtain ⟨rec, -, rfl⟩ := List.mem_map.1 hl
  exact ⟨newline_notMem_body rec, body_ne_nil rec⟩

lemma fileOf_bodies (recs : List RawRecord) (t : Bytes) :
    fileOf (recs.map RawRecord.body) t = recs.flatMap RawRecord.line ++ t := by
  rw [fileOf, List.flatMap_map]
  rfl

section

variable {parse : Bytes → Option Value} (hparse : Conforms parse)
include hparse

/-- Of the records that were written, those that are storable are read. -/
lemma filterMap_bodies (recs : List RawRecord) :
    (recs.map RawRecord.body).filterMap (recordOfLine parse) = recs.filter (·.Storable) := by
  induction recs with
  | nil => rfl
  | cons rec recs ih =>
    have hrec := recordOfLine_body hparse rec
    by_cases hstorable : rec.Storable
    · rw [if_pos hstorable] at hrec
      rw [List.map_cons, List.filterMap_cons_some hrec, ih, List.filter_cons_of_pos (by simpa)]
    · rw [if_neg hstorable] at hrec
      rw [List.map_cons, List.filterMap_cons_none hrec, ih, List.filter_cons_of_neg (by simpa)]

lemma skippedOf_bodies (recs : List RawRecord) :
    skippedOf parse (recs.map RawRecord.body) [] = recs.countP (¬ ·.Storable) := by
  rw [skippedOf, if_pos rfl, Nat.add_zero, List.countP_map]
  congr 1
  funext rec
  rw [Function.comp_apply, recordOfLine_body hparse]
  split_ifs with h <;> simp [h]

/-- A log of whole lines is read back exactly if all its records are storable. -/
lemma reads_lines_iff (recs : List RawRecord) :
    (∃ r, Reads parse ⟨recs.flatMap RawRecord.line, 0⟩ recs r ∧ r.skipped = 0) ↔
      ∀ rec ∈ recs, rec.Storable := by
  have hreads : Reads parse ⟨fileOf (recs.map RawRecord.body) [], 0⟩ _ _ :=
    reads_fileOf (bodies_spec recs) List.not_mem_nil 0
  rw [fileOf_bodies, List.append_nil, filterMap_bodies hparse, skippedOf_bodies hparse] at hreads
  constructor
  · rintro ⟨r, hr, -⟩
    have hfilter := (hr.unique hreads).1
    simpa using List.filter_eq_self.1 hfilter.symm
  · intro h
    have hfilter : recs.filter (·.Storable) = recs := List.filter_eq_self.2 (by simpa using h)
    have hcount : recs.countP (¬ ·.Storable) = 0 := List.countP_eq_zero.2 (by simpa using h)
    rw [hfilter, hcount] at hreads
    exact ⟨_, hreads, rfl⟩

/-- A log written without rotation is read back exactly, every field of every record, if and only if
no payload passes `is_valid_utf8` that is not valid UTF-8. -/
theorem round_trip_iff {maxBytes : Nat} {recs : List RawRecord}
    (hstrings : ∀ rec ∈ recs, Valid rec.channel ∧ Valid rec.sourceTicker ∧ ∀ m ∈ rec.marker, Valid m)
    (hrotations : ((RawLogWriter.new (fun _ => []) maxBytes).writeAll recs).rotations = 0) :
    (∃ r, Reads parse ⟨((RawLogWriter.new (fun _ => []) maxBytes).writeAll recs).files 0, 0⟩ recs r ∧
        r.skipped = 0) ↔
      ∀ rec ∈ recs, isValidUtf8 rec.raw = true → Valid rec.raw := by
  have hfile := files_zero_of_index_zero (w := RawLogWriter.new (fun _ => []) maxBytes) rfl recs
  rw [unrotated_of_rotations hrotations] at hfile
  rw [hfile, show (RawLogWriter.new (fun _ => []) maxBytes).files 0 = [] from rfl, List.nil_append,
    reads_lines_iff hparse]
  refine forall₂_congr fun rec hrec => ?_
  obtain ⟨hchannel, hticker, hmarker⟩ := hstrings rec hrec
  exact ⟨fun h => h.2.2.2, fun h => ⟨hchannel, hticker, hmarker, h⟩⟩

end

/-- Text, and bytes that are not text. -/
theorem round_trip_text_and_bytes :
    ∃ r, Reads read ⟨((RawLogWriter.new (fun _ => []) 4096).writeAll
      [{ channel := ascii "trade", raw := ascii "\x7b\x7d" }, { raw := [0xff, 0x00] }]).files 0, 0⟩
      [{ channel := ascii "trade", raw := ascii "\x7b\x7d" }, { raw := [0xff, 0x00] }] r ∧
        r.skipped = 0 :=
  (round_trip_iff conforms_read (by decide +kernel) (by decide +kernel)).2 (by decide +kernel)

/-- An overlong form passes the writer's test, and its record is lost. -/
theorem round_trip_overlong :
    ¬ ∀ (parse : Bytes → Option Value) (maxBytes : Nat) (recs : List RawRecord), Conforms parse →
      (∀ rec ∈ recs, Valid rec.channel ∧ Valid rec.sourceTicker ∧ ∀ m ∈ rec.marker, Valid m) →
      ((RawLogWriter.new (fun _ => []) maxBytes).writeAll recs).rotations = 0 →
        ∃ r, Reads parse ⟨((RawLogWriter.new (fun _ => []) maxBytes).writeAll recs).files 0, 0⟩
          recs r ∧ r.skipped = 0 := by
  intro h
  have hread := h read 4096 [{ raw := [0xc0, 0x80] }] conforms_read (by decide +kernel) rfl
  have hfile : ((RawLogWriter.new (fun _ => []) 4096).writeAll [{ raw := [0xc0, 0x80] }]).files 0 =
      [({ raw := [0xc0, 0x80] } : RawRecord)].flatMap RawRecord.line := by
    decide +kernel
  rw [hfile, reads_lines_iff conforms_read] at hread
  exact absurd hread (by decide +kernel)

end HftBot.Storage
