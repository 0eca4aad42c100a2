import HftBot.Core.JsonScan
import HftBot.Store.RoundTrip

/-!
# Crash and append

A log is cut off at some byte and a new writer goes on with it. The reader finds what lies before
the cut and what was written after it, if the cut was between two lines: the writer does not end a
line that it finds open, and the first line that it writes is lost with that one.
-/

namespace HftBot.Storage

open HftBot.Core HftBot.Core.Utf8 HftBot.Core.JsonText
open RawLogReader (Reads recordOfLine fileOf reads_fileOf)
open RawLogWriter (unrotated)

/-! ### Lines that are run together -/

lemma textIn_texts (rec : RawRecord) : ∀ m ∈ present rec.texts, Scan.TextIn m.2 := by
  have hdecimal : ∀ n, ∀ b ∈ decimal n, Scan.Neutral b :=
    fun n b hb => Scan.neutral_of_isDigit (isDigit_decimal n b hb)
  have hsigned : ∀ z, ∀ b ∈ signedDecimal z, Scan.Neutral b := by
    intro z
    rw [signedDecimal]
    split_ifs
    · exact List.forall_mem_cons.2 ⟨by decide, hdecimal _⟩
    · exact hdecimal _
  have hescape : ∀ s, Scan.TextIn (jsonEscape s) := by
    refine fun s => Scan.textIn_string (Scan.contentIn_flatMap fun c _ => ?_)
    rcases escapeByte_cases c with ⟨hsame, hc⟩ | ⟨-, x, e, heq, -, he⟩
    · rw [hsame]
      exact Scan.contentIn_plain hc
    · rw [heq]
      exact (Scan.contentIn_escape x).append (Scan.contentIn_of_plain fun b hb => (he b hb).2)
  rw [forall_present_iff]
  exact forall_mem_texts (fun z => Scan.textIn_neutral (hsigned z))
    (fun n => Scan.textIn_neutral (hdecimal n))
    (fun s hs => Scan.textIn_string (Scan.contentIn_of_plain fun b hb => (hs b hb).2)) (hescape _)
    (hescape _) (fun m _ => hescape m) fun _ => hescape _

/-- How every line begins. -/
lemma body_eq_cons (rec : RawRecord) :
    ∃ u, rec.body = '{'.toUInt8 :: '"'.toUInt8 :: 'r'.toUInt8 :: u := by
  have hmembers : ∀ (m : String × Bytes) (ms : List (String × Bytes)),
      ∃ u, membersText (m :: ms) = memberText m ++ u := by
    intro m ms
    cases ms with
    | nil => exact ⟨[], by rw [membersText_singleton, List.append_nil]⟩
    | cons m' ms => exact ⟨_, membersText_cons_cons m m' ms⟩
  obtain ⟨u, hu⟩ := hmembers ("recv_mono_ns", signedDecimal rec.recvMonoNs.toInt)
    (present rec.texts.tail)
  have hbody : rec.body = '{'.toUInt8 :: membersText (("recv_mono_ns",
      signedDecimal rec.recvMonoNs.toInt) :: present rec.texts.tail) ++ ['}'.toUInt8] := rfl
  have hname : ascii "recv_mono_ns" = 'r'.toUInt8 :: ascii "ecv_mono_ns" := by decide
  rw [hbody, hu, memberText, hname]
  exact ⟨_, rfl⟩

/-- The rest of a line that was cut off and the next line are no JSON together. -/
lemma recordOfLine_cut_append {rec rec' : RawRecord} {p : Bytes} (hp : p <+: rec.body)
    (hcut : p ≠ []) : recordOfLine read (p ++ rec'.body) = none := by
  obtain ⟨u, hu⟩ := body_eq_cons rec'
  have hnames : ∀ m ∈ present rec.texts, ∀ b ∈ ascii m.1, Plain b :=
    forall_present_iff.2 fun row hrow _ _ b hb => (texts_printable rec row hrow b hb).2
  have hread : read (p ++ rec'.body) = none :=
    Scan.read_cut_append (memberAs_texts rec) (List.cons_ne_nil _ _) (memberAs_texts rec') hnames
      (textIn_texts rec) hu (by decide) hp hcut
  rw [recordOfLine, hread]
  rfl

/-! ### A file that was cut -/

/-- The records whose lines, with their ends, lie before the cut. -/
def wholeBefore : Nat → List RawRecord → List RawRecord
  | _, []          => []
  | n, rec :: recs =>
    if rec.line.length ≤ n then rec :: wholeBefore (n - rec.line.length) recs else []

/-- What is left is whole lines and a part of a line without its end. -/
lemma take_lines (n : Nat) (recs : List RawRecord) :
    ∃ p, (recs.flatMap RawRecord.line).take n = (wholeBefore n recs).flatMap RawRecord.line ++ p ∧
      ∃ rec : RawRecord, p <+: rec.body := by
  induction recs generalizing n with
  | nil => exact ⟨[], by simp [wholeBefore], {}, List.nil_prefix⟩
  | cons rec recs ih =>
    rw [wholeBefore, List.flatMap_cons]
    split_ifs with hle
    · obtain ⟨p, hp, hrec⟩ := ih (n - rec.line.length)
      refine ⟨p, ?_, hrec⟩
      rw [List.take_append, List.take_of_length_le hle, hp, List.flatMap_cons, List.append_assoc]
    · refine ⟨rec.body.take n, ?_, rec, List.take_prefix n _⟩
      have hn : n ≤ rec.body.length := by
        simp only [RawRecord.line, List.length_append, List.length_singleton] at hle
        omega
      rw [List.take_append_of_le_length (by omega), RawRecord.line,
        List.take_append_of_le_length hn]
      rfl

/-- The file is empty or ends with the end of a line. -/
def EndsLine (file : Bytes) : Prop := ∀ b ∈ file.getLast?, b = newline

instance (file : Bytes) : Decidable (EndsLine file) :=
  inferInstanceAs (Decidable (∀ b ∈ file.getLast?, b = newline))

lemma endsLine_iff {recs : List RawRecord} {rec : RawRecord} {p : Bytes} (hp : p <+: rec.body) :
    EndsLine (recs.flatMap RawRecord.line ++ p) ↔ p = [] := by
  constructor
  · intro h
    by_contra hne
    have hlast : p.getLast hne ∈ (recs.flatMap RawRecord.line ++ p).getLast? := by
      rw [List.getLast?_append_of_ne_nil _ hne, List.getLast?_eq_getLast_of_ne_nil hne]
      rfl
    have hmem := hp.subset (List.getLast_mem hne)
    rw [h _ hlast] at hmem
    exact newline_notMem_body rec hmem
  · rintro rfl b hb
    rw [List.append_nil] at hb
    induction recs using List.reverseRecOn with
    | nil => exact absurd hb (by simp)
    | append_singleton recs rec _ =>
      simp only [List.flatMap_append, List.flatMap_cons, List.flatMap_nil, List.append_nil,
        RawRecord.line] at hb
      rw [← List.append_assoc, List.getLast?_concat] at hb
      exact (Option.some.inj hb).symm

/-! ### What is read after a crash -/

section

variable {parse : Bytes → Option Value} (hparse : Conforms parse)
include hparse

/-- Nothing is written after the crash. -/
lemma reads_cut {rec : RawRecord} {p : Bytes} (hp : p <+: rec.body) (kept : List RawRecord) :
    ∃ r, Reads parse ⟨kept.flatMap RawRecord.line ++ p, 0⟩ (kept.filter (·.Storable)) r := by
  have hline : newline ∉ p := fun h => newline_notMem_body rec (hp.subset h)
  have hreads : Reads parse ⟨fileOf (kept.map RawRecord.body) p, 0⟩ _ _ :=
    reads_fileOf (bodies_spec kept) hline 0
  rw [fileOf_bodies, filterMap_bodies hparse] at hreads
  exact ⟨_, hreads⟩

/-- The first line written after the crash continues the one that was cut off. -/
lemma reads_cut_append {rec : RawRecord} {p : Bytes} (hp : p <+: rec.body) (kept : List RawRecord)
    (next : RawRecord) (more : List RawRecord) :
    ∃ r, Reads parse
      ⟨kept.flatMap RawRecord.line ++ p ++ (next :: more).flatMap RawRecord.line, 0⟩
      (kept.filter (·.Storable) ++ (recordOfLine parse (p ++ next.body)).toList ++
        more.filter (·.Storable)) r := by
  have hline : newline ∉ p ++ next.body := by
    rw [List.mem_append, not_or]
    exact ⟨fun h => newline_notMem_body rec (hp.subset h), newline_notMem_body next⟩
  have hlines : ∀ l ∈ kept.map RawRecord.body ++ (p ++ next.body) :: more.map RawRecord.body,
      newline ∉ l ∧ l ≠ [] := by
    refine List.forall_mem_append.2 ⟨bodies_spec kept, List.forall_mem_cons.2
      ⟨⟨hline, ?_⟩, bodies_spec more⟩⟩
    exact List.append_ne_nil_of_right_ne_nil _ (body_ne_nil next)
  have hreads : Reads parse ⟨fileOf _ [], 0⟩ _ _ := reads_fileOf hlines List.not_mem_nil 0
  have hfile : fileOf (kept.map RawRecord.body ++ (p ++ next.body) :: more.map RawRecord.body) [] =
      kept.flatMap RawRecord.line ++ p ++ (next :: more).flatMap RawRecord.line := by
    have hline' : ∀ recs : List RawRecord,
        (recs.map RawRecord.body).flatMap (· ++ [newline]) = recs.flatMap RawRecord.line :=
      fun recs => List.flatMap_map ..
    rw [fileOf, List.flatMap_append, List.flatMap_cons, hline', hline', List.flatMap_cons,
      RawRecord.line]
    simp only [List.append_assoc, List.append_nil]
  have hrecs : (kept.map RawRecord.body ++ (p ++ next.body) :: more.map RawRecord.body).filterMap
      (recordOfLine parse) = kept.filter (·.Storable) ++
        (recordOfLine parse (p ++ next.body)).toList ++ more.filter (·.Storable) := by
    rw [List.filterMap_append, List.filterMap_cons, filterMap_bodies hparse,
      filterMap_bodies hparse, List.append_assoc]
    cases recordOfLine parse (p ++ next.body) <;> rfl
  rw [hfile, hrecs] at hreads
  exact ⟨_, hreads⟩

/-- Whole lines are read if their records are storable. -/
lemma reads_of_storable {kept second : List RawRecord}
    (hrecs : ∀ rec ∈ kept ++ second, rec.Storable) {rec : RawRecord} {p : Bytes}
    (hp : p <+: rec.body) (hcut : second = [] ∨ p = []) :
    ∃ r, Reads parse ⟨kept.flatMap RawRecord.line ++ p ++ second.flatMap RawRecord.line, 0⟩
      (kept ++ second) r := by
  have hself : ∀ recs : List RawRecord, (∀ rec ∈ recs, rec.Storable) →
      recs.filter (·.Storable) = recs :=
    fun recs h => List.filter_eq_self.2 (by simpa using h)
  obtain ⟨hkept, hsecond⟩ := List.forall_mem_append.1 hrecs
  cases second with
  | nil =>
    obtain ⟨r, hreads⟩ := reads_cut hparse hp kept
    rw [hself kept hkept] at hreads
    exact ⟨r, by simpa using hreads⟩
  | cons next more =>
    obtain rfl : p = [] := hcut.resolve_left (List.cons_ne_nil _ _)
    obtain ⟨hnext, hmore⟩ := List.forall_mem_cons.1 hsecond
    obtain ⟨r, hreads⟩ := reads_cut_append hparse hp kept next more
    rw [List.nil_append, recordOfLine_body hparse, if_pos hnext, hself kept hkept,
      hself more hmore] at hreads
    exact ⟨r, by simpa using hreads⟩

end

/-- The next record is lost exactly if there is a line to continue or it is not storable. -/
lemma recordOfLine_append {rec : RawRecord} {p : Bytes} (hp : p <+: rec.body) (next : RawRecord) :
    recordOfLine read (p ++ next.body) = if p = [] ∧ next.Storable then some next else none := by
  by_cases hcut : p = []
  · rw [hcut, List.nil_append, recordOfLine_body conforms_read]
    simp
  · rw [recordOfLine_cut_append hp hcut, if_neg fun h => hcut h.1]

/-- Nothing of what is read by a strict parser was lost, which its length tells. -/
lemma whole_of_reads {rec : RawRecord} {p : Bytes} (hp : p <+: rec.body)
    {kept written second : List RawRecord} (hpre : written <+: second) {r' : RawLogReader}
    (hr' : Reads read ⟨kept.flatMap RawRecord.line ++ p ++ written.flatMap RawRecord.line, 0⟩
      (kept ++ second) r') :
    (∀ rec ∈ kept ++ second, rec.Storable) ∧ (second = [] ∨ p = []) ∧ written = second := by
  have hstorable : ∀ recs : List RawRecord, (recs.filter (·.Storable)).length ≤ recs.length :=
    fun recs => List.length_filter_le _ recs
  have hall : ∀ recs : List RawRecord, (recs.filter (·.Storable)).length = recs.length →
      ∀ rec ∈ recs, rec.Storable := by
    intro recs h
    simpa using List.length_filter_eq_length_iff.1 h
  obtain ⟨tail, rfl⟩ := hpre
  cases written with
  | nil =>
    obtain ⟨r, hreads⟩ := reads_cut conforms_read hp kept
    rw [List.flatMap_nil, List.append_nil, List.nil_append] at hr'
    have hlength := congrArg List.length (hr'.unique hreads).1
    rw [List.length_append] at hlength
    have hle := hstorable kept
    obtain rfl : tail = [] := List.length_eq_zero_iff.1 (by omega)
    rw [List.append_nil, List.append_nil]
    exact ⟨hall kept (by simpa using hlength.symm), Or.inl rfl, rfl⟩
  | cons next more =>
    obtain ⟨r, hreads⟩ := reads_cut_append conforms_read hp kept next more
    rw [recordOfLine_append hp] at hreads
    have hlength := congrArg List.length (hr'.unique hreads).1
    simp only [List.length_append, List.length_cons] at hlength
    have hkept := hstorable kept
    have hmore := hstorable more
    split_ifs at hlength with hnext
    · simp only [Option.toList_some, List.length_singleton] at hlength
      obtain rfl : tail = [] := List.length_eq_zero_iff.1 (by omega)
      rw [List.append_nil]
      refine ⟨List.forall_mem_append.2 ⟨hall kept (by omega), List.forall_mem_cons.2
        ⟨hnext.2, hall more (by omega)⟩⟩, Or.inr hnext.1, rfl⟩
    · simp only [Option.toList_none, List.length_nil] at hlength
      omega

/-! ### Rotation of the second writer -/

lemma unrotated_isInitial (maxBytes bytes : Nat) (recs : List RawRecord) :
    unrotated maxBytes bytes recs <+: recs := by
  induction recs generalizing bytes with
  | nil => exact List.prefix_rfl
  | cons rec recs ih =>
    rw [unrotated]
    split_ifs
    · exact List.nil_prefix
    · exact (List.prefix_cons_inj rec).2 (ih _)

lemma unrotated_eq_self_iff {maxBytes bytes : Nat} (hbytes : 0 < bytes) (recs : List RawRecord) :
    unrotated maxBytes bytes recs = recs ↔
      recs = [] ∨ bytes + (recs.flatMap RawRecord.line).length ≤ maxBytes := by
  induction recs generalizing bytes with
  | nil => simp [unrotated]
  | cons rec recs ih =>
    rw [unrotated, List.flatMap_cons, List.length_append]
    split_ifs with hfull
    · constructor
      · intro h
        exact absurd h (by simp)
      · rintro (h | h)
        · exact absurd h (by simp)
        · omega
    · have hfits : bytes + rec.line.length ≤ maxBytes := by omega
      rw [List.cons_inj_right, ih (by omega)]
      constructor
      · rintro (rfl | h)
        · exact Or.inr (by simpa using hfits)
        · exact Or.inr (by omega)
      · rintro (h | h)
        · exact absurd h (by simp)
        · exact Or.inr (by omega)

/-- A list is written without rotation if it is one record or fits. -/
lemma unrotated_zero_eq_self_iff (maxBytes : Nat) (recs : List RawRecord) :
    unrotated maxBytes 0 recs = recs ↔
      recs.length ≤ 1 ∨ (recs.flatMap RawRecord.line).length ≤ maxBytes := by
  cases recs with
  | nil => simp [unrotated]
  | cons rec recs =>
    have hline : 0 < rec.line.length := by simp [RawRecord.line]
    rw [unrotated, if_neg (by omega), List.cons_inj_right, Nat.zero_add,
      unrotated_eq_self_iff hline, List.flatMap_cons, List.length_append, List.length_cons]
    refine or_congr ?_ Iff.rfl
    rw [← List.length_eq_zero_iff]
    omega

/-! ### Crashes -/

/-- A log that a writer leaves behind. -/
def written (maxBytes : Nat) (recs : List RawRecord) : Nat → Bytes :=
  ((RawLogWriter.new (fun _ => []) maxBytes).writeAll recs).files

/-- The base file is cut, and a new writer goes on. -/
def crashed (files : Nat → Bytes) (n maxBytes : Nat) (second : List RawRecord) : Nat → Bytes :=
  ((RawLogWriter.new (Function.update files 0 ((files 0).take n)) maxBytes).writeAll second).files

lemma written_zero (maxBytes : Nat) (recs : List RawRecord) :
    written maxBytes recs 0 = (unrotated maxBytes 0 recs).flatMap RawRecord.line := by
  rw [written, RawLogWriter.files_zero_of_index_zero rfl]
  rfl

lemma crashed_zero (files : Nat → Bytes) (n maxBytes : Nat) (second : List RawRecord) :
    crashed files n maxBytes second 0 =
      (files 0).take n ++ (unrotated maxBytes 0 second).flatMap RawRecord.line := by
  rw [crashed, RawLogWriter.files_zero_of_index_zero rfl]
  simp only [RawLogWriter.new, RawLogWriter.openCurrent, Function.update_self]

/-- After a crash the reader returns the records before the cut and then those of the second list
with every conforming parser, if and only if all of them are storable, the file was cut between two
lines or nothing was written to it again, and the second list was written without rotation. -/
theorem crash_append_iff (maxBytes maxBytes' n : Nat) (first second : List RawRecord) :
    (∀ parse, Conforms parse →
        ∃ r, Reads parse ⟨crashed (written maxBytes first) n maxBytes' second 0, 0⟩
          (wholeBefore n (unrotated maxBytes 0 first) ++ second) r) ↔
      (∀ rec ∈ wholeBefore n (unrotated maxBytes 0 first) ++ second, rec.Storable) ∧
        (second = [] ∨ EndsLine ((written maxBytes first 0).take n)) ∧
        (second.length ≤ 1 ∨ (second.flatMap RawRecord.line).length ≤ maxBytes') := by
  obtain ⟨p, htake, rec, hp⟩ := take_lines n (unrotated maxBytes 0 first)
  rw [crashed_zero, written_zero, htake, endsLine_iff hp, ← unrotated_zero_eq_self_iff]
  constructor
  · intro h
    obtain ⟨r, hr⟩ := h read conforms_read
    exact whole_of_reads hp (unrotated_isInitial _ _ _) hr
  · rintro ⟨hrecs, hcut, hfits⟩ parse hparse
    rw [hfits]
    exact reads_of_storable hparse hrecs hp hcut

/-- The cut lies between the two lines of the log. -/
theorem crash_append_at_line :
    ∃ r, Reads read ⟨crashed (written 4096 [{ raw := ascii "a" }, { raw := ascii "b" }])
        ({ raw := ascii "a" } : RawRecord).line.length 4096 [{ raw := ascii "c" }] 0, 0⟩
      (wholeBefore ({ raw := ascii "a" } : RawRecord).line.length
        (unrotated 4096 0 [{ raw := ascii "a" }, { raw := ascii "b" }]) ++
          [{ raw := ascii "c" }]) r :=
  (crash_append_iff 4096 4096 _ _ _).2
    ⟨by decide +kernel, Or.inr (by decide +kernel), Or.inl (by decide)⟩ read conforms_read

/-- The log is cut inside of a character of its only record. No conforming parser takes what is left
together with the next line, and the record that is written there is lost. -/
theorem crash_append_inside_character :
    ¬ ∃ parse, Conforms parse ∧
      ∃ r, Reads parse ⟨crashed (written 4096 [{ raw := [0xc3, 0xa9] }])
          (({ raw := [0xc3, 0xa9] } : RawRecord).line.length - 4) 4096 [{ raw := ascii "b" }] 0, 0⟩
        (wholeBefore (({ raw := [0xc3, 0xa9] } : RawRecord).line.length - 4)
          (unrotated 4096 0 [{ raw := [0xc3, 0xa9] }]) ++ [{ raw := ascii "b" }]) r := by
  rintro ⟨parse, hparse, r, hr⟩
  let cut : RawRecord := { raw := [0xc3, 0xa9] }
  let next : RawRecord := { raw := ascii "b" }
  let p := cut.body.take (cut.line.length - 4)
  have hfile : crashed (written 4096 [cut]) (cut.line.length - 4) 4096 [next] 0 =
      ([] : List RawRecord).flatMap RawRecord.line ++ p ++ [next].flatMap RawRecord.line := by
    decide +kernel
  have hlost : recordOfLine parse (p ++ next.body) = none := by
    rw [recordOfLine, hparse.refuses _ (by decide +kernel)]
    rfl
  obtain ⟨r', hreads⟩ := reads_cut_append hparse (List.take_prefix _ cut.body) [] next []
  rw [hlost, ← hfile] at hreads
  exact absurd (hr.unique hreads).1 (by decide +kernel)

end HftBot.Storage
