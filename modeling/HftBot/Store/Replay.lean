import HftBot.Store.EntityRegistry
import HftBot.Store.Rotation
import HftBot.Store.RoundTrip

/-!
# Replay

`ReplaySource::start` hands the records of a raw log to a decoder one after another: a marker goes
to the marker function and anything else that decodes goes to the sink. `KalshiRawDecoder::decode`
is given here on the records as they are stored.
-/

namespace HftBot.Storage

open HftBot.Core HftBot.Core.Utf8 HftBot.Core.JsonText

/-! ### Source -/

/-- `events` is what the sink got and `annotated` what the marker function got. -/
structure ReplaySource (ε : Type) where
  records   : Nat := 0
  markers   : Nat := 0
  emitted   : Nat := 0
  stopped   : Bool := false
  events    : List ε := []
  annotated : List RawRecord := []

namespace RawLogReader

variable {parse : Bytes → Option Value}

lemma nextFrom_length_lt {buf t : Bytes} {skipped : Nat} {rec : RawRecord} {r : RawLogReader}
    (h : nextFrom parse buf t skipped = (some rec, r)) : r.rest.length < t.length := by
  induction t generalizing buf skipped with
  | nil => simp [nextFrom] at h
  | cons c t ih =>
    rw [nextFrom] at h
    split_ifs at h with hc hbuf
    · exact (ih h).trans (Nat.lt_succ_self _)
    · cases hrec : recordOfLine parse buf with
      | none =>
        rw [hrec] at h
        exact (ih h).trans (Nat.lt_succ_self _)
      | some rec' =>
        simp only [hrec, Prod.mk.injEq] at h
        rw [← h.2]
        exact Nat.lt_succ_self _
    · exact (ih h).trans (Nat.lt_succ_self _)

/-- A record takes something of the file. -/
lemma next_length_lt {r r' : RawLogReader} {rec : RawRecord}
    (h : next parse r = (some rec, r')) : r'.rest.length < r.rest.length :=
  nextFrom_length_lt h

end RawLogReader

namespace ReplaySource

variable {ε : Type} (parse : Bytes → Option Value) (decode : RawRecord → Option ε)

def stop (s : ReplaySource ε) : ReplaySource ε := { s with stopped := true }

/-- One round of the loop. -/
def take (s : ReplaySource ε) (rec : RawRecord) : ReplaySource ε :=
  let s := { s with records := s.records + 1 }
  if rec.marker.isSome then
    { s with markers := s.markers + 1, annotated := s.annotated ++ [rec] }
  else
    match decode rec with
    | some ev => { s with events := s.events ++ [ev], emitted := s.emitted + 1 }
    | none    => s

/-- The loop of `start`, on what the reader has left. -/
def startFrom (s : ReplaySource ε) (r : RawLogReader) : ReplaySource ε :=
  if s.stopped then s
  else
    match _h : RawLogReader.next parse r with
    | (some rec, r') => startFrom (s.take decode rec) r'
    | (none, _)      => s
termination_by r.rest.length
decreasing_by exact RawLogReader.next_length_lt _h

def start (s : ReplaySource ε) (file : Bytes) : ReplaySource ε := startFrom parse decode s ⟨file, 0⟩

/-- The source of every rotated file is started, in the order of their numbers. -/
def startAll (s : ReplaySource ε) (w : RawLogWriter) : ReplaySource ε :=
  (List.range (w.rotations + 1)).foldl (fun s i => s.start parse decode (w.files i)) s

/-! ### What a replay gives -/

variable {parse decode} {s : ReplaySource ε} {rec : RawRecord} {recs : List RawRecord}

@[simp] lemma take_stopped : (s.take decode rec).stopped = s.stopped := by
  rw [take]
  split_ifs
  · rfl
  · cases decode rec <;> rfl

/-- The event of a record that is no marker. -/
def event? (decode : RawRecord → Option ε) (rec : RawRecord) : Option ε :=
  if rec.marker.isSome then none else decode rec

lemma take_eq (decode : RawRecord → Option ε) (s : ReplaySource ε) (rec : RawRecord) :
    s.take decode rec =
      { s with
        records   := s.records + 1
        markers   := s.markers + (if rec.marker.isSome then 1 else 0)
        emitted   := s.emitted + (event? decode rec).toList.length
        events    := s.events ++ (event? decode rec).toList
        annotated := s.annotated ++ [rec].filter (·.marker.isSome) } := by
  rw [take, event?]
  split_ifs with hmarker
  · simp [hmarker]
  · cases decode rec <;> simp [hmarker]

lemma foldl_take_eq (decode : RawRecord → Option ε) (s : ReplaySource ε) (recs : List RawRecord) :
    recs.foldl (take decode) s =
      { s with
        records   := s.records + recs.length
        markers   := s.markers + (recs.filter (·.marker.isSome)).length
        emitted   := s.emitted + (recs.filterMap (event? decode)).length
        events    := s.events ++ recs.filterMap (event? decode)
        annotated := s.annotated ++ recs.filter (·.marker.isSome) } := by
  induction recs generalizing s with
  | nil => simp
  | cons rec recs ih =>
    rw [List.foldl_cons, ih, take_eq]
    cases hmarker : rec.marker.isSome <;> cases hevent : event? decode rec <;>
      simp [hmarker, hevent, Nat.add_assoc, Nat.add_comm 1]

/-- The loop takes what the reader reads. -/
lemma startFrom_of_reads {r r' : RawLogReader} (hstopped : s.stopped = false)
    (h : RawLogReader.Reads parse r recs r') :
    s.startFrom parse decode r = recs.foldl (take decode) s := by
  induction h generalizing s with
  | done h =>
    rw [startFrom, if_neg (by simp [hstopped])]
    split
    · next heq => simp [h] at heq
    · rfl
  | @more r r' r'' rec recs h hrest ih =>
    rw [startFrom, if_neg (by simp [hstopped])]
    split
    · next rec' r₁ heq =>
      obtain ⟨hrec, rfl⟩ := Prod.mk.inj (h.symm.trans heq)
      rw [← Option.some.inj hrec, List.foldl_cons, ih (by simpa using hstopped)]
    · next heq => simp [h] at heq

/-- A file of whole lines is taken record by record, without those that cannot be read. -/
lemma start_linesOf (hparse : Conforms parse) (hstopped : s.stopped = false)
    (recs : List RawRecord) :
    s.start parse decode (linesOf recs) = (recs.filter (·.Storable)).foldl (take decode) s := by
  have hreads : RawLogReader.Reads parse ⟨RawLogReader.fileOf (recs.map RawRecord.body) [], 0⟩ _ _ :=
    RawLogReader.reads_fileOf (bodies_spec recs) List.not_mem_nil 0
  rw [fileOf_bodies, List.append_nil, filterMap_bodies hparse] at hreads
  exact startFrom_of_reads hstopped hreads

lemma foldl_take_stopped (decode : RawRecord → Option ε) (s : ReplaySource ε)
    (recs : List RawRecord) : (recs.foldl (take decode) s).stopped = s.stopped := by
  rw [foldl_take_eq]

lemma foldl_start_linesOf (hparse : Conforms parse) (hstopped : s.stopped = false)
    (groups : List (List RawRecord)) :
    groups.foldl (fun s group => s.start parse decode (linesOf group)) s =
      (groups.flatten.filter (·.Storable)).foldl (take decode) s := by
  induction groups generalizing s with
  | nil => rfl
  | cons group groups ih =>
    rw [List.foldl_cons, start_linesOf hparse hstopped, ih (by rwa [foldl_take_stopped]),
      List.flatten_cons, List.filter_append, List.foldl_append]

lemma map_range_getD {α : Type} (l : List α) (d : α) :
    (List.range l.length).map (fun i => l.getD i d) = l := by
  apply List.ext_getElem
  · simp
  · intro i _ hi
    simp [List.getElem?_eq_getElem hi]

/-- However the writer has cut the log, a replay of its files is one pass over the records. -/
theorem startAll_writeAll (hparse : Conforms parse) (hstopped : s.stopped = false) (maxBytes : Nat)
    (recs : List RawRecord) :
    s.startAll parse decode ((RawLogWriter.new (fun _ => []) maxBytes).writeAll recs) =
      (recs.filter (·.Storable)).foldl (take decode) s := by
  obtain ⟨closed, current, h, hflatten⟩ := (RawLogWriter.holds_new maxBytes).writeAll recs
  have hlength : ((RawLogWriter.new (fun _ => []) maxBytes).writeAll recs).rotations + 1 =
      (closed ++ [current]).length := by
    rw [h.rotations, List.length_append, List.length_singleton]
  have hfiles : ∀ i, ((RawLogWriter.new (fun _ => []) maxBytes).writeAll recs).files i =
      linesOf ((closed ++ [current]).getD i []) := by
    intro i
    rw [h.files, RawLogWriter.contents_eq]
  simp only [startAll, hfiles, hlength]
  rw [← List.foldl_map (f := fun i => (closed ++ [current]).getD i [])
    (g := fun s group => start parse decode s (linesOf group)), map_range_getD,
    foldl_start_linesOf hparse hstopped, hflatten]
  simp

end ReplaySource

end HftBot.Storage
