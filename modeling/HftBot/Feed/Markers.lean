import HftBot.Feed.ManagerCalls
import HftBot.Feed.Reconnect

/-!
# Markers in the recording

The client hands a gap marker to the recorder whenever the manager answers a delta with a demand for
a resync: after a gap, but also after a late delta and before a snapshot. It hands none when a
control response finds the gap or a level becomes negative. The markers tell of the books that
become invalid exactly as long as none of these occurs, and a replay of the recording then has the
live validity.
-/

namespace HftBot

open HftBot.Core Function

/-! ### What is recorded -/

namespace WsClient

variable {parse : List Char → Option Json} {c : WsClient} {text : List Char}

/-- The record of a gap marker. -/
def gapMarker (epoch sid : Nat) : RawRecord :=
  { marker := some "gap", streamEpoch := epoch, sourceStreamId := some sid }

/-- The markers that a frame leaves. -/
def gapMarks (epoch : Nat) (m : OrderBookManager) : Routed → List RawRecord
  | .delta sid seq e side price d =>
    if (m.onDelta sid epoch e side price d seq).1 = .needResync then [gapMarker epoch sid] else []
  | _                             => []

lemma onEvent_records (c : WsClient) (sid seq : Nat) (ev : NormalizedEvent) :
    (c.onEvent sid seq ev).records =
      c.records ++ gapMarks c.epoch c.books (Routed.ofEvent sid seq ev) := by
  cases hpayload : ev.payload with
  | bookDelta side price d coid =>
    simp only [onEvent, Routed.ofEvent, hpayload, gapMarks]
    split
    · rfl
    · rw [List.append_nil]
  | lifecycle state =>
    simp only [onEvent, Routed.ofEvent, hpayload]
    split <;> simp [gapMarks]
  | _ => simp [onEvent, Routed.ofEvent, hpayload, gapMarks]

/-- The recorder gets the frame, if it has a type, and then the markers it leaves. -/
lemma onText_records (parse : List Char → Option Json) (c : WsClient) (text : List Char) :
    ∃ frame : List RawRecord,
      (c.onText parse text).records =
        c.records ++ frame ++ gapMarks c.epoch c.books (route parse text) ∧
      ((frame = [] ∧ route parse text = .ignored) ∨
        ∃ r, frame = [r] ∧ r.raw = text ∧ r.marker = none) := by
  cases hroot : (parse text).bind Json.asObject with
  | none => exact ⟨[], by simp [onText, route, hroot, gapMarks], .inl ⟨rfl, by simp [route, hroot]⟩⟩
  | some root =>
    cases htype : Json.stringField root "type" with
    | none =>
      exact ⟨[], by simp [onText, route, hroot, htype, gapMarks],
        .inl ⟨rfl, by simp [route, hroot, htype]⟩⟩
    | some type =>
      refine ⟨[frameRecord root type text c.epoch], ?_, .inr ⟨_, rfl, rfl, rfl⟩⟩
      simp only [onText, route, hroot, htype]
      by_cases herror : type = "error".toList
      · rw [if_pos herror, if_pos herror]
        exact (List.append_nil _).symm
      rw [if_neg herror, if_neg herror]
      by_cases hcontrol : type = "ok".toList ∨ type = "unsubscribed".toList
      · rw [if_pos hcontrol, if_pos hcontrol]
        cases Json.uint64Field root "sid" <;> cases Json.uint64Field root "seq" <;>
          exact (List.append_nil _).symm
      rw [if_neg hcontrol, if_neg hcontrol]
      by_cases hack : type = "subscribed".toList
      · rw [if_pos hack, if_pos hack]
        exact (List.append_nil _).symm
      rw [if_neg hack, if_neg hack, decode_frameRecord]
      cases KalshiRawDecoder.decode parse (frameRecord root type text 0) with
      | none => exact (List.append_nil _).symm
      | some ev => exact onEvent_records _ _ _ _

/-- The records that a frame adds. -/
def newRecords (parse : List Char → Option Json) (c : WsClient) (text : List Char) :
    List RawRecord :=
  (c.onText parse text).records.drop c.records.length

/-- A gap marker for the subscription is handed to the recorder. -/
def GapMarked (parse : List Char → Option Json) (c : WsClient) (text : List Char) (sid : Nat) :
    Prop :=
  ∃ r ∈ c.newRecords parse text, r.marker = some "gap" ∧ r.sourceStreamId = some sid

lemma mem_newRecords {r : RawRecord} (hr : r ∈ c.newRecords parse text)
    (hmarker : r.marker ≠ none) : r ∈ gapMarks c.epoch c.books (route parse text) := by
  obtain ⟨frame, hrecords, hframe⟩ := onText_records parse c text
  rw [newRecords, hrecords, List.append_assoc, List.drop_left, List.mem_append] at hr
  rcases hr with hr | hr
  · rcases hframe with ⟨rfl, -⟩ | ⟨r', rfl, -, hnone⟩
    · cases hr
    · rw [List.mem_singleton.1 hr] at hmarker
      exact absurd hnone hmarker
  · exact hr

lemma gapMarked_iff {sid : Nat} :
    c.GapMarked parse text sid ↔
      gapMarker c.epoch sid ∈ gapMarks c.epoch c.books (route parse text) := by
  constructor
  · rintro ⟨r, hr, hgap, hsid⟩
    have hmem := mem_newRecords hr (by simp [hgap])
    cases hroute : route parse text with
    | delta sid' seq e side price d =>
      rw [hroute, gapMarks] at hmem
      rw [gapMarks]
      split_ifs at hmem ⊢
      · rw [List.mem_singleton.1 hmem] at hsid
        cases hsid
        exact List.mem_singleton_self _
      · cases hmem
    | _ =>
      rw [hroute] at hmem
      cases hmem
  · intro hmem
    obtain ⟨frame, hrecords, -⟩ := onText_records parse c text
    refine ⟨gapMarker c.epoch sid, ?_, rfl, rfl⟩
    rw [newRecords, hrecords, List.append_assoc, List.drop_left]
    exact List.mem_append_right _ hmem

end WsClient

/-! ### Which books become invalid -/

namespace OrderBookManager

variable {m m' : OrderBookManager} {sid epoch seq : Nat} {e : EntityId} {side : Side}
  {price d : Int}

/-- A valid book of `m` stands in `m'` and is invalid. -/
def Turned (m m' : OrderBookManager) (e : EntityId) : Prop :=
  (m.bookRef e).valid ∧ ∃ b, m'.books e = some b ∧ b.valid = false

lemma not_turned_of_valid (h : (m.bookRef e).valid → (m'.bookRef e).valid) : ¬ m.Turned m' e := by
  rintro ⟨hvalid, b, hb, hinvalid⟩
  have hafter := h hvalid
  rw [bookRef, hb, Option.getD_some, hinvalid] at hafter
  cases hafter

lemma turned_lost_iff :
    m.Turned (m.lost sid epoch seq) e ↔ (m.bookRef e).valid ∧ e ∈ m.members epoch sid := by
  by_cases he : e ∈ m.members epoch sid
  · refine ⟨fun h => ⟨h.1, he⟩, fun h => ⟨h.1, (m.bookRef e).invalidate, ?_, rfl⟩⟩
    rw [lost_books, if_pos he]
  · refine iff_of_false (not_turned_of_valid ?_) fun h => he h.2
    rw [bookRef_lost, if_neg he]
    exact id

lemma turned_acceptDelta_iff {sid' : Nat} {e' : EntityId} :
    m.Turned ((m.counted sid epoch seq).acceptDelta sid' e side price d seq).2 e' ↔
      e' = e ∧ (m.bookRef e).valid ∧ (m.bookRef e).sizeAt side price + d < 0 := by
  by_cases heq : e' = e
  · subst heq
    rcases lt_or_ge ((m.bookRef e').sizeAt side price + d) 0 with hneg | hnonneg
    · refine ⟨fun h => ⟨rfl, h.1, hneg⟩, fun h => ⟨h.2.1, (m.bookRef e').invalidate, ?_, rfl⟩⟩
      rw [acceptDelta_books, update_self, bookRef_counted, if_pos h.2.1,
        OrderBook.applyDelta_of_neg h.2.1 hneg]
      rfl
    · refine iff_of_false (not_turned_of_valid ?_) fun h => absurd h.2.2 (not_lt.2 hnonneg)
      intro hvalid
      rw [bookRef_acceptDelta, if_pos rfl, bookRef_counted]
      exact (OrderBook.applyDelta_of_nonneg hvalid hnonneg).2
  · refine iff_of_false (not_turned_of_valid ?_) fun h => heq h.1
    rw [bookRef_acceptDelta, if_neg heq]
    exact id

/-- The books that the markers have to tell of are those that the frame makes invalid. -/
def Tells (epoch : Nat) (m : OrderBookManager) : Routed → Prop
  | .control sid seq              =>
    m.verdict sid epoch seq = .gap → ∀ e ∈ m.members epoch sid, (m.bookRef e).valid = false
  | .delta sid seq e side price d =>
    match m.verdict sid epoch seq with
    | .gap   =>
      (∃ e' ∈ m.members epoch sid, (m.bookRef e').valid) ∧
        ∀ e' ∈ m.members epoch sid, (m.bookRef e').valid →
          ∀ sid', e' ∈ m.members epoch sid' → sid' = sid
    | .stale => False
    | _      => (m.bookRef e).valid ∧ 0 ≤ (m.bookRef e).sizeAt side price + d
  | _                             => True

/-- A valid book is a member of some stream. -/
def Housed (epoch : Nat) (m : OrderBookManager) : Prop :=
  ∀ e, (m.bookRef e).valid → ∃ sid, e ∈ m.members epoch sid

/-- A frame that is not a delta leaves each valid book valid or takes it away. -/
lemma not_turned_snapshot (yes no : List Level) (e' : EntityId) :
    ¬ m.Turned (Routed.applyTo epoch m (.snapshot sid seq e yes no)) e' := by
  apply not_turned_of_valid
  rw [Routed.applyTo, bookRef_onSnapshot]
  split_ifs
  · exact fun _ => rfl
  · exact id

lemma not_turned_forget (e' : EntityId) :
    ¬ m.Turned (Routed.applyTo epoch m (.forget e)) e' := by
  rintro ⟨hvalid, b, hb, hinvalid⟩
  rw [Routed.applyTo, forget_books] at hb
  by_cases heq : e' = e
  · rw [heq, update_self] at hb
    cases hb
  · rw [update_of_ne heq] at hb
    rw [bookRef, hb, Option.getD_some, hinvalid] at hvalid
    cases hvalid

lemma Housed.applyTo (h : m.Housed epoch) (r : Routed) : (r.applyTo epoch m).Housed epoch := by
  intro e hvalid
  rw [← tradeable_eq_valid] at hvalid
  rcases tradeable_of_applyTo hvalid with hbefore | ⟨sid, seq, yes, no, rfl⟩
  · rw [tradeable_eq_valid] at hbefore
    obtain ⟨sid, hmem⟩ := h e hbefore
    refine ⟨sid, ?_⟩
    cases r with
    | ignored => exact hmem
    | control sid' seq => rwa [Routed.applyTo, members_onControlSeq]
    | delta sid' seq e' side price d => rwa [Routed.applyTo, members_onDelta]
    | snapshot sid' seq e' yes no =>
      rw [Routed.applyTo, members_onSnapshot, members_bind]
      split_ifs
      · exact Finset.mem_insert_of_mem (Finset.mem_insert_of_mem hmem)
      · exact hmem
    | forget e' =>
      rw [Routed.applyTo, members_forget]
      split_ifs
      · -- The book of the forgotten market itself is gone.
        refine Finset.mem_erase.2 ⟨?_, hmem⟩
        rintro rfl
        rw [tradeable_eq_valid, Routed.applyTo, bookRef_forget, if_pos rfl] at hvalid
        cases hvalid
      · exact hmem
  · refine ⟨sid, ?_⟩
    rw [Routed.applyTo, members_onSnapshot, if_pos rfl]
    exact Finset.mem_insert_self _ _

end OrderBookManager

/-! ### Fidelity -/

namespace OrderBookManager

variable {m : OrderBookManager} {sid epoch seq : Nat} {e : EntityId} {side : Side} {price d : Int}

/-- The marks of a frame tell of the subscriptions with a member that it makes invalid. -/
def Marks (epoch : Nat) (m : OrderBookManager) (r : Routed) : Prop :=
  ∀ sid, WsClient.gapMarker epoch sid ∈ WsClient.gapMarks epoch m r ↔
    ∃ e ∈ m.members epoch sid, m.Turned (r.applyTo epoch m) e

lemma mem_gapMarks_delta {sid' : Nat} :
    WsClient.gapMarker epoch sid' ∈ WsClient.gapMarks epoch m (.delta sid seq e side price d) ↔
      (m.onDelta sid epoch e side price d seq).1 = .needResync ∧ sid' = sid := by
  rw [WsClient.gapMarks]
  split_ifs with hresync
  · simp [hresync, WsClient.gapMarker]
  · simp [hresync]

/-- A frame without marks is faithful iff it makes no member invalid. -/
lemma marks_iff_of_nil {r : Routed} (hmarks : WsClient.gapMarks epoch m r = []) :
    m.Marks epoch r ↔ ∀ sid, ∀ e ∈ m.members epoch sid, ¬ m.Turned (r.applyTo epoch m) e := by
  simp [Marks, hmarks]

lemma marks_control_iff : m.Marks epoch (.control sid seq) ↔ m.Tells epoch (.control sid seq) := by
  rw [marks_iff_of_nil rfl, Tells, Routed.applyTo]
  rcases onControlSeq_cases m sid epoch seq with ⟨hverdict, hgap⟩ | ⟨hverdict, hcounted⟩
  · rw [hgap]
    simp only [turned_lost_iff, hverdict, forall_const]
    constructor
    · intro h e he
      exact Bool.eq_false_iff.2 fun hvalid => h sid e he ⟨hvalid, he⟩
    · rintro h sid' e - ⟨hvalid, he⟩
      rw [h e he] at hvalid
      cases hvalid
  · rw [hcounted]
    exact iff_of_true (fun sid' e _ => not_turned_of_valid id) fun h => absurd h hverdict

lemma marks_delta_of_gap (hverdict : m.verdict sid epoch seq = .gap) :
    m.Marks epoch (.delta sid seq e side price d) ↔
      m.Tells epoch (.delta sid seq e side price d) := by
  simp only [Marks, mem_gapMarks_delta, Tells, hverdict, Routed.applyTo, onDelta_of_gap hverdict,
    turned_lost_iff, true_and]
  constructor
  · intro h
    obtain ⟨e', hmem, hvalid, -⟩ := (h sid).1 rfl
    refine ⟨⟨e', hmem, hvalid⟩, ?_⟩
    intro e'' hmem' hvalid' sid' hmem''
    exact (h sid').2 ⟨e'', hmem'', hvalid', hmem'⟩
  · rintro ⟨⟨e', hmem, hvalid⟩, honly⟩ sid'
    constructor
    · rintro rfl
      exact ⟨e', hmem, hvalid, hmem⟩
    · rintro ⟨e'', hmem'', hvalid'', hmem'⟩
      exact honly e'' hmem' hvalid'' sid' hmem''

lemma marks_delta_of_inOrder (h : m.Housed epoch)
    (hverdict : m.verdict sid epoch seq = .first ∨ m.verdict sid epoch seq = .ok) :
    m.Marks epoch (.delta sid seq e side price d) ↔
      (m.bookRef e).valid ∧ 0 ≤ (m.bookRef e).sizeAt side price + d := by
  simp only [Marks, mem_gapMarks_delta, Routed.applyTo, onDelta_of_inOrder hverdict,
    turned_acceptDelta_iff]
  cases hvalid : (m.bookRef e).valid with
  | false =>
    -- A mark, but the book was invalid already.
    rw [acceptDelta_of_not_valid (by simpa using hvalid)]
    simp
  | true =>
    rcases lt_or_ge ((m.bookRef e).sizeAt side price + d) 0 with hneg | hnonneg
    · -- The book becomes invalid without a mark.
      rw [acceptDelta_of_neg (by simpa using hvalid) (by simpa using hneg)]
      refine iff_of_false ?_ fun h => absurd h.2 (not_le.2 hneg)
      intro hmarks
      obtain ⟨sid', hmem⟩ := h e hvalid
      have hmarked := (hmarks sid').2 ⟨e, hmem, rfl, rfl, hneg⟩
      cases hmarked.1
    · rw [acceptDelta_of_nonneg (by simpa using hvalid) (by simpa using hnonneg)]
      simp [hnonneg, not_lt.2 hnonneg]

lemma marks_iff_tells (h : m.Housed epoch) (r : Routed) :
    m.Marks epoch r ↔ m.Tells epoch r := by
  cases r with
  | ignored =>
    rw [marks_iff_of_nil rfl]
    exact iff_of_true (fun _ _ _ => not_turned_of_valid id) trivial
  | control sid seq => exact marks_control_iff
  | snapshot sid seq e yes no =>
    rw [marks_iff_of_nil rfl]
    exact iff_of_true (fun _ e' _ => not_turned_snapshot yes no e') trivial
  | forget e =>
    rw [marks_iff_of_nil rfl]
    exact iff_of_true (fun _ e' _ => not_turned_forget e') trivial
  | delta sid seq e side price d =>
    cases hverdict : m.verdict sid epoch seq with
    | gap => exact marks_delta_of_gap hverdict
    | stale =>
      have hnone : ∀ e', ¬ m.Turned (m.onDelta sid epoch e side price d seq).2 e' := by
        intro e'
        rw [onDelta_of_stale hverdict]
        exact not_turned_of_valid id
      refine iff_of_false ?_ (by simp [Tells, hverdict])
      intro hmarks
      obtain ⟨e', -, hturned⟩ := (hmarks sid).1 (mem_gapMarks_delta.2
        ⟨by rw [onDelta_of_stale hverdict], rfl⟩)
      exact hnone e' hturned
    | first =>
      rw [marks_delta_of_inOrder h (.inl hverdict)]
      simp [Tells, hverdict]
    | ok =>
      rw [marks_delta_of_inOrder h (.inr hverdict)]
      simp [Tells, hverdict]

end OrderBookManager

namespace WsClient

variable {parse : List Char → Option Json} {c : WsClient} {text : List Char}

/-- Some valid book of the subscription is made invalid by the frame. -/
def TurnsInvalid (parse : List Char → Option Json) (c : WsClient) (text : List Char) (sid : Nat) :
    Prop :=
  ∃ e ∈ c.books.members c.epoch sid, c.books.Turned (c.onText parse text).books e

/-- A gap marker is handed over exactly for the subscriptions of which a book is made invalid. -/
def Faithful (parse : List Char → Option Json) (c : WsClient) (text : List Char) : Prop :=
  ∀ sid, c.GapMarked parse text sid ↔ c.TurnsInvalid parse text sid

lemma faithful_iff_tells (h : c.books.Housed c.epoch) :
    c.Faithful parse text ↔ c.books.Tells c.epoch (route parse text) := by
  rw [← OrderBookManager.marks_iff_tells h, Faithful, OrderBookManager.Marks]
  simp only [gapMarked_iff, TurnsInvalid, (onText_spec parse c text).2]

end WsClient

/-! ### Replay -/

/-- What a replay knows: a book is opened by its snapshot and invalidated at the markers. -/
structure Replay where
  valid   : EntityId → Bool := fun _ => false
  members : Nat → Finset EntityId := fun _ => ∅
  sidOf   : EntityId → Option Nat := fun _ => none

namespace Replay

def frame (r : Replay) : Routed → Replay
  | .snapshot sid _ e _ _ =>
    { valid   := update r.valid e true
      members := update r.members sid (insert e (r.members sid))
      sidOf   := update r.sidOf e (some sid) }
  | .forget e             =>
    { valid   := update r.valid e false
      members := fun sid => if r.sidOf e = some sid then (r.members sid).erase e else r.members sid
      sidOf   := update r.sidOf e none }
  | _                     => r

def gap (r : Replay) (sid : Nat) : Replay :=
  { r with valid := fun e => if e ∈ r.members sid then false else r.valid e }

def step (parse : List Char → Option Json) (r : Replay) (rec : RawRecord) : Replay :=
  match rec.marker, rec.sourceStreamId with
  | none, _          => r.frame (route parse rec.raw)
  | some kind, some sid => if kind = "gap" then r.gap sid else r
  | some _, none     => r

/-- The replay agrees with the manager on members, bindings and validity. -/
structure Mirrors (epoch : Nat) (r : Replay) (m : OrderBookManager) : Prop where
  valid   : ∀ e, r.valid e = (m.bookRef e).valid
  members : ∀ sid, r.members sid = m.members epoch sid
  sidOf   : r.sidOf = m.sidOf

variable {r : Replay} {m : OrderBookManager} {sid epoch seq : Nat} {e : EntityId}

lemma Mirrors.snapshot (h : Mirrors epoch r m) (yes no : List Level) :
    Mirrors epoch (r.frame (.snapshot sid seq e yes no))
      (Routed.applyTo epoch m (.snapshot sid seq e yes no)) where
  valid e' := by
    rw [Routed.applyTo, OrderBookManager.bookRef_onSnapshot]
    show update r.valid e true e' = _
    by_cases heq : e' = e
    · subst heq
      simp [OrderBook.loadSnapshot]
    · rw [update_of_ne heq, if_neg heq, h.valid]
      rfl
  members sid' := by
    rw [Routed.applyTo, OrderBookManager.members_onSnapshot, OrderBookManager.members_bind]
    show update r.members sid _ sid' = _
    by_cases heq : sid' = sid
    · subst heq
      simp [h.members]
    · simp [heq, h.members]
  sidOf := by
    show update r.sidOf e (some sid) = update (update m.sidOf e (some sid)) e (some sid)
    rw [h.sidOf, update_idem]

lemma Mirrors.forget (h : Mirrors epoch r m) :
    Mirrors epoch (r.frame (.forget e)) (Routed.applyTo epoch m (.forget e)) where
  valid e' := by
    rw [Routed.applyTo, OrderBookManager.bookRef_forget]
    show update r.valid e false e' = _
    by_cases heq : e' = e
    · subst heq
      simp
    · rw [update_of_ne heq, if_neg heq, h.valid]
  members sid' := by
    rw [Routed.applyTo, OrderBookManager.members_forget, ← h.members, ← h.sidOf]
    rfl
  sidOf := by
    rw [Routed.applyTo, OrderBookManager.forget_sidOf, ← h.sidOf]
    rfl

lemma Mirrors.lost (h : Mirrors epoch r m) :
    Mirrors epoch (r.gap sid) (m.lost sid epoch seq) where
  valid e := by
    rw [OrderBookManager.bookRef_lost, ← h.members]
    show (if e ∈ r.members sid then false else r.valid e) = _
    split_ifs
    · rfl
    · exact h.valid e
  members sid' := by
    rw [OrderBookManager.members_lost]
    exact h.members sid'
  sidOf := h.sidOf

/-- A step that leaves members, bindings and validity needs no replay. -/
lemma Mirrors.same {m' : OrderBookManager} (h : Mirrors epoch r m)
    (hvalid : ∀ e, (m'.bookRef e).valid = (m.bookRef e).valid)
    (hmembers : ∀ sid, m'.members epoch sid = m.members epoch sid) (hsid : m'.sidOf = m.sidOf) :
    Mirrors epoch r m' where
  valid e := (h.valid e).trans (hvalid e).symm
  members sid := (h.members sid).trans (hmembers sid).symm
  sidOf := h.sidOf.trans hsid.symm

/-- After a frame whose marks tell of all that becomes invalid, the replay still agrees. -/
lemma Mirrors.applyTo {parse : List Char → Option Json} {rt : Routed} (h : Mirrors epoch r m)
    (htells : m.Tells epoch rt) :
    Mirrors epoch (run (step parse) (r.frame rt) (WsClient.gapMarks epoch m rt))
      (rt.applyTo epoch m) := by
  cases rt with
  | ignored => exact h
  | snapshot sid seq e yes no => exact h.snapshot yes no
  | forget e => exact h.forget
  | control sid seq =>
    show Mirrors epoch r (m.onControlSeq sid epoch seq).2
    rcases OrderBookManager.onControlSeq_cases m sid epoch seq with
      ⟨hverdict, hgap⟩ | ⟨-, hcounted⟩
    · rw [hgap]
      refine h.same ?_ OrderBookManager.members_lost rfl
      intro e
      rw [OrderBookManager.bookRef_lost]
      split_ifs with he
      · rw [htells hverdict e he]
        rfl
      · rfl
    · rw [hcounted]
      exact h.same (fun _ => rfl) OrderBookManager.members_counted rfl
  | delta sid seq e side price d =>
    show Mirrors epoch (run (step parse) r _) (m.onDelta sid epoch e side price d seq).2
    rw [WsClient.gapMarks]
    rcases OrderBookManager.onDelta_cases m sid epoch seq e side price d with
      ⟨-, hgap⟩ | ⟨hverdict, -⟩ | ⟨hverdict, haccept⟩
    · rw [hgap, if_pos rfl]
      exact h.lost
    · rw [OrderBookManager.Tells, hverdict] at htells
      exact htells.elim
    · obtain ⟨hvalid, hnonneg⟩ :
          (m.bookRef e).valid ∧ 0 ≤ (m.bookRef e).sizeAt side price + d := by
        rcases hverdict with hv | hv <;> simpa [OrderBookManager.Tells, hv] using htells
      rw [haccept, OrderBookManager.acceptDelta_of_nonneg (by simpa using hvalid)
        (by simpa using hnonneg), if_neg (by simp)]
      refine h.same ?_ OrderBookManager.members_counted rfl
      intro e'
      rw [OrderBookManager.bookRef_setBook]
      split_ifs with heq
      · rw [heq, hvalid]
        exact (OrderBook.applyDelta_of_nonneg hvalid hnonneg).2
      · rfl

end Replay

namespace WsClient

variable {parse : List Char → Option Json} {c : WsClient} {text : List Char}

/-- The recording so far, replayed, agrees with the live books. -/
def ReplaysLive (parse : List Char → Option Json) (c : WsClient) : Prop :=
  Replay.Mirrors c.epoch (run (Replay.step parse) {} c.records) c.books

lemma ReplaysLive.onText (h : c.ReplaysLive parse)
    (htells : c.books.Tells c.epoch (route parse text)) :
    (c.onText parse text).ReplaysLive parse := by
  obtain ⟨frame, hrecords, hframe⟩ := onText_records parse c text
  obtain ⟨hepoch, hbooks⟩ := onText_spec parse c text
  have hstep : run (Replay.step parse) (run (Replay.step parse) {} c.records) frame =
      (run (Replay.step parse) {} c.records).frame (route parse text) := by
    rcases hframe with ⟨rfl, hroute⟩ | ⟨rec, rfl, hraw, hmarker⟩
    · rw [hroute]
      rfl
    · rw [run_cons, run_nil, Replay.step, hmarker, hraw]
  rw [ReplaysLive, hepoch, hbooks, hrecords, run_append, run_append, hstep]
  exact h.applyTo htells

lemma Housed.onText (h : c.books.Housed c.epoch) :
    (c.onText parse text).books.Housed (c.onText parse text).epoch := by
  obtain ⟨hepoch, hbooks⟩ := onText_spec parse c text
  rw [hepoch, hbooks]
  exact h.applyTo _

lemma along_faithful_iff (parse : List Char → Option Json) (h : c.books.Housed c.epoch)
    (texts : List (List Char)) :
    Along (onText parse) (Faithful parse) c texts ↔
      Along (onText parse) (fun c text => c.books.Tells c.epoch (route parse text)) c texts := by
  refine along_congr (P := fun c => c.books.Housed c.epoch) (B := fun _ _ => True) ?_ ?_ h
    (along_of_forall (by simp))
  · exact fun _ _ hhoused _ => Housed.onText hhoused
  · exact fun _ _ hhoused _ => faithful_iff_tells hhoused

/-- A control response that finds a gap makes the valid members invalid without a marker. -/
lemma not_faithful_of_control {sid seq : Nat} {e : EntityId} (h : c.books.Housed c.epoch)
    (hroute : route parse text = .control sid seq)
    (hgap : c.books.verdict sid c.epoch seq = .gap) (he : e ∈ c.books.members c.epoch sid)
    (hvalid : (c.books.bookRef e).valid) : ¬ c.Faithful parse text := by
  intro hfaithful
  rw [faithful_iff_tells h, hroute] at hfaithful
  rw [hfaithful hgap e he] at hvalid
  cases hvalid

/-- For every sequence of frames to a client with an empty manager and recording: the gap markers
    are faithful at every frame iff each frame tells of what it makes invalid, and then the
    recording, replayed, has the validity of the live books. -/
theorem gap_markers_iff (parse : List Char → Option Json) (c : WsClient)
    (texts : List (List Char)) :
    (Along (onText parse) (Faithful parse) { c with books := {}, records := [] } texts ↔
      Along (onText parse) (fun c text => c.books.Tells c.epoch (route parse text))
        { c with books := {}, records := [] } texts) ∧
    (Along (onText parse) (Faithful parse) { c with books := {}, records := [] } texts →
      ∀ e, (run (Replay.step parse) {}
          (run (onText parse) { c with books := {}, records := [] } texts).records).valid e =
        (run (onText parse) { c with books := {}, records := [] } texts).books.tradeable e) := by
  have hhoused : ({ c with books := {}, records := [] } : WsClient).books.Housed c.epoch := by
    intro e hvalid
    cases hvalid
  have hiff := along_faithful_iff parse hhoused texts
  refine ⟨hiff, fun hfaithful e => ?_⟩
  have hstart : ({ c with books := {}, records := [] } : WsClient).ReplaysLive parse :=
    ⟨fun _ => rfl, fun _ => rfl, rfl⟩
  have hend := run_inv (P := ReplaysLive parse) (fun _ _ h htells => h.onText htells) hstart
    (hiff.1 hfaithful)
  rw [hend.valid e, OrderBookManager.tradeable_eq_valid]

end WsClient

/-! ### A gap that a control response finds -/

/-- A control response on subscription 1 with number 9. -/
def controlText : List Char := "\x7b\"type\":\"ok\",\"sid\":1,\"seq\":9\x7d".toList

def controlJson : Json :=
  .obj [("type".toList, .str "ok".toList), ("sid".toList, .num "1".toList),
    ("seq".toList, .num "9".toList)]

/-- A parser as far as the snapshot and the control response are concerned. -/
def parseControl (text : List Char) : Option Json :=
  if text = controlText then some controlJson else parseSnapshot text

/-- After the snapshot the control response meets a valid member and a gap. -/
lemma controlText_gap :
    route parseControl controlText = .control 1 9 ∧
      ∃ c e, c = WsClient.onText parseControl {} snapshotText ∧
        c.books.verdict 1 c.epoch 9 = .gap ∧ e ∈ c.books.members c.epoch 1 ∧
        (c.books.bookRef e).valid :=
  ⟨by decide +kernel, _, makeEntityId kSourceKalshi "A".toList, rfl, by decide +kernel⟩

/-- The control response jumps over numbers 6 to 8 and makes the book invalid without a marker. -/
theorem gap_markers_control_gap :
    ¬ Along (WsClient.onText parseControl) (WsClient.Faithful parseControl) {}
      [snapshotText, controlText] := by
  intro h
  obtain ⟨hroute, c, e, hc, hgap, he, hvalid⟩ := controlText_gap
  have hhoused : c.books.Housed c.epoch := by
    rw [hc]
    apply WsClient.Housed.onText
    intro e hvalid
    cases hvalid
  apply WsClient.not_faithful_of_control hhoused hroute hgap he hvalid
  rw [hc]
  exact h.2.1

end HftBot
