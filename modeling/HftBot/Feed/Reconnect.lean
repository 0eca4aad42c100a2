import HftBot.Core.Run
import HftBot.Feed.ManagerCalls
import HftBot.Feed.WsClient

/-!
# Reconnections

What a frame asks of the manager does not depend on the connection it comes from. After a reopening
the manager is compared with one that starts afresh: they treat the frames alike as long as the
reopening found no tradeable market and no frame falls on a stream of an older connection.
-/

namespace HftBot

open HftBot.Core Function

/-! ### Routing -/

/-- What a frame asks of the manager. -/
inductive Routed
  | ignored
  | control (sid seq : Nat)
  | snapshot (sid seq : Nat) (e : EntityId) (yes no : List Level)
  | delta (sid seq : Nat) (e : EntityId) (side : Side) (price d : Int)
  | forget (e : EntityId)
deriving DecidableEq

namespace Routed

/-- The subscription and the number a frame is judged by. -/
def place : Routed → Option (Nat × Nat)
  | control sid seq        => some (sid, seq)
  | snapshot sid seq _ _ _ => some (sid, seq)
  | delta sid seq _ _ _ _  => some (sid, seq)
  | _                      => none

def applyTo (epoch : Nat) (m : OrderBookManager) : Routed → OrderBookManager
  | ignored                      => m
  | control sid seq              => (m.onControlSeq sid epoch seq).2
  | snapshot sid seq e yes no    =>
    (m.bind sid epoch e).onSnapshot sid epoch e { yes, no, seq } seq
  | delta sid seq e side price d => (m.onDelta sid epoch e side price d seq).2
  | forget e                     => m.forget e

/-- The verdict of the stream on the frame's number. -/
def verdict (epoch : Nat) (m : OrderBookManager) (r : Routed) : Option SeqResult :=
  r.place.map fun p => ((m.stream p.1 epoch).observe p.2).1

def ofEvent (sid seq : Nat) (ev : NormalizedEvent) : Routed :=
  match ev.payload with
  | .bookSnapshot yes no      => .snapshot sid seq ev.entityId yes no
  | .bookDelta side price d _ => .delta sid seq ev.entityId side price d
  | .lifecycle state _ _      =>
    if state = .determined ∨ state = .settled then .forget ev.entityId else .ignored
  | _                         => .ignored

end Routed

/-- How a frame is routed, whatever the connection. -/
def route (parse : List Char → Option Json) (text : List Char) : Routed :=
  match (parse text).bind Json.asObject with
  | none      => .ignored
  | some root =>
    match Json.stringField root "type" with
    | none      => .ignored
    | some type =>
      if type = "error".toList then .ignored
      else if type = "ok".toList ∨ type = "unsubscribed".toList then
        match Json.uint64Field root "sid", Json.uint64Field root "seq" with
        | some sid, some seq => .control sid seq
        | _, _               => .ignored
      else if type = "subscribed".toList then .ignored
      else
        match KalshiRawDecoder.decode parse (WsClient.frameRecord root type text 0) with
        | none    => .ignored
        | some ev =>
          .ofEvent ((Json.uint64Field root "sid").getD 0) ((Json.uint64Field root "seq").getD 0) ev

namespace WsClient

variable {parse : List Char → Option Json}

/-- The epoch of a record is copied into its event and nothing else. -/
lemma decode_frameRecord (root : List (List Char × Json)) (type text : List Char) (epoch : Nat) :
    KalshiRawDecoder.decode parse (frameRecord root type text epoch) =
      (KalshiRawDecoder.decode parse (frameRecord root type text 0)).map
        fun ev => { ev with streamEpoch := epoch } := by
  simp [KalshiRawDecoder.decode, frameRecord, Option.map_bind]

lemma onEvent_spec (c : WsClient) (sid seq : Nat) (ev : NormalizedEvent) :
    (c.onEvent sid seq ev).epoch = c.epoch ∧
      (c.onEvent sid seq ev).books = (Routed.ofEvent sid seq ev).applyTo c.epoch c.books := by
  cases hpayload : ev.payload with
  | bookDelta side price d coid =>
    simp only [onEvent, Routed.ofEvent, hpayload, Routed.applyTo]
    split <;> exact ⟨rfl, rfl⟩
  | lifecycle state =>
    simp only [onEvent, Routed.ofEvent, hpayload]
    split <;> exact ⟨rfl, rfl⟩
  | _ => simp [onEvent, Routed.ofEvent, hpayload, Routed.applyTo]

/-- A frame does to the manager what it asks of it, and leaves the epoch. -/
lemma onText_spec (parse : List Char → Option Json) (c : WsClient) (text : List Char) :
    (c.onText parse text).epoch = c.epoch ∧
      (c.onText parse text).books = (route parse text).applyTo c.epoch c.books := by
  cases hroot : (parse text).bind Json.asObject with
  | none => simp [onText, route, hroot, Routed.applyTo]
  | some root =>
    cases htype : Json.stringField root "type" with
    | none => simp [onText, route, hroot, htype, Routed.applyTo]
    | some type =>
      simp only [onText, route, hroot, htype]
      by_cases herror : type = "error".toList
      · rw [if_pos herror, if_pos herror]
        exact ⟨rfl, rfl⟩
      rw [if_neg herror, if_neg herror]
      by_cases hcontrol : type = "ok".toList ∨ type = "unsubscribed".toList
      · rw [if_pos hcontrol, if_pos hcontrol]
        cases Json.uint64Field root "sid" <;> cases Json.uint64Field root "seq" <;>
          exact ⟨rfl, rfl⟩
      rw [if_neg hcontrol, if_neg hcontrol]
      by_cases hack : type = "subscribed".toList
      · rw [if_pos hack, if_pos hack]
        exact ⟨rfl, rfl⟩
      rw [if_neg hack, if_neg hack, decode_frameRecord]
      cases KalshiRawDecoder.decode parse (frameRecord root type text 0) with
      | none => exact ⟨rfl, rfl⟩
      | some ev => exact onEvent_spec _ _ _ _

end WsClient

/-! ### A manager that starts afresh -/

namespace OrderBookManager

variable {base m f : OrderBookManager} {sid epoch seq : Nat} {e : EntityId}

lemma tradeable_eq_valid : m.tradeable e = (m.bookRef e).valid := by
  cases h : m.books e <;> simp [tradeable, bookRef, h]

/-- Both books are closed to trading, or they are the same. -/
def SameBook (b b' : OrderBook) : Prop := b.valid = b'.valid ∧ (b.valid → b = b')

/-- The manager `m`, which went on from `base`, and the manager `f`, which started afresh, agree on
all streams that are newer than `base` and on all books that can be traded. -/
structure Afresh (base m f : OrderBookManager) : Prop where
  streams  : ∀ sid, base.streams sid = none → m.streams sid = f.streams sid
  sidOf    : ∀ e sid, f.sidOf e = some sid → base.streams sid = none ∧ m.sidOf e = some sid
  oldSidOf : ∀ e sid, f.sidOf e = none → m.sidOf e = some sid → base.streams sid ≠ none
  books    : ∀ e, SameBook (m.bookRef e) (f.bookRef e)

/-- A market that is bound to a subscription has its stream. -/
def Bound (m : OrderBookManager) : Prop := ∀ e sid, m.sidOf e = some sid → m.streams sid ≠ none

namespace Afresh

lemma start (hbound : Bound m) (hclosed : ∀ e, ¬ m.tradeable e) : Afresh m m {} where
  streams sid h := h
  sidOf e sid h := by cases h
  oldSidOf e sid _ h := hbound e sid h
  books e := by
    have hinvalid : (m.bookRef e).valid = false := by
      rw [← tradeable_eq_valid]
      exact Bool.eq_false_iff.2 (hclosed e)
    exact ⟨hinvalid, fun hvalid => absurd hvalid (by simp [hinvalid])⟩

variable (h : Afresh base m f)
include h

lemma stream_eq (hsid : base.streams sid = none) : m.stream sid epoch = f.stream sid epoch := by
  rw [stream, stream, h.streams sid hsid]

lemma tradeable_eq (e : EntityId) : m.tradeable e = f.tradeable e := by
  rw [tradeable_eq_valid, tradeable_eq_valid, (h.books e).1]

lemma setStream (sid : Nat) (s : SidStream) :
    Afresh base (m.setStream sid s) (f.setStream sid s) where
  streams sid' h' := by
    show update m.streams sid _ sid' = update f.streams sid _ sid'
    by_cases heq : sid' = sid
    · rw [heq, update_self, update_self]
    · rw [update_of_ne heq, update_of_ne heq, h.streams sid' h']
  sidOf := h.sidOf
  oldSidOf := h.oldSidOf
  books := h.books

lemma setBook {b b' : OrderBook} (hb : SameBook b b') (e : EntityId) :
    Afresh base (m.setBook e b) (f.setBook e b') where
  streams := h.streams
  sidOf := h.sidOf
  oldSidOf := h.oldSidOf
  books e' := by
    rw [bookRef, bookRef]
    show SameBook ((update m.books e _ e').getD {}) ((update f.books e _ e').getD {})
    by_cases heq : e' = e
    · rwa [heq, update_self, update_self]
    · rw [update_of_ne heq, update_of_ne heq]
      exact h.books e'

lemma setSid (hsid : base.streams sid = none) (e : EntityId) :
    Afresh base { m with sidOf := update m.sidOf e (some sid) }
      { f with sidOf := update f.sidOf e (some sid) } where
  streams := h.streams
  sidOf e' sid' h' := by
    change update f.sidOf e _ e' = some sid' at h'
    show _ ∧ update m.sidOf e _ e' = some sid'
    by_cases heq : e' = e
    · subst heq
      rw [update_self] at h' ⊢
      cases h'
      exact ⟨hsid, rfl⟩
    · rw [update_of_ne heq] at h' ⊢
      exact h.sidOf e' sid' h'
  oldSidOf e' sid' hf hm := by
    change update f.sidOf e _ e' = none at hf
    change update m.sidOf e _ e' = some sid' at hm
    by_cases heq : e' = e
    · subst heq
      rw [update_self] at hf
      cases hf
    · rw [update_of_ne heq] at hf hm
      exact h.oldSidOf e' sid' hf hm
  books := h.books

lemma invalidateAll (s : SidStream) : Afresh base (m.invalidateAll s) (f.invalidateAll s) where
  streams := h.streams
  sidOf := h.sidOf
  oldSidOf := h.oldSidOf
  books e := by
    by_cases he : e ∈ s.members
    · have hm : ((m.invalidateAll s).bookRef e).valid = false := by
        simp [bookRef, OrderBookManager.invalidateAll, he, OrderBook.invalidate]
      have hf : ((f.invalidateAll s).bookRef e).valid = false := by
        simp [bookRef, OrderBookManager.invalidateAll, he, OrderBook.invalidate]
      exact ⟨hm.trans hf.symm, fun hvalid => absurd hvalid (by simp [hm])⟩
    · have hm : (m.invalidateAll s).bookRef e = m.bookRef e := by
        simp [bookRef, OrderBookManager.invalidateAll, he]
      have hf : (f.invalidateAll s).bookRef e = f.bookRef e := by
        simp [bookRef, OrderBookManager.invalidateAll, he]
      rw [hm, hf]
      exact h.books e

/-- Counters and requests play no part. -/
lemma of_eq {m' f' : OrderBookManager} (hms : m'.streams = m.streams) (hmb : m'.books = m.books)
    (hmo : m'.sidOf = m.sidOf) (hfs : f'.streams = f.streams) (hfb : f'.books = f.books)
    (hfo : f'.sidOf = f.sidOf) : Afresh base m' f' := by
  obtain ⟨h1, h2, h3, h4⟩ := h
  refine ⟨?_, ?_, ?_, ?_⟩
  · rwa [hms, hfs]
  · rwa [hmo, hfo]
  · rwa [hmo, hfo]
  · intro e
    rw [bookRef, bookRef, hmb, hfb]
    exact h4 e

lemma bind (hsid : base.streams sid = none) (e : EntityId) :
    Afresh base (m.bind sid epoch e) (f.bind sid epoch e) := by
  rw [OrderBookManager.bind, OrderBookManager.bind, h.stream_eq hsid]
  exact (h.setStream sid _).setSid hsid e

lemma onSnapshot (hsid : base.streams sid = none) (e : EntityId) (snap : SnapshotView) :
    Afresh base (m.onSnapshot sid epoch e snap seq) (f.onSnapshot sid epoch e snap seq) := by
  rw [OrderBookManager.onSnapshot, OrderBookManager.onSnapshot, h.stream_eq hsid]
  exact ((h.setSid hsid e).setStream sid _).setBook ⟨rfl, fun _ => rfl⟩ e

lemma onControlSeq (hsid : base.streams sid = none) :
    Afresh base (m.onControlSeq sid epoch seq).2 (f.onControlSeq sid epoch seq).2 := by
  simp only [OrderBookManager.onControlSeq, h.stream_eq hsid]
  split
  · exact ((h.setStream sid _).invalidateAll _).of_eq rfl rfl rfl rfl rfl rfl
  · exact h.setStream sid _

lemma acceptDelta (sid : Nat) (e : EntityId) (side : Side) (price d : Int) :
    Afresh base (m.acceptDelta sid e side price d seq).2
      (f.acceptDelta sid e side price d seq).2 := by
  obtain ⟨hvalid, hsame⟩ := h.books e
  have hopened := h.setBook (h.books e) e
  simp only [OrderBookManager.acceptDelta, ← hvalid]
  cases hm : (m.bookRef e).valid with
  | false => exact hopened.of_eq rfl rfl rfl rfl rfl rfl
  | true =>
    rw [← hsame hm] at hopened ⊢
    simp only [Bool.not_true, Bool.false_eq_true, ↓reduceIte]
    have happlied := hopened.setBook
      (b := ((m.bookRef e).applyDelta side price d seq).2) ⟨rfl, fun _ => rfl⟩ e
    split
    · exact happlied.of_eq rfl rfl rfl rfl rfl rfl
    · exact happlied

lemma onDelta (hsid : base.streams sid = none) (e : EntityId) (side : Side) (price d : Int) :
    Afresh base (m.onDelta sid epoch e side price d seq).2
      (f.onDelta sid epoch e side price d seq).2 := by
  simp only [OrderBookManager.onDelta, h.stream_eq hsid]
  obtain ⟨r, s⟩ := (f.stream sid epoch).observe seq
  have hmoved := h.setStream sid s
  cases r with
  | gap => exact (hmoved.invalidateAll _).of_eq rfl rfl rfl rfl rfl rfl
  | stale => exact hmoved.of_eq rfl rfl rfl rfl rfl rfl
  | first => exact hmoved.acceptDelta _ _ _ _ _
  | ok => exact hmoved.acceptDelta _ _ _ _ _

/-- What a market of an older connection forgets is not seen by the manager that started afresh. -/
lemma forget (e : EntityId) : Afresh base (m.forget e) (f.forget e) where
  streams sid hsid := by
    have hiff : m.sidOf e = some sid ↔ f.sidOf e = some sid := by
      refine ⟨fun hm => ?_, fun hf => (h.sidOf e sid hf).2⟩
      cases hf : f.sidOf e with
      | none => exact absurd hsid (h.oldSidOf e sid hf hm)
      | some sid' =>
        have hm' := (h.sidOf e sid' hf).2
        rw [← hm, hm']
    simp only [forget_streams, hiff, h.streams sid hsid]
  sidOf e' sid h' := by
    rw [forget_sidOf] at h' ⊢
    by_cases heq : e' = e
    · rw [heq, update_self] at h'
      cases h'
    · rw [update_of_ne heq] at h' ⊢
      exact h.sidOf e' sid h'
  oldSidOf e' sid hf hm := by
    rw [forget_sidOf] at hf hm
    by_cases heq : e' = e
    · rw [heq, update_self] at hm
      cases hm
    · rw [update_of_ne heq] at hf hm
      exact h.oldSidOf e' sid hf hm
  books e' := by
    rw [bookRef, bookRef, forget_books, forget_books]
    by_cases heq : e' = e
    · rw [heq, update_self, update_self]
      exact ⟨rfl, fun _ => rfl⟩
    · rw [update_of_ne heq, update_of_ne heq]
      exact h.books e'

lemma applyTo {r : Routed} (hplace : ∀ p ∈ r.place, base.streams p.1 = none) :
    Afresh base (r.applyTo epoch m) (r.applyTo epoch f) := by
  cases r with
  | ignored => exact h
  | control sid seq => exact h.onControlSeq (hplace _ rfl)
  | snapshot sid seq e yes no =>
    exact (h.bind (hplace _ rfl) e).onSnapshot (hplace _ rfl) e _
  | delta sid seq e side price d => exact h.onDelta (hplace _ rfl) e side price d
  | forget e => exact h.forget e

/-- On a stream that is newer than `base` both managers give the same verdict. -/
lemma verdict_eq {r : Routed} (hplace : ∀ p ∈ r.place, base.streams p.1 = none) :
    r.verdict epoch m = r.verdict epoch f := by
  rw [Routed.verdict, Routed.verdict]
  cases hr : r.place with
  | none => rfl
  | some p => rw [Option.map_some, Option.map_some, h.stream_eq (hplace p hr)]

end Afresh

/-! ### One frame -/

lemma setStream_ne_none {s : SidStream} {sid' : Nat} (h : m.streams sid' ≠ none) :
    (m.setStream sid s).streams sid' ≠ none := by
  show update m.streams sid (some s) sid' ≠ none
  by_cases heq : sid' = sid
  · simp [heq]
  · rwa [update_of_ne heq]

lemma setStream_self_ne_none (s : SidStream) : (m.setStream sid s).streams sid ≠ none := by
  show update m.streams sid (some s) sid ≠ none
  simp

/-- Streams are never removed. -/
lemma applyTo_ne_none {r : Routed} {sid' : Nat} (h : m.streams sid' ≠ none) :
    (r.applyTo epoch m).streams sid' ≠ none := by
  cases r with
  | ignored => exact h
  | control sid seq =>
    rw [Routed.applyTo]
    rcases onControlSeq_cases m sid epoch seq with ⟨-, heq⟩ | ⟨-, heq⟩
    · rw [heq]
      exact setStream_ne_none h
    · rw [heq]
      exact setStream_ne_none h
  | snapshot sid seq e yes no => exact setStream_ne_none (setStream_ne_none h)
  | delta sid seq e side price d =>
    rw [Routed.applyTo]
    rcases onDelta_cases m sid epoch seq e side price d with ⟨-, heq⟩ | ⟨-, heq⟩ | ⟨-, heq⟩
    · rw [heq]
      exact setStream_ne_none h
    · rw [heq]
      exact setStream_ne_none h
    · rw [heq, acceptDelta_streams]
      exact setStream_ne_none h
  | forget e =>
    simp only [Routed.applyTo, forget_streams]
    split
    · simpa using h
    · exact h

/-- A market is bound by its snapshots only, and then its stream is there. -/
lemma sidOf_applyTo {r : Routed} {sid' : Nat} (h : (r.applyTo epoch m).sidOf e = some sid') :
    m.sidOf e = some sid' ∨ (r.applyTo epoch m).streams sid' ≠ none := by
  cases r with
  | ignored => exact Or.inl h
  | control sid seq =>
    left
    rw [Routed.applyTo] at h
    rcases onControlSeq_cases m sid epoch seq with ⟨-, heq⟩ | ⟨-, heq⟩
    · rw [heq] at h
      exact h
    · rw [heq] at h
      exact h
  | snapshot sid seq e' yes no =>
    change update (update m.sidOf e' (some sid)) e' (some sid) e = some sid' at h
    by_cases heq : e = e'
    · rw [heq, update_self] at h
      obtain rfl : sid = sid' := Option.some.inj h
      exact Or.inr (setStream_self_ne_none _)
    · rw [update_of_ne heq, update_of_ne heq] at h
      exact Or.inl h
  | delta sid seq e' side price d =>
    left
    rw [Routed.applyTo] at h
    rcases onDelta_cases m sid epoch seq e' side price d with ⟨-, heq⟩ | ⟨-, heq⟩ | ⟨-, heq⟩
    · rw [heq] at h
      exact h
    · rw [heq] at h
      exact h
    · rw [heq, acceptDelta_sidOf] at h
      exact h
  | forget e' =>
    left
    simp only [Routed.applyTo, forget_sidOf] at h
    by_cases heq : e = e'
    · rw [heq, update_self] at h
      cases h
    · rwa [update_of_ne heq] at h

lemma Bound.applyTo (h : Bound m) (r : Routed) : Bound (r.applyTo epoch m) := by
  intro e sid hsid
  rcases sidOf_applyTo hsid with hold | hnew
  · exact applyTo_ne_none (h e sid hold)
  · exact hnew

lemma tradeable_of_acceptDelta {side : Side} {price d : Int} {e' : EntityId}
    (h : (m.acceptDelta sid e side price d seq).2.tradeable e') : m.tradeable e' := by
  obtain ⟨b, hb, hvalid⟩ := tradeable_iff.1 h
  rw [acceptDelta_books] at hb
  by_cases heq : e' = e
  · subst heq
    rw [update_self, Option.some.injEq] at hb
    rw [tradeable_eq_valid]
    cases hold : (m.bookRef e').valid with
    | true => rfl
    | false => simp [← hb, hold] at hvalid
  · rw [update_of_ne heq] at hb
    exact tradeable_iff.2 ⟨b, hb, hvalid⟩

lemma tradeable_of_invalidateAll {s s' : SidStream}
    (h : (((m.setStream sid s').invalidateAll s).requestAll s).tradeable e) : m.tradeable e := by
  obtain ⟨b, hb, hvalid⟩ := tradeable_iff.1 h
  exact tradeable_iff.2 ⟨b, (valid_of_invalidateAll hb hvalid).1, hvalid⟩

/-- Only its own snapshot opens a market to trading. -/
lemma tradeable_of_applyTo {r : Routed} (h : (r.applyTo epoch m).tradeable e) :
    m.tradeable e ∨ ∃ sid seq yes no, r = .snapshot sid seq e yes no := by
  cases r with
  | ignored => exact Or.inl h
  | control sid seq =>
    left
    rw [Routed.applyTo] at h
    rcases onControlSeq_cases m sid epoch seq with ⟨-, heq⟩ | ⟨-, heq⟩
    · rw [heq] at h
      exact tradeable_of_invalidateAll h
    · rw [heq] at h
      exact h
  | snapshot sid seq e' yes no =>
    by_cases heq : e = e'
    · subst heq
      exact Or.inr ⟨sid, seq, yes, no, rfl⟩
    · left
      obtain ⟨b, hb, hvalid⟩ := tradeable_iff.1 h
      exact tradeable_iff.2 ⟨b, (update_of_ne heq _ _).symm.trans hb, hvalid⟩
  | delta sid seq e' side price d =>
    left
    rw [Routed.applyTo] at h
    rcases onDelta_cases m sid epoch seq e' side price d with ⟨-, heq⟩ | ⟨-, heq⟩ | ⟨-, heq⟩
    · rw [heq] at h
      exact tradeable_of_invalidateAll h
    · rw [heq] at h
      exact h
    · rw [heq] at h
      have haccepted := tradeable_of_acceptDelta h
      exact haccepted
  | forget e' =>
    left
    obtain ⟨b, hb, hvalid⟩ := tradeable_iff.1 h
    simp only [Routed.applyTo, forget_books] at hb
    by_cases heq : e = e'
    · rw [heq, update_self] at hb
      cases hb
    · rw [update_of_ne heq] at hb
      exact tradeable_iff.2 ⟨b, hb, hvalid⟩

end OrderBookManager

/-! ### Runs of the client -/

namespace WsClient

variable {parse : List Char → Option Json} {c : WsClient}

/-- What the frames among the messages ask of the manager. -/
def routes (parse : List Char → Option Json) (ms : List WsMessage) : List Routed :=
  ms.filterMap fun
    | .text data => some (route parse data)
    | _          => none

lemma mem_routes {ms : List WsMessage} {r : Routed} (h : r ∈ routes parse ms) :
    ∃ data, .text data ∈ ms ∧ route parse data = r := by
  obtain ⟨msg, hmsg, hr⟩ := List.mem_filterMap.1 h
  cases msg with
  | text data => exact ⟨data, hmsg, Option.some.inj hr⟩
  | _ => cases hr

/-- Between two openings the epoch stands still and the manager follows the frames. -/
lemma run_books (parse : List Char → Option Json) (c : WsClient) {ms : List WsMessage}
    (h : .opened ∉ ms) :
    (run (onMessage parse) c ms).epoch = c.epoch ∧
      (run (onMessage parse) c ms).books =
        run (Routed.applyTo c.epoch) c.books (routes parse ms) := by
  induction ms generalizing c with
  | nil => exact ⟨rfl, rfl⟩
  | cons msg ms ih =>
    rw [List.mem_cons, not_or] at h
    obtain ⟨hepoch, hbooks⟩ := ih (c.onMessage parse msg) h.2
    rw [run_cons, hepoch, hbooks]
    cases msg with
    | opened => exact absurd rfl h.1
    | text data =>
      obtain ⟨hsame, hstep⟩ := onText_spec parse { c with messages := c.messages + 1 } data
      rw [onMessage, hsame, hstep]
      exact ⟨rfl, rfl⟩
    | _ => exact ⟨rfl, rfl⟩

@[simp] lemma onOpen_books (c : WsClient) : c.onOpen.books = c.books := by
  simp only [onOpen, resubscribe]
  split_ifs <;> rfl

/-- Whatever has arrived, a market that is bound has its stream. -/
lemma run_bound (hc : c.books.Bound) (ms : List WsMessage) :
    (run (onMessage parse) c ms).books.Bound := by
  induction ms generalizing c with
  | nil => exact hc
  | cons msg ms ih =>
    apply ih (c := c.onMessage parse msg)
    cases msg with
    | opened => rwa [onMessage, onOpen_books]
    | text data =>
      rw [onMessage, (onText_spec _ _ _).2]
      exact OrderBookManager.Bound.applyTo hc _
    | _ => exact hc

/-- Since a manager that started afresh, a market is tradeable only after its snapshot. -/
lemma snapshot_of_tradeable {epoch : Nat} {rs : List Routed} {e : EntityId}
    (h : (run (Routed.applyTo epoch) {} rs).tradeable e) :
    ∃ sid seq yes no, .snapshot sid seq e yes no ∈ rs := by
  induction rs using List.reverseRecOn with
  | nil => cases h
  | append_singleton rs r ih =>
    rw [run_append, run_cons, run_nil] at h
    rcases OrderBookManager.tradeable_of_applyTo h with hbefore | ⟨sid, seq, yes, no, rfl⟩
    · obtain ⟨sid, seq, yes, no, hmem⟩ := ih hbefore
      exact ⟨sid, seq, yes, no, List.mem_append_left _ hmem⟩
    · exact ⟨sid, seq, yes, no, by simp⟩

end WsClient

/-! ### Isolation -/

section

variable (parse : List Char → Option Json) (c₀ : WsClient)

/-- The client after those messages. -/
def clientAfter (ms : List WsMessage) : WsClient := run (WsClient.onMessage parse) c₀ ms

/-- The client that met the same messages since the reopening, with a manager that started afresh
there. -/
def clientAfresh (before after : List WsMessage) : WsClient :=
  run (WsClient.onMessage parse) { (clientAfter parse c₀ before).onOpen with books := {} } after

/-- After a reopening no market is tradeable without a snapshot since, the next frame is judged as
on a manager that started afresh, and the same markets are tradeable as there. -/
structure IsolatedAt (before after rest : List WsMessage) : Prop where
  snapshot : ∀ e, (clientAfter parse c₀ (before ++ .opened :: after)).books.tradeable e →
    ∃ data sid seq yes no, .text data ∈ after ∧ route parse data = .snapshot sid seq e yes no
  verdict  : ∀ data, rest.head? = some (.text data) →
    (route parse data).verdict (clientAfter parse c₀ (before ++ .opened :: after)).epoch
        (clientAfter parse c₀ (before ++ .opened :: after)).books =
      (route parse data).verdict (clientAfresh parse c₀ before after).epoch
        (clientAfresh parse c₀ before after).books
  trading  : ∀ e, (clientAfter parse c₀ (before ++ .opened :: after)).books.tradeable e =
    (clientAfresh parse c₀ before after).books.tradeable e

/-- Every reopening finds no tradeable market, and until the next one no frame falls on a stream
that was already there. -/
def ReopensClean (ms : List WsMessage) : Prop :=
  ∀ before after, ms = before ++ .opened :: after → .opened ∈ before →
    (∀ e, ¬ (clientAfter parse c₀ before).books.tradeable e) ∧
    ∀ data, .text data ∈ after.takeWhile (· ≠ .opened) → ∀ p ∈ (route parse data).place,
      (clientAfter parse c₀ before).books.streams p.1 = none

variable {parse c₀}

lemma mem_takeWhile_of_mem {after rest : List WsMessage} {data : List Char}
    (hafter : .opened ∉ after) (h : .text data ∈ after) :
    WsMessage.text data ∈ (after ++ rest).takeWhile (· ≠ .opened) := by
  have hall : ∀ msg ∈ after, decide (msg ≠ .opened) = true := by
    intro msg hmsg
    simpa using ne_of_mem_of_not_mem hmsg hafter
  rw [List.takeWhile_append_of_pos hall]
  exact List.mem_append_left _ h

lemma mem_takeWhile_of_head {after rest : List WsMessage} {data : List Char}
    (hafter : .opened ∉ after) (h : rest.head? = some (.text data)) :
    WsMessage.text data ∈ (after ++ rest).takeWhile (· ≠ .opened) := by
  have hall : ∀ msg ∈ after, decide (msg ≠ .opened) = true := by
    intro msg hmsg
    simpa using ne_of_mem_of_not_mem hmsg hafter
  obtain ⟨rest', rfl⟩ := List.head?_eq_some_iff.1 h
  rw [List.takeWhile_append_of_pos hall]
  exact List.mem_append_right _ (by simp)

/-- In every run whose reopenings are clean, every state after a reopening is isolated from the
connections before. -/
theorem reconnect_isolated (h₀ : c₀.books = {}) {ms : List WsMessage}
    (hclean : ReopensClean parse c₀ ms) {before after rest : List WsMessage}
    (hms : ms = before ++ .opened :: (after ++ rest)) (hbefore : .opened ∈ before)
    (hafter : .opened ∉ after) : IsolatedAt parse c₀ before after rest := by
  obtain ⟨hclosed, hnew⟩ := hclean before (after ++ rest) hms hbefore
  set base := (clientAfter parse c₀ before).books with hbase
  have hbound : base.Bound := by
    refine WsClient.run_bound ?_ before
    rw [h₀]
    exact fun _ _ h => by cases h
  set opened := (clientAfter parse c₀ before).onOpen with hopened
  have hrun : clientAfter parse c₀ (before ++ .opened :: after) =
      run (WsClient.onMessage parse) opened after := by
    rw [clientAfter, run_append, run_cons]
    rfl
  obtain ⟨hepoch, hbooks⟩ := WsClient.run_books parse opened hafter
  obtain ⟨hepoch', hbooks'⟩ := WsClient.run_books parse { opened with books := {} } hafter
  -- all frames since the reopening fall on new streams
  have hplaces : ∀ r ∈ WsClient.routes parse after, ∀ p ∈ r.place, base.streams p.1 = none := by
    intro r hr
    obtain ⟨data, hdata, rfl⟩ := WsClient.mem_routes hr
    exact hnew data (mem_takeWhile_of_mem hafter hdata)
  have hafresh : base.Afresh (run (WsClient.onMessage parse) opened after).books
      (clientAfresh parse c₀ before after).books := by
    rw [hbooks, clientAfresh, hbooks', hopened, WsClient.onOpen_books]
    exact run_simulation (A := fun _ r => ∀ p ∈ r.place, base.streams p.1 = none)
      (fun m f r h hr => h.applyTo hr) (.start hbound hclosed) (along_of_forall hplaces)
  refine ⟨fun e htradeable => ?_, fun data hdata => ?_, fun e => ?_⟩
  · rw [hrun, hafresh.tradeable_eq e, clientAfresh, hbooks'] at htradeable
    obtain ⟨sid, seq, yes, no, hmem⟩ := WsClient.snapshot_of_tradeable htradeable
    obtain ⟨data, hdata, hroute⟩ := WsClient.mem_routes hmem
    exact ⟨data, sid, seq, yes, no, hdata, hroute⟩
  · rw [hrun, hepoch]
    have hsame : (clientAfresh parse c₀ before after).epoch = opened.epoch := hepoch'
    rw [hsame]
    exact hafresh.verdict_eq (hnew data (mem_takeWhile_of_head hafter hdata))
  · rw [hrun]
    exact hafresh.tradeable_eq e

end

/-! ### A reopening with a tradeable market -/

/-- A snapshot of market A on subscription 1 with number 5. -/
def snapshotText : List Char :=
  ("\x7b\"type\":\"orderbook_snapshot\",\"sid\":1,\"seq\":5,\"msg\":\x7b" ++
    "\"market_ticker\":\"A\",\"yes_dollars_fp\":[[\"0.4000\",\"10.00\"]]\x7d\x7d").toList

def snapshotJson : Json :=
  .obj [("type".toList, .str "orderbook_snapshot".toList), ("sid".toList, .num "1".toList),
    ("seq".toList, .num "5".toList), ("msg".toList, .obj [("market_ticker".toList, .str "A".toList),
      ("yes_dollars_fp".toList, .arr [.arr [.str "0.4000".toList, .str "10.00".toList]])])]

/-- A parser as far as that text is concerned. -/
def parseSnapshot (text : List Char) : Option Json :=
  if text = snapshotText then some snapshotJson else none

theorem reconnect_isolated_reopened :
    IsolatedAt parseSnapshot {} [.opened] [.text snapshotText] [] := by
  have hclean : ReopensClean parseSnapshot {} [.opened, .opened, .text snapshotText] := by
    rintro before after hms hbefore
    cases before with
    | nil => cases hbefore
    | cons a before =>
      cases before with
      | nil =>
        obtain rfl : WsMessage.opened = a := (List.cons.inj hms).1
        exact ⟨fun e => Bool.false_ne_true, fun _ _ _ _ => rfl⟩
      | cons b before =>
        have hrest : [.text snapshotText] = before ++ .opened :: after :=
          (List.cons.inj (List.cons.inj hms).2).2
        cases before with
        | nil => cases hrest
        | cons d before => cases before <;> cases hrest
  exact reconnect_isolated rfl hclean rfl (by decide) (by decide)

/-- The market of the old connection is still tradeable after the reopening, and its snapshot on the
new connection counts as stale where a fresh stream takes it for the first message. -/
theorem reconnect_isolated_old_book :
    let before := [.opened, .text snapshotText, .closed]
    let reopened := clientAfter parseSnapshot {} (before ++ [.opened])
    let fresh := clientAfresh parseSnapshot {} before []
    reopened.books.tradeable (makeEntityId kSourceKalshi "A".toList) ∧
      (route parseSnapshot snapshotText).verdict reopened.epoch reopened.books = some .stale ∧
      (route parseSnapshot snapshotText).verdict fresh.epoch fresh.books = some .first ∧
      ¬ IsolatedAt parseSnapshot {} before [] [.text snapshotText] := by
  have htradeable : (clientAfter parseSnapshot {}
      ([.opened, .text snapshotText, .closed] ++ [.opened])).books.tradeable
      (makeEntityId kSourceKalshi "A".toList) := by
    decide +kernel
  refine ⟨htradeable, by decide +kernel, by decide +kernel, fun hisolated => ?_⟩
  obtain ⟨data, sid, seq, yes, no, hmem, -⟩ := hisolated.snapshot _ htradeable
  cases hmem

end HftBot
