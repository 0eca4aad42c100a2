import HftBot.Core.Run
import HftBot.Feed.OrderBookProperties

/-!
# Calls of the manager

The manager's entry points as the inputs of a machine, and what each of them does to the members,
the books and the requests for every verdict of the stream, late and reordered numbers included.
-/

namespace HftBot

open HftBot.Core Function

inductive ManagerCall
  | bind (sid : Nat) (e : EntityId)
  | onSnapshot (sid : Nat) (e : EntityId) (snap : SnapshotView) (seq : Nat)
  | onDelta (sid : Nat) (e : EntityId) (side : Side) (price delta : Int) (seq : Nat)
  | onControlSeq (sid seq : Nat)
  | forget (e : EntityId)
deriving DecidableEq

namespace OrderBookManager

variable {m : OrderBookManager} {sid epoch seq : Nat} {e : EntityId}

/-- The manager after a call, and its answer where the call has one. -/
def answer (epoch : Nat) (m : OrderBookManager) :
    ManagerCall → Option ApplyResult × OrderBookManager
  | .bind sid e                        => (none, m.bind sid epoch e)
  | .onSnapshot sid e snap seq         => (none, m.onSnapshot sid epoch e snap seq)
  | .onDelta sid e side price delta seq =>
    let (r, m) := m.onDelta sid epoch e side price delta seq
    (some r, m)
  | .onControlSeq sid seq              =>
    let (r, m) := m.onControlSeq sid epoch seq
    (some r, m)
  | .forget e                          => (none, m.forget e)

def handle (epoch : Nat) (m : OrderBookManager) (c : ManagerCall) : OrderBookManager :=
  (m.answer epoch c).2

/-- The verdict of a stream on a number. -/
def verdict (m : OrderBookManager) (sid epoch seq : Nat) : SeqResult :=
  ((m.stream sid epoch).observe seq).1

/-- The manager once the number has been counted. -/
def counted (m : OrderBookManager) (sid epoch seq : Nat) : OrderBookManager :=
  m.setStream sid ((m.stream sid epoch).observe seq).2

/-- A number is lost: all members of the stream are invalidated and asked for. -/
def lost (m : OrderBookManager) (sid epoch seq : Nat) : OrderBookManager :=
  ((m.counted sid epoch seq).invalidateAll ((m.stream sid epoch).observe seq).2).requestAll
    ((m.stream sid epoch).observe seq).2

end OrderBookManager

namespace SidStream

variable {s : SidStream} {seq : Nat}

@[simp] lemma observe_members : (s.observe seq).2.members = s.members := by
  rw [observe]
  split_ifs <;> rfl

@[simp] lemma observe_sid : (s.observe seq).2.sid = s.sid := by
  rw [observe]
  split_ifs <;> rfl

/-- Every number but a late one moves the counter behind it. -/
lemma observe_expected (h : (s.observe seq).1 ≠ .stale) :
    (s.observe seq).2.seen ∧ (s.observe seq).2.expected = nextSeq seq := by
  rw [observe] at h ⊢
  split_ifs at h ⊢ with hseen heq hlt
  · exact ⟨rfl, rfl⟩
  · exact ⟨by simpa using hseen, by rw [heq]⟩
  · exact absurd rfl h
  · exact ⟨by simpa using hseen, rfl⟩

end SidStream

namespace OrderBookManager

variable {m : OrderBookManager} {sid epoch seq : Nat} {e : EntityId} {side : Side} {price d : Int}

lemma stream_setStream (sid' : Nat) (s : SidStream) :
    (m.setStream sid s).stream sid' epoch = if sid' = sid then s else m.stream sid' epoch := by
  rw [stream, setStream]
  by_cases heq : sid' = sid
  · simp [heq]
  · simp [heq, stream]

/-- Who is a member of a stream. -/
def members (m : OrderBookManager) (epoch sid : Nat) : Finset EntityId :=
  (m.stream sid epoch).members

@[simp] lemma members_counted (sid' : Nat) :
    (m.counted sid epoch seq).members epoch sid' = m.members epoch sid' := by
  rw [members, counted, stream_setStream]
  split_ifs with heq
  · rw [SidStream.observe_members, heq, members]
  · rfl

lemma members_bind (sid' : Nat) (e : EntityId) :
    (m.bind sid epoch e).members epoch sid' =
      if sid' = sid then insert e (m.members epoch sid') else m.members epoch sid' := by
  show ((m.setStream sid _).stream sid' epoch).members = _
  rw [stream_setStream]
  split_ifs with heq
  · rw [heq]
    rfl
  · rfl

/-- A forgotten market leaves the stream it is bound to, and no other. -/
lemma members_forget (sid' : Nat) (e : EntityId) :
    (m.forget e).members epoch sid' =
      if m.sidOf e = some sid' then (m.members epoch sid').erase e else m.members epoch sid' := by
  rw [members, members, stream, stream, forget_streams]
  split_ifs
  · cases m.streams sid' <;> rfl
  · rfl

/-- Forgetting a market leaves all counters. -/
lemma stream_forget (m : OrderBookManager) (sid epoch : Nat) (e : EntityId) :
    ((m.forget e).stream sid epoch).seen = (m.stream sid epoch).seen ∧
      ((m.forget e).stream sid epoch).expected = (m.stream sid epoch).expected := by
  rw [stream, stream, forget_streams]
  split_ifs
  · cases m.streams sid <;> exact ⟨rfl, rfl⟩
  · exact ⟨rfl, rfl⟩

/-! ### Books -/

@[simp] lemma bookRef_counted : (m.counted sid epoch seq).bookRef e = m.bookRef e := rfl

@[simp] lemma bookRef_bind (e' : EntityId) : (m.bind sid epoch e').bookRef e = m.bookRef e := rfl

lemma bookRef_setBook (e' : EntityId) (b : OrderBook) :
    (m.setBook e' b).bookRef e = if e = e' then b else m.bookRef e := by
  rw [bookRef, setBook]
  by_cases heq : e = e'
  · simp [heq]
  · simp [heq, bookRef]

lemma bookRef_onSnapshot (e' : EntityId) (snap : SnapshotView) :
    (m.onSnapshot sid epoch e' snap seq).bookRef e =
      if e = e' then OrderBook.loadSnapshot { snap with seq } else m.bookRef e :=
  bookRef_setBook _ _

lemma bookRef_forget (e' : EntityId) :
    (m.forget e').bookRef e = if e = e' then .new else m.bookRef e := by
  rw [bookRef, forget_books]
  by_cases heq : e = e'
  · simp [heq]
  · simp [heq, bookRef]

lemma lost_books :
    (m.lost sid epoch seq).books e =
      if e ∈ m.members epoch sid then some (m.bookRef e).invalidate else m.books e := by
  show (if e ∈ ((m.stream sid epoch).observe seq).2.members then _ else _) = _
  rw [SidStream.observe_members]
  rfl

lemma bookRef_lost :
    (m.lost sid epoch seq).bookRef e =
      if e ∈ m.members epoch sid then (m.bookRef e).invalidate else m.bookRef e := by
  rw [bookRef, lost_books]
  split_ifs <;> rfl

/-- A snapshot binds its market, counts its number whatever the verdict, and loads the book. -/
lemma onSnapshot_eq (snap : SnapshotView) :
    m.onSnapshot sid epoch e snap seq =
      ((m.bind sid epoch e).counted sid epoch seq).setBook e
        (OrderBook.loadSnapshot { snap with seq }) := by
  simp [onSnapshot, counted, bind, setStream, setBook, stream]

/-! ### Verdicts -/

lemma onDelta_of_gap (h : m.verdict sid epoch seq = .gap) :
    m.onDelta sid epoch e side price d seq = (.needResync, m.lost sid epoch seq) := by
  rw [verdict] at h
  simp [onDelta, h, lost, counted]

lemma onDelta_of_stale (h : m.verdict sid epoch seq = .stale) :
    m.onDelta sid epoch e side price d seq =
      (.needResync, { m.counted sid epoch seq with stale := m.stale + 1 }) := by
  rw [verdict] at h
  simp only [onDelta, h]
  rfl

lemma onDelta_of_inOrder (h : m.verdict sid epoch seq = .first ∨ m.verdict sid epoch seq = .ok) :
    m.onDelta sid epoch e side price d seq =
      (m.counted sid epoch seq).acceptDelta (m.stream sid epoch).sid e side price d seq := by
  rw [verdict] at h
  rcases h with h | h <;> simp [onDelta, h, counted]

lemma onControlSeq_of_gap (h : m.verdict sid epoch seq = .gap) :
    m.onControlSeq sid epoch seq = (.needResync, m.lost sid epoch seq) := by
  rw [verdict] at h
  simp [onControlSeq, h, lost, counted]

lemma onControlSeq_of_not_gap (h : m.verdict sid epoch seq ≠ .gap) :
    m.onControlSeq sid epoch seq = (.ok, m.counted sid epoch seq) := by
  rw [verdict] at h
  simp [onControlSeq, h, counted]

/-- What a delta does is settled by the verdict on its number. -/
lemma onDelta_cases (m : OrderBookManager) (sid epoch seq : Nat) (e : EntityId) (side : Side)
    (price d : Int) :
    (m.verdict sid epoch seq = .gap ∧
      m.onDelta sid epoch e side price d seq = (.needResync, m.lost sid epoch seq)) ∨
    (m.verdict sid epoch seq = .stale ∧
      m.onDelta sid epoch e side price d seq =
        (.needResync, { m.counted sid epoch seq with stale := m.stale + 1 })) ∨
    ((m.verdict sid epoch seq = .first ∨ m.verdict sid epoch seq = .ok) ∧
      m.onDelta sid epoch e side price d seq =
        (m.counted sid epoch seq).acceptDelta (m.stream sid epoch).sid e side price d seq) := by
  cases hverdict : m.verdict sid epoch seq with
  | gap => exact .inl ⟨rfl, onDelta_of_gap hverdict⟩
  | stale => exact .inr (.inl ⟨rfl, onDelta_of_stale hverdict⟩)
  | first => exact .inr (.inr ⟨.inl rfl, onDelta_of_inOrder (.inl hverdict)⟩)
  | ok => exact .inr (.inr ⟨.inr rfl, onDelta_of_inOrder (.inr hverdict)⟩)

lemma onControlSeq_cases (m : OrderBookManager) (sid epoch seq : Nat) :
    (m.verdict sid epoch seq = .gap ∧
      m.onControlSeq sid epoch seq = (.needResync, m.lost sid epoch seq)) ∨
    (m.verdict sid epoch seq ≠ .gap ∧
      m.onControlSeq sid epoch seq = (.ok, m.counted sid epoch seq)) := by
  by_cases hverdict : m.verdict sid epoch seq = .gap
  · exact .inl ⟨hverdict, onControlSeq_of_gap hverdict⟩
  · exact .inr ⟨hverdict, onControlSeq_of_not_gap hverdict⟩

@[simp] lemma members_acceptDelta (sid' sid'' : Nat) (side : Side) (price d : Int) :
    (m.acceptDelta sid' e side price d seq).2.members epoch sid'' = m.members epoch sid'' := by
  rw [members, stream, acceptDelta_streams]
  rfl

@[simp] lemma members_lost (sid' : Nat) :
    (m.lost sid epoch seq).members epoch sid' = m.members epoch sid' :=
  members_counted sid'

/-- A delta changes neither the members of a stream nor what markets are bound to. -/
@[simp] lemma members_onDelta (sid' : Nat) (e : EntityId) :
    (m.onDelta sid epoch e side price d seq).2.members epoch sid' = m.members epoch sid' := by
  rcases onDelta_cases m sid epoch seq e side price d with
    ⟨-, hgap⟩ | ⟨-, hstale⟩ | ⟨-, haccept⟩
  · rw [hgap, members_lost]
  · rw [hstale]
    exact members_counted sid'
  · rw [haccept, members_acceptDelta, members_counted]

@[simp] lemma members_onControlSeq (sid' : Nat) :
    (m.onControlSeq sid epoch seq).2.members epoch sid' = m.members epoch sid' := by
  rcases onControlSeq_cases m sid epoch seq with ⟨-, hgap⟩ | ⟨-, hcounted⟩
  · rw [hgap, members_lost]
  · rw [hcounted, members_counted]

lemma members_onSnapshot (sid' : Nat) (snap : SnapshotView) :
    (m.onSnapshot sid epoch e snap seq).members epoch sid' =
      if sid' = sid then insert e (m.members epoch sid') else m.members epoch sid' := by
  rw [onSnapshot_eq, ← members_bind]
  exact members_counted sid'

/-- A delta in order: its own book answers. -/
lemma bookRef_acceptDelta (e' : EntityId) :
    (m.acceptDelta sid e' side price d seq).2.bookRef e =
      if e = e' then ((m.bookRef e').applyDelta side price d seq).2 else m.bookRef e := by
  rw [bookRef, acceptDelta_books]
  by_cases heq : e = e'
  · subst heq
    cases hvalid : (m.bookRef e).valid with
    | false => simp [hvalid, OrderBook.applyDelta]
    | true => simp
  · simp [heq, bookRef]

lemma acceptDelta_of_not_valid (h : (m.bookRef e).valid = false) :
    m.acceptDelta sid e side price d seq =
      (.needResync,
        { m.setBook e (m.bookRef e) with droppedInvalid := m.droppedInvalid + 1 }) := by
  simp [acceptDelta, h, setBook]

lemma acceptDelta_of_neg (hb : (m.bookRef e).valid)
    (hneg : (m.bookRef e).sizeAt side price + d < 0) :
    m.acceptDelta sid e side price d seq =
      (.invalid, ({ m.setBook e (m.bookRef e).invalidate with
        corrupt := m.corrupt + 1 } : OrderBookManager).requestResync sid [e]) := by
  simp [acceptDelta, hb, OrderBook.applyDelta_of_neg hb hneg, setBook, OrderBook.invalidate]

lemma acceptDelta_of_nonneg (hb : (m.bookRef e).valid)
    (hnonneg : 0 ≤ (m.bookRef e).sizeAt side price + d) :
    m.acceptDelta sid e side price d seq =
      (.ok, m.setBook e ((m.bookRef e).applyDelta side price d seq).2) := by
  have hok : ((m.bookRef e).applyDelta side price d seq).1 = .ok :=
    (OrderBook.applyDelta_of_nonneg hb hnonneg).1
  simp [acceptDelta, hb, hok, setBook]

/-! ### The manager's requests -/

/-- The subscription on which a call finds a gap or a negative level, and the markets that are
invalidated for it. -/
def hits (epoch : Nat) (m : OrderBookManager) : ManagerCall → Option (Nat × Finset EntityId)
  | .onDelta sid e side price d seq =>
    match m.verdict sid epoch seq with
    | .gap   => some (sid, m.members epoch sid)
    | .stale => none
    | _      =>
      if (m.bookRef e).valid ∧ (m.bookRef e).sizeAt side price + d < 0 then some (sid, {e})
      else none
  | .onControlSeq sid seq           =>
    if m.verdict sid epoch seq = .gap then some (sid, m.members epoch sid) else none
  | _                               => none

/-- The market that a call gives a snapshot or forgets. -/
def renews : ManagerCall → Option EntityId
  | .onSnapshot _ e _ _ => some e
  | .forget e           => some e
  | _                   => none

/-- Streams stand under their own subscriptions. -/
def Keyed (m : OrderBookManager) : Prop := ∀ sid s, m.streams sid = some s → s.sid = sid

lemma Keyed.stream (h : m.Keyed) : (m.stream sid epoch).sid = sid := by
  rw [OrderBookManager.stream]
  cases hs : m.streams sid with
  | none => rfl
  | some s => exact h sid s hs

lemma Keyed.setStream (h : m.Keyed) {s : SidStream} (hs : s.sid = sid) :
    (m.setStream sid s).Keyed := by
  intro sid' s' hs'
  change update m.streams sid (some s) sid' = some s' at hs'
  by_cases heq : sid' = sid
  · rw [heq, update_self, Option.some.injEq] at hs'
    rw [← hs', hs, heq]
  · rw [update_of_ne heq] at hs'
    exact h sid' s' hs'

lemma Keyed.of_streams {m' : OrderBookManager} (h : m.Keyed) (hs : m'.streams = m.streams) :
    m'.Keyed := by
  rwa [Keyed, hs]

lemma Keyed.counted (h : m.Keyed) : (m.counted sid epoch seq).Keyed :=
  h.setStream (SidStream.observe_sid.trans h.stream)

lemma Keyed.bind (h : m.Keyed) : (m.bind sid epoch e).Keyed :=
  (h.setStream (s := (m.stream sid epoch).addMarket e) h.stream).of_streams rfl

lemma Keyed.handle (h : m.Keyed) (c : ManagerCall) : (m.handle epoch c).Keyed := by
  cases c with
  | bind sid e => exact h.bind
  | onSnapshot sid e snap seq =>
    show (m.onSnapshot sid epoch e snap seq).Keyed
    rw [onSnapshot_eq]
    exact h.bind.counted.of_streams rfl
  | onDelta sid e side price d seq =>
    show (m.onDelta sid epoch e side price d seq).2.Keyed
    rcases onDelta_cases m sid epoch seq e side price d with
      ⟨-, hgap⟩ | ⟨-, hstale⟩ | ⟨-, haccept⟩
    · rw [hgap]
      exact h.counted.of_streams rfl
    · rw [hstale]
      exact h.counted.of_streams rfl
    · rw [haccept]
      exact h.counted.of_streams (acceptDelta_streams _ _ _)
  | onControlSeq sid seq =>
    show (m.onControlSeq sid epoch seq).2.Keyed
    rcases onControlSeq_cases m sid epoch seq with ⟨-, hgap⟩ | ⟨-, hcounted⟩
    · rw [hgap]
      exact h.counted.of_streams rfl
    · rw [hcounted]
      exact h.counted
  | forget e =>
    intro sid s hs
    rw [show m.handle epoch (.forget e) = m.forget e from rfl, forget_streams] at hs
    split_ifs at hs
    · obtain ⟨s', hs', rfl⟩ := Option.map_eq_some_iff.1 hs
      exact h sid s' hs'
    · exact h sid s hs

lemma lost_requests (h : m.Keyed) :
    (m.lost sid epoch seq).requests =
      m.requests ++ [⟨sid, (m.members epoch sid).sort (· ≤ ·)⟩] := by
  show m.requests ++ [⟨((m.stream sid epoch).observe seq).2.sid,
    ((m.stream sid epoch).observe seq).2.members.sort (· ≤ ·)⟩] = _
  rw [SidStream.observe_sid, SidStream.observe_members, h.stream]
  rfl

@[simp] lemma forget_requests : (m.forget e).requests = m.requests := by
  simp only [forget]
  split
  · rfl
  · split <;> rfl

lemma hits_of_inOrder (h : m.verdict sid epoch seq = .first ∨ m.verdict sid epoch seq = .ok) :
    m.hits epoch (.onDelta sid e side price d seq) =
      if (m.bookRef e).valid ∧ (m.bookRef e).sizeAt side price + d < 0 then some (sid, {e})
      else none := by
  rcases h with hv | hv <;> rw [hits, hv]

lemma acceptDelta_requests :
    (m.acceptDelta sid e side price d seq).2.requests =
      m.requests ++ if (m.bookRef e).valid ∧ (m.bookRef e).sizeAt side price + d < 0
        then [⟨sid, [e]⟩] else [] := by
  cases hvalid : (m.bookRef e).valid with
  | false =>
    rw [acceptDelta_of_not_valid hvalid, if_neg (by simp), List.append_nil]
    rfl
  | true =>
    rcases lt_or_ge ((m.bookRef e).sizeAt side price + d) 0 with hneg | hnonneg
    · rw [acceptDelta_of_neg hvalid hneg, if_pos ⟨rfl, hneg⟩]
      rfl
    · rw [acceptDelta_of_nonneg hvalid hnonneg, if_neg fun h => absurd h.2 (not_lt.2 hnonneg),
        List.append_nil]
      rfl

/-- A call asks for the markets it invalidates, and for nothing else. -/
lemma handle_requests (h : m.Keyed) (c : ManagerCall) :
    (m.handle epoch c).requests =
      m.requests ++ (m.hits epoch c).toList.map fun p => ⟨p.1, p.2.sort (· ≤ ·)⟩ := by
  cases c with
  | bind sid e => exact (List.append_nil _).symm
  | onSnapshot sid e snap seq => exact (List.append_nil _).symm
  | onDelta sid e side price d seq =>
    show (m.onDelta sid epoch e side price d seq).2.requests = _
    rcases onDelta_cases m sid epoch seq e side price d with
      ⟨hverdict, hgap⟩ | ⟨hverdict, hstale⟩ | ⟨hverdict, haccept⟩
    · rw [hgap, hits, hverdict, lost_requests h]
      rfl
    · rw [hstale, hits, hverdict]
      exact (List.append_nil _).symm
    · rw [haccept, acceptDelta_requests, hits_of_inOrder hverdict, h.stream, bookRef_counted]
      split_ifs
      · simp
        rfl
      · rfl
  | onControlSeq sid seq =>
    show (m.onControlSeq sid epoch seq).2.requests = _
    rcases onControlSeq_cases m sid epoch seq with ⟨hverdict, hgap⟩ | ⟨hverdict, hcounted⟩
    · rw [hgap, hits, if_pos hverdict, lost_requests h]
      rfl
    · rw [hcounted, hits, if_neg hverdict]
      exact (List.append_nil _).symm
  | forget e =>
    show (m.forget e).requests = _
    rw [forget_requests]
    exact (List.append_nil _).symm

end OrderBookManager

end HftBot
