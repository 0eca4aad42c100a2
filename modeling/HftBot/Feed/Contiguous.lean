import HftBot.Feed.BookRefinement
import HftBot.Feed.ManagerCalls

/-!
# Subscriptions without a hole

The markets of a subscription share its counter with one another and with its control responses.
While the numbers have no hole and no delta makes a size negative, the manager asks for nothing and
refuses nothing, and the book of each market is the fold of its own messages.
-/

namespace HftBot

open HftBot.Core Function OrderBookManager

/-! ### Numbered messages -/

/-- A market is bound to the subscription, or its next message arrives. -/
inductive StreamEvent
  | bind (e : EntityId)
  | message (msg : FeedMsg)
deriving DecidableEq

namespace StreamEvent

def call (sid seq : Nat) : StreamEvent → ManagerCall
  | bind e                          => .bind sid e
  | message (.snapshot e yes no)    => .onSnapshot sid e { yes, no, seq } seq
  | message (.delta e side price d) => .onDelta sid e side price d seq
  | message .control                => .onControlSeq sid seq

/-- The number of the next message. -/
def next (seq : Nat) : StreamEvent → Nat
  | bind _    => seq
  | message _ => SidStream.nextSeq seq

end StreamEvent

/-- The calls of a subscription whose messages are numbered from `seq` on, without a hole. -/
def callsFrom (sid : Nat) : Nat → List StreamEvent → List ManagerCall
  | _, []          => []
  | seq, ev :: evs => ev.call sid seq :: callsFrom sid (ev.next seq) evs

/-- What a call asks of the book of a market. -/
def ownOp (e : EntityId) : ManagerCall → Option BookOp
  | .onSnapshot _ e' snap seq            => if e' = e then some (.load { snap with seq }) else none
  | .onDelta _ e' side price d seq => if e' = e then some (.delta side price d seq) else none
  | _                                    => none

def ownOps (e : EntityId) (cs : List ManagerCall) : List BookOp := cs.filterMap (ownOp e)

/-- No delta makes a size of its market negative. -/
def NeverNegative (cs : List ManagerCall) : Prop :=
  ∀ e before snap later after, ownOps e cs = before ++ .load snap :: later ++ after →
    (∀ op ∈ later, ¬ op.IsLoad) → ∀ side price, 0 ≤ quoted snap later side price

section

variable {sid epoch seq : Nat} {evs : List StreamEvent} {cs : List ManagerCall} {e : EntityId}

lemma callsFrom_append (ev : StreamEvent) :
    callsFrom sid seq (evs ++ [ev]) =
      callsFrom sid seq evs ++ [ev.call sid (evs.foldl StreamEvent.next seq)] := by
  induction evs generalizing seq with
  | nil => rfl
  | cons ev' evs ih =>
    rw [List.cons_append, callsFrom, ih]
    rfl

/-- The calls before one of them are those of the earlier messages. -/
lemma callsFrom_split {before after : List ManagerCall} {c : ManagerCall}
    (h : callsFrom sid seq evs = before ++ c :: after) :
    ∃ earlier ev rest, evs = earlier ++ ev :: rest ∧ before = callsFrom sid seq earlier ∧
      c = ev.call sid (earlier.foldl StreamEvent.next seq) := by
  induction evs generalizing seq before with
  | nil => simp [callsFrom] at h
  | cons ev evs ih =>
    rw [callsFrom] at h
    cases before with
    | nil =>
      obtain ⟨hc, -⟩ := List.cons.inj h
      exact ⟨[], ev, evs, rfl, rfl, hc.symm⟩
    | cons c' before =>
      obtain ⟨rfl, hrest⟩ := List.cons.inj h
      obtain ⟨earlier, ev', rest, rfl, rfl, rfl⟩ := ih hrest
      exact ⟨ev :: earlier, ev', rest, rfl, rfl, rfl⟩

lemma NeverNegative.of_append {cs' : List ManagerCall} (h : NeverNegative (cs ++ cs')) :
    NeverNegative cs := by
  intro e before snap later after heq
  apply h e before snap later (after ++ ownOps e cs')
  rw [ownOps, List.filterMap_append, ← ownOps, heq]
  simp [ownOps]

lemma invalidate_notMem_ownOps : .invalidate ∉ ownOps e cs := by
  intro hmem
  obtain ⟨c, -, hc⟩ := List.mem_filterMap.1 hmem
  cases c with
  | onSnapshot sid e' snap seq =>
    rw [ownOp] at hc
    split_ifs at hc
    cases hc
  | onDelta sid e' side price d seq =>
    rw [ownOp] at hc
    split_ifs at hc
    cases hc
  | _ => cases hc

/-- The messages of a market since its latest snapshot never break its book. -/
lemma NeverNegative.unbroken (h : NeverNegative cs) {before later : List BookOp}
    {snap : SnapshotView} (hops : ownOps e cs = before ++ .load snap :: later)
    (hlater : ∀ op ∈ later, ¬ op.IsLoad) : Unbroken snap later := by
  constructor
  · intro hmem
    have hown : .invalidate ∈ ownOps e cs := by
      rw [hops]
      exact List.mem_append_right _ (List.mem_cons_of_mem _ hmem)
    exact invalidate_notMem_ownOps hown
  · rintro earlier ⟨after, rfl⟩
    apply h e before snap earlier after
    · rw [hops]
      simp
    · exact fun op hop => hlater op (List.mem_append_left _ hop)

/-! ### Runs -/

/-- The manager `m` has followed the calls `cs`, and its counter is at `seq`. -/
structure Following (sid epoch seq : Nat) (cs : List ManagerCall) (m : OrderBookManager) :
    Prop where
  counter  : (m.stream sid epoch).seen → (m.stream sid epoch).expected = seq
  books    : ∀ e, m.bookRef e = run OrderBook.apply .new (ownOps e cs)
  requests : m.requests = []
  resyncs  : m.resyncs = 0
  stale    : m.stale = 0

variable {m : OrderBookManager}

lemma Following.inOrder (h : Following sid epoch seq cs m) :
    m.verdict sid epoch seq = .first ∨ m.verdict sid epoch seq = .ok := by
  rw [verdict, SidStream.observe]
  cases hseen : (m.stream sid epoch).seen with
  | false => simp
  | true => simp [h.counter hseen]

lemma Following.counted (h : Following sid epoch seq cs m) :
    ((m.counted sid epoch seq).stream sid epoch).seen →
      ((m.counted sid epoch seq).stream sid epoch).expected = SidStream.nextSeq seq := by
  intro _
  have hnot : ((m.stream sid epoch).observe seq).1 ≠ .stale := by
    rcases h.inOrder with hfirst | hok
    · rw [show ((m.stream sid epoch).observe seq).1 = .first from hfirst]
      simp
    · rw [show ((m.stream sid epoch).observe seq).1 = .ok from hok]
      simp
  have hstream : (m.counted sid epoch seq).stream sid epoch =
      ((m.stream sid epoch).observe seq).2 := by
    simp [OrderBookManager.counted, setStream, stream]
  rw [hstream]
  exact (SidStream.observe_expected hnot).2

lemma ownOps_append (c : ManagerCall) :
    ownOps e (cs ++ [c]) = ownOps e cs ++ (ownOp e c).toList := by
  rw [ownOps, List.filterMap_append, ← ownOps]
  cases hc : ownOp e c <;> simp [hc]

/-- A valid book has a latest snapshot, and the sizes of the messages since. -/
lemma Following.sizeAt_add_nonneg (h : Following sid epoch seq cs m) {side : Side} {price d : Int}
    (hnever : NeverNegative (cs ++ [.onDelta sid e side price d seq]))
    (hvalid : (m.bookRef e).valid) : 0 ≤ (m.bookRef e).sizeAt side price + d := by
  have hown : ownOps e (cs ++ [.onDelta sid e side price d seq]) =
      ownOps e cs ++ [.delta side price d seq] := by
    rw [ownOps_append, ownOp, if_pos rfl, Option.toList_some]
  rw [h.books] at hvalid ⊢
  rcases OrderBook.latest_load (ownOps e cs) with hnone | ⟨before, snap, later, hops, hlater⟩
  · rw [OrderBook.run_not_valid hnone rfl] at hvalid
    cases hvalid
  · rw [hops, run_append, run_cons] at hvalid ⊢
    rw [show OrderBook.apply _ (.load snap) = OrderBook.loadSnapshot snap from rfl] at hvalid ⊢
    rw [(OrderBook.run_load snap hlater).2 hvalid]
    have hquoted := hnever e before snap (later ++ [.delta side price d seq]) []
      (by rw [hown, hops]; simp) (not_isLoad_append hlater id) side price
    rw [quoted_append, BookOp.amountAt, if_pos ⟨rfl, rfl⟩] at hquoted
    exact hquoted

/-- A delta of a market with a valid book is applied. -/
lemma Following.onDelta_eq (h : Following sid epoch seq cs m) {side : Side} {price d : Int}
    (hnever : NeverNegative (cs ++ [.onDelta sid e side price d seq]))
    (hvalid : (m.bookRef e).valid) :
    m.onDelta sid epoch e side price d seq =
      (.ok, (m.counted sid epoch seq).setBook e ((m.bookRef e).applyDelta side price d seq).2) := by
  have hnonneg := h.sizeAt_add_nonneg hnever hvalid
  rw [onDelta_of_inOrder h.inOrder,
    acceptDelta_of_nonneg (by simpa using hvalid) (by simpa using hnonneg)]
  rfl

/-- One message, counted in order, that asks for nothing. -/
lemma Following.message (h : Following sid epoch seq cs m) {c : ManagerCall}
    {m' : OrderBookManager} (hstreams : m'.streams = (m.counted sid epoch seq).streams)
    (hbooks : ∀ e, m'.bookRef e = run OrderBook.apply (m.bookRef e) (ownOp e c).toList)
    (hrequests : m'.requests = m.requests) (hresyncs : m'.resyncs = m.resyncs)
    (hstale : m'.stale = m.stale) :
    Following sid epoch (SidStream.nextSeq seq) (cs ++ [c]) m' where
  counter := by
    rw [stream, hstreams]
    exact h.counted
  books e := by rw [ownOps_append, run_append, ← h.books, hbooks]
  requests := hrequests.trans h.requests
  resyncs := hresyncs.trans h.resyncs
  stale := hstale.trans h.stale

lemma Following.bind (h : Following sid epoch seq cs m) (e : EntityId) :
    Following sid epoch seq cs (m.bind sid epoch e) where
  counter := by
    have hstream : (m.bind sid epoch e).stream sid epoch = (m.stream sid epoch).addMarket e := by
      simp [OrderBookManager.bind, setStream, stream]
    rw [hstream]
    exact h.counter
  books := h.books
  requests := h.requests
  resyncs := h.resyncs
  stale := h.stale

lemma Following.step (h : Following sid epoch seq cs m) (ev : StreamEvent)
    (hnever : NeverNegative (cs ++ [ev.call sid seq])) :
    Following sid epoch (ev.next seq) (cs ++ [ev.call sid seq])
      (m.handle epoch (ev.call sid seq)) := by
  match ev with
  | .bind e =>
    have hbound := h.bind e
    refine ⟨hbound.counter, ?_, hbound.requests, hbound.resyncs, hbound.stale⟩
    intro e'
    rw [ownOps_append]
    exact (hbound.books e').trans (by simp [ownOp, StreamEvent.call])
  | .message (.snapshot e yes no) =>
    apply (h.bind e).message
    · show (m.onSnapshot sid epoch e _ seq).streams = _
      rw [onSnapshot_eq]
      rfl
    · intro e'
      show (m.onSnapshot sid epoch e _ seq).bookRef e' = _
      rw [bookRef_onSnapshot, StreamEvent.call, ownOp, bookRef_bind]
      by_cases heq : e' = e
      · subst heq
        simp [OrderBook.apply]
      · simp [heq, Ne.symm heq]
    · rfl
    · rfl
    · rfl
  | .message (.delta e side price d) =>
    show Following sid epoch _ _ (m.onDelta sid epoch e side price d seq).2
    have hbooks : ∀ e', (m.onDelta sid epoch e side price d seq).2.bookRef e' =
        run OrderBook.apply (m.bookRef e') (ownOp e' (.onDelta sid e side price d seq)).toList := by
      intro e'
      rw [onDelta_of_inOrder h.inOrder, bookRef_acceptDelta, ownOp]
      by_cases heq : e' = e
      · subst heq
        simp [OrderBook.apply]
      · simp [heq, Ne.symm heq]
    cases hvalid : (m.bookRef e).valid with
    | true =>
      rw [h.onDelta_eq hnever hvalid] at hbooks ⊢
      exact h.message rfl hbooks rfl rfl rfl
    | false =>
      rw [onDelta_of_inOrder h.inOrder, acceptDelta_of_not_valid (by simpa using hvalid)]
        at hbooks ⊢
      exact h.message rfl hbooks rfl rfl rfl
  | .message .control =>
    show Following sid epoch _ _ (m.onControlSeq sid epoch seq).2
    rw [onControlSeq_of_not_gap (by rcases h.inOrder with hv | hv <;> simp [hv])]
    exact h.message rfl (fun _ => rfl) rfl rfl rfl

lemma following_run (epoch : Nat) {start : Nat} (h : NeverNegative (callsFrom sid start evs)) :
    Following sid epoch (evs.foldl StreamEvent.next start) (callsFrom sid start evs)
      (run (handle epoch) {} (callsFrom sid start evs)) := by
  induction evs using List.reverseRecOn with
  | nil =>
    refine ⟨?_, fun _ => rfl, rfl, rfl, rfl⟩
    intro hseen
    cases hseen
  | append_singleton evs ev ih =>
    rw [callsFrom_append] at h ⊢
    rw [run_append, List.foldl_append]
    exact (ih h.of_append).step ev h

/-- After its snapshot the book of a market stands as the fold of its own messages since. -/
lemma Following.book_eq (h : Following sid epoch seq cs m) (hnever : NeverNegative cs)
    {before later : List BookOp} {snap : SnapshotView}
    (hops : ownOps e cs = before ++ .load snap :: later) (hlater : ∀ op ∈ later, ¬ op.IsLoad) :
    m.books e = some (run OrderBook.apply (.loadSnapshot snap) later) ∧
      (run OrderBook.apply (.loadSnapshot snap) later).valid := by
  have hvalid := (OrderBook.run_load snap hlater).1.2 (hnever.unbroken hops hlater)
  have hbook : m.bookRef e = run OrderBook.apply (.loadSnapshot snap) later := by
    rw [h.books, hops, run_append, run_cons]
    rfl
  rw [← hbook] at hvalid ⊢
  exact ⟨books_of_bookRef_valid hvalid, hvalid⟩

lemma mem_ownOps_of_snapshot {snap : SnapshotView}
    (h : .onSnapshot sid e snap seq ∈ cs) : .load { snap with seq } ∈ ownOps e cs :=
  List.mem_filterMap.2 ⟨_, h, if_pos rfl⟩

/-- A subscription without a hole, numbered from anywhere and around the end of the numbers, in
    which no delta makes a size negative: nothing is asked for and nothing is late, each delta of a
    market that had its snapshot is applied, and the book of each such market is the fold of its
    latest snapshot and the later deltas that name it. -/
theorem contiguous_exact (sid epoch start : Nat) (evs : List StreamEvent)
    (hnever : NeverNegative (callsFrom sid start evs)) :
    (run (handle epoch) {} (callsFrom sid start evs)).requests = [] ∧
      (run (handle epoch) {} (callsFrom sid start evs)).resyncs = 0 ∧
      (run (handle epoch) {} (callsFrom sid start evs)).stale = 0 ∧
      (∀ before e side price d seq after,
        callsFrom sid start evs = before ++ .onDelta sid e side price d seq :: after →
        (∃ snap seq', .onSnapshot sid e snap seq' ∈ before) →
          ((run (handle epoch) {} before).answer epoch (.onDelta sid e side price d seq)).1 =
            some .ok) ∧
      ∀ e before snap later,
        ownOps e (callsFrom sid start evs) = before ++ .load snap :: later →
        (∀ op ∈ later, ¬ op.IsLoad) →
          (run (handle epoch) {} (callsFrom sid start evs)).books e =
            some (run OrderBook.apply (.loadSnapshot snap) later) ∧
          (run OrderBook.apply (.loadSnapshot snap) later).Shows (quoted snap later) := by
  have hend := following_run epoch hnever
  refine ⟨hend.requests, hend.resyncs, hend.stale, ?_, ?_⟩
  · rintro before e side price d seq after hsplit ⟨snap, seq', hmem⟩
    rw [hsplit, List.append_cons] at hnever
    obtain ⟨earlier, ev, rest, -, rfl, hc⟩ := callsFrom_split hsplit
    have hstart := hnever.of_append
    have hbefore := following_run epoch hstart.of_append
    -- The snapshot makes the book valid, and nothing since has broken it.
    have hvalid : ((run (handle epoch) {} (callsFrom sid start earlier)).bookRef e).valid := by
      rcases OrderBook.latest_load (ownOps e (callsFrom sid start earlier)) with
        hnone | ⟨before, latest, later, hops, hlater⟩
      · exact absurd trivial (hnone _ (mem_ownOps_of_snapshot hmem))
      · obtain ⟨hbook, hvalid⟩ := hbefore.book_eq hstart.of_append hops hlater
        rw [bookRef, hbook]
        exact hvalid
    have hseq : seq = earlier.foldl StreamEvent.next start := by
      cases ev with
      | bind e' => cases hc
      | message msg =>
        cases msg with
        | delta e' side' price' d' => exact (ManagerCall.onDelta.inj hc).2.2.2.2.2
        | _ => cases hc
    subst hseq
    rw [answer, hbefore.onDelta_eq hstart hvalid]
  · intro e before snap later hops hlater
    obtain ⟨hbook, hvalid⟩ := hend.book_eq hnever hops hlater
    refine ⟨hbook, ?_⟩
    rw [← (OrderBook.run_load snap hlater).2 hvalid]
    apply OrderBook.shows_sizeAt hvalid
    have hpos := OrderBook.positive_run (ownOps e (callsFrom sid start evs))
    rw [hops, run_append, run_cons] at hpos
    exact hpos

/-- The number after the last one is zero: a snapshot, a control response and a delta around it. -/
theorem contiguous_exact_around :
    (run (handle 1) {} (callsFrom 7 (2 ^ 64 - 2) [.bind 1, .message (.snapshot 1 [⟨4000, 9⟩] []),
      .message .control, .message (.delta 1 .yes 4000 (-5))])).books 1 =
      some ⟨⟨[(4000, 4)], by simp⟩, {}, 0, true⟩ := by
  have hcalls : callsFrom 7 (2 ^ 64 - 2) [.bind 1, .message (.snapshot 1 [⟨4000, 9⟩] []),
      .message .control, .message (.delta 1 .yes 4000 (-5))] =
      [.bind 7 1, .onSnapshot 7 1 ⟨[⟨4000, 9⟩], [], 2 ^ 64 - 2⟩ (2 ^ 64 - 2),
        .onControlSeq 7 (2 ^ 64 - 1), .onDelta 7 1 .yes 4000 (-5) 0] := rfl
  have hnever : NeverNegative (callsFrom 7 (2 ^ 64 - 2) [.bind 1,
      .message (.snapshot 1 [⟨4000, 9⟩] []), .message .control,
      .message (.delta 1 .yes 4000 (-5))]) := by
    intro e before snap later after hops hlater side price
    rw [hcalls, ownOps] at hops
    by_cases he : 1 = e
    · subst he
      simp only [List.filterMap_cons, List.filterMap_nil, ownOp, if_true] at hops
      match before, later with
      | [], [] =>
        rw [quoted_nil]
        exact lastPositive_nonneg _ _
      | [], op :: later =>
        obtain ⟨hsnap, hlater⟩ := List.cons.inj hops
        obtain ⟨rfl, hrest⟩ := List.cons.inj hlater
        obtain rfl : later = [] := (List.append_eq_nil_iff.1 hrest.symm).1
        cases hsnap
        by_cases hprice : price = 4000
        · subst hprice
          cases side <;> decide
        · cases side <;> simp [quoted, BookOp.amountAt, Ne.symm hprice, lastPositive_nonneg]
      | [op], later => simp at hops
      | op :: op' :: before, later => simp at hops
    · simp [List.filterMap_cons, ownOp, he] at hops
  have hexact := (contiguous_exact 7 1 (2 ^ 64 - 2) _ hnever).2.2.2.2 1 []
    ⟨[⟨4000, 9⟩], [], 2 ^ 64 - 2⟩ [.delta .yes 4000 (-5) 0] rfl (by simp [BookOp.IsLoad])
  rw [hexact.1]
  rfl

end

end HftBot
