import HftBot.Feed.BookRefinement
import HftBot.Feed.ManagerCalls
import HftBot.Feed.Reconnect

/-!
# Deltas from other streams

A frame without a subscription or a number is judged under zero, streams are made on first use, and
the first number of a stream is always in order. So a delta reaches a valid book through any stream
that takes its number, bound or not. It has no effect exactly if its number is late or jumps, its
book is closed, or it moves nothing.
-/

namespace HftBot

open HftBot.Core Function

/-! ### Frames -/

/-- The subscription a frame carries. -/
def frameSid (parse : List Char → Option Json) (text : List Char) : Option Nat :=
  ((parse text).bind Json.asObject).bind (Json.uint64Field · "sid")

/-- The number a frame carries. -/
def frameSeq (parse : List Char → Option Json) (text : List Char) : Option Nat :=
  ((parse text).bind Json.asObject).bind (Json.uint64Field · "seq")

namespace WsClient

variable {parse : List Char → Option Json} {c : WsClient} {text : List Char}

/-- Some level of the market's book is put in, changed or erased by the frame. -/
def ChangesLevels (parse : List Char → Option Json) (c : WsClient) (text : List Char)
    (e : EntityId) : Prop :=
  ∃ side, ((c.onText parse text).books.bookRef e).side side ≠ (c.books.bookRef e).side side

/-- The frame carries a number and the subscription that the market is bound to. -/
def FromBound (parse : List Char → Option Json) (c : WsClient) (text : List Char) (e : EntityId) :
    Prop :=
  (frameSeq parse text).isSome ∧ ∃ sid, frameSid parse text = some sid ∧ c.books.sidOf e = some sid

/-- A delta frame changes the levels of bound markets only. -/
def BoundOnly (parse : List Char → Option Json) (c : WsClient) : WsMessage → Prop
  | .text text => ∀ sid seq e side price d, route parse text = .delta sid seq e side price d →
    ∀ e', c.ChangesLevels parse text e' → c.FromBound parse text e'
  | _          => True

/-- A delta frame comes from the subscription its market is bound to, or it has no effect: its
stream finds its number late or jumping, the book is closed, or nothing is moved or could be. -/
def BoundOrIdle (parse : List Char → Option Json) (c : WsClient) : WsMessage → Prop
  | .text text => ∀ sid seq e side price d, route parse text = .delta sid seq e side price d →
    c.FromBound parse text e ∨
      c.books.verdict sid c.epoch seq = .gap ∨ c.books.verdict sid c.epoch seq = .stale ∨
      (c.books.bookRef e).valid = false ∨ d = 0 ∨ (c.books.bookRef e).sizeAt side price + d < 0
  | _          => True

end WsClient

/-! ### One delta -/

namespace OrderBookManager

variable {m : OrderBookManager} {sid epoch seq : Nat} {e : EntityId} {side : Side} {price d : Int}

/-- All books of the manager store positive sizes only. -/
def Positive (m : OrderBookManager) : Prop := ∀ e, (m.bookRef e).Positive

lemma Positive.lost (h : m.Positive) : (m.lost sid epoch seq).Positive := by
  intro e
  rw [bookRef_lost]
  split_ifs
  · exact h e
  · exact h e

lemma Positive.onDelta (h : m.Positive) : (m.onDelta sid epoch e side price d seq).2.Positive := by
  rcases onDelta_cases m sid epoch seq e side price d with
    ⟨-, hgap⟩ | ⟨-, hstale⟩ | ⟨-, haccept⟩
  · rw [hgap]
    exact h.lost
  · rw [hstale]
    exact h
  · rw [haccept]
    intro e'
    rw [bookRef_acceptDelta]
    split_ifs
    · exact (h e).applyDelta
    · exact h e'

lemma Positive.applyTo (h : m.Positive) (r : Routed) : (r.applyTo epoch m).Positive := by
  cases r with
  | ignored => exact h
  | control sid seq =>
    rw [Routed.applyTo]
    rcases onControlSeq_cases m sid epoch seq with ⟨-, hgap⟩ | ⟨-, hcounted⟩
    · rw [hgap]
      exact h.lost
    · rw [hcounted]
      exact h
  | snapshot sid seq e yes no =>
    intro e'
    rw [Routed.applyTo, bookRef_onSnapshot]
    split_ifs
    · exact OrderBook.Positive.apply (h e') (.load _)
    · exact h e'
  | delta sid seq e side price d => exact h.onDelta
  | forget e =>
    intro e'
    rw [Routed.applyTo, bookRef_forget]
    split_ifs
    · exact OrderBook.positive_run []
    · exact h e'

/-- The delta is applied and moves a level. -/
def Moves (m : OrderBookManager) (sid epoch seq : Nat) (e : EntityId) (side : Side)
    (price d : Int) : Prop :=
  m.verdict sid epoch seq ≠ .gap ∧ m.verdict sid epoch seq ≠ .stale ∧ (m.bookRef e).valid ∧
    d ≠ 0 ∧ 0 ≤ (m.bookRef e).sizeAt side price + d

lemma sizeAt_applyDelta_ne_iff {b : OrderBook} :
    (b.applyDelta side price d seq).2.sizeAt ≠ b.sizeAt ↔
      b.valid ∧ d ≠ 0 ∧ 0 ≤ b.sizeAt side price + d := by
  cases hb : b.valid with
  | false => simp [OrderBook.applyDelta_of_not_valid hb]
  | true =>
    rcases lt_or_ge (b.sizeAt side price + d) 0 with hneg | hnonneg
    · rw [OrderBook.applyDelta_of_neg hb hneg]
      exact iff_of_false (fun h => h rfl) fun h => absurd h.2.2 (not_le.2 hneg)
    · rw [OrderBook.sizeAt_applyDelta hb (OrderBook.applyDelta_of_nonneg hb hnonneg).2]
      simp [update_eq_self_iff, hnonneg]

/-- A delta changes the sizes of its own market, if it moves them, and of no other. -/
lemma sizeAt_onDelta_ne_iff (e' : EntityId) :
    ((m.onDelta sid epoch e side price d seq).2.bookRef e').sizeAt ≠ (m.bookRef e').sizeAt ↔
      e' = e ∧ m.Moves sid epoch seq e side price d := by
  rw [Moves]
  rcases onDelta_cases m sid epoch seq e side price d with
    ⟨hverdict, hgap⟩ | ⟨hverdict, hstale⟩ | ⟨horder, haccept⟩
  · rw [hgap, bookRef_lost, hverdict]
    refine iff_of_false ?_ (by simp)
    split_ifs <;> exact fun h => h (by funext side' price'; cases side' <;> rfl)
  · rw [hstale, hverdict]
    exact iff_of_false (fun h => h rfl) (by simp)
  · have hin : m.verdict sid epoch seq ≠ .gap ∧ m.verdict sid epoch seq ≠ .stale := by
      rcases horder with h | h <;> simp [h]
    rw [haccept, bookRef_acceptDelta]
    by_cases heq : e' = e
    · subst heq
      rw [if_pos rfl, bookRef_counted, sizeAt_applyDelta_ne_iff]
      simp [hin]
    · simp [heq]

end OrderBookManager

/-! ### Runs -/

namespace WsClient

variable {parse : List Char → Option Json} {c : WsClient} {text : List Char}

lemma positive_onMessage (h : c.books.Positive) (msg : WsMessage) :
    (c.onMessage parse msg).books.Positive := by
  cases msg with
  | opened =>
    rw [onMessage, onOpen_books]
    exact h
  | text data =>
    rw [onMessage, (onText_spec _ _ _).2]
    exact h.applyTo _
  | closed => exact h
  | error => exact h
  | ping => exact h
  | pong => exact h

lemma changesLevels_iff {sid seq : Nat} {e : EntityId} {side : Side} {price d : Int}
    (h : c.books.Positive) (hroute : route parse text = .delta sid seq e side price d)
    (e' : EntityId) :
    c.ChangesLevels parse text e' ↔ e' = e ∧ c.books.Moves sid c.epoch seq e side price d := by
  have hbooks : (c.onText parse text).books =
      (c.books.onDelta sid c.epoch e side price d seq).2 := by
    rw [(onText_spec _ _ _).2, hroute, Routed.applyTo]
  rw [← OrderBookManager.sizeAt_onDelta_ne_iff, ChangesLevels, hbooks, ← not_forall_not]
  simp only [not_not]
  rw [OrderBook.side_eq_iff (h.onDelta e') (h e')]

lemma boundOnly_iff_boundOrIdle (h : c.books.Positive) (msg : WsMessage) :
    c.BoundOnly parse msg ↔ c.BoundOrIdle parse msg := by
  cases msg with
  | text text =>
    rw [BoundOnly, BoundOrIdle]
    refine forall_congr' fun sid => forall_congr' fun seq => forall_congr' fun e =>
      forall_congr' fun side => forall_congr' fun price => forall_congr' fun d =>
      forall_congr' fun hroute => ?_
    simp only [changesLevels_iff h hroute]
    constructor
    · intro hbound
      by_cases hmoves : c.books.Moves sid c.epoch seq e side price d
      · exact .inl (hbound e ⟨rfl, hmoves⟩)
      · right
        by_contra hnot
        simp only [not_or, Bool.not_eq_false, not_lt] at hnot
        exact hmoves hnot
    · rintro hidle e' ⟨rfl, hgap, hstale, hvalid, hd, hnonneg⟩
      rcases hidle with hbound | hv | hv | hv | hv | hv
      · exact hbound
      · exact absurd hv hgap
      · exact absurd hv hstale
      · rw [hv] at hvalid
        cases hvalid
      · exact absurd hv hd
      · exact absurd hv (not_lt.2 hnonneg)
  | _ => exact Iff.rfl

lemma along_boundOnly_iff (h : c.books.Positive) (ms : List WsMessage) :
    Along (onMessage parse) (BoundOnly parse) c ms ↔
      Along (onMessage parse) (BoundOrIdle parse) c ms := by
  refine along_congr (P := fun c => c.books.Positive) (B := fun _ _ => True) ?_ ?_ h
    (along_of_forall (by simp))
  · exact fun _ msg hpos _ => positive_onMessage hpos msg
  · exact fun _ msg hpos _ => boundOnly_iff_boundOrIdle hpos msg

/-- In every run of a client that starts with an empty manager, the delta frames change the levels
    of bound markets only iff each of them is bound or has no effect. -/
theorem bound_only_iff (parse : List Char → Option Json) (c : WsClient) (ms : List WsMessage) :
    Along (onMessage parse) (BoundOnly parse) { c with books := {} } ms ↔
      Along (onMessage parse) (BoundOrIdle parse) { c with books := {} } ms := by
  apply along_boundOnly_iff
  intro e
  exact OrderBook.positive_run []

end WsClient

/-! ### A delta without a subscription -/

/-- A delta of market A that carries neither a subscription nor a number. -/
def strayText : List Char :=
  ("\x7b\"type\":\"orderbook_delta\",\"msg\":\x7b\"market_ticker\":\"A\"," ++
    "\"price_dollars\":\"0.4000\",\"delta_fp\":\"1.00\",\"side\":\"yes\"\x7d\x7d").toList

def strayJson : Json :=
  .obj [("type".toList, .str "orderbook_delta".toList),
    ("msg".toList, .obj [("market_ticker".toList, .str "A".toList),
      ("price_dollars".toList, .str "0.4000".toList), ("delta_fp".toList, .str "1.00".toList),
      ("side".toList, .str "yes".toList)])]

/-- A parser as far as the snapshot and the stray delta are concerned. -/
def parseStray (text : List Char) : Option Json :=
  if text = snapshotText then some snapshotJson
  else if text = strayText then some strayJson
  else none

/-- Bound to subscription 1, the book takes the delta through the stream of subscription 0. -/
theorem bound_only_stray_delta :
    ¬ Along (WsClient.onMessage parseStray) (WsClient.BoundOnly parseStray) {}
      [.opened, .text snapshotText, .text strayText] := by
  rintro ⟨-, -, hstray, -⟩
  have hframe : route parseStray strayText =
      .delta 0 0 (makeEntityId kSourceKalshi "A".toList) .yes 4000 100 ∧
      frameSid parseStray strayText = none := by
    decide +kernel
  obtain ⟨-, sid, hsome, -⟩ := hstray _ _ _ _ _ _ hframe.1 (makeEntityId kSourceKalshi "A".toList)
    ⟨.yes, by decide +kernel⟩
  rw [hframe.2] at hsome
  cases hsome

end HftBot
