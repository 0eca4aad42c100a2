import HftBot.Feed.Markers

/-!
# Overflow

The server tells a client whose buffer has overflowed by an error frame with code 25. Messages are
lost, but the frame names no subscription and no number. The client counts it; the books stay as
they are and the recording does not tell of the loss.
-/

namespace HftBot

open HftBot.Core Function

/-- The server reports that its buffer has overflowed. -/
def IsOverflow (parse : List Char → Option Json) (text : List Char) : Prop :=
  ∃ root, (parse text).bind Json.asObject = some root ∧
    Json.stringField root "type" = some "error".toList ∧
    (Json.objectField root "msg").bind (Json.int64Field · "code") = some 25

namespace WsClient

variable {parse : List Char → Option Json} {c : WsClient} {text : List Char}

/-- Whatever comes later, a market is tradeable only by its own snapshot since the frame. -/
def ClosedSince (parse : List Char → Option Json) (c : WsClient) (text : List Char) : Prop :=
  ∀ later e, (run (onMessage parse) (c.onText parse text) later).books.tradeable e →
    ∃ data sid seq yes no, .text data ∈ later ∧ route parse data = .snapshot sid seq e yes no

/-- The frame is treated as a loss: all books are closed and the recording tells of it. -/
structure TreatedAsLoss (parse : List Char → Option Json) (c : WsClient) (text : List Char) :
    Prop where
  closed : c.ClosedSince parse text
  marked : ∃ r ∈ c.newRecords parse text, r.marker = some "gap" ∨ r.marker = some "loss"

lemma route_of_overflow (h : IsOverflow parse text) : route parse text = .ignored := by
  obtain ⟨root, hroot, htype, -⟩ := h
  simp [route, hroot, htype]

/-- Nothing but the frame itself is recorded. -/
lemma not_marked_of_overflow (h : IsOverflow parse text) :
    ¬ ∃ r ∈ c.newRecords parse text, r.marker = some "gap" ∨ r.marker = some "loss" := by
  rintro ⟨r, hr, hmarker⟩
  have hmem := mem_newRecords hr (by rcases hmarker with hm | hm <;> simp [hm])
  rw [route_of_overflow h] at hmem
  cases hmem

lemma books_of_overflow (h : IsOverflow parse text) : (c.onText parse text).books = c.books := by
  rw [(onText_spec parse c text).2, route_of_overflow h]
  rfl

/-- In any run a market is tradeable because it was, or by its own snapshot in the run. -/
lemma tradeable_run {ms : List WsMessage} {e : EntityId}
    (h : (run (onMessage parse) c ms).books.tradeable e) :
    c.books.tradeable e ∨
      ∃ data sid seq yes no, .text data ∈ ms ∧ route parse data = .snapshot sid seq e yes no := by
  induction ms using List.reverseRecOn with
  | nil => exact .inl h
  | append_singleton ms msg ih =>
    rw [run_append, run_cons, run_nil] at h
    have hstep : (run (onMessage parse) c ms).books.tradeable e ∨
        ∃ data sid seq yes no,
          msg = .text data ∧ route parse data = .snapshot sid seq e yes no := by
      cases msg with
      | opened =>
        rw [onMessage, onOpen_books] at h
        exact .inl h
      | text data =>
        rw [onMessage, (onText_spec _ _ _).2] at h
        rcases OrderBookManager.tradeable_of_applyTo h with hbefore | ⟨sid, seq, yes, no, hroute⟩
        · exact .inl hbefore
        · exact .inr ⟨data, sid, seq, yes, no, rfl, hroute⟩
      | _ => exact .inl h
    rcases hstep with hbefore | ⟨data, sid, seq, yes, no, rfl, hroute⟩
    · rcases ih hbefore with hstart | ⟨data, sid, seq, yes, no, hmem, hroute⟩
      · exact .inl hstart
      · exact .inr ⟨data, sid, seq, yes, no, List.mem_append_left _ hmem, hroute⟩
    · exact .inr ⟨data, sid, seq, yes, no, by simp, hroute⟩

lemma closedSince_iff_of_overflow (h : IsOverflow parse text) :
    c.ClosedSince parse text ↔ ∀ e, ¬ c.books.tradeable e := by
  constructor
  · intro hclosed e htradeable
    rw [← books_of_overflow h] at htradeable
    obtain ⟨data, sid, seq, yes, no, hmem, -⟩ := hclosed [] e htradeable
    cases hmem
  · intro hnone later e htradeable
    rcases tradeable_run htradeable with hbefore | hsnapshot
    · rw [books_of_overflow h] at hbefore
      exact absurd hbefore (hnone e)
    · exact hsnapshot

/-- In no state of the client is an overflow treated as a loss: no marker is recorded, and the
    books are closed only if none was tradeable before. -/
theorem overflow_not_treated (parse : List Char → Option Json) (c : WsClient) (text : List Char)
    (h : IsOverflow parse text) :
    ¬ c.TreatedAsLoss parse text ∧
      (c.ClosedSince parse text ↔ ∀ e, ¬ c.books.tradeable e) :=
  ⟨fun htreated => not_marked_of_overflow h htreated.marked, closedSince_iff_of_overflow h⟩

end WsClient

def overflowText : List Char :=
  "\x7b\"type\":\"error\",\"msg\":\x7b\"code\":25\x7d\x7d".toList

def overflowFields : List (List Char × Json) :=
  [("type".toList, .str "error".toList), ("msg".toList, .obj [("code".toList, .num "25".toList)])]

/-- A parser as far as the snapshot and the overflow are concerned. -/
def parseOverflow (text : List Char) : Option Json :=
  if text = overflowText then some (.obj overflowFields) else parseSnapshot text

lemma isOverflow_overflowText : IsOverflow parseOverflow overflowText := by
  have hparse : parseOverflow overflowText = some (.obj overflowFields) := if_pos rfl
  refine ⟨overflowFields, ?_, by decide +kernel, by decide +kernel⟩
  rw [hparse]
  rfl

theorem overflow_not_treated_at_start :
    IsOverflow parseOverflow overflowText ∧
      ¬ WsClient.TreatedAsLoss parseOverflow {} overflowText :=
  ⟨isOverflow_overflowText,
    (WsClient.overflow_not_treated parseOverflow {} overflowText isOverflow_overflowText).1⟩

/-- The market of the snapshot is still tradeable after the overflow. -/
theorem overflow_still_tradeable :
    (clientAfter parseOverflow {} [.opened, .text snapshotText, .text overflowText]).books.tradeable
        (makeEntityId kSourceKalshi "A".toList) ∧
      ¬ (clientAfter parseOverflow {} [.opened, .text snapshotText]).TreatedAsLoss parseOverflow
        overflowText := by
  refine ⟨by decide +kernel, fun htreated => ?_⟩
  exact WsClient.not_marked_of_overflow isOverflow_overflowText htreated.marked

end HftBot
