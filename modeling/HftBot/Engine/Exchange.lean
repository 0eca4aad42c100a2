import Mathlib.Algebra.Order.Group.Multiset
import Mathlib.Data.List.Perm.Subperm
import HftBot.Engine.OrderAccounting
import HftBot.Engine.OrderBody

/-!
# What the exchange sees

The orders that an engine sends, over all interleavings of its threads: each is one that a strategy
submitted and that passed the checks, none is sent twice, its body asks for just this order, and its
id is its own.
-/

namespace HftBot.Tradingd

open HftBot.Core HftBot.Core.Utf8 HftBot.Core.JsonText HftBot.Wire

variable {ι : Type} {capacity : Nat} {s : Tradingd ι capacity}

/-- The body that `process_order` sends. -/
def Taken.body (t : Taken) : Bytes := orderJson t.msg.intent false

/-! ### Nothing is sent twice -/

/-- The order that a worker may still send. -/
def Worker.msgs (w : Worker) : Multiset OrderMsg := ↑(w.taken?.toList.map (·.msg))

lemma Worker.msgs_le {w w' : Worker} (h : ∀ t ∈ w.taken?, t ∈ w'.taken?) : w.msgs ≤ w'.msgs := by
  cases hw : w.taken? with
  | none =>
    rw [Worker.msgs, hw]
    exact Multiset.zero_le _
  | some t =>
    have hw' : w'.taken? = some t := h t hw
    simp [Worker.msgs, hw, hw']

/-- What was sent and what the workers hold is part of what was taken from the queue. -/
structure SentOnce [Fintype ι] (s : Tradingd ι capacity) : Prop where
  le : ↑(s.transmitted.map (·.msg)) + ∑ i, (s.workers i).msgs ≤
    (↑(s.processed.map (·.2)) : Multiset OrderMsg)

variable [Fintype ι]

lemma SentOnce.of_eq {s' : Tradingd ι capacity} (h : SentOnce s) (hworkers : s'.workers = s.workers)
    (htransmitted : s'.transmitted = s.transmitted) (hprocessed : s'.processed = s.processed) :
    SentOnce s' := by
  constructor
  rw [hworkers, htransmitted, hprocessed]
  exact h.le

variable [DecidableEq ι]

/-- A worker may send what it holds, and hold what it takes from the queue. -/
lemma SentOnce.move {s' : Tradingd ι capacity} (h : SentOnce s) (i : ι) (w : Worker)
    (sent queued : List OrderMsg) (hworkers : s'.workers = Function.update s.workers i w)
    (htransmitted : s'.transmitted.map (·.msg) = s.transmitted.map (·.msg) ++ sent)
    (hprocessed : s'.processed.map (·.2) = s.processed.map (·.2) ++ queued)
    (hmsgs : ↑sent + w.msgs ≤ (s.workers i).msgs + ↑queued) : SentOnce s' := by
  constructor
  rw [hworkers, htransmitted, hprocessed, ← Multiset.coe_add, ← Multiset.coe_add]
  apply le_of_add_le_add_right (a := (s.workers i).msgs)
  rw [add_assoc, sum_update_add Worker.msgs s.workers i w, add_add_add_comm,
    add_assoc _ (queued : Multiset OrderMsg), add_comm (queued : Multiset OrderMsg)]
  exact add_le_add h.le hmsgs

lemma SentOnce.workerStep (h : SentOnce s) (i : ι) (answers : Answers) :
    SentOnce (s.workerStep i answers) := by
  rcases workerStep_cases s i answers with ⟨w, heq, -, -, htaken, -⟩ | ⟨m, orders, hw, -, heq⟩ |
    ⟨t, kind, hw, heq⟩ | ⟨kind, hw, heq⟩
  · apply h.move i w [] [] <;> simp [heq, setWorker, Worker.msgs_le htaken]
  · apply h.move i (.entering ⟨m, s.now, s.deadline?⟩) [] [m] <;>
      simp [heq, hw, setWorker, Worker.msgs, Worker.taken?]
  · apply h.move i (.counting kind) [t.msg] [] <;>
      simp [heq, hw, setWorker, Worker.msgs, Worker.taken?]
  · apply h.move i .polling [] [] <;>
      simp [heq, hw, setWorker, count, Worker.msgs, Worker.taken?]

lemma SentOnce.step (h : SentOnce s) (a : Action ι) : SentOnce (s.step a) := by
  cases a with
  | tick ns => exact h.of_eq rfl rfl rfl
  | signal => exact h.of_eq rfl rfl rfl
  | worker i answers => exact h.workerStep i answers
  | shutdown drainMs =>
    simp only [Tradingd.step]
    split_ifs
    · exact h.of_eq rfl rfl rfl
    · exact h
  | main =>
    simp only [Tradingd.step, mainStep]
    split
    · exact h
    · exact h.of_eq rfl rfl rfl
    · exact h.of_eq rfl rfl rfl
    · split_ifs
      · exact h.of_eq rfl rfl rfl
      · exact h
    · exact h
  | submit id p wallNs =>
    simp only [Tradingd.step]
    split_ifs
    · obtain ⟨s', rfl, ⟨orders, m, heq, -⟩ | ⟨kind, heq⟩⟩ := submit_cases s id p wallNs
      · rw [heq]
        exact h.of_eq rfl rfl rfl
      · rw [heq]
        exact h.of_eq rfl rfl rfl
    · exact h

/-! ### Only what passed the checks -/

omit [DecidableEq ι] in
/-- Every order that was sent has been queued, as a different one for each. -/
lemma SentOnce.subperm (h : SentOnce s) (hordered : Ordered s) :
    (s.transmitted.map (·.msg)).Subperm s.accepted := by
  have hsent : (↑(s.transmitted.map (·.msg)) : Multiset OrderMsg) ≤ ↑(s.processed.map (·.2)) :=
    le_trans (Multiset.le_add_right _ _) h.le
  refine (Multiset.coe_le.1 hsent).trans (List.Sublist.subperm ?_)
  rw [← hordered.fifo]
  exact List.sublist_append_left _ _

/-- A body names the order it is for. -/
def Names (body : Bytes) (p : ExecPayload) : Prop :=
  ∃ members, AsksFor body p members ∧
    field members "client_order_id" = some (.str (clientOrderId p))

end HftBot.Tradingd
