import HftBot.Shadow.Accounting
import Mathlib.Data.List.TakeWhile

/-!
# Markouts

A fill is marked out against the last trade of its market once a print comes `horizonNs` or more
after it. The ledger keeps sums only; `Marking` runs an engine and also keeps the single marks, in
the order in which `on_trade` makes them. `marking_faithful` says that the marks and the queue hold
every fill once and that the sums are those of the marks.
-/

namespace HftBot

open HftBot.Core Function

lemma eq_false_of_dropWhile_eq_cons {α : Type*} {q : α → Bool} {l as : List α} {a : α}
    (h : l.dropWhile q = a :: as) : q a = false := by
  have hno := List.head?_dropWhile_not q l
  rw [h] at hno
  exact hno

/-- The entry that a fill leaves in the queue of the ledger. -/
def Fill.markout (f : Fill) : Markout := ⟨f.market, f.priceCents, f.qty, f.buyYes, f.tsNs⟩

/-- A fill marked out against the price `ref`; `none` when its market has no trade. -/
structure Mark where
  markout : Markout
  ref     : Option Int
deriving DecidableEq, Repr

namespace Mark

/-- Signed drift of all contracts of the fill. -/
def drift (k : Mark) : Int :=
  k.ref.elim 0 fun ref =>
    (if k.markout.buyYes then ref - k.markout.priceCents else k.markout.priceCents - ref) *
      k.markout.qty

def contracts (k : Mark) : Int := k.ref.elim 0 fun _ => k.markout.qty

end Mark

/-! ### The loop of the ledger -/

namespace Ledger

/-- The last trade of market `m`. -/
def lastTrade (l : Ledger) (m : Nat) : Option Int := l.books[m]?.map (·.lastTradeCents)

/-- The price that a fill is marked out against. -/
def refOf (l : Ledger) (m : Markout) : Option Int := (l.lastTrade m.market).filter (0 ≤ ·)

def due (l : Ledger) (tsNs : Nat) (m : Markout) : Bool := addNs m.fillTsNs l.horizonNs ≤ tsNs

/-- The first line of `on_trade`. -/
def setLastTrade (l : Ledger) (mkt : Nat) (priceCents : Int) : Ledger :=
  { l with books := l.books.modify mkt fun b => { b with lastTradeCents := priceCents } }

@[simp] lemma setLastTrade_pendingMarkouts (l : Ledger) (mkt : Nat) (priceCents : Int) :
    (l.setLastTrade mkt priceCents).pendingMarkouts = l.pendingMarkouts := rfl

@[simp] lemma setLastTrade_horizonNs (l : Ledger) (mkt : Nat) (priceCents : Int) :
    (l.setLastTrade mkt priceCents).horizonNs = l.horizonNs := rfl

@[simp] lemma setLastTrade_markoutSum (l : Ledger) (mkt : Nat) (priceCents : Int) :
    (l.setLastTrade mkt priceCents).markoutSum = l.markoutSum := rfl

@[simp] lemma setLastTrade_markoutN (l : Ledger) (mkt : Nat) (priceCents : Int) :
    (l.setLastTrade mkt priceCents).markoutN = l.markoutN := rfl

/-- The marks of the loop of `on_trade`. -/
def marks (l : Ledger) (tsNs : Nat) (ms : List Markout) : List Mark :=
  (ms.takeWhile (l.due tsNs)).map fun m => ⟨m, l.refOf m⟩

/-- One mark leaves the books and the horizon alone and adds its drift. -/
lemma markOut_spec (l : Ledger) (m : Markout) :
    (l.markOut m).books = l.books ∧ (l.markOut m).horizonNs = l.horizonNs ∧
      (l.markOut m).markoutSum = l.markoutSum + Mark.drift ⟨m, l.refOf m⟩ ∧
      (l.markOut m).markoutN = l.markoutN + Mark.contracts ⟨m, l.refOf m⟩ := by
  simp only [markOut, refOf, lastTrade]
  cases hb : l.books[m.market]? with
  | none => simp [Mark.drift, Mark.contracts]
  | some b =>
    by_cases hneg : b.lastTradeCents < 0
    · simp [Mark.drift, Mark.contracts, Option.filter, hneg, Int.not_le.mpr hneg]
    · simp [Mark.drift, Mark.contracts, Option.filter, hneg, not_lt.mp hneg]

/-- The loop makes its marks, and the fills that are not due stay. -/
lemma evalMarkouts_marks (tsNs : Nat) (ms : List Markout) (l : Ledger) :
    (evalMarkouts tsNs ms l).pendingMarkouts = ms.dropWhile (l.due tsNs) ∧
      (evalMarkouts tsNs ms l).horizonNs = l.horizonNs ∧
      (evalMarkouts tsNs ms l).markoutSum =
        l.markoutSum + ((l.marks tsNs ms).map Mark.drift).sum ∧
      (evalMarkouts tsNs ms l).markoutN =
        l.markoutN + ((l.marks tsNs ms).map Mark.contracts).sum := by
  induction ms generalizing l with
  | nil => simp [evalMarkouts, marks]
  | cons m ms ih =>
    rw [evalMarkouts]
    split_ifs with hdue
    · obtain ⟨hbooks, hhorizon, hsum, hn⟩ := l.markOut_spec m
      obtain ⟨ihp, ihh, ihs, ihn⟩ := ih (l.markOut m)
      -- a mark changes neither what is due nor a reference
      have hd : (l.markOut m).due tsNs = l.due tsNs := by
        funext m'
        rw [due, due, hhorizon]
      have hr : (l.markOut m).refOf = l.refOf := by
        funext m'
        rw [refOf, refOf, lastTrade, lastTrade, hbooks]
      have hhead : l.due tsNs m = true := by simpa [due] using hdue
      have hmarks : l.marks tsNs (m :: ms) = ⟨m, l.refOf m⟩ :: (l.markOut m).marks tsNs ms := by
        rw [marks, List.takeWhile_cons_of_pos hhead, List.map_cons, marks, hd, hr]
      refine ⟨?_, ihh.trans hhorizon, ?_, ?_⟩
      · rw [ihp, hd, List.dropWhile_cons_of_pos hhead]
      · rw [ihs, hsum, hmarks, List.map_cons, List.sum_cons, Int.add_assoc]
      · rw [ihn, hn, hmarks, List.map_cons, List.sum_cons, Int.add_assoc]
    · have hhead : ¬ l.due tsNs m = true := by simpa [due] using hdue
      simp [marks, hhead]

lemma foldl_onFill_pending (more : List Fill) (l : Ledger) :
    (more.foldl onFill l).pendingMarkouts = l.pendingMarkouts ++ more.map Fill.markout := by
  induction more generalizing l with
  | nil => simp
  | cons f more ih =>
    rw [List.foldl_cons, ih, List.map_cons]
    simp [onFill, Fill.markout]

@[simp] lemma foldl_onFill_horizonNs (more : List Fill) (l : Ledger) :
    (more.foldl onFill l).horizonNs = l.horizonNs := by
  induction more generalizing l with
  | nil => rfl
  | cons f more ih => exact ih (l.onFill f)

lemma foldl_onFill_sums (more : List Fill) (l : Ledger) :
    (more.foldl onFill l).markoutSum = l.markoutSum ∧
      (more.foldl onFill l).markoutN = l.markoutN := by
  induction more generalizing l with
  | nil => exact ⟨rfl, rfl⟩
  | cons f more ih => exact ih (l.onFill f)

/-- A change of one book that keeps its last trade keeps them all. -/
lemma lastTrade_modify {l l' : Ledger} {mkt : Nat} {g : MarketBook → MarketBook}
    (hl : l'.books = l.books.modify mkt g)
    (hg : ∀ b, (g b).lastTradeCents = b.lastTradeCents) (m : Nat) :
    l'.lastTrade m = l.lastTrade m := by
  rw [lastTrade, lastTrade, hl, List.getElem?_modify]
  cases l.books[m]? with
  | none => rfl
  | some b =>
    by_cases hm : mkt = m
    · simp [hm, hg]
    · simp [hm]

lemma onFill_lastTrade (l : Ledger) (f : Fill) (m : Nat) :
    (l.onFill f).lastTrade m = l.lastTrade m := by
  apply lastTrade_modify rfl
  intro b
  simp only [bookFill]
  split_ifs <;> rfl

@[simp] lemma foldl_onFill_lastTrade (more : List Fill) (l : Ledger) (m : Nat) :
    (more.foldl onFill l).lastTrade m = l.lastTrade m := by
  induction more generalizing l with
  | nil => rfl
  | cons f more ih => exact (ih (l.onFill f)).trans (onFill_lastTrade l f m)

lemma setLastTrade_lastTrade (l : Ledger) (mkt : Nat) (priceCents : Int) (m : Nat) :
    (l.setLastTrade mkt priceCents).lastTrade m =
      if mkt = m then (l.lastTrade m).map fun _ => priceCents else l.lastTrade m := by
  simp only [lastTrade, setLastTrade, List.getElem?_modify]
  cases l.books[m]? with
  | none => simp
  | some b => by_cases hm : mkt = m <;> simp [hm]

end Ledger

/-! ### Markings -/

/-- The ledger that the loop of `on_trade` runs on: the fills of the print are booked and its
price is written. -/
def ShadowEngine.tradeLedger (e : ShadowEngine) (p : Print) : Ledger :=
  ((e.onTrade p).2.foldl Ledger.onFill e.ledger).setLastTrade p.market p.price

/-- The marks of one operation. -/
def ShadowEngine.marks (e : ShadowEngine) : Op → List Mark
  | .trade p => (e.tradeLedger p).marks p.tsNs (e.tradeLedger p).pendingMarkouts
  | _        => []

/-- A history with every mark of its ledger. -/
structure Marking extends History where
  marks : List Mark := []

def Marking.step (k : Marking) (op : Op) : Marking where
  toHistory := k.toHistory.step op
  marks := k.marks ++ k.engine.marks op

/-- The marking of a schedule on a fresh engine. -/
def ShadowEngine.marking (fees : FeeSchedule) (track : Track) (speed : SpeedParams)
    (horizonNs : Nat) (ops : List Op) : Marking :=
  run Marking.step { engine := .new fees track speed horizonNs } ops

namespace ShadowEngine

lemma step_ledger_trade (e : ShadowEngine) (p : Print) :
    (e.step (.trade p)).1.ledger =
      Ledger.evalMarkouts p.tsNs (e.tradeLedger p).pendingMarkouts (e.tradeLedger p) :=
  step_ledger e (.trade p)

lemma tradeLedger_pendingMarkouts (e : ShadowEngine) (p : Print) :
    (e.tradeLedger p).pendingMarkouts =
      e.ledger.pendingMarkouts ++ (e.onTrade p).2.map Fill.markout := by
  rw [tradeLedger, Ledger.setLastTrade_pendingMarkouts, Ledger.foldl_onFill_pending]

lemma tradeLedger_horizonNs (e : ShadowEngine) (p : Print) :
    (e.tradeLedger p).horizonNs = e.ledger.horizonNs := by
  rw [tradeLedger, Ledger.setLastTrade_horizonNs, Ledger.foldl_onFill_horizonNs]

lemma tradeLedger_sums (e : ShadowEngine) (p : Print) :
    (e.tradeLedger p).markoutSum = e.ledger.markoutSum ∧
      (e.tradeLedger p).markoutN = e.ledger.markoutN := by
  rw [tradeLedger, Ledger.setLastTrade_markoutSum, Ledger.setLastTrade_markoutN]
  exact Ledger.foldl_onFill_sums _ _

/-- Where a mark comes from. -/
lemma mem_marks {e : ShadowEngine} {op : Op} {mk : Mark} (h : mk ∈ e.marks op) :
    ∃ p, op = .trade p ∧ addNs mk.markout.fillTsNs e.ledger.horizonNs ≤ p.tsNs ∧
      mk.ref = (e.tradeLedger p).refOf mk.markout := by
  cases op with
  | trade p =>
    simp only [marks, Ledger.marks, List.mem_map] at h
    obtain ⟨m, hm, rfl⟩ := h
    have hdue := List.mem_takeWhile_imp hm
    rw [Ledger.due, tradeLedger_horizonNs, decide_eq_true_eq] at hdue
    exact ⟨p, rfl, hdue, rfl⟩
  | _ => cases h

/-- The front of the queue after a print is not due. -/
lemma not_due_of_head_pending {e : ShadowEngine} {p : Print} {m : Markout} {ms : List Markout}
    (h : (e.step (.trade p)).1.ledger.pendingMarkouts = m :: ms) :
    p.tsNs < addNs m.fillTsNs e.ledger.horizonNs := by
  rw [step_ledger_trade, (Ledger.evalMarkouts_marks _ _ _).1] at h
  have hno := eq_false_of_dropWhile_eq_cons h
  rw [Ledger.due, tradeLedger_horizonNs, decide_eq_false_iff_not, not_le] at hno
  exact hno

/-- The marks of an operation come off the queue, and the sums of the ledger grow by theirs. -/
lemma step_markouts (e : ShadowEngine) (op : Op) :
    (e.marks op).map (·.markout) ++ (e.step op).1.ledger.pendingMarkouts =
        e.ledger.pendingMarkouts ++ (e.step op).2.map Fill.markout ∧
      (e.step op).1.ledger.horizonNs = e.ledger.horizonNs ∧
      (e.step op).1.ledger.markoutSum =
        e.ledger.markoutSum + ((e.marks op).map Mark.drift).sum ∧
      (e.step op).1.ledger.markoutN =
        e.ledger.markoutN + ((e.marks op).map Mark.contracts).sum := by
  cases op with
  | market ticker family =>
    rw [step_ledger]
    simp only [Ledger.marketIndex, marks, step]
    split <;> simp
  | place mkt priceCents count buyYes ts depth =>
    rw [step_ledger]
    simp only [marks, step]
    split_ifs <;> simp [Ledger.onOrderPlaced]
  | trade p =>
    obtain ⟨hpend, hhorizon, hsum, hn⟩ := Ledger.evalMarkouts_marks p.tsNs
      (e.tradeLedger p).pendingMarkouts (e.tradeLedger p)
    obtain ⟨hfs, hfn⟩ := e.tradeLedger_sums p
    rw [step_ledger_trade, hpend, hhorizon, hsum, hn, hfs, hfn, tradeLedger_horizonNs]
    refine ⟨?_, rfl, rfl, rfl⟩
    have hmarks : (e.marks (.trade p)).map (·.markout) =
        (e.tradeLedger p).pendingMarkouts.takeWhile ((e.tradeLedger p).due p.tsNs) := by
      simp [marks, Ledger.marks, comp_def]
    rw [hmarks, List.takeWhile_append_dropWhile, tradeLedger_pendingMarkouts, step]
  | _ =>
    rw [step_ledger]
    simp [marks, step, Ledger.onSettle]

end ShadowEngine

namespace Marking

/-- The marks and the queue of the ledger hold every fill once, in the order of the log, and the
sums of the ledger are those of the marks. -/
structure Faithful (horizonNs : Nat) (k : Marking) : Prop where
  order     : k.marks.map (·.markout) ++ k.engine.ledger.pendingMarkouts =
    k.log.map (·.fill.markout)
  horizon   : k.engine.ledger.horizonNs = horizonNs
  sum       : k.engine.ledger.markoutSum = (k.marks.map Mark.drift).sum
  contracts : k.engine.ledger.markoutN = (k.marks.map Mark.contracts).sum

variable {horizonNs : Nat} {k : Marking}

lemma step_marks (k : Marking) (op : Op) : (k.step op).marks = k.marks ++ k.engine.marks op := rfl

lemma step_log_markout (k : Marking) (op : Op) :
    (k.step op).log.map (·.fill.markout) =
      k.log.map (·.fill.markout) ++ (k.engine.step op).2.map Fill.markout := by
  simp [Marking.step, History.step, History.events, comp_def]

lemma step_engine (k : Marking) (op : Op) : (k.step op).engine = (k.engine.step op).1 := rfl

lemma Faithful.step (hk : k.Faithful horizonNs) (op : Op) : (k.step op).Faithful horizonNs := by
  obtain ⟨hpend, hhorizon, hsum, hn⟩ := k.engine.step_markouts op
  constructor
  · rw [step_log_markout, step_marks, step_engine, List.map_append, List.append_assoc, hpend,
      ← List.append_assoc, hk.order]
  · rw [step_engine, hhorizon, hk.horizon]
  · rw [step_engine, step_marks, hsum, hk.sum, List.map_append, List.sum_append]
  · rw [step_engine, step_marks, hn, hk.contracts, List.map_append, List.sum_append]

/-- The `n`-th mark is that of the `n`-th fill. -/
lemma Faithful.markout_eq (hk : k.Faithful horizonNs) {n : Nat} {f : Fill} {mk : Mark}
    (hf : (k.log.map (·.fill))[n]? = some f) (hm : k.marks[n]? = some mk) :
    mk.markout = f.markout := by
  have hlt := (List.getElem?_eq_some_iff.mp hm).1
  have hlog : (k.log.map (·.fill.markout))[n]? = some f.markout := by
    have hmap : k.log.map (·.fill.markout) = (k.log.map (·.fill)).map Fill.markout := by
      simp [comp_def]
    rw [hmap, List.getElem?_map, hf]
    rfl
  rw [← hk.order, List.getElem?_append_left (by simpa using hlt), List.getElem?_map, hm] at hlog
  exact Option.some.inj hlog

/-- A fill stays in the queue as long as no print is late enough. -/
lemma Faithful.step_marks_le (hk : k.Faithful horizonNs) {op : Op} {n : Nat} {f : Fill}
    (hn : k.marks.length ≤ n) (hf : ((k.step op).log.map (·.fill))[n]? = some f)
    (hearly : ∀ p, op = .trade p → p.tsNs < addNs f.tsNs horizonNs) :
    (k.step op).marks.length ≤ n := by
  by_contra hlt
  rw [not_le] at hlt
  obtain ⟨mk, hmark⟩ : ∃ mk, (k.step op).marks[n]? = some mk := ⟨_, List.getElem?_eq_getElem hlt⟩
  have heq := (hk.step op).markout_eq hf hmark
  rw [step_marks, List.getElem?_append_right hn] at hmark
  obtain ⟨p, hp, hdue, -⟩ := ShadowEngine.mem_marks (List.mem_of_getElem? hmark)
  rw [heq, hk.horizon] at hdue
  exact absurd (hearly p hp) (not_lt.mpr hdue)

/-- A late print takes a fill out of the queue, if it is late for all fills before it. -/
lemma Faithful.lt_step_marks (hk : k.Faithful horizonNs) {p : Print} {n : Nat}
    (hn : n < (k.step (.trade p)).log.length)
    (hlate : ∀ i g, i ≤ n → ((k.step (.trade p)).log.map (·.fill))[i]? = some g →
      addNs g.tsNs horizonNs ≤ p.tsNs) :
    n < (k.step (.trade p)).marks.length := by
  have hk' := hk.step (.trade p)
  by_contra hge
  rw [not_lt] at hge
  -- the front of the queue is the fill after the last mark, and it is not due
  have hfront := hge.trans_lt hn
  have hg := List.getElem?_eq_getElem hfront
  have hlog : ((k.step (.trade p)).log.map (·.fill.markout))[(k.step (.trade p)).marks.length]? =
      some ((k.step (.trade p)).log[(k.step (.trade p)).marks.length]).fill.markout := by
    rw [List.getElem?_map, hg, Option.map_some]
  rw [← hk'.order, List.getElem?_append_right (by simp), List.length_map, Nat.sub_self] at hlog
  cases hpend : (k.step (.trade p)).engine.ledger.pendingMarkouts with
  | nil =>
    rw [hpend] at hlog
    cases hlog
  | cons m ms =>
    rw [hpend] at hlog
    have hm := Option.some.inj hlog
    rw [step_engine] at hpend
    have hnot := ShadowEngine.not_due_of_head_pending hpend
    have hdue := hlate _ _ hge (by rw [List.getElem?_map, hg, Option.map_some])
    rw [hm, hk.horizon] at hnot
    exact absurd hnot (not_lt.mpr hdue)

end Marking

namespace ShadowEngine

variable (fees : FeeSchedule) (track : Track) (speed : SpeedParams) (horizonNs : Nat)

/-- The marking runs the engine. -/
lemma marking_toHistory (ops : List Op) :
    (marking fees track speed horizonNs ops).toHistory =
      history fees track speed horizonNs ops := by
  refine run_simulation (A := fun _ _ => True)
    (R := fun (k : Marking) h => k.toHistory = h) ?_ rfl (along_of_forall fun _ _ => trivial)
  rintro k h op rfl -
  rfl

lemma marking_append (ops more : List Op) :
    marking fees track speed horizonNs (ops ++ more) =
      run Marking.step (marking fees track speed horizonNs ops) more :=
  run_append _ _ _ _

theorem marking_faithful (ops : List Op) :
    (marking fees track speed horizonNs ops).Faithful horizonNs :=
  run_inv (P := Marking.Faithful horizonNs) (A := fun _ _ => True) (fun _ op hk _ => hk.step op)
    ⟨rfl, rfl, rfl, rfl⟩ (along_of_forall fun _ _ => trivial)

end ShadowEngine

end HftBot
