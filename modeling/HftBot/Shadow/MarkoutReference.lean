import HftBot.Shadow.Markouts

/-!
# The reference of a markout

A fill should be marked out against the price of its market at the horizon: the last print up to
the time of the fill plus `horizonNs`. The ledger marks it at the first print that is that late,
and it writes the price of that print before it looks at the queue. `FillOnTape.markout_reference`
says exactly when the two agree, and that where they do prints of other markets do not matter.
-/

namespace HftBot

open HftBot.Core Function

/-! ### The tape -/

def Op.print? : Op → Option Print
  | .trade p => some p
  | _        => none

/-- The prints of a schedule. -/
def prints (ops : List Op) : List Print := ops.filterMap Op.print?

lemma prints_append (ops more : List Op) : prints (ops ++ more) = prints ops ++ prints more :=
  List.filterMap_append

/-- The price of the last print of market `m`. -/
def lastPrice (m : Nat) (ps : List Print) : Option Int :=
  ((ps.filter (·.market = m)).getLast?).map (·.price)

@[simp] lemma lastPrice_nil (m : Nat) : lastPrice m [] = none := rfl

lemma lastPrice_append (m : Nat) (ps more : List Print) :
    lastPrice m (ps ++ more) = (lastPrice m more).or (lastPrice m ps) := by
  rw [lastPrice, List.filter_append, List.getLast?_append, Option.map_or]
  rfl

lemma lastPrice_singleton (m : Nat) (p : Print) :
    lastPrice m [p] = if p.market = m then some p.price else none := by
  by_cases hm : p.market = m <;> simp [lastPrice, hm]

/-- A market that prints has a last price. -/
lemma exists_lastPrice {m : Nat} {ps : List Print} {p : Print} (hp : p ∈ ps)
    (hm : p.market = m) : ∃ price, lastPrice m ps = some price := by
  have hne : ps.filter (·.market = m) ≠ [] :=
    List.ne_nil_of_mem (List.mem_filter.mpr ⟨hp, by simpa using hm⟩)
  exact ⟨_, by rw [lastPrice, List.getLast?_eq_some_getLast hne]; rfl⟩

namespace ShadowEngine

lemma exists_lastTrade {l : Ledger} {m : Nat} (hm : m < l.books.length) :
    ∃ price, l.lastTrade m = some price :=
  ⟨_, by rw [Ledger.lastTrade, List.getElem?_eq_getElem hm]; rfl⟩

/-- The last trades that a print is marked out against include the print itself. -/
lemma tradeLedger_lastTrade (e : ShadowEngine) (p : Print) {m : Nat}
    (hm : m < e.ledger.books.length) :
    (e.tradeLedger p).lastTrade m = (lastPrice m [p]).or (e.ledger.lastTrade m) := by
  obtain ⟨price, hprice⟩ := exists_lastTrade hm
  rw [tradeLedger, Ledger.setLastTrade_lastTrade, Ledger.foldl_onFill_lastTrade,
    lastPrice_singleton, hprice]
  split_ifs <;> rfl

/-- One operation on the last trade of a market that is listed. -/
lemma step_lastTrade (e : ShadowEngine) (op : Op) {m : Nat} (hm : m < e.ledger.books.length) :
    (e.step op).1.ledger.lastTrade m = (lastPrice m (prints [op])).or (e.ledger.lastTrade m) := by
  cases op with
  | trade p =>
    show _ = (lastPrice m [p]).or _
    rw [← tradeLedger_lastTrade e p hm, step_ledger_trade, Ledger.lastTrade, Ledger.lastTrade,
      (Ledger.evalMarkouts_spec _ _ _).1]
  | market ticker family =>
    rw [step_ledger]
    simp only [Ledger.marketIndex]
    split
    · rfl
    · simp only [Ledger.lastTrade, List.getElem?_append_left hm]
      rfl
  | place mkt priceCents count buyYes ts depth =>
    rw [step_ledger]
    simp only
    split_ifs <;> rfl
  | settle mkt yesWins ts =>
    rw [step_ledger]
    exact Ledger.lastTrade_modify
      (g := fun b => { b with settled := true, settledYes := yesWins }) rfl (fun _ => rfl) m
  | _ =>
    rw [step_ledger]
    rfl

variable (fees : FeeSchedule) (track : Track) (speed : SpeedParams) (horizonNs : Nat)

/-- The last trade of a listed market after more operations. -/
lemma history_lastTrade (before : List Op) {m : Nat}
    (hm : m < (history fees track speed horizonNs before).engine.ledger.books.length)
    (more : List Op) :
    m < (history fees track speed horizonNs (before ++ more)).engine.ledger.books.length ∧
      (history fees track speed horizonNs (before ++ more)).engine.ledger.lastTrade m =
        (lastPrice m (prints more)).or
          ((history fees track speed horizonNs before).engine.ledger.lastTrade m) := by
  induction more using List.reverseRecOn with
  | nil =>
    rw [List.append_nil]
    exact ⟨hm, rfl⟩
  | append_singleton more op ih =>
    obtain ⟨hlt, heq⟩ := ih
    rw [← List.append_assoc, history_append]
    refine ⟨hlt.trans_le (length_le_step _ op), ?_⟩
    show ((history fees track speed horizonNs (before ++ more)).engine.step op).1.ledger.lastTrade
      m = _
    rw [step_lastTrade _ op hlt, heq, prints_append, lastPrice_append, Option.or_assoc]

/-- A fill is in the market of its print and has its time. -/
lemma mem_onTrade_fills {e : ShadowEngine} (h : e.Inv) {p : Print} {f : Fill}
    (hf : f ∈ (e.onTrade p).2) : f.market = p.market ∧ f.tsNs = p.tsNs := by
  rw [(onTrade_fills_perm h p).mem_iff, List.mem_map] at hf
  obtain ⟨i, -, rfl⟩ := hf
  exact ⟨rfl, rfl⟩

/-- Every fill comes at the time of some print. -/
lemma history_log_print (ops : List Op) :
    ∀ ev ∈ (history fees track speed horizonNs ops).log,
      ∃ p ∈ prints ops, ev.fill.tsNs = p.tsNs := by
  induction ops using List.reverseRecOn with
  | nil => simp [history]
  | append_singleton ops op ih =>
    intro ev hev
    rw [history_append] at hev
    simp only [run_cons, run_nil, History.step, List.mem_append] at hev
    rw [prints_append]
    rcases hev with hev | hev
    · obtain ⟨p, hp, hts⟩ := ih ev hev
      exact ⟨p, List.mem_append_left _ hp, hts⟩
    · obtain ⟨p, i, rfl, -, -, rfl⟩ :=
        mem_events (history_inv fees track speed horizonNs ops) hev
      exact ⟨p, List.mem_append_right _ (by simp [prints, Op.print?]), rfl⟩

/-- The log only grows. -/
lemma history_log_append (ops more : List Op) :
    ∃ later, (history fees track speed horizonNs (ops ++ more)).log =
      (history fees track speed horizonNs ops).log ++ later := by
  induction more using List.reverseRecOn with
  | nil => exact ⟨[], by simp⟩
  | append_singleton more op ih =>
    obtain ⟨later, hlater⟩ := ih
    refine ⟨later ++
      History.events (history fees track speed horizonNs (ops ++ more)).engine op, ?_⟩
    rw [← List.append_assoc, history_append, ← List.append_assoc, ← hlater]
    rfl

/-- So do the marks. -/
lemma marking_marks_append (ops more : List Op) :
    ∃ later, (marking fees track speed horizonNs (ops ++ more)).marks =
      (marking fees track speed horizonNs ops).marks ++ later := by
  induction more using List.reverseRecOn with
  | nil => exact ⟨[], by simp⟩
  | append_singleton more op ih =>
    obtain ⟨later, hlater⟩ := ih
    refine ⟨later ++ (marking fees track speed horizonNs (ops ++ more)).engine.marks op, ?_⟩
    rw [← List.append_assoc, marking_append, ← List.append_assoc, ← hlater]
    rfl

end ShadowEngine

/-- A print of the tape splits the schedule where it comes. -/
lemma exists_split_of_prints {ops : List Op} {early late : List Print} {r : Print}
    (h : prints ops = early ++ r :: late) :
    ∃ xs ys, ops = xs ++ .trade r :: ys ∧ prints xs = early ∧ prints ys = late := by
  rw [prints, List.filterMap_eq_append_iff] at h
  obtain ⟨xs, rest, rfl, hxs, hrest⟩ := h
  rw [List.filterMap_eq_cons_iff] at hrest
  obtain ⟨quiet, op, ys, rfl, hquiet, hop, hys⟩ := hrest
  refine ⟨xs ++ quiet, ys, ?_, ?_, hys⟩
  · cases op with
    | trade p =>
      cases hop
      simp
    | _ => cases hop
  · rw [prints, List.filterMap_append, hxs, List.filterMap_eq_nil_iff.mpr hquiet, List.append_nil]

lemma exists_cons_of_append {α : Type*} {xs rest l : List α} {x a : α}
    (h : xs ++ x :: rest = a :: l) : ∃ more, xs ++ [x] = a :: more := by
  cases xs with
  | nil =>
    obtain ⟨rfl, -⟩ := List.cons.inj h
    exact ⟨[], rfl⟩
  | cons y xs =>
    obtain ⟨rfl, -⟩ := List.cons.inj h
    exact ⟨xs ++ [x], rfl⟩

/-! ### One fill -/

section

open ShadowEngine

/-- A fill on a tape. The prints do not go back in time, times are 64-bit values, and the market of
the fill is listed when it prints. -/
structure FillOnTape (fees : FeeSchedule) (track : Track) (speed : SpeedParams)
    (horizonNs : Nat) where
  before  : List Op
  print   : Print
  after   : List Op
  /-- place of the fill among those of its print -/
  idx     : Nat
  fill    : Fill
  sorted  : (prints (before ++ .trade print :: after)).Pairwise fun a b => a.tsNs ≤ b.tsNs
  times   : ∀ r ∈ prints (before ++ .trade print :: after), r.tsNs < 2 ^ 64
  listed  :
    print.market < (history fees track speed horizonNs before).engine.ledger.books.length
  emitted :
    ((history fees track speed horizonNs before).engine.onTrade print).2[idx]? = some fill

/-- A fill in market `m` with its horizon at `d` is marked out at the print `r`, after the prints
`early`. That is the price at the horizon if `r`, when it is past the horizon and in the market,
repeats the market's last price, and if prints of the market that still come at the horizon itself
end on the price that was used. A negative price counts as none. -/
def ReferenceStands (m d : Nat) (early : List Print) (r : Print) (late : List Print) : Prop :=
  (r.market = m → d < r.tsNs → lastPrice m early = some r.price) ∧
    (∀ price ∈ lastPrice m (late.filter (·.tsNs ≤ d)), lastPrice m (early ++ [r]) = some price) ∧
    ∀ price ∈ lastPrice m (early ++ [r]), 0 ≤ price

instance (m d : Nat) (early : List Print) (r : Print) (late : List Print) :
    Decidable (ReferenceStands m d early r late) := inferInstanceAs (Decidable (_ ∧ _ ∧ _))

namespace FillOnTape

variable {fees : FeeSchedule} {track : Track} {speed : SpeedParams} {horizonNs : Nat}
  (c : FillOnTape fees track speed horizonNs)

def ops : List Op := c.before ++ .trade c.print :: c.after

/-- The place of the fill among all fills of the schedule. -/
def rank : Nat := (history fees track speed horizonNs c.before).log.length + c.idx

def deadline : Nat := c.fill.tsNs + horizonNs

/-- The mark of the fill, if it has been marked out. -/
def mark : Option Mark := (marking fees track speed horizonNs c.ops).marks[c.rank]?

/-- Some print comes at or after the horizon of the fill. -/
def Reached : Prop := ∃ r ∈ prints c.ops, c.deadline ≤ r.tsNs

/-- The price of the market's last print up to the horizon. -/
def horizonPrice : Option Int :=
  lastPrice c.fill.market ((prints c.ops).filter (·.tsNs ≤ c.deadline))

/-- Once its horizon is reached the fill is marked out, once, and against the price at the
horizon. -/
def Reference : Prop :=
  c.Reached →
    (marking fees track speed horizonNs c.ops).marks.map (·.markout) <+:
        (history fees track speed horizonNs c.ops).log.map (·.fill.markout) ∧
      ∃ ref, c.mark = some ⟨c.fill.markout, some ref⟩ ∧ c.horizonPrice = some ref

/-- The condition on the tape: the prints from that of the fill on, cut at the first one that comes
at or after the horizon. -/
def Stands : Prop :=
  ∀ r ∈ ((c.print :: prints c.after).dropWhile (·.tsNs < c.deadline)).head?,
    ReferenceStands c.fill.market c.deadline
      ((c.print :: prints c.after).takeWhile (·.tsNs < c.deadline)) r
      ((c.print :: prints c.after).dropWhile (·.tsNs < c.deadline)).tail

instance : Decidable c.Reached := inferInstanceAs (Decidable (∃ r ∈ prints c.ops, _))

instance : Decidable c.Stands := inferInstanceAs (Decidable (∀ r, r ∈ List.head? _ →
  ReferenceStands c.fill.market c.deadline _ r _))

lemma fill_eq : c.fill.market = c.print.market ∧ c.fill.tsNs = c.print.tsNs :=
  mem_onTrade_fills (history_inv fees track speed horizonNs c.before)
    (List.mem_of_getElem? c.emitted)

lemma addNs_eq (hd : c.deadline < 2 ^ 64) : addNs c.fill.tsNs horizonNs = c.deadline :=
  Nat.mod_eq_of_lt hd

lemma prints_ops : prints c.ops = prints c.before ++ c.print :: prints c.after := by
  rw [ops, prints_append]
  rfl

/-- Right after its print the fill has its place in the log. -/
lemma log_print : ((history fees track speed horizonNs
    (c.before ++ [.trade c.print])).log.map (·.fill))[c.rank]? = some c.fill := by
  have hprint : (history fees track speed horizonNs (c.before ++ [.trade c.print])).log.map
      (·.fill) = (history fees track speed horizonNs c.before).log.map (·.fill) ++
        ((history fees track speed horizonNs c.before).engine.onTrade c.print).2 := by
    rw [history_append]
    simp [History.step, History.events, comp_def, ShadowEngine.step]
  rw [hprint, List.getElem?_append_right (by simp [rank]), List.length_map, rank,
    Nat.add_sub_cancel_left]
  exact c.emitted

/-- Later operations add nothing up to that place. -/
lemma log_of_le_rank (more : List Op) {i : Nat} (hi : i ≤ c.rank) :
    ((history fees track speed horizonNs (c.before ++ .trade c.print :: more)).log.map
      (·.fill))[i]? = ((history fees track speed horizonNs
        (c.before ++ [.trade c.print])).log.map (·.fill))[i]? := by
  have hsplit : c.before ++ .trade c.print :: more = (c.before ++ [.trade c.print]) ++ more := by
    simp
  obtain ⟨later, hlater⟩ := history_log_append fees track speed horizonNs
    (c.before ++ [.trade c.print]) more
  have hlt := hi.trans_lt (List.getElem?_eq_some_iff.mp c.log_print).1
  rw [hsplit, hlater, List.map_append, List.getElem?_append_left hlt]

/-- From its print on the fill keeps its place. -/
lemma log_rank (more : List Op) :
    ((history fees track speed horizonNs (c.before ++ .trade c.print :: more)).log.map
      (·.fill))[c.rank]? = some c.fill :=
  (c.log_of_le_rank more le_rfl).trans c.log_print

/-- The fills up to it are no later. -/
lemma ts_le_of_le_rank (more : List Op) {i : Nat} {g : Fill} (hi : i ≤ c.rank)
    (hg : ((history fees track speed horizonNs (c.before ++ .trade c.print :: more)).log.map
      (·.fill))[i]? = some g) : g.tsNs ≤ c.fill.tsNs := by
  rw [c.log_of_le_rank more hi] at hg
  obtain ⟨ev, hev, rfl⟩ := List.mem_map.mp (List.mem_of_getElem? hg)
  obtain ⟨p, hp, hts⟩ := history_log_print fees track speed horizonNs _ ev hev
  rw [hts, c.fill_eq.2]
  rw [prints_append] at hp
  rcases List.mem_append.mp hp with hp | hp
  · have hsorted := c.sorted
    rw [← ops, c.prints_ops, List.pairwise_append] at hsorted
    exact hsorted.2.2 p hp c.print List.mem_cons_self
  · rw [List.mem_singleton.mp hp]

/-- Until a print comes at or after the horizon the fill waits. -/
lemma marks_le_rank (hd : c.deadline < 2 ^ 64) (xs : List Op)
    (hxs : xs <+: .trade c.print :: c.after) (hearly : ∀ r ∈ prints xs, r.tsNs < c.deadline) :
    (marking fees track speed horizonNs (c.before ++ xs)).marks.length ≤ c.rank := by
  induction xs using List.reverseRecOn with
  | nil =>
    have horder := congrArg List.length
      (marking_faithful fees track speed horizonNs c.before).order
    rw [marking_toHistory] at horder
    simp only [List.length_append, List.length_map] at horder
    rw [List.append_nil, rank]
    omega
  | append_singleton xs op ih =>
    obtain ⟨rest, hrest⟩ := hxs
    rw [prints_append] at hearly
    have hle := ih ⟨[op] ++ rest, by rw [← hrest, List.append_assoc]⟩
      fun r hr => hearly r (List.mem_append_left _ hr)
    rw [← List.append_assoc, marking_append]
    apply (marking_faithful fees track speed horizonNs _).step_marks_le hle (f := c.fill)
    · -- the schedule so far starts with the print of the fill
      rw [List.append_assoc] at hrest
      obtain ⟨more, hmore⟩ := exists_cons_of_append hrest
      have hlog := c.log_rank more
      rw [← hmore, ← List.append_assoc, ← marking_toHistory, marking_append] at hlog
      exact hlog
    · rintro p rfl
      rw [c.addNs_eq hd]
      exact hearly p (List.mem_append_right _ (by simp [prints, Op.print?]))

/-- The last trade of the fill's market when the print `r` is marked out against. -/
lemma refOf_eq {xs more : List Op} {r : Print}
    (hmore : xs ++ [.trade r] = .trade c.print :: more) :
    ((marking fees track speed horizonNs (c.before ++ xs)).engine.tradeLedger r).refOf
        c.fill.markout = (lastPrice c.fill.market (prints xs ++ [r])).filter (0 ≤ ·) := by
  have hlisted := c.listed
  rw [← c.fill_eq.1] at hlisted
  obtain ⟨hlt, hlast⟩ := history_lastTrade fees track speed horizonNs c.before hlisted xs
  have hprints : prints xs ++ [r] = c.print :: prints more := by
    have h := congrArg prints hmore
    rw [prints_append] at h
    exact h
  have hmem : c.print ∈ prints xs ++ [r] := by
    rw [hprints]
    exact List.mem_cons_self
  obtain ⟨price, hprice⟩ := exists_lastPrice hmem c.fill_eq.1.symm
  show Option.filter _ (Ledger.lastTrade _ c.fill.market) = _
  rw [marking_toHistory, tradeLedger_lastTrade _ r hlt, hlast, ← Option.or_assoc,
    ← lastPrice_append, hprice, Option.some_or]

/-- The first print at or after the horizon marks the fill out, against the last price up to and
including that print. -/
lemma mark_eq {early late : List Print} {r : Print}
    (hsplit : c.print :: prints c.after = early ++ r :: late)
    (hearly : ∀ x ∈ early, x.tsNs < c.deadline) (hr : c.deadline ≤ r.tsNs) :
    c.mark = some ⟨c.fill.markout,
      (lastPrice c.fill.market (early ++ [r])).filter (0 ≤ ·)⟩ := by
  have hops : prints (.trade c.print :: c.after) = early ++ r :: late := hsplit
  obtain ⟨xs, ys, heq, rfl, rfl⟩ := exists_split_of_prints hops
  obtain ⟨more, hmore⟩ := exists_cons_of_append heq.symm
  have hrmem : r ∈ prints c.ops := by
    rw [c.prints_ops, hsplit]
    simp
  have hd : c.deadline < 2 ^ 64 := hr.trans_lt (c.times r hrmem)
  have hle := c.marks_le_rank hd xs ⟨_, heq.symm⟩ hearly
  have hk := marking_faithful fees track speed horizonNs (c.before ++ xs)
  have hstep : marking fees track speed horizonNs (c.before ++ .trade c.print :: more) =
      (marking fees track speed horizonNs (c.before ++ xs)).step (.trade r) := by
    rw [← hmore, ← List.append_assoc, marking_append]
    rfl
  have hlog := c.log_rank more
  rw [← marking_toHistory, hstep] at hlog
  have hlt := hk.lt_step_marks (n := c.rank)
    (by simpa using (List.getElem?_eq_some_iff.mp hlog).1) ?_
  · obtain ⟨mk, hmk⟩ : ∃ mk, ((marking fees track speed horizonNs (c.before ++ xs)).step
        (.trade r)).marks[c.rank]? = some mk := ⟨_, List.getElem?_eq_getElem hlt⟩
    have hmarkout := (hk.step (.trade r)).markout_eq hlog hmk
    have hnew := hmk
    rw [Marking.step_marks, List.getElem?_append_right hle] at hnew
    obtain ⟨r', hr', -, href⟩ := mem_marks (List.mem_of_getElem? hnew)
    cases hr'
    rw [hmarkout, c.refOf_eq hmore] at href
    -- later prints only append marks
    obtain ⟨later, hlater⟩ := marking_marks_append fees track speed horizonNs
      (c.before ++ .trade c.print :: more) ys
    have hall : c.ops = (c.before ++ .trade c.print :: more) ++ ys := by
      rw [ops, heq, ← hmore]
      simp
    rw [mark, hall, hlater, hstep, List.getElem?_append_left hlt, hmk, ← hmarkout, ← href]
  · intro i g hi hg
    rw [← hstep, marking_toHistory] at hg
    have hts := c.ts_le_of_le_rank more hi hg
    have hdue : g.tsNs + horizonNs ≤ c.deadline := Nat.add_le_add_right hts _
    rw [addNs, Nat.mod_eq_of_lt (hdue.trans_lt hd)]
    exact hdue.trans hr

lemma le_of_mem_late {early late : List Print} {r x : Print}
    (hsplit : c.print :: prints c.after = early ++ r :: late) (hx : x ∈ r :: late) :
    r.tsNs ≤ x.tsNs := by
  have hsorted := c.sorted
  rw [← ops, c.prints_ops, hsplit, List.pairwise_append, List.pairwise_append,
    List.pairwise_cons] at hsorted
  rcases List.mem_cons.mp hx with rfl | hx
  · exact le_rfl
  · exact hsorted.2.1.2.1.1 x hx

lemma print_mem {early late : List Print} {r : Print}
    (hsplit : c.print :: prints c.after = early ++ r :: late) : c.print ∈ early ++ [r] := by
  obtain ⟨more, hmore⟩ := exists_cons_of_append hsplit.symm
  rw [hmore]
  exact List.mem_cons_self

/-- Nothing after a print past the horizon is up to it. -/
lemma late_filter {early late : List Print} {r : Print}
    (hsplit : c.print :: prints c.after = early ++ r :: late) (hlate : c.deadline < r.tsNs) :
    (r :: late).filter (·.tsNs ≤ c.deadline) = [] := by
  rw [List.filter_eq_nil_iff]
  intro x hx
  have hle := c.le_of_mem_late hsplit hx
  simpa using hlate.trans_le hle

/-- The price at the horizon, read off the prints around the first one that is late enough. -/
lemma horizonPrice_eq {early late : List Print} {r : Print}
    (hsplit : c.print :: prints c.after = early ++ r :: late)
    (hearly : ∀ x ∈ early, x.tsNs < c.deadline) :
    c.horizonPrice =
      if c.deadline < r.tsNs then lastPrice c.fill.market early
      else (lastPrice c.fill.market (late.filter (·.tsNs ≤ c.deadline))).or
        (lastPrice c.fill.market (early ++ [r])) := by
  have hfilter : early.filter (·.tsNs ≤ c.deadline) = early := by
    rw [List.filter_eq_self]
    intro x hx
    simpa using (hearly x hx).le
  rw [horizonPrice, c.prints_ops, hsplit, List.filter_append, List.filter_append, hfilter,
    lastPrice_append]
  have hmem := c.print_mem hsplit
  split_ifs with hlate
  · have hprint : c.print ∈ early := by
      rcases List.mem_append.mp hmem with h | h
      · exact h
      · -- the print of the fill is not past its horizon
        rw [← List.mem_singleton.mp h, ← c.fill_eq.2] at hlate
        exact absurd hlate (not_lt.mpr (Nat.le_add_right _ _))
    obtain ⟨price, hprice⟩ := exists_lastPrice hprint c.fill_eq.1.symm
    rw [c.late_filter hsplit hlate, List.append_nil, hprice, Option.some_or]
  · obtain ⟨price, hprice⟩ := exists_lastPrice hmem c.fill_eq.1.symm
    have hcons : (r :: late).filter (·.tsNs ≤ c.deadline) =
        [r] ++ late.filter (·.tsNs ≤ c.deadline) := by
      rw [List.filter_cons_of_pos (by simpa using not_lt.mp hlate)]
      rfl
    rw [hcons, ← List.append_assoc, lastPrice_append, Option.or_assoc, hprice, Option.some_or]

/-- What the ledger uses and what the horizon asks for agree exactly under the condition. -/
lemma referenceStands_iff {early late : List Print} {r : Print}
    (hsplit : c.print :: prints c.after = early ++ r :: late)
    (hearly : ∀ x ∈ early, x.tsNs < c.deadline) :
    (∃ ref, (lastPrice c.fill.market (early ++ [r])).filter (0 ≤ ·) = some ref ∧
        c.horizonPrice = some ref) ↔
      ReferenceStands c.fill.market c.deadline early r late := by
  obtain ⟨price, hprice⟩ := exists_lastPrice (c.print_mem hsplit) c.fill_eq.1.symm
  have hused : (∃ ref, (lastPrice c.fill.market (early ++ [r])).filter (0 ≤ ·) = some ref ∧
      c.horizonPrice = some ref) ↔ 0 ≤ price ∧ c.horizonPrice = some price := by
    rw [hprice]
    by_cases hneg : 0 ≤ price
    · simp [Option.filter, hneg]
    · simp [Option.filter, hneg]
  rw [hused, c.horizonPrice_eq hsplit hearly, ReferenceStands, hprice]
  have hlast := hprice
  rw [lastPrice_append, lastPrice_singleton] at hlast
  by_cases hlate : c.deadline < r.tsNs
  · have hnone : late.filter (·.tsNs ≤ c.deadline) = [] :=
      (List.filter_eq_nil_iff.mpr fun x hx =>
        List.filter_eq_nil_iff.mp (c.late_filter hsplit hlate) x (List.mem_cons_of_mem _ hx))
    rw [if_pos hlate, hnone]
    by_cases hm : r.market = c.fill.market
    · -- the print is its own market's reference
      rw [if_pos hm, Option.some_or, Option.some.injEq] at hlast
      simp [hm, hlate, hlast, and_comm]
    · rw [if_neg hm, Option.none_or] at hlast
      simp [hm, hlast]
  · rw [if_neg hlate]
    cases hties : lastPrice c.fill.market (late.filter (·.tsNs ≤ c.deadline)) with
    | none => simp [hlate]
    | some tie =>
      simp [hlate, eq_comm, and_comm]

lemma stands_of_not_reached (h : ¬ c.Reached) : c.Stands := by
  have hnone : (c.print :: prints c.after).dropWhile (·.tsNs < c.deadline) = [] := by
    rw [List.dropWhile_eq_nil_iff]
    intro x hx
    have hmem : x ∈ prints c.ops := by
      rw [c.prints_ops]
      exact List.mem_append_right _ hx
    simpa using not_le.mp fun hle => h ⟨x, hmem, hle⟩
  rw [Stands, hnone]
  intro r hr
  cases hr

/-- When the horizon is reached the tape is cut at a first print that is late enough. -/
lemma exists_split_of_reached (h : c.Reached) :
    ∃ early r late, c.print :: prints c.after = early ++ r :: late ∧
      (∀ x ∈ early, x.tsNs < c.deadline) ∧ c.deadline ≤ r.tsNs ∧
      (c.Stands ↔ ReferenceStands c.fill.market c.deadline early r late) := by
  have hlate : ∃ x ∈ c.print :: prints c.after, c.deadline ≤ x.tsNs := by
    obtain ⟨x, hx, hle⟩ := h
    rw [c.prints_ops] at hx
    rcases List.mem_append.mp hx with hx | hx
    · -- a print before that of the fill is no later than it
      have hsorted := c.sorted
      rw [← ops, c.prints_ops, List.pairwise_append] at hsorted
      have hts := hsorted.2.2 x hx c.print List.mem_cons_self
      exact ⟨c.print, List.mem_cons_self, hle.trans hts⟩
    · exact ⟨x, hx, hle⟩
  cases hdrop : (c.print :: prints c.after).dropWhile (·.tsNs < c.deadline) with
  | nil =>
    obtain ⟨x, hx, hle⟩ := hlate
    rw [List.dropWhile_eq_nil_iff] at hdrop
    have hlt : x.tsNs < c.deadline := by simpa using hdrop x hx
    exact absurd hle (not_le.mpr hlt)
  | cons r late =>
    refine ⟨(c.print :: prints c.after).takeWhile (·.tsNs < c.deadline), r, late, ?_, ?_, ?_, ?_⟩
    · rw [← hdrop, List.takeWhile_append_dropWhile]
    · intro x hx
      simpa using List.mem_takeWhile_imp hx
    · simpa using eq_false_of_dropWhile_eq_cons hdrop
    · rw [Stands, hdrop]
      simp

/-- Once the horizon is reached the fill is marked out, and against the price at the horizon
exactly under the condition on the tape. -/
lemma reference_iff : c.Reference ↔ c.Stands := by
  by_cases hreach : c.Reached
  · obtain ⟨early, r, late, hsplit, hearly, hr, hstands⟩ := c.exists_split_of_reached hreach
    have hmark := c.mark_eq hsplit hearly hr
    rw [hstands, ← c.referenceStands_iff hsplit hearly]
    constructor
    · intro href
      obtain ⟨-, ref, href, hprice⟩ := href hreach
      rw [hmark, Option.some.injEq, Mark.mk.injEq] at href
      exact ⟨ref, href.2, hprice⟩
    · rintro ⟨ref, hused, hprice⟩ -
      refine ⟨?_, ref, by rw [hmark, hused], hprice⟩
      rw [← marking_toHistory, ← (marking_faithful fees track speed horizonNs c.ops).order]
      exact List.prefix_append _ _
  · constructor
    · intro _
      exact c.stands_of_not_reached hreach
    · intro _ h
      exact absurd h hreach

/-- A fill is marked out once and against the price at its horizon exactly if the tape meets the
condition. On tapes that meet it the mark of a fill does not depend on the prints of other markets:
two tapes with the same prints of its market give it the same mark. -/
theorem markout_reference :
    (c.Reference ↔ c.Stands) ∧
      ∀ c' : FillOnTape fees track speed horizonNs, c'.fill.markout = c.fill.markout →
        (prints c'.ops).filter (·.market = c.fill.market) =
          (prints c.ops).filter (·.market = c.fill.market) →
        c.Reached → c'.Reached → c.Stands → c'.Stands → c'.mark = c.mark := by
  refine ⟨c.reference_iff, fun c' hfill hprints hreach hreach' hs hs' => ?_⟩
  obtain ⟨-, ref, hmark, hprice⟩ := c.reference_iff.mpr hs hreach
  obtain ⟨-, ref', hmark', hprice'⟩ := c'.reference_iff.mpr hs' hreach'
  have hmarket : c'.fill.market = c.fill.market := congrArg Markout.market hfill
  have hdeadline : c'.deadline = c.deadline := by
    have hts : c'.fill.tsNs = c.fill.tsNs := congrArg Markout.fillTsNs hfill
    rw [deadline, deadline, hts]
  have hsame : c'.horizonPrice = c.horizonPrice := by
    rw [horizonPrice, horizonPrice, lastPrice, lastPrice, List.filter_comm, hmarket, hdeadline,
      hprints, List.filter_comm]
  rw [hprice, hprice', Option.some.injEq] at hsame
  rw [hmark, hmark', hfill, hsame]

/-- A tape of two prints of market 0, with `others` between them. -/
def tapeOf (others : List Op) : List Print :=
  ⟨0, 39, 4, false, 10000000⟩ :: prints (others ++ [.trade ⟨0, 70, 1, true, 80000000000⟩])

/-- Four contracts bought at 40 on the first print. The second is past the horizon, at 70. -/
def boughtAtForty (others : List Op)
    (sorted : (tapeOf others).Pairwise fun a b => a.tsNs ≤ b.tsNs)
    (times : ∀ r ∈ tapeOf others, r.tsNs < 2 ^ 64) :
    FillOnTape ⟨[]⟩ .strict {} 60000000000 where
  before := [.market "A".toList "x".toList, .market "B".toList "x".toList,
    .place 0 40 10 true 1 (-1)]
  print := ⟨0, 39, 4, false, 10000000⟩
  after := others ++ [Op.trade ⟨0, 70, 1, true, 80000000000⟩]
  idx := 0
  fill := ⟨0, 0, 40, 4, true, 10000000⟩
  sorted := sorted
  times := times
  listed := by decide +kernel
  emitted := by decide +kernel

/-- A print of market 1 past the horizon comes first: the fill is marked out against 39, whatever
else market 1 prints. -/
theorem markout_reference_other_market :
    (boughtAtForty [.trade ⟨1, 50, 1, true, 70000000000⟩] (by decide) (by decide)).Reference ∧
      (boughtAtForty [.trade ⟨1, 50, 1, true, 65000000000⟩, .trade ⟨1, 55, 1, true, 66000000000⟩]
        (by decide) (by decide)).mark =
        (boughtAtForty [.trade ⟨1, 50, 1, true, 70000000000⟩] (by decide) (by decide)).mark :=
  have href := markout_reference
    (boughtAtForty [.trade ⟨1, 50, 1, true, 70000000000⟩] (by decide) (by decide))
  ⟨href.1.mpr (by decide),
    href.2 _ rfl (by decide) (by decide) (by decide) (by decide) (by decide)⟩

/-- Without a print of market 1 the fill is marked out against 70, a print past the horizon; with
one it is marked out against 39. -/
theorem markout_reference_late_print :
    ¬ (boughtAtForty [] (by decide) (by decide)).Reference ∧
      (tapeOf []).filter (·.market = 0) =
        (tapeOf [.trade ⟨1, 50, 1, true, 70000000000⟩]).filter (·.market = 0) ∧
      (boughtAtForty [] (by decide) (by decide)).mark ≠
        (boughtAtForty [.trade ⟨1, 50, 1, true, 70000000000⟩] (by decide) (by decide)).mark := by
  refine ⟨?_, by decide, by decide +kernel⟩
  rw [reference_iff]
  decide

end FillOnTape

end

end HftBot
