import HftBot.Shadow.LedgerProperties
import HftBot.Shadow.Log
import Mathlib.Algebra.BigOperators.Intervals

/-!
# Ledger accounting

The ledger learns of fills one by one, after the registry has changed, and keeps totals, one book
per market and one report per family. `Booked` ties all of them to the log of the run, and
`ledger_accounting` reads the books, the profit at settlement, the totals and the reports off it.
-/

namespace HftBot

open HftBot.Core Function

/-! ### One operation -/

lemma OrderRec.market_of_gained_pos {track : Track} {displayed : Int} {p : Print} {r : OrderRec}
    (h : 0 < r.gained track displayed (.trade p)) : r.market = p.market := by
  simp only [gained, fillQty] at h
  split_ifs at h with hs hhits
  · have hm := hhits.1
    simp only [FillSim.hits, Bool.and_eq_true, decide_eq_true_eq] at hm
    rw [← (clock_recycled_same track p.tsNs displayed r).market]
    exact hm.1.1.1
  · omega
  · omega

namespace ShadowEngine

variable {e : ShadowEngine}

lemma bookFills_ledger (fills : List Fill) (reg : OrderRegistry) (ledger : Ledger) :
    (bookFills fills reg ledger).2 = fills.foldl Ledger.onFill ledger := by
  induction fills generalizing reg ledger with
  | nil => rfl
  | cons f fills ih =>
    simp only [bookFills, List.foldl_cons] at ih ⊢
    rw [ih]

/-- The ledger after an operation. -/
lemma step_ledger (e : ShadowEngine) (op : Op) :
    (e.step op).1.ledger =
      match op with
      | .market ticker family    => (e.ledger.marketIndex ticker family).1
      | .place mkt _ count _ _ _ =>
        if e.reg.free = [] then e.ledger else e.ledger.onOrderPlaced mkt count
      | .trade p                 =>
        ((e.onTrade p).2.foldl Ledger.onFill e.ledger).onTrade p.market p.price p.tsNs
      | .settle mkt yesWins _    => e.ledger.onSettle mkt yesWins
      | _                        => e.ledger := by
  cases op with
  | place mkt priceCents count buyYes ts depth =>
    cases hfree : e.reg.free with
    | nil => simp [step, place_full mkt priceCents count buyYes ts depth hfree]
    | cons idx rest => simp [step, place, OrderRegistry.place, hfree]
  | cancel cid ts =>
    simp only [step, cancel]
    split
    · rfl
    · split_ifs <;> rfl
  | trade p =>
    simp only [step, onTrade]
    rw [bookFills_ledger]
    rfl
  | _ => rfl

/-- Only a placement is quoted. -/
lemma step_quotedContracts (e : ShadowEngine) {op : Op} (hop : op.quote? = none) :
    (e.step op).1.ledger.quotedContracts = e.ledger.quotedContracts := by
  rw [step_ledger]
  cases op with
  | market ticker family =>
    simp only [Ledger.marketIndex]
    split <;> rfl
  | place mkt priceCents count buyYes ts depth => cases hop
  | trade p =>
    simp only [Ledger.onTrade]
    rw [(Ledger.evalMarkouts_spec _ _ _).2.2.2, Ledger.foldl_onFill_quoted]
  | _ => rfl

lemma step_filledContracts (e : ShadowEngine) (op : Op) :
    (e.step op).1.ledger.filledContracts =
      e.ledger.filledContracts + ((e.step op).2.map (·.qty)).sum := by
  rw [step_ledger]
  cases op with
  | market ticker family =>
    simp only [Ledger.marketIndex, step]
    split <;> simp
  | place mkt priceCents count buyYes ts depth =>
    simp only [step]
    split_ifs <;> simp [Ledger.onOrderPlaced]
  | trade p =>
    simp only [Ledger.onTrade]
    rw [(Ledger.evalMarkouts_spec _ _ _).2.2.1]
    exact Ledger.foldl_onFill_filled _ _
  | _ => simp [step, Ledger.onSettle]

lemma step_fees (e : ShadowEngine) (op : Op) : (e.step op).1.ledger.fees = e.ledger.fees := by
  rw [step_ledger]
  cases op with
  | market ticker family =>
    simp only [Ledger.marketIndex]
    split <;> rfl
  | place mkt priceCents count buyYes ts depth =>
    simp only
    split_ifs <;> rfl
  | trade p =>
    simp only [Ledger.onTrade]
    rw [(Ledger.evalMarkouts_spec _ _ _).2.1, Ledger.foldl_onFill_fees]
  | _ => rfl

/-- Markets are never removed. -/
lemma length_le_step (e : ShadowEngine) (op : Op) :
    e.ledger.books.length ≤ (e.step op).1.ledger.books.length := by
  rw [step_ledger]
  cases op with
  | market ticker family =>
    simp only [Ledger.marketIndex]
    split <;> simp
  | place mkt priceCents count buyYes ts depth =>
    simp only
    split_ifs <;> rfl
  | trade p =>
    simp only [Ledger.onTrade]
    rw [(Ledger.evalMarkouts_spec _ _ _).1, List.length_modify, Ledger.foldl_onFill_length]
  | settle mkt yesWins ts => simp [Ledger.onSettle]
  | _ => rfl

lemma FilledBounds.remaining_nonneg (hb : e.FilledBounds) {i : Nat}
    (hs : (e.reg.slots i).state ≠ .free) : 0 ≤ (e.reg.slots i).remaining :=
  Int.sub_nonneg.2 (hb i hs).2

/-- An operation takes from the contracts that remain of an order what it fills on it. -/
lemma step_remaining (h : e.Inv) (op : Op) {i : Nat} (hs : (e.reg.slots i).state ≠ .free) :
    ((e.step op).1.reg.slots i).remaining = (e.reg.slots i).remaining - e.gainedAt op i := by
  rw [step_slot_of_live h op hs, OrderRec.remaining, OrderRec.next_filled,
    (OrderRec.next_same _ _ _ _ _ op).count, OrderRec.remaining, gainedAt, Int.sub_sub]

/-- Contracts of the order in slot `i` that are not filled yet. -/
def room (e : ShadowEngine) (i : Nat) : Int :=
  if (e.reg.slots i).state = .free then 0 else (e.reg.slots i).remaining

/-- An operation that places nothing takes from the open contracts what it fills. -/
lemma step_room_le (h : e.Inv) (hb : e.FilledBounds) {op : Op} (hop : op.quote? = none) (i : Nat) :
    (e.step op).1.room i + e.gainedAt op i ≤ e.room i := by
  by_cases hs : (e.reg.slots i).state = .free
  · rcases step_slot_of_free h op hs with heq | ⟨_, _, _, _, _, _, rfl, -⟩
    · simp [room, heq, hs, gainedAt_of_free hs]
    · cases hop
  · have hle := OrderRec.gained_le_remaining e.sim.track (e.depthOf i) _ op
      (hb.remaining_nonneg hs)
    rw [room, room, if_neg hs, step_remaining h op hs]
    split_ifs
    · rw [Int.zero_add]
      exact hle
    · rw [Int.sub_add_cancel]

/-- An order that is placed opens its count. -/
lemma place_room (h : e.Inv) {idx : Nat} {rest : List Nat} (hfree : e.reg.free = idx :: rest)
    (mkt : Nat) (priceCents count : Int) (buyYes : Bool) (ts : Nat) (depth : Int) (i : Nat) :
    (e.step (.place mkt priceCents count buyYes ts depth)).1.room i =
      e.room i + if i = idx then count else 0 := by
  obtain ⟨reg, heq, -, -, -, -, -, hslots⟩ :=
    place_slot mkt priceCents count buyYes ts depth h hfree
  have hidx : (e.reg.slots idx).state = .free :=
    ((h.consistent.wf.mem_free idx).mp (by simp [hfree])).2
  by_cases hi : i = idx
  · subst hi
    simp [room, step, heq, hslots, hidx, placedRec, OrderRec.remaining]
  · simp [room, step, heq, hslots, hi]

end ShadowEngine

lemma History.filledTotal_step {h : History} (hinv : h.engine.Inv) (op : Op) :
    (h.step op).filledTotal = h.filledTotal +
      ∑ i ∈ Finset.range h.engine.reg.capacity, h.engine.gainedAt op i := by
  rw [filledTotal, step, List.map_append, List.sum_append, filledTotal]
  congr 1
  cases op with
  | trade p =>
    rw [← ShadowEngine.onTrade_fills_sum hinv, events, List.map_map]
    rfl
  | _ => simp [events, ShadowEngine.step, ShadowEngine.gainedAt, OrderRec.gained]

/-! ### Whole runs -/

/-- The outcome that an operation gives market `m`. -/
def Op.outcome? (m : Nat) : Op → Option Bool
  | .settle mkt yesWins _ => if mkt = m then some yesWins else none
  | _                     => none

/-- The last outcome of market `m` in a schedule. -/
def outcomeOf (ops : List Op) (m : Nat) : Option Bool := (ops.filterMap (Op.outcome? m)).getLast?

lemma outcomeOf_append (ops : List Op) (op : Op) (m : Nat) :
    outcomeOf (ops ++ [op]) m = (op.outcome? m).or (outcomeOf ops m) := by
  rw [outcomeOf, List.filterMap_append, List.getLast?_append]
  cases hop : op.outcome? m <;> simp [hop, outcomeOf]

/-- An order and a settlement name a market that the ledger has registered; the source indexes its
books without a check. -/
def ShadowEngine.NamesMarket (e : ShadowEngine) : Op → Prop
  | .place mkt _ _ _ _ _ => mkt < e.ledger.books.length
  | .settle mkt _ _      => mkt < e.ledger.books.length
  | _                    => True

/-- The ledger of a history against its log and its schedule. -/
structure History.Booked (fees : FeeSchedule) (ops : List Op) (h : History) : Prop where
  inv     : h.engine.Inv
  bounds  : h.engine.FilledBounds
  fees    : h.engine.ledger.fees = fees
  books   : h.engine.ledger.BooksExact (h.log.map (·.fill))
  settled : ∀ (m : Nat) (b : MarketBook), h.engine.ledger.books[m]? = some b →
    b.settled = (outcomeOf ops m).isSome ∧ b.settledYes = (outcomeOf ops m).getD false
  outside : ∀ m, h.engine.ledger.books.length ≤ m → outcomeOf ops m = none
  slots   : ∀ i, (h.engine.reg.slots i).state ≠ .free →
    (h.engine.reg.slots i).market < h.engine.ledger.books.length
  log     : ∀ ev ∈ h.log, ev.fill.market < h.engine.ledger.books.length
  filled  : h.engine.ledger.filledContracts = h.filledTotal
  quoted  : h.filledTotal + ∑ i ∈ Finset.range h.engine.reg.capacity, h.engine.room i ≤
    h.engine.ledger.quotedContracts

namespace History.Booked

variable {fees : FeeSchedule} {ops : List Op} {h : History}

/-- Open and filled contracts together stay within those quoted. -/
lemma step_quoted (hb : h.Booked fees ops) (op : Op) :
    (h.step op).filledTotal +
        ∑ i ∈ Finset.range (h.step op).engine.reg.capacity, (h.step op).engine.room i ≤
      (h.step op).engine.ledger.quotedContracts := by
  have hquoted := hb.quoted
  rw [filledTotal_step hb.inv]
  simp only [History.step, ShadowEngine.step_capacity]
  cases hop : op.quote? with
  | none =>
    have hsum := Finset.sum_le_sum fun i (_ : i ∈ Finset.range h.engine.reg.capacity) =>
      ShadowEngine.step_room_le hb.inv hb.bounds hop i
    rw [Finset.sum_add_distrib] at hsum
    rw [ShadowEngine.step_quotedContracts h.engine hop]
    omega
  | some q =>
    cases op with
    | place mkt priceCents count buyYes ts depth =>
      have hgained : ∀ i, h.engine.gainedAt (.place mkt priceCents count buyYes ts depth) i = 0 :=
        fun _ => rfl
      simp only [hgained, Finset.sum_const_zero, Int.add_zero, ShadowEngine.step_ledger]
      cases hfree : h.engine.reg.free with
      | nil =>
        rw [if_pos rfl, ShadowEngine.step,
          ShadowEngine.place_full mkt priceCents count buyYes ts depth hfree]
        exact hquoted
      | cons idx rest =>
        have hidx : idx < h.engine.reg.capacity :=
          ((hb.inv.consistent.wf.mem_free idx).mp (by simp [hfree])).1
        rw [if_neg (by simp)]
        simp only [ShadowEngine.place_room hb.inv hfree, Finset.sum_add_distrib,
          Finset.sum_ite_eq', Finset.mem_range, hidx, if_true, Ledger.onOrderPlaced]
        omega
    | _ => cases hop

/-- The books follow the fills of the operation. -/
lemma step_books (hb : h.Booked fees ops) (op : Op) :
    (h.step op).engine.ledger.BooksExact ((h.step op).log.map (·.fill)) := by
  have hbooks := hb.books
  have hlog : (h.step op).log.map (·.fill) = h.log.map (·.fill) ++ (h.engine.step op).2 := by
    simp [History.step, events, comp_def]
  rw [hlog]
  simp only [History.step, ShadowEngine.step_ledger]
  cases op with
  | market ticker family =>
    simp only [ShadowEngine.step, List.append_nil]
    refine hbooks.marketIndex ?_ ticker family
    intro f hf
    obtain ⟨ev, hev, rfl⟩ := List.mem_map.1 hf
    exact hb.log ev hev
  | place mkt priceCents count buyYes ts depth =>
    simp only [ShadowEngine.step, List.append_nil]
    split_ifs
    · exact hbooks
    · exact hbooks
  | cancel cid ts => simpa [ShadowEngine.step] using hbooks
  | trade p =>
    have hmod := (hbooks.onFills (h.engine.onTrade p).2).modify p.market
      (g := fun b => { b with lastTradeCents := p.price })
      (fun b fills hexact => hexact.of_eq rfl rfl rfl rfl rfl rfl rfl)
    intro m b hb
    simp only [Ledger.onTrade] at hb ⊢
    rw [(Ledger.evalMarkouts_spec _ _ _).1] at hb
    rw [(Ledger.evalMarkouts_spec _ _ _).2.1]
    exact hmod m b hb
  | settle mkt yesWins ts =>
    simp only [ShadowEngine.step, List.append_nil]
    exact hbooks.modify mkt (fun b fills hexact => hexact.of_eq rfl rfl rfl rfl rfl rfl rfl)
  | advance now => simpa [ShadowEngine.step] using hbooks

/-- A book is settled by the last settlement of its market. -/
lemma step_settled (hb : h.Booked fees ops) (op : Op) (m : Nat) (b : MarketBook)
    (hbook : (h.step op).engine.ledger.books[m]? = some b) :
    b.settled = (outcomeOf (ops ++ [op]) m).isSome ∧
      b.settledYes = (outcomeOf (ops ++ [op]) m).getD false := by
  rw [outcomeOf_append]
  simp only [History.step, ShadowEngine.step_ledger] at hbook
  cases op with
  | market ticker family =>
    simp only [Op.outcome?, Option.none_or]
    simp only [Ledger.marketIndex] at hbook
    split at hbook
    · exact hb.settled m b hbook
    · rcases lt_or_ge m h.engine.ledger.books.length with hlt | hge
      · rw [List.getElem?_append_left hlt] at hbook
        exact hb.settled m b hbook
      · rw [List.getElem?_append_right hge, List.getElem?_singleton] at hbook
        split_ifs at hbook
        cases hbook
        rw [hb.outside m hge]
        exact ⟨rfl, rfl⟩
  | place mkt priceCents count buyYes ts depth =>
    simp only [Op.outcome?, Option.none_or]
    split_ifs at hbook
    · exact hb.settled m b hbook
    · exact hb.settled m b hbook
  | trade p =>
    simp only [Op.outcome?, Option.none_or]
    simp only [Ledger.onTrade] at hbook
    rw [(Ledger.evalMarkouts_spec _ _ _).1] at hbook
    obtain ⟨b₁, hb₁, rfl⟩ := Ledger.exists_of_modify hbook
    obtain ⟨b₀, hb₀, hsettled, hyes⟩ := Ledger.foldl_onFill_settled hb₁
    obtain ⟨h₁, h₂⟩ := hb.settled m b₀ hb₀
    split_ifs
    · exact ⟨hsettled.trans h₁, hyes.trans h₂⟩
    · exact ⟨hsettled.trans h₁, hyes.trans h₂⟩
  | settle mkt yesWins ts =>
    obtain ⟨b₀, hb₀, rfl⟩ := Ledger.exists_of_modify hbook
    by_cases hm : mkt = m
    · simp [Op.outcome?, hm]
    · simpa [Op.outcome?, hm] using hb.settled m b₀ hb₀
  | _ => exact hb.settled m b hbook

lemma step (hb : h.Booked fees ops) {op : Op} (hcount : op.CountNonneg)
    (hname : h.engine.NamesMarket op) : (h.step op).Booked fees (ops ++ [op]) where
  inv := ShadowEngine.step_inv hb.inv op
  bounds := ShadowEngine.step_filledBounds hb.inv hcount hb.bounds
  fees := (ShadowEngine.step_fees h.engine op).trans hb.fees
  books := hb.step_books op
  settled := hb.step_settled op
  outside m hm := by
    have hle := ShadowEngine.length_le_step h.engine op
    have hout := hb.outside m (hle.trans hm)
    rw [outcomeOf_append, hout, Option.or_none]
    cases op with
    | settle mkt yesWins ts =>
      have hlt : mkt < h.engine.ledger.books.length := hname
      have hne : mkt ≠ m := fun heq => absurd (hlt.trans_le (hle.trans hm)) (by simp [heq])
      simp [Op.outcome?, hne]
    | _ => rfl
  slots := by
    have hle := ShadowEngine.length_le_step h.engine op
    refine ShadowEngine.step_live_inv
      (Q := fun r => r.market < (h.engine.step op).1.ledger.books.length) hb.inv op ?_ ?_
      fun i hi => (hb.slots i hi).trans_le hle
    · rintro mkt priceCents count buyYes ts depth rfl
      exact lt_of_lt_of_le hname hle
    · rintro i r - - hr
      rwa [(OrderRec.next_same _ _ r _ _ op).market]
  log ev hev := by
    have hle := ShadowEngine.length_le_step h.engine op
    rcases List.mem_append.1 hev with hev | hev
    · exact (hb.log ev hev).trans_le hle
    · obtain ⟨p, i, rfl, hi, hpos, rfl⟩ := ShadowEngine.mem_events hb.inv hev
      have hm := OrderRec.market_of_gained_pos hpos
      exact (hm ▸ hb.slots i hi).trans_le hle
  filled := by
    have hlog : (h.step op).filledTotal =
        h.filledTotal + ((h.engine.step op).2.map (·.qty)).sum := by
      simp [filledTotal, History.step, events, comp_def]
    rw [hlog, ← hb.filled]
    exact ShadowEngine.step_filledContracts h.engine op
  quoted := hb.step_quoted op

end History.Booked

/-- What the ledger of a run says: the books of the markets and their profit at settlement, the
contracts filled and quoted, and the net profit of the families. -/
structure History.Accounts (fees : FeeSchedule) (ops : List Op) (h : History) : Prop where
  book     : ∀ (m : Nat) (b : MarketBook), h.engine.ledger.books[m]? = some b →
    b.Exact fees (fillsOf m (h.log.map (·.fill)))
  gross    : ∀ (m : Nat) (b : MarketBook), h.engine.ledger.books[m]? = some b → b.settled →
    ∃ yesWins, outcomeOf ops m = some yesWins ∧ Ledger.grossPnlCents b =
      ((fillsOf m (h.log.map (·.fill))).map (Fill.pnlCents (settleCents yesWins))).sum
  filled   : h.engine.ledger.filledContracts =
    ∑ cid ∈ Finset.Icc 1 h.engine.cidSeq, h.filledOf cid
  onRecord : ∀ i, (h.engine.reg.slots i).state ≠ .free →
    (h.engine.reg.slots i).filled = h.filledOf (h.engine.reg.slots i).cid
  quoted   : h.engine.ledger.filledContracts ≤ h.engine.ledger.quotedContracts
  net      : ∀ family r, h.engine.ledger.report family = some r → r.netPnlCents =
    ((h.engine.ledger.books.filter fun b => b.family = family && b.settled && b.feeKnown).map
      fun b => Ledger.grossPnlCents b - b.feeCents).sum

namespace ShadowEngine

variable (fees : FeeSchedule) (track : Track) (speed : SpeedParams) (horizonNs : Nat)
  {ops : List Op}

lemma history_booked (hcount : ∀ op ∈ ops, op.CountNonneg)
    (hnames : Along (fun e op => (e.step op).1) NamesMarket (new fees track speed horizonNs) ops) :
    (history fees track speed horizonNs ops).Booked fees ops := by
  induction ops using List.reverseRecOn with
  | nil =>
    exact {
      inv := new_inv fees track speed horizonNs
      bounds := fun i hi => absurd rfl hi
      fees := rfl
      books := fun m b hb => (by cases hb)
      settled := fun m b hb => (by cases hb)
      outside := fun m _ => rfl
      slots := fun i hi => absurd rfl hi
      log := fun ev hev => (by cases hev)
      filled := rfl
      quoted := by
        have hroom : ∀ i, (new fees track speed horizonNs).room i = 0 := fun _ => rfl
        show (0 : Int) + ∑ i ∈ _, (new fees track speed horizonNs).room i ≤ 0
        simp only [hroom, Finset.sum_const_zero, Int.add_zero, le_refl] }
  | append_singleton ops op ih =>
    rw [along_append, ← history_engine] at hnames
    have hbefore := ih (fun op' hop' => hcount op' (List.mem_append_left _ hop')) hnames.1
    rw [history_append]
    exact hbefore.step (hcount op (by simp)) hnames.2.1

/-- No fill is on the id zero. -/
lemma history_filledOf_zero (ops : List Op) :
    (history fees track speed horizonNs ops).filledOf 0 = 0 := by
  induction ops using List.reverseRecOn with
  | nil => rfl
  | append_singleton ops op ih =>
    have hinv := history_inv fees track speed horizonNs ops
    rw [history_append]
    refine (History.filledOf_step_of_not_isLive hinv op ?_).trans ih
    rintro ⟨i, hc, hlive⟩
    obtain ⟨q, hq, -⟩ := (history_orders fees track speed horizonNs ops).placed i
      (OrdState.ne_free_of_isLive hlive)
    rw [hc] at hq
    cases hq

/-- The ledger of every run accounts for exactly the fills of the run. -/
theorem ledger_accounting (ops : List Op) (hcount : ∀ op ∈ ops, op.CountNonneg)
    (hnames : Along (fun e op => (e.step op).1) NamesMarket (new fees track speed horizonNs) ops) :
    (history fees track speed horizonNs ops).Accounts fees ops := by
  have hb := history_booked fees track speed horizonNs hcount hnames
  have htracked := history_tracked fees track speed horizonNs ops
  have hbook : ∀ (m : Nat) (b : MarketBook),
      (history fees track speed horizonNs ops).engine.ledger.books[m]? = some b → b.Exact fees
        (fillsOf m ((history fees track speed horizonNs ops).log.map (·.fill))) := by
    intro m b hm
    have hexact := hb.books m b hm
    rwa [hb.fees] at hexact
  refine ⟨hbook, fun m b hm hsettled => ?_, ?_, htracked.filled, ?_, fun family r hr => ?_⟩
  · obtain ⟨hsome, hyes⟩ := hb.settled m b hm
    rw [hsettled] at hsome
    obtain ⟨yesWins, hout⟩ := Option.isSome_iff_exists.1 hsome.symm
    refine ⟨yesWins, hout, ?_⟩
    rw [hout, Option.getD_some] at hyes
    rw [(hbook m b hm).gross, hyes]
  · rw [hb.filled, History.filledTotal_eq_sum htracked.log_le, Finset.range_eq_Ico,
      Finset.sum_eq_sum_Ico_succ_bot (Nat.succ_pos _), history_filledOf_zero, Int.zero_add]
    rfl
  · have hroom : 0 ≤ ∑ i ∈ Finset.range
        (history fees track speed horizonNs ops).engine.reg.capacity,
        (history fees track speed horizonNs ops).engine.room i := by
      apply Finset.sum_nonneg
      intro i _
      rw [room]
      split_ifs with hs
      · exact le_rfl
      · exact hb.bounds.remaining_nonneg hs
    have hquoted := hb.quoted
    rw [hb.filled]
    omega
  · rw [Ledger.report] at hr
    split at hr
    · cases hr
    · cases hr
      simp [Ledger.foldl_reportBook_net, List.filter_filter, Bool.and_comm, Bool.and_assoc]

/-- Four contracts bought at 40 cents in a market that settles at 100, less a fee of two cents. -/
theorem ledger_accounting_settled :
    let fees : FeeSchedule := ⟨[{ seriesPrefix := "KA".toList, makerRateE4 := 175 }]⟩
    let ops := [.market "KA-S".toList "test".toList, .place 0 40 10 true 1 (-1),
      .trade ⟨0, 39, 4, false, 10000000⟩, .settle 0 true 20000000]
    (history fees .strict {} 60000000000 ops).Accounts fees ops ∧
      ((history fees .strict {} 60000000000 ops).engine.ledger.report "test".toList).map
        (·.netPnlCents) = some 238 := by
  refine ⟨ledger_accounting _ _ _ _ _ ?_ ?_, by decide +kernel⟩
  · simp [Op.CountNonneg]
  · refine ⟨trivial, ?_, trivial, ?_, trivial⟩
    · show 0 < 1
      decide
    · show 0 < List.length _
      decide +kernel

end ShadowEngine

end HftBot
