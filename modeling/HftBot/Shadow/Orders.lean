import HftBot.Shadow.Fills

/-!
# Orders and their placements

Client ids number the placements of a schedule from one. `quoteOf` finds the placement of an id,
and `history_orders` says that every order in a slot still carries what it was placed with. An
order that is no longer live stays so, and nothing is ever filled on it again.
-/

namespace HftBot

open HftBot.Core Function

/-- The arguments of a placement. -/
structure Quote where
  mkt              : Nat
  priceCents       : Int
  count            : Int
  buyYes           : Bool
  ts               : Nat
  displayedAtLevel : Int
deriving DecidableEq, Repr

def Op.quote? : Op → Option Quote
  | .place mkt priceCents count buyYes ts depth => some ⟨mkt, priceCents, count, buyYes, ts, depth⟩
  | _                                           => none

/-- The operation settles market `m`. -/
def Op.Settles (m : Nat) : Op → Prop
  | .settle mkt _ _ => mkt = m
  | _               => False

/-- The placement with client id `cid`. -/
def quoteOf (ops : List Op) (cid : Nat) : Option Quote :=
  if cid = 0 then none else (ops.filterMap Op.quote?)[cid - 1]?

lemma quoteOf_append {ops : List Op} {cid : Nat} {q : Quote} (h : quoteOf ops cid = some q)
    (more : List Op) : quoteOf (ops ++ more) cid = some q := by
  unfold quoteOf at h ⊢
  split_ifs at h ⊢ with hz
  rw [List.filterMap_append, List.getElem?_append_left (List.getElem?_eq_some_iff.mp h).1, h]

lemma le_length_of_quoteOf {ops : List Op} {cid : Nat} {q : Quote}
    (h : quoteOf ops cid = some q) : cid ≤ (ops.filterMap Op.quote?).length := by
  unfold quoteOf at h
  split_ifs at h with hz
  have := (List.getElem?_eq_some_iff.mp h).1
  omega

/-- The timestamps of a schedule. -/
def tapeTimes (ops : List Op) : List Nat := ops.filterMap Op.ts?

/-- Timestamps are positive and never go back. -/
def Tape (ops : List Op) : Prop :=
  (tapeTimes ops).Pairwise (· ≤ ·) ∧ ∀ t ∈ tapeTimes ops, 0 < t

instance (ops : List Op) : Decidable (Tape ops) := inferInstanceAs (Decidable (_ ∧ _))

/-- The record carries what the order was placed with. -/
structure OrderRec.PlacedAs (r : OrderRec) (speed : SpeedParams) (q : Quote) : Prop where
  market     : r.market = q.mkt
  priceCents : r.priceCents = q.priceCents
  count      : r.count = q.count
  buyYes     : r.buyYes = q.buyYes
  placeTsNs  : r.placeTsNs = q.ts
  activeTsNs : r.activeTsNs = addNs q.ts speed.placeLatencyNs

lemma OrderRec.PlacedAs.same {r r' : OrderRec} {speed : SpeedParams} {q : Quote}
    (h : r.PlacedAs speed q) (hs : Same r r') : r'.PlacedAs speed q :=
  ⟨hs.market.trans h.market, hs.priceCents.trans h.priceCents, hs.count.trans h.count,
    hs.buyYes.trans h.buyYes, hs.placeTsNs.trans h.placeTsNs, hs.activeTsNs.trans h.activeTsNs⟩

namespace ShadowEngine

variable {e : ShadowEngine}

lemma history_append (fees : FeeSchedule) (track : Track) (speed : SpeedParams) (horizonNs : Nat)
    (ops more : List Op) :
    history fees track speed horizonNs (ops ++ more) =
      run History.step (history fees track speed horizonNs ops) more :=
  run_append _ _ _ _

/-! ### What a step leaves alone -/

@[simp] lemma step_speed (e : ShadowEngine) (op : Op) : (e.step op).1.speed = e.speed := by
  cases op with
  | place mkt priceCents count buyYes ts depth =>
    simp only [step, place]
    split <;> rfl
  | cancel cid ts =>
    simp only [step, cancel]
    split
    · rfl
    · split_ifs <;> rfl
  | _ => rfl

@[simp] lemma step_track (e : ShadowEngine) (op : Op) : (e.step op).1.sim.track = e.sim.track := by
  cases op with
  | place mkt priceCents count buyYes ts depth =>
    simp only [step, place]
    split <;> rfl
  | cancel cid ts =>
    simp only [step, cancel]
    split
    · rfl
    · split_ifs <;> rfl
  | trade p => exact advance_track e p.tsNs
  | settle mkt yesWins ts =>
    have visit : ∀ slots reg sim,
        ((List.foldl (settleVisit mkt) (reg, sim) slots).2.track) = sim.track := by
      intro slots
      induction slots with
      | nil => intro reg sim; rfl
      | cons i slots ih =>
        intro reg sim
        simp only [List.foldl_cons, settleVisit]
        split_ifs <;> simp [ih]
    simp only [step, onSettle, visit, advance_track]
  | advance now => exact advance_track e now
  | market ticker family => rfl

@[simp] lemma advance_capacity (e : ShadowEngine) (now : Nat) :
    (e.advance now).reg.capacity = e.reg.capacity := by
  have hcancel : (e.advance now).reg.capacity = (e.advanceActivations now).reg.capacity := by
    refine sweep_const (fun st => st.1.capacity) ?_ _
      ((e.advanceActivations now).reg, (e.advanceActivations now).sim)
    rintro ⟨reg, sim⟩ i
    simp only [cancelVisit]
    split_ifs <;> simp
  rw [hcancel]
  refine sweep_const (fun st => st.1.capacity) ?_ _ (e.reg, e.sim, e.ineligible)
  rintro ⟨reg, sim, n⟩ p
  simp only [activateVisit, FillSim.activate]
  split_ifs <;> simp [OrderRegistry.setQueueAhead]

lemma bookFills_capacity (fills : List Fill) (reg : OrderRegistry) (ledger : Ledger) :
    (bookFills fills reg ledger).1.capacity = reg.capacity := by
  induction fills generalizing reg ledger with
  | nil => rfl
  | cons f fills ih =>
    simp only [bookFills, List.foldl_cons] at ih ⊢
    rw [ih]
    split_ifs <;> rfl

/-- The registry keeps its size. -/
@[simp] lemma step_capacity (e : ShadowEngine) (op : Op) :
    (e.step op).1.reg.capacity = e.reg.capacity := by
  cases op with
  | market ticker family => rfl
  | place mkt priceCents count buyYes ts depth =>
    cases hfree : e.reg.free with
    | nil => rw [step, place_full mkt priceCents count buyYes ts depth hfree]
    | cons idx rest =>
      simp only [step, place, OrderRegistry.place, hfree, OrderRegistry.emplaceCid]
      split_ifs <;> simp
  | cancel cid ts =>
    simp only [step, cancel]
    split
    · rfl
    · split_ifs <;> simp [OrderRegistry.setCancelEff]
  | trade p =>
    have hsim : ((e.advance p.tsNs).sim.onTrade (e.advance p.tsNs).reg p).2.1.capacity =
        (e.advance p.tsNs).reg.capacity :=
      sweep_const (fun st => st.1.capacity)
        (fun st i => (FillSim.visit_frame _ p st i).capacity) _ ((e.advance p.tsNs).reg, [])
    simp only [step, onTrade, bookFills_capacity, hsim, advance_capacity]
  | settle mkt yesWins ts =>
    have visit : ∀ slots reg sim,
        ((List.foldl (settleVisit mkt) (reg, sim) slots).1.capacity) = reg.capacity := by
      intro slots
      induction slots with
      | nil => intro reg sim; rfl
      | cons i slots ih =>
        intro reg sim
        simp only [List.foldl_cons, settleVisit]
        split_ifs <;> simp [ih]
    simp only [step, onSettle, visit, advance_capacity]
  | advance now => exact advance_capacity e now

lemma step_cidSeq (e : ShadowEngine) (op : Op) :
    (e.step op).1.cidSeq = e.cidSeq + (op.quote?.toList).length := by
  cases op with
  | place mkt priceCents count buyYes ts depth =>
    simp only [step, place]
    split <;> rfl
  | cancel cid ts =>
    simp only [step, cancel]
    split
    · rfl
    · split_ifs <;> rfl
  | _ => rfl

/-- The pending list grows only by the order that is placed. -/
lemma mem_step_pending (h : e.Inv) {op : Op} {p : Pending}
    (hp : p ∈ (e.step op).1.pendingActivation) :
    p ∈ e.pendingActivation ∨ (e.reg.slots p.idx).state = .free := by
  have hadv : ∀ now, ∀ q ∈ (e.advance now).pendingActivation, q ∈ e.pendingActivation :=
    fun now => sweep_subset _ _ _
  cases op with
  | place mkt priceCents count buyYes ts depth =>
    cases hfree : e.reg.free with
    | nil =>
      rw [step, place_full mkt priceCents count buyYes ts depth hfree] at hp
      exact .inl hp
    | cons idx rest =>
      obtain ⟨reg, heq, -⟩ := place_slot mkt priceCents count buyYes ts depth h hfree
      simp only [step, heq, List.mem_append, List.mem_singleton] at hp
      rcases hp with hp | rfl
      · exact .inl hp
      · exact .inr ((h.consistent.wf.mem_free idx).mp (by simp [hfree])).2
  | cancel cid ts =>
    left
    rcases cancel_cases h cid ts with ⟨-, heq⟩ | ⟨i, reg, -, -, heq, -⟩
    · simpa [step, heq] using hp
    · simpa [step, heq] using hp
  | trade p' => exact .inl (hadv _ p hp)
  | settle mkt yesWins ts => exact .inl (hadv _ p hp)
  | advance now => exact .inl (hadv _ p hp)
  | market ticker family => exact .inl hp

/-- An order that keeps waiting keeps the depth it was placed with. -/
lemma step_depthOf (h : e.Inv) (op : Op) {i : Nat} (hi : (e.reg.slots i).state ≠ .free)
    (hnew : ((e.step op).1.reg.slots i).state = .pendingNew) :
    (e.step op).1.depthOf i = e.depthOf i := by
  obtain ⟨p, hp, rfl⟩ := exists_pending (step_inv h op) hnew
  have hold := (mem_step_pending h hp).resolve_right hi
  rw [depthOf_of_mem (step_inv h op) hp, depthOf_of_mem h hold]

/-- An order stays on the list of its market until that market settles. -/
lemma mem_step_byMarket (h : e.Inv) (op : Op) {i : Nat} (hi : (e.reg.slots i).state ≠ .free)
    (m : Nat) : i ∈ (e.step op).1.byMarket m ↔ i ∈ e.byMarket m ∧ ¬ op.Settles m := by
  cases op with
  | place mkt priceCents count buyYes ts depth =>
    cases hfree : e.reg.free with
    | nil =>
      simp [step, place_full mkt priceCents count buyYes ts depth hfree, Op.Settles]
    | cons idx rest =>
      obtain ⟨reg, heq, -⟩ := place_slot mkt priceCents count buyYes ts depth h hfree
      have hne : i ≠ idx := by
        rintro rfl
        exact hi ((h.consistent.wf.mem_free i).mp (by simp [hfree])).2
      by_cases hm : m = mkt
      · subst hm; simp [step, heq, hne, Op.Settles]
      · simp [step, heq, hm, Op.Settles]
  | cancel cid ts =>
    rcases cancel_cases h cid ts with ⟨-, heq⟩ | ⟨_, reg, -, -, heq, -⟩
    · simp [step, heq, Op.Settles]
    · simp [step, heq, Op.Settles]
  | trade p => simp [step, onTrade, advance_market, Op.Settles]
  | settle mkt yesWins ts =>
    by_cases hm : m = mkt
    · subst hm; simp [step, onSettle, Op.Settles]
    · simp [step, onSettle, hm, Ne.symm hm, advance_market, Op.Settles]
  | advance now => simp [step, advance_market, Op.Settles]
  | market ticker family => simp [step, market, Op.Settles]

/-! ### The order behind a slot -/

/-- Every order in a slot is the placement of its id, and waits with the depth it came with. -/
structure Orders (e : ShadowEngine) (ops : List Op) : Prop where
  cidSeq : e.cidSeq = (ops.filterMap Op.quote?).length
  placed : ∀ i, (e.reg.slots i).state ≠ .free → ∃ q, quoteOf ops (e.reg.slots i).cid = some q ∧
    (e.reg.slots i).PlacedAs e.speed q ∧
    ((e.reg.slots i).state = .pendingNew → e.depthOf i = q.displayedAtLevel)

lemma Orders.step (h : e.Inv) {ops : List Op} (ho : e.Orders ops) (op : Op) :
    (e.step op).1.Orders (ops ++ [op]) := by
  constructor
  · rw [step_cidSeq, ho.cidSeq, List.filterMap_append, List.length_append]
    cases hq : op.quote? <;> simp [hq]
  · intro i hi
    rw [step_speed]
    by_cases hs : (e.reg.slots i).state = .free
    · rcases step_slot_of_free h op hs with heq | ⟨mkt, priceCents, count, buyYes, ts, depth,
        rfl, -, heq, hpend, -⟩
      · exact absurd (heq ▸ hs) hi
      · refine ⟨⟨mkt, priceCents, count, buyYes, ts, depth⟩, ?_, ?_, ?_⟩
        · rw [heq]
          simp [quoteOf, placedRec, Op.quote?, ho.cidSeq]
        · rw [heq]
          exact ⟨rfl, rfl, rfl, rfl, rfl, rfl⟩
        · intro _
          exact depthOf_of_mem (step_inv h _) (p := ⟨i, depth⟩) (by simp [hpend])
    · obtain ⟨q, hq, hp, hd⟩ := ho.placed i hs
      have heq := step_slot_of_live h op hs
      have hsame := OrderRec.next_same e.sim.track (e.depthOf i) (e.reg.slots i) e.speed
        (i ∈ e.byMarket (e.reg.slots i).market) op
      rw [← heq] at hsame
      refine ⟨q, ?_, hp.same hsame, ?_⟩
      · rw [hsame.cid]
        exact quoteOf_append hq _
      · intro hnew
        rw [step_depthOf h op hs hnew]
        apply hd
        by_contra hne
        rw [heq] at hnew
        exact OrderRec.next_ne_pendingNew _ _ _ _ _ op hne hnew

theorem history_orders (fees : FeeSchedule) (track : Track) (speed : SpeedParams)
    (horizonNs : Nat) (ops : List Op) :
    (history fees track speed horizonNs ops).engine.Orders ops := by
  induction ops using List.reverseRecOn with
  | nil => exact ⟨rfl, fun i hi => absurd rfl hi⟩
  | append_singleton ops op ih =>
    rw [history_append]
    exact ih.step (history_inv fees track speed horizonNs ops) op

/-! ### Live orders -/

/-- The order `cid` waits or rests. -/
def IsLive (e : ShadowEngine) (cid : Nat) : Prop :=
  ∃ i, (e.reg.slots i).cid = cid ∧ (e.reg.slots i).state.isLive = true

/-- An order that was placed and is not live does not come back. -/
lemma step_not_isLive (h : e.Inv) (op : Op) {cid : Nat} (hcid : cid ≤ e.cidSeq)
    (hdead : ¬ e.IsLive cid) : ¬ (e.step op).1.IsLive cid := by
  rintro ⟨i, hc, hlive⟩
  by_cases hs : (e.reg.slots i).state = .free
  · rcases step_slot_of_free h op hs with heq | ⟨_, _, _, _, _, _, -, -, heq, -⟩
    · rw [heq, hs] at hlive
      cases hlive
    · rw [heq] at hc
      simp only [placedRec] at hc
      omega
  · rw [step_slot_of_live h op hs] at hc hlive
    rw [(OrderRec.next_same _ _ _ _ _ op).cid] at hc
    exact hdead ⟨i, hc, OrderRec.next_isLive _ _ _ _ _ op hlive⟩

/-- A fill is on a live order. -/
lemma isLive_of_mem_events (h : e.Inv) {op : Op} {ev : FillEvent}
    (hev : ev ∈ History.events e op) : e.IsLive ev.cid := by
  obtain ⟨p, i, rfl, -, hpos, rfl⟩ := mem_events h hev
  exact ⟨i, rfl, OrderRec.isLive_of_gained_pos _ _ _ hpos⟩

/-- Nothing happens to an order once it is not live: it stays so and no fill is ever emitted on
it. -/
theorem run_not_isLive {h : History} (hinv : h.engine.Inv) {cid : Nat}
    (hcid : cid ≤ h.engine.cidSeq) (hdead : ¬ h.engine.IsLive cid) (later : List Op) :
    ¬ (run History.step h later).engine.IsLive cid ∧
      (run History.step h later).log.filter (·.cid = cid) = h.log.filter (·.cid = cid) := by
  refine (run_inv (P := fun h' : History => h'.engine.Inv ∧ cid ≤ h'.engine.cidSeq ∧
      ¬ h'.engine.IsLive cid ∧ h'.log.filter (·.cid = cid) = h.log.filter (·.cid = cid))
    (A := fun _ _ => True) ?_ ⟨hinv, hcid, hdead, rfl⟩ (along_of_forall fun _ _ => trivial)).2.2
  rintro h' op ⟨hinv', hcid', hdead', hlog⟩ -
  refine ⟨step_inv hinv' op, ?_, step_not_isLive hinv' op hcid' hdead', ?_⟩
  · have := step_cidSeq h'.engine op
    simp only [History.step]
    omega
  · have hnone : (History.events h'.engine op).filter (·.cid = cid) = [] := by
      rw [List.filter_eq_nil_iff]
      intro ev hev hc
      simp only [decide_eq_true_eq] at hc
      exact hdead' (hc ▸ isLive_of_mem_events hinv' hev)
    simp only [History.step, List.filter_append, hlog, hnone, List.append_nil]

end ShadowEngine

end HftBot
