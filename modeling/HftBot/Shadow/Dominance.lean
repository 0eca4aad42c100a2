import HftBot.Shadow.Log

/-!
# Track dominance

The same schedule on two engines, one of them on the optimistic track. Slots, free lists and stale
entries drift apart as soon as one engine fills an order that the other still holds, so the runs
are compared order by order: `OrderRec.Twin` relates the records of one order while both engines
hold it alive, and `Dominated` says what is left of that relation when the optimistic engine is
already done with the order.
-/

namespace HftBot

open HftBot.Core Function

/-- Prints have a nonnegative size. -/
def Op.SizeNonneg : Op → Prop
  | .trade p => 0 ≤ p.size
  | _        => True

/-! ### One order in two engines -/

namespace OrderRec

/-- One live order in two engines: same terms, same state, and no more fills on the left. -/
structure Twin (r o : OrderRec) : Prop where
  same        : Same o r
  state       : r.state = o.state
  cancelEffNs : r.cancelEffNs = o.cancelEffNs
  filled      : r.filled ≤ o.filled

variable {r o : OrderRec} (track : Track) (displayed displayed' : Int)

lemma Twin.hits (h : Twin r o) (p : Print) : FillSim.hits p r = FillSim.hits p o := by
  simp only [FillSim.hits, FillSim.crosses, h.same.market, h.same.activeTsNs, h.same.buyYes,
    h.same.priceCents, h.cancelEffNs]

/-- The optimistic track gives an order all of the print that it can take. -/
lemma fillQty_optimistic (p : Print) (o : OrderRec) :
    o.fillQty .optimistic p =
      if FillSim.hits p o then max 0 (min p.size o.remaining) else 0 := by
  simp [fillQty, FillSim.reach]

/-- No track gives an order more than that. -/
lemma fillQty_le (p : Print) (hsize : 0 ≤ p.size) (hq : 0 ≤ r.queueAhead) :
    r.fillQty track p ≤ if FillSim.hits p r then max 0 (min p.size r.remaining) else 0 := by
  have hreach : (FillSim.reach track r p.price p.size).2 ≤ p.size := by
    unfold FillSim.reach
    split_ifs <;> simp <;> omega
  unfold fillQty
  split_ifs with h h'
  · exact max_le_max le_rfl (min_le_min hreach le_rfl)
  · exact absurd h.1 h'
  · exact le_max_left _ _
  · exact le_rfl

/-- The clock keeps twins, unless it finishes the left one. -/
lemma Twin.clock (h : Twin r o) (now : Nat)
    (hlive : (r.clock track now displayed).recycled.state.isLive = true) :
    Twin (r.clock track now displayed).recycled (o.clock .optimistic now displayed').recycled := by
  have hr := clock_recycled_same track now displayed r
  have ho := clock_recycled_same .optimistic now displayed' o
  refine ⟨ho.symm.trans (h.same.trans hr), ?_, by simpa using h.cancelEffNs,
    by simpa using h.filled⟩
  rw [clock_recycled_state] at hlive ⊢
  rw [clock_recycled_state]
  simp only [clockState, h.state, h.cancelEffNs, h.same.activeTsNs] at hlive ⊢
  cases hs : o.state with
  | pendingNew =>
    simp only [hs] at hlive ⊢
    by_cases hel : track = .queue ∧ displayed < 0
    · by_cases hact : o.activeTsNs ≤ now
      · simp [hact, hel, OrdState.isLive] at hlive
      · simp [hact]
    · simp [hel]
  | _ => simp

/-- A print on resting twins: the left one gains no lead, and if it lives on then so does the right
one as its twin, or the right one is filled. -/
lemma Twin.print (h : Twin r o) (hs : r.state.isResting = true) (hq : r.QueueNonneg) {p : Print}
    (hsize : 0 ≤ p.size) :
    (r.print track p).recycled.filled ≤ (o.print .optimistic p).recycled.filled ∧
      ((r.print track p).recycled.state.isLive = true →
        Twin (r.print track p).recycled (o.print .optimistic p).recycled ∨
        ((o.print .optimistic p).recycled.state.isLive = false ∧
          (o.print .optimistic p).recycled.filled = o.count ∧
          (r.print track p).recycled.filled ≤ o.count)) := by
  have hle := fillQty_le track p hsize (hq hs)
  have ho := fillQty_optimistic p o
  have hpos := fillQty_nonneg track p r
  have hcap : 0 ≤ r.remaining → r.fillQty track p ≤ r.remaining := fillQty_le_remaining track p r
  have hfilled := h.filled
  have hcount := h.same.count
  rw [h.hits p] at hle
  have hlead : (r.print track p).recycled.filled ≤ (o.print .optimistic p).recycled.filled := by
    simp only [recycled_filled, print_filled]
    simp only [remaining] at hle ho hcap
    split_ifs at hle ho <;> omega
  refine ⟨hlead, fun hlive => ?_⟩
  have hfin : ∀ s : OrdState, s.isResting = true → ¬ (s = .filled ∨ s = .canceled) := by
    intro s hr
    cases s <;> simp_all [OrdState.isResting]
  have hr : (r.print track p).recycled.state = r.state := by
    rw [recycled_state, print_state] at hlive ⊢
    split_ifs at hlive ⊢ with hfill hst
    · cases hlive
    · simp at hst
    · cases hlive
    · rfl
  have hso : o.state.isResting = true := h.state ▸ hs
  by_cases hfill : 0 < o.fillQty .optimistic p ∧ o.remaining = o.fillQty .optimistic p
  · right
    refine ⟨?_, ?_, ?_⟩
    · rw [recycled_state, print_state, if_pos hfill]
      rfl
    · simp only [recycled_filled, print_filled, remaining] at hfill ⊢
      omega
    · simp only [recycled_filled, print_filled, remaining] at hfill hcap ⊢
      omega
  · left
    have hos : (o.print .optimistic p).recycled.state = o.state := by
      rw [recycled_state, print_state, if_neg hfill, if_neg (hfin _ hso)]
    refine ⟨?_, by rw [hr, hos, h.state], by simpa using h.cancelEffNs, hlead⟩
    have hsr := (print_same track p r).trans (recycled_same _)
    have hsame := (print_same .optimistic p o).trans (recycled_same _)
    exact hsame.symm.trans (h.same.trans hsr)

/-- One operation on twins. -/
theorem Twin.next (h : Twin r o) (hq : r.QueueNonneg) (speed : SpeedParams) (listed : Prop)
    [Decidable listed] {op : Op} (hop : op.SizeNonneg) :
    (r.next track speed displayed listed op).filled ≤
        (o.next .optimistic speed displayed' listed op).filled ∧
      ((r.next track speed displayed listed op).state.isLive = true →
        Twin (r.next track speed displayed listed op)
          (o.next .optimistic speed displayed' listed op) ∨
        ((o.next .optimistic speed displayed' listed op).state.isLive = false ∧
          (o.next .optimistic speed displayed' listed op).filled = o.count ∧
          (r.next track speed displayed listed op).filled ≤ o.count)) := by
  have hfilled := h.filled
  cases op with
  | market ticker family => exact ⟨hfilled, fun _ => .inl h⟩
  | place mkt priceCents count buyYes ts depth => exact ⟨hfilled, fun _ => .inl h⟩
  | cancel cid ts =>
    simp only [OrderRec.next, h.same.cid, h.state]
    split_ifs with hc
    · refine ⟨hfilled, fun _ => .inl ⟨?_, ?_, rfl, hfilled⟩⟩
      · exact ⟨h.same.cid, h.same.market, h.same.priceCents, h.same.count, h.same.buyYes,
          h.same.placeTsNs, h.same.activeTsNs⟩
      · simp only [cancelReq, h.state]
    · exact ⟨hfilled, fun _ => .inl h⟩
  | trade p =>
    simp only [OrderRec.next]
    by_cases hs : (r.clock track p.tsNs displayed).recycled.state.isResting = true
    · have htwin := h.clock track displayed displayed' p.tsNs (by
        simp only [OrdState.isLive, OrdState.isResting, Bool.or_eq_true] at hs ⊢
        tauto)
      have hcount : o.count = (o.clock .optimistic p.tsNs displayed').recycled.count :=
        (clock_recycled_same .optimistic p.tsNs displayed' o).count.symm
      rw [if_pos hs, if_pos (htwin.state ▸ hs), hcount]
      exact htwin.print track hs (clock_queueNonneg track displayed p.tsNs hq) hop
    · rw [if_neg hs]
      refine ⟨?_, fun hlive => ?_⟩
      · have hpos := fillQty_nonneg .optimistic p (o.clock .optimistic p.tsNs displayed').recycled
        split_ifs
        · simp only [recycled_filled, print_filled, clock_filled] at hpos ⊢
          omega
        · simpa using hfilled
      · have htwin := h.clock track displayed displayed' p.tsNs hlive
        rw [if_neg (htwin.state ▸ hs)]
        exact .inl htwin
  | settle mkt yesWins ts =>
    simp only [OrderRec.next]
    have hf : (r.clock track ts displayed).recycled.filled ≤
        (o.clock .optimistic ts displayed').recycled.filled := by simpa using hfilled
    refine ⟨?_, fun hlive => ?_⟩
    · split_ifs <;> exact hf
    · split_ifs at hlive with hc
      · cases hlive
      · have htwin := h.clock track displayed displayed' ts hlive
        rw [if_neg hc, if_neg (by rw [← htwin.state, ← htwin.same.market]; exact hc)]
        exact .inl htwin
  | advance now =>
    exact ⟨by simpa [OrderRec.next] using hfilled,
      fun hlive => .inl (h.clock track displayed displayed' now hlive)⟩

end OrderRec

namespace History

variable {h g : History}

/-! ### Two runs -/

/-- The order `cid` is dominated: no more fills in `h` than in `g`, and while `h` holds it alive,
`g` holds its twin, or is done with it because it is filled. -/
structure Dominated (h g : History) (cid : Nat) : Prop where
  filled : h.filledOf cid ≤ g.filledOf cid
  live   : ∀ i, (h.engine.reg.slots i).cid = cid → (h.engine.reg.slots i).state.isLive = true →
    (∃ j, (h.engine.reg.slots i).Twin (g.engine.reg.slots j) ∧
      (i ∈ h.engine.byMarket (h.engine.reg.slots i).market ↔
        j ∈ g.engine.byMarket (g.engine.reg.slots j).market)) ∨
    (¬ g.engine.IsLive cid ∧ g.filledOf cid = (h.engine.reg.slots i).count ∧
      h.filledOf cid ≤ (h.engine.reg.slots i).count)

/-- Two histories of one schedule, the right one on the optimistic track. -/
structure Paired (h g : History) : Prop where
  left      : h.Tracked
  right     : g.Tracked
  track     : g.engine.sim.track = .optimistic
  speed     : h.engine.speed = g.engine.speed
  cidSeq    : h.engine.cidSeq = g.engine.cidSeq
  dominated : ∀ cid, h.Dominated g cid

/-- A new order has a twin. -/
lemma Paired.place (hp : h.Paired g) {mkt : Nat} {priceCents count : Int} {buyYes : Bool}
    {ts : Nat} {depth : Int} {i : Nat}
    (hi : (h.engine.step (.place mkt priceCents count buyYes ts depth)).1.reg.slots i =
      h.engine.placedRec mkt priceCents count buyYes ts)
    (hby : (h.engine.step (.place mkt priceCents count buyYes ts depth)).1.byMarket =
      update h.engine.byMarket mkt (h.engine.byMarket mkt ++ [i]))
    (hfree : g.engine.reg.free ≠ []) :
    ∃ j, OrderRec.Twin
        ((h.engine.step (.place mkt priceCents count buyYes ts depth)).1.reg.slots i)
        ((g.engine.step (.place mkt priceCents count buyYes ts depth)).1.reg.slots j) ∧
      (i ∈ (h.engine.step (.place mkt priceCents count buyYes ts depth)).1.byMarket
          ((h.engine.step (.place mkt priceCents count buyYes ts depth)).1.reg.slots i).market ↔
        j ∈ (g.engine.step (.place mkt priceCents count buyYes ts depth)).1.byMarket
          ((g.engine.step (.place mkt priceCents count buyYes ts depth)).1.reg.slots j).market) := by
  obtain ⟨idx, rest, hcons⟩ := List.exists_cons_of_ne_nil hfree
  obtain ⟨reg, heq, -, -, -, -, -, hslots⟩ :=
    ShadowEngine.place_slot mkt priceCents count buyYes ts depth hp.right.inv hcons
  have hj : (g.engine.step (.place mkt priceCents count buyYes ts depth)).1.reg.slots idx =
      g.engine.placedRec mkt priceCents count buyYes ts := by
    simp [ShadowEngine.step, heq, hslots]
  have hrec : h.engine.placedRec mkt priceCents count buyYes ts =
      g.engine.placedRec mkt priceCents count buyYes ts := by
    simp only [ShadowEngine.placedRec, hp.cidSeq, hp.speed]
  refine ⟨idx, ?_, ?_⟩
  · rw [hi, hj, hrec]
    exact ⟨.refl _, rfl, rfl, le_rfl⟩
  · rw [hby, hi, hj]
    simp [ShadowEngine.step, heq, ShadowEngine.placedRec]

/-- One operation on an order that both engines hold. -/
lemma Paired.step_of_twin (hp : h.Paired g) {op : Op} (hop : op.SizeNonneg) {i j : Nat}
    (hl : (h.engine.reg.slots i).state.isLive = true)
    (htwin : (h.engine.reg.slots i).Twin (g.engine.reg.slots j))
    (hlist : i ∈ h.engine.byMarket (h.engine.reg.slots i).market ↔
      j ∈ g.engine.byMarket (g.engine.reg.slots j).market) :
    (h.step op).Dominated (g.step op) (h.engine.reg.slots i).cid := by
  have hi := OrdState.ne_free_of_isLive hl
  have hj : (g.engine.reg.slots j).state ≠ .free := htwin.state ▸ hi
  have hnext := htwin.next h.engine.sim.track (h.engine.depthOf i) (g.engine.depthOf j)
    (hp.left.queue i hi) h.engine.speed (i ∈ h.engine.byMarket (h.engine.reg.slots i).market) hop
  rw [OrderRec.next_congr _ _ (g.engine.reg.slots j) _ hlist] at hnext
  have hfh := hp.left.filledOf_step_eq op hi
  have hfg := hp.right.filledOf_step_eq op hj
  have hsh := ShadowEngine.step_slot_of_live hp.left.inv op hi
  have hsg := ShadowEngine.step_slot_of_live hp.right.inv op hj
  rw [hp.track, ← hp.speed] at hfg hsg
  rw [← htwin.same.cid] at hfg
  rw [← hfh, ← hfg, ← hsh, ← hsg] at hnext
  refine ⟨hnext.1, fun k hc hk => ?_⟩
  obtain rfl : k = i :=
    ShadowEngine.step_slot_unique hp.left.inv op hi (OrdState.ne_free_of_isLive hk) hc
  have hmh := (OrderRec.next_same h.engine.sim.track (h.engine.depthOf k) (h.engine.reg.slots k)
    h.engine.speed (k ∈ h.engine.byMarket (h.engine.reg.slots k).market) op)
  rw [← hsh] at hmh
  rcases hnext.2 hk with ht | ⟨hdead, hfull, hle⟩
  · left
    refine ⟨j, ht, ?_⟩
    have hmg := ht.same.market
    simp only [History.step]
    rw [ShadowEngine.mem_step_byMarket hp.left.inv op hi,
      ShadowEngine.mem_step_byMarket hp.right.inv op hj, ← hmg, hmh.market, hlist,
      htwin.same.market]
  · right
    refine ⟨?_, ?_, ?_⟩
    · rintro ⟨k', hc', hk'⟩
      obtain rfl : k' = j := ShadowEngine.step_slot_unique hp.right.inv op hj
        (OrdState.ne_free_of_isLive hk') (hc'.trans htwin.same.cid)
      exact Bool.false_ne_true (hdead.symm.trans hk')
    · exact hfull.trans (htwin.same.count.symm.trans hmh.count.symm)
    · exact hle.trans (le_of_eq (htwin.same.count.symm.trans hmh.count.symm))

/-- One operation on an order that the right engine has already filled. -/
lemma Paired.step_of_filled (hp : h.Paired g) (op : Op) {i : Nat}
    (hl : (h.engine.reg.slots i).state.isLive = true)
    (hdead : ¬ g.engine.IsLive (h.engine.reg.slots i).cid)
    (hfull : g.filledOf (h.engine.reg.slots i).cid = (h.engine.reg.slots i).count)
    (hle : h.filledOf (h.engine.reg.slots i).cid ≤ (h.engine.reg.slots i).count) :
    (h.step op).Dominated (g.step op) (h.engine.reg.slots i).cid := by
  have hi := OrdState.ne_free_of_isLive hl
  have hg := filledOf_step_of_not_isLive hp.right.inv op hdead
  have hcid : (h.engine.reg.slots i).cid ≤ g.engine.cidSeq := hp.cidSeq ▸ hp.left.inv.cid_le i hi
  have hh : (h.step op).filledOf (h.engine.reg.slots i).cid ≤ (h.engine.reg.slots i).count := by
    have hgain := OrderRec.gained_le_remaining h.engine.sim.track (h.engine.depthOf i)
      (h.engine.reg.slots i) op
    rw [filledOf_step hp.left.inv op hi, ShadowEngine.gainedAt]
    simp only [OrderRec.remaining, hp.left.filled i hi] at hgain
    omega
  refine ⟨by rw [hg, hfull]; exact hh, fun k hc hk => ?_⟩
  obtain rfl : k = i :=
    ShadowEngine.step_slot_unique hp.left.inv op hi (OrdState.ne_free_of_isLive hk) hc
  right
  have hcount : ((h.step op).engine.reg.slots k).count = (h.engine.reg.slots k).count := by
    simp only [History.step]
    rw [ShadowEngine.step_slot_of_live hp.left.inv op hi]
    exact (OrderRec.next_same _ _ _ _ _ op).count
  rw [hg, hfull, hcount]
  exact ⟨ShadowEngine.step_not_isLive hp.right.inv op hcid hdead, rfl, hh⟩

/-- One operation keeps every order dominated. -/
lemma Paired.step_dominated (hp : h.Paired g) {op : Op} (hop : op.SizeNonneg)
    (hfree : op.quote?.isSome → g.engine.reg.free ≠ []) (cid : Nat) :
    (h.step op).Dominated (g.step op) cid := by
  have hd := hp.dominated cid
  by_cases hlive : h.engine.IsLive cid
  · obtain ⟨i, rfl, hl⟩ := hlive
    rcases hd.live i rfl hl with ⟨j, htwin, hlist⟩ | ⟨hdead, hfull, hle⟩
    · exact hp.step_of_twin hop hl htwin hlist
    · exact hp.step_of_filled op hl hdead hfull hle
  · have hsame := filledOf_step_of_not_isLive hp.left.inv op hlive
    refine ⟨by rw [hsame]; exact hd.filled.trans (filledOf_le_step hp.right.inv op cid), ?_⟩
    intro i hc hl
    -- the order was placed just now
    simp only [History.step] at hc hl
    by_cases hs : (h.engine.reg.slots i).state = .free
    · rcases ShadowEngine.step_slot_of_free hp.left.inv op hs with heq |
        ⟨_, _, _, _, _, _, rfl, -, heq, -, hby⟩
      · rw [heq, hs] at hl
        cases hl
      · exact .inl (hp.place heq hby (hfree rfl))
    · rw [ShadowEngine.step_slot_of_live hp.left.inv op hs] at hc hl
      rw [(OrderRec.next_same _ _ _ _ _ op).cid] at hc
      exact absurd ⟨i, hc, OrderRec.next_isLive _ _ _ _ _ op hl⟩ hlive

lemma Paired.step (hp : h.Paired g) {op : Op} (hop : op.SizeNonneg)
    (hfree : op.quote?.isSome → g.engine.reg.free ≠ []) : (h.step op).Paired (g.step op) where
  left := hp.left.step op
  right := hp.right.step op
  track := (ShadowEngine.step_track g.engine op).trans hp.track
  speed := by
    simp only [History.step]
    rw [ShadowEngine.step_speed, ShadowEngine.step_speed, hp.speed]
  cidSeq := by
    simp only [History.step]
    rw [ShadowEngine.step_cidSeq, ShadowEngine.step_cidSeq, hp.cidSeq]
  dominated := hp.step_dominated hop hfree

/-! ### Totals -/

lemma Paired.filledTotal_le (hp : h.Paired g) : h.filledTotal ≤ g.filledTotal := by
  rw [filledTotal_eq_sum hp.left.log_le, filledTotal_eq_sum hp.right.log_le, hp.cidSeq]
  exact Finset.sum_le_sum fun cid _ => (hp.dominated cid).filled

end History

/-! ### Schedules -/

namespace ShadowEngine

lemma droppedFull_step (h : History) (op : Op) :
    (h.step op).engine.droppedFull =
      h.engine.droppedFull + if op.quote?.isSome ∧ h.engine.reg.free = [] then 1 else 0 := by
  cases op with
  | place mkt priceCents count buyYes ts depth =>
    cases hfree : h.engine.reg.free with
    | nil =>
      simp [History.step, step, place_full mkt priceCents count buyYes ts depth hfree, Op.quote?]
    | cons idx rest => simp [History.step, step, place, OrderRegistry.place, hfree]
  | cancel cid ts =>
    simp only [History.step, step, cancel]
    split
    · simp [Op.quote?]
    · split_ifs <;> simp_all [Op.quote?]
  | _ => simp [History.step, step, Op.quote?, onTrade, onSettle, advance, advanceActivations,
      advanceCancels, market]

variable (fees : FeeSchedule) (track : Track) (speed : SpeedParams) (horizonNs : Nat)
  {ops : List Op}

theorem history_paired (hsize : ∀ op ∈ ops, op.SizeNonneg)
    (hfull : (history fees .optimistic speed horizonNs ops).engine.droppedFull = 0) :
    (history fees track speed horizonNs ops).Paired
      (history fees .optimistic speed horizonNs ops) := by
  induction ops using List.reverseRecOn with
  | nil =>
    have htracked := fun track => history_tracked fees track speed horizonNs []
    exact ⟨htracked track, htracked .optimistic, rfl, rfl, rfl,
      fun _ => ⟨le_rfl, fun _ _ hl => (by cases hl)⟩⟩
  | append_singleton ops op ih =>
    rw [history_append] at hfull ⊢
    rw [history_append]
    simp only [run_cons, run_nil, droppedFull_step] at hfull ⊢
    have hbefore := ih (fun op' hop' => hsize op' (List.mem_append_left _ hop')) (by omega)
    apply hbefore.step (hsize op (by simp))
    intro hq hfree
    rw [if_pos ⟨hq, hfree⟩] at hfull
    omega

/-- A schedule that drops nothing drops nothing on the way. -/
lemma droppedFull_before {before : List Op} (hpre : before <+: ops)
    (hfull : (history fees track speed horizonNs ops).engine.droppedFull = 0) :
    (history fees track speed horizonNs before).engine.droppedFull = 0 := by
  obtain ⟨after, rfl⟩ := hpre
  induction after using List.reverseRecOn with
  | nil => simpa using hfull
  | append_singleton after op ih =>
    apply ih
    rw [← List.append_assoc, history_append] at hfull
    simp only [run_cons, run_nil, droppedFull_step] at hfull
    omega

/-- On one schedule without dropped orders, after every operation and for every order, neither the
strict nor the queue track has filled more than the optimistic one; nor has it in total. -/
theorem track_dominance (ops : List Op) (hsize : ∀ op ∈ ops, op.SizeNonneg)
    (hfull : ∀ track, (history fees track speed horizonNs ops).engine.droppedFull = 0)
    (before : List Op) (hpre : before <+: ops) :
    (∀ cid,
      (history fees .strict speed horizonNs before).filledOf cid ≤
          (history fees .optimistic speed horizonNs before).filledOf cid ∧
        (history fees .queue speed horizonNs before).filledOf cid ≤
          (history fees .optimistic speed horizonNs before).filledOf cid) ∧
    (history fees .strict speed horizonNs before).filledTotal ≤
      (history fees .optimistic speed horizonNs before).filledTotal ∧
    (history fees .queue speed horizonNs before).filledTotal ≤
      (history fees .optimistic speed horizonNs before).filledTotal := by
  have hpair : ∀ track, (history fees track speed horizonNs before).Paired
      (history fees .optimistic speed horizonNs before) := by
    intro track
    exact history_paired fees track speed horizonNs (fun op hop => hsize op (hpre.subset hop))
      (droppedFull_before fees .optimistic speed horizonNs hpre (hfull .optimistic))
  exact ⟨fun cid => ⟨((hpair .strict).dominated cid).filled, ((hpair .queue).dominated cid).filled⟩,
    (hpair .strict).filledTotal_le, (hpair .queue).filledTotal_le⟩

/-- Two orders and a print at the level of one of them. -/
theorem track_dominance_two_orders :
    (history ⟨[]⟩ .strict {} 60000000000 [.place 0 40 10 true 1 3, .place 0 41 5 true 1 2,
        .trade ⟨0, 40, 8, false, 10000000⟩]).filledTotal ≤
      (history ⟨[]⟩ .optimistic {} 60000000000 [.place 0 40 10 true 1 3, .place 0 41 5 true 1 2,
        .trade ⟨0, 40, 8, false, 10000000⟩]).filledTotal := by
  refine (track_dominance ⟨[]⟩ {} 60000000000 [.place 0 40 10 true 1 3,
    .place 0 41 5 true 1 2, .trade ⟨0, 40, 8, false, 10000000⟩] ?_ ?_ _ (List.prefix_refl _)).2.1
  · simp [Op.SizeNonneg]
  · intro track
    cases track <;> decide +kernel

end ShadowEngine

end HftBot
