import HftBot.Shadow.Orders

/-!
# Timing windows

An order fills from the end of its placement latency until a cancel takes effect. The engine keeps
the effective time of a cancel in the order's record. A second cancel of an order that still waits
for its activation overwrites that time, so the window is kept in the schedules without such a
cancel: `TimingReady` is the condition on each operation, `timing_windows` the result over whole
schedules.
-/

namespace HftBot

open HftBot.Core Function

lemma Tape.of_append {ops more : List Op} (h : Tape (ops ++ more)) : Tape ops := by
  simp only [Tape, tapeTimes, List.filterMap_append, List.pairwise_append, List.mem_append] at h
  exact ⟨h.1.1, fun t ht => h.2 t (.inl ht)⟩

lemma mem_tapeTimes_cancel (cid t : Nat) : t ∈ tapeTimes [.cancel cid t] := by
  simp [tapeTimes, Op.ts?]

lemma Tape.le_of_mem {ops more : List Op} (h : Tape (ops ++ more)) {t t' : Nat}
    (ht : t ∈ tapeTimes ops) (ht' : t' ∈ tapeTimes more) : t ≤ t' := by
  simp only [Tape, tapeTimes, List.filterMap_append, List.pairwise_append] at h
  exact h.1.2.2 t ht t' ht'

/-! ### One order under a cancel -/

namespace OrderRec

/-- A cancel is under way and takes effect by `d`. -/
structure DiesBy (d : Nat) (r : OrderRec) : Prop where
  state : r.state = .pendingNew ∨ r.state = .pendingCancel
  set   : r.cancelEffNs ≠ 0
  le    : r.cancelEffNs ≤ d

variable (track : Track) (displayed : Int) (r : OrderRec)

/-- An order that gains contracts is active and no cancel on it is in effect. -/
lemma window_of_gained_pos {p : Print} (h : 0 < r.gained track displayed (.trade p)) :
    r.activeTsNs ≤ p.tsNs ∧ (r.cancelEffNs ≠ 0 → p.tsNs < r.cancelEffNs) := by
  have hsame := clock_recycled_same track p.tsNs displayed r
  simp only [gained] at h
  split_ifs at h with hs
  · unfold fillQty at h
    split_ifs at h with hh
    · have hhits := hh.1
      simp only [FillSim.hits, hsame.activeTsNs, recycled_cancelEffNs, clock_cancelEffNs,
        Bool.and_eq_true, decide_eq_true_eq, Bool.not_eq_true', Bool.and_eq_false_iff] at hhits
      refine ⟨hhits.1.1.2, fun hz => ?_⟩
      have := hhits.2.resolve_left (by simpa using hz)
      simpa using this
    · omega
  · omega

/-- A dying order that is still live after an operation is still dying, as long as no cancel
moves its end. -/
lemma next_diesBy (speed : SpeedParams) (listed : Prop) [Decidable listed] {op : Op} {d : Nat}
    (h : r.DiesBy d)
    (hop : ∀ ts, op = .cancel r.cid ts → r.state = .pendingNew →
      addNs ts speed.cancelLatencyNs ≠ 0 ∧ addNs ts speed.cancelLatencyNs ≤ r.cancelEffNs)
    (hlive : (r.next track speed displayed listed op).state.isLive = true) :
    (r.next track speed displayed listed op).DiesBy d := by
  have hclock : ∀ now, (r.clock track now displayed).recycled.state.isLive = true →
      (r.clock track now displayed).recycled.DiesBy d := by
    intro now hl
    refine ⟨?_, by simpa using h.set, by simpa using h.le⟩
    rw [clock_recycled_state, clockState] at hl ⊢
    rcases h.state with hs | hs
    · simp only [hs, h.set, if_false] at hl ⊢
      split_ifs at hl ⊢ <;> simp_all [OrdState.isLive]
    · simp only [hs] at hl ⊢
      split_ifs at hl ⊢ <;> simp_all [OrdState.isLive]
  cases op with
  | market ticker family => exact h
  | place mkt priceCents count buyYes ts depth => exact h
  | cancel cid ts =>
    simp only [next]
    split_ifs with hc
    · obtain ⟨rfl, hs⟩ := hc
      have hnew : r.state = .pendingNew := by
        rcases hs with hs | hs
        · exact hs
        · rcases h.state with hs' | hs' <;> simp [hs] at hs'
      obtain ⟨hne, hle⟩ := hop ts rfl hnew
      exact ⟨.inl (by simp [cancelReq, hnew]), hne, hle.trans h.le⟩
    · exact h
  | trade p =>
    simp only [next] at hlive ⊢
    split_ifs at hlive ⊢ with hs
    · have hl := print_recycled_isLive track p _ hlive
      have hd := hclock p.tsNs hl
      refine ⟨?_, by simpa using hd.set, by simpa using hd.le⟩
      rw [recycled_state, print_state] at hlive ⊢
      split_ifs at hlive ⊢
      all_goals first | cases hlive | exact hd.state
    · exact hclock p.tsNs hlive
  | settle mkt yesWins ts =>
    simp only [next] at hlive ⊢
    split_ifs at hlive ⊢
    · cases hlive
    · exact hclock ts hlive
  | advance now => exact hclock now hlive

/-- The effective time of a cancel is the time of some cancel plus the latency, and it is set on
every order that is dying. -/
structure CancelAt (times : List Nat) (latency : Nat) (r : OrderRec) : Prop where
  time : r.cancelEffNs ≠ 0 → ∃ t ∈ times, r.cancelEffNs = t + latency
  set  : r.state = .pendingCancel → r.cancelEffNs ≠ 0

lemma CancelAt.mono {times : List Nat} {latency : Nat} {r : OrderRec}
    (h : r.CancelAt times latency) (more : List Nat) : r.CancelAt (times ++ more) latency := by
  refine ⟨fun hne => ?_, h.set⟩
  obtain ⟨t, ht, heq⟩ := h.time hne
  exact ⟨t, List.mem_append_left _ ht, heq⟩

lemma next_cancelAt (speed : SpeedParams) (listed : Prop) [Decidable listed] {op : Op}
    {times : List Nat} {r : OrderRec} (h : r.CancelAt times speed.cancelLatencyNs)
    (hop : ∀ cid ts, op = .cancel cid ts → 0 < ts ∧ ts + speed.cancelLatencyNs < 2 ^ 64) :
    (r.next track speed displayed listed op).CancelAt (times ++ op.ts?.toList)
      speed.cancelLatencyNs := by
  have hclock : ∀ now, (r.clock track now displayed).recycled.CancelAt times
      speed.cancelLatencyNs := by
    intro now
    refine ⟨by simpa using h.time, ?_⟩
    rw [clock_recycled_state, clockState, recycled_cancelEffNs, clock_cancelEffNs]
    intro hs hz
    cases hst : r.state with
    | pendingCancel => exact h.set hst hz
    | pendingNew =>
      simp only [hst, hz, if_true] at hs
      split_ifs at hs
    | _ => simp [hst] at hs
  cases op with
  | market ticker family => exact h.mono _
  | place mkt priceCents count buyYes ts depth => exact h.mono _
  | cancel cid ts =>
    obtain ⟨hpos, hlt⟩ := hop cid ts rfl
    have hadd : addNs ts speed.cancelLatencyNs = ts + speed.cancelLatencyNs := Nat.mod_eq_of_lt hlt
    simp only [next]
    split_ifs with hc
    · refine ⟨fun _ => ⟨ts, by simp [Op.ts?], hadd⟩, fun _ => ?_⟩
      simp only [cancelReq, hadd]
      omega
    · exact h.mono _
  | trade p =>
    simp only [next]
    split_ifs
    · constructor
      · simpa using ((hclock p.tsNs).mono (Op.trade p).ts?.toList).time
      · intro hs
        have hset := (hclock p.tsNs).set
        rw [recycled_state, print_state] at hs
        split_ifs at hs
        simpa using hset hs
    · exact (hclock p.tsNs).mono _
  | settle mkt yesWins ts =>
    simp only [next]
    split_ifs
    · refine ⟨by simpa using ((hclock ts).mono (Op.settle mkt yesWins ts).ts?.toList).time, ?_⟩
      intro hs
      cases hs
    · exact (hclock ts).mono _
  | advance now => exact (hclock now).mono _

end OrderRec

/-! ### Schedules -/

namespace ShadowEngine

/-- What the timing windows ask of an operation. Neither latency may overflow a timestamp. A
cancel must not move the end of an order that waits for its activation with a cancel already
under way; with no cancel latency at all it must not come at the very time of a fill. -/
def TimingReady (h : History) : Op → Prop
  | .place _ _ _ _ ts _ => ts + h.engine.speed.placeLatencyNs < 2 ^ 64
  | .cancel cid ts      =>
    ts + h.engine.speed.cancelLatencyNs < 2 ^ 64 ∧
    (∀ i, (h.engine.reg.slots i).cid = cid → (h.engine.reg.slots i).state = .pendingNew →
      (h.engine.reg.slots i).cancelEffNs ≠ 0 →
      ts + h.engine.speed.cancelLatencyNs ≤ (h.engine.reg.slots i).cancelEffNs) ∧
    (h.engine.speed.cancelLatencyNs = 0 → h.engine.IsLive cid →
      ∀ ev ∈ h.log, ev.cid = cid → ev.fill.tsNs ≠ ts)
  | _                   => True

/-- The timing windows of a schedule: every fill comes at or after the end of the placement
latency and before a cancel of the live order is in effect, and a repeated cancel never moves the
end of an order to a later time. -/
structure TimingWindows (fees : FeeSchedule) (track : Track) (speed : SpeedParams)
    (horizonNs : Nat) (ops : List Op) : Prop where
  placed   : ∀ ev ∈ (history fees track speed horizonNs ops).log,
    ∃ q, quoteOf ops ev.cid = some q ∧ q.ts + speed.placeLatencyNs ≤ ev.fill.tsNs
  canceled : ∀ before cid t₀ after, ops = before ++ .cancel cid t₀ :: after →
    (history fees track speed horizonNs before).engine.IsLive cid →
      ∀ ev ∈ (history fees track speed horizonNs ops).log, ev.cid = cid →
        ev.fill.tsNs < t₀ + speed.cancelLatencyNs
  repeated : ∀ before cid t after, ops = before ++ .cancel cid t :: after →
    ∀ i, ((history fees track speed horizonNs before).engine.reg.slots i).cid = cid →
      ((history fees track speed horizonNs before).engine.reg.slots i).state.isLive = true →
      ((history fees track speed horizonNs before).engine.reg.slots i).cancelEffNs ≠ 0 →
      ((history fees track speed horizonNs (before ++ [.cancel cid t])).engine.reg.slots
          i).cancelEffNs ≤
        ((history fees track speed horizonNs before).engine.reg.slots i).cancelEffNs

section

variable (fees : FeeSchedule) (track : Track) (speed : SpeedParams) (horizonNs : Nat)

@[simp] lemma history_speed (ops : List Op) :
    (history fees track speed horizonNs ops).engine.speed = speed := by
  induction ops using List.reverseRecOn with
  | nil => rfl
  | append_singleton ops op ih =>
    rw [history_append]
    exact (step_speed _ op).trans ih

@[simp] lemma history_track (ops : List Op) :
    (history fees track speed horizonNs ops).engine.sim.track = track := by
  induction ops using List.reverseRecOn with
  | nil => rfl
  | append_singleton ops op ih =>
    rw [history_append]
    exact (step_track _ op).trans ih

/-- Every fill comes at the time of some operation. -/
lemma history_log_ts (ops : List Op) :
    ∀ ev ∈ (history fees track speed horizonNs ops).log, ev.fill.tsNs ∈ tapeTimes ops := by
  induction ops using List.reverseRecOn with
  | nil => simp [history]
  | append_singleton ops op ih =>
    intro ev hev
    rw [history_append] at hev
    simp only [run_cons, run_nil, History.step, List.mem_append] at hev
    rw [tapeTimes, List.filterMap_append, List.mem_append]
    rcases hev with hev | hev
    · exact .inl (ih ev hev)
    · obtain ⟨p, i, rfl, -, -, rfl⟩ :=
        mem_events (history_inv fees track speed horizonNs ops) hev
      right
      simp [Op.ts?, OrderRec.fillEvent]

/-- The fills of a schedule on an order, up to and after a point. -/
lemma mem_history_log {ops : List Op} {ev : FillEvent}
    (hev : ev ∈ (history fees track speed horizonNs ops).log) :
    ∃ before op after, ops = before ++ op :: after ∧
      ev ∈ History.events (history fees track speed horizonNs before).engine op := by
  induction ops using List.reverseRecOn with
  | nil => simp [history] at hev
  | append_singleton ops op ih =>
    rw [history_append] at hev
    simp only [run_cons, run_nil, History.step, List.mem_append] at hev
    rcases hev with hev | hev
    · obtain ⟨before, op', after, rfl, hmem⟩ := ih hev
      exact ⟨before, op', after ++ [op], by simp, hmem⟩
    · exact ⟨ops, op, [], rfl, hev⟩

variable {ops : List Op}

/-- The cancel times of all orders come from the tape. -/
lemma history_cancelAt (htape : Tape ops)
    (hready : Along History.step TimingReady { engine := new fees track speed horizonNs } ops) :
    ∀ i, ((history fees track speed horizonNs ops).engine.reg.slots i).state ≠ .free →
      ((history fees track speed horizonNs ops).engine.reg.slots i).CancelAt (tapeTimes ops)
        speed.cancelLatencyNs := by
  induction ops using List.reverseRecOn with
  | nil => exact fun i hi => absurd rfl hi
  | append_singleton ops op ih =>
    rw [along_append] at hready
    have hinv := history_inv fees track speed horizonNs ops
    have hold := ih htape.of_append hready.1
    have htimes : tapeTimes (ops ++ [op]) = tapeTimes ops ++ op.ts?.toList := by
      simp only [tapeTimes, List.filterMap_append]
      cases h : op.ts? <;> simp [h]
    rw [history_append]
    refine step_live_inv (Q := fun r => r.CancelAt (tapeTimes (ops ++ [op]))
      speed.cancelLatencyNs) hinv op ?_ ?_ ?_
    · rintro mkt priceCents count buyYes ts depth rfl
      exact ⟨fun hne => absurd rfl hne, fun hs => by cases hs⟩
    · rintro i r rfl hs -
      rw [htimes, history_speed]
      apply OrderRec.next_cancelAt _ _ _ _ (hold i hs)
      rintro cid ts rfl
      refine ⟨htape.2 ts (by simp [tapeTimes, Op.ts?]), ?_⟩
      have := hready.2.1.1
      rwa [← history, history_speed] at this
    · intro i hs
      rw [htimes]
      exact (hold i hs).mono _

/-- No placement overflows. -/
lemma placeTs_lt
    (hready : Along History.step TimingReady { engine := new fees track speed horizonNs } ops)
    {cid : Nat} {q : Quote} (hq : quoteOf ops cid = some q) :
    q.ts + speed.placeLatencyNs < 2 ^ 64 := by
  unfold quoteOf at hq
  split_ifs at hq
  obtain ⟨op, hop, hquote⟩ := List.mem_filterMap.mp (List.mem_of_getElem? hq)
  obtain ⟨before, after, rfl⟩ := List.append_of_mem hop
  have hat := along_iff_forall_split.mp hready before op after rfl
  rw [← history] at hat
  cases op with
  | place mkt priceCents count buyYes ts depth =>
    cases hquote
    simpa [TimingReady] using hat
  | _ => cases hquote

/-- Every fill comes after the placement latency of its order. -/
lemma history_placed
    (hready : Along History.step TimingReady { engine := new fees track speed horizonNs } ops)
    {ev : FillEvent} (hev : ev ∈ (history fees track speed horizonNs ops).log) :
    ∃ q, quoteOf ops ev.cid = some q ∧ q.ts + speed.placeLatencyNs ≤ ev.fill.tsNs := by
  obtain ⟨before, op, after, rfl, hmem⟩ := mem_history_log fees track speed horizonNs hev
  have hinv := history_inv fees track speed horizonNs before
  obtain ⟨p, i, rfl, hne, hpos, rfl⟩ := mem_events hinv hmem
  obtain ⟨q, hq, hplaced, -⟩ := (history_orders fees track speed horizonNs before).placed i hne
  refine ⟨q, quoteOf_append hq _, ?_⟩
  have hact := (OrderRec.window_of_gained_pos _ _ _ hpos).1
  rw [hplaced.activeTsNs, history_speed, addNs, Nat.mod_eq_of_lt] at hact
  · exact hact
  · exact placeTs_lt fees track speed horizonNs (along_append.mp hready).1 hq

/-- After an operation that met its condition, the live orders under a cancel die in time. -/
lemma step_diesBy {h : History} (hinv : h.engine.Inv) {op : Op} (hr : TimingReady h op)
    (hpos : ∀ t, op.ts? = some t → 0 < t) {cid d : Nat} (hcid : cid ≤ h.engine.cidSeq)
    (hd : ∀ i, (h.engine.reg.slots i).cid = cid → (h.engine.reg.slots i).state.isLive = true →
      (h.engine.reg.slots i).DiesBy d) (i : Nat)
    (hc : ((h.step op).engine.reg.slots i).cid = cid)
    (hlive : ((h.step op).engine.reg.slots i).state.isLive = true) :
    ((h.step op).engine.reg.slots i).DiesBy d := by
  simp only [History.step] at hc hlive ⊢
  by_cases hs : (h.engine.reg.slots i).state = .free
  · rcases step_slot_of_free hinv op hs with heq | ⟨_, _, _, _, _, _, -, -, heq, -⟩
    · rw [heq, hs] at hlive
      cases hlive
    · rw [heq] at hc
      simp only [placedRec] at hc
      omega
  · rw [step_slot_of_live hinv op hs] at hc hlive ⊢
    rw [(OrderRec.next_same _ _ _ _ _ op).cid] at hc
    have hold := hd i hc (OrderRec.next_isLive _ _ _ _ _ op hlive)
    refine OrderRec.next_diesBy _ _ _ _ _ hold ?_ hlive
    rintro ts rfl hnew
    have hts := hpos ts rfl
    have hadd : addNs ts h.engine.speed.cancelLatencyNs = ts + h.engine.speed.cancelLatencyNs :=
      Nat.mod_eq_of_lt hr.1
    rw [hadd]
    exact ⟨by omega, hr.2.1 i rfl hnew hold.set⟩

/-- A cancel of a live order bounds its life. -/
lemma cancel_diesBy {cid t₀ : Nat} (htape : Tape (ops ++ [.cancel cid t₀]))
    (hready : Along History.step TimingReady { engine := new fees track speed horizonNs }
      (ops ++ [.cancel cid t₀])) (i : Nat)
    (hc : ((history fees track speed horizonNs (ops ++ [.cancel cid t₀])).engine.reg.slots
      i).cid = cid)
    (hlive : ((history fees track speed horizonNs (ops ++ [.cancel cid t₀])).engine.reg.slots
      i).state.isLive = true) :
    ((history fees track speed horizonNs (ops ++ [.cancel cid t₀])).engine.reg.slots i).DiesBy
      (t₀ + speed.cancelLatencyNs) := by
  have hinv := history_inv fees track speed horizonNs ops
  rw [along_append] at hready
  have hr := hready.2.1
  rw [← history] at hr
  have hts : 0 < t₀ := htape.2 t₀ (by simp [tapeTimes, Op.ts?])
  have hadd : addNs t₀ speed.cancelLatencyNs = t₀ + speed.cancelLatencyNs := by
    have := hr.1
    rw [history_speed] at this
    exact Nat.mod_eq_of_lt this
  rw [history_append] at hc hlive ⊢
  simp only [run_cons, run_nil, History.step] at hc hlive ⊢
  have hs : ((history fees track speed horizonNs ops).engine.reg.slots i).state ≠ .free := by
    intro hs
    rcases step_slot_of_free hinv (.cancel cid t₀) hs with heq | ⟨_, _, _, _, _, _, hop, -⟩
    · rw [heq, hs] at hlive
      cases hlive
    · cases hop
  have hcancel := history_cancelAt fees track speed horizonNs htape.of_append hready.1 i hs
  rw [step_slot_of_live hinv _ hs] at hc hlive ⊢
  rw [(OrderRec.next_same _ _ _ _ _ _).cid] at hc
  simp only [OrderRec.next, hc, true_and, history_speed, hadd] at hlive ⊢
  split_ifs at hlive ⊢ with hstate
  · refine ⟨?_, ?_, le_rfl⟩
    · rcases hstate with hst | hst <;> simp [OrderRec.cancelReq, hst]
    · simp only [OrderRec.cancelReq]
      omega
  · have hpc : ((history fees track speed horizonNs ops).engine.reg.slots i).state =
        .pendingCancel := by
      simp only [OrdState.isLive, Bool.or_eq_true, decide_eq_true_eq] at hlive
      tauto
    have hset := hcancel.set hpc
    obtain ⟨t, ht, heq⟩ := hcancel.time hset
    have hle := htape.le_of_mem ht (mem_tapeTimes_cancel cid t₀)
    exact ⟨.inr hpc, hset, by omega⟩

/-- Fills that come before a cancel of the live order are inside its window. -/
lemma log_lt_of_cancel {cid t₀ : Nat} (htape : Tape (ops ++ [.cancel cid t₀]))
    (hready : Along History.step TimingReady { engine := new fees track speed horizonNs }
      (ops ++ [.cancel cid t₀]))
    (hlive : (history fees track speed horizonNs ops).engine.IsLive cid) :
    ∀ ev ∈ (history fees track speed horizonNs (ops ++ [.cancel cid t₀])).log, ev.cid = cid →
      ev.fill.tsNs < t₀ + speed.cancelLatencyNs := by
  intro ev hev hc
  have hlog : ev ∈ (history fees track speed horizonNs ops).log := by
    rw [history_append] at hev
    simpa [History.step, History.events, step] using hev
  have hle := htape.le_of_mem (history_log_ts fees track speed horizonNs _ ev hlog)
    (mem_tapeTimes_cancel cid t₀)
  have hr := (along_append.mp hready).2.1
  rw [← history] at hr
  have hne := hr.2.2
  rw [history_speed] at hne
  -- only a cancel without latency could come at the time of the fill itself
  rcases Nat.eq_zero_or_pos speed.cancelLatencyNs with hz | hz
  · have := hne hz hlive ev hlog hc
    omega
  · omega

/-- After a cancel of the live order no fill leaves its window. -/
lemma history_canceled {before after : List Op} {cid t₀ : Nat}
    (htape : Tape ((before ++ [.cancel cid t₀]) ++ after))
    (hready : Along History.step TimingReady { engine := new fees track speed horizonNs }
      ((before ++ [.cancel cid t₀]) ++ after))
    (hlive : (history fees track speed horizonNs before).engine.IsLive cid) :
    ∀ ev ∈ (history fees track speed horizonNs ((before ++ [.cancel cid t₀]) ++ after)).log,
      ev.cid = cid → ev.fill.tsNs < t₀ + speed.cancelLatencyNs := by
  obtain ⟨hfirst, hafter⟩ := along_append.mp hready
  rw [← history] at hafter
  have hinv := history_inv fees track speed horizonNs before
  have hcid : cid ≤ (history fees track speed horizonNs
      (before ++ [.cancel cid t₀])).engine.cidSeq := by
    obtain ⟨i, hc, hl⟩ := hlive
    have hle := hinv.cid_le i (by intro hs; rw [hs] at hl; cases hl)
    rw [history_append]
    simp only [run_cons, run_nil, History.step]
    rw [step_cidSeq]
    omega
  have hpos : ∀ op ∈ after, ∀ t, op.ts? = some t → 0 < t := by
    intro op hop t ht
    apply htape.2
    simp only [tapeTimes, List.mem_filterMap, List.mem_append]
    exact ⟨op, .inr hop, ht⟩
  rw [history_append]
  refine (run_inv (P := fun h : History => h.engine.Inv ∧ cid ≤ h.engine.cidSeq ∧
      (∀ i, (h.engine.reg.slots i).cid = cid → (h.engine.reg.slots i).state.isLive = true →
        (h.engine.reg.slots i).DiesBy (t₀ + speed.cancelLatencyNs)) ∧
      ∀ ev ∈ h.log, ev.cid = cid → ev.fill.tsNs < t₀ + speed.cancelLatencyNs)
    ?_ ⟨history_inv fees track speed horizonNs _, hcid,
      cancel_diesBy fees track speed horizonNs htape.of_append hfirst,
      log_lt_of_cancel fees track speed horizonNs htape.of_append hfirst hlive⟩
    (hafter.and_forall hpos)).2.2.2
  rintro h op ⟨hinv', hcid', hd, hlog⟩ ⟨hr, hts⟩
  refine ⟨step_inv hinv' op, ?_, step_diesBy hinv' hr hts hcid' hd, ?_⟩
  · simp only [History.step]
    rw [step_cidSeq]
    omega
  · intro ev hev hc
    simp only [History.step, List.mem_append] at hev
    rcases hev with hev | hev
    · exact hlog ev hev hc
    · obtain ⟨p, i, rfl, -, hgain, rfl⟩ := mem_events hinv' hev
      have hdies := hd i hc (OrderRec.isLive_of_gained_pos _ _ _ hgain)
      have hwin := (OrderRec.window_of_gained_pos _ _ _ hgain).2 hdies.set
      exact hwin.trans_le hdies.le

/-- A cancel never moves the end of an order that already has one. -/
lemma history_repeated {before after : List Op} {cid t : Nat}
    (hready : Along History.step TimingReady { engine := new fees track speed horizonNs }
      (before ++ .cancel cid t :: after)) (i : Nat)
    (hc : ((history fees track speed horizonNs before).engine.reg.slots i).cid = cid)
    (hlive : ((history fees track speed horizonNs before).engine.reg.slots i).state.isLive = true)
    (hset : ((history fees track speed horizonNs before).engine.reg.slots i).cancelEffNs ≠ 0) :
    ((history fees track speed horizonNs (before ++ [.cancel cid t])).engine.reg.slots
        i).cancelEffNs ≤
      ((history fees track speed horizonNs before).engine.reg.slots i).cancelEffNs := by
  have hinv := history_inv fees track speed horizonNs before
  have hr := (along_append.mp hready).2.1
  rw [← history] at hr
  rw [history_append]
  simp only [run_cons, run_nil, History.step]
  have hs : ((history fees track speed horizonNs before).engine.reg.slots i).state ≠ .free := by
    intro hs
    rw [hs] at hlive
    cases hlive
  rw [step_slot_of_live hinv _ hs]
  simp only [OrderRec.next, hc, true_and]
  split_ifs with hstate
  · rcases hstate with hnew | hopen
    · have hle := hr.2.1 i hc hnew hset
      simp only [OrderRec.cancelReq, addNs]
      rw [Nat.mod_eq_of_lt hr.1]
      exact hle
    · exact absurd (hinv.open_eff i hopen) hset
  · exact le_rfl

/-- The timing windows hold in every schedule on a tape whose operations all meet their
condition. -/
theorem timing_windows (htape : Tape ops)
    (hready : Along History.step TimingReady { engine := new fees track speed horizonNs } ops) :
    TimingWindows fees track speed horizonNs ops := by
  refine ⟨fun ev hev => history_placed fees track speed horizonNs hready hev, ?_, ?_⟩
  · rintro before cid t₀ after rfl hlive
    have hsplit : before ++ .cancel cid t₀ :: after = (before ++ [.cancel cid t₀]) ++ after := by
      simp
    rw [hsplit] at htape hready ⊢
    exact history_canceled fees track speed horizonNs htape hready hlive
  · rintro before cid t after rfl i
    exact history_repeated fees track speed horizonNs hready i

end

/-- An order that fills in part and is then canceled. -/
theorem timing_windows_partial_fill :
    TimingWindows ⟨[]⟩ .optimistic {} 60000000000
      [.place 0 40 10 true 1000000 (-1), .trade ⟨0, 40, 4, false, 9000000⟩,
        .cancel 1 9500000, .trade ⟨0, 40, 4, false, 20000000⟩] := by
  apply timing_windows _ _ _ _ (by decide)
  show Along History.step TimingReady _ ([.place 0 40 10 true 1000000 (-1),
    .trade ⟨0, 40, 4, false, 9000000⟩] ++ [.cancel 1 9500000, .trade ⟨0, 40, 4, false, 20000000⟩])
  rw [along_append, ← history]
  refine ⟨⟨show 1000000 + 7000000 < 2 ^ 64 by decide, trivial, trivial⟩, ⟨?_, ?_, ?_⟩,
    trivial, trivial⟩
  · rw [history_speed]
    decide
  · intro i _ hnew
    obtain ⟨p, hp, -⟩ := exists_pending (history_inv ⟨[]⟩ .optimistic {} 60000000000
      [.place 0 40 10 true 1000000 (-1), .trade ⟨0, 40, 4, false, 9000000⟩]) hnew
    have hnone : (history ⟨[]⟩ .optimistic {} 60000000000 [.place 0 40 10 true 1000000 (-1),
        .trade ⟨0, 40, 4, false, 9000000⟩]).engine.pendingActivation = [] := by decide +kernel
    rw [hnone] at hp
    cases hp
  · intro hz
    rw [history_speed] at hz
    cases hz

/-- Canceled twice while it waits for its activation: the first cancel would take effect at
8.5 ms, the second moves that to 11 ms, and the order fills at 9 ms. -/
theorem timing_windows_second_cancel :
    Tape [.place 0 40 10 true 1000000 (-1), .cancel 1 1500000, .cancel 1 4000000,
        .trade ⟨0, 40, 4, false, 9000000⟩] ∧
      ¬ TimingWindows ⟨[]⟩ .optimistic {} 60000000000
        [.place 0 40 10 true 1000000 (-1), .cancel 1 1500000, .cancel 1 4000000,
          .trade ⟨0, 40, 4, false, 9000000⟩] := by
  refine ⟨by decide, fun hw => ?_⟩
  have hlive : (history ⟨[]⟩ .optimistic {} 60000000000
      [.place 0 40 10 true 1000000 (-1)]).engine.IsLive 1 :=
    ⟨0, by decide +kernel, by decide +kernel⟩
  have hfills := hw.canceled _ 1 1500000 _ rfl hlive
  revert hfills
  decide +kernel

end ShadowEngine

end HftBot
