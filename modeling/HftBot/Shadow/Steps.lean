import HftBot.Shadow.Invariant

/-!
# What each operation does to every slot

`ShadowEngine.Inv` holds in every reachable state. Under it each operation acts on the slots
pointwise: `advance_slot`, `onTrade_slot` and `onSettle_slot` give the record in any slot after
the operation as a function of the record before it.
-/

namespace HftBot

open HftBot.Core Function

/-- The invariant of the engine between two operations. Beyond `Consistent` on its containers it
says that finished orders have left their slots (an ineligible order stays, `expired`), that ids
are handed out upwards, and that a cancel under way is on the cancel list. -/
structure ShadowEngine.Inv (e : ShadowEngine) : Prop where
  consistent : Consistent e.reg e.sim.open_ e.pendingActivation
  finished   : ∀ i, (e.reg.slots i).state ≠ .filled ∧ (e.reg.slots i).state ≠ .canceled
  cid_le     : ∀ i, (e.reg.slots i).state ≠ .free → (e.reg.slots i).cid ≤ e.cidSeq
  open_eff   : ∀ i, (e.reg.slots i).state = .open → (e.reg.slots i).cancelEffNs = 0
  canceling  : ∀ i, (e.reg.slots i).state = .pendingCancel ∨
    (e.reg.slots i).state = .pendingNew ∧ (e.reg.slots i).cancelEffNs ≠ 0 → i ∈ e.canceling

namespace ShadowEngine

variable {e : ShadowEngine} {now : Nat}

lemma new_inv (fees : FeeSchedule) (track : Track) (speed : SpeedParams) (horizonNs : Nat) :
    (new fees track speed horizonNs).Inv where
  consistent := {
    wf := OrderRegistry.new_wf regSize
    legal := rfl
    open_nodup := List.nodup_nil
    mem_open := fun i => by simp [new, OrderRegistry.new, OrdState.isResting]
    pending_nodup := List.nodup_nil
    mem_pending := fun i => by simp [new, OrderRegistry.new] }
  finished i := by simp [new, OrderRegistry.new]
  cid_le i := by simp [new, OrderRegistry.new]
  open_eff i := by simp [new, OrderRegistry.new]
  canceling i := by simp [new, OrderRegistry.new]

/-- Two slots in use never share a client id. -/
lemma Inv.slot_unique (h : e.Inv) {i j : Nat} (hi : (e.reg.slots i).state ≠ .free)
    (hj : (e.reg.slots j).state ≠ .free) (hc : (e.reg.slots i).cid = (e.reg.slots j).cid) :
    i = j := by
  have hwf := h.consistent.wf
  have hbi := (hwf.byCid_iff _ i).mpr ⟨hwf.lt hi, hi, hc⟩
  have hbj := (hwf.byCid_iff _ j).mpr ⟨hwf.lt hj, hj, rfl⟩
  exact Option.some.inj (hbi.symm.trans hbj)

/-! ### The clock -/

lemma activateVisit_track (now : Nat) (st : OrderRegistry × FillSim × Nat) (p : Pending) :
    (activateVisit now st p).1.2.1.track = st.2.1.track := by
  obtain ⟨reg, sim, n⟩ := st
  simp only [activateVisit, FillSim.activate]
  split_ifs <;> rfl

@[simp] lemma advanceActivations_track (e : ShadowEngine) (now : Nat) :
    (e.advanceActivations now).sim.track = e.sim.track :=
  sweep_const (fun st => st.2.1.track) (activateVisit_track now) _ (e.reg, e.sim, e.ineligible)

/-- The first loop of `advance` opens the pending orders that are due. -/
lemma advanceActivations_slot_pending (h : e.Inv) {p : Pending} (hp : p ∈ e.pendingActivation) :
    (e.advanceActivations now).reg.slots p.idx =
      if (e.reg.slots p.idx).activeTsNs ≤ now
      then (e.reg.slots p.idx).opened e.sim.track p.displayedAtLevel else e.reg.slots p.idx := by
  have key := sweep_get_mem (f := activateVisit now)
    (g := fun p (x : OrderRec × Track) =>
      (if x.1.activeTsNs ≤ now then x.1.opened x.2 p.displayedAtLevel else x.1, x.2))
    (l := e.pendingActivation) (s := (e.reg, e.sim, e.ineligible))
    (fun st i => (st.1.slots i, st.2.1.track)) Pending.idx (fun _ x => x.1.state = .pendingNew)
    ?_ ?_ h.consistent.pending_nodup ?_ hp
  · exact congrArg Prod.fst key
  · rintro ⟨reg, sim, n⟩ q hs
    simp only at hs ⊢
    by_cases hdue : (reg.slots q.idx).activeTsNs ≤ now
    · obtain ⟨reg', sim', n', heq, -, hslots, htrack, -⟩ := activateVisit_due hs hdue sim n
      simp [heq, hslots, htrack, hdue]
    · simp [activateVisit_notDue hdue, hdue]
  · intro st q j hj
    rw [activateVisit_slots_other now st q j hj, activateVisit_track]
  · intro q hq
    exact ((h.consistent.mem_pending q.idx).mp (List.mem_map_of_mem hq)).2

lemma advanceActivations_slot_other (h : e.Inv) {i : Nat}
    (hi : (e.reg.slots i).state ≠ .pendingNew) :
    (e.advanceActivations now).reg.slots i = e.reg.slots i := by
  refine sweep_get_other (f := activateVisit now) (l := e.pendingActivation)
    (s := (e.reg, e.sim, e.ineligible)) (fun st i => st.1.slots i) Pending.idx
    (fun st p j hj => activateVisit_slots_other now st p j hj) ?_
  rintro p hp rfl
  exact hi ((h.consistent.mem_pending p.idx).mp (List.mem_map_of_mem hp)).2

lemma exists_pending (h : e.Inv) {i : Nat} (hi : (e.reg.slots i).state = .pendingNew) :
    ∃ p ∈ e.pendingActivation, p.idx = i := by
  have hlt := h.consistent.wf.lt (i := i) (by simp [hi])
  simpa using (h.consistent.mem_pending i).mpr ⟨hlt, hi⟩

/-- The displayed depth that the pending list keeps for a slot. -/
def depthOf (e : ShadowEngine) (i : Nat) : Int :=
  ((e.pendingActivation.find? (·.idx = i)).map Pending.displayedAtLevel).getD (-1)

lemma depthOf_of_mem (h : e.Inv) {p : Pending} (hp : p ∈ e.pendingActivation) :
    e.depthOf p.idx = p.displayedAtLevel := by
  cases hf : e.pendingActivation.find? (·.idx = p.idx) with
  | none =>
    simp only [List.find?_eq_none, decide_eq_true_eq] at hf
    exact absurd rfl (hf p hp)
  | some q =>
    have hq := List.mem_of_find?_eq_some hf
    have hidx : q.idx = p.idx := by simpa using List.find?_some hf
    rw [depthOf, hf, List.inj_on_of_nodup_map h.consistent.pending_nodup hq hp hidx]
    rfl

lemma advanceActivations_slot (h : e.Inv) (i : Nat) :
    (e.advanceActivations now).reg.slots i =
      if (e.reg.slots i).state = .pendingNew ∧ (e.reg.slots i).activeTsNs ≤ now
      then (e.reg.slots i).opened e.sim.track (e.depthOf i) else e.reg.slots i := by
  by_cases hi : (e.reg.slots i).state = .pendingNew
  · obtain ⟨p, hp, rfl⟩ := exists_pending h hi
    simp [advanceActivations_slot_pending h hp, depthOf_of_mem h hp, hi]
  · simp [advanceActivations_slot_other h hi, hi]

lemma advanceActivations_inv (h : e.Inv) : (e.advanceActivations now).Inv where
  consistent := h.consistent.sweepActivations
  finished i := by
    rw [advanceActivations_slot h]
    split_ifs with hi
    · simp only [OrderRec.opened]
      split_ifs <;> simp
    · exact h.finished i
  cid_le i := by
    rw [advanceActivations_slot h]
    split_ifs with hi
    · intro _
      rw [OrderRec.opened_cid]
      exact h.cid_le i (by simp [hi.1])
    · exact h.cid_le i
  open_eff i := by
    rw [advanceActivations_slot h]
    split_ifs with hi
    · simp only [OrderRec.opened]
      split_ifs <;> simp_all
    · exact h.open_eff i
  canceling i := by
    rw [advanceActivations_slot h]
    split_ifs with hi
    · intro hc
      refine h.canceling i (.inr ⟨hi.1, ?_⟩)
      simp only [OrderRec.opened] at hc
      split_ifs at hc <;> simp_all
    · exact h.canceling i

/-- The second loop of `advance` takes out the orders whose cancel is in effect. -/
lemma advanceCancels_slot (h : e.Inv) (i : Nat) :
    (e.advanceCancels now).reg.slots i =
      if (e.reg.slots i).state = .pendingCancel ∧ (e.reg.slots i).cancelEffNs ≤ now
      then { e.reg.slots i with state := .free } else e.reg.slots i := by
  by_cases hi : i ∈ e.canceling
  · refine sweep_get_of_idem (f := cancelVisit now)
      (g := fun r => if r.state = .pendingCancel ∧ r.cancelEffNs ≤ now
        then { r with state := .free } else r) (l := e.canceling) (s := (e.reg, e.sim))
      (fun st i => st.1.slots i) ?_ ?_ ?_ hi
    · intro st j
      simp [cancelVisit_slots]
    · intro st a j hj
      simp [cancelVisit_slots, hj]
    · intro r
      split_ifs <;> simp_all
  · have hs : (e.reg.slots i).state ≠ .pendingCancel := fun hs => hi (h.canceling i (.inl hs))
    rw [if_neg fun hc => hs hc.1]
    refine sweep_get_other (f := cancelVisit now) (l := e.canceling) (s := (e.reg, e.sim))
      (fun st i => st.1.slots i) id ?_ ?_
    · intro st a j hj
      simp only [id] at hj
      simp [cancelVisit_slots, hj]
    · rintro j hj rfl
      exact hi hj

lemma advanceCancels_inv (h : e.Inv) : (e.advanceCancels now).Inv where
  consistent := h.consistent.sweepCancels
  finished i := by
    rw [advanceCancels_slot h]
    split_ifs with hi
    · simp
    · exact h.finished i
  cid_le i := by
    rw [advanceCancels_slot h]
    split_ifs with hi
    · simp
    · exact h.cid_le i
  open_eff i := by
    rw [advanceCancels_slot h]
    split_ifs with hi
    · simp
    · exact h.open_eff i
  canceling i := by
    rw [advanceCancels_slot h]
    split_ifs with hi
    · simp
    · intro hc
      -- an entry is dropped only when its slot is neither waiting, resting nor dying
      refine mem_sweep_of_kept (f := cancelVisit now) (l := e.canceling) (s := (e.reg, e.sim))
        (fun st i => st.1.slots i) ?_ ?_ (h.canceling i hc)
      · intro st hst
        simp only at hst
        refine ⟨?_, by simp [cancelVisit_slots, hst, hi]⟩
        rcases hc with hc | hc
        · have hlt : ¬ (st.1.slots i).cancelEffNs ≤ now := by
            rw [hst]; exact fun hle => hi ⟨hc, hle⟩
          simp [cancelVisit, hst ▸ hc, hlt]
        · simp [cancelVisit, hst ▸ hc.1]
      · intro st a j hj
        simp [cancelVisit_slots, hj]

lemma advance_inv (h : e.Inv) : (e.advance now).Inv :=
  advanceCancels_inv (advanceActivations_inv h)

@[simp] lemma advanceCancels_track (e : ShadowEngine) (now : Nat) :
    (e.advanceCancels now).sim.track = e.sim.track := by
  have visit : ∀ st i, (cancelVisit now st i).1.2.track = st.2.track := by
    rintro ⟨reg, sim⟩ i
    simp only [cancelVisit]
    split_ifs <;> simp
  exact sweep_const (fun st => st.2.track) visit _ (e.reg, e.sim)

@[simp] lemma advance_track (e : ShadowEngine) (now : Nat) :
    (e.advance now).sim.track = e.sim.track := by
  simp [advance]

/-- The clock acts on every slot by `OrderRec.clock`; an order it finishes leaves its slot. -/
theorem advance_slot (h : e.Inv) (now i : Nat) :
    (e.advance now).reg.slots i =
      ((e.reg.slots i).clock e.sim.track now (e.depthOf i)).recycled := by
  rw [advance, advanceCancels_slot (advanceActivations_inv h), advanceActivations_slot h,
    OrderRec.clock]
  generalize hr : (if (e.reg.slots i).state = .pendingNew ∧ (e.reg.slots i).activeTsNs ≤ now
    then (e.reg.slots i).opened e.sim.track (e.depthOf i) else e.reg.slots i) = r
  have hfin : r.state ≠ .filled ∧ r.state ≠ .canceled := by
    have : ((e.advanceActivations now).reg.slots i).state ≠ .filled ∧ _ :=
      (advanceActivations_inv h).finished i
    rwa [advanceActivations_slot h, hr] at this
  simp only [OrderRec.swept]
  split_ifs with hs
  · simp [OrderRec.recycled]
  · simp [OrderRec.recycled, hfin]

end ShadowEngine

/-! ### Prints -/

section Prints

variable {reg : OrderRegistry} {sim : FillSim} {pending : List Pending}

/-- A print acts on the resting orders one by one. -/
theorem Consistent.simOnTrade_slot (h : Consistent reg sim.open_ pending) (p : Print) (i : Nat) :
    (sim.onTrade reg p).2.1.slots i =
      if (reg.slots i).state.isResting then (reg.slots i).print sim.track p
      else reg.slots i := by
  have hother : ∀ (st : OrderRegistry × List Fill) a j, j ≠ id a →
      (FillSim.visit sim.track p st a).1.1.slots j = st.1.slots j := by
    intro st a j hj
    rw [FillSim.visit_slots, update_of_ne (by simpa using hj)]
  by_cases hi : i ∈ sim.open_
  · rw [if_pos (h.mem_open_iff.mp hi)]
    exact sweep_get_mem (f := FillSim.visit sim.track p) (g := fun _ r => r.print sim.track p)
      (l := sim.open_) (s := (reg, [])) (fun st i => st.1.slots i) id (fun _ _ => True)
      (fun st a _ => by simp [FillSim.visit_slots]) hother (by simpa using h.open_nodup)
      (fun _ _ => trivial) hi
  · rw [if_neg (mt h.mem_open_iff.mpr hi)]
    refine sweep_get_other (f := FillSim.visit sim.track p) (l := sim.open_) (s := (reg, []))
      (fun st i => st.1.slots i) id hother ?_
    rintro j hj rfl
    exact hi hj

/-- The fills of a print: one for each resting order on which it fills something. -/
theorem Consistent.simOnTrade_fills (h : Consistent reg sim.open_ pending) (p : Print) :
    (sim.onTrade reg p).2.2.Perm
      ((sim.open_.filter fun i => 0 < (reg.slots i).fillQty sim.track p).map
        fun i => (reg.slots i).emitted sim.track p i) := by
  -- the slots still to be visited are untouched, the others have emitted their fill
  have main := sweep_induct (f := FillSim.visit sim.track p)
    (P := fun _ t st => t.Nodup ∧ (∀ i ∈ t, st.1.slots i = reg.slots i) ∧
      ∃ done, (done ++ t).Perm sim.open_ ∧
        st.2.Perm ((done.filter fun i => 0 < (reg.slots i).fillQty sim.track p).map
          fun i => (reg.slots i).emitted sim.track p i))
    (l := sim.open_) (s := (reg, [])) ?_ ?_ ?_
    ⟨h.open_nodup, fun _ _ => rfl, [], by simp, by simp⟩
  · obtain ⟨-, -, done, hp, hout⟩ := main
    rw [List.append_nil] at hp
    exact hout.trans ((hp.filter _).map _)
  · rintro k t t' st hp ⟨hnd, hslots, done, hd, hout⟩
    exact ⟨hp.nodup_iff.mp hnd, fun i hi => hslots i (hp.mem_iff.mpr hi), done,
      (hp.symm.append_left done).trans hd, hout⟩
  all_goals
    rintro k i t st ⟨hnd, hslots, done, hd, hout⟩ -
    rw [List.nodup_cons] at hnd
    have hi : st.1.slots i = reg.slots i := hslots i List.mem_cons_self
    refine ⟨hnd.2, ?_, done ++ [i], by simpa using hd, ?_⟩
    · intro j hj
      have hji : j ≠ i := fun h' => hnd.1 (h' ▸ hj)
      rw [FillSim.visit_slots, update_of_ne hji]
      exact hslots j (List.mem_cons_of_mem _ hj)
    · rw [FillSim.visit_out, hi, List.filter_append, List.map_append]
      apply hout.append
      by_cases hq : 0 < (reg.slots i).fillQty sim.track p <;> simp [hq]

end Prints

section Slots

variable {reg reg' : OrderRegistry} {idx : Nat} {rest : List Nat} {r : OrderRec}

/-- The slot on top of the free stack receives an order with a new id. -/
lemma OrderRegistry.WF.place (h : reg.WF) (hfree : reg.free = idx :: rest) (hr : r.state ≠ .free)
    (hnew : ∀ j, (reg.slots j).state ≠ .free → (reg.slots j).cid ≠ r.cid)
    (hcap : reg'.capacity = reg.capacity) (hrest : reg'.free = rest)
    (hby : reg'.byCid = Function.update reg.byCid r.cid (some idx))
    (hslots : reg'.slots = Function.update reg.slots idx r) : reg'.WF := by
  have hidx : idx < reg.capacity ∧ (reg.slots idx).state = .free :=
    (h.mem_free idx).mp (by simp [hfree])
  have hnd : idx ∉ rest ∧ rest.Nodup := by
    have := h.free_nodup
    rwa [hfree, List.nodup_cons] at this
  constructor
  · rw [hrest]
    exact hnd.2
  · intro j
    simp only [hrest, hcap, hslots]
    by_cases hj : j = idx
    · subst hj; simp [hr, hnd.1]
    · have := h.mem_free j
      simpa [hfree, hj] using this
  · intro c j
    simp only [hby, hcap, hslots]
    by_cases hj : j = idx
    · subst hj
      by_cases hcid : c = r.cid
      · simp [hcid, hr, hidx.1]
      · have := h.byCid_iff c j
        simp [hcid, hidx.2, Ne.symm hcid] at this ⊢
        exact this
    · by_cases hcid : c = r.cid
      · subst hcid
        simp only [update_self, Option.some.injEq, Ne.symm hj, update_of_ne hj, false_iff]
        rintro ⟨-, hs, hcj⟩
        exact hnew j hs hcj
      · simp [hcid, hj, h.byCid_iff]
  · intro j hj
    rw [hcap] at hj
    have hne : j ≠ idx := by omega
    rw [hslots, update_of_ne hne, h.outside j hj]

/-- The order waits, so it joins the pending list and no other. -/
lemma Consistent.place {open_ : List Nat} {pending : List Pending} {depth : Int}
    (h : Consistent reg open_ pending) (hfree : reg.free = idx :: rest)
    (hr : r.state = .pendingNew)
    (hnew : ∀ j, (reg.slots j).state ≠ .free → (reg.slots j).cid ≠ r.cid)
    (hcap : reg'.capacity = reg.capacity) (hrest : reg'.free = rest)
    (hby : reg'.byCid = Function.update reg.byCid r.cid (some idx))
    (hill : reg'.illegalTransitions = reg.illegalTransitions)
    (hslots : reg'.slots = Function.update reg.slots idx r) :
    Consistent reg' open_ (pending ++ [⟨idx, depth⟩]) := by
  have hidx : idx < reg.capacity ∧ (reg.slots idx).state = .free :=
    (h.wf.mem_free idx).mp (by simp [hfree])
  have hpend : idx ∉ pending.map Pending.idx := by
    rw [h.mem_pending]
    simp [hidx.2]
  refine ⟨h.wf.place hfree (by simp [hr]) hnew hcap hrest hby hslots, hill.trans h.legal,
    h.open_nodup, ?_, ?_, ?_⟩
  · intro j
    simp only [hcap, hslots, h.mem_open]
    by_cases hj : j = idx
    · subst hj; simp [hr, hidx.2, OrdState.isResting]
    · simp [hj]
  · rw [List.map_append, List.nodup_append]
    refine ⟨h.pending_nodup, by simp, ?_⟩
    rintro a ha b hb rfl
    simp only [List.map_cons, List.map_nil, List.mem_singleton] at hb
    exact hpend (hb ▸ ha)
  · intro j
    simp only [List.map_append, List.mem_append, h.mem_pending, hcap, hslots]
    by_cases hj : j = idx
    · subst hj; simp [hr, hidx.1]
    · simp [hj]

end Slots

namespace ShadowEngine

variable {e : ShadowEngine}

/-- Booking recycles the filled slots among those of the fills. -/
lemma bookFills_slot (fills : List Fill) (reg : OrderRegistry) (ledger : Ledger) (i : Nat) :
    (bookFills fills reg ledger).1.slots i =
      if (reg.slots i).state = .filled ∧ ∃ f ∈ fills, f.orderIdx = i
      then { reg.slots i with state := .free } else reg.slots i := by
  induction fills generalizing reg ledger with
  | nil => simp [bookFills]
  | cons f fills ih =>
    simp only [bookFills, List.foldl_cons] at ih ⊢
    rw [ih]
    by_cases hf : (reg.slots f.orderIdx).state = .filled
    · by_cases hi : i = f.orderIdx
      · subst hi; simp [hf]
      · simp [hf, hi, Ne.symm hi]
    · by_cases hi : f.orderIdx = i
      · subst hi; simp [hf]
      · simp [hf, hi]

/-- A print acts on every slot by the clock and, where the order rests, by `OrderRec.print`. -/
theorem onTrade_slot (h : e.Inv) (p : Print) (i : Nat) :
    (e.onTrade p).1.reg.slots i =
      if ((e.advance p.tsNs).reg.slots i).state.isResting
      then (((e.advance p.tsNs).reg.slots i).print e.sim.track p).recycled
      else (e.advance p.tsNs).reg.slots i := by
  have hinv : (e.advance p.tsNs).Inv := advance_inv h
  have hslot := hinv.consistent.simOnTrade_slot p i
  have hfills := hinv.consistent.simOnTrade_fills p
  rw [advance_track] at hslot hfills
  set r := (e.advance p.tsNs).reg.slots i with hr
  simp only [onTrade, bookFills_slot, hslot]
  by_cases hrest : r.state.isResting = true
  · simp only [hrest, if_true]
    have hcanceled : (r.print e.sim.track p).state ≠ .canceled := by
      rw [OrderRec.print_state]
      split_ifs
      · simp
      · exact (hinv.finished i).2
    by_cases hfill : (r.print e.sim.track p).state = .filled
    · have hq : 0 < r.fillQty e.sim.track p := by
        by_contra hq
        rw [OrderRec.print_state, if_neg fun h' => hq h'.1] at hfill
        exact (hinv.finished i).1 hfill
      have hi : i ∈ (e.advance p.tsNs).sim.open_ := hinv.consistent.mem_open_iff.mpr hrest
      have hmem : ∃ f ∈ ((e.advance p.tsNs).sim.onTrade (e.advance p.tsNs).reg p).2.2,
          f.orderIdx = i := by
        refine ⟨r.emitted e.sim.track p i, hfills.mem_iff.mpr ?_, rfl⟩
        exact List.mem_map.mpr ⟨i, List.mem_filter.mpr ⟨hi, by simpa [← hr] using hq⟩, rfl⟩
      simp [hfill, hmem, OrderRec.recycled]
    · simp [hfill, hcanceled, OrderRec.recycled]
  · have hfin : r.state ≠ .filled := (hinv.finished i).1
    simp [hrest, hfin]

/-- An operation that frees slots or rewrites data of live orders keeps the invariant, once the
containers are known to be consistent. -/
lemma Inv.of_slots {e' : ShadowEngine} (h : e.Inv)
    (hcons : Consistent e'.reg e'.sim.open_ e'.pendingActivation) (hseq : e'.cidSeq = e.cidSeq)
    (hcanceling : e'.canceling = e.canceling)
    (hslots : ∀ i, (e'.reg.slots i).state = .free ∨
      ((e'.reg.slots i).state = (e.reg.slots i).state ∧
        (e'.reg.slots i).cid = (e.reg.slots i).cid ∧
        (e'.reg.slots i).cancelEffNs = (e.reg.slots i).cancelEffNs)) : e'.Inv where
  consistent := hcons
  finished i := by
    rcases hslots i with hs | ⟨hs, -, -⟩
    · simp [hs]
    · rw [hs]; exact h.finished i
  cid_le i := by
    rcases hslots i with hs | ⟨hs, hc, -⟩
    · simp [hs]
    · rw [hs, hc, hseq]; exact h.cid_le i
  open_eff i := by
    rcases hslots i with hs | ⟨hs, -, he⟩
    · simp [hs]
    · rw [hs, he]; exact h.open_eff i
  canceling i := by
    rcases hslots i with hs | ⟨hs, -, he⟩
    · simp [hs]
    · rw [hs, he, hcanceling]; exact h.canceling i

lemma onTrade_inv (h : e.Inv) (p : Print) : (e.onTrade p).1.Inv := by
  have hinv : (e.advance p.tsNs).Inv := advance_inv h
  refine hinv.of_slots ((hinv.consistent.simOnTrade p).bookFills _ _) rfl rfl ?_
  intro i
  rw [onTrade_slot h]
  split_ifs with hr
  · generalize hr' : (e.advance p.tsNs).reg.slots i = r at hr
    have hcanceled : r.state ≠ .canceled := hr' ▸ (hinv.finished i).2
    by_cases hfill : (r.print e.sim.track p).state = .filled
    · left; simp [OrderRec.recycled, hfill]
    · right
      have hstate : (r.print e.sim.track p).state = r.state := by
        rw [OrderRec.print_state] at hfill ⊢
        exact if_neg fun h' => hfill (if_pos h')
      simp [OrderRec.recycled, hstate, hcanceled, hstate ▸ hfill]
  · exact .inr ⟨rfl, rfl, rfl⟩

/-! ### Settlements -/

/-- The sweep of `on_settle` takes out the resting orders of the market that it lists. -/
lemma settleSweep_slot (mkt : Nat) (slots : List Nat) (reg : OrderRegistry) (sim : FillSim)
    (i : Nat) :
    (slots.foldl (settleVisit mkt) (reg, sim)).1.slots i =
      if i ∈ slots ∧ (reg.slots i).market = mkt ∧ (reg.slots i).state.isResting = true
      then { reg.slots i with state := .free } else reg.slots i := by
  induction slots generalizing reg sim with
  | nil => simp
  | cons j slots ih =>
    rw [List.foldl_cons]
    by_cases hj : (reg.slots j).market = mkt ∧
        ((reg.slots j).state = .open ∨ (reg.slots j).state = .pendingCancel)
    · have hl : legalTransition (reg.slots j).state
          (if (reg.slots j).state = .pendingCancel then .canceled else .expired) = true := by
        rcases hj.2 with hs | hs <;> simp [hs, legalTransition]
      have hslots : (settleVisit mkt (reg, sim) j).1.slots =
          update reg.slots j { reg.slots j with state := .free } := by
        simp [settleVisit, hj, OrderRegistry.transition_slots hl]
      have hres : (reg.slots j).state.isResting = true := by simpa [OrdState.isResting] using hj.2
      rw [ih, hslots]
      by_cases hij : i = j
      · subst hij
        have hfree : OrdState.free.isResting = false := rfl
        simp [hj.1, hres, hfree]
      · simp [hij]
    · have heq : settleVisit mkt (reg, sim) j = (reg, sim) := by
        simp only [settleVisit]
        split_ifs <;> simp_all
      rw [heq, ih]
      by_cases hij : i = j
      · subst hij
        have : ¬ ((reg.slots i).market = mkt ∧ (reg.slots i).state.isResting = true) := by
          simpa [OrdState.isResting] using hj
        simp [this]
      · simp [hij]

theorem onSettle_slot (e : ShadowEngine) (mkt : Nat) (yesWins : Bool) (ts i : Nat) :
    (e.onSettle mkt yesWins ts).reg.slots i =
      if i ∈ (e.advance ts).byMarket mkt ∧ ((e.advance ts).reg.slots i).market = mkt ∧
        ((e.advance ts).reg.slots i).state.isResting = true
      then { (e.advance ts).reg.slots i with state := .free }
      else (e.advance ts).reg.slots i := by
  simp only [onSettle, settleSweep_slot]

lemma onSettle_inv (h : e.Inv) (mkt : Nat) (yesWins : Bool) (ts : Nat) :
    (e.onSettle mkt yesWins ts).Inv := by
  have hinv : (e.advance ts).Inv := advance_inv h
  refine hinv.of_slots (hinv.consistent.settleSweep mkt _) rfl rfl ?_
  intro i
  rw [onSettle_slot]
  split_ifs with hr
  · exact .inl rfl
  · exact .inr ⟨rfl, rfl, rfl⟩

/-! ### Orders and cancels -/

/-- The record that `place` writes. -/
def placedRec (e : ShadowEngine) (mkt : Nat) (priceCents count : Int) (buyYes : Bool) (ts : Nat) :
    OrderRec where
  cid := e.cidSeq + 1
  market := mkt
  priceCents := priceCents
  count := count
  buyYes := buyYes
  state := .pendingNew
  placeTsNs := ts
  activeTsNs := addNs ts e.speed.placeLatencyNs

section Place

variable (mkt : Nat) (priceCents count : Int) (buyYes : Bool) (ts : Nat) (depth : Int)

lemma place_full (hfree : e.reg.free = []) :
    e.place mkt priceCents count buyYes ts depth =
      ({ e with cidSeq := e.cidSeq + 1, droppedFull := e.droppedFull + 1 }, 0) := by
  simp [place, OrderRegistry.place, hfree]

/-- A slot is free: the order goes there and waits for its latency. -/
lemma place_slot (h : e.Inv) {idx : Nat} {rest : List Nat} (hfree : e.reg.free = idx :: rest) :
    ∃ reg, e.place mkt priceCents count buyYes ts depth =
        ({ e with
            reg
            cidSeq := e.cidSeq + 1
            ledger := e.ledger.onOrderPlaced mkt count
            pendingActivation := e.pendingActivation ++ [⟨idx, depth⟩]
            byMarket := update e.byMarket mkt (e.byMarket mkt ++ [idx]) }, e.cidSeq + 1) ∧
      reg.capacity = e.reg.capacity ∧ reg.free = rest ∧
      reg.byCid = update e.reg.byCid (e.cidSeq + 1) (some idx) ∧
      reg.illegalTransitions = e.reg.illegalTransitions ∧ reg.gauge = e.reg.gauge ∧
      reg.slots = update e.reg.slots idx (e.placedRec mkt priceCents count buyYes ts) := by
  have hnew : e.reg.byCid (e.cidSeq + 1) = none := by
    by_contra hne
    obtain ⟨j, hj⟩ := Option.ne_none_iff_exists'.mp hne
    obtain ⟨-, hs, hc⟩ := (h.consistent.wf.byCid_iff _ _).mp hj
    have := h.cid_le j hs
    omega
  refine ⟨_, by simp [place, OrderRegistry.place, hfree]; rfl, ?_⟩
  simp [OrderRegistry.transition, legalTransition, OrderRegistry.emplaceCid, hnew,
    OrdState.isTerminal, placedRec]

lemma place_inv (h : e.Inv) : (e.place mkt priceCents count buyYes ts depth).1.Inv := by
  cases hfree : e.reg.free with
  | nil =>
    rw [place_full mkt priceCents count buyYes ts depth hfree]
    exact { h with cid_le := fun i hi => (h.cid_le i hi).trans (Nat.le_succ _) }
  | cons idx rest =>
    obtain ⟨reg, heq, hcap, hrest, hby, hill, -, hslots⟩ :=
      place_slot mkt priceCents count buyYes ts depth h hfree
    have hnew : ∀ j, (e.reg.slots j).state ≠ .free → (e.reg.slots j).cid ≠ e.cidSeq + 1 :=
      fun j hj heq' => by have := h.cid_le j hj; omega
    rw [heq]
    refine ⟨h.consistent.place hfree rfl hnew hcap hrest hby hill hslots, ?_, ?_, ?_, ?_⟩
    all_goals
      intro j
      simp only [hslots]
      by_cases hj : j = idx
    · subst hj; simp [placedRec]
    · simpa [hj] using h.finished j
    · subst hj; simp [placedRec]
    · simp only [update_of_ne hj]
      exact fun hs => (h.cid_le j hs).trans (Nat.le_succ _)
    · subst hj; simp [placedRec]
    · simpa [hj] using h.open_eff j
    · subst hj; simp [placedRec]
    · simpa [hj] using h.canceling j

end Place

/-- A cancel reaches the order of that id while it waits or rests, and nothing else. -/
lemma cancel_cases (h : e.Inv) (cid ts : Nat) :
    ((∀ i, (e.reg.slots i).cid = cid →
        (e.reg.slots i).state ≠ .pendingNew ∧ (e.reg.slots i).state ≠ .open) ∧
      e.cancel cid ts = e) ∨
    ∃ i reg, (e.reg.slots i).cid = cid ∧
      ((e.reg.slots i).state = .pendingNew ∨ (e.reg.slots i).state = .open) ∧
      e.cancel cid ts = { e with reg, canceling := e.canceling ++ [i] } ∧
      e.reg.Frame reg ∧ reg.gauge = e.reg.gauge ∧
      reg.slots = update e.reg.slots i
        ((e.reg.slots i).cancelReq (addNs ts e.speed.cancelLatencyNs)) := by
  have hwf := h.consistent.wf
  cases hb : e.reg.byCid cid with
  | none =>
    refine .inl ⟨?_, by simp [cancel, OrderRegistry.lookup, hb]⟩
    intro i hc
    have hfree : (e.reg.slots i).state = .free := by
      by_contra hs
      simp [(hwf.byCid_iff cid i).mpr ⟨hwf.lt hs, hs, hc⟩] at hb
    simp [hfree]
  | some i =>
    obtain ⟨-, hne, hc⟩ := (hwf.byCid_iff cid i).mp hb
    by_cases hs : (e.reg.slots i).state = .pendingNew ∨ (e.reg.slots i).state = .open
    · right
      set reg := e.reg.setCancelEff i (addNs ts e.speed.cancelLatencyNs) with hreg
      have hframe := OrderRegistry.setCancelEff_frame e.reg i (addNs ts e.speed.cancelLatencyNs)
      rcases hs with hs | hs
      · refine ⟨i, reg, hc, .inl hs, ?_, hframe, rfl, ?_⟩
        · simp [cancel, OrderRegistry.lookup, hb, hs, OrdState.isTerminal, ← hreg]
        · simp [hreg, OrderRec.cancelReq, hs]
      · have hl : legalTransition (reg.slots i).state .pendingCancel = true := by
          simp [hreg, hs, legalTransition]
        refine ⟨i, reg.transition i .pendingCancel, hc, .inr hs, ?_,
          hframe.trans (OrderRegistry.transition_frame hl), ?_, ?_⟩
        · simp [cancel, OrderRegistry.lookup, hb, hs, OrdState.isTerminal, ← hreg]
        · exact OrderRegistry.transition_gauge reg i (by simp) rfl
        · rw [OrderRegistry.transition_slots hl]
          simp [hreg, OrderRec.cancelReq, hs]
    · refine .inl ⟨?_, ?_⟩
      · intro j hcj
        by_cases hj : (e.reg.slots j).state = .free
        · simp [hj]
        · rw [h.slot_unique hj hne (hcj.trans hc.symm)]
          exact not_or.mp hs
      · have hterm : (e.reg.slots i).state.isTerminal = true ∨
            (e.reg.slots i).state = .pendingCancel := by
          revert hs hne
          cases (e.reg.slots i).state <;> simp [OrdState.isTerminal]
        simp [cancel, OrderRegistry.lookup, hb, hterm]

lemma cancel_inv (h : e.Inv) (cid ts : Nat) : (e.cancel cid ts).Inv := by
  rcases cancel_cases h cid ts with ⟨-, heq⟩ | ⟨i, reg, -, hs, heq, hframe, -, hslots⟩
  · rw [heq]; exact h
  rw [heq]
  have hc := h.consistent
  have hne : (e.reg.slots i).state ≠ .free := by rcases hs with hs | hs <;> simp [hs]
  set r := (e.reg.slots i).cancelReq (addNs ts e.speed.cancelLatencyNs) with hr
  have hr' : (r.state = .pendingCancel ∧ (e.reg.slots i).state = .open) ∨
      (r.state = .pendingNew ∧ (e.reg.slots i).state = .pendingNew) := by
    rcases hs with hs | hs <;> simp [hr, OrderRec.cancelReq, hs]
  refine ⟨hc.update hne (r := r) ?_ rfl hframe hslots hc.open_nodup ?_ hc.pending_nodup ?_,
    ?_, ?_, ?_, ?_⟩
  · rcases hr' with hr' | hr' <;> simp [hr'.1]
  · intro j
    split_ifs with hj
    · subst hj
      rw [hc.mem_open_iff]
      rcases hr' with hr' | hr' <;> simp [hr'.1, hr'.2, OrdState.isResting]
    · rfl
  · intro j
    split_ifs with hj
    · subst hj
      rw [hc.mem_pending]
      rcases hr' with hr' | hr' <;> simp [hr'.1, hr'.2, hc.wf.lt hne]
    · rfl
  all_goals
    intro j
    simp only [hslots]
    by_cases hj : j = i
  · subst hj; rcases hr' with hr' | hr' <;> simp [hr'.1]
  · simpa [hj] using h.finished j
  · subst hj
    rw [update_self]
    exact fun _ => h.cid_le j hne
  · simpa [hj] using h.cid_le j
  · subst hj; rcases hr' with hr' | hr' <;> simp [hr'.1]
  · simpa [hj] using h.open_eff j
  · simp [hj]
  · simp only [update_of_ne hj, List.mem_append]
    exact fun hcj => .inl (h.canceling j hcj)

/-- Every operation keeps the invariant. -/
theorem step_inv (h : e.Inv) (op : Op) : (e.step op).1.Inv := by
  cases op with
  | market ticker family => exact { h with }
  | place mkt priceCents count buyYes ts depth =>
    exact place_inv mkt priceCents count buyYes ts depth h
  | cancel cid ts => exact cancel_inv h cid ts
  | trade p => exact onTrade_inv h p
  | settle mkt yesWins ts => exact onSettle_inv h mkt yesWins ts
  | advance now => exact advance_inv h

end ShadowEngine

end HftBot
