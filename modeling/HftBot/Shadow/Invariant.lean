import HftBot.Shadow.Lifecycle

/-!
# Representation invariant of the shadow engine

Raw slot indices live in four containers of the engine. `Consistent` ties three of them to the
slot states: the free list, the list of orders inside their placement latency, and the list of
resting orders. Every loop body of the engine keeps it, whatever stale entries the remaining two
lists (cancels under way, orders of a market) still hold, because it validates each index against
the state of the slot it finds.
-/

namespace HftBot

open HftBot.Core Function

/-! ### The list of resting orders -/

namespace FillSim

lemma remove_perm (sim : FillSim) (i : Nat) : (sim.remove i).open_.Perm (sim.open_.erase i) := by
  unfold remove
  cases hf : sim.open_.findIdx? (· = i) with
  | none =>
    simp only [List.findIdx?_eq_none_iff, decide_eq_false_iff_not] at hf
    rw [List.erase_of_not_mem fun h => hf i h rfl]
  | some k =>
    obtain ⟨hk, heq, -⟩ := List.findIdx?_eq_some_iff_getElem.mp hf
    simp only [decide_eq_true_eq] at heq
    have hsplit : sim.open_ = sim.open_.take k ++ i :: sim.open_.drop (k + 1) := by
      rw [← heq, List.cons_getElem_drop_succ, List.take_append_drop]
    have hlen : (sim.open_.take k).length = k := by simp; omega
    obtain ⟨t', ht', hp⟩ :=
      swapRemove_append_cons (sim.open_.take k) i (sim.open_.drop (k + 1))
    rw [hlen, ← hsplit] at ht'
    simp only [ht']
    have hperm : (sim.open_.take k ++ i :: sim.open_.drop (k + 1)).Perm
        (i :: (sim.open_.take k ++ t')) :=
      List.perm_middle.trans ((hp.symm.append_left _).cons i)
    rw [← hsplit] at hperm
    simpa using (hperm.erase i).symm

lemma remove_nodup {sim : FillSim} (h : sim.open_.Nodup) (i : Nat) :
    (sim.remove i).open_.Nodup :=
  (remove_perm sim i).nodup_iff.mpr (h.erase i)

lemma mem_remove {sim : FillSim} (h : sim.open_.Nodup) (i j : Nat) :
    j ∈ (sim.remove i).open_ ↔ j ≠ i ∧ j ∈ sim.open_ := by
  rw [(remove_perm sim i).mem_iff, h.mem_erase_iff]

@[simp] lemma remove_track (sim : FillSim) (i : Nat) : (sim.remove i).track = sim.track := by
  unfold remove; split <;> rfl

end FillSim

/-! ### Consistency of slots and lists -/

/-- The free list, the pending list and the resting list partition the slots by their state. -/
structure Consistent (reg : OrderRegistry) (open_ : List Nat) (pending : List Pending) : Prop where
  wf            : reg.WF
  legal         : reg.illegalTransitions = 0
  open_nodup    : open_.Nodup
  mem_open      : ∀ i, i ∈ open_ ↔ i < reg.capacity ∧ (reg.slots i).state.isResting = true
  pending_nodup : (pending.map Pending.idx).Nodup
  mem_pending   : ∀ i, i ∈ pending.map Pending.idx ↔
    i < reg.capacity ∧ (reg.slots i).state = .pendingNew

namespace Consistent

variable {reg reg' : OrderRegistry} {open_ open' : List Nat} {pending pending' : List Pending}
  {i : Nat}

/-- The order of the pending list does not matter. -/
lemma perm (h : Consistent reg open_ pending) (hp : pending.Perm pending') :
    Consistent reg open_ pending' where
  wf := h.wf
  legal := h.legal
  open_nodup := h.open_nodup
  mem_open := h.mem_open
  pending_nodup := (hp.map _).nodup_iff.mp h.pending_nodup
  mem_pending j := by rw [← (hp.map _).mem_iff, h.mem_pending]

/-- Nor does the order of the resting list. -/
lemma permOpen (h : Consistent reg open_ pending) (hp : open_.Perm open') :
    Consistent reg open' pending where
  wf := h.wf
  legal := h.legal
  open_nodup := hp.nodup_iff.mp h.open_nodup
  mem_open j := by rw [← hp.mem_iff, h.mem_open]
  pending_nodup := h.pending_nodup
  mem_pending := h.mem_pending

lemma mem_open_iff (h : Consistent reg open_ pending) :
    i ∈ open_ ↔ (reg.slots i).state.isResting = true := by
  rw [h.mem_open]
  exact and_iff_right_of_imp fun hr => h.wf.lt (OrdState.ne_free_of_isResting hr)

/-- Rewriting one slot in use, without changing its id, when the lists follow its state. -/
lemma update (h : Consistent reg open_ pending)
    (hi : (reg.slots i).state ≠ .free) {r : OrderRec} (hr : r.state ≠ .free)
    (hcid : r.cid = (reg.slots i).cid) (hf : reg.Frame reg')
    (hslots : reg'.slots = Function.update reg.slots i r)
    (hond : open'.Nodup)
    (hopen : ∀ j, j ∈ open' ↔ if j = i then r.state.isResting = true else j ∈ open_)
    (hpnd : (pending'.map Pending.idx).Nodup)
    (hpend : ∀ j, j ∈ pending'.map Pending.idx ↔
      if j = i then r.state = .pendingNew else j ∈ pending.map Pending.idx) :
    Consistent reg' open' pending' where
  wf := h.wf.update hi hr hcid hf hslots
  legal := hf.illegal.trans h.legal
  open_nodup := hond
  mem_open j := by
    rw [hopen, hf.capacity, hslots, h.mem_open]
    by_cases hj : j = i
    · subst hj; simp [h.wf.lt hi]
    · simp [hj]
  pending_nodup := hpnd
  mem_pending j := by
    rw [hpend, hf.capacity, hslots, h.mem_pending]
    by_cases hj : j = i
    · subst hj; simp [h.wf.lt hi]
    · simp [hj]

/-- Rewriting one slot without changing its state or id. -/
lemma updateData (h : Consistent reg open_ pending)
    (hi : (reg.slots i).state ≠ .free) {r : OrderRec} (hr : r.state = (reg.slots i).state)
    (hcid : r.cid = (reg.slots i).cid) (hf : reg.Frame reg')
    (hslots : reg'.slots = Function.update reg.slots i r) : Consistent reg' open_ pending := by
  refine h.update hi (hr ▸ hi) hcid hf hslots h.open_nodup ?_
    h.pending_nodup ?_
  · intro j
    split_ifs with hj
    · subst hj; rw [h.mem_open, hr]; simp [h.wf.lt hi]
    · rfl
  · intro j
    split_ifs with hj
    · subst hj; rw [h.mem_pending, hr]; simp [h.wf.lt hi]
    · rfl

/-- A slot in use that neither rests nor waits can be released. -/
lemma release (h : Consistent reg open_ pending)
    (ht : (reg.slots i).state.isTerminal = true) : Consistent (reg.release i) open_ pending := by
  have hfree : (reg.slots i).state ≠ .free := by intro hs; simp [hs, OrdState.isTerminal] at ht
  refine ⟨h.wf.release hfree, h.legal, h.open_nodup, ?_, h.pending_nodup, ?_⟩
  · intro j
    rw [h.mem_open]
    by_cases hj : j = i
    · subst hj
      generalize (reg.slots j).state = st at ht
      cases st <;> simp_all [OrdState.isTerminal, OrdState.isResting]
    · simp [hj]
  · intro j
    rw [h.mem_pending]
    by_cases hj : j = i
    · subst hj
      generalize (reg.slots j).state = st at ht
      cases st <;> simp_all [OrdState.isTerminal]
    · simp [hj]

/-- A resting order leaves the book: it is taken off the list, closed and released. -/
lemma retire {sim : FillSim} {dst : OrdState} (h : Consistent reg sim.open_ pending)
    (hs : (reg.slots i).state.isResting = true)
    (hl : legalTransition (reg.slots i).state dst = true) (hd : dst.isTerminal = true) :
    Consistent ((reg.transition i dst).release i) (sim.remove i).open_ pending := by
  have hi := OrdState.ne_free_of_isResting hs
  have hpn := OrdState.ne_pendingNew_of_isResting hs
  have hdf : dst ≠ .free := by rintro rfl; simp [OrdState.isTerminal] at hd
  have hslots := OrderRegistry.transition_slots hl
  have hframe := OrderRegistry.transition_frame hl
  have hwf : (reg.transition i dst).WF := h.wf.transition hi hl hdf
  refine ⟨hwf.release (by simpa [hslots] using hdf), ?_, FillSim.remove_nodup h.open_nodup i, ?_,
    h.pending_nodup, ?_⟩
  · exact hframe.illegal.trans h.legal
  · intro j
    rw [FillSim.mem_remove h.open_nodup, h.mem_open]
    by_cases hj : j = i
    · subst hj; simp [OrdState.isResting]
    · simp [hj, hslots]
  · intro j
    rw [h.mem_pending]
    by_cases hj : j = i
    · subst hj; simp [hpn]
    · simp [hj, hslots]

end Consistent

/-! ### The loops -/

section Loops

variable {reg : OrderRegistry} {sim : FillSim} {pending : List Pending} {now : Nat}

lemma OrderRec.opened_state (track : Track) (displayed : Int) (r : OrderRec) :
    (r.opened track displayed).state ≠ .free ∧ (r.opened track displayed).state ≠ .pendingNew ∧
      ((r.opened track displayed).state.isResting = true ↔
        ¬ (track = .queue ∧ displayed < 0)) := by
  unfold OrderRec.opened
  split_ifs <;> simp_all [OrdState.isResting]

@[simp] lemma OrderRec.opened_cid (track : Track) (displayed : Int) (r : OrderRec) :
    (r.opened track displayed).cid = r.cid := by
  unfold OrderRec.opened
  split_ifs <;> rfl

lemma Consistent.activateVisit_keep {k t : List Pending} {p : Pending} {n : Nat}
    (h : Consistent reg sim.open_ (k ++ p :: t))
    (hv : (ShadowEngine.activateVisit now (reg, sim, n) p).2 = false) :
    ShadowEngine.activateVisit now (reg, sim, n) p = ((reg, sim, n), false) := by
  have hs : (reg.slots p.idx).state = .pendingNew := ((h.mem_pending p.idx).mp (by simp)).2
  by_cases hdue : (reg.slots p.idx).activeTsNs ≤ now
  · obtain ⟨reg', sim', n', heq, -⟩ := ShadowEngine.activateVisit_due hs hdue sim n
    simp [heq] at hv
  · exact ShadowEngine.activateVisit_notDue hdue sim n

lemma Consistent.activateVisit_drop {k t : List Pending} {p : Pending} {n : Nat}
    (h : Consistent reg sim.open_ (k ++ p :: t))
    (hv : (ShadowEngine.activateVisit now (reg, sim, n) p).2 = true) :
    Consistent (ShadowEngine.activateVisit now (reg, sim, n) p).1.1
      (ShadowEngine.activateVisit now (reg, sim, n) p).1.2.1.open_ (k ++ t) := by
  have hs : (reg.slots p.idx).state = .pendingNew := ((h.mem_pending p.idx).mp (by simp)).2
  by_cases hdue : (reg.slots p.idx).activeTsNs ≤ now
  · obtain ⟨reg', sim', n', heq, hframe, hslots, -, hopen⟩ :=
      ShadowEngine.activateVisit_due hs hdue sim n
    obtain ⟨hfree, hpn, hrest⟩ :=
      OrderRec.opened_state sim.track p.displayedAtLevel (reg.slots p.idx)
    have hnotin : p.idx ∉ sim.open_ := by
      rw [h.mem_open]; simp [hs, OrdState.isResting]
    have hnd : ((k ++ t).map Pending.idx).Nodup ∧ p.idx ∉ (k ++ t).map Pending.idx := by
      have := h.pending_nodup
      rw [(List.perm_middle.map Pending.idx).nodup_iff, List.map_cons, List.nodup_cons] at this
      exact this.symm
    rw [heq]
    refine h.update (by simp [hs]) hfree (by simp) hframe hslots ?_ ?_ hnd.1 ?_
    · rw [hopen]
      split_ifs
      · exact h.open_nodup
      · rw [List.nodup_append]
        refine ⟨h.open_nodup, List.nodup_singleton _, ?_⟩
        rintro a ha b hb rfl
        exact hnotin (List.mem_singleton.mp hb ▸ ha)
    · intro j
      rw [hrest, hopen]
      by_cases hj : j = p.idx
      · subst hj
        rw [if_pos rfl]
        split_ifs with hq <;> simp [hq, hnotin]
      · split_ifs with hq <;> simp [hj]
    · intro j
      by_cases hj : j = p.idx
      · subst hj; simpa [hpn] using hnd.2
      · simp [hj]
  · simp [ShadowEngine.activateVisit_notDue hdue] at hv

theorem Consistent.sweepActivations {n : Nat} (h : Consistent reg sim.open_ pending) :
    Consistent (sweep (ShadowEngine.activateVisit now) pending (reg, sim, n)).2.1
      (sweep (ShadowEngine.activateVisit now) pending (reg, sim, n)).2.2.1.open_
      (sweep (ShadowEngine.activateVisit now) pending (reg, sim, n)).1 := by
  have main := sweep_induct (f := ShadowEngine.activateVisit now)
    (P := fun k t st => Consistent st.1 st.2.1.open_ (k ++ t)) (l := pending) (s := (reg, sim, n))
    ?_ ?_ ?_ (by simpa using h)
  · simpa using main
  · rintro k t t' st hp hst
    exact hst.perm (hp.append_left k)
  · rintro k p t ⟨reg, sim, n⟩ hst hv
    rw [hst.activateVisit_keep hv]
    simpa using hst
  · rintro k p t ⟨reg, sim, n⟩ hst hv
    exact hst.activateVisit_drop hv

theorem Consistent.sweepCancels {canceling : List Nat} (h : Consistent reg sim.open_ pending) :
    Consistent (sweep (ShadowEngine.cancelVisit now) canceling (reg, sim)).2.1
      (sweep (ShadowEngine.cancelVisit now) canceling (reg, sim)).2.2.open_ pending := by
  have visit : ∀ st i, Consistent st.1 st.2.open_ pending →
      Consistent (ShadowEngine.cancelVisit now st i).1.1
        (ShadowEngine.cancelVisit now st i).1.2.open_ pending := by
    rintro ⟨reg, sim⟩ i hst
    by_cases hs : (reg.slots i).state = .pendingCancel ∧ (reg.slots i).cancelEffNs ≤ now
    · simp only [ShadowEngine.cancelVisit, hs.1, hs.2, if_true]
      exact hst.retire (by simp [hs.1, OrdState.isResting]) (by rw [hs.1]; rfl) rfl
    · have heq : (ShadowEngine.cancelVisit now (reg, sim) i).1 = (reg, sim) := by
        simp only [ShadowEngine.cancelVisit]
        split_ifs <;> simp_all
      rw [heq]
      exact hst
  refine sweep_induct (f := ShadowEngine.cancelVisit now)
    (P := fun _ _ st => Consistent st.1 st.2.open_ pending) (l := canceling) (s := (reg, sim))
    ?_ ?_ ?_ h
  · intro _ _ _ st _ hst
    exact hst
  · intro _ i _ st hst _
    exact visit st i hst
  · intro _ i _ st hst _
    exact visit st i hst

lemma OrderRec.fill_state (r : OrderRec) (qty : Int) :
    (r.fill qty).state = if r.remaining = qty then .filled else r.state := by
  unfold OrderRec.fill
  split_ifs <;> rfl

lemma OrderRec.print_state (track : Track) (p : Print) (r : OrderRec) :
    (r.print track p).state =
      if 0 < r.fillQty track p ∧ r.remaining = r.fillQty track p then .filled else r.state := by
  unfold OrderRec.print
  split_ifs <;> simp_all [OrderRec.fill_state, OrderRec.remaining]

@[simp] lemma OrderRec.print_cid (track : Track) (p : Print) (r : OrderRec) :
    (r.print track p).cid = r.cid := by
  simp only [OrderRec.print, OrderRec.fill]
  split_ifs <;> rfl

@[simp] lemma OrderRec.print_cancelEffNs (track : Track) (p : Print) (r : OrderRec) :
    (r.print track p).cancelEffNs = r.cancelEffNs := by
  simp only [OrderRec.print, OrderRec.fill]
  split_ifs <;> rfl

lemma FillSim.visit_frame (track : Track) (p : Print) (st : OrderRegistry × List Fill) (i : Nat) :
    st.1.Frame (visit track p st i).1.1 := by
  obtain ⟨reg, out⟩ := st
  rcases visit_cases track p reg out i with ⟨-, -, hv⟩ | ⟨-, -, hv⟩ | ⟨-, -, -, hv⟩
  · rw [hv]; exact ⟨rfl, rfl, rfl, rfl⟩
  · rw [hv]; exact OrderRegistry.setQueueAhead_frame _ _ _
  · rw [hv]
    exact (OrderRegistry.setQueueAhead_frame _ _ _).trans (OrderRegistry.applyFill_frame _ _ _)

/-- A visit takes the slot off the resting list exactly when it fills the order. -/
lemma FillSim.visit_removed (track : Track) (p : Print) (st : OrderRegistry × List Fill) (i : Nat) :
    (visit track p st i).2 = true ↔
      0 < (st.1.slots i).fillQty track p ∧
        (st.1.slots i).remaining = (st.1.slots i).fillQty track p := by
  obtain ⟨reg, out⟩ := st
  rcases visit_cases track p reg out i with ⟨-, hq, hv⟩ | ⟨-, hq, hv⟩ | ⟨-, hq, -, hv⟩
  · simp [hv, hq]
  · simp [hv, hq]
  · simp [hv, hq]

theorem Consistent.simOnTrade (h : Consistent reg sim.open_ pending) (p : Print) :
    Consistent (sim.onTrade reg p).2.1 (sim.onTrade reg p).1.open_ pending := by
  have main := sweep_induct (f := FillSim.visit sim.track p)
    (P := fun k t st => Consistent st.1 (k ++ t) pending) (l := sim.open_) (s := (reg, []))
    ?_ ?_ ?_ (by simpa using h)
  · simpa [FillSim.onTrade] using main
  · intro k t t' st hp hst
    exact hst.permOpen (hp.append_left k)
  · intro k i t st hst hv
    have hr : (st.1.slots i).state.isResting = true := hst.mem_open_iff.mp (by simp)
    have hnot : ¬ _ := mt (FillSim.visit_removed sim.track p st i).mpr (by simp [hv])
    rw [List.append_assoc, List.singleton_append]
    refine hst.updateData (OrdState.ne_free_of_isResting hr) ?_ (OrderRec.print_cid _ _ _)
      (FillSim.visit_frame _ _ _ _)
      (FillSim.visit_slots _ _ _ _)
    rw [OrderRec.print_state, if_neg hnot]
  · intro k i t st hst hv
    have hr : (st.1.slots i).state.isResting = true := hst.mem_open_iff.mp (by simp)
    have hstate : ((st.1.slots i).print sim.track p).state = .filled := by
      rw [OrderRec.print_state, if_pos ((FillSim.visit_removed sim.track p st i).mp hv)]
    have hnd := hst.open_nodup
    rw [List.perm_middle.nodup_iff, List.nodup_cons] at hnd
    refine hst.update (OrdState.ne_free_of_isResting hr) (by simp [hstate])
      (OrderRec.print_cid _ _ _)
      (FillSim.visit_frame _ _ _ _) (FillSim.visit_slots _ _ _ _) hnd.2 ?_ hst.pending_nodup ?_
    · intro j
      by_cases hj : j = i
      · subst hj; simpa [hstate, OrdState.isResting] using hnd.1
      · simp [hj]
    · intro j
      by_cases hj : j = i
      · subst hj
        rw [hst.mem_pending, if_pos rfl, hstate]
        simp [OrdState.ne_pendingNew_of_isResting hr]
      · simp [hj]

theorem Consistent.bookFills {open_ : List Nat} (h : Consistent reg open_ pending)
    (fills : List Fill) (ledger : Ledger) :
    Consistent (ShadowEngine.bookFills fills reg ledger).1 open_ pending := by
  induction fills generalizing reg ledger with
  | nil => exact h
  | cons f fills ih =>
    simp only [ShadowEngine.bookFills, List.foldl_cons] at ih ⊢
    apply ih
    split_ifs with hs
    · exact h.release (by simp [hs, OrdState.isTerminal])
    · exact h

theorem Consistent.settleSweep (h : Consistent reg sim.open_ pending) (mkt : Nat)
    (slots : List Nat) :
    Consistent (slots.foldl (ShadowEngine.settleVisit mkt) (reg, sim)).1
      (slots.foldl (ShadowEngine.settleVisit mkt) (reg, sim)).2.open_ pending := by
  induction slots generalizing reg sim with
  | nil => exact h
  | cons i slots ih =>
    rw [List.foldl_cons]
    by_cases hi : (reg.slots i).market = mkt ∧
        ((reg.slots i).state = .open ∨ (reg.slots i).state = .pendingCancel)
    · obtain ⟨hm, hs⟩ := hi
      simp only [ShadowEngine.settleVisit, hm, ne_eq, not_true_eq_false, if_false, hs, if_true]
      apply ih
      rcases hs with hs | hs
      · simp only [hs, reduceCtorEq, if_false]
        exact h.retire (by simp [hs, OrdState.isResting]) (by rw [hs]; rfl) rfl
      · simp only [hs, if_true]
        exact h.retire (by simp [hs, OrdState.isResting]) (by rw [hs]; rfl) rfl
    · have heq : ShadowEngine.settleVisit mkt (reg, sim) i = (reg, sim) := by
        simp only [ShadowEngine.settleVisit]
        split_ifs <;> simp_all
      rw [heq]
      exact ih h

end Loops

end HftBot
