import HftBot.Shadow.Engine

/-!
# What the registry operations do

One equation for each field and operation, so that later proofs never unfold an operation, and
the representation invariant of the registry on its own.
-/

namespace HftBot

open HftBot.Core Function

lemma OrdState.ne_free_of_isResting {s : OrdState} (h : s.isResting = true) : s ≠ .free := by
  rintro rfl
  cases h

lemma OrdState.ne_free_of_isLive {s : OrdState} (h : s.isLive = true) : s ≠ .free := by
  rintro rfl
  cases h

lemma OrdState.isLive_of_isResting {s : OrdState} (h : s.isResting = true) : s.isLive = true := by
  cases s <;> first | rfl | cases h

lemma OrdState.ne_pendingNew_of_isResting {s : OrdState} (h : s.isResting = true) :
    s ≠ .pendingNew := by
  rintro rfl
  cases h

/-- The order after a fill of `qty`. -/
def OrderRec.fill (r : OrderRec) (qty : Int) : OrderRec :=
  if r.remaining = qty then { r with filled := r.filled + qty, state := .filled }
  else { r with filled := r.filled + qty }

namespace OrderRegistry

/-! ### Frames -/

/-- `reg'` differs from `reg` at most in its slots and its gauge. -/
structure Frame (reg reg' : OrderRegistry) : Prop where
  capacity : reg'.capacity = reg.capacity
  free     : reg'.free = reg.free
  byCid    : reg'.byCid = reg.byCid
  illegal  : reg'.illegalTransitions = reg.illegalTransitions

lemma Frame.trans {reg reg' reg'' : OrderRegistry} (h : reg.Frame reg') (h' : reg'.Frame reg'') :
    reg.Frame reg'' :=
  ⟨h'.capacity.trans h.capacity, h'.free.trans h.free, h'.byCid.trans h.byCid,
    h'.illegal.trans h.illegal⟩

variable {reg : OrderRegistry} {i : Nat} {dst : OrdState}

lemma transition_frame (h : legalTransition (reg.slots i).state dst = true) :
    reg.Frame (reg.transition i dst) := by
  constructor <;> simp [transition, h]

lemma transition_slots (h : legalTransition (reg.slots i).state dst = true) :
    (reg.transition i dst).slots = update reg.slots i { reg.slots i with state := dst } := by
  simp [transition, h]

/-- Only opening and finishing an order moves the gauge. -/
lemma transition_gauge (reg : OrderRegistry) (i : Nat) (hopen : dst ≠ .open)
    (hterm : dst.isTerminal = false) : (reg.transition i dst).gauge = reg.gauge := by
  by_cases h : legalTransition (reg.slots i).state dst = true <;>
    simp [transition, h, hopen, hterm]

lemma transition_slots_other (reg : OrderRegistry) (i : Nat) (dst : OrdState) {j : Nat}
    (hj : j ≠ i) : (reg.transition i dst).slots j = reg.slots j := by
  by_cases h : legalTransition (reg.slots i).state dst = true <;> simp [transition, h, hj]

@[simp] lemma transition_capacity (reg : OrderRegistry) (i : Nat) (dst : OrdState) :
    (reg.transition i dst).capacity = reg.capacity := by
  simp only [transition]
  split_ifs <;> rfl

lemma setQueueAhead_frame (reg : OrderRegistry) (i : Nat) (q : Int) :
    reg.Frame (reg.setQueueAhead i q) := ⟨rfl, rfl, rfl, rfl⟩

@[simp] lemma setQueueAhead_slots (reg : OrderRegistry) (i : Nat) (q : Int) :
    (reg.setQueueAhead i q).slots =
      update reg.slots i { reg.slots i with queueAhead := q } := rfl

lemma setCancelEff_frame (reg : OrderRegistry) (i t : Nat) :
    reg.Frame (reg.setCancelEff i t) := ⟨rfl, rfl, rfl, rfl⟩

@[simp] lemma setCancelEff_slots (reg : OrderRegistry) (i t : Nat) :
    (reg.setCancelEff i t).slots =
      update reg.slots i { reg.slots i with cancelEffNs := t } := rfl

lemma applyFill_frame (reg : OrderRegistry) (i : Nat) (qty : Int) :
    reg.Frame (reg.applyFill i qty) := ⟨rfl, rfl, rfl, rfl⟩

@[simp] lemma applyFill_slots (reg : OrderRegistry) (i : Nat) (qty : Int) :
    (reg.applyFill i qty).slots = update reg.slots i ((reg.slots i).fill qty) := by
  have hrem : (reg.slots i).count - ((reg.slots i).filled + qty) = 0 ↔
      (reg.slots i).count - (reg.slots i).filled = qty := by omega
  by_cases h : (reg.slots i).count - (reg.slots i).filled = qty
  · simp [applyFill, OrderRec.fill, OrderRec.remaining, h, hrem.mpr h]
  · simp [applyFill, OrderRec.fill, OrderRec.remaining, h, hrem]

@[simp] lemma release_capacity (reg : OrderRegistry) (i : Nat) :
    (reg.release i).capacity = reg.capacity := rfl

@[simp] lemma release_free (reg : OrderRegistry) (i : Nat) :
    (reg.release i).free = i :: reg.free := rfl

@[simp] lemma release_byCid (reg : OrderRegistry) (i : Nat) :
    (reg.release i).byCid = update reg.byCid (reg.slots i).cid none := rfl

@[simp] lemma release_slots (reg : OrderRegistry) (i : Nat) :
    (reg.release i).slots = update reg.slots i { reg.slots i with state := .free } := rfl

end OrderRegistry

/-! ### Slots and indices -/

/-- The free list holds exactly the free slots, each once, and the client-id index is a bijection
between the ids of the slots in use and those slots. -/
structure OrderRegistry.WF (reg : OrderRegistry) : Prop where
  free_nodup : reg.free.Nodup
  mem_free   : ∀ i, i ∈ reg.free ↔ i < reg.capacity ∧ (reg.slots i).state = .free
  byCid_iff  : ∀ c i, reg.byCid c = some i ↔
    i < reg.capacity ∧ (reg.slots i).state ≠ .free ∧ (reg.slots i).cid = c
  /-- nothing is ever written outside the table -/
  outside    : ∀ i, reg.capacity ≤ i → (reg.slots i).state = .free

namespace OrderRegistry

variable {reg : OrderRegistry} {i : Nat}

lemma new_wf (capacity : Nat) : (new capacity).WF where
  free_nodup := List.nodup_range
  mem_free i := by simp [new]
  byCid_iff c i := by simp [new]
  outside i _ := rfl

lemma WF.lt (h : reg.WF) (hi : (reg.slots i).state ≠ .free) : i < reg.capacity :=
  Nat.lt_of_not_le fun hle => hi (h.outside i hle)

/-- An update of a slot in use that keeps it in use and keeps its id. -/
lemma WF.update {reg' : OrderRegistry} (h : reg.WF) (hi : (reg.slots i).state ≠ .free)
    {r : OrderRec} (hr : r.state ≠ .free) (hcid : r.cid = (reg.slots i).cid)
    (hf : reg.Frame reg') (hslots : reg'.slots = Function.update reg.slots i r) :
    reg'.WF where
  free_nodup := hf.free ▸ h.free_nodup
  mem_free j := by
    rw [hf.free, hf.capacity, hslots, h.mem_free]
    by_cases hj : j = i
    · subst hj; simp [hi, hr]
    · simp [hj]
  byCid_iff c j := by
    rw [hf.byCid, hf.capacity, hslots, h.byCid_iff]
    by_cases hj : j = i
    · subst hj; simp [hi, hr, hcid]
    · simp [hj]
  outside j hj := by
    rw [hf.capacity] at hj
    have hne : j ≠ i := fun h' => absurd (h.lt hi) (by omega)
    rw [hslots, update_of_ne hne, h.outside j hj]

lemma WF.transition (h : reg.WF) {dst : OrdState} (hi : (reg.slots i).state ≠ .free)
    (hl : legalTransition (reg.slots i).state dst = true) (hd : dst ≠ .free) :
    (reg.transition i dst).WF :=
  h.update hi (r := { reg.slots i with state := dst }) hd rfl (transition_frame hl)
    (transition_slots hl)

lemma WF.release (h : reg.WF) (hi : (reg.slots i).state ≠ .free) : (reg.release i).WF where
  free_nodup := by
    rw [release_free, List.nodup_cons]
    exact ⟨fun hm => hi ((h.mem_free i).mp hm).2, h.free_nodup⟩
  mem_free j := by
    by_cases hj : j = i
    · subst hj; simp [h.lt hi]
    · simp [hj, h.mem_free]
  byCid_iff c j := by
    have hown : reg.byCid (reg.slots i).cid = some i := (h.byCid_iff _ _).mpr ⟨h.lt hi, hi, rfl⟩
    by_cases hj : j = i
    · subst hj
      by_cases hc : c = (reg.slots j).cid
      · simp [hc]
      · simp only [release_byCid, ne_eq, hc, not_false_eq_true, update_of_ne, release_capacity,
          release_slots, update_self, not_true_eq_false, false_and, and_false, iff_false]
        intro hb
        exact hc ((h.byCid_iff _ _).mp hb).2.2.symm
    · by_cases hc : c = (reg.slots i).cid
      · subst hc
        simp only [release_byCid, update_self, reduceCtorEq, release_capacity, release_slots,
          ne_eq, hj, not_false_eq_true, update_of_ne, false_iff]
        rintro ⟨h1, h2, h3⟩
        have hj' := (h.byCid_iff _ _).mpr ⟨h1, h2, h3⟩
        exact hj (Option.some.inj (hj'.symm.trans hown))
      · simp [hc, hj, h.byCid_iff]
  outside j hj := by
    by_cases hji : j = i
    · subst hji; simp
    · simpa [hji] using h.outside j hj

end OrderRegistry

end HftBot
