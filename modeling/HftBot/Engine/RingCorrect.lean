import HftBot.Core.Threads
import HftBot.Engine.RingSteps

/-!
# Ring correctness

Whatever the threads of a ring do, in whatever order: a cell has one owner, what is popped is what
was pushed at the same position, and a call fails only on a cell that is not ready for it. A full
ring is told from the one cell that comes next: a consumer that holds it makes `try_push` fail even
if the cells after it are free.
-/

namespace HftBot.Ring

open HftBot.Core

variable {τ α : Type}

/-! ### One access -/

/-- A call that has not claimed its position yet. -/
def Pc.waiting : Pc α → Nat
  | .pushLoad _  => 1
  | .pushSeq _ _ => 1
  | .pushCas _ _ => 1
  | .popLoad     => 1
  | .popSeq _    => 1
  | .popCas _    => 1
  | _            => 0

/-- What an access of a thread leaves as it should be. -/
structure Keeps (m : Mem τ α) (cap : Nat) (t : τ) (pc : Pc α) (next : Mem τ α × Pc α) : Prop where
  mem    : MemInv next.1 cap
  thread : ThreadAt next.1 cap t next.2
  others : ∀ u pc', u ≠ t → ThreadAt m cap u pc' → ThreadAt next.1 cap u pc'
  claims : next.1.enqueuePos + next.1.dequeuePos + next.2.waiting ≤
    m.enqueuePos + m.dequeuePos + pc.waiting

section

variable {m : Mem τ α} {cap pos : Nat} {t : τ} {v : α} {pc pc' : Pc α} {spurious : Bool}

/-- An access that changes nothing but where the thread stands. -/
lemma Keeps.of_load (h : MemInv m cap) (ht : ThreadAt m cap t pc')
    (hle : pc'.waiting ≤ pc.waiting) : Keeps m cap t pc (m, pc') :=
  ⟨h, ht, fun _ _ _ hu => hu, Nat.add_le_add_left hle _⟩

variable (h : MemInv m cap) (hcap : Fits cap) (hsmall : Small m)
include h hcap hsmall

lemma pushSeq_keeps (ht : ThreadAt m cap t (.pushSeq v pos)) :
    Keeps m cap t (.pushSeq v pos) (access m t spurious (.pushSeq v pos)) := by
  simp only [access]
  split_ifs with hzero hneg
  · refine .of_load h ⟨ht, fun _ => ?_⟩ le_rfl
    rw [h.pushDif_eq hcap hsmall ht] at hzero
    omega
  · exact .of_load h trivial (Nat.zero_le _)
  · exact .of_load h trivial le_rfl

lemma popSeq_keeps (ht : ThreadAt m cap t (.popSeq pos)) :
    Keeps m cap t (.popSeq pos) (access m t spurious (.popSeq pos)) := by
  simp only [access]
  split_ifs with hzero hneg
  · refine .of_load h ⟨ht, fun _ => ?_⟩ le_rfl
    rw [h.popDif_eq hcap hsmall ht] at hzero
    omega
  · exact .of_load h trivial (Nat.zero_le _)
  · exact .of_load h trivial le_rfl

lemma pushCas_keeps (ht : ThreadAt m cap t (.pushCas v pos)) :
    Keeps m cap t (.pushCas v pos) (access m t spurious (.pushCas v pos)) := by
  simp only [access]
  split_ifs with hclaim
  · obtain ⟨hpos, -⟩ := hclaim
    have hseq := ht.2 hpos
    have henq := claimPush_enqueuePos (t := t) (v := v) hsmall hpos
    have hpush : (m.claimPush t v pos).pushes[pos]? = some (t, v) := by
      have hlen : m.pushes.length = pos := h.pushes.trans hpos
      simp [Mem.claimPush, ← hlen]
    have hle : m.dequeuePos ≤ pos := h.le.trans (le_of_eq hpos)
    refine ⟨claimPush_memInv h hcap hsmall hpos hseq, ?_,
      fun u pc' _ hu => claimPush_threadAt h hsmall hpos hu, ?_⟩
    · exact ⟨hseq, hle, by rw [henq]; exact Nat.lt_succ_self pos, hpush⟩
    · change (m.claimPush t v pos).enqueuePos + m.dequeuePos + 0 ≤ m.enqueuePos + m.dequeuePos + 1
      omega
  · exact .of_load h le_rfl le_rfl

lemma popCas_keeps (ht : ThreadAt m cap t (.popCas pos)) :
    Keeps m cap t (.popCas pos) (access m t spurious (.popCas pos)) := by
  simp only [access]
  split_ifs with hclaim
  · obtain ⟨hpos, -⟩ := hclaim
    have hseq := ht.2 hpos
    have hdeq := claimPop_dequeuePos (t := t) hsmall hpos
    obtain ⟨-, -, hval⟩ := h.full_of_seq hcap hpos hseq
    have hown : (m.claimPop t pos).claims[pos]? = some t := by
      have hlen : m.claims.length = pos := h.claims.trans hpos
      simp [Mem.claimPop, ← hlen]
    refine ⟨claimPop_memInv h hcap hsmall hpos hseq, ?_,
      fun u pc' _ hu => claimPop_threadAt h hsmall hpos hseq hu, ?_⟩
    · exact ⟨hseq, by rw [hdeq]; exact Nat.lt_succ_self pos, hown, hval⟩
    · change m.enqueuePos + (m.claimPop t pos).dequeuePos + 0 ≤ m.enqueuePos + m.dequeuePos + 1
      omega
  · exact .of_load h le_rfl le_rfl

omit hsmall in
lemma pushWrite_keeps (ht : ThreadAt m cap t (.pushWrite v pos)) :
    Keeps m cap t (.pushWrite v pos) (access m t spurious (.pushWrite v pos)) := by
  refine ⟨setVal_memInv h hcap ht rfl _, ?_, fun u pc' hne hu => ?_, le_rfl⟩
  · obtain ⟨hseq, hdeq, henq, hpush⟩ := ht
    refine ⟨hseq, hdeq, henq, v, hpush, ?_⟩
    simp [access, Mem.write, hcap.cell_eq h.mask]
  · exact setVal_threadAt h hcap ht rfl _ hu hne

omit hsmall in
lemma popRead_keeps (ht : ThreadAt m cap t (.popRead pos)) :
    Keeps m cap t (.popRead pos) (access m t spurious (.popRead pos)) := by
  refine ⟨setVal_memInv h hcap ht rfl _, ?_, fun u pc' hne hu => ?_, le_rfl⟩
  · obtain ⟨hseq, hdeq, hclaim, u, w, hpush, hval⟩ := ht
    refine ⟨hseq, hdeq, hclaim, u, w, hpush, ?_⟩
    rw [hcap.cell_eq h.mask]
    exact hval
  · exact setVal_threadAt h hcap ht rfl _ hu hne

lemma pushStore_keeps (ht : ThreadAt m cap t (.pushStore pos)) :
    Keeps m cap t (.pushStore pos) (access m t spurious (.pushStore pos)) :=
  ⟨publish_memInv h hcap hsmall ht, trivial, fun _ _ hne hu =>
    setSeq_threadAt h hcap ht rfl hu hne rfl rfl rfl rfl rfl rfl, le_rfl⟩

lemma popStore_keeps {out : Option α} (ht : ThreadAt m cap t (.popStore pos out)) :
    Keeps m cap t (.popStore pos out) (access m t spurious (.popStore pos out)) :=
  ⟨release_memInv h hcap hsmall ht, trivial, fun _ _ hne hu =>
    setSeq_threadAt h hcap ht rfl hu hne rfl rfl rfl rfl rfl rfl, le_rfl⟩

lemma access_keeps (ht : ThreadAt m cap t pc) : Keeps m cap t pc (access m t spurious pc) := by
  cases pc with
  | idle => exact .of_load h trivial le_rfl
  | pushLoad v => exact .of_load h le_rfl le_rfl
  | popLoad => exact .of_load h le_rfl le_rfl
  | pushSeq v pos => exact pushSeq_keeps h hcap hsmall ht
  | pushCas v pos => exact pushCas_keeps h hcap hsmall ht
  | pushWrite v pos => exact pushWrite_keeps h hcap ht
  | pushStore pos => exact pushStore_keeps h hcap hsmall ht
  | popSeq pos => exact popSeq_keeps h hcap hsmall ht
  | popCas pos => exact popCas_keeps h hcap hsmall ht
  | popRead pos => exact popRead_keeps h hcap ht
  | popStore pos out => exact popStore_keeps h hcap hsmall ht

/-! ### Calls that fail -/

/-- The cell of a push that fails still waits for the pop of the round before. -/
lemma MemInv.push_fails (hpos : pos ≤ m.enqueuePos) (hneg : m.pushDif pos < 0) :
    m.enqueuePos = pos ∧ ∃ p, pos = p + cap ∧ p ∉ m.released := by
  rw [h.pushDif_eq hcap hsmall hpos] at hneg
  have hle := h.le
  obtain ⟨p, hp, hcell⟩ := h.cellAt hcap pos
  rw [← hp] at hneg
  have hround : p < pos → p + cap ≤ pos := add_le_of_same_cell hp
  have hlt : ∀ q, q ∈ m.released → q < m.dequeuePos := h.released
  cases hcell with
  | free hseq henq hdeq => omega
  | writing hseq hdeq henq hlast hpublished =>
    exact ⟨by omega, p, by omega, fun hmem => by have := hlt p hmem; omega⟩
  | full hseq hdeq henq hlast hval =>
    exact ⟨by omega, p, by omega, fun hmem => by have := hlt p hmem; omega⟩
  | reading hseq hdeq hlast hreleased => exact ⟨by omega, p, by omega, hreleased⟩

/-- The cell of a pop that fails has not been published. -/
lemma MemInv.pop_fails (hpos : pos ≤ m.dequeuePos) (hneg : m.popDif pos < 0) :
    pos ∉ m.published := by
  rw [h.popDif_eq hcap hsmall hpos] at hneg
  have hle := h.le
  obtain ⟨p, hp, hcell⟩ := h.cellAt hcap pos
  rw [← hp] at hneg
  have hround : p < pos → p + cap ≤ pos := add_le_of_same_cell hp
  have hround' : pos < p → pos + cap ≤ p := add_le_of_same_cell hp.symm
  intro hmem
  have := h.published pos hmem
  cases hcell with
  | free hseq henq hdeq => omega
  | writing hseq hdeq henq hlast hpublished =>
    have heq : p = pos := by omega
    exact hpublished (heq ▸ hmem)
  | full hseq hdeq henq hlast hval => omega
  | reading hseq hdeq hlast hreleased => omega

end

/-! ### Runs -/

/-- What a ring keeps; every position claimed is one of a call. -/
structure Inv [Fintype τ] (cap : Nat) (r : Ring τ α) : Prop where
  mem     : MemInv r.mem cap
  threads : ∀ t, ThreadAt r.mem cap t (r.pcs t)
  calls   : r.mem.enqueuePos + r.mem.dequeuePos + ∑ t, (r.pcs t).waiting ≤ r.operations

lemma Inv.small [Fintype τ] {cap : Nat} {r : Ring τ α} (h : Inv cap r)
    (hops : r.operations < 2 ^ 63) : Small r.mem := by
  have := h.calls
  rw [Small]
  omega

/-- The capacities that the constructor accepts, and the ring it makes of them. -/
lemma new_ok {capacity : Nat} {r : Ring τ α} (h : new capacity = .ok r) :
    Fits capacity ∧ r = { mem := { mask := capacity - 1 } } := by
  rw [new] at h
  split_ifs at h with halloc hbad
  rw [not_or, not_lt, not_not] at hbad
  obtain ⟨htwo, hand⟩ := hbad
  refine ⟨⟨?_, htwo, ?_⟩, (Except.ok.inj h).symm⟩
  · exact (Nat.and_sub_one_eq_zero_iff_isPowerOfTwo (by omega)).1 hand
  · rw [cellSize] at halloc
    omega

lemma new_inv [Fintype τ] {capacity : Nat} {r : Ring τ α} (h : new capacity = .ok r) :
    Inv capacity r := by
  obtain ⟨hcap, rfl⟩ := new_ok h
  have hpos := hcap.pos
  refine ⟨⟨?_, le_rfl, fun c hc => ⟨c, Nat.mod_eq_of_lt hc, ?_⟩, rfl, rfl, ?_, ?_, List.nodup_nil,
    rfl, ?_⟩, fun _ => trivial, ?_⟩
  · exact Nat.sub_add_cancel hpos
  · exact .free (Nat.mod_eq_of_lt hc) (Nat.zero_le c) (by simpa using hc)
  · exact fun _ hp => absurd hp List.not_mem_nil
  · exact fun _ hp => absurd hp List.not_mem_nil
  · exact fun _ _ _ hp => absurd hp List.not_mem_nil
  · simp [Pc.waiting]

variable [DecidableEq τ] {capacity : Nat} {r : Ring τ α}

lemma le_operations_step (r : Ring τ α) (a : Action τ α) :
    r.operations ≤ (step r a).operations := by
  cases a with
  | tryPush t v =>
    simp only [step]
    cases r.pcs t <;> simp
  | tryPop t =>
    simp only [step]
    cases r.pcs t <;> simp
  | step t spurious => exact le_rfl

section

variable [Fintype τ]

/-- A call begins. -/
lemma Inv.begin {cap : Nat} (h : Inv cap r) {t : τ} {pc : Pc α} (ht : r.pcs t = .idle)
    (hpc : ThreadAt r.mem cap t pc) (hwaiting : pc.waiting = 1) :
    Inv cap { r with pcs := Function.update r.pcs t pc, operations := r.operations + 1 } := by
  refine ⟨h.mem, ?_, ?_⟩
  · exact (Function.forall_update_iff r.pcs fun u pc => ThreadAt r.mem cap u pc).2
      ⟨hpc, fun u _ => h.threads u⟩
  · have hsum := sum_update_add Pc.waiting r.pcs t pc
    have := h.calls
    have hidle : (r.pcs t).waiting = 0 := by rw [ht]; rfl
    simp only
    omega

/-- A thread makes an access. -/
lemma Inv.access {cap : Nat} (h : Inv cap r) (hcap : Fits cap) (hops : r.operations < 2 ^ 63)
    (t : τ) (spurious : Bool) : Inv cap (step r (.step t spurious)) := by
  have hkeeps : Keeps r.mem cap t (r.pcs t) (Ring.access r.mem t spurious (r.pcs t)) :=
    access_keeps h.mem hcap (h.small hops) (h.threads t)
  obtain ⟨hmem, hthread, hothers, hclaims⟩ := hkeeps
  refine ⟨hmem, ?_, ?_⟩
  · exact (Function.forall_update_iff r.pcs fun u pc => ThreadAt _ cap u pc).2
      ⟨hthread, fun u hne => hothers u _ hne (h.threads u)⟩
  · have hsum := sum_update_add Pc.waiting r.pcs t (Ring.access r.mem t spurious (r.pcs t)).2
    have := h.calls
    simp only [step]
    omega

lemma Inv.step {cap : Nat} (h : Inv cap r) (hcap : Fits cap) (hops : r.operations < 2 ^ 63)
    (a : Action τ α) : Inv cap (step r a) := by
  cases a with
  | tryPush t v =>
    simp only [Ring.step]
    cases ht : r.pcs t with
    | idle => exact h.begin ht trivial rfl
    | _ => exact h
  | tryPop t =>
    simp only [Ring.step]
    cases ht : r.pcs t with
    | idle => exact h.begin ht trivial rfl
    | _ => exact h
  | step t spurious => exact h.access hcap hops t spurious

lemma inv_run (hnew : new capacity = .ok r) (acts : List (Action τ α))
    (hops : (run step r acts).operations < 2 ^ 63) : Inv capacity (run step r acts) := by
  have hcap := (new_ok hnew).1
  -- the number of calls only grows
  refine run_inv (P := fun r => r.operations < 2 ^ 63 → Inv capacity r) (A := fun _ _ => True)
    (fun r a ih _ hlt => ?_) (fun _ => new_inv hnew) (along_of_forall fun _ _ => trivial) hops
  have hlt' := (le_operations_step r a).trans_lt hlt
  exact (ih hlt').step hcap hlt' a

end

/-- What is right of a ring in a state: no two threads are at one cell, a value goes to the thread
that claimed the position it was pushed at and goes there once, a push fails when the push a round
before it has not been released, and a pop fails when its position has not been published. -/
structure Correct (capacity : Nat) (r : Ring τ α) : Prop where
  exclusive : ∀ t u p q, (r.pcs t).owns = some p → (r.pcs u).owns = some q →
    r.mem.cell p = r.mem.cell q → t = u
  values    : ∀ t p out, (t, p, out) ∈ r.mem.popped →
    r.mem.claims[p]? = some t ∧ ∃ u v, r.mem.pushes[p]? = some (u, v) ∧ out = some v
  once      : (r.mem.popped.map (·.2.1)).Nodup
  full      : ∀ t v pos spurious, r.pcs t = .pushSeq v pos →
    (step r (.step t spurious)).pcs t = .idle →
      r.mem.pushes.length = pos ∧ ∃ p, pos = p + capacity ∧ p ∉ r.mem.released
  empty     : ∀ t pos spurious, r.pcs t = .popSeq pos →
    (step r (.step t spurious)).pcs t = .idle → pos ∉ r.mem.published

lemma pushDif_neg_of_idle {t : τ} {v : α} {pos : Nat} {spurious : Bool}
    (ht : r.pcs t = .pushSeq v pos) (hidle : (step r (.step t spurious)).pcs t = .idle) :
    r.mem.pushDif pos < 0 := by
  simp only [step, ht, Function.update_self, access] at hidle
  split_ifs at hidle with hzero hneg
  exact hneg

lemma popDif_neg_of_idle {t : τ} {pos : Nat} {spurious : Bool} (ht : r.pcs t = .popSeq pos)
    (hidle : (step r (.step t spurious)).pcs t = .idle) : r.mem.popDif pos < 0 := by
  simp only [step, ht, Function.update_self, access] at hidle
  split_ifs at hidle with hzero hneg
  exact hneg

/-- Every run of a ring is correct in every state it reaches. -/
theorem ring_correct [Fintype τ] (hnew : new capacity = .ok r) (acts : List (Action τ α))
    (hops : (run step r acts).operations < 2 ^ 63) : Correct capacity (run step r acts) := by
  have hcap := (new_ok hnew).1
  have h := inv_run hnew acts hops
  have hsmall := h.small hops
  refine ⟨fun t u p q ht hu hcell => ?_, h.mem.popped, ?_, fun t v pos spurious ht hidle => ?_,
    fun t pos spurious ht hidle => ?_⟩
  · rw [hcap.cell_eq h.mem.mask, hcap.cell_eq h.mem.mask] at hcell
    exact (h.threads t).owner_unique hcap ht (h.threads u) hu hcell
  · rw [h.mem.positions]
    exact h.mem.once
  · have hpos := h.threads t
    rw [ht] at hpos
    obtain ⟨henq, hround⟩ := h.mem.push_fails hcap hsmall hpos (pushDif_neg_of_idle ht hidle)
    exact ⟨h.mem.pushes.trans henq, hround⟩
  · have hpos := h.threads t
    rw [ht] at hpos
    exact h.mem.pop_fails hcap hsmall hpos (popDif_neg_of_idle ht hidle)

/-- A number of accesses of a thread, none of which fails for no reason. -/
def accesses (n : Nat) (t : τ) : List (Action τ α) := List.replicate n (.step t false)

/-- A producer pushes twice, a consumer claims the first of the values and stalls, another one pops
the second, and the producer comes back. -/
def stalled : List (Action (Fin 3) Nat) :=
  .tryPush 0 7 :: accesses 5 0 ++ .tryPush 0 8 :: accesses 5 0 ++ .tryPop 1 :: accesses 3 1 ++
    .tryPop 2 :: accesses 5 2 ++ .tryPush 0 9 :: accesses 1 0

theorem ring_correct_stalled :
    (run step { mem := { mask := 1 } } stalled).mem.popped = [(2, 1, some 8)] ∧
      Correct 2 (run step { mem := { mask := 1 } } stalled) :=
  ⟨by decide +kernel, ring_correct rfl stalled (by decide +kernel)⟩

/-- The pushes that were claimed and whose cells were not released. -/
def unreleased (m : Mem τ α) : List Nat :=
  (List.range m.pushes.length).filter (· ∉ m.released)

/-- A push fails though one cell of two is free. -/
theorem full_with_free_cell :
    ¬ ∀ (capacity : Nat) (r : Ring (Fin 3) Nat) (acts : List (Action (Fin 3) Nat)) (t : Fin 3)
      (v pos : Nat) (spurious : Bool), new capacity = .ok r →
        (run step r acts).operations < 2 ^ 63 → (run step r acts).pcs t = .pushSeq v pos →
        (step (run step r acts) (.step t spurious)).pcs t = .idle →
          capacity ≤ (unreleased (run step r acts).mem).length := by
  intro h
  have hfull := h 2 { mem := { mask := 1 } } stalled 0 9 2 false rfl (by decide +kernel)
    (by decide +kernel) (by decide +kernel)
  exact absurd hfull (by decide +kernel)

end HftBot.Ring
