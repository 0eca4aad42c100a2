import HftBot.Engine.RingInvariant

/-!
# Steps of the ring

Each of the six accesses that change the memory keeps the invariant of the memory and what the other
threads rely on.
-/

namespace HftBot.Ring

open HftBot.Core

variable {τ α : Type} {m : Mem τ α} {cap pos : Nat} {t u : τ} {v : α} {pc : Pc α}

/-! ### Claims -/

lemma claimPush_enqueuePos (hsmall : Small m) (hpos : m.enqueuePos = pos) :
    (m.claimPush t v pos).enqueuePos = pos + 1 := by
  rw [Small] at hsmall
  exact word_of_lt (by omega)

lemma claimPop_dequeuePos (hsmall : Small m) (hpos : m.dequeuePos = pos) :
    (m.claimPop t pos).dequeuePos = pos + 1 := by
  rw [Small] at hsmall
  exact word_of_lt (by omega)

lemma MemInv.lt_of_popped (h : MemInv m cap) {out : Option α} (hp : (t, pos, out) ∈ m.popped) :
    pos < m.dequeuePos := by
  refine h.released pos ?_
  rw [← h.positions]
  exact List.mem_map.2 ⟨_, hp, rfl⟩

section

variable (h : MemInv m cap) (hcap : Fits cap) (hsmall : Small m)
include h hcap hsmall

lemma claimPush_memInv (hpos : m.enqueuePos = pos) (hseq : m.seq (pos % cap) = pos) :
    MemInv (m.claimPush t v pos) cap := by
  have henq := claimPush_enqueuePos (t := t) (v := v) hsmall hpos
  have hlen := h.pushes
  have hle := h.le
  have hget : ∀ p < pos, (m.claimPush t v pos).pushes[p]? = m.pushes[p]? :=
    fun p hp => List.getElem?_append_left (by omega)
  refine ⟨h.mask, ?_, fun c hc => ?_, ?_, h.claims, fun p hp => ?_, h.released, h.once, h.positions,
    fun w p out hp => ?_⟩
  · rw [henq]
    exact hle.trans (by omega)
  · obtain ⟨p, hp, hcell⟩ := h.cells c hc
    by_cases hsame : p % cap = pos % cap
    · -- the cell of the claimed position is now being written
      refine ⟨pos, hsame.symm.trans hp, .writing hseq ?_ ?_ ?_ ?_⟩
      · exact hle.trans (by omega)
      · rw [henq]
        exact Nat.lt_succ_self pos
      · rw [henq]
        have := hcap.two
        omega
      · intro hpublished
        have := h.published pos hpublished
        omega
    · refine ⟨p, hp, ?_⟩
      have hne : p ≠ pos := fun heq => hsame (by rw [heq])
      have hround : p + cap ≠ pos := by
        rintro rfl
        simp at hsame
      cases hcell with
      | free hseq' henq' hdeq => exact .free hseq' (by rw [henq]; omega) hdeq
      | writing hseq' hdeq henq' hlast hpublished =>
        exact .writing hseq' hdeq (by rw [henq]; omega) (by rw [henq]; omega) hpublished
      | full hseq' hdeq henq' hlast hval =>
        refine .full hseq' hdeq (by rw [henq]; omega) (by rw [henq]; omega) ?_
        rw [hget p (by omega)]
        exact hval
      | reading hseq' hdeq hlast hreleased =>
        exact .reading hseq' hdeq (by rw [henq]; omega) hreleased
  · rw [henq, Mem.claimPush, List.length_append, List.length_singleton, hlen, hpos]
  · have := h.published p hp
    rw [henq]
    omega
  · obtain ⟨hclaim, hpush⟩ := h.popped w p out hp
    refine ⟨hclaim, ?_⟩
    have := h.lt_of_popped hp
    rw [hget p (by omega)]
    exact hpush

omit hcap in
lemma claimPush_threadAt (hpos : m.enqueuePos = pos) (hu : ThreadAt m cap u pc) :
    ThreadAt (m.claimPush t v pos) cap u pc := by
  have henq := claimPush_enqueuePos (t := t) (v := v) hsmall hpos
  have hlen := h.pushes
  have hle := h.le
  have hget : ∀ p < pos, (m.claimPush t v pos).pushes[p]? = m.pushes[p]? :=
    fun p hp => List.getElem?_append_left (by omega)
  cases pc with
  | idle => trivial
  | pushLoad w => trivial
  | popLoad => trivial
  | popSeq p => exact hu
  | popCas p => exact hu
  | pushSeq w p =>
    simp only [ThreadAt] at hu ⊢
    omega
  | pushCas w p =>
    simp only [ThreadAt] at hu ⊢
    exact ⟨by omega, fun hp => by omega⟩
  | pushWrite w p =>
    obtain ⟨hseq, hdeq, hlt, hpush⟩ := hu
    exact ⟨hseq, hdeq, by omega, by rw [hget p (by omega)]; exact hpush⟩
  | pushStore p =>
    obtain ⟨hseq, hdeq, hlt, hpush⟩ := hu
    exact ⟨hseq, hdeq, by omega, by rw [hget p (by omega)]; exact hpush⟩
  | popRead p =>
    obtain ⟨hseq, hdeq, hclaim, hpush⟩ := hu
    exact ⟨hseq, hdeq, hclaim, by rw [hget p (by omega)]; exact hpush⟩
  | popStore p out =>
    obtain ⟨hseq, hdeq, hclaim, hpush⟩ := hu
    exact ⟨hseq, hdeq, hclaim, by rw [hget p (by omega)]; exact hpush⟩

lemma claimPop_memInv (hpos : m.dequeuePos = pos) (hseq : m.seq (pos % cap) = pos + 1) :
    MemInv (m.claimPop t pos) cap := by
  obtain ⟨hlt, hlast, hval⟩ := h.full_of_seq hcap hpos hseq
  have hdeq := claimPop_dequeuePos (t := t) hsmall hpos
  have hlen := h.claims
  have hget : ∀ p < pos, (m.claimPop t pos).claims[p]? = m.claims[p]? :=
    fun p hp => List.getElem?_append_left (by omega)
  refine ⟨h.mask, ?_, fun c hc => ?_, h.pushes, ?_, h.published, fun p hp => ?_, h.once,
    h.positions, fun w p out hp => ?_⟩
  · rw [hdeq]
    exact hlt
  · obtain ⟨p, hp, hcell⟩ := h.cells c hc
    by_cases hsame : p % cap = pos % cap
    · -- the cell of the claimed position is now being read
      refine ⟨pos, hsame.symm.trans hp, .reading hseq ?_ hlast ?_⟩
      · rw [hdeq]
        exact Nat.lt_succ_self pos
      · intro hreleased
        have := h.released pos hreleased
        omega
    · refine ⟨p, hp, ?_⟩
      have hne : p ≠ pos := fun heq => hsame (by rw [heq])
      cases hcell with
      | free hseq' henq hdeq' => exact .free hseq' henq (by rw [hdeq]; omega)
      | writing hseq' hdeq' henq hlast' hpublished =>
        exact .writing hseq' (by rw [hdeq]; omega) henq hlast' hpublished
      | full hseq' hdeq' henq hlast' hval' =>
        exact .full hseq' (by rw [hdeq]; omega) henq hlast' hval'
      | reading hseq' hdeq' hlast' hreleased =>
        exact .reading hseq' (by rw [hdeq]; omega) hlast' hreleased
  · rw [hdeq, Mem.claimPop, List.length_append, List.length_singleton, hlen, hpos]
  · have := h.released p hp
    rw [hdeq]
    omega
  · obtain ⟨hclaim, hpush⟩ := h.popped w p out hp
    have := h.lt_of_popped hp
    exact ⟨by rw [hget p (by omega)]; exact hclaim, hpush⟩

omit hcap in
lemma claimPop_threadAt (hpos : m.dequeuePos = pos) (hseq : m.seq (pos % cap) = pos + 1)
    (hu : ThreadAt m cap u pc) : ThreadAt (m.claimPop t pos) cap u pc := by
  have hdeq := claimPop_dequeuePos (t := t) hsmall hpos
  have hlen := h.claims
  have hget : ∀ p < pos, (m.claimPop t pos).claims[p]? = m.claims[p]? :=
    fun p hp => List.getElem?_append_left (by omega)
  -- a position that is being written is not the one that is claimed
  have hwriting : ∀ p, m.seq (p % cap) = p → m.dequeuePos ≤ p → pos + 1 ≤ p := by
    intro p hp hle
    rcases Nat.lt_or_ge pos p with hlt | hge
    · exact hlt
    · obtain rfl : p = pos := by omega
      omega
  cases pc with
  | idle => trivial
  | pushLoad w => trivial
  | popLoad => trivial
  | pushSeq w p => exact hu
  | pushCas w p => exact hu
  | popSeq p =>
    simp only [ThreadAt] at hu ⊢
    omega
  | popCas p =>
    simp only [ThreadAt] at hu ⊢
    exact ⟨by omega, fun hp => by omega⟩
  | pushWrite w p =>
    obtain ⟨hseq', hle, hrest⟩ := hu
    exact ⟨hseq', by rw [hdeq]; exact hwriting p hseq' hle, hrest⟩
  | pushStore p =>
    obtain ⟨hseq', hle, hrest⟩ := hu
    exact ⟨hseq', by rw [hdeq]; exact hwriting p hseq' hle, hrest⟩
  | popRead p =>
    obtain ⟨hseq', hlt, hclaim, hpush⟩ := hu
    exact ⟨hseq', by omega, by rw [hget p (by omega)]; exact hclaim, hpush⟩
  | popStore p out =>
    obtain ⟨hseq', hlt, hclaim, hpush⟩ := hu
    exact ⟨hseq', by omega, by rw [hget p (by omega)]; exact hclaim, hpush⟩

end

/-! ### Accesses of an owner -/

section

variable (h : MemInv m cap) (hcap : Fits cap) (ht : ThreadAt m cap t pc) (hpc : pc.owns = some pos)
include h hcap ht hpc

omit h in
/-- A full cell has no owner. -/
lemma full_ne {p : Nat} (hseq : m.seq (p % cap) = p + 1) (hdeq : m.dequeuePos ≤ p) :
    p % cap ≠ pos % cap := by
  intro hcell
  rcases ht.owner hpc with ⟨hseq', -⟩ | ⟨hseq', hlt, -⟩ <;> rw [← hcell] at hseq'
  · exact hcap.succ_ne hcell (hseq.symm.trans hseq')
  · have : p = pos := Nat.succ_injective (hseq.symm.trans hseq')
    omega

/-- An owner changes the value in its cell. -/
lemma setVal_memInv (x : Option α) :
    MemInv { m with val := Function.update m.val (m.cell pos) x } cap := by
  refine ⟨h.mask, h.le, fun c hc => ?_, h.pushes, h.claims, h.published, h.released, h.once,
    h.positions, h.popped⟩
  obtain ⟨p, hp, hcell⟩ := h.cells c hc
  refine ⟨p, hp, ?_⟩
  cases hcell with
  | free hseq henq hdeq => exact .free hseq henq hdeq
  | writing hseq hdeq henq hlast hpublished => exact .writing hseq hdeq henq hlast hpublished
  | reading hseq hdeq hlast hreleased => exact .reading hseq hdeq hlast hreleased
  | full hseq hdeq henq hlast hval =>
    refine .full hseq hdeq henq hlast ?_
    have hne := full_ne hcap ht hpc hseq hdeq
    simpa [hcap.cell_eq h.mask, hne] using hval

lemma setVal_threadAt (x : Option α) {pc' : Pc α} (hu : ThreadAt m cap u pc') (hne : u ≠ t) :
    ThreadAt { m with val := Function.update m.val (m.cell pos) x } cap u pc' := by
  refine hu.congr rfl rfl rfl rfl (fun _ _ => rfl) fun q hq => ?_
  have := ht.uses_ne hcap hpc hu hq hne
  simp [hcap.cell_eq h.mask, this]

/-- What an owner stores in the sequence number of its cell disturbs no other thread. -/
lemma setSeq_threadAt {m' : Mem τ α} {x : Nat} {pc' : Pc α} (hu : ThreadAt m cap u pc')
    (hne : u ≠ t) (hseq : m'.seq = Function.update m.seq (m.cell pos) x) (hval : m'.val = m.val)
    (henq : m'.enqueuePos = m.enqueuePos) (hdeq : m'.dequeuePos = m.dequeuePos)
    (hpushes : m'.pushes = m.pushes) (hclaims : m'.claims = m.claims) : ThreadAt m' cap u pc' := by
  refine hu.congr henq hdeq hpushes hclaims (fun q hq => ?_) (fun _ _ => by rw [hval])
  have := ht.uses_ne hcap hpc hu hq hne
  simp [hseq, hcap.cell_eq h.mask, this]

end

lemma publish_memInv (h : MemInv m cap) (hcap : Fits cap) (hsmall : Small m)
    (ht : ThreadAt m cap t (.pushStore pos)) : MemInv (m.publish pos) cap := by
  obtain ⟨hseq, hdeq, henq, w, hpush, hval⟩ := ht
  obtain ⟨hlast, -⟩ := h.writing_of_seq hcap henq hseq
  have hword : word (pos + 1) = pos + 1 := by
    rw [Small] at hsmall
    exact word_of_lt (by omega)
  refine ⟨h.mask, h.le, fun c hc => ?_, h.pushes, h.claims, fun p hp => ?_, h.released, h.once,
    h.positions, h.popped⟩
  · obtain ⟨p, hp, hcell⟩ := h.cells c hc
    by_cases hsame : p % cap = pos % cap
    · -- the cell is full now
      refine ⟨pos, hsame.symm.trans hp, .full ?_ hdeq henq hlast ⟨t, w, hpush, hval⟩⟩
      simp [Mem.publish, hcap.cell_eq h.mask, hword]
    · have hother : (m.publish pos).seq (p % cap) = m.seq (p % cap) := by
        simp [Mem.publish, hcap.cell_eq h.mask, hsame]
      refine ⟨p, hp, ?_⟩
      cases hcell with
      | free hseq' henq' hdeq' => exact .free (hother.trans hseq') henq' hdeq'
      | writing hseq' hdeq' henq' hlast' hpublished =>
        refine .writing (hother.trans hseq') hdeq' henq' hlast' ?_
        have hne : p ≠ pos := fun heq => hsame (by rw [heq])
        simp [Mem.publish, hpublished, hne]
      | full hseq' hdeq' henq' hlast' hval' =>
        exact .full (hother.trans hseq') hdeq' henq' hlast' hval'
      | reading hseq' hdeq' hlast' hreleased =>
        exact .reading (hother.trans hseq') hdeq' hlast' hreleased
  · rcases List.mem_append.1 hp with hp | hp
    · exact h.published p hp
    · obtain rfl := List.mem_singleton.1 hp
      exact henq

lemma release_memInv (h : MemInv m cap) (hcap : Fits cap) (hsmall : Small m) {out : Option α}
    (ht : ThreadAt m cap t (.popStore pos out)) : MemInv (m.release t pos out) cap := by
  obtain ⟨hseq, hdeq, hclaim, hpush⟩ := ht
  obtain ⟨hlast, hnew⟩ := h.reading_of_seq hcap hdeq hseq
  have hle := h.le
  have hmask := h.mask
  have hword : word (pos + m.mask + 1) = pos + cap := by
    rw [Nat.add_assoc, hmask]
    have := hcap.le
    rw [Small] at hsmall
    exact word_of_lt (by omega)
  refine ⟨h.mask, h.le, fun c hc => ?_, h.pushes, h.claims, h.published, fun p hp => ?_, ?_, ?_,
    fun w p o hp => ?_⟩
  · obtain ⟨p, hp, hcell⟩ := h.cells c hc
    by_cases hsame : p % cap = pos % cap
    · -- the cell waits for the push of the next round
      refine ⟨pos + cap, by rw [Nat.add_mod_right]; exact hsame.symm.trans hp, .free ?_ hlast ?_⟩
      · simp [Mem.release, hcap.cell_eq h.mask, hword]
      · exact Nat.add_lt_add_right hdeq cap
    · have hother : (m.release t pos out).seq (p % cap) = m.seq (p % cap) := by
        simp [Mem.release, hcap.cell_eq h.mask, hsame]
      refine ⟨p, hp, ?_⟩
      cases hcell with
      | free hseq' henq' hdeq' => exact .free (hother.trans hseq') henq' hdeq'
      | writing hseq' hdeq' henq' hlast' hpublished =>
        exact .writing (hother.trans hseq') hdeq' henq' hlast' hpublished
      | full hseq' hdeq' henq' hlast' hval' =>
        exact .full (hother.trans hseq') hdeq' henq' hlast' hval'
      | reading hseq' hdeq' hlast' hreleased =>
        refine .reading (hother.trans hseq') hdeq' hlast' ?_
        have hne : p ≠ pos := fun heq => hsame (by rw [heq])
        simp [Mem.release, hreleased, hne]
  · rcases List.mem_append.1 hp with hp | hp
    · exact h.released p hp
    · obtain rfl := List.mem_singleton.1 hp
      exact hdeq
  · exact List.nodup_append.2 ⟨h.once, List.nodup_singleton _, by
      rintro a ha b hb rfl
      obtain rfl := List.mem_singleton.1 hb
      exact hnew ha⟩
  · simp [Mem.release, h.positions]
  · rcases List.mem_append.1 hp with hp | hp
    · exact h.popped w p o hp
    · obtain ⟨rfl, rfl, rfl⟩ : w = t ∧ p = pos ∧ o = out := by simpa using hp
      exact ⟨hclaim, hpush⟩

end HftBot.Ring
