import Mathlib.Data.Nat.ModEq
import HftBot.Engine.Ring

/-!
# Ring invariant

A cell is used for the positions that are congruent to its index. Its sequence number tells which of
them it is used for and how far: it waits for a push, is being written, is full, or is being read.
All words stay below `2 ^ 63` as long as there are fewer operations than that.
-/

namespace HftBot.Ring

open HftBot.Core

variable {τ α : Type}

/-- What the cell of a position is in the middle of. -/
inductive CellAt (m : Mem τ α) (cap p : Nat) : Prop
  | free (hseq : m.seq (p % cap) = p) (henq : m.enqueuePos ≤ p) (hdeq : p < m.dequeuePos + cap)
  | writing (hseq : m.seq (p % cap) = p) (hdeq : m.dequeuePos ≤ p) (henq : p < m.enqueuePos)
    (hlast : m.enqueuePos ≤ p + cap) (hpublished : p ∉ m.published)
  | full (hseq : m.seq (p % cap) = p + 1) (hdeq : m.dequeuePos ≤ p) (henq : p < m.enqueuePos)
    (hlast : m.enqueuePos ≤ p + cap)
    (hval : ∃ t v, m.pushes[p]? = some (t, v) ∧ m.val (p % cap) = some v)
  | reading (hseq : m.seq (p % cap) = p + 1) (hdeq : p < m.dequeuePos)
    (hlast : m.enqueuePos ≤ p + cap) (hreleased : p ∉ m.released)

/-- What a thread that stands there may rely on. -/
def ThreadAt (m : Mem τ α) (cap : Nat) (t : τ) : Pc α → Prop
  | .pushSeq _ pos    => pos ≤ m.enqueuePos
  | .pushCas _ pos    => pos ≤ m.enqueuePos ∧ (m.enqueuePos = pos → m.seq (pos % cap) = pos)
  | .pushWrite v pos  => m.seq (pos % cap) = pos ∧ m.dequeuePos ≤ pos ∧ pos < m.enqueuePos ∧
    m.pushes[pos]? = some (t, v)
  | .pushStore pos    => m.seq (pos % cap) = pos ∧ m.dequeuePos ≤ pos ∧ pos < m.enqueuePos ∧
    ∃ v, m.pushes[pos]? = some (t, v) ∧ m.val (pos % cap) = some v
  | .popSeq pos       => pos ≤ m.dequeuePos
  | .popCas pos       => pos ≤ m.dequeuePos ∧ (m.dequeuePos = pos → m.seq (pos % cap) = pos + 1)
  | .popRead pos      => m.seq (pos % cap) = pos + 1 ∧ pos < m.dequeuePos ∧
    m.claims[pos]? = some t ∧ ∃ u v, m.pushes[pos]? = some (u, v) ∧ m.val (pos % cap) = some v
  | .popStore pos out => m.seq (pos % cap) = pos + 1 ∧ pos < m.dequeuePos ∧
    m.claims[pos]? = some t ∧ ∃ u v, m.pushes[pos]? = some (u, v) ∧ out = some v
  | _                 => True

/-- What holds of the memory alone. -/
structure MemInv (m : Mem τ α) (cap : Nat) : Prop where
  mask      : m.mask + 1 = cap
  le        : m.dequeuePos ≤ m.enqueuePos
  cells     : ∀ c < cap, ∃ p, p % cap = c ∧ CellAt m cap p
  pushes    : m.pushes.length = m.enqueuePos
  claims    : m.claims.length = m.dequeuePos
  published : ∀ p ∈ m.published, p < m.enqueuePos
  released  : ∀ p ∈ m.released, p < m.dequeuePos
  once      : m.released.Nodup
  positions : m.popped.map (·.2.1) = m.released
  popped    : ∀ t p out, (t, p, out) ∈ m.popped →
    m.claims[p]? = some t ∧ ∃ u v, m.pushes[p]? = some (u, v) ∧ out = some v

/-- A capacity that the constructor accepts and that can be allocated. -/
structure Fits (cap : Nat) : Prop where
  pow : ∃ k, cap = 2 ^ k
  two : 2 ≤ cap
  le  : cap ≤ 2 ^ 62

/-- The positions that were claimed, and their successors, are small. -/
def Small (m : Mem τ α) : Prop := m.enqueuePos + m.dequeuePos < 2 ^ 63

/-! ### Words and cells -/

section

variable {cap p q : Nat}

lemma word_of_lt {n : Nat} (h : n < 2 ^ 64) : word n = n := Nat.mod_eq_of_lt h

lemma signed_of_lt {n : Nat} (h : n < 2 ^ 63) : signed n = n := if_pos h

/-- Positions of one cell are a whole round apart. -/
lemma add_le_of_same_cell (h : p % cap = q % cap) (hlt : p < q) : p + cap ≤ q :=
  Nat.ModEq.add_le_of_lt h hlt

lemma Fits.succ_ne (hcap : Fits cap) (h : p % cap = q % cap) : p + 1 ≠ q := by
  rintro rfl
  have := add_le_of_same_cell h p.lt_succ_self
  have := hcap.two
  omega

lemma Fits.pos (hcap : Fits cap) : 0 < cap := Nat.lt_of_lt_of_le Nat.zero_lt_two hcap.two

lemma Fits.cell_eq (hcap : Fits cap) {m : Mem τ α} (hmask : m.mask + 1 = cap) (pos : Nat) :
    m.cell pos = pos % cap := by
  obtain ⟨k, hk⟩ := hcap.pow
  have hm : m.mask = 2 ^ k - 1 := by omega
  rw [Mem.cell, hm, Nat.and_two_pow_sub_one_eq_mod, hk]

end

variable {m : Mem τ α} {cap : Nat}

/-- The state of the cell of any position. -/
lemma MemInv.cellAt (h : MemInv m cap) (hcap : Fits cap) (pos : Nat) :
    ∃ p, p % cap = pos % cap ∧ CellAt m cap p :=
  h.cells (pos % cap) (Nat.mod_lt _ hcap.pos)

lemma MemInv.seq_lt (h : MemInv m cap) (hcap : Fits cap) (hsmall : Small m) (pos : Nat) :
    m.seq (pos % cap) < 2 ^ 63 := by
  obtain ⟨p, hp, hcell⟩ := h.cellAt hcap pos
  have hle := h.le
  have hc := hcap.le
  rw [Small] at hsmall
  rw [← hp]
  cases hcell with
  | free hseq henq hdeq => omega
  | writing hseq hdeq henq hlast hpublished => omega
  | full hseq hdeq henq hlast hval => omega
  | reading hseq hdeq hlast hreleased => omega

/-! ### What the sequence number of a cell tells -/

section

variable {pos : Nat}

lemma MemInv.pushDif_eq (h : MemInv m cap) (hcap : Fits cap) (hsmall : Small m)
    (hpos : pos ≤ m.enqueuePos) : m.pushDif pos = (m.seq (pos % cap) : Int) - pos := by
  have hlt := h.seq_lt hcap hsmall pos
  rw [Small] at hsmall
  rw [Mem.pushDif, hcap.cell_eq h.mask, signed_of_lt hlt, signed_of_lt (by omega)]

lemma MemInv.popDif_eq (h : MemInv m cap) (hcap : Fits cap) (hsmall : Small m)
    (hpos : pos ≤ m.dequeuePos) : m.popDif pos = (m.seq (pos % cap) : Int) - (pos + 1) := by
  have hlt := h.seq_lt hcap hsmall pos
  have hle := h.le
  rw [Small] at hsmall
  have hword : word (pos + 1) = pos + 1 := word_of_lt (by omega)
  rw [Mem.popDif, hcap.cell_eq h.mask, signed_of_lt hlt, hword, signed_of_lt (by omega)]
  push_cast
  rfl

/-- A position that is being written is the last one claimed of its cell. -/
lemma MemInv.writing_of_seq (h : MemInv m cap) (hcap : Fits cap) (hpos : pos < m.enqueuePos)
    (hseq : m.seq (pos % cap) = pos) : m.enqueuePos ≤ pos + cap ∧ pos ∉ m.published := by
  obtain ⟨p, hp, hcell⟩ := h.cellAt hcap pos
  rw [← hp] at hseq
  cases hcell with
  | free hseq' henq hdeq =>
    have : p = pos := hseq'.symm.trans hseq
    omega
  | writing hseq' hdeq henq hlast hpublished =>
    obtain rfl : p = pos := hseq'.symm.trans hseq
    exact ⟨hlast, hpublished⟩
  | full hseq' hdeq henq hlast hval => exact absurd (hseq'.symm.trans hseq) (hcap.succ_ne hp)
  | reading hseq' hdeq hlast hreleased => exact absurd (hseq'.symm.trans hseq) (hcap.succ_ne hp)

/-- The next position to pop is full when its sequence number says so. -/
lemma MemInv.full_of_seq (h : MemInv m cap) (hcap : Fits cap) (hpos : m.dequeuePos = pos)
    (hseq : m.seq (pos % cap) = pos + 1) :
    pos < m.enqueuePos ∧ m.enqueuePos ≤ pos + cap ∧
      ∃ t v, m.pushes[pos]? = some (t, v) ∧ m.val (pos % cap) = some v := by
  obtain ⟨p, hp, hcell⟩ := h.cellAt hcap pos
  rw [← hp] at hseq
  cases hcell with
  | free hseq' henq hdeq =>
    exact absurd (hseq.symm.trans hseq') (hcap.succ_ne hp.symm)
  | writing hseq' hdeq henq hlast hpublished =>
    exact absurd (hseq.symm.trans hseq') (hcap.succ_ne hp.symm)
  | full hseq' hdeq henq hlast hval =>
    obtain rfl : p = pos := Nat.succ_injective (hseq'.symm.trans hseq)
    exact ⟨henq, hlast, hval⟩
  | reading hseq' hdeq hlast hreleased =>
    have : p = pos := Nat.succ_injective (hseq'.symm.trans hseq)
    omega

/-- A position that is being read is the last one claimed of its cell. -/
lemma MemInv.reading_of_seq (h : MemInv m cap) (hcap : Fits cap) (hpos : pos < m.dequeuePos)
    (hseq : m.seq (pos % cap) = pos + 1) : m.enqueuePos ≤ pos + cap ∧ pos ∉ m.released := by
  obtain ⟨p, hp, hcell⟩ := h.cellAt hcap pos
  rw [← hp] at hseq
  cases hcell with
  | free hseq' henq hdeq =>
    exact absurd (hseq.symm.trans hseq') (hcap.succ_ne hp.symm)
  | writing hseq' hdeq henq hlast hpublished =>
    exact absurd (hseq.symm.trans hseq') (hcap.succ_ne hp.symm)
  | full hseq' hdeq henq hlast hval =>
    have : p = pos := Nat.succ_injective (hseq'.symm.trans hseq)
    omega
  | reading hseq' hdeq hlast hreleased =>
    obtain rfl : p = pos := Nat.succ_injective (hseq'.symm.trans hseq)
    exact ⟨hlast, hreleased⟩

end

/-! ### Owners of cells -/

/-- The position whose cell a thread has to itself, from its claim to its store. -/
def Pc.owns : Pc α → Option Nat
  | .pushWrite _ pos => some pos
  | .pushStore pos   => some pos
  | .popRead pos     => some pos
  | .popStore pos _  => some pos
  | _                => none

/-- The position whose cell a thread relies on. -/
def Pc.uses (m : Mem τ α) : Pc α → Option Nat
  | .pushCas _ pos => if m.enqueuePos = pos then some pos else none
  | .popCas pos    => if m.dequeuePos = pos then some pos else none
  | pc             => pc.owns

/-- How the sequence number of a cell tells its owner. -/
lemma ThreadAt.owner {t : τ} {pc : Pc α} {pos : Nat} (h : ThreadAt m cap t pc)
    (hpc : pc.owns = some pos) :
    (m.seq (pos % cap) = pos ∧ m.dequeuePos ≤ pos ∧ pos < m.enqueuePos ∧
        ∃ v, m.pushes[pos]? = some (t, v)) ∨
      (m.seq (pos % cap) = pos + 1 ∧ pos < m.dequeuePos ∧ m.claims[pos]? = some t) := by
  cases pc with
  | pushWrite v p =>
    obtain rfl : p = pos := Option.some.inj hpc
    exact Or.inl ⟨h.1, h.2.1, h.2.2.1, v, h.2.2.2⟩
  | pushStore p =>
    obtain rfl : p = pos := Option.some.inj hpc
    obtain ⟨hseq, hdeq, henq, v, hpush, -⟩ := h
    exact Or.inl ⟨hseq, hdeq, henq, v, hpush⟩
  | popRead p =>
    obtain rfl : p = pos := Option.some.inj hpc
    exact Or.inr ⟨h.1, h.2.1, h.2.2.1⟩
  | popStore p out =>
    obtain rfl : p = pos := Option.some.inj hpc
    exact Or.inr ⟨h.1, h.2.1, h.2.2.1⟩
  | idle => simp [Pc.owns] at hpc
  | pushLoad v => simp [Pc.owns] at hpc
  | pushSeq v p => simp [Pc.owns] at hpc
  | pushCas v p => simp [Pc.owns] at hpc
  | popLoad => simp [Pc.owns] at hpc
  | popSeq p => simp [Pc.owns] at hpc
  | popCas p => simp [Pc.owns] at hpc

/-- Two threads that own the same cell are the same. -/
lemma ThreadAt.owner_unique (hcap : Fits cap) {t u : τ} {pc pc' : Pc α} {p q : Nat}
    (ht : ThreadAt m cap t pc) (hpc : pc.owns = some p) (hu : ThreadAt m cap u pc')
    (hpc' : pc'.owns = some q) (hcell : p % cap = q % cap) : t = u := by
  rcases ht.owner hpc with ⟨hseq, -, -, v, hpush⟩ | ⟨hseq, -, hclaim⟩ <;>
    rcases hu.owner hpc' with ⟨hseq', -, -, w, hpush'⟩ | ⟨hseq', -, hclaim'⟩ <;>
    rw [hcell] at hseq
  · obtain rfl : p = q := hseq.symm.trans hseq'
    rw [hpush] at hpush'
    exact congrArg Prod.fst (Option.some.inj hpush')
  · exact absurd (hseq'.symm.trans hseq) (hcap.succ_ne hcell.symm)
  · exact absurd (hseq.symm.trans hseq') (hcap.succ_ne hcell)
  · obtain rfl : p = q := Nat.succ_injective (hseq.symm.trans hseq')
    rw [hclaim] at hclaim'
    exact Option.some.inj hclaim'

/-- A thread relies on no cell that another one owns. -/
lemma ThreadAt.uses_ne (hcap : Fits cap) {t u : τ} {pc pc' : Pc α} {p q : Nat}
    (ht : ThreadAt m cap t pc) (hpc : pc.owns = some p) (hu : ThreadAt m cap u pc')
    (hpc' : pc'.uses m = some q) (hne : u ≠ t) : q % cap ≠ p % cap := by
  intro hcell
  have howned : pc'.owns = some q → False :=
    fun howns => hne (hu.owner_unique hcap howns ht hpc hcell)
  cases pc' with
  | pushCas v pos =>
    simp only [Pc.uses] at hpc'
    split_ifs at hpc' with henq
    obtain rfl : pos = q := Option.some.inj hpc'
    have hseq := hu.2 henq
    rcases ht.owner hpc with ⟨hseq', -, hlt, -⟩ | ⟨hseq', -⟩ <;> rw [← hcell] at hseq'
    · have : pos = p := hseq.symm.trans hseq'
      omega
    · exact hcap.succ_ne hcell.symm (hseq'.symm.trans hseq)
  | popCas pos =>
    simp only [Pc.uses] at hpc'
    split_ifs at hpc' with hdeq
    obtain rfl : pos = q := Option.some.inj hpc'
    have hseq := hu.2 hdeq
    rcases ht.owner hpc with ⟨hseq', -⟩ | ⟨hseq', hlt, -⟩ <;> rw [← hcell] at hseq'
    · exact hcap.succ_ne hcell (hseq.symm.trans hseq')
    · have : pos = p := Nat.succ_injective (hseq.symm.trans hseq')
      omega
  | pushWrite v pos => exact howned hpc'
  | pushStore pos => exact howned hpc'
  | popRead pos => exact howned hpc'
  | popStore pos out => exact howned hpc'
  | idle => exact howned hpc'
  | pushLoad v => exact howned hpc'
  | pushSeq v pos => exact howned hpc'
  | popLoad => exact howned hpc'
  | popSeq pos => exact howned hpc'

/-- A thread is undisturbed by what changes neither the claims nor the cell it relies on. -/
lemma ThreadAt.congr {m' : Mem τ α} {u : τ} {pc : Pc α} (h : ThreadAt m cap u pc)
    (henq : m'.enqueuePos = m.enqueuePos) (hdeq : m'.dequeuePos = m.dequeuePos)
    (hpushes : m'.pushes = m.pushes) (hclaims : m'.claims = m.claims)
    (hseq : ∀ q ∈ pc.uses m, m'.seq (q % cap) = m.seq (q % cap))
    (hval : ∀ q ∈ pc.uses m, m'.val (q % cap) = m.val (q % cap)) : ThreadAt m' cap u pc := by
  cases pc with
  | idle => trivial
  | pushLoad v => trivial
  | popLoad => trivial
  | pushSeq v pos => simpa only [ThreadAt, henq] using h
  | popSeq pos => simpa only [ThreadAt, hdeq] using h
  | pushCas v pos =>
    refine ⟨by rw [henq]; exact h.1, fun hpos => ?_⟩
    rw [henq] at hpos
    rw [hseq pos (by simp [Pc.uses, hpos])]
    exact h.2 hpos
  | popCas pos =>
    refine ⟨by rw [hdeq]; exact h.1, fun hpos => ?_⟩
    rw [hdeq] at hpos
    rw [hseq pos (by simp [Pc.uses, hpos])]
    exact h.2 hpos
  | pushWrite v pos =>
    simpa only [ThreadAt, hseq pos rfl, hdeq, henq, hpushes] using h
  | pushStore pos =>
    simpa only [ThreadAt, hseq pos rfl, hval pos rfl, hdeq, henq, hpushes] using h
  | popRead pos =>
    simpa only [ThreadAt, hseq pos rfl, hval pos rfl, hdeq, hclaims, hpushes] using h
  | popStore pos out =>
    simpa only [ThreadAt, hseq pos rfl, hdeq, hclaims, hpushes] using h

end HftBot.Ring
