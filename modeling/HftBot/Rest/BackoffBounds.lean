import HftBot.Core.WordMix
import HftBot.Rest.Backoff

/-!
# The bounds of a backoff

The delay is a half of the exponent and a jitter, and the generator takes every value, so every
delay from the half to the whole of the exponent occurs. A delay of zero is among them when the
exponent is one, and the exponent is the product of base and power, or the cap, only while the
shift does not leave the word and from the thirty-first attempt on only when the cap is reached.
-/

namespace HftBot

open HftBot.Core

namespace Backoff

/-! ### The generator takes every value -/

lemma exists_next (baseMs capMs : Int) (z : UInt64) :
    ∃ state, (next { state, baseMs, capMs }).1 = z := by
  obtain ⟨z₃, h₃⟩ := exists_xor_shiftRight (k := 31) (by decide) z
  obtain ⟨z₂, h₂⟩ := exists_mul (c := 0x94D049BB133111EB) (d := 0x319642b2d24d8ec3) rfl z₃
  obtain ⟨z₁, h₁⟩ := exists_xor_shiftRight (k := 27) (by decide) z₂
  obtain ⟨z₀, h₀⟩ := exists_mul (c := 0xBF58476D1CE4E5B9) (d := 0x96de1b173f119089) rfl z₁
  obtain ⟨s, hs⟩ := exists_xor_shiftRight (k := 30) (by decide) z₀
  refine ⟨s - golden, ?_⟩
  simp only [next, UInt64.sub_add_cancel, hs, h₀, h₁, h₂, h₃]

lemma next_snd (b : Backoff) : b.next.2 = { b with state := b.state + golden } := rfl

/-! ### Calls -/

/-- The exponent of an attempt, with the shift as the code computes it. -/
def exponent (baseMs capMs : Int) (attempt : Nat) : Int :=
  if attempt < 31 then
    let shifted := (baseMs * 2 ^ attempt).bmod (2 ^ 64)
    if shifted < capMs then shifted else capMs
  else capMs

lemma delayMs_eq (b : Backoff) (attempt : Nat) : b.delayMs attempt =
    if exponent b.baseMs b.capMs attempt ≤ 0 then (0, b)
    else ((exponent b.baseMs b.capMs attempt).tdiv 2 + (b.next.1.toNat %
      (exponent b.baseMs b.capMs attempt -
        (exponent b.baseMs b.capMs attempt).tdiv 2 + 1).toNat : Nat), b.next.2) :=
  rfl

lemma delayMs_of_nonpos {b : Backoff} {attempt : Nat}
    (h : exponent b.baseMs b.capMs attempt ≤ 0) : b.delayMs attempt = (0, b) := by
  rw [delayMs_eq, if_pos h]

lemma delayMs_of_pos {b : Backoff} {attempt : Nat} {exp : Int}
    (h : exponent b.baseMs b.capMs attempt = exp) (hpos : 0 < exp) : b.delayMs attempt =
      (exp / 2 + (b.next.1.toNat % (exp - exp / 2 + 1).toNat : Nat), b.next.2) := by
  rw [delayMs_eq, h, if_neg (Int.not_le.2 hpos), Int.tdiv_eq_ediv_of_nonneg (Int.le_of_lt hpos)]

/-- The generator after some calls. -/
def afterCalls (b : Backoff) (attempts : List Nat) : Backoff :=
  attempts.foldl (fun b attempt => (b.delayMs attempt).2) b

lemma delayMs_params (b : Backoff) (attempt : Nat) :
    (b.delayMs attempt).2.baseMs = b.baseMs ∧ (b.delayMs attempt).2.capMs = b.capMs := by
  by_cases h : exponent b.baseMs b.capMs attempt ≤ 0
  · rw [delayMs_of_nonpos h]
    exact ⟨rfl, rfl⟩
  · rw [delayMs_of_pos rfl (Int.not_le.1 h), next_snd]
    exact ⟨rfl, rfl⟩

lemma afterCalls_params (b : Backoff) (attempts : List Nat) :
    (b.afterCalls attempts).baseMs = b.baseMs ∧ (b.afterCalls attempts).capMs = b.capMs := by
  induction attempts generalizing b with
  | nil => exact ⟨rfl, rfl⟩
  | cons attempt attempts ih =>
    obtain ⟨hbase, hcap⟩ := ih (b.delayMs attempt).2
    exact ⟨hbase.trans (delayMs_params b attempt).1, hcap.trans (delayMs_params b attempt).2⟩

/-- Every state of the generator is reached from a seed: the zero state by one call. -/
lemma exists_afterCalls (baseMs : Int) {capMs : Int} (hcap : 1 ≤ capMs) (state : UInt64) :
    ∃ seed earlier, (new seed baseMs capMs).afterCalls earlier = { state, baseMs, capMs } := by
  by_cases hstate : state = 0
  · refine ⟨0 - golden, [31], ?_⟩
    have hexp : exponent baseMs capMs 31 = capMs := by rw [exponent, if_neg (by decide)]
    have hnew : new (0 - golden) baseMs capMs = { state := 0 - golden, baseMs, capMs } := by
      rw [new, if_pos (by decide)]
    have hcall := delayMs_of_pos (b := { state := 0 - golden, baseMs, capMs }) hexp hcap
    rw [afterCalls, List.foldl_cons, List.foldl_nil, hnew, hcall, next_snd, hstate]
    simp only [UInt64.sub_add_cancel]
  · exact ⟨state, [], by rw [afterCalls, List.foldl_nil, new, if_pos hstate]⟩

/-! ### The delays that occur -/

/-- A delay of the attempt, for some seed and some earlier calls. -/
def Occurs (baseMs capMs : Int) (attempt : Nat) (delay : Int) : Prop :=
  ∃ seed earlier, (((new seed baseMs capMs).afterCalls earlier).delayMs attempt).1 = delay

lemma occurs_of_nonpos {baseMs capMs delay : Int} {attempt : Nat}
    (h : exponent baseMs capMs attempt ≤ 0) :
    Occurs baseMs capMs attempt delay ↔ delay = 0 := by
  have hdelay : ∀ seed earlier,
      (((new seed baseMs capMs).afterCalls earlier).delayMs attempt).1 = 0 := by
    intro seed earlier
    obtain ⟨hbase, hcap⟩ := afterCalls_params (new seed baseMs capMs) earlier
    rw [delayMs_of_nonpos (by rw [hbase, hcap]; exact h)]
  constructor
  · rintro ⟨seed, earlier, rfl⟩
    exact hdelay seed earlier
  · rintro rfl
    exact ⟨0, [], hdelay 0 []⟩

/-- Every delay from the half of the exponent on occurs. -/
lemma occurs_of_pos {baseMs capMs exp delay : Int} {attempt : Nat} (hcap : 1 ≤ capMs)
    (h : exponent baseMs capMs attempt = exp) (hpos : 0 < exp) (hword : exp < 2 ^ 63) :
    Occurs baseMs capMs attempt delay ↔ exp / 2 ≤ delay ∧ delay ≤ exp := by
  constructor
  · rintro ⟨seed, earlier, rfl⟩
    obtain ⟨hbase', hcap'⟩ := afterCalls_params (new seed baseMs capMs) earlier
    rw [delayMs_of_pos (by rw [hbase', hcap']; exact h) hpos]
    have hlt := Nat.mod_lt (((new seed baseMs capMs).afterCalls earlier).next.1.toNat)
      (show 0 < (exp - exp / 2 + 1).toNat by omega)
    omega
  · rintro ⟨hhalf, hexp⟩
    -- the jitter is the rest of the delay
    obtain ⟨state, hstate⟩ := exists_next baseMs capMs (UInt64.ofNat (delay - exp / 2).toNat)
    obtain ⟨seed, earlier, hearlier⟩ := exists_afterCalls baseMs hcap state
    refine ⟨seed, earlier, ?_⟩
    rw [hearlier, delayMs_of_pos (b := { state, baseMs, capMs }) h hpos, hstate]
    have hshort : (delay - exp / 2).toNat < 2 ^ 63 := by omega
    have hjitter : (UInt64.ofNat (delay - exp / 2).toNat).toNat = (delay - exp / 2).toNat :=
      UInt64.toNat_ofNat_of_lt' (hshort.trans (by decide))
    have hspan : (delay - exp / 2).toNat < (exp - exp / 2 + 1).toNat := by omega
    rw [hjitter, Nat.mod_eq_of_lt hspan]
    omega

/-! ### The bounds -/

/-- The product of base and power up to the cap, computed in the integers. -/
def cappedExp (baseMs capMs : Int) (attempt : Nat) : Int := min capMs (baseMs * 2 ^ attempt)

/-- The delay is positive, at most the cap, and from the half to the whole of the capped product. -/
structure InBounds (baseMs capMs : Int) (attempt : Nat) (delay : Int) : Prop where
  pos   : 0 < delay
  cap   : delay ≤ capMs
  half  : cappedExp baseMs capMs attempt / 2 ≤ delay
  whole : delay ≤ cappedExp baseMs capMs attempt

instance (baseMs capMs : Int) (attempt : Nat) (delay : Int) :
    Decidable (InBounds baseMs capMs attempt delay) :=
  decidable_of_iff (0 < delay ∧ delay ≤ capMs ∧ cappedExp baseMs capMs attempt / 2 ≤ delay ∧
    delay ≤ cappedExp baseMs capMs attempt)
    ⟨fun ⟨hpos, hcap, hhalf, hwhole⟩ => ⟨hpos, hcap, hhalf, hwhole⟩,
      fun ⟨hpos, hcap, hhalf, hwhole⟩ => ⟨hpos, hcap, hhalf, hwhole⟩⟩

/-- The capped product is at least two. A shift stays in the word, or what is left of it is at most
one below the cap; without a shift the product reaches the cap. -/
def Bounded (baseMs capMs : Int) (attempt : Nat) : Prop :=
  2 ≤ cappedExp baseMs capMs attempt ∧
    if attempt < 31 then
      baseMs * 2 ^ attempt < 2 ^ 63 ∨ capMs - 1 ≤ (baseMs * 2 ^ attempt).bmod (2 ^ 64)
    else capMs ≤ baseMs * 2 ^ attempt

/-- All delays that occur are in the bounds exactly when the exponent is. -/
lemma forall_occurs_inBounds_iff {baseMs capMs exp : Int} {attempt : Nat} (hcap : 1 ≤ capMs)
    (h : exponent baseMs capMs attempt = exp) (hword : exp < 2 ^ 63) :
    (∀ delay, Occurs baseMs capMs attempt delay → InBounds baseMs capMs attempt delay) ↔
      2 ≤ exp ∧ exp ≤ cappedExp baseMs capMs attempt ∧
        cappedExp baseMs capMs attempt / 2 ≤ exp / 2 := by
  by_cases hpos : 0 < exp
  · constructor
    · intro hall
      have hleast := hall (exp / 2) ((occurs_of_pos hcap h hpos hword).2 (by omega))
      have hgreatest := hall exp ((occurs_of_pos hcap h hpos hword).2 (by omega))
      have hleastPos := hleast.pos
      exact ⟨by omega, hgreatest.whole, hleast.half⟩
    · rintro ⟨htwo, hwhole, hhalf⟩ delay hdelay
      obtain ⟨hlow, hhigh⟩ := (occurs_of_pos hcap h hpos hword).1 hdelay
      have hmin : cappedExp baseMs capMs attempt ≤ capMs := min_le_left _ _
      exact ⟨by omega, by omega, by omega, by omega⟩
  · refine iff_of_false (fun hall => ?_) (by omega)
    have hzero := hall 0 ((occurs_of_nonpos (by omega)).2 rfl)
    exact absurd hzero.pos (Int.lt_irrefl 0)

/-- The wrapped shift of an attempt that leaves the word is even. -/
lemma even_bmod {baseMs : Int} (hbase : baseMs < 2 ^ 63) {attempt : Nat}
    (hout : 2 ^ 63 ≤ baseMs * 2 ^ attempt) :
    ∃ m, (baseMs * 2 ^ attempt).bmod (2 ^ 64) = 2 * m := by
  cases attempt with
  | zero =>
    rw [Int.pow_zero, Int.mul_one] at hout
    omega
  | succ n =>
    have hdvd : (2 : Int) ∣ baseMs * 2 ^ (n + 1) :=
      ⟨baseMs * 2 ^ n, by rw [Int.pow_succ, ← Int.mul_assoc, Int.mul_comm]⟩
    have hmod : (2 : Int) ∣ (baseMs * 2 ^ (n + 1)).bmod (2 ^ 64) := by
      rw [Int.bmod_def]
      split_ifs <;> omega
    exact hmod

lemma exponent_le (baseMs capMs : Int) (attempt : Nat) :
    exponent baseMs capMs attempt ≤ capMs := by
  rw [exponent]
  dsimp only
  split_ifs <;> omega

/-- The exponent is as good as the capped product exactly under the condition. -/
lemma exponent_bounds_iff {baseMs capMs : Int} (hbase : 1 ≤ baseMs ∧ baseMs < 2 ^ 63)
    (hcap : 1 ≤ capMs ∧ capMs < 2 ^ 63) (attempt : Nat) :
    (2 ≤ exponent baseMs capMs attempt ∧
      exponent baseMs capMs attempt ≤ cappedExp baseMs capMs attempt ∧
      cappedExp baseMs capMs attempt / 2 ≤ exponent baseMs capMs attempt / 2) ↔
      Bounded baseMs capMs attempt := by
  rw [exponent, Bounded, cappedExp]
  dsimp only
  by_cases hattempt : attempt < 31
  · rw [if_pos hattempt, if_pos hattempt]
    by_cases hout : 2 ^ 63 ≤ baseMs * 2 ^ attempt
    · obtain ⟨m, hm⟩ := even_bmod hbase.2 hout
      rw [hm]
      split_ifs <;> omega
    · have hpos : 0 < baseMs * 2 ^ attempt :=
        Int.mul_pos hbase.1 (Int.pow_pos (by decide))
      have hin : (baseMs * 2 ^ attempt).bmod (2 ^ 64) = baseMs * 2 ^ attempt :=
        Int.bmod_eq_of_le (by omega) (by omega)
      rw [hin]
      split_ifs <;> omega
  · rw [if_neg hattempt, if_neg hattempt]
    omega

/-- The bounds hold for every seed and after every number of earlier calls exactly when base, cap
and attempt meet the condition. -/
theorem delayMs_inBounds_iff {baseMs capMs : Int} (hbase : 1 ≤ baseMs ∧ baseMs < 2 ^ 63)
    (hcap : 1 ≤ capMs ∧ capMs < 2 ^ 63) (attempt : Nat) :
    (∀ seed earlier, InBounds baseMs capMs attempt
      (((new seed baseMs capMs).afterCalls earlier).delayMs attempt).1) ↔
      Bounded baseMs capMs attempt := by
  have hword := Int.lt_of_le_of_lt (exponent_le baseMs capMs attempt) hcap.2
  rw [← exponent_bounds_iff hbase hcap, ← forall_occurs_inBounds_iff hcap.1 rfl hword]
  constructor
  · rintro h delay ⟨seed, earlier, rfl⟩
    exact h seed earlier
  · exact fun h seed earlier => h _ ⟨seed, earlier, rfl⟩

theorem delayMs_inBounds_default :
    InBounds 200 5000 3 (((new 42 200 5000).afterCalls [0, 1, 2]).delayMs 3).1 :=
  (delayMs_inBounds_iff (by decide) (by decide) 3).2
    ⟨by decide, by rw [if_pos (by decide)]; exact .inl (by decide)⟩ 42 [0, 1, 2]

/-- With a base and a cap of one the first delay can be zero. -/
theorem delayMs_zero : ¬ ∀ (seed : UInt64) (baseMs capMs : Int) (attempt : Nat)
    (earlier : List Nat), 1 ≤ baseMs ∧ baseMs < 2 ^ 63 → 1 ≤ capMs ∧ capMs < 2 ^ 63 →
      InBounds baseMs capMs attempt
        (((new seed baseMs capMs).afterCalls earlier).delayMs attempt).1 := by
  intro h
  have hpos := (h 0x61C8864680B583EB 1 1 0 [] (by decide) (by decide)).pos
  exact absurd hpos (by decide)

end Backoff

end HftBot
