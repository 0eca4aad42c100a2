import Mathlib.Algebra.Order.Ring.Int
import Mathlib.Algebra.BigOperators.Group.List.Basic
import Mathlib.Tactic.Linarith
import Mathlib.Tactic.Ring

/-!
# Buckets with debt

A bucket fills at a constant rate up to its capacity. A request may take more than the bucket
holds: the level goes below zero, and the request may be used at the time at which the debt is
paid. Whatever requests are granted, their uses conform to the bucket: between any two of them no
more is spent than the capacity and what has been filled in since, up to the rounding of one time
unit.
-/

namespace HftBot.Core

structure Bucket where
  level : Int
  last  : Int

/-- What was granted, and when it may be used. -/
structure Grant where
  cost  : Int
  ready : Int
deriving DecidableEq, Repr

/-- A request at some time, and whether it is granted. -/
structure Request where
  now     : Int
  cost    : Int
  granted : Bool

namespace Bucket

variable (rate cap : Int)

/-- A time that lies in the past fills in nothing. -/
def refill (b : Bucket) (now : Int) : Bucket :=
  if now ≤ b.last then b else ⟨min cap (b.level + rate * (now - b.last)), now⟩

def take (b : Bucket) (cost : Int) : Bucket := { b with level := b.level - cost }

/-- The time at which the debt is paid, seen from `now`. -/
def readyAt (b : Bucket) (now : Int) : Int := now + (max 0 (-b.level) + rate - 1) / rate

/-- The grants of a list of requests. -/
def serve : Bucket → List Request → List Grant
  | _, []      => []
  | b, r :: rs =>
    let b := b.refill rate cap r.now
    if r.granted then
      ⟨r.cost, (b.take r.cost).readyAt rate r.now⟩ :: serve (b.take r.cost) rs
    else serve b rs

variable {rate cap} {b : Bucket} {now : Int}

/-! ### Refills -/

/-- How often a bucket is refilled on the way does not matter. -/
lemma refill_refill (hrate : 0 < rate) {now' : Int} (hle : now ≤ now') :
    (b.refill rate cap now).refill rate cap now' = b.refill rate cap now' := by
  by_cases hlast : now ≤ b.last
  · have hfirst : b.refill rate cap now = b := if_pos hlast
    rw [hfirst]
  · have hlater : ¬ now' ≤ b.last := by omega
    have hfirst : b.refill rate cap now = ⟨min cap (b.level + rate * (now - b.last)), now⟩ :=
      if_neg hlast
    have hsum : rate * (now' - b.last) = rate * (now - b.last) + rate * (now' - now) := by ring
    rw [hfirst, refill, refill, if_neg hlater]
    dsimp only
    split_ifs with heq
    · rw [le_antisymm heq hle]
    · have hpos : 0 < rate * (now' - now) := mul_pos hrate (by omega)
      rw [mk.injEq]
      exact ⟨by omega, rfl⟩

/-! ### One request -/

lemma le_readyAt_iff (hrate : 0 < rate) (x : Int) :
    x ≤ b.readyAt rate now ↔ x ≤ now ∨ rate * (x - now - 1) < -b.level := by
  have hdiv := Int.le_ediv_iff_mul_le (a := x - now) (b := max 0 (-b.level) + rate - 1) hrate
  have hready : x ≤ b.readyAt rate now ↔ x - now ≤ (max 0 (-b.level) + rate - 1) / rate := by
    rw [readyAt]
    omega
  rw [hready, hdiv]
  have hexpand : rate * (x - now - 1) = (x - now) * rate - rate := by ring
  rw [hexpand]
  rcases lt_or_ge 0 (x - now) with hpos | hneg
  · have hle : rate ≤ (x - now) * rate := by nlinarith
    omega
  · have hle : (x - now) * rate ≤ 0 := by nlinarith
    omega

lemma now_le_readyAt (hrate : 0 < rate) : now ≤ b.readyAt rate now :=
  (le_readyAt_iff hrate now).2 (.inl le_rfl)

lemma readyAt_of_nonneg (hrate : 0 < rate) (hlevel : 0 ≤ b.level) : b.readyAt rate now = now := by
  rw [readyAt, max_eq_left (by omega), Int.ediv_eq_zero_of_lt (by omega) (by omega), add_zero]

/-- At its ready time the debt is paid. -/
lemma mul_readyAt_ge (hrate : 0 < rate) : rate * now - b.level ≤ rate * b.readyAt rate now := by
  by_contra hlt
  have hnext : b.readyAt rate now + 1 ≤ b.readyAt rate now := by
    refine (le_readyAt_iff hrate _).2 (.inr ?_)
    have hexpand : rate * (b.readyAt rate now + 1 - now - 1) =
        rate * b.readyAt rate now - rate * now := by ring
    omega
  omega

/-- The ready time is later than `now` by less than a time unit beyond the debt. -/
lemma mul_readyAt_lt (hrate : 0 < rate) (hdebt : now < b.readyAt rate now) :
    rate * b.readyAt rate now < rate * now - b.level + rate := by
  rcases (le_readyAt_iff hrate (b.readyAt rate now)).1 le_rfl with hle | hlt
  · omega
  · have hexpand : rate * (b.readyAt rate now - now - 1) =
        rate * b.readyAt rate now - rate * now - rate := by ring
    omega

/-- Ready times never go back while time passes and the level follows the rate. -/
lemma readyAt_mono (hrate : 0 < rate) {b' : Bucket} {now' : Int} (hnow : now ≤ now')
    (hlevel : b'.level ≤ b.level + rate * (now' - now)) {x : Int} (hx : x ≤ b.readyAt rate now) :
    x ≤ b'.readyAt rate now' := by
  rw [le_readyAt_iff hrate] at hx ⊢
  rcases hx with hle | hlt
  · exact .inl (hle.trans hnow)
  · right
    have hexpand : rate * (x - now' - 1) = rate * (x - now - 1) - rate * (now' - now) := by ring
    omega

/-- A bucket that was last asked at time `t`. -/
structure AskedAt (cap : Int) (b : Bucket) (t : Int) : Prop where
  level_le : b.level ≤ cap
  le_last  : t ≤ b.last

lemma refill_spec (hrate : 0 < rate) {t : Int} (h : b.AskedAt cap t) (ht : t ≤ now) :
    (b.refill rate cap now).AskedAt cap now ∧
      (b.refill rate cap now).level ≤ b.level + rate * (now - t) := by
  have hlast := h.le_last
  have hlevel := h.level_le
  rw [refill]
  split_ifs with hle
  · refine ⟨⟨hlevel, hle⟩, ?_⟩
    nlinarith
  · refine ⟨⟨min_le_left _ _, le_rfl⟩, ?_⟩
    have hmin := min_le_right cap (b.level + rate * (now - b.last))
    have hmul : rate * (now - b.last) ≤ rate * (now - t) := by nlinarith
    show min cap (b.level + rate * (now - b.last)) ≤ _
    omega

lemma AskedAt.take {t : Int} (h : b.AskedAt cap t) {cost : Int} (hcost : 0 ≤ cost) :
    (b.take cost).AskedAt cap t := by
  have := h.level_le
  exact ⟨by show b.level - cost ≤ cap; omega, h.le_last⟩

/-! ### A list of requests -/

/-- Requests in the order of their times, none before `t` and none giving back. -/
structure InOrder (t : Int) (rs : List Request) : Prop where
  sorted       : rs.Pairwise fun r r' => r.now ≤ r'.now
  start_le     : ∀ r ∈ rs, t ≤ r.now
  cost_nonneg  : ∀ r ∈ rs, 0 ≤ r.cost

lemma InOrder.tail {t : Int} {r : Request} {rs : List Request} (h : InOrder t (r :: rs)) :
    InOrder r.now rs where
  sorted       := (List.pairwise_cons.1 h.sorted).2
  start_le     := (List.pairwise_cons.1 h.sorted).1
  cost_nonneg  := fun r' hr' => h.cost_nonneg r' (List.mem_cons_of_mem r hr')

/-- A ready time reached once is a lower bound of all that are granted later. -/
lemma le_ready_of_mem_serve (hrate : 0 < rate) {rs : List Request} {t x : Int}
    (hb : b.AskedAt cap t) (hrs : InOrder t rs) (hx : x ≤ b.readyAt rate t) :
    ∀ g ∈ b.serve rate cap rs, x ≤ g.ready := by
  induction rs generalizing b t with
  | nil => simp [serve]
  | cons r rs ih =>
    have ht : t ≤ r.now := hrs.start_le r (by simp)
    have hcost : 0 ≤ r.cost := hrs.cost_nonneg r (by simp)
    obtain ⟨hasked, hlevel⟩ := refill_spec hrate hb ht
    rw [serve]
    split_ifs with hgranted
    · have htaken : x ≤ ((b.refill rate cap r.now).take r.cost).readyAt rate r.now := by
        apply readyAt_mono hrate ht _ hx
        show (b.refill rate cap r.now).level - r.cost ≤ _
        omega
      intro g hg
      rcases List.mem_cons.1 hg with rfl | hg
      · exact htaken
      · exact ih (hasked.take hcost) hrs.tail htaken g hg
    · exact ih hasked hrs.tail (readyAt_mono hrate ht hlevel hx)

theorem serve_sorted (hrate : 0 < rate) {rs : List Request} {t : Int} (hb : b.AskedAt cap t)
    (hrs : InOrder t rs) : (b.serve rate cap rs).Pairwise fun g g' => g.ready ≤ g'.ready := by
  induction rs generalizing b t with
  | nil => exact List.Pairwise.nil
  | cons r rs ih =>
    obtain ⟨hasked, -⟩ := refill_spec hrate hb (hrs.start_le r (by simp))
    rw [serve]
    split_ifs with hgranted
    · have htaken := hasked.take (hrs.cost_nonneg r (by simp))
      exact List.pairwise_cons.2
        ⟨le_ready_of_mem_serve hrate htaken hrs.tail le_rfl, ih htaken hrs.tail⟩
    · exact ih hasked hrs.tail

/-- The cost of a list of grants. -/
def spent (gs : List Grant) : Int := (gs.map (·.cost)).sum

@[simp] lemma spent_nil : spent [] = 0 := rfl

@[simp] lemma spent_cons (g : Grant) (gs : List Grant) : spent (g :: gs) = g.cost + spent gs := by
  simp [spent]

/-- What has been spent and the level grow together by no more than the rate allows, so a bound of
    their sum at one time bounds what has been spent at every later use. -/
lemma spent_prefix_le (hrate : 0 < rate) {rs : List Request} {t bound : Int} {g : Grant}
    {gs : List Grant} (hb : b.AskedAt cap t) (hrs : InOrder t rs)
    (hbound : b.level ≤ bound + rate * t) (hgs : g :: gs <+: b.serve rate cap rs) :
    spent (g :: gs) ≤ bound + rate * ((g :: gs).getLast (by simp)).ready := by
  induction rs generalizing b t bound g gs with
  | nil => simp [serve] at hgs
  | cons r rs ih =>
    obtain ⟨hasked, hlevel⟩ := refill_spec hrate hb (hrs.start_le r (by simp))
    have hfilled : (b.refill rate cap r.now).level ≤ bound + rate * r.now := by
      have hexpand : rate * (r.now - t) = rate * r.now - rate * t := by ring
      omega
    rw [serve] at hgs
    split_ifs at hgs with hgranted
    · obtain ⟨rfl, hlater⟩ := List.cons_prefix_cons.1 hgs
      have htaken := hasked.take (hrs.cost_nonneg r (by simp))
      cases gs with
      | nil =>
        -- The use itself: its debt is paid at its ready time.
        have hready : rate * r.now - ((b.refill rate cap r.now).take r.cost).level ≤
            rate * ((b.refill rate cap r.now).take r.cost).readyAt rate r.now :=
          mul_readyAt_ge hrate
        simp only [take] at hready
        simp only [spent_cons, spent_nil, List.getLast_singleton, take]
        omega
      | cons g gs =>
        have hleft : ((b.refill rate cap r.now).take r.cost).level ≤
            bound - r.cost + rate * r.now := by
          show (b.refill rate cap r.now).level - r.cost ≤ _
          omega
        have hrest := ih htaken hrs.tail hleft hlater
        rw [spent_cons, List.getLast_cons (by simp)]
        show r.cost + _ ≤ _
        omega
    · exact ih hasked hrs.tail hfilled hgs

/-- Conformance: from any grant to any later one no more is spent than a full bucket and what is
    filled in between their uses, up to one time unit. -/
theorem spent_window_le (hrate : 0 < rate) {rs : List Request} {t : Int} {g : Grant}
    {gs : List Grant} (hb : b.AskedAt cap t) (hrs : InOrder t rs) (hcap : ∀ r ∈ rs, r.cost ≤ cap)
    (hgs : g :: gs <:+: b.serve rate cap rs) :
    spent (g :: gs) ≤
      cap + rate * (((g :: gs).getLast (by simp)).ready - g.ready) + rate := by
  induction rs generalizing b t with
  | nil => simp [serve] at hgs
  | cons r rs ih =>
    obtain ⟨hasked, -⟩ := refill_spec hrate hb (hrs.start_le r (by simp))
    have htail : ∀ r' ∈ rs, r'.cost ≤ cap := fun r' hr' => hcap r' (List.mem_cons_of_mem r hr')
    rw [serve] at hgs
    split_ifs at hgs with hgranted
    · have htaken := hasked.take (hrs.cost_nonneg r (by simp))
      rcases List.infix_cons_iff.1 hgs with hprefix | hinfix
      · obtain ⟨rfl, hlater⟩ := List.cons_prefix_cons.1 hprefix
        set b' := (b.refill rate cap r.now).take r.cost with hb'
        -- A use that has to wait leaves a debt that is paid only at its ready time.
        have hlevel : r.cost + b'.level ≤
            cap + rate * r.now - rate * b'.readyAt rate r.now + rate := by
          have hle := hasked.level_le
          have hcost := hcap r (by simp)
          have heq : b'.level = (b.refill rate cap r.now).level - r.cost := rfl
          have hready : r.now ≤ b'.readyAt rate r.now := now_le_readyAt hrate
          rcases hready.eq_or_lt with hnow | hwait
          · rw [← hnow]
            omega
          · have := mul_readyAt_lt hrate hwait
            omega
        cases gs with
        | nil =>
          have hcost := hcap r (by simp)
          simp only [spent_cons, spent_nil, List.getLast_singleton, sub_self, mul_zero]
          omega
        | cons g gs =>
          have hbound : b'.level ≤
              cap - rate * b'.readyAt rate r.now + rate - r.cost + rate * r.now := by omega
          have hrest := spent_prefix_le hrate htaken hrs.tail hbound hlater
          rw [spent_cons, List.getLast_cons (by simp)]
          have hexpand : rate * (((g :: gs).getLast (by simp)).ready - b'.readyAt rate r.now) =
            rate * ((g :: gs).getLast (by simp)).ready - rate * b'.readyAt rate r.now := by ring
          show r.cost + _ ≤ cap + rate * (_ - b'.readyAt rate r.now) + rate
          omega
      · exact ih htaken hrs.tail htail hinfix
    · exact ih hasked hrs.tail htail hgs

end Bucket

end HftBot.Core
