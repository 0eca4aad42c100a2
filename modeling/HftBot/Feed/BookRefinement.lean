import HftBot.Core.Run
import HftBot.Feed.OrderBookProperties
import Mathlib.Algebra.BigOperators.Group.List.Basic

/-!
# What a book means

The abstract book of a market is a function: at each price of each side the last positive size of
the latest snapshot plus the deltas since. It exists as long as no delta has made a size negative
and nobody has invalidated it. The book of the source, with its erased, inserted and updated
levels, serves that function and nothing else.
-/

namespace HftBot

open HftBot.Core Function

/-! ### Operations -/

inductive BookOp
  | load (snap : SnapshotView)
  | delta (side : Side) (price d : Int) (seq : Nat)
  | invalidate
deriving DecidableEq

namespace BookOp

def IsLoad : BookOp → Prop
  | load _ => True
  | _      => False

/-- What an operation adds to a size. -/
def amountAt (side : Side) (price : Int) : BookOp → Int
  | delta side' price' d _ => if side' = side ∧ price' = price then d else 0
  | _                      => 0

end BookOp

def OrderBook.apply (b : OrderBook) : BookOp → OrderBook
  | .load snap              => OrderBook.loadSnapshot snap
  | .delta side price d seq => (b.applyDelta side price d seq).2
  | .invalidate             => b.invalidate

/-! ### The abstract book -/

def SnapshotView.side (snap : SnapshotView) : Side → List Level
  | .yes => snap.yes
  | .no  => snap.no

/-- The size of the last positive entry at a price, zero if there is none. -/
def lastPositive (levels : List Level) (price : Int) : Int :=
  ((levels.filter fun l => 0 < l.size ∧ l.price = price).getLast?.map (·.size)).getD 0

/-- The sizes after a snapshot and the operations that followed it. -/
def quoted (snap : SnapshotView) (later : List BookOp) : ServerBook := fun side price =>
  lastPositive (snap.side side) price + (later.map (·.amountAt side price)).sum

/-- Nobody has invalidated the book since its snapshot, and no size has ever been negative. -/
def Unbroken (snap : SnapshotView) (later : List BookOp) : Prop :=
  .invalidate ∉ later ∧
    ∀ earlier, earlier <+: later → ∀ side price, 0 ≤ quoted snap earlier side price

lemma sizeIn_eq_lastPositive (levels : List Level) (price : Int) :
    sizeIn levels price = lastPositive levels price := by
  induction levels using List.reverseRecOn with
  | nil => rfl
  | append_singleton levels l ih =>
    rw [sizeIn, List.foldl_append, lastPositive, List.filter_append]
    by_cases hl : 0 < l.size ∧ l.price = price
    · simp [hl]
    · have hfilter : [l].filter (fun l => decide (0 < l.size ∧ l.price = price)) = [] := by
        simpa using hl
      rw [hfilter, List.append_nil]
      show (if 0 < l.size ∧ l.price = price then l.size else _) = _
      rw [if_neg hl]
      exact ih

lemma lastPositive_nonneg (levels : List Level) (price : Int) : 0 ≤ lastPositive levels price := by
  rw [lastPositive]
  cases hlast : (levels.filter fun l => 0 < l.size ∧ l.price = price).getLast? with
  | none => exact le_rfl
  | some l =>
    have hmem := List.mem_of_getLast? hlast
    simp only [List.mem_filter, decide_eq_true_eq] at hmem
    exact hmem.2.1.le

section

variable {snap : SnapshotView} {later : List BookOp}

@[simp] lemma quoted_nil : quoted snap [] = fun side => lastPositive (snap.side side) := by
  funext side price
  simp [quoted]

lemma quoted_append (op : BookOp) (side : Side) (price : Int) :
    quoted snap (later ++ [op]) side price =
      quoted snap later side price + op.amountAt side price := by
  simp [quoted, add_assoc]

lemma unbroken_nil : Unbroken snap [] := by
  refine ⟨by simp, ?_⟩
  intro earlier hearlier side price
  rw [List.prefix_nil.1 hearlier, quoted_nil]
  exact lastPositive_nonneg _ _

lemma unbroken_append {op : BookOp} :
    Unbroken snap (later ++ [op]) ↔
      Unbroken snap later ∧ op ≠ .invalidate ∧
        ∀ side price, 0 ≤ quoted snap (later ++ [op]) side price := by
  constructor
  · rintro ⟨hnot, hnonneg⟩
    rw [List.mem_append, List.mem_singleton, not_or] at hnot
    refine ⟨⟨hnot.1, ?_⟩, Ne.symm hnot.2, hnonneg _ List.prefix_rfl⟩
    intro earlier hearlier
    exact hnonneg earlier (hearlier.trans (List.prefix_append _ _))
  · rintro ⟨⟨hnot, hnonneg⟩, hop, hlast⟩
    refine ⟨by simp [hnot, Ne.symm hop], ?_⟩
    intro earlier hearlier
    rcases List.prefix_concat_iff.1 hearlier with rfl | hearlier
    · exact hlast
    · exact hnonneg earlier hearlier

lemma not_isLoad_append {op : BookOp} (hlater : ∀ op ∈ later, ¬ op.IsLoad) (hop : ¬ op.IsLoad) :
    ∀ op' ∈ later ++ [op], ¬ op'.IsLoad := by
  intro op' hop'
  rcases List.mem_append.1 hop' with hop' | hop'
  · exact hlater op' hop'
  · rwa [List.mem_singleton.1 hop']

end

namespace OrderBook

variable {b : OrderBook} {side : Side} {price d : Int} {seq : Nat}

/-! ### One operation -/

/-- Only positive sizes are stored. -/
def Positive (b : OrderBook) : Prop :=
  ∀ side price size, (b.side side).find? price = some size → 0 < size

@[simp] lemma side_setSide (levels : SortedMap Int Int) (side' : Side) (seq : Nat) :
    ({ b.setSide levels side with lastSeq := seq } : OrderBook).side side' =
      if side' = side then levels else b.side side' := by
  cases side <;> cases side' <;> rfl

lemma Positive.applyDelta (h : b.Positive) : (b.applyDelta side price d seq).2.Positive := by
  intro side' price' size hfind
  simp only [OrderBook.applyDelta] at hfind
  split_ifs at hfind with hvalid hneg hzero
  · exact h side' price' size hfind
  · exact h side' price' size hfind
  · rw [side_setSide] at hfind
    split_ifs at hfind with hside
    · rw [SortedMap.find?_erase] at hfind
      split_ifs at hfind with hprice
      exact h side price' size hfind
    · exact h side' price' size hfind
  · rw [side_setSide] at hfind
    split_ifs at hfind with hside
    · rw [SortedMap.find?_insert] at hfind
      split_ifs at hfind with hprice
      · cases hfind
        omega
      · exact h side price' size hfind
    · exact h side' price' size hfind

lemma find?_loadSide_pos {levels : List Level} {price size : Int}
    (h : (loadSide levels).find? price = some size) : 0 < size := by
  induction levels using List.reverseRecOn with
  | nil => cases h
  | append_singleton levels l ih =>
    rw [loadSide, List.foldl_append] at h
    change (if l.size > 0 then (loadSide levels).insert l.price l.size
      else loadSide levels).find? price = some size at h
    split_ifs at h with hsize
    · rw [SortedMap.find?_insert] at h
      split_ifs at h with hprice
      · cases h
        exact hsize
      · exact ih h
    · exact ih h

lemma Positive.apply (h : b.Positive) (op : BookOp) : (b.apply op).Positive := by
  cases op with
  | load snap =>
    intro side price size hfind
    cases side with
    | yes => exact find?_loadSide_pos hfind
    | no => exact find?_loadSide_pos hfind
  | delta side price d seq => exact h.applyDelta
  | invalidate => exact h

/-! ### What is served -/

lemma depthLoop_zero (entries : List (Int × Int)) (out : List Level) :
    depthLoop 0 entries out = out ++ entries.map fun p => ⟨p.1, p.2⟩ := by
  induction entries generalizing out with
  | nil => simp [depthLoop]
  | cons p rest ih => simp [depthLoop, ih]

lemma depthLoop_eq_take {max : Nat} {out : List Level} (hout : out.length < max)
    (entries : List (Int × Int)) :
    depthLoop max entries out = (depthLoop 0 entries out).take max := by
  induction entries generalizing out with
  | nil => simp [depthLoop, List.take_of_length_le hout.le]
  | cons p rest ih =>
    rw [depthLoop]
    have hzero : ¬ ((0 : Nat) ≠ 0 ∧ (out ++ [(⟨p.1, p.2⟩ : Level)]).length ≥ 0) := by simp
    conv_rhs => rw [depthLoop, if_neg hzero]
    split_ifs with hfull
    · have hlength : (out ++ [(⟨p.1, p.2⟩ : Level)]).length = max := by
        have := hfull.2
        simp only [List.length_append, List.length_singleton] at this ⊢
        omega
      rw [depthLoop_zero, List.take_append_of_le_length hlength.ge, ← hlength, List.take_length]
    · exact ih (by have := hout; omega)

/-- The accessors of a valid book agree with a function of sizes. -/
structure Shows (b : OrderBook) (size : ServerBook) : Prop where
  served        : ∀ side price, b.servedAt side price = some (size side price)
  depth_sorted  : ∀ side, (b.depth side 0).Pairwise fun l l' => l.price < l'.price
  mem_depth     : ∀ side l, l ∈ b.depth side 0 ↔ 0 < l.size ∧ l.size = size side l.price
  depth_take    : ∀ side max, 0 < max → b.depth side max = (b.depth side 0).take max
  levels_length : ∀ side, b.levels side = (b.depth side 0).length
  bestBid_iff   : ∀ side price,
    b.bestBid side = some price ↔ IsGreatest {p | 0 < size side p} price
  ask_iff       : ∀ price,
    b.impliedYesAsk = some price ↔ IsGreatest {p | 0 < size .no p} (kPriceMax - price)
  crossed_iff   : b.crossed ↔
    ∃ bid ask, b.bestYesBid = some bid ∧ b.impliedYesAsk = some ask ∧ ask ≤ bid

/-- The accessors of an invalid book have nothing to serve. -/
structure ServesNothing (b : OrderBook) : Prop where
  served  : ∀ side price, b.servedAt side price = none
  depth   : ∀ side max, b.depth side max = []
  levels  : ∀ side, b.levels side = 0
  bestBid : ∀ side, b.bestBid side = none
  ask     : b.impliedYesAsk = none
  crossed : b.crossed = false

lemma sizeAt_pos_iff (h : b.Positive) (side : Side) (price : Int) :
    0 < b.sizeAt side price ↔ ∃ size, (b.side side).find? price = some size := by
  rw [sizeAt]
  cases hfind : (b.side side).find? price with
  | none => simp
  | some size => simpa using h side price size hfind

lemma mem_entries_iff (h : b.Positive) (side : Side) (price size : Int) :
    (price, size) ∈ (b.side side).entries ↔ 0 < size ∧ size = b.sizeAt side price := by
  rw [← SortedMap.find?_eq_some_iff, sizeAt]
  constructor
  · intro hfind
    exact ⟨h side price size hfind, by simp [hfind]⟩
  · rintro ⟨hpos, heq⟩
    cases hfind : (b.side side).find? price with
    | none =>
      rw [hfind, Option.getD_none] at heq
      omega
    | some size' => rw [heq, hfind, Option.getD_some]

/-- Books of positive sizes have the same levels iff they have the same sizes. -/
lemma side_eq_iff {b' : OrderBook} (h : b.Positive) (h' : b'.Positive) :
    (∀ side, b.side side = b'.side side) ↔ b.sizeAt = b'.sizeAt := by
  constructor
  · intro hside
    funext side price
    rw [sizeAt, sizeAt, hside]
  · intro hsize side
    apply SortedMap.ext_find?
    intro price
    ext size
    rw [SortedMap.find?_eq_some_iff, SortedMap.find?_eq_some_iff, mem_entries_iff h,
      mem_entries_iff h', hsize]

lemma bestBid_eq_some_iff (hb : b.valid) (h : b.Positive) (side : Side) (price : Int) :
    b.bestBid side = some price ↔ IsGreatest {p | 0 < b.sizeAt side p} price := by
  simp only [sizeAt_pos_iff h]
  rw [← SortedMap.lastKey?_eq_some_iff, bestBid, hb]
  split_ifs with hempty
  · have hnil : (b.side side).entries = [] := by
      simpa [SortedMap.isEmpty] using hempty
    simp [SortedMap.lastKey?, hnil]
  · rfl

lemma shows_sizeAt (hb : b.valid) (h : b.Positive) : b.Shows b.sizeAt where
  served side price := by simp [servedAt, hb]
  depth_sorted side := by
    simp only [depth, hb, Bool.not_true, Bool.false_eq_true, ↓reduceIte, depthLoop_zero,
      List.nil_append, List.pairwise_map]
    exact (b.side side).sorted
  mem_depth side l := by
    simp only [depth, hb, Bool.not_true, Bool.false_eq_true, ↓reduceIte, depthLoop_zero,
      List.nil_append, List.mem_map]
    rw [← mem_entries_iff h]
    constructor
    · rintro ⟨p, hp, rfl⟩
      exact hp
    · intro hmem
      exact ⟨_, hmem, rfl⟩
  depth_take side max hmax := by
    simp only [depth, hb, Bool.not_true, Bool.false_eq_true, ↓reduceIte]
    exact depthLoop_eq_take hmax _
  levels_length side := by
    simp [levels, depth, hb, depthLoop_zero, SortedMap.size]
  bestBid_iff := bestBid_eq_some_iff hb h
  ask_iff price := by
    rw [← bestBid_eq_some_iff hb h, impliedYesAsk, bestNoBid, Option.map_eq_some_iff]
    constructor
    · rintro ⟨q, hq, rfl⟩
      rw [sub_sub_cancel]
      exact hq
    · intro hbest
      exact ⟨_, hbest, sub_sub_cancel _ _⟩
  crossed_iff := by
    rw [crossed]
    cases b.bestYesBid <;> cases b.impliedYesAsk <;> simp

lemma servesNothing_of_not_valid (hb : b.valid = false) : b.ServesNothing where
  served side price := by simp [servedAt, hb]
  depth side max := by simp [OrderBook.depth, hb]
  levels side := by simp [OrderBook.levels, hb]
  bestBid side := by simp [OrderBook.bestBid, hb]
  ask := by simp [impliedYesAsk, bestNoBid, OrderBook.bestBid, hb]
  crossed := by simp [OrderBook.crossed, bestYesBid, OrderBook.bestBid, hb]

/-! ### Runs -/

lemma positive_run (ops : List BookOp) : (run apply new ops).Positive := by
  refine run_inv (A := fun _ _ => True) (fun b op h _ => h.apply op) ?_ (along_of_forall (by simp))
  intro side price size hfind
  cases side <;> cases hfind

/-- Since its snapshot a book is valid as long as it is unbroken, with the sizes of the abstract
    book. -/
lemma run_load (snap : SnapshotView) {later : List BookOp} (hlater : ∀ op ∈ later, ¬ op.IsLoad) :
    ((run apply (loadSnapshot snap) later).valid ↔ Unbroken snap later) ∧
      ((run apply (loadSnapshot snap) later).valid →
        (run apply (loadSnapshot snap) later).sizeAt = quoted snap later) := by
  induction later using List.reverseRecOn with
  | nil =>
    refine ⟨iff_of_true rfl unbroken_nil, fun _ => ?_⟩
    rw [run_nil, sizeAt_loadSnapshot, quoted_nil]
    funext side price
    cases side with
    | yes => exact sizeIn_eq_lastPositive snap.yes price
    | no => exact sizeIn_eq_lastPositive snap.no price
  | append_singleton later op ih =>
    obtain ⟨hvalid, hsize⟩ := ih fun op' hop' => hlater op' (List.mem_append_left _ hop')
    rw [run_append, run_cons, run_nil, unbroken_append, ← hvalid]
    generalize run apply (loadSnapshot snap) later = b at hvalid hsize ⊢
    cases op with
    | load snap' => exact absurd trivial (hlater (.load snap') (by simp))
    | invalidate => simp [apply, OrderBook.invalidate]
    | delta side price d seq =>
      cases hb : b.valid with
      | false => simp [apply, applyDelta_of_not_valid hb, hb]
      | true =>
        have hsize := hsize hb
        have hquoted : quoted snap (later ++ [.delta side price d seq]) =
            update b.sizeAt side (update (b.sizeAt side) price (b.sizeAt side price + d)) := by
          funext side' price'
          rw [quoted_append, ← hsize, BookOp.amountAt]
          by_cases hside : side' = side
          · subst hside
            by_cases hprice : price' = price
            · subst hprice
              simp
            · simp [hprice, Ne.symm hprice]
          · simp [hside, Ne.symm hside]
        rcases lt_or_ge (b.sizeAt side price + d) 0 with hneg | hge
        · have hnot : ¬ ∀ side' price',
              0 ≤ quoted snap (later ++ [.delta side price d seq]) side' price' := by
            intro hnonneg
            have := hnonneg side price
            rw [hquoted, update_self, update_self] at this
            omega
          simp [apply, applyDelta_of_neg hb hneg, hnot]
        · have hafter : (b.applyDelta side price d seq).2.valid :=
            (applyDelta_of_nonneg hb hge).2
          refine ⟨iff_of_true hafter ⟨rfl, by simp, ?_⟩, fun _ => ?_⟩
          · intro side' price'
            have hbefore : 0 ≤ b.sizeAt side' price' := by
              rw [hsize]
              exact (hvalid.1 hb).2 later List.prefix_rfl side' price'
            rw [hquoted]
            by_cases hside : side' = side
            · subst hside
              by_cases hprice : price' = price
              · subst hprice
                simpa using hge
              · simpa [hprice] using hbefore
            · simpa [hside] using hbefore
          · rw [hquoted]
            exact sizeAt_applyDelta hb hafter

/-- Either nothing has been loaded yet, or there is a latest snapshot. -/
lemma latest_load (ops : List BookOp) :
    (∀ op ∈ ops, ¬ op.IsLoad) ∨
      ∃ before snap later, ops = before ++ .load snap :: later ∧ ∀ op ∈ later, ¬ op.IsLoad := by
  induction ops using List.reverseRecOn with
  | nil => exact .inl (by simp)
  | append_singleton ops op ih =>
    by_cases hop : op.IsLoad
    · cases op with
      | load snap => exact .inr ⟨ops, snap, [], rfl, by simp⟩
      | delta side price d seq => cases hop
      | invalidate => cases hop
    · rcases ih with hnone | ⟨before, snap, later, rfl, hlater⟩
      · exact .inl (not_isLoad_append hnone hop)
      · exact .inr ⟨before, snap, later ++ [op], by simp, not_isLoad_append hlater hop⟩

lemma run_not_valid {ops : List BookOp} (hops : ∀ op ∈ ops, ¬ op.IsLoad) (hb : b.valid = false) :
    (run apply b ops).valid = false := by
  refine run_inv (P := fun b : OrderBook => b.valid = false)
    (A := fun _ op => ¬ BookOp.IsLoad op) ?_ hb
    (along_of_forall hops)
  intro b op hb hop
  cases op with
  | load snap => exact absurd trivial hop
  | delta side price d seq => rw [apply, applyDelta_of_not_valid hb, hb]
  | invalidate => rfl

/-- The book after any operations. Since its latest snapshot it shows the abstract book while that
    is unbroken, and serves nothing once it is broken or before the first snapshot; a delta breaks
    it exactly if it would make a size negative, and leaves the levels alone then; a delta to an
    invalid book is refused. -/
theorem run_refines (ops : List BookOp) :
    (run apply new ops).Positive ∧
      (∀ before snap later, ops = before ++ .load snap :: later → (∀ op ∈ later, ¬ op.IsLoad) →
        ((run apply new ops).valid ↔ Unbroken snap later) ∧
        (Unbroken snap later → (run apply new ops).Shows (quoted snap later)) ∧
        (¬ Unbroken snap later → (run apply new ops).ServesNothing)) ∧
      ((∀ op ∈ ops, ¬ op.IsLoad) → (run apply new ops).ServesNothing) ∧
      ∀ side price d seq,
        ((run apply new ops).valid → 0 ≤ (run apply new ops).sizeAt side price + d →
          ((run apply new ops).applyDelta side price d seq).1 = .ok ∧
          ((run apply new ops).applyDelta side price d seq).2.valid) ∧
        ((run apply new ops).valid → (run apply new ops).sizeAt side price + d < 0 →
          (run apply new ops).applyDelta side price d seq =
            (.invalid, { run apply new ops with valid := false })) ∧
        ((run apply new ops).valid = false →
          (run apply new ops).applyDelta side price d seq = (.needResync, run apply new ops)) := by
  have hpos := positive_run ops
  refine ⟨hpos, ?_, ?_, ?_⟩
  · rintro before snap later rfl hlater
    rw [run_append, run_cons] at hpos ⊢
    obtain ⟨hvalid, hsize⟩ := run_load snap hlater
    refine ⟨hvalid, ?_, ?_⟩
    · intro hunbroken
      have hb := hvalid.2 hunbroken
      rw [← hsize hb]
      exact shows_sizeAt hb hpos
    · intro hbroken
      apply servesNothing_of_not_valid
      exact Bool.eq_false_iff.2 fun hb => hbroken (hvalid.1 hb)
  · intro hops
    exact servesNothing_of_not_valid (run_not_valid hops rfl)
  · intro side price d seq
    exact ⟨applyDelta_of_nonneg, applyDelta_of_neg, applyDelta_of_not_valid⟩

/-- Duplicate and empty entries of a snapshot, a level that is erased and one that is put in. -/
example : (run apply new
    [.load ⟨[⟨4000, 7⟩, ⟨4100, 0⟩, ⟨4000, 5⟩], [⟨5500, 2⟩], 1⟩, .delta .yes 4000 (-5) 2,
      .delta .yes 3900 3 3]).yesDepth = [⟨3900, 3⟩] := by decide

end OrderBook

end HftBot
