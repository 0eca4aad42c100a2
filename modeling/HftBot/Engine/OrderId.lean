import Mathlib.Data.List.Range
import HftBot.Core.Hex
import HftBot.Engine.OrderAccounting

/-!
# Identity of an order

The `client_order_id` of `wire.hpp` packs the decision time, the strategy and the sequence number
into 128 bits and writes them as a UUID. The exchange refuses an id it has seen, so that an order
that is queued twice is placed once, and two orders must not share one.
-/

namespace HftBot.Wire

open HftBot.Core HftBot.Core.Utf8

/-- The high and the low word of the identity. -/
def idWords (p : ExecPayload) : UInt64 × UInt64 :=
  (p.tsNs, p.strategyId.toUInt64 <<< 56 ||| (UInt64.ofNat p.seq &&& 0x00FFFFFFFFFFFFFF))

/-- The five numbers that are printed. -/
def idGroups (p : ExecPayload) : List Bytes :=
  let (a, b) := idWords p
  [hexText 8 (a >>> 32).toUInt32.toNat, hexText 4 ((a >>> 16) &&& 0xFFFF).toNat,
    hexText 4 (a &&& 0xFFFF).toNat, hexText 4 (b >>> 48).toUInt32.toNat,
    hexText 12 (b &&& 0xFFFFFFFFFFFF).toNat]

def clientOrderId (p : ExecPayload) : Bytes := ['-'.toUInt8].intercalate (idGroups p)

/-- Lower-case hexadecimal digits in groups of 8, 4, 4, 4 and 12. -/
def UuidForm (s : Bytes) : Prop :=
  ∃ groups : List Bytes, s = ['-'.toUInt8].intercalate groups ∧
    groups.map List.length = [8, 4, 4, 4, 12] ∧ ∀ g ∈ groups, ∀ c ∈ g, LowerHex c

lemma UuidForm.length {s : Bytes} (h : UuidForm s) : s.length = 36 := by
  obtain ⟨groups, rfl, hlength, -⟩ := h
  simp only [List.map_eq_cons_iff, List.map_eq_nil_iff] at hlength
  obtain ⟨a, -, rfl, ha, b, -, rfl, hb, c, -, rfl, hc, d, -, rfl, hd, e, -, rfl, he, rfl⟩ := hlength
  simp [List.intercalate_cons_cons, ha, hb, hc, hd, he]

/-- The low word as a number. -/
def lowWord (p : ExecPayload) : Nat := p.strategyId.toNat * 2 ^ 56 + p.seq % 2 ^ 56

lemma lowWord_lt (p : ExecPayload) : lowWord p < 2 ^ 64 := by
  have hid := p.strategyId.toNat_lt
  have hseq := Nat.mod_lt p.seq (show 2 ^ 56 > 0 by decide)
  simp only [lowWord]
  omega

lemma toNat_idWords (p : ExecPayload) : (idWords p).2.toNat = lowWord p := by
  have hid := p.strategyId.toNat_lt
  have hseq : p.seq % 2 ^ 64 &&& 0x00FFFFFFFFFFFFFF = p.seq % 2 ^ 56 := by
    rw [Nat.and_two_pow_sub_one_eq_mod _ 56, Nat.mod_mod_of_dvd _ (by decide)]
  have hshift : p.strategyId.toNat <<< 56 % 2 ^ 64 = p.strategyId.toNat <<< 56 := by
    rw [Nat.shiftLeft_eq]
    exact Nat.mod_eq_of_lt (by omega)
  have hword : (idWords p).2.toNat =
      p.strategyId.toNat <<< 56 % 2 ^ 64 ||| (p.seq % 2 ^ 64 &&& 0x00FFFFFFFFFFFFFF) := by
    simp [idWords]
  rw [hword, hseq, hshift, ← Nat.shiftLeft_add_eq_or_of_lt (Nat.mod_lt _ (by decide)),
    Nat.shiftLeft_eq, lowWord]

/-- Each group has the digits of its part of the words. -/
lemma idGroups_eq (p : ExecPayload) : idGroups p =
    [hexText 8 (p.tsNs.toNat / 2 ^ 32), hexText 4 (p.tsNs.toNat / 2 ^ 16 % 2 ^ 16),
      hexText 4 (p.tsNs.toNat % 2 ^ 16), hexText 4 (lowWord p / 2 ^ 48),
      hexText 12 (lowWord p % 2 ^ 48)] := by
  have hts := p.tsNs.toNat_lt
  have hlow := lowWord_lt p
  have hfirst : (p.tsNs >>> 32).toUInt32.toNat = p.tsNs.toNat / 2 ^ 32 := by
    simp only [UInt64.toNat_toUInt32, UInt64.toNat_shiftRight]
    rw [Nat.shiftRight_eq_div_pow]
    exact Nat.mod_eq_of_lt (by change _ / 2 ^ 32 < _; omega)
  have hfourth : ((idWords p).2 >>> 48).toUInt32.toNat = lowWord p / 2 ^ 48 := by
    simp only [UInt64.toNat_toUInt32, UInt64.toNat_shiftRight, toNat_idWords]
    rw [Nat.shiftRight_eq_div_pow]
    exact Nat.mod_eq_of_lt (by change _ / 2 ^ 48 < _; omega)
  have hsecond : ((p.tsNs >>> 16) &&& 0xFFFF).toNat = p.tsNs.toNat / 2 ^ 16 % 2 ^ 16 := by
    simp only [UInt64.toNat_and, UInt64.toNat_shiftRight]
    rw [Nat.shiftRight_eq_div_pow]
    exact Nat.and_two_pow_sub_one_eq_mod _ 16
  have hthird : (p.tsNs &&& 0xFFFF).toNat = p.tsNs.toNat % 2 ^ 16 := by
    rw [UInt64.toNat_and]
    exact Nat.and_two_pow_sub_one_eq_mod _ 16
  have hfifth : ((idWords p).2 &&& 0xFFFFFFFFFFFF).toNat = lowWord p % 2 ^ 48 := by
    rw [UInt64.toNat_and, toNat_idWords]
    exact Nat.and_two_pow_sub_one_eq_mod _ 48
  rw [← hfirst, ← hsecond, ← hthird, ← hfourth, ← hfifth]
  rfl

lemma uuidForm_clientOrderId (p : ExecPayload) : UuidForm (clientOrderId p) := by
  have hts := p.tsNs.toNat_lt
  have hlow := lowWord_lt p
  refine ⟨idGroups p, rfl, ?_, ?_⟩
  · simp only [idGroups_eq, List.map_cons, List.map_nil]
    rw [length_hexText (by omega), length_hexText (by omega), length_hexText (by omega),
      length_hexText (by omega), length_hexText (by omega)]
  · intro g hg c hc
    have hhex : ∃ width n, g = hexText width n := by
      simp only [idGroups_eq, List.mem_cons, List.not_mem_nil, or_false] at hg
      rcases hg with rfl | rfl | rfl | rfl | rfl <;> exact ⟨_, _, rfl⟩
    obtain ⟨width, n, rfl⟩ := hhex
    exact lowerHex_of_mem_hexText hc

/-- No group has the separator in it, so the groups are told by the text. -/
lemma idGroups_of_clientOrderId {p q : ExecPayload} (h : clientOrderId p = clientOrderId q) :
    idGroups p = idGroups q := by
  have hsplit : ∀ r : ExecPayload, (clientOrderId r).splitOn '-'.toUInt8 = idGroups r := by
    intro r
    refine List.splitOn_intercalate _ (fun g hg hdash => ?_) (by simp [idGroups_eq])
    simp only [idGroups_eq, List.mem_cons, List.not_mem_nil, or_false] at hg
    rcases hg with rfl | rfl | rfl | rfl | rfl <;>
      exact absurd (lowerHex_of_mem_hexText hdash) (by decide)
  rw [← hsplit p, ← hsplit q, h]

/-- The id tells the decision time, the strategy and the sequence number up to `2 ^ 56`. -/
lemma clientOrderId_eq_iff {p q : ExecPayload} : clientOrderId p = clientOrderId q ↔
    p.tsNs = q.tsNs ∧ p.strategyId = q.strategyId ∧ p.seq % 2 ^ 56 = q.seq % 2 ^ 56 := by
  constructor
  · intro h
    have hgroups := idGroups_of_clientOrderId h
    rw [idGroups_eq, idGroups_eq] at hgroups
    simp only [List.cons.injEq, and_true] at hgroups
    obtain ⟨h₁, h₂, h₃, h₄, h₅⟩ := hgroups
    have hp := hexText_inj h₁
    have hp' := hexText_inj h₂
    have hp'' := hexText_inj h₃
    have hq := hexText_inj h₄
    have hq' := hexText_inj h₅
    simp only [lowWord] at hq hq'
    refine ⟨UInt64.toNat_inj.1 (by omega), UInt8.toNat_inj.1 (by omega), by omega⟩
  · rintro ⟨hts, hid, hseq⟩
    rw [clientOrderId, clientOrderId, idGroups_eq, idGroups_eq, lowWord, lowWord, hts, hid, hseq]

end HftBot.Wire

namespace HftBot.Tradingd

open HftBot.Core HftBot.Core.Utf8 HftBot.Wire

variable {ι : Type} {capacity : Nat} {s : Tradingd ι capacity}

/-- The submissions of one strategy, in order. -/
def submissions (s : Tradingd ι capacity) (id : Fin kStrategySlots) : List ExecPayload :=
  s.stamped.filter (·.strategyId = UInt8.ofNat id)

/-- The submissions of a strategy are numbered from one. -/
def Consecutive (s : Tradingd ι capacity) : Prop :=
  ∀ id, (s.submissions id).map (·.seq) = List.range' 1 (s.seq id)

lemma Consecutive.step [DecidableEq ι] [Fintype ι] (h : Consecutive s) (a : Action ι) :
    Consecutive (s.step a) := by
  intro id
  rcases step_orders_cases s a with ⟨hseq, hstamped, -⟩ | ⟨id', p, wallNs, hseq, hstamped, -⟩
  · rw [submissions, hseq, hstamped]
    exact h id
  · rw [submissions, hseq, hstamped, List.filter_append, List.map_append]
    by_cases hid : id = id'
    · subst hid
      have hlast : [s.stamp id p wallNs].filter (·.strategyId = UInt8.ofNat id) =
          [s.stamp id p wallNs] := by simp [stamp]
      rw [hlast, Function.update_self, List.range'_1_concat]
      exact congrArg₂ _ (h id) (by simp [stamp, Nat.add_comm])
    · have hother : [s.stamp id' p wallNs].filter (·.strategyId = UInt8.ofNat id) = [] := by
        have hne : UInt8.ofNat id' ≠ UInt8.ofNat id := fun heq => hid (slot_inj heq).symm
        simp [stamp, hne]
      rw [hother, Function.update_of_ne hid, List.map_nil, List.append_nil]
      exact h id

lemma consecutive_after (ι : Type) [DecidableEq ι] [Fintype ι] (capacity : Nat)
    (ordersEnabled : Bool) (maxQueueAgeNs : Nat) (as : List (Action ι)) :
    Consecutive (after ι capacity ordersEnabled maxQueueAgeNs as) := by
  have hstep : ∀ (s : Tradingd ι capacity) a, Consecutive s → True → Consecutive (s.step a) :=
    fun s a h _ => h.step a
  exact run_inv hstep (fun _ => rfl) (along_iff_forall_split.2 fun _ _ _ _ => trivial)

/-- The number of a submission is its place. -/
lemma Consecutive.seq_eq (h : Consecutive s) {id : Fin kStrategySlots} {i : Nat} {p : ExecPayload}
    (hp : (s.submissions id)[i]? = some p) : p.seq = i + 1 := by
  have hseq : ((s.submissions id).map (·.seq))[i]? = some p.seq := by
    rw [List.getElem?_map, hp, Option.map_some]
  rw [h id, List.getElem?_eq_some_iff] at hseq
  obtain ⟨hlt, heq⟩ := hseq
  rw [← heq, List.getElem_range']
  omega

/-- The id of an order is a UUID that says when which strategy submitted it under which number. In
no run do two of `2 ^ 56` successive submissions of a strategy share one. -/
theorem client_order_id_identity :
    (∀ p, (clientOrderId p).length = 36 ∧ UuidForm (clientOrderId p)) ∧
    (∀ p q, clientOrderId p = clientOrderId q ↔
      p.tsNs = q.tsNs ∧ p.strategyId = q.strategyId ∧ p.seq % 2 ^ 56 = q.seq % 2 ^ 56) ∧
    ∀ (ι : Type) [DecidableEq ι] [Fintype ι] (capacity : Nat) (ordersEnabled : Bool)
      (maxQueueAgeNs : Nat) (as : List (Action ι)) (id : Fin kStrategySlots) (i j : Nat)
      (p q : ExecPayload),
      let s := after ι capacity ordersEnabled maxQueueAgeNs as
      (s.submissions id)[i]? = some p → (s.submissions id)[j]? = some q → i < j →
        j - i < 2 ^ 56 → clientOrderId p ≠ clientOrderId q := by
  refine ⟨fun p => ⟨(uuidForm_clientOrderId p).length, uuidForm_clientOrderId p⟩,
    fun _ _ => clientOrderId_eq_iff, ?_⟩
  intro ι _ _ capacity ordersEnabled maxQueueAgeNs as id i j p q s hp hq hij hnear heq
  have hconsecutive := consecutive_after ι capacity ordersEnabled maxQueueAgeNs as
  have hseqp := hconsecutive.seq_eq hp
  have hseqq := hconsecutive.seq_eq hq
  obtain ⟨-, -, hmod⟩ := clientOrderId_eq_iff.1 heq
  omega

end HftBot.Tradingd
