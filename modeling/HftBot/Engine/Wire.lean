import Mathlib.Data.List.Basic

/-!
# Order intents

The fixed-size `ExecPayload` of `wire.hpp` and the checks of `decode_exec`. The check of the frame's
size is left out: an engine validates the payload it has just built.
-/

namespace HftBot.Wire

def kExecMagic : UInt8 := 0xEB

def kWireVersion : UInt8 := 1

def kStrategySlots : Nat := 30

def kActionBuy : UInt8 := 1

def kActionSell : UInt8 := 2

def kSideYes : UInt8 := 1

def kSideNo : UInt8 := 2

def kTypeLimit : UInt8 := 1

def kTypeMarket : UInt8 := 2

/-- One order instruction. The sequence number counts the submissions of a strategy and does not
come near the end of its 64 bits. -/
structure ExecPayload where
  magic      : UInt8 := kExecMagic
  version    : UInt8 := kWireVersion
  strategyId : UInt8 := 0
  action     : UInt8 := 0
  side       : UInt8 := 0
  orderType  : UInt8 := 0
  count      : Int32 := 0
  priceCents : Int32 := 0
  seq        : Nat := 0
  tsNs       : UInt64 := 0
  ttlNs      : UInt64 := 0
  ticker     : Vector UInt8 42 := .replicate 42 0
deriving DecidableEq, Repr

/-- The ticker up to its padding. -/
def ExecPayload.tickerView (p : ExecPayload) : List UInt8 := p.ticker.toList.takeWhile (· ≠ 0)

/-- The characters a ticker may have. -/
def tickerByte (c : UInt8) : Bool :=
  ('A'.toUInt8 ≤ c && c ≤ 'Z'.toUInt8) || ('a'.toUInt8 ≤ c && c ≤ 'z'.toUInt8) ||
    ('0'.toUInt8 ≤ c && c ≤ '9'.toUInt8) || c = '-'.toUInt8 || c = '_'.toUInt8 || c = '.'.toUInt8

/-- The payload, or the reason for which it is refused. -/
def decodeExec (p : ExecPayload) : Except String ExecPayload :=
  if p.magic ≠ kExecMagic ∨ p.version ≠ kWireVersion then .error "bad magic/version"
  else if kStrategySlots ≤ p.strategyId.toNat then .error "bad strategy_id"
  else if p.action ≠ kActionBuy ∧ p.action ≠ kActionSell then .error "bad action"
  else if p.side ≠ kSideYes ∧ p.side ≠ kSideNo then .error "bad side"
  else if p.orderType ≠ kTypeLimit ∧ p.orderType ≠ kTypeMarket then .error "bad type"
  else if p.count ≤ 0 then .error "bad count"
  else if p.orderType = kTypeLimit ∧ (p.priceCents < 1 ∨ 99 < p.priceCents) then .error "bad price"
  else if p.tickerView = [] then .error "empty ticker"
  else if p.tickerView.all tickerByte = false then .error "bad ticker char"
  else .ok p

/-- A market's ticker: characters of the accepted set, one at least. -/
structure IsTicker (t : List UInt8) : Prop where
  nonempty : t ≠ []
  chars    : ∀ b ∈ t, tickerByte b = true

instance (t : List UInt8) : Decidable (IsTicker t) :=
  decidable_of_iff (t ≠ [] ∧ t.all tickerByte = true)
    ⟨fun h => ⟨h.1, List.all_eq_true.1 h.2⟩, fun h => ⟨h.1, List.all_eq_true.2 h.2⟩⟩

/-- What the checks of an intent establish. -/
structure Accepted (p : ExecPayload) : Prop where
  magic      : p.magic = kExecMagic
  version    : p.version = kWireVersion
  strategyId : p.strategyId.toNat < kStrategySlots
  action     : p.action = kActionBuy ∨ p.action = kActionSell
  side       : p.side = kSideYes ∨ p.side = kSideNo
  orderType  : p.orderType = kTypeLimit ∨ p.orderType = kTypeMarket
  count      : 0 < p.count
  price      : p.orderType = kTypeLimit → 1 ≤ p.priceCents ∧ p.priceCents ≤ 99
  ticker     : IsTicker p.tickerView

/-- An intent that decodes is unchanged. -/
lemma eq_of_decodeExec {p q : ExecPayload} (h : decodeExec p = .ok q) : q = p := by
  simp only [decodeExec] at h
  split_ifs at h
  exact (Except.ok.inj h).symm

/-- The checks pass exactly on an intent for which they establish something. -/
lemma decodeExec_eq_ok_iff {p : ExecPayload} : decodeExec p = .ok p ↔ Accepted p := by
  constructor
  · intro h
    simp only [decodeExec] at h
    split_ifs at h with hmagic hid haction hside htype hcount hprice hempty hchars
    obtain ⟨hmagic, hversion⟩ := not_or.1 hmagic
    have hpair {a b c : UInt8} (hne : ¬ (a ≠ b ∧ a ≠ c)) : a = b ∨ a = c := by
      by_contra hnot
      exact hne (not_or.1 hnot)
    refine ⟨not_not.1 hmagic, not_not.1 hversion, Nat.lt_of_not_le hid, hpair haction, hpair hside,
      hpair htype, Int32.not_le.1 hcount, ?_, hempty, ?_⟩
    · intro hlimit
      have hrange := not_or.1 fun hout => hprice ⟨hlimit, hout⟩
      exact ⟨Int32.not_lt.1 hrange.1, Int32.not_lt.1 hrange.2⟩
    · exact List.all_eq_true.1 (Bool.not_eq_false _ ▸ hchars)
  · intro h
    have hmagic : ¬ (p.magic ≠ kExecMagic ∨ p.version ≠ kWireVersion) :=
      not_or.2 ⟨not_not.2 h.magic, not_not.2 h.version⟩
    have hpair {a b c : UInt8} (heq : a = b ∨ a = c) : ¬ (a ≠ b ∧ a ≠ c) :=
      fun hne => heq.elim hne.1 hne.2
    have hprice : ¬ (p.orderType = kTypeLimit ∧ (p.priceCents < 1 ∨ 99 < p.priceCents)) := by
      rintro ⟨hlimit, hout⟩
      obtain ⟨hlow, hhigh⟩ := h.price hlimit
      exact hout.elim (Int32.not_lt.2 hlow) (Int32.not_lt.2 hhigh)
    have hchars : ¬ p.tickerView.all tickerByte = false := by
      rw [Bool.not_eq_false]
      exact List.all_eq_true.2 h.ticker.chars
    rw [decodeExec, if_neg hmagic, if_neg (Nat.not_le_of_lt h.strategyId), if_neg (hpair h.action),
      if_neg (hpair h.side), if_neg (hpair h.orderType), if_neg (Int32.not_le.2 h.count),
      if_neg hprice, if_neg h.ticker.nonempty, if_neg hchars]

end HftBot.Wire
