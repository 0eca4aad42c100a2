import HftBot.Engine.OrderBody
import HftBot.Engine.Ticker

/-!
# Frames

The bytes of an order and of an event are packed, so every byte of a frame belongs to one field.
Frames and their fields are the same thing: what is written is read back, and a frame that is
accepted is what its payload is written as.
-/

namespace HftBot.Wire

open HftBot.Core HftBot.Core.Utf8

/-! ### Numbers -/

/-- The bytes of a number, the low one first. -/
def leBytes : Nat → Nat → Bytes
  | 0, _     => []
  | k + 1, n => UInt8.ofNat n :: leBytes k (n / 256)

@[simp]
lemma length_leBytes (k n : Nat) : (leBytes k n).length = k := by
  induction k generalizing n with
  | zero => rfl
  | succ k ih => simp [leBytes, ih]

lemma littleEndian_cons (b : UInt8) (bytes : Bytes) :
    littleEndian (b :: bytes) = b.toNat + 256 * littleEndian bytes := rfl

lemma littleEndian_leBytes (k n : Nat) : littleEndian (leBytes k n) = n % 256 ^ k := by
  induction k generalizing n with
  | zero => simp [leBytes, littleEndian, Nat.mod_one]
  | succ k ih =>
    rw [leBytes, littleEndian_cons, ih, Nat.pow_succ', Nat.mod_mul]
    rfl

lemma littleEndian_lt (bytes : Bytes) : littleEndian bytes < 256 ^ bytes.length := by
  induction bytes with
  | nil => simp [littleEndian]
  | cons b bytes ih =>
    have hb := b.toNat_lt
    rw [littleEndian_cons, List.length_cons, Nat.pow_succ]
    omega

lemma leBytes_littleEndian (bytes : Bytes) : leBytes bytes.length (littleEndian bytes) = bytes := by
  induction bytes with
  | nil => rfl
  | cons b bytes ih =>
    have hb := b.toNat_lt
    rw [littleEndian_cons, List.length_cons, leBytes]
    have hrest : (b.toNat + 256 * littleEndian bytes) / 256 = littleEndian bytes := by omega
    have hhead : UInt8.ofNat (b.toNat + 256 * littleEndian bytes) = b := by
      apply UInt8.toNat_inj.1
      rw [UInt8.toNat_ofNat']
      omega
    rw [hrest, hhead, ih]

/-- The bytes of a field are those of the number in them. -/
lemma leBytes_field {i k : Nat} {bytes : Bytes} (h : i + k ≤ bytes.length) :
    leBytes k (littleEndian ((bytes.drop i).take k)) = (bytes.drop i).take k := by
  have hlength : ((bytes.drop i).take k).length = k := by
    rw [List.length_take, List.length_drop]
    omega
  have hread := leBytes_littleEndian ((bytes.drop i).take k)
  rwa [hlength] at hread

lemma toList_extract {n : Nat} (v : Vector UInt8 n) (i j : Nat) :
    (v.extract i j).toList = (v.toList.drop i).take (j - i) := by
  obtain ⟨⟨l⟩, h⟩ := v
  simp [Vector.toList, List.extract]

lemma ofInt32_littleEndian (x : Int32) :
    Int32.ofInt (littleEndian (leBytes 4 x.toBitVec.toNat)) = x := by
  rw [littleEndian_leBytes, Nat.mod_eq_of_lt (x.toBitVec.isLt.trans_eq (by decide))]
  apply Int32.toBitVec_inj.1
  rw [Int32.toBitVec_ofInt, BitVec.ofInt_natCast, BitVec.ofNat_toNat, BitVec.setWidth_eq]

lemma ofInt64_littleEndian (x : Int64) :
    Int64.ofInt (littleEndian (leBytes 8 x.toBitVec.toNat)) = x := by
  rw [littleEndian_leBytes, Nat.mod_eq_of_lt (x.toBitVec.isLt.trans_eq (by decide))]
  apply Int64.toBitVec_inj.1
  rw [Int64.toBitVec_ofInt, BitVec.ofInt_natCast, BitVec.ofNat_toNat, BitVec.setWidth_eq]

lemma ofNat64_littleEndian (x : UInt64) :
    UInt64.ofNat (littleEndian (leBytes 8 x.toNat)) = x := by
  rw [littleEndian_leBytes, Nat.mod_eq_of_lt (x.toNat_lt.trans_eq (by decide)),
    UInt64.ofNat_toNat]

/-- Four bytes that are read as a number are those of the number. -/
lemma leBytes_ofInt32 {bytes : Bytes} (h : bytes.length = 4) :
    leBytes 4 (Int32.ofInt (littleEndian bytes)).toBitVec.toNat = bytes := by
  have hlt := littleEndian_lt bytes
  rw [h] at hlt
  rw [Int32.toBitVec_ofInt, BitVec.ofInt_natCast, BitVec.toNat_ofNat,
    Nat.mod_eq_of_lt (hlt.trans_eq (by decide)), ← h,
    leBytes_littleEndian]

lemma leBytes_ofInt64 {bytes : Bytes} (h : bytes.length = 8) :
    leBytes 8 (Int64.ofInt (littleEndian bytes)).toBitVec.toNat = bytes := by
  have hlt := littleEndian_lt bytes
  rw [h] at hlt
  rw [Int64.toBitVec_ofInt, BitVec.ofInt_natCast, BitVec.toNat_ofNat,
    Nat.mod_eq_of_lt (hlt.trans_eq (by decide)), ← h,
    leBytes_littleEndian]

lemma leBytes_ofNat64 {bytes : Bytes} (h : bytes.length = 8) :
    leBytes 8 (UInt64.ofNat (littleEndian bytes)).toNat = bytes := by
  have hlt := littleEndian_lt bytes
  rw [h] at hlt
  rw [UInt64.toNat_ofNat',
    Nat.mod_eq_of_lt (hlt.trans_eq (by decide)), ← h, leBytes_littleEndian]

/-- A list from one place on is what a field takes of it and what is behind the field. -/
lemma take_append_rest (i j : Nat) (l : Bytes) :
    (l.drop i).take j ++ l.drop (i + j) = l.drop i := by
  rw [← List.drop_drop, List.take_append_drop]

lemma length_field {i k : Nat} {l : Bytes} (h : i + k ≤ l.length) :
    ((l.drop i).take k).length = k := by
  rw [List.length_take, List.length_drop]
  omega

/-! ### Frames of orders -/

/-- `as_bytes` of an order. -/
def ExecPayload.asBytes (p : ExecPayload) : Bytes :=
  p.magic :: p.version :: p.strategyId :: p.action :: p.side :: p.orderType ::
    (leBytes 4 p.count.toBitVec.toNat ++ (leBytes 4 p.priceCents.toBitVec.toNat ++
      (leBytes 8 p.seq ++ (leBytes 8 p.tsNs.toNat ++ (leBytes 8 p.ttlNs.toNat ++
        p.ticker.toList)))))

lemma ExecPayload.length_asBytes (p : ExecPayload) : p.asBytes.length = 80 := by
  simp [asBytes]

variable {bytes : Bytes}

/-- The fields of a frame that has been written are those it was written from. -/
lemma ExecPayload.ofFrame_asBytes {p : ExecPayload} (hseq : p.seq < 2 ^ 64)
    (h : p.asBytes.toArray.size = 80) : ofFrame ⟨p.asBytes.toArray, h⟩ = p := by
  have hfield (i j : Nat) : ((⟨p.asBytes.toArray, h⟩ : Vector UInt8 80).extract i j).toList =
      (p.asBytes.drop i).take (j - i) := toList_extract _ i j
  have hcount : (p.asBytes.drop 6).take 4 = leBytes 4 p.count.toBitVec.toNat := rfl
  have hprice : (p.asBytes.drop 10).take 4 = leBytes 4 p.priceCents.toBitVec.toNat := rfl
  have hnumber : (p.asBytes.drop 14).take 8 = leBytes 8 p.seq := rfl
  have hts : (p.asBytes.drop 22).take 8 = leBytes 8 p.tsNs.toNat := rfl
  have httl : (p.asBytes.drop 30).take 8 = leBytes 8 p.ttlNs.toNat := rfl
  have hticker : (p.asBytes.drop 38).take 42 = p.ticker.toList :=
    List.take_of_length_le (l := p.ticker.toList) (by simp)
  obtain ⟨magic, version, strategyId, action, side, orderType, count, priceCents, seq, tsNs, ttlNs,
    ticker⟩ := p
  simp only [ofFrame, hfield, hcount, hprice, hnumber, hts, httl, ofInt32_littleEndian,
    ofNat64_littleEndian]
  rw [littleEndian_leBytes, Nat.mod_eq_of_lt (hseq.trans_eq (by decide))]
  congr 1
  exact Vector.toList_inj.1 ((hfield 38 80).trans hticker)

/-- The bytes of the fields from one place on, and a byte before them. -/
lemma cons_rest {n i : Nat} (v : Vector UInt8 n) (hi : i < n) :
    v[i] :: v.toList.drop (i + 1) = v.toList.drop i := by
  have hlength : i < v.toList.length := by simpa using hi
  have hget : v[i] = v.toList[i] := by simp
  rw [hget, List.getElem_cons_drop]

/-- A frame is the bytes of its fields. -/
lemma ExecPayload.asBytes_ofFrame (v : Vector UInt8 80) : (ofFrame v).asBytes = v.toList := by
  have hlength : v.toList.length = 80 := by simp
  have hfield {i j : Nat} (hij : i ≤ j) (hj : j ≤ 80) :
      ((v.toList.drop i).take (j - i)).length = j - i := length_field (by omega)
  have hseq : leBytes 8 (littleEndian ((v.toList.drop 14).take 8)) = (v.toList.drop 14).take 8 :=
    leBytes_field (by omega)
  have hticker : (v.toList.drop 38).take 42 = v.toList.drop 38 :=
    List.take_of_length_le (by simp)
  simp only [asBytes, ofFrame, toList_extract]
  rw [leBytes_ofInt32 (hfield (by decide) (by decide)),
    leBytes_ofInt32 (hfield (by decide) (by decide)), hseq,
    leBytes_ofNat64 (hfield (by decide) (by decide)),
    leBytes_ofNat64 (hfield (by decide) (by decide)), hticker,
    take_append_rest 30 8, take_append_rest 22 8, take_append_rest 14 8, take_append_rest 10 4,
    take_append_rest 6 4]
  rw [cons_rest v (by decide), cons_rest v (by decide), cons_rest v (by decide),
    cons_rest v (by decide), cons_rest v (by decide), cons_rest v (by decide), List.drop_zero]

/-- The frames that are accepted are those of the payloads that pass the checks. -/
lemma decodeFrame_eq_ok_iff {p : ExecPayload} :
    decodeFrame bytes = .ok p ↔ p.seq < 2 ^ 64 ∧ bytes = p.asBytes ∧ Accepted p := by
  rw [decodeFrame]
  constructor
  · intro h
    split_ifs at h with hsize
    obtain rfl := eq_of_decodeExec h
    have hbytes := ExecPayload.asBytes_ofFrame ⟨bytes.toArray, by simpa using hsize⟩
    refine ⟨?_, hbytes.symm, decodeExec_eq_ok_iff.1 h⟩
    have hlt := littleEndian_lt
      ((⟨bytes.toArray, by simpa using hsize⟩ : Vector UInt8 80).extract 14 22).toList
    exact hlt.trans_eq (by simp [hsize])
  · rintro ⟨hseq, rfl, haccepted⟩
    rw [dif_pos p.length_asBytes, ExecPayload.ofFrame_asBytes hseq]
    exact decodeExec_eq_ok_iff.2 haccepted

/-! ### Frames of events -/

namespace MarketEvent

/-- The fields of a frame, which are packed. -/
def ofFrame (bytes : Vector UInt8 88) : MarketEvent where
  magic        := bytes[0]
  version      := bytes[1]
  kind         := bytes[2]
  pad          := bytes[3]
  yesBid       := .ofInt (littleEndian (bytes.extract 4 8).toList)
  yesAsk       := .ofInt (littleEndian (bytes.extract 8 12).toList)
  lastPrice    := .ofInt (littleEndian (bytes.extract 12 16).toList)
  volume       := .ofInt (littleEndian (bytes.extract 16 24).toList)
  openInterest := .ofInt (littleEndian (bytes.extract 24 32).toList)
  tsNs         := .ofNat (littleEndian (bytes.extract 32 40).toList)
  seq          := .ofNat (littleEndian (bytes.extract 40 48).toList)
  ticker       := bytes.extract 48 88

/-- `as_bytes` of an event. -/
def asBytes (e : MarketEvent) : Bytes :=
  e.magic :: e.version :: e.kind :: e.pad ::
    (leBytes 4 e.yesBid.toBitVec.toNat ++ (leBytes 4 e.yesAsk.toBitVec.toNat ++
      (leBytes 4 e.lastPrice.toBitVec.toNat ++ (leBytes 8 e.volume.toBitVec.toNat ++
        (leBytes 8 e.openInterest.toBitVec.toNat ++ (leBytes 8 e.tsNs.toNat ++
          (leBytes 8 e.seq.toNat ++ e.ticker.toList)))))))

@[simp]
lemma length_asBytes (e : MarketEvent) : e.asBytes.length = 88 := by
  simp [asBytes]

lemma ofFrame_asBytes (e : MarketEvent) (h : e.asBytes.toArray.size = 88) :
    ofFrame ⟨e.asBytes.toArray, h⟩ = e := by
  have hfield (i j : Nat) : ((⟨e.asBytes.toArray, h⟩ : Vector UInt8 88).extract i j).toList =
      (e.asBytes.drop i).take (j - i) := toList_extract _ i j
  have hbid : (e.asBytes.drop 4).take 4 = leBytes 4 e.yesBid.toBitVec.toNat := rfl
  have hask : (e.asBytes.drop 8).take 4 = leBytes 4 e.yesAsk.toBitVec.toNat := rfl
  have hlast : (e.asBytes.drop 12).take 4 = leBytes 4 e.lastPrice.toBitVec.toNat := rfl
  have hvolume : (e.asBytes.drop 16).take 8 = leBytes 8 e.volume.toBitVec.toNat := rfl
  have hopen : (e.asBytes.drop 24).take 8 = leBytes 8 e.openInterest.toBitVec.toNat := rfl
  have hts : (e.asBytes.drop 32).take 8 = leBytes 8 e.tsNs.toNat := rfl
  have hseq : (e.asBytes.drop 40).take 8 = leBytes 8 e.seq.toNat := rfl
  have hticker : (e.asBytes.drop 48).take 40 = e.ticker.toList :=
    List.take_of_length_le (l := e.ticker.toList) (by simp)
  obtain ⟨magic, version, kind, pad, yesBid, yesAsk, lastPrice, volume, openInterest, tsNs, seq,
    ticker⟩ := e
  simp only [ofFrame, hfield, hbid, hask, hlast, hvolume, hopen, hts, hseq, ofInt32_littleEndian,
    ofInt64_littleEndian, ofNat64_littleEndian]
  congr 1
  exact Vector.toList_inj.1 ((hfield 48 88).trans hticker)

lemma asBytes_ofFrame (v : Vector UInt8 88) : (ofFrame v).asBytes = v.toList := by
  have hlength : v.toList.length = 88 := by simp
  have hfield {i j : Nat} (hij : i ≤ j) (hj : j ≤ 88) :
      ((v.toList.drop i).take (j - i)).length = j - i := length_field (by omega)
  have hticker : (v.toList.drop 48).take 40 = v.toList.drop 48 :=
    List.take_of_length_le (by simp)
  simp only [asBytes, ofFrame, toList_extract]
  rw [leBytes_ofInt32 (hfield (by decide) (by decide)),
    leBytes_ofInt32 (hfield (by decide) (by decide)),
    leBytes_ofInt32 (hfield (by decide) (by decide)),
    leBytes_ofInt64 (hfield (by decide) (by decide)),
    leBytes_ofInt64 (hfield (by decide) (by decide)),
    leBytes_ofNat64 (hfield (by decide) (by decide)),
    leBytes_ofNat64 (hfield (by decide) (by decide)), hticker,
    take_append_rest 40 8, take_append_rest 32 8, take_append_rest 24 8, take_append_rest 16 8,
    take_append_rest 12 4, take_append_rest 8 4, take_append_rest 4 4]
  rw [cons_rest v (by decide), cons_rest v (by decide), cons_rest v (by decide),
    cons_rest v (by decide), List.drop_zero]

end MarketEvent

/-- `decode_event` on the bytes of a frame. -/
def decodeEvent (bytes : Bytes) : Option MarketEvent :=
  if h : bytes.length = 88 then
    let e := MarketEvent.ofFrame ⟨bytes.toArray, by simpa using h⟩
    if e.magic ≠ kEventMagic ∨ e.version ≠ kWireVersion then none else some e
  else none

lemma decodeEvent_eq_some_iff {e : MarketEvent} : decodeEvent bytes = some e ↔
    bytes = e.asBytes ∧ e.magic = kEventMagic ∧ e.version = kWireVersion := by
  rw [decodeEvent]
  constructor
  · intro h
    dsimp only at h
    split_ifs at h with hsize hhead
    obtain rfl := Option.some.inj h
    rw [not_or, not_not, not_not] at hhead
    have hbytes := MarketEvent.asBytes_ofFrame ⟨bytes.toArray, by simpa using hsize⟩
    exact ⟨hbytes.symm, hhead⟩
  · rintro ⟨rfl, hmagic, hversion⟩
    rw [dif_pos e.length_asBytes, MarketEvent.ofFrame_asBytes]
    dsimp only
    rw [if_neg (by simp [hmagic, hversion])]

/-- Frames and payloads are the same thing: 80 bytes are those of the one order that they are read
as, and 88 bytes those of the one event. What is accepted is what a payload with the right marks,
and one that passes the checks of orders, is written as. -/
theorem frames_lossless :
    (∀ v : Vector UInt8 80, (ExecPayload.ofFrame v).asBytes = v.toList) ∧
    (∀ v : Vector UInt8 88, (MarketEvent.ofFrame v).asBytes = v.toList) ∧
    (∀ (p : ExecPayload) (bytes : Bytes), decodeFrame bytes = .ok p ↔
      p.seq < 2 ^ 64 ∧ bytes = p.asBytes ∧ Accepted p) ∧
    ∀ (e : MarketEvent) (bytes : Bytes), decodeEvent bytes = some e ↔
      bytes = e.asBytes ∧ e.magic = kEventMagic ∧ e.version = kWireVersion :=
  ⟨ExecPayload.asBytes_ofFrame, MarketEvent.asBytes_ofFrame, fun _ _ => decodeFrame_eq_ok_iff,
    fun _ _ => decodeEvent_eq_some_iff⟩

end HftBot.Wire
