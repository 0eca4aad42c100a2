import HftBot.Feed.Markers
import HftBot.Store.EntityRegistry
import HftBot.Store.RoundTrip

/-!
# Stored records

What the client hands to the recorder, and what is stored of it. Every record that the client makes
belongs to at most one event of the live sink, and the decoder finds that event again in what is
stored of the record.
-/

namespace HftBot

open HftBot.Core HftBot.Core.Utf8

/-! ### Stored records -/

namespace Storage

/-- A record as the writer gets it, with its clock readings. -/
def stored (mono wall : Int64) (rec : HftBot.RawRecord) : RawRecord where
  recvMonoNs        := mono
  recvWallNs        := wall
  sourceEventTimeMs := rec.sourceEventTimeMs.map Int64.ofInt
  source            := .kalshi
  channel           := encode rec.channel
  sourceTicker      := encode rec.sourceTicker
  sourceSequence    := rec.sourceSequence.map UInt64.ofNat
  sourceStreamId    := rec.sourceStreamId.map UInt64.ofNat
  streamEpoch       := UInt32.ofNat rec.streamEpoch
  marker            := rec.marker.map fun kind => encode kind.toList
  raw               := encode rec.raw

/-- A record is stored, at some time. -/
def StoredAs (rec : HftBot.RawRecord) (rec' : RawRecord) : Prop :=
  ∃ mono wall, rec' = stored mono wall rec

/-- `KalshiRawDecoder::decode` of a stored record. -/
def decodeStored (parse : Bytes → Option Json) (rec : RawRecord) : Option NormalizedEvent := do
  let root ← (← parse rec.raw).asObject
  let type ← Json.stringField root "type"
  let msg ← Json.objectField root "msg"
  let payload ← KalshiRawDecoder.decodePayload type msg
  return {
    entityId          := (Key.entityId ⟨rec.source, rec.sourceTicker⟩).toNat
    sourceEventTimeMs :=
      KalshiRawDecoder.eventTime type msg (rec.sourceEventTimeMs.map Int64.toInt)
    sourceSequence    := rec.sourceSequence.map UInt64.toNat
    sourceStreamId    := rec.sourceStreamId.map UInt64.toNat
    streamEpoch       := rec.streamEpoch.toNat
    payload }

/-- The frames that a marker says are lost. -/
def lossOf (rec : RawRecord) : Nat :=
  if rec.marker = some (ascii "loss") then (rec.sourceSequence.getD 0).toNat else 0

/-- The frames that the markers of a replay say are lost. -/
def lossTotal (recs : List RawRecord) : Nat := (recs.map lossOf).sum

lemma storable_stored (mono wall : Int64) (rec : HftBot.RawRecord) :
    (stored mono wall rec).Storable := by
  refine ⟨⟨_, rfl⟩, ⟨_, rfl⟩, ?_, fun _ => ⟨_, rfl⟩⟩
  intro m hm
  obtain ⟨kind, -, rfl⟩ := Option.map_eq_some_iff.1 hm
  exact ⟨_, rfl⟩

end Storage

/-- What the client hands to the recorder: a frame, or a marker of its own. -/
structure Recordable (rec : RawRecord) : Prop where
  epoch    : rec.streamEpoch < 2 ^ 32
  sequence : ∀ n ∈ rec.sourceSequence, n < 2 ^ 64
  streamId : ∀ n ∈ rec.sourceStreamId, n < 2 ^ 64
  time     : rec.sourceEventTimeMs = none
  marker   : ∀ kind ∈ rec.marker, kind ≠ "loss" ∧
    rec = { marker := some kind, streamEpoch := rec.streamEpoch,
            sourceStreamId := rec.sourceStreamId }

namespace Storage

variable {parse : Bytes → Option Json} {rec : HftBot.RawRecord}

lemma map_toNat_ofNat {o : Option Nat} (h : ∀ n ∈ o, n < 2 ^ 64) :
    (o.map UInt64.ofNat).map UInt64.toNat = o := by
  cases o with
  | none => rfl
  | some n => simp [UInt64.toNat_ofNat_of_lt' (h n rfl)]

variable (parse) in
/-- The decoder finds the same in a record and in what is stored of it. -/
lemma decodeStored_stored (h : Recordable rec) (mono wall : Int64) :
    decodeStored parse (stored mono wall rec) =
      KalshiRawDecoder.decode (fun text => parse (encode text)) rec := by
  have hepoch : (UInt32.ofNat rec.streamEpoch).toNat = rec.streamEpoch :=
    UInt32.toNat_ofNat_of_lt' h.epoch
  simp only [decodeStored, KalshiRawDecoder.decode, stored, map_toNat_ofNat h.sequence,
    map_toNat_ofNat h.streamId, hepoch, h.time, makeEntityId_eq, Option.map_none]

end Storage

/-! ### What a message leaves -/

namespace WsClient

variable {parse : List Char → Option Json} {c : WsClient}

/-- What the live sink gets for a record. -/
def delivered (parse : List Char → Option Json) (rec : RawRecord) : Option NormalizedEvent :=
  if rec.marker.isSome then none else KalshiRawDecoder.decode parse rec

/-- The records and the events that a step adds belong together. -/
structure Adds (parse : List Char → Option Json) (c c' : WsClient) (new : List RawRecord) :
    Prop where
  records    : c'.records = c.records ++ new
  events     : c'.events = c.events ++ new.filterMap (delivered parse)
  recordable : c.epoch < 2 ^ 32 → ∀ rec ∈ new, Recordable rec
  epoch      : c.epoch < 2 ^ 32 → c'.epoch < 2 ^ 32

/-- A step that touches none of them. -/
lemma Adds.quiet {c' : WsClient} (hrecords : c'.records = c.records)
    (hevents : c'.events = c.events) (hepoch : c'.epoch = c.epoch) : Adds parse c c' [] where
  records      := hrecords.trans (List.append_nil _).symm
  events       := hevents.trans (List.append_nil _).symm
  recordable _ := by simp
  epoch h      := hepoch ▸ h

lemma recordable_gapMarker {epoch sid : Nat} (hepoch : epoch < 2 ^ 32) (hsid : sid < 2 ^ 64) :
    Recordable (gapMarker epoch sid) where
  epoch    := hepoch
  sequence := by simp [gapMarker]
  streamId := by simpa [gapMarker] using hsid
  time     := rfl
  marker   := by simp [gapMarker]

lemma uint64Field_lt {root : List (List Char × Json)} {name : String} {n : Nat}
    (h : Json.uint64Field root name = some n) : n < 2 ^ 64 := by
  obtain ⟨j, -, hj⟩ := Option.bind_eq_some_iff.1 h
  cases j with
  | num token => simpa using (Option.filter_eq_some_iff.1 hj).2
  | _ => simp [Json.asUint64] at hj

lemma recordable_frameRecord (root : List (List Char × Json)) (type text : List Char) {epoch : Nat}
    (hepoch : epoch < 2 ^ 32) : Recordable (frameRecord root type text epoch) where
  epoch        := hepoch
  sequence _ h := uint64Field_lt h
  streamId _ h := uint64Field_lt h
  time         := rfl
  marker       := by simp [frameRecord]

/-- Only frames of these types are decoded, live and in a replay. -/
lemma decode_eq_none {root : List (List Char × Json)} {type text : List Char} {epoch : Nat}
    (hroot : (parse text).bind Json.asObject = some root)
    (htype : Json.stringField root "type" = some type)
    (hother : type = "error".toList ∨ (type = "ok".toList ∨ type = "unsubscribed".toList) ∨
      type = "subscribed".toList) :
    KalshiRawDecoder.decode parse (frameRecord root type text epoch) = none := by
  have hpayload : ∀ msg, KalshiRawDecoder.decodePayload type msg = none := by
    rcases hother with rfl | (rfl | rfl) | rfl <;>
      exact fun msg => by simp [KalshiRawDecoder.decodePayload]
  obtain ⟨v, hv, hobj⟩ := Option.bind_eq_some_iff.1 hroot
  simp [KalshiRawDecoder.decode, frameRecord, hv, hobj, htype, hpayload]

lemma eq_gapMarker_of_mem {epoch sid seq : Nat} {m : OrderBookManager} {ev : NormalizedEvent}
    {rec : RawRecord} (h : rec ∈ gapMarks epoch m (Routed.ofEvent sid seq ev)) :
    rec = gapMarker epoch sid := by
  cases hpayload : ev.payload with
  | bookDelta side price d coid =>
    simp only [Routed.ofEvent, hpayload, gapMarks] at h
    split at h
    · exact List.mem_singleton.1 h
    · cases h
  | lifecycle state =>
    simp only [Routed.ofEvent, hpayload] at h
    split at h <;> simp [gapMarks] at h
  | _ => simp [Routed.ofEvent, hpayload, gapMarks] at h

lemma onEvent_events (c : WsClient) (sid seq : Nat) (ev : NormalizedEvent) :
    (c.onEvent sid seq ev).events = c.events ++ [ev] := by
  cases hpayload : ev.payload with
  | bookDelta side price d coid =>
    simp only [onEvent, hpayload]
    split <;> rfl
  | lifecycle state =>
    simp only [onEvent, hpayload]
    split <;> rfl
  | _ => simp [onEvent, hpayload]

lemma filterMap_gapMarks {epoch sid seq : Nat} {m : OrderBookManager} {ev : NormalizedEvent} :
    (gapMarks epoch m (Routed.ofEvent sid seq ev)).filterMap (delivered parse) = [] := by
  apply List.filterMap_eq_nil_iff.2
  intro rec hrec
  rw [eq_gapMarker_of_mem hrec]
  rfl

lemma onEvent_adds {frame : RawRecord} {sid seq : Nat} {ev : NormalizedEvent}
    (hframe : delivered parse frame = some ev) (hsid : sid < 2 ^ 64)
    (hrecordable : c.epoch < 2 ^ 32 → Recordable frame) :
    Adds parse c ((c.record frame).onEvent sid seq ev)
      (frame :: gapMarks c.epoch c.books (Routed.ofEvent sid seq ev)) where
  records := by
    rw [onEvent_records]
    simp [record]
  events := by
    rw [onEvent_events, List.filterMap_cons_some hframe, filterMap_gapMarks]
    rfl
  recordable hepoch rec hrec := by
    rcases List.mem_cons.1 hrec with rfl | hrec
    · exact hrecordable hepoch
    · rw [eq_gapMarker_of_mem hrec]
      exact recordable_gapMarker hepoch hsid
  epoch hepoch := by
    rw [(onEvent_spec _ sid seq ev).1]
    exact hepoch

@[simp] lemma record_epoch (c : WsClient) (rec : RawRecord) : (c.record rec).epoch = c.epoch := rfl

/-- A frame is recorded, delivered if it decodes, and followed by a marker if it finds a gap. -/
lemma onText_adds (parse : List Char → Option Json) (c : WsClient) (text : List Char) :
    ∃ new, Adds parse c (c.onText parse text) new := by
  cases hroot : (parse text).bind Json.asObject with
  | none => exact ⟨[], by simpa [onText, hroot] using .quiet rfl rfl rfl⟩
  | some root =>
    cases htype : Json.stringField root "type" with
    | none => exact ⟨[], by simpa [onText, hroot, htype] using .quiet rfl rfl rfl⟩
    | some type =>
      have hframe : c.epoch < 2 ^ 32 →
          ∀ rec ∈ [frameRecord root type text c.epoch], Recordable rec := by
        intro hepoch rec hrec
        rw [List.mem_singleton.1 hrec]
        exact recordable_frameRecord root type text hepoch
      -- a frame that is only recorded
      have hquiet : ∀ c' : WsClient,
          c'.records = c.records ++ [frameRecord root type text c.epoch] →
          c'.events = c.events → c'.epoch = c.epoch →
          KalshiRawDecoder.decode parse (frameRecord root type text c.epoch) = none →
          ∃ new, Adds parse c c' new := by
        intro c' hrecords hevents hepoch hdecode
        refine ⟨_, hrecords, ?_, hframe, fun h => hepoch ▸ h⟩
        simp [hevents, delivered, hdecode]
      simp only [onText, hroot, htype]
      by_cases herror : type = "error".toList
      · rw [if_pos herror]
        exact hquiet _ rfl rfl rfl (decode_eq_none hroot htype (.inl herror))
      rw [if_neg herror]
      by_cases hcontrol : type = "ok".toList ∨ type = "unsubscribed".toList
      · rw [if_pos hcontrol]
        have hdecode : KalshiRawDecoder.decode parse (frameRecord root type text c.epoch) = none :=
          decode_eq_none hroot htype (.inr (.inl hcontrol))
        cases Json.uint64Field root "sid" <;> cases Json.uint64Field root "seq" <;>
          exact hquiet _ rfl rfl rfl hdecode
      rw [if_neg hcontrol]
      by_cases hack : type = "subscribed".toList
      · rw [if_pos hack]
        exact hquiet _ rfl rfl rfl (decode_eq_none hroot htype (.inr (.inr hack)))
      rw [if_neg hack, record_epoch]
      cases hdecode : KalshiRawDecoder.decode parse (frameRecord root type text c.epoch) with
      | none => exact hquiet _ rfl rfl rfl hdecode
      | some ev =>
        have hsid : (Json.uint64Field root "sid").getD 0 < 2 ^ 64 := by
          cases h : Json.uint64Field root "sid" with
          | none => simp
          | some n => exact uint64Field_lt h
        have hdelivered : delivered parse (frameRecord root type text c.epoch) = some ev := by
          rw [delivered]
          simpa [frameRecord] using hdecode
        exact ⟨_, onEvent_adds hdelivered hsid fun h => recordable_frameRecord root type text h⟩

/-- A subscription is sent and nothing else. -/
lemma Adds.resubscribe {c' : WsClient} {new : List RawRecord} (h : Adds parse c c' new) :
    Adds parse c c'.resubscribe new := by
  rw [WsClient.resubscribe]
  split_ifs
  · exact h
  · exact ⟨h.records, h.events, h.recordable, h.epoch⟩

lemma onOpen_adds (parse : List Char → Option Json) (c : WsClient) :
    ∃ new, Adds parse c c.onOpen new := by
  rw [onOpen]
  split_ifs
  · refine ⟨[{ marker := some "epoch_change", streamEpoch := (c.epoch + 1) % 2 ^ 32 }],
      Adds.resubscribe ⟨rfl, ?_, ?_, fun _ => Nat.mod_lt _ (by simp)⟩⟩
    · simp [mark, record, delivered]
    · intro _ rec hrec
      rw [List.mem_singleton.1 hrec]
      exact ⟨Nat.mod_lt _ (by simp), by simp, by simp, rfl, by simp⟩
  · exact ⟨[], Adds.resubscribe (.quiet rfl rfl rfl)⟩

lemma onMessage_adds (parse : List Char → Option Json) (c : WsClient) (m : WsMessage) :
    ∃ new, Adds parse c (c.onMessage parse m) new := by
  cases m with
  | opened => exact onOpen_adds parse c
  | text data =>
    obtain ⟨new, h⟩ := onText_adds parse { c with messages := c.messages + 1 } data
    exact ⟨new, h.records, h.events, h.recordable, h.epoch⟩
  | closed => exact ⟨[], .quiet rfl rfl rfl⟩
  | error => exact ⟨[], .quiet rfl rfl rfl⟩
  | ping => exact ⟨[], .quiet rfl rfl rfl⟩
  | pong => exact ⟨[], .quiet rfl rfl rfl⟩

end WsClient

end HftBot
