import HftBot.Store.Completeness
import HftBot.Store.Replay
import HftBot.Store.Stored
import Mathlib.Algebra.Order.BigOperators.Group.List
import Mathlib.Algebra.Order.Group.Nat

/-!
# From the feed to a replay

The client, the recorder behind it and the log that the recorder leaves, together: the transport
thread gives the client a message and then hands the records that the message made to the recorder,
one call after another, while the writer thread and the thread that starts and stops it run beside
it. A replay of the files delivers what the live sink got, but for the frames that the queue
refused, and the loss markers of the log say how many those are.
-/

namespace HftBot

open HftBot.Core HftBot.Core.Utf8

namespace Pipeline

inductive Action
  | message (m : WsMessage)
  | call
  | producer
  | thread
  | start
  | stop
  | control
deriving DecidableEq

end Pipeline

/-- `calls` are the records of the last message that the recorder has not been given. -/
structure Pipeline (capacity : Nat) where
  client   : WsClient
  calls    : List RawRecord := []
  recorder : WsRecorder capacity := {}

namespace Pipeline

open WsRecorder (Entry)

variable {capacity : Nat}

/-- The call of the recorder that a record is for. -/
def callFor (rec : RawRecord) : WsRecorder.Action :=
  match rec.marker with
  | none      => .record rec
  | some kind => .mark kind rec.streamEpoch rec.sourceStreamId

section

variable (parse : Bytes → Option Json)

/-- The client takes a message when the calls for the last one have returned. -/
def step (p : Pipeline capacity) : Action → Pipeline capacity
  | .message m =>
    if p.calls = [] ∧ p.recorder.shared.producer = .idle then
      let client := p.client.onMessage (fun text => parse (encode text)) m
      { p with client, calls := client.records.drop p.client.records.length }
    else p
  | .call      =>
    match p.calls with
    | []          => p
    | rec :: rest =>
      if p.recorder.shared.producer = .idle then
        { p with calls := rest, recorder := p.recorder.step (callFor rec) }
      else p
  | .producer  => { p with recorder := p.recorder.step .producer }
  | .thread    => { p with recorder := p.recorder.step .thread }
  | .start     => { p with recorder := p.recorder.step .start }
  | .stop      => { p with recorder := p.recorder.step .stop }
  | .control   => { p with recorder := p.recorder.step .control }

/-- The state after a schedule, with a client that has been set up. -/
def after (capacity : Nat) (client : WsClient) (as : List Action) : Pipeline capacity :=
  run (step parse) { client } as

end

/-- What the queue is given for a record. -/
def entryOf (rec : RawRecord) : Entry := ⟨if rec.marker.isSome then .mark else .record, rec⟩

/-! ### What a step keeps -/

/-- The recorder has been given the records of the client but for the calls to come, and the sink
what they decode to. -/
structure Linked (parse : Bytes → Option Json) (p : Pipeline capacity) : Prop where
  handed     : p.recorder.shared.history.map (·.1) ++ p.calls.map entryOf =
    p.client.records.map entryOf
  events     : p.client.events =
    p.client.records.filterMap (WsClient.delivered fun text => parse (encode text))
  recordable : ∀ rec ∈ p.client.records, Recordable rec
  epoch      : p.client.epoch < 2 ^ 32

lemma drain_history (s : WsRecorder.Shared capacity) (d : WsRecorder.Drain) :
    (s.drain d).1.history = s.history := by
  cases d with
  | pop =>
    rcases s.ring.tryPop_cases with ⟨e, ring, h, -⟩ | ⟨h, -⟩ <;> simp [WsRecorder.Shared.drain, h]
  | _ => rfl

/-- Only calls of the producer are pushes. -/
lemma step_history (r : WsRecorder capacity) {a : WsRecorder.Action}
    (ha : a = .producer ∨ a = .thread ∨ a = .start ∨ a = .stop ∨ a = .control) :
    (r.step a).shared.history = r.shared.history := by
  rcases ha with rfl | rfl | rfl | rfl | rfl
  · cases hp : r.shared.producer <;>
      simp [WsRecorder.step, WsRecorder.Shared.produce, WsRecorder.Shared.count, hp]
  · simp only [WsRecorder.step, WsRecorder.threadStep]
    split <;> first | rfl | exact drain_history _ _
  · simp only [WsRecorder.step, WsRecorder.start]
    split_ifs <;> rfl
  · simp only [WsRecorder.step, WsRecorder.stop]
    split_ifs <;> rfl
  · simp only [WsRecorder.step, WsRecorder.controlStep]
    split
    · rfl
    · split_ifs <;> rfl
    · exact drain_history _ _

/-- A call is a push of what the record is for. -/
lemma call_history (r : WsRecorder capacity) {rec : RawRecord} (hrec : Recordable rec)
    (hidle : r.shared.producer = .idle) :
    (r.step (callFor rec)).shared.history.map (·.1) =
      r.shared.history.map (·.1) ++ [entryOf rec] := by
  have hpush : ∀ e : Entry, (r.shared.push e).2.history.map (·.1) =
      r.shared.history.map (·.1) ++ [e] := by
    intro e
    simp [WsRecorder.Shared.push]
  cases hmarker : rec.marker with
  | none =>
    simp only [callFor, hmarker, WsRecorder.step, WsRecorder.Shared.produce, hidle, if_true,
      WsRecorder.Shared.record]
    rw [hpush, entryOf, hmarker]
    rfl
  | some kind =>
    obtain ⟨-, heq⟩ := hrec.marker kind hmarker
    simp only [callFor, hmarker, WsRecorder.step, WsRecorder.Shared.produce, hidle, if_true,
      WsRecorder.Shared.mark]
    rw [hpush, ← heq, entryOf, hmarker]
    rfl

variable {parse : Bytes → Option Json} {p : Pipeline capacity}

lemma Linked.message (h : Linked parse p) (hcalls : p.calls = []) (m : WsMessage) :
    Linked parse
      { p with
        client := p.client.onMessage (fun text => parse (encode text)) m
        calls  := (p.client.onMessage (fun text => parse (encode text)) m).records.drop
          p.client.records.length } := by
  obtain ⟨new, hnew⟩ := WsClient.onMessage_adds (fun text => parse (encode text)) p.client m
  have hhanded := h.handed
  rw [hcalls, List.map_nil, List.append_nil] at hhanded
  refine ⟨?_, ?_, ?_, hnew.epoch h.epoch⟩
  · rw [hnew.records, List.drop_left, List.map_append, hhanded]
  · rw [hnew.records, hnew.events, List.filterMap_append, h.events]
  · intro rec hrec
    rw [hnew.records] at hrec
    rcases List.mem_append.1 hrec with hrec | hrec
    · exact h.recordable rec hrec
    · exact hnew.recordable h.epoch rec hrec

lemma Linked.call (h : Linked parse p) {rec : RawRecord} {rest : List RawRecord}
    (hcalls : p.calls = rec :: rest) (hidle : p.recorder.shared.producer = .idle) :
    Linked parse { p with calls := rest, recorder := p.recorder.step (callFor rec) } := by
  have hhanded := h.handed
  rw [hcalls, List.map_cons] at hhanded
  have hrec : Recordable rec := by
    -- the call is for a record of the client
    have hmem : entryOf rec ∈ p.client.records.map entryOf := by
      rw [← hhanded]
      simp
    obtain ⟨rec', hrec', heq⟩ := List.mem_map.1 hmem
    obtain rfl : rec' = rec := congrArg Entry.record heq
    exact h.recordable rec' hrec'
  refine ⟨?_, h.events, h.recordable, h.epoch⟩
  rw [call_history p.recorder hrec hidle, List.append_assoc]
  exact hhanded

lemma Linked.recorder (h : Linked parse p) {a : WsRecorder.Action}
    (ha : a = .producer ∨ a = .thread ∨ a = .start ∨ a = .stop ∨ a = .control) :
    Linked parse { p with recorder := p.recorder.step a } := by
  refine ⟨?_, h.events, h.recordable, h.epoch⟩
  rw [step_history p.recorder ha]
  exact h.handed

lemma Linked.step (h : Linked parse p) (a : Action) : Linked parse (p.step parse a) := by
  cases a with
  | message m =>
    simp only [Pipeline.step]
    split_ifs with hready
    · exact h.message hready.1 m
    · exact h
  | call =>
    cases hcalls : p.calls with
    | nil => simpa only [Pipeline.step, hcalls] using h
    | cons rec rest =>
      simp only [Pipeline.step, hcalls]
      split_ifs with hidle
      · exact h.call hcalls hidle
      · exact h
  | producer => exact h.recorder (by simp)
  | thread => exact h.recorder (by simp)
  | start => exact h.recorder (by simp)
  | stop => exact h.recorder (by simp)
  | control => exact h.recorder (by simp)

/-- A client that has been set up and has seen nothing yet. -/
structure Fresh (client : WsClient) : Prop where
  records : client.records = []
  events  : client.events = []
  epoch   : client.epoch < 2 ^ 32

lemma linked_after {client : WsClient} (h : Fresh client) (as : List Action) :
    Linked parse (after parse capacity client as) := by
  apply run_preserves fun p a (h : Linked parse p) => h.step a
  exact ⟨by simp [h.records], by simp [h.records, h.events], by simp [h.records], h.epoch⟩

/-! ### The recorder in the pipeline -/

/-- The recorder makes a run of its own. -/
lemma exists_recorder_run (capacity : Nat) (parse : Bytes → Option Json) (client : WsClient) (as : List Action) :
    ∃ bs, (after parse capacity client as).recorder = WsRecorder.after capacity bs := by
  induction as using List.reverseRecOn with
  | nil => exact ⟨[], rfl⟩
  | append_singleton as a ih =>
    obtain ⟨bs, hbs⟩ := ih
    have hstep : (after parse capacity client (as ++ [a])) =
        (after parse capacity client as).step parse a := by
      simp [after]
    -- the recorder stands still or takes one step
    have hmoves : ((after parse capacity client as).step parse a).recorder =
          (after parse capacity client as).recorder ∨
        ∃ b, ((after parse capacity client as).step parse a).recorder =
          (after parse capacity client as).recorder.step b := by
      cases a with
      | message m =>
        left
        simp only [step]
        split_ifs <;> rfl
      | call =>
        simp only [step]
        split
        · exact .inl rfl
        · split_ifs
          · exact .inr ⟨_, rfl⟩
          · exact .inl rfl
      | producer => exact .inr ⟨.producer, rfl⟩
      | thread => exact .inr ⟨.thread, rfl⟩
      | start => exact .inr ⟨.start, rfl⟩
      | stop => exact .inr ⟨.stop, rfl⟩
      | control => exact .inr ⟨.control, rfl⟩
    rw [hstep]
    rcases hmoves with hsame | ⟨b, hb⟩
    · exact ⟨bs, hsame.trans hbs⟩
    · exact ⟨bs ++ [b], by rw [hb, hbs]; simp [WsRecorder.after]⟩

/-- A run ends: `stop` comes after the last call has returned, and returns. -/
structure Ends (parse : Bytes → Option Json) (capacity : Nat) (client : WsClient)
    (before rest : List Action) : Prop where
  running  : (after parse capacity client before).recorder.running = true
  producer : (after parse capacity client before).recorder.shared.producer = .idle
  calls    : (after parse capacity client before).calls = []
  quiet    : ∀ a ∈ rest, a = .thread ∨ a = .control
  returned : (after parse capacity client (before ++ .stop :: rest)).recorder.control = .idle

variable (parse) in
/-- Once no call is made, the recorder runs alone. -/
lemma run_quiet (p : Pipeline capacity) {rest : List Action}
    (hrest : ∀ a ∈ rest, a = .thread ∨ a = .control) :
    ∃ bs : List WsRecorder.Action, (∀ b ∈ bs, b = .thread ∨ b = .control) ∧
      run (step parse) p rest = { p with recorder := run WsRecorder.step p.recorder bs } := by
  induction rest generalizing p with
  | nil => exact ⟨[], by simp, rfl⟩
  | cons a rest ih =>
    obtain ⟨ha, hrest⟩ := List.forall_mem_cons.1 hrest
    obtain ⟨bs, hbs, heq⟩ := ih (p.step parse a) hrest
    rcases ha with rfl | rfl
    · exact ⟨.thread :: bs, by simpa using hbs, by rw [run_cons, heq]; rfl⟩
    · exact ⟨.control :: bs, by simpa using hbs, by rw [run_cons, heq]; rfl⟩

/-- In the end no call is left, and the recorder has come to an end of its own. -/
lemma Ends.recorder {client : WsClient} {before rest : List Action}
    (h : Ends parse capacity client before rest) :
    (after parse capacity client (before ++ .stop :: rest)).calls = [] ∧
      ∃ bs cs, WsRecorder.Ends capacity bs cs ∧
        (after parse capacity client (before ++ .stop :: rest)).recorder =
          WsRecorder.after capacity (bs ++ .stop :: cs) := by
  obtain ⟨bs, hbs⟩ := exists_recorder_run capacity parse client before
  obtain ⟨cs, hcs, heq⟩ := run_quiet parse
    ((after parse capacity client before).step parse .stop) h.quiet
  have hafter : after parse capacity client (before ++ .stop :: rest) =
      run (step parse) ((after parse capacity client before).step parse .stop) rest := by
    simp [after]
  have hrecorder : (after parse capacity client (before ++ .stop :: rest)).recorder =
      WsRecorder.after capacity (bs ++ .stop :: cs) := by
    rw [hafter, heq]
    simp [step, hbs, WsRecorder.after]
  refine ⟨by rw [hafter, heq]; exact h.calls, bs, cs, ⟨?_, ?_, hcs, ?_⟩, hrecorder⟩
  · rw [← hbs]
    exact h.running
  · rw [← hbs]
    exact h.producer
  · rw [← hrecorder]
    exact h.returned

end Pipeline

/-! ### What the log says -/

namespace WsRecorder

variable {capacity : Nat}

lemma produce_log (s : Shared capacity) (a : Action) : (s.produce a).log = s.log := by
  cases a with
  | record rec =>
    simp only [Shared.produce]
    split_ifs <;> rfl
  | mark kind epoch sid =>
    simp only [Shared.produce]
    split_ifs <;> rfl
  | producer => cases hp : s.producer <;> simp [Shared.produce, Shared.count, hp]
  | _ => rfl

/-- What says that frames are lost is a marker of `emit_pending_loss`. -/
def LossMarked (log : List Entry) : Prop :=
  ∀ e ∈ log, e.loss? ≠ none → ∃ n, e = Shared.lossMarker n

lemma LossMarked.append {log : List Entry} (h : LossMarked log) {e : Entry}
    (he : e.loss? ≠ none → ∃ n, e = Shared.lossMarker n) : LossMarked (log ++ [e]) := by
  intro e' he'
  rcases List.mem_append.1 he' with he' | he'
  · exact h e' he'
  · rw [List.mem_singleton.1 he']
    exact he

lemma LossMarked.drain {s : Shared capacity} (h : LossMarked s.log) {d : Drain}
    (haccounted : Accounted s (some d)) : LossMarked (s.drain d).1.log := by
  cases d with
  | pop =>
    rcases s.ring.tryPop_cases with ⟨e, ring, hpop, -⟩ | ⟨hpop, -⟩ <;>
      simpa [Shared.drain, hpop] using h
  | write e =>
    refine h.append fun he => absurd (haccounted.loss?_eq_none ?_) he
    rw [← haccounted.records]
    simp [Drain.held]
  | exchange => exact h
  | writeLoss lost => exact h.append fun _ => ⟨lost, rfl⟩

variable (capacity) in
lemma lossMarked_run (as : List Action) : LossMarked (after capacity as).shared.log := by
  have h : Accounted (after capacity as).shared (after capacity as).drain? ∧
      LossMarked (after capacity as).shared.log := by
    refine run_shared_inv (A := fun _ _ _ => True)
      (P := fun s d => Accounted s d ∧ LossMarked s.log) ?_ ?_ ?_ ?_
      (along_iff_forall_split.2 fun _ _ _ _ => trivial)
    · rintro s d a ⟨haccounted, hlog⟩ -
      exact ⟨haccounted.produce a, by rwa [produce_log]⟩
    · rintro s d ⟨haccounted, hlog⟩
      exact ⟨haccounted.drain, hlog.drain haccounted⟩
    · rintro s ⟨haccounted, hlog⟩
      exact ⟨⟨haccounted.records, haccounted.recorded, haccounted.losses, haccounted.origin⟩, hlog⟩
    · exact ⟨accounted_run [], by simp [LossMarked]⟩
  exact h.2

/-! ### What the queue refused -/

section

variable {history : List (Entry × Bool)}

/-- The frames that were accepted are those that were pushed without those that were refused. -/
lemma frames_accepted (history : List (Entry × Bool)) :
    (frames (accepted history)).Sublist (frames (history.map (·.1))) ∧
      (frames (history.map (·.1))).length =
        (frames (accepted history)).length + rejectedFrames history := by
  induction history using List.reverseRecOn with
  | nil => simp [frames, accepted, rejectedFrames]
  | append_singleton history p ih =>
    obtain ⟨e, answer⟩ := p
    obtain ⟨hsub, hlength⟩ := ih
    cases answer with
    | true =>
      refine ⟨by simpa using hsub, ?_⟩
      simp [hlength, Nat.add_right_comm]
    | false =>
      refine ⟨by simpa using hsub.trans (List.sublist_append_left _ _), ?_⟩
      simp [hlength, Nat.add_assoc]

end

/-- What a run leaves once it has ended. -/
lemma Ends.log {before rest : List Action} (h : Ends capacity before rest) :
    kept (after capacity (before ++ .stop :: rest)).shared.log =
        accepted (after capacity (before ++ .stop :: rest)).shared.history ∧
      lossSum (after capacity (before ++ .stop :: rest)).shared.log =
        rejectedFrames (after capacity (before ++ .stop :: rest)).shared.history := by
  obtain ⟨hring, hpending, hproducer, hdrain⟩ := h.nothing_left
  obtain ⟨hrecords, -, hlosses, -⟩ := accounted_run (before ++ .stop :: rest)
  rw [hdrain, hring] at hrecords
  rw [hdrain, hpending, hproducer] at hlosses
  exact ⟨by simpa using hrecords, hlosses⟩

end WsRecorder

/-! ### What a replay makes of the log -/

namespace Pipeline

open WsRecorder (Entry)
open Storage (StoredAs lossOf lossTotal decodeStored)

variable {parse : Bytes → Option Json}

/-- An entry of the log: a record of the client, or a loss. -/
def Logged (e : Entry) : Prop :=
  (∃ rec, Recordable rec ∧ e = entryOf rec) ∨
    ∃ n < 2 ^ 64, e = WsRecorder.Shared.lossMarker n

lemma encode_ne_loss {kind : String} (h : kind ≠ "loss") : encode kind.toList ≠ ascii "loss" := by
  have hloss : ascii "loss" = encode "loss".toList := by decide
  rw [hloss]
  exact fun heq => h (String.toList_injective (encode_inj heq))

variable (parse) in
lemma Logged.stored {e : Entry} (h : Logged e) {rec : Storage.RawRecord}
    (hrec : StoredAs e.record rec) :
    Storage.ReplaySource.event? (decodeStored parse) rec =
        e.frame?.bind (KalshiRawDecoder.decode fun text => parse (encode text)) ∧
      (if rec.marker.isSome then lossOf rec else 0) = e.loss?.getD 0 := by
  obtain ⟨mono, wall, rfl⟩ := hrec
  rcases h with ⟨rec, hrec, rfl⟩ | ⟨n, hn, rfl⟩
  · cases hmarker : rec.marker with
    | none =>
      constructor
      · simpa [Storage.ReplaySource.event?, entryOf, hmarker, Entry.frame?, Storage.stored] using
          Storage.decodeStored_stored parse hrec mono wall
      · simp [entryOf, hmarker, Entry.loss?, Storage.stored]
    | some kind =>
      constructor
      · simp [Storage.ReplaySource.event?, entryOf, hmarker, Entry.frame?, Storage.stored]
      · simp [entryOf, hmarker, Entry.loss?, Storage.stored, lossOf,
          encode_ne_loss (hrec.marker kind hmarker).1]
  · have hloss : encode "loss".toList = ascii "loss" := by decide
    refine ⟨rfl, ?_⟩
    simp only [WsRecorder.Shared.lossMarker, Storage.stored, Option.map_some, Option.isSome_some,
      if_true, lossOf, hloss, Option.getD_some, UInt64.toNat_ofNat_of_lt' hn]
    rfl

variable (parse) in
/-- The log as it is stored: its events and its losses. -/
lemma stored_log {log : List Entry} {recs : List Storage.RawRecord} (hlog : ∀ e ∈ log, Logged e)
    (hrecs : List.Forall₂ (fun e rec => StoredAs e.record rec) log recs) :
    recs.filterMap (Storage.ReplaySource.event? (decodeStored parse)) =
        (WsRecorder.frames log).filterMap
          (KalshiRawDecoder.decode fun text => parse (encode text)) ∧
      lossTotal (recs.filter (·.marker.isSome)) = WsRecorder.lossSum log ∧
      ∀ rec ∈ recs, rec.Storable := by
  induction hrecs with
  | nil => simp [WsRecorder.frames, WsRecorder.lossSum, lossTotal]
  | @cons e rec log recs hrec _ ih =>
    obtain ⟨he, hlog⟩ := List.forall_mem_cons.1 hlog
    obtain ⟨hevents, hlosses, hstorable⟩ := ih hlog
    obtain ⟨hevent, hloss⟩ := he.stored parse hrec
    refine ⟨?_, ?_, List.forall_mem_cons.2 ⟨?_, hstorable⟩⟩
    · rw [List.filterMap_cons, hevent, hevents]
      cases hframe : e.frame? with
      | none => simp [WsRecorder.frames, hframe]
      | some frame =>
        simp only [WsRecorder.frames, List.filterMap_cons, hframe, Option.bind_some]
    · cases hmarker : rec.marker.isSome with
      | false =>
        rw [hmarker] at hloss
        simp [hmarker, hlosses, WsRecorder.lossSum, ← hloss]
      | true =>
        rw [hmarker, if_pos rfl] at hloss
        rw [lossTotal] at hlosses
        simp [hmarker, lossTotal, WsRecorder.lossSum, hlosses, hloss]
    · obtain ⟨mono, wall, rfl⟩ := hrec
      exact Storage.storable_stored mono wall e.record

lemma length_filterMap_le {α β : Type} (f : α → Option β) {l l' : List α} (h : l.Sublist l') :
    (l'.filterMap f).length + l.length ≤ (l.filterMap f).length + l'.length := by
  induction h with
  | slnil => exact Nat.le_refl _
  | cons a _ ih => cases hf : f a <;> simp [hf] <;> omega
  | cons_cons a _ ih => cases hf : f a <;> simp [hf] <;> omega

/-- What the sink gets are the frames of the calls, decoded. -/
lemma filterMap_delivered (D : List Char → Option Json) (recs : List RawRecord) :
    recs.filterMap (WsClient.delivered D) =
      (WsRecorder.frames (recs.map entryOf)).filterMap (KalshiRawDecoder.decode D) := by
  rw [WsRecorder.frames, List.filterMap_map, List.filterMap_filterMap]
  refine List.filterMap_congr fun rec _ => ?_
  cases hmarker : rec.marker <;> simp [WsClient.delivered, entryOf, Entry.frame?, hmarker]

/-- The entries of the log, once nothing is on its way. -/
lemma Linked.logged {capacity : Nat} {p : Pipeline capacity} (h : Linked parse p)
    (hcalls : p.calls = [])
    (hkept : WsRecorder.kept p.recorder.shared.log =
      WsRecorder.accepted p.recorder.shared.history)
    (hmarked : WsRecorder.LossMarked p.recorder.shared.log)
    (hlost : WsRecorder.lossSum p.recorder.shared.log < 2 ^ 64) :
    ∀ e ∈ p.recorder.shared.log, Logged e := by
  intro e he
  by_cases hloss : e.loss? = none
  · have haccepted : e ∈ WsRecorder.accepted p.recorder.shared.history := by
      rw [← hkept]
      exact List.mem_filter.2 ⟨he, by simp [hloss]⟩
    obtain ⟨q, hq, rfl⟩ := List.mem_map.1 haccepted
    have hcall : q.1 ∈ p.client.records.map entryOf := by
      rw [← h.handed, hcalls, List.map_nil, List.append_nil]
      exact List.mem_map_of_mem (List.mem_of_mem_filter hq)
    obtain ⟨rec, hrec, heq⟩ := List.mem_map.1 hcall
    exact .inl ⟨rec, h.recordable rec hrec, heq.symm⟩
  · obtain ⟨n, rfl⟩ := hmarked e he hloss
    have hle : n ≤ WsRecorder.lossSum p.recorder.shared.log :=
      List.single_le_sum (by simp) n (List.mem_map.2 ⟨_, he, rfl⟩)
    exact .inr ⟨n, Nat.lt_of_le_of_lt hle hlost, rfl⟩

/-- Whatever the schedule and wherever the log is cut, a replay of the files delivers events of the
live sink in their order, and what it misses is at most what the markers say is lost; so it misses
nothing when they say that nothing is. -/
theorem replay_of_run {client : WsClient} (hfresh : Fresh client) {capacity : Nat}
    {before rest : List Action} (hends : Ends parse capacity client before rest)
    {lineParse : Bytes → Option JsonText.Value} (hparse : Storage.Conforms lineParse)
    (maxBytes : Nat) {recs : List Storage.RawRecord}
    (hrecs : List.Forall₂ (fun e rec => StoredAs e.record rec)
      (after parse capacity client (before ++ .stop :: rest)).recorder.shared.log recs)
    (hlost : WsRecorder.rejectedFrames
      (after parse capacity client (before ++ .stop :: rest)).recorder.shared.history < 2 ^ 64) :
    let p := after parse capacity client (before ++ .stop :: rest)
    let s := Storage.ReplaySource.startAll lineParse (decodeStored parse) {}
      ((Storage.RawLogWriter.new (fun _ => []) maxBytes).writeAll recs)
    s.events.Sublist p.client.events ∧
      p.client.events.length ≤ s.events.length + lossTotal s.annotated ∧
      lossTotal s.annotated = WsRecorder.rejectedFrames p.recorder.shared.history ∧
      (lossTotal s.annotated = 0 → s.events = p.client.events) := by
  intro p s
  have hlinked : Linked parse p := linked_after hfresh (before ++ .stop :: rest)
  obtain ⟨hcalls, bs, cs, hrecorder, hp⟩ := hends.recorder
  obtain ⟨hkept, hlosses⟩ := hrecorder.log
  have hmarked := WsRecorder.lossMarked_run capacity (bs ++ .stop :: cs)
  rw [← hp] at hkept hlosses hmarked
  have hlogged : ∀ e ∈ p.recorder.shared.log, Logged e :=
    hlinked.logged hcalls hkept hmarked (hlosses.trans_lt hlost)
  obtain ⟨hevents, htotal, hstorable⟩ := stored_log parse hlogged hrecs
  have hs : s = recs.foldl (Storage.ReplaySource.take (decodeStored parse)) {} := by
    have hfilter : recs.filter (·.Storable) = recs := by simpa using hstorable
    rw [← hfilter]
    exact Storage.ReplaySource.startAll_writeAll hparse rfl maxBytes recs
  rw [Storage.ReplaySource.foldl_take_eq] at hs
  -- the replay and the live sink decode the frames of the log and those of all calls
  have hreplay : s.events = (WsRecorder.frames (WsRecorder.accepted
      p.recorder.shared.history)).filterMap
        (KalshiRawDecoder.decode fun text => parse (encode text)) := by
    rw [hs, ← hkept, WsRecorder.frames_kept, ← hevents]
    rfl
  have hlive : p.client.events = (WsRecorder.frames (p.recorder.shared.history.map
      (·.1))).filterMap (KalshiRawDecoder.decode fun text => parse (encode text)) := by
    have hhanded := hlinked.handed
    rw [hcalls, List.map_nil, List.append_nil] at hhanded
    rw [hlinked.events, filterMap_delivered, hhanded]
  have hannotated : lossTotal s.annotated =
      WsRecorder.rejectedFrames p.recorder.shared.history := by
    rw [hs, ← hlosses, ← htotal]
    rfl
  obtain ⟨hsub, hlength⟩ := WsRecorder.frames_accepted p.recorder.shared.history
  have hmissing := length_filterMap_le
    (KalshiRawDecoder.decode fun text => parse (encode text)) hsub
  rw [← hreplay, ← hlive, hlength, ← hannotated] at hmissing
  have hsublist : s.events.Sublist p.client.events := by
    rw [hreplay, hlive]
    exact hsub.filterMap _
  have hle : p.client.events.length ≤ s.events.length + lossTotal s.annotated := by omega
  refine ⟨hsublist, hle, hannotated, fun hzero => ?_⟩
  exact hsublist.eq_of_length_le (by rwa [hzero] at hle)

/-! A queue of one, given two trades before the writer starts. -/

def tradeText : List Char :=
  ("\x7b\"type\":\"trade\",\"sid\":2,\"msg\":\x7b\"market_ticker\":\"KX\"," ++
    "\"yes_price_dollars\":\"0.4200\",\"count_fp\":\"3.00\"\x7d\x7d").toList

def tradeJson : Json :=
  .obj [("type".toList, .str "trade".toList), ("sid".toList, .num "2".toList),
    ("msg".toList, .obj [("market_ticker".toList, .str "KX".toList),
      ("yes_price_dollars".toList, .str "0.4200".toList),
      ("count_fp".toList, .str "3.00".toList)])]

def parseTrade (text : Bytes) : Option Json :=
  if text = encode tradeText then some tradeJson else none

def twoTrades : List Action :=
  [.message (.text tradeText), .call, .producer, .message (.text tradeText), .call, .producer,
    .producer, .start]

def windDown : List Action :=
  [.thread, .control, .control, .control, .control, .control, .control]

/-- The schedule run once: where it leaves the recorder, what was refused, what the sink got. -/
lemma twoTrades_run :
    ((after parseTrade 1 {} twoTrades).recorder.running = true ∧
      (after parseTrade 1 {} twoTrades).recorder.shared.producer = .idle ∧
      (after parseTrade 1 {} twoTrades).calls = []) ∧
    (after parseTrade 1 {} (twoTrades ++ .stop :: windDown)).recorder.control = .idle ∧
    WsRecorder.rejectedFrames
      (after parseTrade 1 {} (twoTrades ++ .stop :: windDown)).recorder.shared.history = 1 ∧
    (after parseTrade 1 {} (twoTrades ++ .stop :: windDown)).client.events.length = 2 := by
  decide +kernel

lemma ends_twoTrades : Ends parseTrade 1 {} twoTrades windDown := by
  obtain ⟨⟨hrunning, hproducer, hcalls⟩, hreturned, -⟩ := twoTrades_run
  exact ⟨hrunning, hproducer, hcalls, by decide, hreturned⟩

lemma fresh_default : Fresh {} := ⟨rfl, rfl, by decide⟩

lemma missed_one {α : Type} {l l' : List α} {total refused : Nat} (hrefused : refused = 1)
    (hlive : l'.length = 2)
    (h : l.Sublist l' ∧ l'.length ≤ l.length + total ∧ total = refused ∧ (total = 0 → l = l')) :
    l.Sublist l' ∧ total = 1 ∧ 1 ≤ l.length := by
  obtain ⟨hsub, hle, htotal, -⟩ := h
  refine ⟨hsub, htotal.trans hrefused, ?_⟩
  rw [htotal, hrefused, hlive] at hle
  exact Nat.le_of_succ_le_succ hle

lemma storedAs_map (mono wall : Int64) (log : List Entry) :
    List.Forall₂ (fun e rec => StoredAs e.record rec) log
      (log.map fun e => Storage.stored mono wall e.record) := by
  rw [List.forall₂_map_right_iff, List.forall₂_same]
  exact fun e _ => ⟨mono, wall, rfl⟩

/-- The second trade is refused, and the log says so. -/
theorem replay_of_run_two_trades :
    let p := after parseTrade 1 {} (twoTrades ++ .stop :: windDown)
    let s := Storage.ReplaySource.startAll JsonText.read (decodeStored parseTrade) {}
      ((Storage.RawLogWriter.new (fun _ => []) 64).writeAll
        (p.recorder.shared.log.map fun e => Storage.stored 7 8 e.record))
    s.events.Sublist p.client.events ∧ lossTotal s.annotated = 1 ∧ 1 ≤ s.events.length := by
  obtain ⟨-, -, hrefused, hlive⟩ := twoTrades_run
  exact missed_one hrefused hlive (replay_of_run fresh_default ends_twoTrades
    Storage.conforms_read 64 (storedAs_map 7 8 _)
    (Nat.lt_of_le_of_lt (Nat.le_of_eq hrefused) (by decide)))

end Pipeline

end HftBot
