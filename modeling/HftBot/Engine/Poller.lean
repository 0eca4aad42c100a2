import HftBot.Core.Changes
import HftBot.Core.Utf8
import HftBot.Engine.Ticker
import HftBot.Feed.FixedPoint

/-!
# Market-data feed

`run_poll` asks for the open markets again and again and emits an event for every market whose
prices or volume are not what they were. The reader of the answers is left out: a listing holds what
it gives for the fields of one market.
-/

namespace HftBot

open HftBot.Core HftBot.Core.Utf8 HftBot.Wire HftBot.FixedPoint

namespace Poller

/-- The fields of one market of an answer, where they are strings. -/
structure Listing where
  ticker           : Option Bytes
  yesBidDollars    : Option (List Char)
  yesAskDollars    : Option (List Char)
  lastPriceDollars : Option (List Char)
  volumeFp         : Option (List Char)
deriving DecidableEq, Repr

/-- What comes back from one request: no response, a response that is not a success, or the markets
that could be read, each with the time at which it is looked at. -/
inductive Answer
  | transportError
  | httpError
  | markets (listings : List (Listing × UInt64))
deriving DecidableEq, Repr

structure Top where
  bid  : Int32
  ask  : Int32
  last : Int32
  vol  : Int64
deriving DecidableEq, Repr

/-- The nearest cent. -/
def e4ToCents (v : Int) : Int := (v + 50).tdiv 100

def priceCents (s : Option (List Char)) : Int32 :=
  match s.bind parsePriceE4 with
  | some e4 => .ofInt (e4ToCents e4)
  | none    => -1

def wholeContracts (s : Option (List Char)) : Int64 :=
  match s.bind parseCountFp with
  | some c => .ofInt (c.tdiv 100)
  | none   => -1

def Listing.top (l : Listing) : Top where
  bid  := priceCents l.yesBidDollars
  ask  := priceCents l.yesAskDollars
  last := priceCents l.lastPriceDollars
  vol  := wholeContracts l.volumeFp

end Poller

open Poller in
structure Poller where
  book : Bytes → Option Top := fun _ => none
  seq  : UInt64 := 0

namespace Poller

def event (ticker : Bytes) (t : Top) (now seq : UInt64) : MarketEvent :=
  { ({ kind := kEventTicker } : MarketEvent).setTicker ticker with
    yesBid    := t.bid
    yesAsk    := t.ask
    lastPrice := t.last
    volume    := t.vol
    tsNs      := now
    seq       := seq }

/-- One market of an answer. A market without a ticker is passed over. -/
def look (s : Poller) (l : Listing × UInt64) : Poller × List MarketEvent :=
  match l.1.ticker with
  | none        => (s, [])
  | some ticker =>
    if s.book ticker = some l.1.top then (s, [])
    else ({ book := Function.update s.book ticker (some l.1.top), seq := s.seq + 1 },
      [event ticker l.1.top l.2 (s.seq + 1)])

def lookAll : Poller → List (Listing × UInt64) → Poller × List MarketEvent
  | s, []      => (s, [])
  | s, l :: ls => ((lookAll (s.look l).1 ls).1, (s.look l).2 ++ (lookAll (s.look l).1 ls).2)

/-- One round of the loop. -/
def poll (s : Poller) : Answer → Poller × List MarketEvent
  | .transportError   => (s, [])
  | .httpError        => (s, [])
  | .markets listings => s.lookAll listings

/-- The events of a run. -/
def runPoll : Poller → List Answer → List MarketEvent
  | _, []           => []
  | s, a :: answers => (s.poll a).2 ++ runPoll (s.poll a).1 answers

/-! ### What was answered -/

/-- What an answer says about markets that have a ticker, in order. -/
def Answer.quoted : Answer → List (Bytes × Top)
  | .transportError   => []
  | .httpError        => []
  | .markets listings => listings.filterMap fun l => l.1.ticker.map (·, l.1.top)

/-- What the answers together say. -/
def quoted (answers : List Answer) : List (Bytes × Top) := answers.flatMap Answer.quoted

/-- What an event says. -/
def said (e : MarketEvent) : Bytes × Top :=
  (e.tickerView, { bid := e.yesBid, ask := e.yesAsk, last := e.lastPrice, vol := e.volume })

/-- The name of a market in an event. -/
def shown (c : Bytes × Top) : Bytes × Top := (c.1.take 39, c.2)

/-- No ticker has a zero byte. -/
def NoZero (cs : List (Bytes × Top)) : Prop := ∀ c ∈ cs, ∀ b ∈ c.1, b ≠ 0

lemma said_event {ticker : Bytes} (hticker : ∀ b ∈ ticker, b ≠ 0) (t : Top) (now seq : UInt64) :
    said (event ticker t now seq) = shown (ticker, t) := by
  simp only [said, shown, event, MarketEvent.tickerView, MarketEvent.setTicker]
  rw [takeWhile_fillTicker hticker]

/-- Marked as an event of this version. -/
def Marked (e : MarketEvent) : Prop := e.magic = kEventMagic ∧ e.version = kWireVersion

/-- The events of a round number the changes that its markets make, and say what they are. -/
structure Emits (s : Poller) (cs : List (Bytes × Top)) (s' : Poller) (es : List MarketEvent) :
    Prop where
  mark : ∀ e ∈ es, Marked e
  book : s'.book = table s.book cs
  said : NoZero cs → es.map said = (changes s.book cs).map shown
  seqs : es.map (·.seq) = (List.range' 1 es.length).map fun i => s.seq + UInt64.ofNat i
  seq  : s'.seq = s.seq + UInt64.ofNat es.length

lemma Emits.nil (s : Poller) : Emits s [] s [] :=
  ⟨nofun, rfl, fun _ => rfl, rfl, (UInt64.add_zero _).symm⟩

lemma Emits.append {s s' s'' : Poller} {cs cs' : List (Bytes × Top)} {es es' : List MarketEvent}
    (h : Emits s cs s' es) (h' : Emits s' cs' s'' es') :
    Emits s (cs ++ cs') s'' (es ++ es') := by
  constructor
  · exact List.forall_mem_append.2 ⟨h.mark, h'.mark⟩
  · rw [h'.book, h.book, table_append]
  · intro hzero
    rw [NoZero, List.forall_mem_append] at hzero
    rw [List.map_append, h.said hzero.1, h'.said hzero.2, h.book, changes_append, List.map_append]
  · rw [List.map_append, h.seqs, h'.seqs, h.seq, List.length_append, ← List.range'_append_1,
      List.map_append, Nat.add_comm 1, ← List.map_add_range', List.map_map]
    congr 1
    apply List.map_congr_left
    intro i _
    rw [Function.comp_apply, UInt64.ofNat_add, UInt64.add_assoc]
  · rw [h'.seq, h.seq, List.length_append, UInt64.ofNat_add, UInt64.add_assoc]

lemma emits_look (s : Poller) (l : Listing × UInt64) :
    Emits s (l.1.ticker.map (·, l.1.top)).toList (s.look l).1 (s.look l).2 := by
  rw [look.eq_def]
  cases hticker : l.1.ticker with
  | none => exact .nil s
  | some ticker =>
    dsimp only
    split_ifs with hsame
    · refine ⟨nofun, ?_, fun _ => ?_, rfl, (UInt64.add_zero _).symm⟩
      · simp [table, ← hsame]
      · simp [changes, hsame]
    · refine ⟨?_, rfl, fun hzero => ?_, rfl, rfl⟩
      · rw [List.forall_mem_singleton]
        exact ⟨rfl, rfl⟩
      · have hticker : ∀ b ∈ ticker, b ≠ 0 := hzero (ticker, l.1.top) (by simp)
        simp [changes, hsame, said_event hticker]

lemma emits_lookAll (s : Poller) (ls : List (Listing × UInt64)) :
    Emits s (Answer.markets ls).quoted (s.lookAll ls).1 (s.lookAll ls).2 := by
  induction ls generalizing s with
  | nil => exact .nil s
  | cons l ls ih =>
    have hquoted : (Answer.markets (l :: ls)).quoted =
        (l.1.ticker.map (·, l.1.top)).toList ++ (Answer.markets ls).quoted := by
      cases hticker : l.1.ticker <;> simp [Answer.quoted, hticker]
    rw [hquoted]
    exact (emits_look s l).append (ih _)

lemma emits_poll (s : Poller) (a : Answer) : Emits s a.quoted (s.poll a).1 (s.poll a).2 := by
  cases a with
  | transportError => exact .nil s
  | httpError => exact .nil s
  | markets ls => exact emits_lookAll s ls

lemma emits_runPoll (s : Poller) (answers : List Answer) :
    ∃ s', Emits s (quoted answers) s' (runPoll s answers) := by
  induction answers generalizing s with
  | nil => exact ⟨s, .nil s⟩
  | cons a answers ih =>
    obtain ⟨s', hrest⟩ := ih (s.poll a).1
    exact ⟨s', (emits_poll s a).append hrest⟩

/-- As long as they fit their field the numbers of the events are those from one on. -/
lemma numbers_runPoll {answers : List Answer} (hsmall : (runPoll {} answers).length < 2 ^ 64) :
    (runPoll {} answers).map (·.seq.toNat) = List.range' 1 (runPoll {} answers).length := by
  obtain ⟨s', hemits⟩ := emits_runPoll {} answers
  have hseqs := congrArg (List.map UInt64.toNat) hemits.seqs
  rw [List.map_map, List.map_map] at hseqs
  refine hseqs.trans ((List.map_congr_left fun i hi => ?_).trans (List.map_id _))
  rw [List.mem_range'_1] at hi
  have hlt : i < UInt64.size := by
    rw [UInt64.size]
    omega
  simp only [Function.comp_apply, UInt64.zero_add, id_eq]
  exact UInt64.toNat_ofNat_of_lt' hlt

/-! ### What a consumer knows -/

/-- No two of the tickers are shown under one name. -/
def ShownApart (cs : List (Bytes × Top)) : Prop :=
  ∀ c ∈ cs, ∀ c' ∈ cs, c.1.take 39 = c'.1.take 39 → c.1 = c'.1

/-- The events are numbered from one, whatever is answered. If no ticker has a zero byte and no two
are shown under one name, then together the events say of every market what the last answer that
lists it says, and none of them says again what the one before it said of its market. Neither a
failed request nor a market without a ticker leaves a trace. -/
theorem events_tell_answers (answers : List Answer) :
    ((runPoll {} answers).map (·.seq) =
      (List.range' 1 (runPoll {} answers).length).map UInt64.ofNat) ∧
    (NoZero (quoted answers) → ShownApart (quoted answers) →
      (∀ c ∈ quoted answers, table (fun _ => none) ((runPoll {} answers).map said) (c.1.take 39) =
        table (fun _ => none) (quoted answers) c.1) ∧
      ∀ before e after, runPoll {} answers = before ++ e :: after →
        table (fun _ => none) (before.map said) (said e).1 ≠ some (said e).2) := by
  obtain ⟨s', hemits⟩ := emits_runPoll {} answers
  constructor
  · rw [hemits.seqs]
    simp
  intro hzero hapart
  have hsub := changes_sublist (fun _ => none) (quoted answers)
  have hsaid := hemits.said hzero
  constructor
  · intro c hc
    rw [hsaid, ← table_changes (fun _ => none) (quoted answers)]
    refine table_rename rfl fun c' hc' heq => ?_
    exact hapart c' (hsub.mem hc') c hc heq
  · intro before e after hsplit
    rw [hsplit, List.map_append, List.map_cons] at hsaid
    obtain ⟨cs, cs', hchanges, hbefore, hcs'⟩ := List.append_eq_map_iff.1 hsaid
    obtain ⟨c, rest, rfl, hc, -⟩ := List.map_eq_cons_iff.1 hcs'
    have hnew := changes_new hchanges
    rw [hchanges] at hsub
    rw [← hbefore, ← hc]
    change table _ (cs.map fun c => (c.1.take 39, c.2)) (c.1.take 39) ≠ some c.2
    rw [table_rename (f := fun _ => none) rfl fun c' hc' heq => hapart c' ?_ c ?_ heq]
    · exact hnew
    · exact hsub.mem (by simp [hc'])
    · exact hsub.mem (by simp)

def listing (ticker : String) (yesBidDollars : Option String) : Listing × UInt64 :=
  ({ ticker := some ticker.toUTF8.data.toList, yesBidDollars := yesBidDollars.map String.toList,
     yesAskDollars := none, lastPriceDollars := none, volumeFp := some "12.00".toList }, 7)

/-- Two markets, of which one changes after a request has failed. -/
def twoRounds : List Answer :=
  [.markets [listing "A" (some "0.4250"), listing "B" none], .httpError,
    .markets [listing "A" (some "0.43"), listing "B" (some "x"), listing "B" (some "0.5")]]

theorem events_tell_answers_two :
    (runPoll {} twoRounds).map (·.seq) = [1, 2, 3] ∧
      table (fun _ => none) ((runPoll {} twoRounds).map said) [65] =
        some { bid := 43, ask := -1, last := -1, vol := 12 } := by
  have hquoted : quoted twoRounds =
      [([65], ⟨43, -1, -1, 12⟩), ([66], ⟨-1, -1, -1, 12⟩), ([65], ⟨43, -1, -1, 12⟩),
        ([66], ⟨-1, -1, -1, 12⟩), ([66], ⟨50, -1, -1, 12⟩)] := by
    decide +kernel
  have hzero : NoZero (quoted twoRounds) := by
    rw [hquoted]
    simp [NoZero]
  have hapart : ShownApart (quoted twoRounds) := by
    rw [hquoted]
    simp [ShownApart]
  obtain ⟨hseqs, htell⟩ := events_tell_answers twoRounds
  obtain ⟨htable, -⟩ := htell hzero hapart
  refine ⟨hseqs.trans (by decide +kernel), (htable ([65], ⟨43, -1, -1, 12⟩) ?_).trans ?_⟩
  · simp [hquoted]
  · rw [hquoted]
    simp [table]

end Poller

end HftBot
