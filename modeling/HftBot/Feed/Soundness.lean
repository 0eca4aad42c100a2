import HftBot.Core.Run
import HftBot.Feed.OrderBookProperties

/-!
# Book soundness under message loss

How the manager's counters and members follow what arrives, and which arrivals keep every tradeable
book equal to the server's.
-/

namespace HftBot

open HftBot.Core Function

/-! ### Deliveries -/

/-- The last message that arrived on a subscription. -/
def lastIndex (arrivals : List Arrival) (sid : Nat) : Option Nat :=
  (arrivals.filterMap (Arrival.indexOn sid)).getLast?

@[simp] lemma lastIndex_bind (arrivals : List Arrival) (e : EntityId) (sid : Nat) :
    lastIndex (arrivals ++ [.bind e]) sid = lastIndex arrivals sid := by
  simp [lastIndex, Arrival.indexOn]

lemma lastIndex_message (arrivals : List Arrival) (sid i sid' : Nat) :
    lastIndex (arrivals ++ [.message sid i]) sid' =
      if sid = sid' then some i else lastIndex arrivals sid' := by
  by_cases h : sid = sid' <;> simp [lastIndex, Arrival.indexOn, h]

namespace Delivered

variable {feed : Feed} {arrivals : List Arrival}

lemma of_append {later : List Arrival} (h : Delivered feed (arrivals ++ later)) :
    Delivered feed arrivals := by
  intro sid
  obtain ⟨hsorted, hlt⟩ := h sid
  rw [List.filterMap_append] at hsorted hlt
  exact ⟨(List.pairwise_append.1 hsorted).1, fun i hi => hlt i (List.mem_append_left _ hi)⟩

lemma message_lt {sid i : Nat} (h : Delivered feed (arrivals ++ [.message sid i])) :
    i < (feed.msgs sid).length := by
  apply (h sid).2 i
  simp [Arrival.indexOn]

lemma lastIndex_lt {sid i j : Nat} (h : Delivered feed (arrivals ++ [.message sid i]))
    (hj : j ∈ lastIndex arrivals sid) : j < i := by
  have hsorted := (h sid).1
  rw [List.filterMap_append] at hsorted
  apply (List.pairwise_append.1 hsorted).2.2 j (List.mem_of_getLast? hj) i
  simp [Arrival.indexOn]

end Delivered

/-- How the manager follows what has arrived: a counter is one ahead of the last message, members
live on the stream's subscription, and a tradeable market is a member of a stream in use. -/
structure Tracks (feed : Feed) (arrivals : List Arrival) (m : OrderBookManager) : Prop where
  counter : ∀ sid s, m.streams sid = some s → s.seen →
    ∃ i ∈ lastIndex arrivals sid, s.expected = SidStream.nextSeq (feed.first sid + i)
  members : ∀ sid s, m.streams sid = some s → ∀ e ∈ s.members, feed.home e = sid
  valid   : ∀ e b, m.books e = some b → b.valid →
    ∃ s, m.streams (feed.home e) = some s ∧ s.seen ∧ e ∈ s.members

namespace Tracks

variable {feed : Feed} {arrivals : List Arrival} {m : OrderBookManager} {sid i : Nat}

/-- A message in order is not behind the counter of its stream. -/
lemma expected_le (h : Tracks feed arrivals m) (epoch : Nat)
    (hd : Delivered feed (arrivals ++ [.message sid i]))
    (hseen : (m.stream sid epoch).seen) :
    (m.stream sid epoch).expected ≤ feed.first sid + i := by
  cases hs : m.streams sid with
  | none => simp [OrderBookManager.stream, hs] at hseen
  | some s =>
    rw [OrderBookManager.stream, hs] at hseen ⊢
    obtain ⟨j, hj, hexp⟩ := h.counter sid s hs hseen
    have hlt := hd.lastIndex_lt hj
    calc s.expected = (feed.first sid + j + 1) % 2 ^ 64 := hexp
      _ ≤ feed.first sid + j + 1 := Nat.mod_le _ _
      _ ≤ feed.first sid + i := by omega

lemma stream_members (h : Tracks feed arrivals m) (epoch : Nat) :
    ∀ e ∈ (m.stream sid epoch).members, feed.home e = sid := by
  cases hs : m.streams sid with
  | none => simp [OrderBookManager.stream, hs]
  | some s =>
    rw [OrderBookManager.stream, hs]
    exact h.members sid s hs

/-- The manager still follows after the stream of the arriving message has moved, members of that
subscription have joined it, and books that are valid were so before or have joined. -/
lemma advance {m' : OrderBookManager} (h : Tracks feed arrivals m) (epoch : Nat)
    (joined : Finset EntityId) (hjoined : ∀ e ∈ joined, feed.home e = sid)
    (hstreams : m'.streams = update m.streams sid (some
      { (m.stream sid epoch).advance (feed.first sid + i) with
        members := joined ∪ (m.stream sid epoch).members }))
    (hbooks : ∀ e b, m'.books e = some b → b.valid →
      e ∈ joined ∨ ∃ b₀, m.books e = some b₀ ∧ b₀.valid) :
    Tracks feed (arrivals ++ [.message sid i]) m' where
  counter sid' s hs hseen := by
    rw [hstreams] at hs
    rw [lastIndex_message]
    by_cases hsid : sid' = sid
    · subst hsid
      rw [update_self] at hs
      cases hs
      exact ⟨i, by simp, rfl⟩
    · rw [update_of_ne hsid] at hs
      rw [if_neg (Ne.symm hsid)]
      exact h.counter sid' s hs hseen
  members sid' s hs e he := by
    rw [hstreams] at hs
    by_cases hsid : sid' = sid
    · subst hsid
      rw [update_self] at hs
      cases hs
      rcases Finset.mem_union.1 he with he | he
      · exact hjoined e he
      · exact h.stream_members epoch e he
    · rw [update_of_ne hsid] at hs
      exact h.members sid' s hs e he
  valid e b hb hvalid := by
    rw [hstreams]
    rcases hbooks e b hb hvalid with he | ⟨b₀, hb₀, hvalid₀⟩
    · rw [hjoined e he, update_self]
      exact ⟨_, rfl, rfl, Finset.mem_union_left _ he⟩
    · obtain ⟨s, hs, hseen, he⟩ := h.valid e b₀ hb₀ hvalid₀
      by_cases hsid : feed.home e = sid
      · rw [hsid, update_self]
        refine ⟨_, rfl, rfl, Finset.mem_union_right _ ?_⟩
        rwa [OrderBookManager.stream, ← hsid, hs]
      · rw [update_of_ne hsid]
        exact ⟨s, hs, hseen, he⟩

lemma bind (h : Tracks feed arrivals m) (epoch : Nat) (e : EntityId) :
    Tracks feed (arrivals ++ [.bind e]) (m.bind (feed.home e) epoch e) where
  counter sid' s hs hseen := by
    rw [lastIndex_bind]
    change update m.streams (feed.home e) _ sid' = some s at hs
    by_cases hsid : sid' = feed.home e
    · subst hsid
      rw [update_self] at hs
      cases hs
      cases hold : m.streams (feed.home e) with
      | none => simp [OrderBookManager.stream, hold, SidStream.addMarket] at hseen
      | some s₀ =>
        simp only [OrderBookManager.stream, hold, Option.getD_some] at hseen ⊢
        exact h.counter (feed.home e) s₀ hold hseen
    · rw [update_of_ne hsid] at hs
      exact h.counter sid' s hs hseen
  members sid' s hs e' he' := by
    change update m.streams (feed.home e) _ sid' = some s at hs
    by_cases hsid : sid' = feed.home e
    · subst hsid
      rw [update_self] at hs
      cases hs
      rcases Finset.mem_insert.1 he' with rfl | he'
      · rfl
      · exact h.stream_members epoch e' he'
    · rw [update_of_ne hsid] at hs
      exact h.members sid' s hs e' he'
  valid e' b hb hvalid := by
    obtain ⟨s, hs, hseen, he'⟩ := h.valid e' b hb hvalid
    show ∃ s, update m.streams (feed.home e) _ (feed.home e') = some s ∧ _
    by_cases hsid : feed.home e' = feed.home e
    · rw [hsid, update_self]
      rw [hsid] at hs
      refine ⟨_, rfl, ?_, ?_⟩
      · simpa [OrderBookManager.stream, hs, SidStream.addMarket] using hseen
      · simpa [OrderBookManager.stream, hs, SidStream.addMarket] using Or.inr he'
    · rw [update_of_ne hsid]
      exact ⟨s, hs, hseen, he'⟩

end Tracks

namespace Feed

variable {feed : Feed} {arrivals : List Arrival} {m : OrderBookManager} {epoch sid i : Nat}

lemma home_of_mem {msg : FeedMsg} (h : (feed.msgs sid)[i]? = some msg) {e : EntityId}
    (he : msg.market = some e) : feed.home e = sid :=
  feed.homed sid msg (List.mem_of_getElem? h) e he

lemma step_tracks {a : Arrival} (h : Tracks feed arrivals m)
    (hd : Delivered feed (arrivals ++ [a])) :
    Tracks feed (arrivals ++ [a]) (feed.step epoch m a) := by
  cases a with
  | bind e => exact h.bind epoch e
  | message sid i =>
    have hle := h.expected_le epoch hd
    cases hmsg : (feed.msgs sid)[i]? with
    | none => exact absurd hd.message_lt (by simpa using hmsg)
    | some msg =>
      rw [step, hmsg]
      cases msg with
      | snapshot e yes no =>
        apply h.advance epoch {e}
        · simpa using home_of_mem hmsg rfl
        · exact OrderBookManager.onSnapshot_streams hle _
        · intro e' b hb hvalid
          by_cases he : e' = e
          · exact Or.inl (by simpa using he)
          · refine Or.inr ⟨b, ?_, hvalid⟩
            rw [← hb]
            exact (update_of_ne he _ _).symm
      | delta e side price d =>
        apply h.advance epoch ∅ (by simp)
        · rw [Finset.empty_union]
          exact OrderBookManager.onDelta_streams hle _ _ _
        · intro e' b hb hvalid
          obtain ⟨b₀, hb₀, hvalid₀, -⟩ := OrderBookManager.valid_of_onDelta hle hb hvalid
          exact Or.inr ⟨b₀, hb₀, hvalid₀⟩
      | control =>
        apply h.advance epoch ∅ (by simp)
        · rw [Finset.empty_union]
          exact OrderBookManager.onControlSeq_streams hle
        · intro e' b hb hvalid
          exact Or.inr ⟨b, (OrderBookManager.valid_of_onControlSeq hle hb hvalid).1, hvalid⟩

/-- The manager after the arrivals, from its start. -/
def manager (feed : Feed) (epoch : Nat) (arrivals : List Arrival) : OrderBookManager :=
  run (feed.step epoch) {} arrivals

lemma manager_append (a : Arrival) :
    feed.manager epoch (arrivals ++ [a]) = feed.step epoch (feed.manager epoch arrivals) a := by
  rw [manager, run_append]
  rfl

lemma manager_tracks (hd : Delivered feed arrivals) :
    Tracks feed arrivals (feed.manager epoch arrivals) := by
  induction arrivals using List.reverseRecOn with
  | nil =>
    exact ⟨fun _ _ h => by simp [manager] at h, fun _ _ h => by simp [manager] at h,
      fun _ _ h => by simp [manager] at h⟩
  | append_singleton arrivals a ih =>
    rw [manager_append]
    exact step_tracks (ih hd.of_append) hd

end Feed

/-! ### Soundness -/

/-- The book of every tradeable market is the server's as of the last number its stream has
observed. -/
def Sound (feed : Feed) (m : OrderBookManager) : Prop :=
  ∀ e b, m.books e = some b → m.tradeable e →
    ∃ s, m.streams (feed.home e) = some s ∧ b.sizeAt = feed.bookAsOf e s.lastSeq

/-- If the arrival is a snapshot, then what was lost before it leaves the server's books of the
other tradeable markets of its subscription as they were. -/
def Harmless (feed : Feed) (m : OrderBookManager) : Arrival → Prop
  | .bind _        => True
  | .message sid i =>
    match (feed.msgs sid)[i]? with
    | some (.snapshot e _ _) =>
      ∀ e' s, e' ≠ e → m.tradeable e' → feed.home e' = sid → m.streams sid = some s →
        feed.bookAfter e' i = feed.bookAsOf e' s.lastSeq
    | _                      => True

/-- The sizes are the server's as of the last number observed on the market's stream. -/
def UpToDate (feed : Feed) (m : OrderBookManager) (e : EntityId) (sizes : ServerBook) : Prop :=
  ∃ s, m.streams (feed.home e) = some s ∧ sizes = feed.bookAsOf e s.lastSeq

namespace Feed

variable {feed : Feed} {arrivals : List Arrival} {m m' : OrderBookManager} {epoch sid i : Nat}
  {e : EntityId}

lemma sound_iff : Sound feed m ↔
    ∀ e b, m.books e = some b → b.valid → UpToDate feed m e b.sizeAt := by
  refine forall₃_congr fun e b hb => ?_
  rw [OrderBookManager.tradeable, hb]
  rfl

/-- Once the stream of a message has moved to it, the books of its subscription must reflect it. -/
lemma upToDate_advance (hi : i < (feed.msgs sid).length) {joined : Finset EntityId}
    (hstreams : m'.streams = update m.streams sid (some
      { (m.stream sid epoch).advance (feed.first sid + i) with members := joined }))
    (sizes : ServerBook) :
    UpToDate feed m' e sizes ↔
      if feed.home e = sid then sizes = feed.bookAfter e (i + 1) else UpToDate feed m e sizes := by
  have hseq : feed.first sid + i < 2 ^ 64 := lt_of_lt_of_le (by omega) (feed.width sid)
  rw [UpToDate, hstreams]
  by_cases he : feed.home e = sid
  · subst he
    rw [update_self, if_pos rfl, ← bookAsOf_first_add]
    have hlast : SidStream.lastSeq
        { (m.stream (feed.home e) epoch).advance (feed.first (feed.home e) + i) with
          members := joined } = feed.first (feed.home e) + i :=
      SidStream.lastSeq_of_expected rfl hseq
    constructor
    · rintro ⟨s, hs, hsizes⟩
      cases hs
      rwa [hlast] at hsizes
    · intro hsizes
      exact ⟨_, rfl, by rwa [hlast]⟩
  · rw [update_of_ne he, if_neg he]
    rfl

/-- A message that does not jump leaves the server's book where the last number observed left
it. -/
lemma bookAsOf_lastSeq (h : Tracks feed arrivals m)
    (hd : Delivered feed (arrivals ++ [.message (feed.home e) i])) {s : SidStream}
    (hs : m.streams (feed.home e) = some s) (hseen : s.seen)
    (hno : ¬ s.Jumps (feed.first (feed.home e) + i)) :
    feed.bookAsOf e s.lastSeq = feed.bookAfter e i := by
  obtain ⟨j, hj, hexp⟩ := h.counter _ s hs hseen
  have hlt := hd.lastIndex_lt hj
  have hi := hd.message_lt
  have hwidth := feed.width (feed.home e)
  have hmatch : s.expected = feed.first (feed.home e) + i := by
    by_contra hne
    exact hno ⟨hseen, hne⟩
  have hseq : feed.first (feed.home e) + j < 2 ^ 64 := by omega
  rw [SidStream.lastSeq_of_expected hexp hseq, bookAsOf_first_add]
  rw [hmatch, SidStream.nextSeq, Nat.mod_eq_of_lt (by omega)] at hexp
  congr 1
  omega

/-- A book that survives a message which did not jump over anything is up to date again once it
reflects the message. -/
lemma UpToDate.message (h : Tracks feed arrivals m)
    (hd : Delivered feed (arrivals ++ [.message sid i])) {msg : FeedMsg}
    (hmsg : (feed.msgs sid)[i]? = some msg) {b : OrderBook} (hb : m.books e = some b)
    (hvalid : b.valid)
    (hno : (m.stream sid epoch).Jumps (feed.first sid + i) → e ∉ (m.stream sid epoch).members)
    (hup : UpToDate feed m e b.sizeAt) :
    if feed.home e = sid then msg.effect e b.sizeAt = feed.bookAfter e (i + 1)
    else UpToDate feed m e b.sizeAt := by
  split_ifs with he
  · subst he
    obtain ⟨s, hs, hseen, hmem⟩ := h.valid e b hb hvalid
    have hstream : m.stream (feed.home e) epoch = s := by rw [OrderBookManager.stream, hs]; rfl
    rw [hstream] at hno
    obtain ⟨s', hs', hsizes⟩ := hup
    rw [hs] at hs'
    cases hs'
    rw [feed.bookAfter_succ hmsg, hsizes,
      bookAsOf_lastSeq h hd hs hseen fun hjump => hno hjump hmem]
  · exact hup

lemma bind_sound (hs : Sound feed m) (e : EntityId) :
    Sound feed (m.bind (feed.home e) epoch e) := by
  rw [sound_iff] at hs ⊢
  intro e' b hb hvalid
  obtain ⟨s, hs, hsizes⟩ := hs e' b hb hvalid
  show ∃ s, update m.streams (feed.home e) _ (feed.home e') = some s ∧ _
  by_cases hsid : feed.home e' = feed.home e
  · rw [hsid] at hs
    rw [hsid, update_self]
    refine ⟨_, rfl, ?_⟩
    rw [OrderBookManager.stream, hs]
    exact hsizes
  · rw [update_of_ne hsid]
    exact ⟨s, hs, hsizes⟩

lemma onDelta_sound (h : Tracks feed arrivals m)
    (hd : Delivered feed (arrivals ++ [.message sid i])) (hs : Sound feed m) {side : Side}
    {price d : Int} (hmsg : (feed.msgs sid)[i]? = some (.delta e side price d)) :
    Sound feed (m.onDelta sid epoch e side price d (feed.first sid + i)).2 := by
  rw [sound_iff] at hs ⊢
  have hle := h.expected_le epoch hd
  intro e' b hb hvalid
  rw [upToDate_advance hd.message_lt (OrderBookManager.onDelta_streams hle _ _ _)]
  obtain ⟨b₀, hb₀, hvalid₀, hno, hsizes⟩ := OrderBookManager.valid_of_onDelta hle hb hvalid
  have hnext := UpToDate.message h hd hmsg hb₀ hvalid₀ hno (hs e' b₀ hb₀ hvalid₀)
  by_cases he : e' = e
  · -- a member of the stream that is still valid has not been jumped over
    subst he
    obtain ⟨s, hstream, -, hmem⟩ := h.valid e' b₀ hb₀ hvalid₀
    have hhome := home_of_mem hmsg rfl
    have hmem' : e' ∈ (m.stream sid epoch).members := by
      rwa [OrderBookManager.stream, ← hhome, hstream]
    rw [if_pos ⟨rfl, fun hjump => hno hjump hmem'⟩] at hsizes
    rw [if_pos hhome] at hnext ⊢
    rw [hsizes, hnext]
  · rw [if_neg fun hand => he hand.1] at hsizes
    rwa [FeedMsg.effect_of_ne (by simpa [FeedMsg.market] using Ne.symm he), ← hsizes] at hnext

lemma onControlSeq_sound (h : Tracks feed arrivals m)
    (hd : Delivered feed (arrivals ++ [.message sid i])) (hs : Sound feed m)
    (hmsg : (feed.msgs sid)[i]? = some .control) :
    Sound feed (m.onControlSeq sid epoch (feed.first sid + i)).2 := by
  rw [sound_iff] at hs ⊢
  have hle := h.expected_le epoch hd
  intro e b hb hvalid
  rw [upToDate_advance hd.message_lt (OrderBookManager.onControlSeq_streams hle)]
  obtain ⟨hb₀, hno⟩ := OrderBookManager.valid_of_onControlSeq hle hb hvalid
  exact UpToDate.message h hd hmsg hb₀ hvalid hno (hs e b hb₀ hvalid)

/-- A snapshot keeps its own book sound, and the others exactly if what it jumped over did not
concern them. -/
lemma onSnapshot_sound_iff (h : Tracks feed arrivals m)
    (hd : Delivered feed (arrivals ++ [.message sid i])) (hs : Sound feed m)
    {yes no : List Level} (hmsg : (feed.msgs sid)[i]? = some (.snapshot e yes no)) :
    Sound feed (m.onSnapshot sid epoch e { yes, no, seq := feed.first sid + i }
        (feed.first sid + i)) ↔
      ∀ e' s, e' ≠ e → m.tradeable e' → feed.home e' = sid → m.streams sid = some s →
        feed.bookAfter e' i = feed.bookAsOf e' s.lastSeq := by
  rw [sound_iff] at hs ⊢
  have hle := h.expected_le epoch hd
  have hup (e' : EntityId) (sizes : ServerBook) := upToDate_advance (e := e') hd.message_lt
    (OrderBookManager.onSnapshot_streams (e := e) hle
      { yes, no, seq := feed.first sid + i }) sizes
  have hother {e' : EntityId} (hne : e' ≠ e) (hhome : feed.home e' = sid) :
      feed.bookAfter e' (i + 1) = feed.bookAfter e' i := by
    subst hhome
    rw [feed.bookAfter_succ hmsg]
    exact FeedMsg.effect_of_ne (by simpa [FeedMsg.market] using Ne.symm hne) _
  constructor
  · intro hsound e' s hne htradeable hhome hstream
    obtain ⟨b, hb, hvalid⟩ := OrderBookManager.tradeable_iff.1 htradeable
    have hafter := hsound e' b ((update_of_ne hne _ _).trans hb) hvalid
    rw [hup, if_pos hhome, hother hne hhome] at hafter
    obtain ⟨s', hs', hsizes⟩ := hs e' b hb hvalid
    rw [hhome, hstream] at hs'
    cases hs'
    rw [← hafter, hsizes]
  · intro hharmless e' b hb hvalid
    rw [hup]
    by_cases he : e' = e
    · subst he
      change update m.books e' (some (OrderBook.loadSnapshot _)) e' = some b at hb
      rw [update_self] at hb
      cases hb
      have hhome := home_of_mem hmsg rfl
      subst hhome
      rw [if_pos rfl, feed.bookAfter_succ hmsg, OrderBook.sizeAt_loadSnapshot]
      exact (if_pos rfl).symm
    · have hb₀ : m.books e' = some b := (update_of_ne he _ _).symm.trans hb
      split_ifs with hhome
      · obtain ⟨s, hstream, hsizes⟩ := hs e' b hb₀ hvalid
        rw [hother he hhome, hsizes]
        rw [hhome] at hstream
        exact (hharmless e' s he (OrderBookManager.tradeable_iff.2 ⟨b, hb₀, hvalid⟩) hhome
          hstream).symm
      · exact hs e' b hb₀ hvalid

/-- What one arrival does to soundness. -/
lemma step_sound_iff {a : Arrival} (h : Tracks feed arrivals m)
    (hd : Delivered feed (arrivals ++ [a])) (hs : Sound feed m) :
    Sound feed (feed.step epoch m a) ↔ Harmless feed m a := by
  cases a with
  | bind e => exact iff_of_true (bind_sound hs e) trivial
  | message sid i =>
    cases hmsg : (feed.msgs sid)[i]? with
    | none => exact absurd hd.message_lt (by simpa using hmsg)
    | some msg =>
      rw [step, Harmless, hmsg]
      cases msg with
      | snapshot e yes no => exact onSnapshot_sound_iff h hd hs hmsg
      | delta e side price d => exact iff_of_true (onDelta_sound h hd hs hmsg) trivial
      | control => exact iff_of_true (onControlSeq_sound h hd hs hmsg) trivial

end Feed

/-- Along every delivery, all tradeable books are the server's in every state reached exactly when
no snapshot arrives over a loss that concerns another tradeable market of its subscription. -/
theorem book_sound_iff {feed : Feed} {arrivals : List Arrival} (hd : Delivered feed arrivals)
    (epoch : Nat) :
    (∀ before, before <+: arrivals → Sound feed (feed.manager epoch before)) ↔
      Along (feed.step epoch) (Harmless feed) {} arrivals := by
  apply forall_prefix_iff_along
  · intro e b hb
    cases hb
  · intro before a after heq hsound
    rw [heq, List.append_cons] at hd
    have hreached := hd.of_append
    exact Feed.step_sound_iff (Feed.manager_tracks hreached.of_append) hreached hsound

/-- Two markets on subscription 1: a snapshot of each, a change of market 1, and a second snapshot
of market 2. -/
def twoMarkets : Feed where
  first _ := 1
  msgs sid :=
    if sid = 1 then
      [.snapshot 1 [⟨4000, 10⟩] [], .snapshot 2 [⟨3000, 20⟩] [], .delta 1 .yes 4000 5,
        .snapshot 2 [⟨3000, 20⟩] []]
    else []
  home _ := 1
  homed := by
    intro sid msg hmsg e he
    by_cases hsid : sid = 1
    · exact hsid.symm
    · simp [hsid] at hmsg
  width := by
    intro sid
    by_cases hsid : sid = 1 <;> simp [hsid]

/-- The messages of subscription 1 with these indices. -/
def arrivalsOf (indices : List Nat) : List Arrival := indices.map (.message 1)

lemma delivered_arrivalsOf {indices : List Nat} (hsorted : indices.Pairwise (· < ·))
    (hlt : ∀ i ∈ indices, i < 4) : Delivered twoMarkets (arrivalsOf indices) := by
  intro sid
  rw [arrivalsOf, List.filterMap_map]
  by_cases hsid : sid = 1
  · subst hsid
    have hindex : (Arrival.indexOn 1 ∘ Arrival.message 1) = some := rfl
    rw [hindex, List.filterMap_some]
    exact ⟨hsorted, hlt⟩
  · have hindex : (Arrival.indexOn sid ∘ Arrival.message 1) = fun _ => none := by
      funext i
      exact if_neg (Ne.symm hsid)
    rw [hindex]
    simp

theorem book_sound_no_loss : Sound twoMarkets (twoMarkets.manager 1 (arrivalsOf [0, 1, 2])) := by
  refine (book_sound_iff (delivered_arrivalsOf (by decide) (by decide)) 1).2 ?_ _ List.prefix_rfl
  refine ⟨?_, ?_, trivial, trivial⟩
  · intro e' s _ _ _ hstream
    cases hstream
  · intro e' s _ _ _ hstream
    have hs : (twoMarkets.step 1 {} (.message 1 0)).streams 1 =
        some { sid := 1, epoch := 1, seen := true, expected := 2, members := {1} } := by
      decide
    rw [hs] at hstream
    cases hstream
    rfl

/-- The change of market 1 is lost, and the second snapshot of market 2 hides the loss. -/
theorem book_sound_hidden_loss :
    Delivered twoMarkets (arrivalsOf [0, 1, 3]) ∧
      (twoMarkets.manager 1 (arrivalsOf [0, 1, 3])).tradeable 1 ∧
      ¬ Sound twoMarkets (twoMarkets.manager 1 (arrivalsOf [0, 1, 3])) := by
  refine ⟨delivered_arrivalsOf (by decide) (by decide), rfl, fun hsound => ?_⟩
  obtain ⟨s, hs, hsizes⟩ := hsound 1 _ rfl rfl
  cases hs
  have := congrFun (congrFun hsizes .yes) 4000
  revert this
  decide

end HftBot
