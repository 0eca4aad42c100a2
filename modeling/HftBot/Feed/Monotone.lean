import HftBot.Feed.ManagerCalls

/-!
# Books that go back in time

A late delta is ignored, but a snapshot is loaded whatever its number: a duplicated or late one
replaces a book that reflects newer messages. The numbers of the valid books never decrease exactly
as long as no call carries a number older than the book it writes. While every market keeps to one
subscription, the late snapshots are the only such calls.
-/

namespace HftBot

open HftBot.Core Function

namespace OrderBookManager

variable {m : OrderBookManager} {sid epoch seq : Nat} {e : EntityId} {side : Side} {price d : Int}

/-- A book that is valid before and after the call reflects no older number than before. -/
def Forward (epoch : Nat) (m : OrderBookManager) (c : ManagerCall) : Prop :=
  ∀ e, (m.bookRef e).valid → ((m.handle epoch c).bookRef e).valid →
    (m.bookRef e).lastSeq ≤ ((m.handle epoch c).bookRef e).lastSeq

/-- The number of a call that writes a valid book is not older than what the book reflects. -/
def InTime (epoch : Nat) (m : OrderBookManager) : ManagerCall → Prop
  | .onSnapshot _ e _ seq              => (m.bookRef e).valid → (m.bookRef e).lastSeq ≤ seq
  | .onDelta sid e side price d seq =>
    m.verdict sid epoch seq = .first ∨ m.verdict sid epoch seq = .ok →
    (m.bookRef e).valid → 0 ≤ (m.bookRef e).sizeAt side price + d → (m.bookRef e).lastSeq ≤ seq
  | _                                  => True

/-- A snapshot that its stream judges late is not older than the valid book it replaces. -/
def LateInTime (epoch : Nat) (m : OrderBookManager) : ManagerCall → Prop
  | .onSnapshot sid e _ seq =>
    m.verdict sid epoch seq = .stale → (m.bookRef e).valid → (m.bookRef e).lastSeq ≤ seq
  | _                       => True

/-! ### One call -/

lemma lastSeq_applyDelta {b : OrderBook} (hb : b.valid) (h : 0 ≤ b.sizeAt side price + d) :
    (b.applyDelta side price d seq).2.lastSeq = seq := by
  rw [OrderBook.sizeAt] at h
  simp [OrderBook.applyDelta, hb, not_lt.2 h]

/-- A call that leaves each book as it is, or invalid, moves nothing back. -/
lemma forward_of_bookRef {c : ManagerCall}
    (h : ∀ e, (m.handle epoch c).bookRef e = m.bookRef e ∨
      ((m.handle epoch c).bookRef e).valid = false) : m.Forward epoch c := by
  intro e _ hafter
  rcases h e with heq | hinvalid
  · rw [heq]
  · rw [hinvalid] at hafter
    cases hafter

lemma forward_of_lost {c : ManagerCall} (h : m.handle epoch c = m.lost sid epoch seq) :
    m.Forward epoch c := by
  apply forward_of_bookRef
  intro e
  rw [h, bookRef_lost]
  split_ifs
  · exact .inr rfl
  · exact .inl rfl

/-- A call that writes one book moves that book back or none. -/
lemma forward_iff_of_bookRef {c : ManagerCall} {b : OrderBook}
    (h : ∀ e', (m.handle epoch c).bookRef e' = if e' = e then b else m.bookRef e') :
    m.Forward epoch c ↔ ((m.bookRef e).valid → b.valid → (m.bookRef e).lastSeq ≤ b.lastSeq) := by
  constructor
  · intro hforward
    have hbook := hforward e
    rwa [h e, if_pos rfl] at hbook
  · intro hbook e' hvalid hafter
    rw [h e'] at hafter ⊢
    split_ifs at hafter ⊢ with heq
    · subst heq
      exact hbook hvalid hafter
    · exact le_rfl

lemma forward_iff_inTime (c : ManagerCall) : m.Forward epoch c ↔ m.InTime epoch c := by
  cases c with
  | bind sid e => exact iff_of_true (forward_of_bookRef fun _ => .inl rfl) trivial
  | onSnapshot sid e snap seq =>
    have hbooks : ∀ e', (m.handle epoch (.onSnapshot sid e snap seq)).bookRef e' =
        if e' = e then OrderBook.loadSnapshot { snap with seq } else m.bookRef e' :=
      fun _ => bookRef_onSnapshot e snap
    rw [forward_iff_of_bookRef hbooks]
    exact ⟨fun h hvalid => h hvalid rfl, fun h hvalid _ => h hvalid⟩
  | onDelta sid e side price d seq =>
    have hhandle : m.handle epoch (.onDelta sid e side price d seq) =
      (m.onDelta sid epoch e side price d seq).2 := rfl
    rcases onDelta_cases m sid epoch seq e side price d with
      ⟨hverdict, hgap⟩ | ⟨hverdict, hstale⟩ | ⟨horder, haccept⟩
    · rw [hgap] at hhandle
      refine iff_of_true (forward_of_lost hhandle) ?_
      simp [InTime, hverdict]
    · refine iff_of_true (forward_of_bookRef fun e' => .inl ?_) ?_
      · rw [hhandle, hstale]
        rfl
      · simp [InTime, hverdict]
    · have hbooks : ∀ e', (m.handle epoch (.onDelta sid e side price d seq)).bookRef e' =
          if e' = e then ((m.bookRef e).applyDelta side price d seq).2 else m.bookRef e' := by
        intro e'
        rw [hhandle, haccept, bookRef_acceptDelta]
        rfl
      rw [forward_iff_of_bookRef hbooks, InTime]
      constructor
      · intro h _ hvalid hnonneg
        have hle := h hvalid (OrderBook.applyDelta_of_nonneg hvalid hnonneg).2
        rwa [lastSeq_applyDelta hvalid hnonneg] at hle
      · intro h hvalid hafter
        rcases lt_or_ge ((m.bookRef e).sizeAt side price + d) 0 with hneg | hnonneg
        · rw [OrderBook.applyDelta_of_neg hvalid hneg] at hafter
          cases hafter
        · rw [lastSeq_applyDelta hvalid hnonneg]
          exact h horder hvalid hnonneg
  | onControlSeq sid seq =>
    have hhandle : m.handle epoch (.onControlSeq sid seq) = (m.onControlSeq sid epoch seq).2 := rfl
    refine iff_of_true ?_ trivial
    rcases onControlSeq_cases m sid epoch seq with ⟨-, hgap⟩ | ⟨-, hcounted⟩
    · rw [hgap] at hhandle
      exact forward_of_lost hhandle
    · apply forward_of_bookRef
      intro e
      left
      rw [hhandle, hcounted]
      rfl
  | forget e =>
    refine iff_of_true (forward_of_bookRef fun e' => ?_) trivial
    rw [show m.handle epoch (.forget e) = m.forget e from rfl, bookRef_forget]
    split_ifs
    · exact .inr rfl
    · exact .inl rfl

/-! ### One subscription for each market -/

/-- The messages of a market come on its own subscription, with a number before the last one. -/
def AtHome (home : EntityId → Nat) : ManagerCall → Prop
  | .onSnapshot sid e _ seq      => sid = home e ∧ seq + 1 < 2 ^ 64
  | .onDelta sid e _ _ _ seq => sid = home e ∧ seq + 1 < 2 ^ 64
  | .onControlSeq _ seq          => seq + 1 < 2 ^ 64
  | _                            => True

/-- A valid book reflects a number that its stream has counted. -/
def Counted (home : EntityId → Nat) (epoch : Nat) (m : OrderBookManager) : Prop :=
  ∀ e, (m.bookRef e).valid →
    (m.stream (home e) epoch).seen ∧ (m.bookRef e).lastSeq < (m.stream (home e) epoch).expected

variable {home : EntityId → Nat}

lemma observe_le {s : SidStream} (hseq : seq + 1 < 2 ^ 64) (hseen : s.seen) :
    (s.observe seq).2.seen ∧ s.expected ≤ (s.observe seq).2.expected := by
  rw [SidStream.observe]
  split_ifs with hfirst heq hlt
  · exact ⟨rfl, by simp [hseen] at hfirst⟩
  · refine ⟨hseen, ?_⟩
    show _ ≤ SidStream.nextSeq s.expected
    rw [SidStream.nextSeq, ← heq, Nat.mod_eq_of_lt hseq]
    exact Nat.le_succ seq
  · exact ⟨hseen, le_rfl⟩
  · refine ⟨hseen, ?_⟩
    show _ ≤ SidStream.nextSeq seq
    rw [SidStream.nextSeq, Nat.mod_eq_of_lt hseq]
    omega

lemma lt_observe {s : SidStream} (hseq : seq + 1 < 2 ^ 64) :
    (s.observe seq).2.seen ∧ seq < (s.observe seq).2.expected := by
  rw [SidStream.observe]
  split_ifs with hfirst heq hlt
  · refine ⟨rfl, ?_⟩
    show seq < SidStream.nextSeq seq
    rw [SidStream.nextSeq, Nat.mod_eq_of_lt hseq]
    exact Nat.lt_succ_self seq
  · refine ⟨by simpa using hfirst, ?_⟩
    show seq < SidStream.nextSeq s.expected
    rw [SidStream.nextSeq, ← heq, Nat.mod_eq_of_lt hseq]
    exact Nat.lt_succ_self seq
  · exact ⟨by simpa using hfirst, hlt⟩
  · refine ⟨by simpa using hfirst, ?_⟩
    show seq < SidStream.nextSeq seq
    rw [SidStream.nextSeq, Nat.mod_eq_of_lt hseq]
    exact Nat.lt_succ_self seq

/-- Once a number is counted, a valid book is an older one or the one that was written under it. -/
lemma Counted.counted (h : m.Counted home epoch) (hseq : seq + 1 < 2 ^ 64)
    {m' : OrderBookManager} (hstreams : m'.streams = (m.counted sid epoch seq).streams)
    (hbooks : ∀ e, (m'.bookRef e).valid →
      ((m.bookRef e).valid ∧ (m'.bookRef e).lastSeq = (m.bookRef e).lastSeq) ∨
        (home e = sid ∧ (m'.bookRef e).lastSeq = seq)) : m'.Counted home epoch := by
  intro e hvalid
  have hstream : m'.stream (home e) epoch = if home e = sid then
      ((m.stream sid epoch).observe seq).2 else m.stream (home e) epoch := by
    rw [← stream_setStream, stream, hstreams]
    rfl
  rcases hbooks e hvalid with ⟨hold, hlast⟩ | ⟨hhome, hlast⟩
  · obtain ⟨hseen, hlt⟩ := h e hold
    rw [hstream, hlast]
    split_ifs with hhome
    · rw [hhome] at hseen hlt
      obtain ⟨hseen', hle⟩ := observe_le hseq hseen
      exact ⟨hseen', hlt.trans_le hle⟩
    · exact ⟨hseen, hlt⟩
  · rw [hstream, if_pos hhome, hlast]
    exact lt_observe hseq

lemma Counted.bind (h : m.Counted home epoch) (sid : Nat) (e : EntityId) :
    (m.bind sid epoch e).Counted home epoch := by
  intro e' hvalid
  obtain ⟨hseen, hlt⟩ := h e' hvalid
  have hstream : (m.bind sid epoch e).stream (home e') epoch =
      if home e' = sid then (m.stream sid epoch).addMarket e else m.stream (home e') epoch :=
    stream_setStream _ _
  rw [hstream]
  split_ifs with hhome
  · rw [hhome] at hseen hlt
    exact ⟨hseen, hlt⟩
  · exact ⟨hseen, hlt⟩

lemma Counted.lost (h : m.Counted home epoch) (hseq : seq + 1 < 2 ^ 64) :
    (m.lost sid epoch seq).Counted home epoch := by
  have hstreams : (m.lost sid epoch seq).streams = (m.counted sid epoch seq).streams := rfl
  refine h.counted hseq hstreams ?_
  intro e hvalid
  rw [bookRef_lost] at hvalid ⊢
  split_ifs at hvalid ⊢
  · cases hvalid
  · exact .inl ⟨hvalid, rfl⟩

lemma Counted.onDelta (h : m.Counted home epoch) (hhome : sid = home e)
    (hseq : seq + 1 < 2 ^ 64) :
    (m.onDelta sid epoch e side price d seq).2.Counted home epoch := by
  rcases onDelta_cases m sid epoch seq e side price d with
    ⟨-, hgap⟩ | ⟨-, hstale⟩ | ⟨-, haccept⟩
  · rw [hgap]
    exact h.lost hseq
  · rw [hstale]
    exact h.counted hseq rfl fun e' hvalid => .inl ⟨hvalid, rfl⟩
  · rw [haccept]
    apply h.counted hseq (acceptDelta_streams _ _ _)
    intro e' hvalid
    rw [bookRef_acceptDelta] at hvalid ⊢
    split_ifs at hvalid ⊢ with heq
    · subst heq
      rw [bookRef_counted] at hvalid ⊢
      cases hbefore : (m.bookRef e').valid with
      | false =>
        rw [OrderBook.applyDelta_of_not_valid hbefore, hbefore] at hvalid
        cases hvalid
      | true =>
        rcases lt_or_ge ((m.bookRef e').sizeAt side price + d) 0 with hneg | hnonneg
        · rw [OrderBook.applyDelta_of_neg hbefore hneg] at hvalid
          cases hvalid
        · exact .inr ⟨hhome.symm, lastSeq_applyDelta hbefore hnonneg⟩
    · exact .inl ⟨hvalid, rfl⟩

lemma Counted.handle (h : m.Counted home epoch) {c : ManagerCall} (hc : AtHome home c) :
    (m.handle epoch c).Counted home epoch := by
  cases c with
  | bind sid e => exact h.bind sid e
  | onSnapshot sid e snap seq =>
    show (m.onSnapshot sid epoch e snap seq).Counted home epoch
    have hstreams : (m.onSnapshot sid epoch e snap seq).streams =
        ((m.bind sid epoch e).counted sid epoch seq).streams := by
      rw [onSnapshot_eq]
      rfl
    apply (h.bind sid e).counted hc.2 hstreams
    · intro e' hvalid
      rw [bookRef_onSnapshot] at hvalid ⊢
      split_ifs at hvalid ⊢ with heq
      · exact .inr ⟨by rw [heq, hc.1], rfl⟩
      · exact .inl ⟨hvalid, rfl⟩
  | onDelta sid e side price d seq => exact h.onDelta hc.1 hc.2
  | onControlSeq sid seq =>
    show (m.onControlSeq sid epoch seq).2.Counted home epoch
    rcases onControlSeq_cases m sid epoch seq with ⟨-, hgap⟩ | ⟨-, hcounted⟩
    · rw [hgap]
      exact h.lost hc
    · rw [hcounted]
      exact h.counted hc rfl fun e hvalid => .inl ⟨hvalid, rfl⟩
  | forget e =>
    intro e' hvalid
    rw [show m.handle epoch (.forget e) = m.forget e from rfl, bookRef_forget] at hvalid ⊢
    split_ifs at hvalid ⊢ with heq
    · cases hvalid
    · obtain ⟨hseen, hexpected⟩ := stream_forget m (home e') epoch e
      rw [hseen, hexpected]
      exact h e' hvalid

/-- At home only a late snapshot can be older than the book it writes. -/
lemma inTime_iff_of_counted (h : m.Counted home epoch) {c : ManagerCall} (hc : AtHome home c) :
    m.InTime epoch c ↔ m.LateInTime epoch c := by
  cases c with
  | bind sid e => exact Iff.rfl
  | onControlSeq sid seq => exact Iff.rfl
  | forget e => exact Iff.rfl
  | onSnapshot sid e snap seq =>
    refine ⟨fun h' _ => h', fun h' hvalid => ?_⟩
    obtain ⟨rfl, -⟩ := hc
    obtain ⟨hseen, hlt⟩ := h e hvalid
    by_cases hstale : m.verdict (home e) epoch seq = .stale
    · exact h' hstale hvalid
    · have hle : (m.stream (home e) epoch).expected ≤ seq := by
        by_contra hgt
        apply hstale
        rw [verdict, SidStream.observe]
        have hne : seq ≠ (m.stream (home e) epoch).expected := by omega
        simp [hseen, hne, not_le.1 hgt]
      exact hlt.le.trans hle
  | onDelta sid e side price d seq =>
    refine iff_of_true ?_ trivial
    intro horder hvalid _
    obtain ⟨rfl, -⟩ := hc
    obtain ⟨hseen, hlt⟩ := h e hvalid
    have heq : seq = (m.stream (home e) epoch).expected := by
      rw [verdict, SidStream.observe] at horder
      by_contra hne
      by_cases hlate : seq < (m.stream (home e) epoch).expected
      · simp [hseen, hne, hlate] at horder
      · simp [hseen, hne, hlate] at horder
    exact hlt.le.trans_eq heq.symm

lemma along_inTime_iff {cs : List ManagerCall} (h : m.Counted home epoch)
    (hcs : ∀ c ∈ cs, AtHome home c) :
    Along (handle epoch) (InTime epoch) m cs ↔ Along (handle epoch) (LateInTime epoch) m cs := by
  refine along_congr (P := Counted home epoch) ?_ ?_ h (along_of_forall hcs)
  · exact fun _ _ hcounted hc => hcounted.handle hc
  · exact fun _ _ hcounted hc => inTime_iff_of_counted hcounted hc

/-- In every run the numbers of the valid books never decrease iff every call that writes a valid
    book carries a number that is not older. Where each market keeps to one subscription and no
    number is the last one, that is: no late snapshot is older than the valid book it replaces. -/
theorem forward_iff (epoch : Nat) (cs : List ManagerCall) :
    (Along (handle epoch) (Forward epoch) {} cs ↔ Along (handle epoch) (InTime epoch) {} cs) ∧
      ∀ home, (∀ c ∈ cs, AtHome home c) →
        (Along (handle epoch) (Forward epoch) {} cs ↔
          Along (handle epoch) (LateInTime epoch) {} cs) := by
  have hiff : ∀ m : OrderBookManager, Along (handle epoch) (Forward epoch) m cs ↔
      Along (handle epoch) (InTime epoch) m cs := fun m =>
    ⟨Along.mono fun _ _ => (forward_iff_inTime _).1, Along.mono fun _ _ => (forward_iff_inTime _).2⟩
  refine ⟨hiff {}, fun home hhome => (hiff {}).trans (along_inTime_iff ?_ hhome)⟩
  intro e hvalid
  cases hvalid

/-- A snapshot that arrives twice takes back the delta in between. -/
theorem forward_late_snapshot :
    ¬ Along (handle 1) (Forward 1) {}
      [.onSnapshot 7 1 ⟨[⟨4000, 9⟩], [], 1⟩ 1, .onDelta 7 1 .yes 4000 5 2,
        .onSnapshot 7 1 ⟨[⟨4000, 9⟩], [], 1⟩ 1] := by
  rintro ⟨-, -, hlast, -⟩
  have hle := hlast 1 rfl rfl
  revert hle
  decide

end OrderBookManager

end HftBot
