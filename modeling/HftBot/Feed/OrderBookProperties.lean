import HftBot.Feed.Server

/-!
# Properties of books, counters and the manager

What loading and applying do to the sizes of a book, what a number that is not behind does to a
counter, and which books are valid after each of the manager's entry points.
-/

namespace HftBot

open HftBot.Core Function

/-! ### Books -/

namespace OrderBook

lemma findD_loadSide (levels : List Level) (m : SortedMap Int Int) (price : Int) :
    ((levels.foldl (fun m l => if l.size > 0 then m.insert l.price l.size else m) m).find?
      price).getD 0 =
      levels.foldl (fun n l => if 0 < l.size ∧ l.price = price then l.size else n)
        ((m.find? price).getD 0) := by
  induction levels generalizing m with
  | nil => rfl
  | cons l levels ih =>
    rw [List.foldl_cons, List.foldl_cons, ih]
    congr 1
    by_cases hsize : l.size > 0
    · rw [if_pos hsize, SortedMap.find?_insert]
      by_cases hprice : price = l.price
      · simp [hprice, hsize]
      · rw [if_neg hprice, if_neg fun h => hprice h.2.symm]
    · rw [if_neg hsize, if_neg fun h => hsize h.1]

/-- A loaded book has the sizes of the snapshot. -/
lemma sizeAt_loadSnapshot (snap : SnapshotView) :
    (loadSnapshot snap).sizeAt = fun | .yes => sizeIn snap.yes | .no => sizeIn snap.no := by
  funext side price
  cases side with
  | yes => exact findD_loadSide snap.yes {} price
  | no => exact findD_loadSide snap.no {} price

section

variable {b : OrderBook} {side : Side} {price d : Int} {seq : Nat}

lemma applyDelta_of_not_valid (hb : b.valid = false) :
    b.applyDelta side price d seq = (.needResync, b) := by
  simp [applyDelta, hb]

lemma applyDelta_of_neg (hb : b.valid) (hneg : b.sizeAt side price + d < 0) :
    b.applyDelta side price d seq = (.invalid, { b with valid := false }) := by
  rw [sizeAt] at hneg
  simp [applyDelta, hb, hneg]

lemma applyDelta_of_nonneg (hb : b.valid) (hnonneg : 0 ≤ b.sizeAt side price + d) :
    (b.applyDelta side price d seq).1 = .ok ∧ (b.applyDelta side price d seq).2.valid := by
  rw [sizeAt] at hnonneg
  cases side <;> simp [applyDelta, hb, not_lt.2 hnonneg, setSide]

end

lemma sizeAt_setSide (b : OrderBook) (levels : SortedMap Int Int) (side : Side) (seq : Nat) :
    ({ b.setSide levels side with lastSeq := seq } : OrderBook).sizeAt =
      update b.sizeAt side fun price => (levels.find? price).getD 0 := by
  funext side' price
  cases side <;> cases side' <;> rfl

/-- A delta that leaves a valid book valid moves one size by its amount. -/
lemma sizeAt_applyDelta {b : OrderBook} {side : Side} {price d : Int} {seq : Nat}
    (hb : b.valid) (h : (b.applyDelta side price d seq).2.valid) :
    (b.applyDelta side price d seq).2.sizeAt =
      update b.sizeAt side (update (b.sizeAt side) price (b.sizeAt side price + d)) := by
  simp only [applyDelta, hb, Bool.not_true, Bool.false_eq_true, ↓reduceIte] at h ⊢
  split_ifs at h ⊢ with hneg hzero
  all_goals
    rw [sizeAt_setSide]
    congr 1
    funext p
    by_cases hp : p = price
  · subst hp
    rw [update_self, SortedMap.find?_erase, if_pos rfl]
    exact hzero.symm
  · rw [update_of_ne hp, SortedMap.find?_erase, if_neg hp]
    rfl
  · subst hp
    rw [update_self, SortedMap.find?_insert, if_pos rfl]
    rfl
  · rw [update_of_ne hp, SortedMap.find?_insert, if_neg hp]
    rfl

end OrderBook

/-! ### Counters -/

namespace SidStream

/-- The stream once it has seen that number. -/
def advance (s : SidStream) (seq : Nat) : SidStream :=
  { s with seen := true, expected := nextSeq seq }

/-- The number jumps over messages that were lost. -/
def Jumps (s : SidStream) (seq : Nat) : Prop := s.seen ∧ s.expected ≠ seq

instance (s : SidStream) (seq : Nat) : Decidable (s.Jumps seq) :=
  inferInstanceAs (Decidable (_ ∧ _))

/-- A number that is not behind the counter moves it, and is a gap exactly if it jumps. -/
lemma observe_cases {s : SidStream} {seq : Nat} (h : s.seen → s.expected ≤ seq) :
    (s.observe seq = (.gap, s.advance seq) ∧ s.Jumps seq) ∨
      ((s.observe seq = (.first, s.advance seq) ∨ s.observe seq = (.ok, s.advance seq)) ∧
        ¬ s.Jumps seq) := by
  cases hseen : s.seen with
  | false => simp [observe, hseen, advance, Jumps]
  | true =>
    by_cases heq : seq = s.expected
    · simp [observe, hseen, heq, advance, Jumps]
    · have hle := h hseen
      have hlt : ¬ seq < s.expected := by omega
      left
      simpa [observe, hseen, heq, hlt, advance, Jumps] using Ne.symm heq

lemma observe_snd {s : SidStream} {seq : Nat} (h : s.seen → s.expected ≤ seq) :
    (s.observe seq).2 = s.advance seq := by
  rcases observe_cases h with ⟨hobs, -⟩ | ⟨hobs | hobs, -⟩ <;> rw [hobs]

lemma lastSeq_of_expected {s : SidStream} {seq : Nat} (h : s.expected = nextSeq seq)
    (hseq : seq < 2 ^ 64) : s.lastSeq = seq := by
  rw [lastSeq, h, nextSeq]
  omega

end SidStream

/-! ### The manager's entry points -/

namespace OrderBookManager

variable {m : OrderBookManager} {sid epoch seq : Nat} {e : EntityId}

lemma tradeable_iff : m.tradeable e ↔ ∃ b, m.books e = some b ∧ b.valid := by
  rw [tradeable]
  cases m.books e <;> simp

lemma books_of_bookRef_valid (h : (m.bookRef e).valid) : m.books e = some (m.bookRef e) := by
  cases hb : m.books e with
  | none => simp [bookRef, hb] at h
  | some b => rw [bookRef, hb, Option.getD_some]

@[simp] lemma forget_books : (m.forget e).books = update m.books e none := by
  simp only [forget]
  split
  · rfl
  · split <;> rfl

@[simp] lemma forget_sidOf : (m.forget e).sidOf = update m.sidOf e none := by
  simp only [forget]
  split
  next hsid => exact (update_eq_self_iff.2 hsid.symm).symm
  · split <;> rfl

/-- A forgotten market leaves the stream it is bound to. -/
lemma forget_streams (sid : Nat) :
    (m.forget e).streams sid =
      if m.sidOf e = some sid then (m.streams sid).map (·.removeMarket e) else m.streams sid := by
  simp only [forget]
  cases hsid : m.sidOf e with
  | none => rfl
  | some sid' =>
    cases hs : m.streams sid' with
    | none =>
      by_cases heq : sid' = sid
      · subst heq
        simp [hs]
      · simp [hs, heq]
    | some s =>
      by_cases heq : sid' = sid
      · subst heq
        simp [setStream, hs]
      · simp [setStream, hs, heq, update_of_ne (Ne.symm heq)]

variable (h : (m.stream sid epoch).seen → (m.stream sid epoch).expected ≤ seq)
include h

lemma onSnapshot_streams (snap : SnapshotView) :
    (m.onSnapshot sid epoch e snap seq).streams =
      update m.streams sid (some (((m.stream sid epoch).addMarket e).advance seq)) := by
  have hobserve := SidStream.observe_snd (s := (m.stream sid epoch).addMarket e) h
  rw [← hobserve]
  rfl

lemma onControlSeq_streams :
    (m.onControlSeq sid epoch seq).2.streams =
      update m.streams sid (some ((m.stream sid epoch).advance seq)) := by
  rcases SidStream.observe_cases h with ⟨hobs, -⟩ | ⟨hobs | hobs, -⟩ <;>
    simp [onControlSeq, hobs] <;> rfl

omit h in
@[simp] lemma acceptDelta_streams (side : Side) (price d : Int) :
    (m.acceptDelta sid e side price d seq).2.streams = m.streams := by
  simp only [acceptDelta]
  split_ifs <;> rfl

omit h in
@[simp] lemma acceptDelta_sidOf (side : Side) (price d : Int) :
    (m.acceptDelta sid e side price d seq).2.sidOf = m.sidOf := by
  simp only [acceptDelta]
  split_ifs <;> rfl

omit h in
/-- A delta in order touches its own book and no other. -/
lemma acceptDelta_books (side : Side) (price d : Int) :
    (m.acceptDelta sid e side price d seq).2.books = update m.books e
      (some (if (m.bookRef e).valid then ((m.bookRef e).applyDelta side price d seq).2
        else m.bookRef e)) := by
  simp only [acceptDelta]
  cases (m.bookRef e).valid with
  | false => rfl
  | true =>
    simp only [Bool.not_true, Bool.false_eq_true, ↓reduceIte]
    split <;> simp [setBook, requestResync]

lemma onDelta_streams (side : Side) (price d : Int) :
    (m.onDelta sid epoch e side price d seq).2.streams =
      update m.streams sid (some ((m.stream sid epoch).advance seq)) := by
  rcases SidStream.observe_cases h with ⟨hobs, -⟩ | ⟨hobs | hobs, -⟩ <;>
    simp only [onDelta, hobs, acceptDelta_streams] <;> rfl

omit h in
/-- A book that is valid after a gap was valid before and is not a member. -/
lemma valid_of_invalidateAll {s s' : SidStream} {b : OrderBook}
    (hb : (((m.setStream sid s').invalidateAll s).requestAll s).books e = some b)
    (hvalid : b.valid) : m.books e = some b ∧ e ∉ s.members := by
  by_cases he : e ∈ s.members
  · have : some (m.bookRef e).invalidate = some b := by
      rw [← hb]
      exact (if_pos he).symm
    cases this
    cases hvalid
  · refine ⟨?_, he⟩
    rw [← hb]
    exact (if_neg he).symm

/-- After a control response a book is valid if it was, unless its stream jumped. -/
lemma valid_of_onControlSeq {b : OrderBook}
    (hb : (m.onControlSeq sid epoch seq).2.books e = some b) (hvalid : b.valid) :
    m.books e = some b ∧
      ((m.stream sid epoch).Jumps seq → e ∉ (m.stream sid epoch).members) := by
  rcases SidStream.observe_cases h with ⟨hobs, -⟩ | ⟨hobs, hno⟩
  · simp only [onControlSeq, hobs, ↓reduceIte] at hb
    obtain ⟨hbefore, hmem⟩ := valid_of_invalidateAll hb hvalid
    exact ⟨hbefore, fun _ => hmem⟩
  · refine ⟨?_, fun hjump => absurd hjump hno⟩
    rcases hobs with hobs | hobs <;> simpa [onControlSeq, hobs, setStream] using hb

/-- After a delta a book is valid if it was, unless its stream jumped, and the delta's own book has
been moved by it. -/
lemma valid_of_onDelta {e' : EntityId} {side : Side} {price d : Int} {b : OrderBook}
    (hb : (m.onDelta sid epoch e side price d seq).2.books e' = some b) (hvalid : b.valid) :
    ∃ b₀, m.books e' = some b₀ ∧ b₀.valid ∧
      ((m.stream sid epoch).Jumps seq → e' ∉ (m.stream sid epoch).members) ∧
      b.sizeAt = if e' = e ∧ ¬ (m.stream sid epoch).Jumps seq then
        (FeedMsg.delta e side price d).effect e b₀.sizeAt else b₀.sizeAt := by
  rcases SidStream.observe_cases h with ⟨hobs, hjump⟩ | ⟨hobs, hno⟩
  · simp only [onDelta, hobs] at hb
    obtain ⟨hbefore, hmem⟩ := valid_of_invalidateAll hb hvalid
    exact ⟨b, hbefore, hvalid, fun _ => hmem, by simp [hjump]⟩
  · -- the first and the next number are treated alike
    have hbooks : (m.onDelta sid epoch e side price d seq).2.books = update m.books e
        (some (if (m.bookRef e).valid then ((m.bookRef e).applyDelta side price d seq).2
          else m.bookRef e)) := by
      rcases hobs with hobs | hobs <;> simp only [onDelta, hobs, acceptDelta_books] <;> rfl
    rw [hbooks] at hb
    by_cases he : e' = e
    · subst he
      rw [update_self, Option.some.injEq] at hb
      cases hbefore : (m.bookRef e').valid with
      | false => simp [← hb, hbefore] at hvalid
      | true =>
        rw [hbefore, if_pos rfl] at hb
        subst hb
        refine ⟨_, books_of_bookRef_valid hbefore, hbefore, fun hjump => absurd hjump hno, ?_⟩
        rw [if_pos ⟨rfl, hno⟩, OrderBook.sizeAt_applyDelta hbefore hvalid]
        exact (if_pos rfl).symm
    · rw [update_of_ne he] at hb
      exact ⟨b, hb, hvalid, fun hjump => absurd hjump hno, by simp [he]⟩

end OrderBookManager

end HftBot
