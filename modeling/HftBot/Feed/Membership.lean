import HftBot.Core.Run
import HftBot.Feed.ManagerCalls

/-!
# Members and bindings

Membership is kept twice: in the set of each stream and in the map from markets to subscriptions. A
market that is bound again changes the map and joins the set of its new subscription, but stays in
the set of the old one, where later gaps find it. Sets and map agree exactly as long as no market is
bound to a second subscription before it is forgotten, and then a forgotten market is gone.
-/

namespace HftBot

open HftBot.Core Function

namespace ManagerCall

/-- The call names the market and may make it known again. -/
def Names (e : EntityId) : ManagerCall → Prop
  | bind _ e'           => e' = e
  | onSnapshot _ e' _ _ => e' = e
  | onDelta _ e' _ _ _ _ => e' = e
  | _                   => False

end ManagerCall

namespace OrderBookManager

variable {m : OrderBookManager} {sid epoch seq : Nat} {e : EntityId} {side : Side} {price d : Int}

/-- A call with the epoch in which it is made. -/
def handleAt (m : OrderBookManager) (p : Nat × ManagerCall) : OrderBookManager :=
  m.handle p.1 p.2

/-- A market is in the set of a stream. -/
def IsMember (m : OrderBookManager) (sid : Nat) (e : EntityId) : Prop :=
  ∃ s, m.streams sid = some s ∧ e ∈ s.members

/-- Sets and map agree, and so a market is in one set at most. -/
structure Consistent (m : OrderBookManager) : Prop where
  member_iff : ∀ e sid, m.IsMember sid e ↔ m.sidOf e = some sid
  unique     : ∀ e sid sid', m.IsMember sid e → m.IsMember sid' e → sid = sid'

/-- A market that the call binds is not bound to another subscription. -/
def BindsFresh (m : OrderBookManager) (p : Nat × ManagerCall) : Prop :=
  match p.2 with
  | .bind sid e           => ∀ sid', m.sidOf e = some sid' → sid' = sid
  | .onSnapshot sid e _ _ => ∀ sid', m.sidOf e = some sid' → sid' = sid
  | _                     => True

/-- From a `forget` on, until a call names the market again, it has no book and is not asked for. -/
def ForgetsAll (cs : List (Nat × ManagerCall)) : Prop :=
  ∀ before epoch e later, before ++ (epoch, .forget e) :: later <+: cs →
    (∀ p ∈ later, ¬ p.2.Names e) →
    (run handleAt {} (before ++ (epoch, .forget e) :: later)).books e = none ∧
      ∀ r ∈ (run handleAt {} (before ++ (epoch, .forget e) :: later)).requests.drop
        (run handleAt {} before).requests.length, e ∉ r.markets

/-! ### One call -/

lemma isMember_iff (epoch : Nat) : m.IsMember sid e ↔ e ∈ m.members epoch sid := by
  rw [IsMember, members, stream]
  cases m.streams sid <;> simp

lemma consistent_iff : m.Consistent ↔ ∀ e sid, m.IsMember sid e ↔ m.sidOf e = some sid := by
  refine ⟨Consistent.member_iff, fun h => ⟨h, fun e sid sid' hsid hsid' => ?_⟩⟩
  rw [h] at hsid hsid'
  exact Option.some.inj (hsid.symm.trans hsid')

@[simp] lemma sidOf_lost : (m.lost sid epoch seq).sidOf = m.sidOf := rfl

@[simp] lemma sidOf_counted : (m.counted sid epoch seq).sidOf = m.sidOf := rfl

/-- The calls that leave sets and map alone. -/
lemma sidOf_onDelta : (m.onDelta sid epoch e side price d seq).2.sidOf = m.sidOf := by
  rcases onDelta_cases m sid epoch seq e side price d with ⟨-, hgap⟩ | ⟨-, hstale⟩ | ⟨-, haccept⟩
  · rw [hgap]
    rfl
  · rw [hstale]
    rfl
  · rw [haccept, acceptDelta_sidOf]
    rfl

lemma sidOf_onControlSeq : (m.onControlSeq sid epoch seq).2.sidOf = m.sidOf := by
  rcases onControlSeq_cases m sid epoch seq with ⟨-, hgap⟩ | ⟨-, hcounted⟩
  · rw [hgap]
    rfl
  · rw [hcounted]
    rfl

/-- Binding a market, as `bind` and `on_snapshot` do it: it joins the set and changes the map. -/
lemma consistent_of_bound {m' : OrderBookManager} (h : m.Consistent)
    (hmember : ∀ sid' e', m'.IsMember sid' e' ↔ m.IsMember sid' e' ∨ (sid' = sid ∧ e' = e))
    (hsid : m'.sidOf = update m.sidOf e (some sid)) :
    m'.Consistent ↔ ∀ sid', m.sidOf e = some sid' → sid' = sid := by
  rw [consistent_iff, hsid]
  constructor
  · intro hafter sid' hbound
    have hstays : m'.IsMember sid' e := (hmember sid' e).2 (.inl ((h.member_iff e sid').2 hbound))
    rw [hafter, update_self, Option.some.injEq] at hstays
    exact hstays.symm
  · intro hfresh e' sid'
    rw [hmember, h.member_iff]
    by_cases heq : e' = e
    · subst heq
      rw [update_self, Option.some.injEq]
      constructor
      · rintro (hbound | ⟨rfl, -⟩)
        · exact (hfresh sid' hbound).symm
        · rfl
      · rintro rfl
        exact .inr ⟨rfl, rfl⟩
    · rw [update_of_ne heq]
      simp [heq]

lemma consistent_forget (h : m.Consistent) (e : EntityId) : (m.forget e).Consistent := by
  rw [consistent_iff]
  intro e' sid'
  rw [isMember_iff 0, members_forget, forget_sidOf]
  have hbefore := h.member_iff e' sid'
  rw [isMember_iff 0] at hbefore
  by_cases heq : e' = e
  · subst heq
    rw [update_self]
    split_ifs with hbound
    · simp
    · simp [hbefore, hbound]
  · rw [update_of_ne heq]
    split_ifs
    · rw [Finset.mem_erase, hbefore, and_iff_right heq]
    · exact hbefore

/-- What one call does to the agreement of sets and map. -/
lemma consistent_step_iff (h : m.Consistent) (p : Nat × ManagerCall) :
    (m.handleAt p).Consistent ↔ m.BindsFresh p := by
  obtain ⟨epoch, c⟩ := p
  -- Neither sets nor map change.
  have hsame : ∀ m' : OrderBookManager, (∀ sid, m'.members epoch sid = m.members epoch sid) →
      m'.sidOf = m.sidOf → m'.Consistent := by
    intro m' hmembers hsid
    rw [consistent_iff]
    intro e sid
    rw [isMember_iff epoch, hmembers, ← isMember_iff, hsid]
    exact h.member_iff e sid
  cases c with
  | bind sid e =>
    refine consistent_of_bound h (fun sid' e' => ?_) rfl
    show (m.bind sid epoch e).IsMember sid' e' ↔ _
    rw [isMember_iff epoch, members_bind, isMember_iff epoch]
    split_ifs with heq <;> simp [heq, or_comm]
  | onSnapshot sid e snap seq =>
    refine consistent_of_bound h (fun sid' e' => ?_) rfl
    show (m.onSnapshot sid epoch e snap seq).IsMember sid' e' ↔ _
    rw [isMember_iff epoch, members_onSnapshot, isMember_iff epoch]
    split_ifs with heq <;> simp [heq, or_comm]
  | onDelta sid e side price d seq =>
    exact iff_of_true (hsame _ (fun sid' => members_onDelta sid' e) sidOf_onDelta) trivial
  | onControlSeq sid seq =>
    exact iff_of_true (hsame _ (fun sid' => members_onControlSeq sid') sidOf_onControlSeq) trivial
  | forget e => exact iff_of_true (consistent_forget h e) trivial

/-! ### A forgotten market -/

/-- The market has no book and is not bound. -/
structure Gone (m : OrderBookManager) (e : EntityId) : Prop where
  book  : m.books e = none
  bound : m.sidOf e = none

lemma gone_forget (e : EntityId) : (m.forget e).Gone e :=
  ⟨by rw [forget_books, update_self], by rw [forget_sidOf, update_self]⟩

lemma Gone.not_member (h : m.Gone e) (hm : m.Consistent) : e ∉ m.members epoch sid := by
  rw [← isMember_iff, hm.member_iff, h.bound]
  simp

/-- A call that does not name the market leaves it gone. -/
lemma Gone.handle (h : m.Gone e) (hm : m.Consistent) {c : ManagerCall} (hc : ¬ c.Names e) :
    (m.handle epoch c).Gone e := by
  have hlost : ∀ sid seq, (m.lost sid epoch seq).Gone e := by
    intro sid seq
    refine ⟨?_, h.bound⟩
    rw [lost_books, if_neg (h.not_member hm)]
    exact h.book
  cases c with
  | bind sid e' =>
    exact ⟨h.book, (update_of_ne (Ne.symm hc) _ _).trans h.bound⟩
  | onSnapshot sid e' snap seq =>
    exact ⟨(update_of_ne (Ne.symm hc) _ _).trans h.book,
      (update_of_ne (Ne.symm hc) _ _).trans h.bound⟩
  | onDelta sid e' side price d seq =>
    refine ⟨?_, (congrFun sidOf_onDelta e).trans h.bound⟩
    show (m.onDelta sid epoch e' side price d seq).2.books e = none
    rcases onDelta_cases m sid epoch seq e' side price d with
      ⟨-, hgap⟩ | ⟨-, hstale⟩ | ⟨-, haccept⟩
    · rw [hgap]
      exact (hlost sid seq).book
    · rw [hstale]
      exact h.book
    · rw [haccept, acceptDelta_books, update_of_ne (Ne.symm hc)]
      exact h.book
  | onControlSeq sid seq =>
    show (m.onControlSeq sid epoch seq).2.Gone e
    rcases onControlSeq_cases m sid epoch seq with ⟨-, hgap⟩ | ⟨-, hcounted⟩
    · rw [hgap]
      exact hlost sid seq
    · rw [hcounted]
      exact ⟨h.book, h.bound⟩
  | forget e' =>
    show (m.forget e').Gone e
    refine ⟨?_, ?_⟩
    · rw [forget_books]
      by_cases heq : e = e'
      · rw [heq, update_self]
      · rw [update_of_ne heq]
        exact h.book
    · rw [forget_sidOf]
      by_cases heq : e = e'
      · rw [heq, update_self]
      · rw [update_of_ne heq]
        exact h.bound

/-- A call that does not name the market does not ask for it. -/
lemma Gone.not_asked (h : m.Gone e) (hm : m.Consistent) {c : ManagerCall} (hc : ¬ c.Names e)
    {es : Finset EntityId} (hhits : m.hits epoch c = some (sid, es)) : e ∉ es := by
  cases c with
  | onDelta sid' e' side price d seq =>
    simp only [hits] at hhits
    split at hhits
    · cases hhits
      exact h.not_member hm
    · cases hhits
    · split_ifs at hhits
      cases hhits
      exact fun he => hc (Finset.mem_singleton.1 he).symm
  | onControlSeq sid' seq =>
    simp only [hits] at hhits
    split_ifs at hhits
    cases hhits
    exact h.not_member hm
  | _ => cases hhits

/-! ### Runs -/

lemma keyed_run (cs : List (Nat × ManagerCall)) : (run handleAt {} cs).Keyed :=
  run_inv (P := Keyed) (A := fun _ _ => True) (fun _ p h _ => h.handle p.2)
    (fun _ _ hs => by cases hs) (along_of_forall (by simp))

/-- What is asked for after the first `n` requests does not name the market. -/
def NotAskedSince (n : Nat) (e : EntityId) (m : OrderBookManager) : Prop :=
  n ≤ m.requests.length ∧ ∀ r ∈ m.requests.drop n, e ∉ r.markets

lemma NotAskedSince.handle {n : Nat} (h : m.NotAskedSince n e) (hgone : m.Gone e)
    (hm : m.Consistent) (hkeyed : m.Keyed) {c : ManagerCall} (hc : ¬ c.Names e) :
    (m.handle epoch c).NotAskedSince n e := by
  rw [NotAskedSince, handle_requests hkeyed c, List.length_append,
    List.drop_append_of_le_length h.1]
  refine ⟨by have := h.1; omega, ?_⟩
  intro r hr
  rcases List.mem_append.1 hr with hr | hr
  · exact h.2 r hr
  · obtain ⟨⟨sid, es⟩, hhits, rfl⟩ := List.mem_map.1 hr
    rw [Option.mem_toList] at hhits
    rw [Finset.mem_sort]
    exact hgone.not_asked hm hc hhits

/-- Where sets and map agree all along, a forgotten market is gone. -/
lemma forgetsAll_of_consistent {cs : List (Nat × ManagerCall)}
    (h : ∀ before, before <+: cs → (run handleAt {} before).Consistent) : ForgetsAll cs := by
  intro before epoch e later hpre hlater
  have hmain : ∀ calls, calls <+: later →
      (run handleAt {} (before ++ (epoch, .forget e) :: calls)).Gone e ∧
        (run handleAt {} (before ++ (epoch, .forget e) :: calls)).NotAskedSince
          (run handleAt {} before).requests.length e := by
    intro calls
    induction calls using List.reverseRecOn with
    | nil =>
      intro _
      rw [run_append]
      refine ⟨gone_forget e, ?_⟩
      show NotAskedSince _ e ((run handleAt {} before).forget e)
      rw [NotAskedSince, forget_requests, List.drop_length]
      exact ⟨le_rfl, by simp⟩
    | append_singleton calls p ih =>
      rintro ⟨rest, hrest⟩
      have hcalls : calls <+: later := ⟨p :: rest, by rw [← hrest, List.append_assoc]; rfl⟩
      obtain ⟨hgone, hnot⟩ := ih hcalls
      have hp : ¬ p.2.Names e := hlater p (by rw [← hrest]; simp)
      have hreached : before ++ (epoch, .forget e) :: calls <+: cs := by
        refine List.IsPrefix.trans ?_ hpre
        exact (List.prefix_append_right_inj before).2 (List.cons_prefix_cons.2 ⟨rfl, hcalls⟩)
      have hsplit : before ++ (epoch, ManagerCall.forget e) :: (calls ++ [p]) =
          (before ++ (epoch, .forget e) :: calls) ++ [p] := by simp
      rw [hsplit, run_append]
      exact ⟨hgone.handle (h _ hreached) hp,
        hnot.handle hgone (h _ hreached) (keyed_run _) hp⟩
  obtain ⟨hgone, hnot⟩ := hmain later List.prefix_rfl
  exact ⟨hgone.book, hnot.2⟩

/-- In every run of a new manager: sets and map agree in every state that is reached and a forgotten
    market is gone until it is named again, iff no call binds a market that is bound to another
    subscription. -/
theorem membership_iff (cs : List (Nat × ManagerCall)) :
    ((∀ before, before <+: cs → (run handleAt {} before).Consistent) ∧ ForgetsAll cs) ↔
      Along handleAt BindsFresh {} cs := by
  have hstart : ({} : OrderBookManager).Consistent := by
    rw [consistent_iff]
    intro e sid
    simp [IsMember]
  have hagree : (∀ before, before <+: cs → (run handleAt {} before).Consistent) ↔
      Along handleAt BindsFresh {} cs :=
    forall_prefix_iff_along hstart fun before p _ _ hbefore => consistent_step_iff hbefore p
  rw [← hagree]
  exact ⟨And.left, fun h => ⟨h, forgetsAll_of_consistent h⟩⟩

/-- A market is bound again and forgotten. A gap on its old subscription finds it there: it gets a
book again and is asked for. -/
theorem membership_rebound :
    ¬ (run handleAt {} [(1, .bind 1 5), (2, .bind 2 5)]).Consistent ∧
      (run handleAt {} [(1, .bind 1 5), (2, .bind 2 5), (2, .forget 5), (2, .onControlSeq 1 1),
        (2, .onControlSeq 1 9)]).books 5 ≠ none ∧
      ∃ r ∈ (run handleAt {} [(1, .bind 1 5), (2, .bind 2 5), (2, .forget 5),
        (2, .onControlSeq 1 1), (2, .onControlSeq 1 9)]).requests, 5 ∈ r.markets := by
  refine ⟨fun h => ?_, by decide, _, List.mem_singleton_self _, ?_⟩
  · have hfirst : (run handleAt {} [(1, .bind 1 5), (2, .bind 2 5)]).IsMember 1 5 :=
      ⟨_, rfl, by decide⟩
    rw [h.member_iff] at hfirst
    cases hfirst
  · simp only [Finset.mem_sort]
    decide

end OrderBookManager

end HftBot
