import Mathlib.Data.List.Forall2
import Mathlib.Tactic.Common

/-!
# Computations that raise

When a computation returns, and the checks of a validator: a report is the list of messages of the
checks that failed, unless one of them raised.
-/

namespace HftBot.Core

variable {ε α β : Type}

/-! ### Returning -/

/-- The computation raises nothing. -/
def Returns (x : Except ε α) : Prop := ∃ a, x = .ok a

@[simp] lemma returns_ok (a : α) : Returns (.ok a : Except ε α) := ⟨a, rfl⟩

@[simp] lemma returns_pure (a : α) : Returns (pure a : Except ε α) := ⟨a, rfl⟩

@[simp] lemma not_returns_error (e : ε) : ¬ Returns (.error e : Except ε α) := by
  rintro ⟨a, h⟩
  cases h

lemma bind_eq_ok {x : Except ε α} {f : α → Except ε β} {b : β} :
    (x >>= f) = .ok b ↔ ∃ a, x = .ok a ∧ f a = .ok b := by
  cases x with
  | error e =>
    constructor
    · intro h
      cases h
    · rintro ⟨a, h, -⟩
      cases h
  | ok a =>
    constructor
    · exact fun h => ⟨a, rfl, h⟩
    · rintro ⟨a', h, h'⟩
      cases h
      exact h'

lemma pure_eq_ok {a b : α} : (pure a : Except ε α) = .ok b ↔ a = b := by
  constructor
  · intro h
    cases h
    rfl
  · rintro rfl
    rfl

lemma returns_bind {x : Except ε α} {f : α → Except ε β} :
    Returns (x >>= f) ↔ ∃ a, x = .ok a ∧ Returns (f a) := by
  constructor
  · rintro ⟨b, h⟩
    obtain ⟨a, hx, hf⟩ := bind_eq_ok.1 h
    exact ⟨a, hx, b, hf⟩
  · rintro ⟨a, hx, b, hf⟩
    exact ⟨b, bind_eq_ok.2 ⟨a, hx, hf⟩⟩

/-- What follows a value that is returned decides. -/
lemma returns_bind_of_eq {x : Except ε α} {f : α → Except ε β} {a : α} (h : x = .ok a) :
    Returns (x >>= f) ↔ Returns (f a) := by
  rw [h]
  rfl

lemma returns_map {x : Except ε α} {f : α → β} :
    Returns (x >>= fun a => pure (f a)) ↔ Returns x := by
  rw [returns_bind]
  constructor
  · rintro ⟨a, h, -⟩
    exact ⟨a, h⟩
  · rintro ⟨a, h⟩
    exact ⟨a, h, returns_pure _⟩

lemma mapM_eq_ok {f : α → Except ε β} {xs : List α} {ys : List β} :
    xs.mapM f = .ok ys ↔ List.Forall₂ (fun x y => f x = .ok y) xs ys := by
  induction xs generalizing ys with
  | nil =>
    rw [List.mapM_nil, List.forall₂_nil_left_iff]
    constructor
    · intro h
      cases h
      rfl
    · rintro rfl
      rfl
  | cons x xs ih =>
    rw [List.mapM_cons, bind_eq_ok, List.forall₂_cons_left_iff]
    constructor
    · rintro ⟨y, hy, h⟩
      obtain ⟨ys', hys, h⟩ := bind_eq_ok.1 h
      cases h
      exact ⟨y, ys', hy, ih.1 hys, rfl⟩
    · rintro ⟨y, ys', hy, hys, rfl⟩
      exact ⟨y, hy, bind_eq_ok.2 ⟨ys', ih.2 hys, rfl⟩⟩

lemma mapM_congr {f : α → Except ε β} {xs ys : List α}
    (h : List.Forall₂ (fun x y => f x = f y) xs ys) : xs.mapM f = ys.mapM f := by
  induction h with
  | nil => rfl
  | cons hxy _ ih => rw [List.mapM_cons, List.mapM_cons, hxy, ih]

lemma returns_mapM {f : α → Except ε β} {xs : List α} :
    Returns (xs.mapM f) ↔ ∀ x ∈ xs, Returns (f x) := by
  induction xs with
  | nil => exact iff_of_true ⟨[], rfl⟩ fun _ h => absurd h List.not_mem_nil
  | cons x xs ih =>
    rw [List.mapM_cons, returns_bind, List.forall_mem_cons, ← ih]
    constructor
    · rintro ⟨y, hy, h⟩
      exact ⟨⟨y, hy⟩, returns_map.1 h⟩
    · rintro ⟨⟨y, hy⟩, h⟩
      exact ⟨y, hy, returns_map.2 h⟩

/-- A computation that is made under a condition only. -/
lemma returns_if {b : Bool} {x : Except ε α} {a : α} :
    Returns (if b = true then x else pure a) ↔ (b = true → Returns x) := by
  cases b with
  | false => exact iff_of_true (returns_pure a) fun h => by cases h
  | true => rw [if_pos rfl, imp_iff_right rfl]

/-! ### Conditions -/

/-- `a and b`, which looks at `b` only when `a` holds. -/
def both (a b : Except ε Bool) : Except ε Bool := do
  if ← a then b else pure false

lemma both_eq_true {a b : Except ε Bool} :
    both a b = .ok true ↔ a = .ok true ∧ b = .ok true := by
  rw [both, bind_eq_ok]
  constructor
  · rintro ⟨x, ha, h⟩
    cases x with
    | false => cases h
    | true => exact ⟨ha, h⟩
  · rintro ⟨ha, hb⟩
    exact ⟨true, ha, hb⟩

lemma returns_both {a b : Except ε Bool} :
    Returns (both a b) ↔ Returns a ∧ (a = .ok true → Returns b) := by
  rw [both, returns_bind]
  constructor
  · rintro ⟨x, ha, h⟩
    refine ⟨⟨x, ha⟩, fun ht => ?_⟩
    cases ha.symm.trans ht
    exact h
  · rintro ⟨⟨x, ha⟩, h⟩
    refine ⟨x, ha, ?_⟩
    cases x with
    | false => exact returns_pure false
    | true => exact h ha

lemma returns_both_of_right {a b : Except ε Bool} (hb : Returns b) :
    Returns (both a b) ↔ Returns a := by
  rw [returns_both, and_iff_left_iff_imp]
  exact fun _ _ => hb

/-- `all(p(x) for x in xs)`, which stops at the first that fails. -/
def allOf (p : α → Except ε Bool) : List α → Except ε Bool
  | []      => pure true
  | x :: xs => both (p x) (allOf p xs)

lemma allOf_eq_true {p : α → Except ε Bool} {xs : List α} :
    allOf p xs = .ok true ↔ ∀ x ∈ xs, p x = .ok true := by
  induction xs with
  | nil => exact iff_of_true rfl fun _ h => absurd h List.not_mem_nil
  | cons x xs ih => rw [allOf, both_eq_true, ih, List.forall_mem_cons]

/-- Only what is reached can raise. -/
lemma returns_allOf {p : α → Except ε Bool} {xs : List α} :
    Returns (allOf p xs) ↔ ∀ before x after, xs = before ++ x :: after →
      (∀ y ∈ before, p y = .ok true) → Returns (p x) := by
  induction xs with
  | nil =>
    refine iff_of_true (returns_pure true) fun before x after h => ?_
    exact absurd h.symm (List.append_ne_nil_of_right_ne_nil _ (List.cons_ne_nil _ _))
  | cons x xs ih =>
    rw [allOf, returns_both, ih]
    constructor
    · rintro ⟨hx, hxs⟩ before y after h hbefore
      cases before with
      | nil =>
        cases h
        exact hx
      | cons z before =>
        cases h
        obtain ⟨hz, hbefore⟩ := List.forall_mem_cons.1 hbefore
        exact hxs hz before y after rfl hbefore
    · intro h
      refine ⟨h [] x xs rfl fun _ hy => absurd hy List.not_mem_nil, ?_⟩
      intro hx before y after hxs hbefore
      exact h (x :: before) y after (by rw [hxs]; rfl) (List.forall_mem_cons.2 ⟨hx, hbefore⟩)

/-- `not a`. -/
def negated (a : Except ε Bool) : Except ε Bool := do pure !(← a)

lemma negated_eq_ok {a : Except ε Bool} {b : Bool} : negated a = .ok b ↔ a = .ok !b := by
  rw [negated, bind_eq_ok]
  constructor
  · rintro ⟨x, ha, h⟩
    rw [ha, ← pure_eq_ok.1 h, Bool.not_not]
  · intro ha
    exact ⟨!b, ha, by rw [Bool.not_not]; rfl⟩

@[simp] lemma returns_negated {a : Except ε Bool} : Returns (negated a) ↔ Returns a := returns_map

/-- `any(p(x) for x in xs)`, which stops at the first that holds. -/
def anyOf (p : α → Except ε Bool) (xs : List α) : Except ε Bool :=
  negated (allOf (fun x => negated (p x)) xs)

lemma returns_anyOf {p : α → Except ε Bool} {xs : List α} :
    Returns (anyOf p xs) ↔ ∀ before x after, xs = before ++ x :: after →
      (∀ y ∈ before, p y = .ok false) → Returns (p x) := by
  rw [anyOf, returns_negated, returns_allOf]
  simp only [negated_eq_ok, Bool.not_true, returns_negated]

lemma allOf_eq_all {p : α → Except ε Bool} {b : α → Bool} {xs : List α}
    (h : ∀ x ∈ xs, p x = .ok (b x)) : allOf p xs = .ok (xs.all b) := by
  induction xs with
  | nil => rfl
  | cons x xs ih =>
    obtain ⟨hx, hxs⟩ := List.forall_mem_cons.1 h
    rw [allOf, hx, ih hxs, List.all_cons]
    cases b x <;> rfl

lemma anyOf_eq_any {p : α → Except ε Bool} {b : α → Bool} {xs : List α}
    (h : ∀ x ∈ xs, p x = .ok (b x)) : anyOf p xs = .ok (xs.any b) := by
  have hall : allOf (fun x => negated (p x)) xs = .ok (xs.all fun x => !b x) := by
    refine allOf_eq_all fun x hx => negated_eq_ok.2 ?_
    rw [h x hx, Bool.not_not]
  rw [anyOf, negated_eq_ok, hall, List.any_eq_not_all_not, Bool.not_not]

/-! ### Reports -/

/-- A message for a condition that does not hold. -/
def expect (condition : Except ε Bool) (message : α) : Except ε (List α) := do
  pure (if ← condition then [] else [message])

/-- The messages of all reports, in order. -/
def allReports : List (Except ε (List α)) → Except ε (List α)
  | []             => pure []
  | report :: rest => do pure ((← report) ++ (← allReports rest))

lemma expect_eq_nil {condition : Except ε Bool} {message : α} :
    expect condition message = .ok [] ↔ condition = .ok true := by
  rw [expect, bind_eq_ok]
  constructor
  · rintro ⟨x, hx, h⟩
    cases x with
    | false => cases pure_eq_ok.1 h
    | true => exact hx
  · exact fun h => ⟨true, h, rfl⟩

@[simp] lemma returns_expect {condition : Except ε Bool} {message : α} :
    Returns (expect condition message) ↔ Returns condition :=
  returns_map

lemma allReports_eq_nil {reports : List (Except ε (List α))} :
    allReports reports = .ok [] ↔ ∀ report ∈ reports, report = .ok [] := by
  induction reports with
  | nil => exact iff_of_true rfl fun _ h => absurd h List.not_mem_nil
  | cons report rest ih =>
    rw [allReports, bind_eq_ok, List.forall_mem_cons, ← ih]
    constructor
    · rintro ⟨messages, hreport, h⟩
      obtain ⟨others, hrest, h⟩ := bind_eq_ok.1 h
      obtain ⟨rfl, rfl⟩ := List.append_eq_nil_iff.1 (pure_eq_ok.1 h)
      exact ⟨hreport, hrest⟩
    · rintro ⟨hreport, hrest⟩
      exact ⟨[], hreport, bind_eq_ok.2 ⟨[], hrest, rfl⟩⟩

lemma returns_allReports {reports : List (Except ε (List α))} :
    Returns (allReports reports) ↔ ∀ report ∈ reports, Returns report := by
  induction reports with
  | nil => exact iff_of_true (returns_pure []) fun _ h => absurd h List.not_mem_nil
  | cons report rest ih =>
    rw [allReports, returns_bind, List.forall_mem_cons, ← ih]
    constructor
    · rintro ⟨messages, hreport, h⟩
      exact ⟨⟨messages, hreport⟩, returns_map.1 h⟩
    · rintro ⟨⟨messages, hreport⟩, h⟩
      exact ⟨messages, hreport, returns_map.2 h⟩

@[simp] lemma returns_allReports_nil : Returns (allReports ([] : List (Except ε (List α)))) :=
  returns_pure []

@[simp] lemma returns_allReports_cons {report : Except ε (List α)}
    {rest : List (Except ε (List α))} :
    Returns (allReports (report :: rest)) ↔ Returns report ∧ Returns (allReports rest) := by
  rw [returns_allReports, List.forall_mem_cons, ← returns_allReports]

@[simp] lemma returns_allReports_append {reports others : List (Except ε (List α))} :
    Returns (allReports (reports ++ others)) ↔
      Returns (allReports reports) ∧ Returns (allReports others) := by
  rw [returns_allReports, List.forall_mem_append, ← returns_allReports, ← returns_allReports]

@[simp] lemma returns_allReports_map {report : β → Except ε (List α)} {xs : List β} :
    Returns (allReports (xs.map report)) ↔ ∀ x ∈ xs, Returns (report x) := by
  rw [returns_allReports, List.forall_mem_map]

@[simp] lemma returns_allReports_flatMap {reports : β → List (Except ε (List α))} {xs : List β} :
    Returns (allReports (xs.flatMap reports)) ↔ ∀ x ∈ xs, Returns (allReports (reports x)) := by
  induction xs with
  | nil => exact iff_of_true returns_allReports_nil fun _ h => absurd h List.not_mem_nil
  | cons x xs ih => rw [List.flatMap_cons, returns_allReports_append, ih, List.forall_mem_cons]

end HftBot.Core
