import HftBot.Core.Double
import HftBot.Core.Returns
import Mathlib.Data.List.Infix

/-!
# JSON values as Python objects

What `json.loads` returns, and the operations of the language on it that can raise. A string is a
list of code points, lone surrogates included. Equality is that of the language: numbers of the
three kinds are compared by value, and an object is compared as a map.
-/

namespace HftBot.Core

/-! ### Strings -/

abbrev CodePoint := Fin 0x110000

abbrev Text := List CodePoint

/-- The code point of a character. -/
def codePoint (c : Char) : CodePoint :=
  ⟨c.toNat, by
    rcases c.valid with h | h
    · exact Nat.lt_trans h (by decide)
    · exact h.2⟩

/-- A literal of the source. -/
def text (s : String) : Text := s.toList.map codePoint

lemma codePoint_inj {c d : Char} : codePoint c = codePoint d ↔ c = d := by
  simp only [codePoint, Fin.mk.injEq, Char.toNat_inj]

lemma text_inj {s t : String} : text s = text t ↔ s = t := by
  rw [text, text, List.map_inj_right fun _ _ h => codePoint_inj.1 h, String.toList_inj]

/-- A code point that no character has. -/
def CodePoint.IsSurrogate (c : CodePoint) : Prop := 0xd800 ≤ c.val ∧ c.val < 0xe000

instance (c : CodePoint) : Decidable c.IsSurrogate :=
  inferInstanceAs (Decidable (_ ∧ _))

/-! ### Values -/

/-- The exceptions that the operations below raise. -/
inductive PyError
  | attributeError
  | keyError
  | indexError
  | typeError
  | valueError
  | overflowError
  | unicodeEncodeError
  | unicodeDecodeError
  | osError
  deriving DecidableEq

inductive PyValue
  | null
  | bool (b : Bool)
  | int (n : Int)
  | float (x : Double)
  | str (s : Text)
  | list (items : List PyValue)
  | dict (members : List (Text × PyValue))

namespace PyValue

/-- An induction over a value has the elements of a list and the values of an object. -/
theorem induct {motive : PyValue → Prop} (null : motive null) (bool : ∀ b, motive (bool b))
    (int : ∀ n, motive (int n)) (float : ∀ x, motive (float x)) (str : ∀ s, motive (str s))
    (list : ∀ items, (∀ v ∈ items, motive v) → motive (list items))
    (dict : ∀ members, (∀ m ∈ members, motive m.2) → motive (dict members)) (v : PyValue) :
    motive v := by
  refine @PyValue.rec motive (fun items => ∀ v ∈ items, motive v)
    (fun members => ∀ m ∈ members, motive m.2) (fun m => motive m.2)
    null bool int float str list dict ?_ ?_ ?_ ?_ ?_ v
  · exact fun _ h => absurd h List.not_mem_nil
  · exact fun v items hv hitems => List.forall_mem_cons.2 ⟨hv, hitems⟩
  · exact fun _ h => absurd h List.not_mem_nil
  · exact fun m members hm hmembers => List.forall_mem_cons.2 ⟨hm, hmembers⟩
  · exact fun _ _ hv => hv

/-- An object made of members with literal names. -/
def object (members : List (String × PyValue)) : PyValue :=
  dict (members.map fun m => (text m.1, m.2))

def string (s : String) : PyValue := str (text s)

def strings (ss : List String) : PyValue := list (ss.map string)

/-! ### Equality -/

/-- The value as a number: a truth value is one. -/
def number : PyValue → Option (Int ⊕ Double)
  | bool b  => some (.inl b.toInt)
  | int n   => some (.inl n)
  | float x => some (.inr x)
  | _       => none

def numberEq : Int ⊕ Double → Int ⊕ Double → Bool
  | .inl m, .inl n => m = n
  | .inl m, .inr y => y.eqInt m
  | .inr x, .inl n => x.eqInt n
  | .inr x, .inr y => x.eq y

def eqNumber (x : Int ⊕ Double) (w : PyValue) : Bool := w.number.any (numberEq x)

mutual

/-- The `==` of the language. -/
def eq : PyValue → PyValue → Bool
  | null, null => true
  | str s, str t => s = t
  | list xs, list ys => eqList xs ys
  | dict xs, dict ys => xs.length = ys.length && eqMembers xs ys
  | bool b, w => eqNumber (.inl b.toInt) w
  | int n, w => eqNumber (.inl n) w
  | float x, w => eqNumber (.inr x) w
  | _, _ => false

def eqList : List PyValue → List PyValue → Bool
  | [], [] => true
  | x :: xs, y :: ys => eq x y && eqList xs ys
  | _, _ => false

/-- Every member is one of the other object too. -/
def eqMembers : List (Text × PyValue) → List (Text × PyValue) → Bool
  | [], _ => true
  | (k, v) :: xs, ys => (match ys.lookup k with
      | some w => eq v w
      | none => false) && eqMembers xs ys

end

/-! ### Operations that raise nothing -/

def isDict : PyValue → Bool
  | dict _ => true
  | _      => false

def isList : PyValue → Bool
  | list _ => true
  | _      => false

/-- The truth value. -/
def truthy : PyValue → Bool
  | null    => false
  | bool b  => b
  | int n   => n ≠ 0
  | float x => !x.eqInt 0
  | str s   => s ≠ []
  | list xs => !xs.isEmpty
  | dict xs => !xs.isEmpty

/-- The value can be a key of a dictionary or an element of a set. -/
def hashable : PyValue → Bool
  | list _ => false
  | dict _ => false
  | _      => true

/-- The text is that literal. -/
def isText (v : PyValue) (s : String) : Bool := v.eq (string s)

/-! ### Operations that raise -/

abbrev Raising := Except PyError

/-- `v.get(key, default)`. -/
def getOr (v : PyValue) (key : String) (default : PyValue) : Raising PyValue :=
  match v with
  | dict members => .ok ((members.lookup (text key)).getD default)
  | _            => .error .attributeError

/-- `v.get(key)`. -/
def get (v : PyValue) (key : String) : Raising PyValue := v.getOr key null

/-- `v[key]`. -/
def item (v : PyValue) (key : String) : Raising PyValue :=
  match v with
  | dict members => ((members.lookup (text key)).elim (.error .keyError) .ok)
  | _            => .error .typeError

/-- `s in v`: a part of a text, an element of a list or a key of an object. -/
def contains (v : PyValue) (s : String) : Raising Bool :=
  match v with
  | str t        => .ok (decide (text s <:+: t))
  | list items   => .ok (items.any fun x => x.isText s)
  | dict members => .ok (members.lookup (text s)).isSome
  | _            => .error .typeError

/-- `v in names`, for a set of texts. -/
def isIn (v : PyValue) (names : List String) : Raising Bool :=
  if v.hashable then .ok (names.any v.isText) else .error .typeError

/-- What a loop over the value goes through. -/
def elements : PyValue → Raising (List PyValue)
  | list items   => .ok items
  | dict members => .ok (members.map fun m => str m.1)
  | str s        => .ok (s.map fun c => str [c])
  | _            => .error .typeError

/-- `total + v`, for a number that is a truth value, an integer or a float. -/
def plus (total v : PyValue) : Raising PyValue :=
  match total.number, v.number with
  | some (.inl m), some (.inl n) => .ok (int (m + n))
  | some (.inl m), some (.inr y) =>
    (Double.ofInt m).elim (.error .overflowError) fun x => .ok (float (x.add y))
  | some (.inr x), some (.inl n) =>
    (Double.ofInt n).elim (.error .overflowError) fun y => .ok (float (x.add y))
  | some (.inr x), some (.inr y) => .ok (float (x.add y))
  | _, _                         => .error .typeError

/-- `sum` from left to right. -/
def sum (vs : List PyValue) : Raising PyValue := vs.foldlM plus (int 0)

/-- `v.get(key) == s`. -/
def getIs (v : PyValue) (key s : String) : Raising Bool := do pure ((← v.get key).isText s)

/-- `v[key] == s`. -/
def itemIs (v : PyValue) (key s : String) : Raising Bool := do pure ((← v.item key).isText s)

/-- `s in v[key]`. -/
def itemContains (v : PyValue) (key s : String) : Raising Bool := do (← v.item key).contains s

/-- `bool(v.get(key))`. -/
def getTruthy (v : PyValue) (key : String) : Raising Bool := do pure (← v.get key).truthy

/-- `bool(v[key])`. -/
def itemTruthy (v : PyValue) (key : String) : Raising Bool := do pure (← v.item key).truthy

/-- `v[outer][inner]`. -/
def nestedItem (v : PyValue) (outer inner : String) : Raising PyValue := do
  (← v.item outer).item inner

/-- `v[outer][inner] == s`. -/
def nestedIs (v : PyValue) (outer inner s : String) : Raising Bool := do
  pure ((← v.nestedItem outer inner).isText s)

/-- `bool(v[outer][inner])`. -/
def nestedTruthy (v : PyValue) (outer inner : String) : Raising Bool := do
  pure (← v.nestedItem outer inner).truthy

/-- The object without a member. -/
def without (v : PyValue) (key : String) : PyValue :=
  match v with
  | dict members => dict (members.filter fun m => m.1 ≠ text key)
  | v            => v

/-! ### When they return -/

/-- The member of that name, of an object that has it. -/
def field (v : PyValue) (key : String) : Option PyValue :=
  match v with
  | dict members => members.lookup (text key)
  | _            => none

/-- The member of that name, or null. -/
def valueAt (v : PyValue) (key : String) : PyValue := (v.field key).getD null

/-- The member of a member. -/
def nested (v : PyValue) (outer inner : String) : Option PyValue :=
  (v.field outer).bind fun w => w.field inner

/-- The member of a member, or null. -/
def nestedAt (v : PyValue) (outer inner : String) : PyValue := (v.nested outer inner).getD null

/-- The value is one of the names. -/
def isOneOf (v : PyValue) (names : List String) : Bool := names.any v.isText

/-- `in` and a loop can look into the value. -/
def isContainer : PyValue → Bool
  | str _  => true
  | list _ => true
  | dict _ => true
  | _      => false

lemma getOr_eq_ok {v default w : PyValue} {key : String} :
    v.getOr key default = .ok w ↔ v.isDict = true ∧ (v.field key).getD default = w := by
  cases v with
  | dict members =>
    constructor
    · intro h
      cases h
      exact ⟨rfl, rfl⟩
    · rintro ⟨-, rfl⟩
      rfl
  | _ => exact iff_of_false (fun h => by cases h) fun h => absurd h.1 (by simp [isDict])

lemma get_eq_ok {v w : PyValue} {key : String} :
    v.get key = .ok w ↔ v.isDict = true ∧ v.valueAt key = w :=
  getOr_eq_ok

lemma item_eq_ok {v w : PyValue} {key : String} : v.item key = .ok w ↔ v.field key = some w := by
  cases v with
  | dict members =>
    rw [item, field]
    cases members.lookup (text key) with
    | none => exact iff_of_false (fun h => by cases h) fun h => by cases h
    | some x =>
      constructor
      · intro h
        cases h
        rfl
      · intro h
        cases h
        rfl
  | _ => exact iff_of_false (fun h => by cases h) fun h => by cases h

@[simp] lemma returns_getOr {v default : PyValue} {key : String} :
    Returns (v.getOr key default) ↔ v.isDict = true := by
  cases v with
  | dict members => exact iff_of_true ⟨_, rfl⟩ rfl
  | _ => exact iff_of_false (not_returns_error _) (by simp [isDict])

@[simp] lemma returns_get {v : PyValue} {key : String} : Returns (v.get key) ↔ v.isDict = true :=
  returns_getOr

@[simp] lemma returns_item {v : PyValue} {key : String} :
    Returns (v.item key) ↔ (v.field key).isSome = true := by
  rw [Returns, Option.isSome_iff_exists]
  exact exists_congr fun w => item_eq_ok

lemma returns_getOr_bind {α : Type} {v default : PyValue} {key : String}
    {f : PyValue → Raising α} :
    Returns (v.getOr key default >>= f) ↔
      v.isDict = true ∧ Returns (f ((v.field key).getD default)) := by
  rw [returns_bind]
  constructor
  · rintro ⟨w, hw, h⟩
    obtain ⟨hv, rfl⟩ := getOr_eq_ok.1 hw
    exact ⟨hv, h⟩
  · rintro ⟨hv, h⟩
    exact ⟨_, getOr_eq_ok.2 ⟨hv, rfl⟩, h⟩

lemma returns_get_bind {α : Type} {v : PyValue} {key : String} {f : PyValue → Raising α} :
    Returns (v.get key >>= f) ↔ v.isDict = true ∧ Returns (f (v.valueAt key)) :=
  returns_getOr_bind

lemma returns_item_bind {α : Type} {v : PyValue} {key : String} {f : PyValue → Raising α} :
    Returns (v.item key >>= f) ↔ ∃ w, v.field key = some w ∧ Returns (f w) := by
  simp only [returns_bind, item_eq_ok]

@[simp] lemma returns_contains {v : PyValue} {s : String} :
    Returns (v.contains s) ↔ v.isContainer = true := by
  cases v with
  | str t => exact iff_of_true (returns_ok _) rfl
  | list items => exact iff_of_true (returns_ok _) rfl
  | dict members => exact iff_of_true (returns_ok _) rfl
  | _ => exact iff_of_false (not_returns_error _) (by simp [isContainer])

@[simp] lemma returns_elements {v : PyValue} :
    Returns v.elements ↔ v.isContainer = true := by
  cases v with
  | str t => exact iff_of_true (returns_ok _) rfl
  | list items => exact iff_of_true (returns_ok _) rfl
  | dict members => exact iff_of_true (returns_ok _) rfl
  | _ => exact iff_of_false (not_returns_error _) (by simp [isContainer])

lemma isIn_eq_true {v : PyValue} {names : List String} :
    v.isIn names = .ok true ↔ v.isOneOf names = true := by
  rw [isIn]
  split
  · exact pure_eq_ok
  · rename_i h
    refine iff_of_false (fun h => by cases h) ?_
    -- a text can be hashed
    rw [isOneOf, List.any_eq_true]
    rintro ⟨name, -, hname⟩
    cases v with
    | list items => exact absurd hname (by simp [isText, string, eq])
    | dict members => exact absurd hname (by simp [isText, string, eq])
    | _ => exact h rfl

@[simp] lemma returns_isIn {v : PyValue} {names : List String} :
    Returns (v.isIn names) ↔ v.hashable = true := by
  rw [isIn]
  split
  · rename_i h
    exact iff_of_true (returns_ok _) h
  · rename_i h
    exact iff_of_false (not_returns_error _) h

lemma returns_isIn_bind {α : Type} {v : PyValue} {names : List String} {f : Bool → Raising α} :
    Returns (v.isIn names >>= f) ↔ v.hashable = true ∧ Returns (f (v.isOneOf names)) := by
  rw [isIn]
  split
  · rename_i h
    exact (and_iff_right h).symm
  · rename_i h
    exact iff_of_false (not_returns_error _) fun h' => h h'.1

lemma isDict_of_field {v w : PyValue} {key : String} (h : v.field key = some w) :
    v.isDict = true := by
  cases v with
  | dict members => rfl
  | _ => cases h

/-- A condition that null does not meet is met by a member only when there is one. -/
lemma exists_getD_iff {P : PyValue → Prop} (hnull : ¬ P null) {x : Option PyValue} :
    (∃ w, x = some w ∧ P w) ↔ P (x.getD null) := by
  cases x with
  | none => exact iff_of_false (fun ⟨w, h, _⟩ => by cases h) hnull
  | some v =>
    constructor
    · rintro ⟨w, ⟨⟩, h⟩
      exact h
    · exact fun h => ⟨v, rfl, h⟩

lemma isDict_of_valueAt {P : PyValue → Prop} (hnull : ¬ P null) {v : PyValue} {key : String}
    (h : P (v.valueAt key)) : v.isDict = true := by
  obtain ⟨w, hw, -⟩ := (exists_getD_iff hnull).2 h
  exact isDict_of_field hw

lemma isText_iff {v : PyValue} {s : String} : v.isText s = true ↔ v = string s := by
  rw [isText, string]
  cases v with
  | str t => rw [eq, decide_eq_true_iff, str.injEq]
  | _ => exact iff_of_false (by simp [eq, eqNumber, number]) fun h => by cases h

lemma string_inj {s t : String} : string s = string t ↔ s = t := by
  rw [string, string, str.injEq, text_inj]

lemma not_isText_null {s : String} : ¬ null.isText s = true := Bool.false_ne_true

lemma not_truthy_null : ¬ null.truthy = true := Bool.false_ne_true

@[simp] lemma returns_getIs {v : PyValue} {key s : String} :
    Returns (v.getIs key s) ↔ v.isDict = true :=
  returns_map.trans returns_get

lemma getIs_eq_ok {v : PyValue} {key s : String} {b : Bool} :
    v.getIs key s = .ok b ↔ v.isDict = true ∧ (v.valueAt key).isText s = b := by
  rw [getIs, bind_eq_ok]
  constructor
  · rintro ⟨w, hw, h⟩
    obtain ⟨hv, rfl⟩ := get_eq_ok.1 hw
    exact ⟨hv, pure_eq_ok.1 h⟩
  · rintro ⟨hv, h⟩
    exact ⟨_, get_eq_ok.2 ⟨hv, rfl⟩, pure_eq_ok.2 h⟩

lemma getIs_eq_true {v : PyValue} {key s : String} :
    v.getIs key s = .ok true ↔ (v.valueAt key).isText s = true := by
  rw [getIs_eq_ok, and_iff_right_iff_imp]
  exact isDict_of_valueAt (P := fun w => w.isText s = true) not_isText_null

@[simp] lemma returns_itemIs {v : PyValue} {key s : String} :
    Returns (v.itemIs key s) ↔ (v.field key).isSome = true :=
  returns_map.trans returns_item

lemma itemIs_eq_true {v : PyValue} {key s : String} :
    v.itemIs key s = .ok true ↔ (v.valueAt key).isText s = true := by
  simp only [itemIs, bind_eq_ok, item_eq_ok, pure_eq_ok]
  exact exists_getD_iff not_isText_null

@[simp] lemma returns_itemContains {v : PyValue} {key s : String} :
    Returns (v.itemContains key s) ↔ (v.valueAt key).isContainer = true := by
  simp only [itemContains, returns_bind, item_eq_ok, returns_contains]
  exact exists_getD_iff Bool.false_ne_true

@[simp] lemma returns_getTruthy {v : PyValue} {key : String} :
    Returns (v.getTruthy key) ↔ v.isDict = true :=
  returns_map.trans returns_get

lemma isOneOf_iff {v : PyValue} {names : List String} :
    v.isOneOf names = true ↔ ∃ name ∈ names, v = string name := by
  simp only [isOneOf, List.any_eq_true, isText_iff]

lemma not_isOneOf_null {names : List String} : ¬ null.isOneOf names = true := by
  rw [isOneOf_iff]
  rintro ⟨name, -, h⟩
  cases h

lemma item_of_isOneOf {v : PyValue} {key : String} {names : List String}
    (h : (v.valueAt key).isOneOf names = true) : v.item key = .ok (v.valueAt key) := by
  obtain ⟨w, hw, -⟩ := (exists_getD_iff (P := fun w => w.isOneOf names = true) not_isOneOf_null).2 h
  rw [item_eq_ok, valueAt, hw]
  rfl

lemma getTruthy_eq_ok {v : PyValue} {key : String} {b : Bool} :
    v.getTruthy key = .ok b ↔ v.isDict = true ∧ (v.valueAt key).truthy = b := by
  rw [getTruthy, bind_eq_ok]
  constructor
  · rintro ⟨w, hw, h⟩
    obtain ⟨hv, rfl⟩ := get_eq_ok.1 hw
    exact ⟨hv, pure_eq_ok.1 h⟩
  · rintro ⟨hv, h⟩
    exact ⟨_, get_eq_ok.2 ⟨hv, rfl⟩, pure_eq_ok.2 h⟩

lemma getTruthy_eq_true {v : PyValue} {key : String} :
    v.getTruthy key = .ok true ↔ (v.valueAt key).truthy = true := by
  rw [getTruthy_eq_ok, and_iff_right_iff_imp]
  exact isDict_of_valueAt (P := fun w => w.truthy = true) not_truthy_null

@[simp] lemma returns_itemTruthy {v : PyValue} {key : String} :
    Returns (v.itemTruthy key) ↔ (v.field key).isSome = true :=
  returns_map.trans returns_item

lemma itemTruthy_eq_true {v : PyValue} {key : String} :
    v.itemTruthy key = .ok true ↔ (v.valueAt key).truthy = true := by
  simp only [itemTruthy, bind_eq_ok, item_eq_ok, pure_eq_ok]
  exact exists_getD_iff not_truthy_null

lemma nestedItem_eq_ok {v w : PyValue} {outer inner : String} :
    v.nestedItem outer inner = .ok w ↔ v.nested outer inner = some w := by
  simp only [nestedItem, nested, bind_eq_ok, item_eq_ok, Option.bind_eq_some_iff]

@[simp] lemma returns_nestedItem {v : PyValue} {outer inner : String} :
    Returns (v.nestedItem outer inner) ↔ (v.nested outer inner).isSome = true := by
  rw [Returns, Option.isSome_iff_exists]
  exact exists_congr fun w => nestedItem_eq_ok

lemma returns_nestedItem_bind {α : Type} {v : PyValue} {outer inner : String}
    {f : PyValue → Raising α} : Returns (v.nestedItem outer inner >>= f) ↔
      ∃ w, v.nested outer inner = some w ∧ Returns (f w) := by
  simp only [returns_bind, nestedItem_eq_ok]

@[simp] lemma returns_nestedIs {v : PyValue} {outer inner s : String} :
    Returns (v.nestedIs outer inner s) ↔ (v.nested outer inner).isSome = true :=
  returns_map.trans returns_nestedItem

lemma nestedIs_eq_true {v : PyValue} {outer inner s : String} :
    v.nestedIs outer inner s = .ok true ↔ (v.nestedAt outer inner).isText s = true := by
  simp only [nestedIs, bind_eq_ok, nestedItem_eq_ok, pure_eq_ok]
  exact exists_getD_iff not_isText_null

@[simp] lemma returns_nestedTruthy {v : PyValue} {outer inner : String} :
    Returns (v.nestedTruthy outer inner) ↔ (v.nested outer inner).isSome = true :=
  returns_map.trans returns_nestedItem

lemma nested_eq_nestedAt {v : PyValue} {outer inner : String}
    (h : (v.nested outer inner).isSome = true) :
    v.nested outer inner = some (v.nestedAt outer inner) := by
  obtain ⟨w, hw⟩ := Option.isSome_iff_exists.1 h
  rw [nestedAt, hw]
  rfl

lemma nestedTruthy_eq_ok {v : PyValue} {outer inner : String} {b : Bool} :
    v.nestedTruthy outer inner = .ok b ↔ ∃ w, v.nested outer inner = some w ∧ w.truthy = b := by
  simp only [nestedTruthy, bind_eq_ok, nestedItem_eq_ok, pure_eq_ok]

end PyValue

end HftBot.Core
