import HftBot.Core.Run
import HftBot.Feed.Decoder
import HftBot.Store.RawLog

/-!
# Entity registry

`EntityRegistry` of `bus.hpp` keeps the keys of the bus under their 64-bit hash. `register_entity`
compares the key that is stored with the one it is called for and throws if they differ. `lookup`
does not: it finds any key with the hash of another one that is registered.
-/

namespace HftBot.Storage

open HftBot.Core HftBot.Core.Utf8

def SourceId.toByte : SourceId → UInt8
  | unknown     => 0
  | kalshi      => 1
  | replay      => 2
  | sportsOdds  => 3
  | sportsStats => 4
  | news        => 5
  | weather     => 6
  | custom      => 7

structure Key where
  source : SourceId
  ticker : Bytes
deriving DecidableEq, Repr

/-- `make_entity_id` of a key: FNV-1a over the source byte and the ticker, never zero. -/
def Key.entityId (key : Key) : UInt64 :=
  let prime : UInt64 := 1099511628211
  let h := (key.source.toByte :: key.ticker).foldl (fun h b => (h ^^^ b.toUInt64) * prime)
    1469598103934665603
  if h = 0 then prime else h

/-- The id that the decoder gives to the events of a market. -/
lemma makeEntityId_eq (ticker : List Char) : makeEntityId kSourceKalshi ticker =
    (Key.entityId ⟨.kalshi, encode ticker⟩).toNat := rfl

/-- What `register_entity` throws. -/
inductive RegisterError
  | invalidArgument (what : Bytes)
  | runtimeError (what : Bytes)
deriving DecidableEq, Repr

structure EntityRegistry where
  byId : UInt64 → Option Key := fun _ => none

namespace EntityRegistry

def registerEntity (r : EntityRegistry) (key : Key) :
    Except RegisterError UInt64 × EntityRegistry :=
  if key.source = .unknown then
    (.error (.invalidArgument (ascii "EntityRegistry: SourceId::Unknown rejected")), r)
  else
    match r.byId key.entityId with
    | some stored =>
      if stored ≠ key then
        (.error (.runtimeError (ascii "EntityRegistry: EntityId hash collision between '" ++
          stored.ticker ++ ascii "' and '" ++ key.ticker ++ ascii "'")), r)
      else (.ok key.entityId, r)
    | none        =>
      (.ok key.entityId, { r with byId := Function.update r.byId key.entityId (some key) })

def lookup (r : EntityRegistry) (key : Key) : Option UInt64 :=
  if key.source = .unknown then none
  else if (r.byId key.entityId).isSome then some key.entityId else none

def reverse (r : EntityRegistry) (id : UInt64) : Option Key := r.byId id

/-- The registry after some calls, of which each may have thrown. -/
def after (calls : List Key) : EntityRegistry := run (fun r key => (r.registerEntity key).2) {} calls

/-- One of the calls has registered the key. -/
def Registered (calls : List Key) (key : Key) : Prop :=
  ∃ before rest, calls = before ++ key :: rest ∧
    ((after before).registerEntity key).1 = .ok key.entityId

/-! ### What the calls leave -/

variable {r : EntityRegistry} {key : Key} {calls : List Key} {id : UInt64}

/-- What a call does: it throws, finds the key, or enters it. -/
lemma registerEntity_cases (r : EntityRegistry) (key : Key) :
    (∃ e, r.registerEntity key = (.error e, r) ∧
        (key.source = .unknown ∨ ∃ stored, r.byId key.entityId = some stored ∧ stored ≠ key)) ∨
      key.source ≠ .unknown ∧ (r.registerEntity key).1 = .ok key.entityId ∧
        (r.byId key.entityId = some key ∧ (r.registerEntity key).2 = r ∨
          r.byId key.entityId = none ∧
            (r.registerEntity key).2.byId = Function.update r.byId key.entityId (some key)) := by
  rw [registerEntity]
  split_ifs with hsource
  · exact Or.inl ⟨_, rfl, Or.inl hsource⟩
  · cases hstored : r.byId key.entityId with
    | none => exact Or.inr ⟨hsource, rfl, Or.inr ⟨rfl, rfl⟩⟩
    | some stored =>
      by_cases hsame : stored = key
      · subst hsame
        simp [hsource]
      · simp [hsame]

/-- A call for the key may enter it under the id. -/
def Claims (id : UInt64) (key : Key) : Bool := key.source ≠ .unknown ∧ key.entityId = id

lemma claims_entityId : Claims key.entityId key = true ↔ key.source ≠ .unknown := by
  simp [Claims]

/-- What was stored stays, and a key is entered where there was none. -/
lemma byId_registerEntity : (r.registerEntity key).2.byId id =
    (r.byId id).or ([key].find? (Claims id)) := by
  by_cases hclaims : Claims id key = true
  · obtain ⟨hsource, rfl⟩ : key.source ≠ .unknown ∧ key.entityId = id := by
      simpa [Claims] using hclaims
    rw [List.find?_cons_of_pos hclaims]
    rcases registerEntity_cases r key with
      ⟨e, heq, hunknown | ⟨stored, hstored, -⟩⟩ | ⟨-, -, ⟨hkey, heq⟩ | ⟨hnone, heq⟩⟩
    · exact absurd hunknown hsource
    · rw [heq, hstored, Option.some_or]
    · rw [heq, hkey, Option.some_or]
    · rw [heq, hnone, Option.none_or, Function.update_self]
  · rw [List.find?_cons_of_neg hclaims, List.find?_nil, Option.or_none]
    rcases registerEntity_cases r key with
      ⟨e, heq, -⟩ | ⟨hsource, -, ⟨-, heq⟩ | ⟨-, heq⟩⟩
    · rw [heq]
    · rw [heq]
    · have hne : id ≠ key.entityId := by
        rintro rfl
        exact hclaims (claims_entityId.2 hsource)
      rw [heq, Function.update_of_ne hne]

/-- An id stands for the first key that was offered under it. -/
lemma byId_after (calls : List Key) (id : UInt64) :
    (after calls).byId id = calls.find? (Claims id) := by
  induction calls using List.reverseRecOn with
  | nil => rfl
  | append_singleton calls key ih =>
    have hrun : after (calls ++ [key]) = ((after calls).registerEntity key).2 := by
      rw [after, run_append]
      rfl
    rw [hrun, List.find?_append, ← ih, byId_registerEntity]

/-- A call succeeds if nothing else is stored under the id. -/
lemma registerEntity_eq_ok_iff : (r.registerEntity key).1 = .ok key.entityId ↔
    key.source ≠ .unknown ∧ ∀ stored ∈ r.byId key.entityId, stored = key := by
  rcases registerEntity_cases r key with
    ⟨e, heq, hwhy⟩ | ⟨hsource, hok, ⟨hkey, -⟩ | ⟨hnone, -⟩⟩
  · rw [heq]
    refine iff_of_false nofun ?_
    rintro ⟨hsource, hall⟩
    rcases hwhy with hunknown | ⟨stored, hstored, hne⟩
    · exact hsource hunknown
    · exact hne (hall stored hstored)
  · exact iff_of_true hok ⟨hsource, fun stored hstored => Option.some.inj (hstored.symm.trans hkey)⟩
  · exact iff_of_true hok ⟨hsource, fun stored hstored => absurd (hnone.symm.trans hstored) nofun⟩

/-- A key is registered exactly if its id stands for it. -/
lemma registered_iff : Registered calls key ↔ (after calls).byId key.entityId = some key := by
  rw [byId_after]
  constructor
  · rintro ⟨before, rest, rfl, hok⟩
    obtain ⟨hsource, hall⟩ := registerEntity_eq_ok_iff.1 hok
    rw [byId_after] at hall
    rw [List.find?_append, List.find?_cons_of_pos (claims_entityId.2 hsource)]
    cases hfind : before.find? (Claims key.entityId) with
    | none => rw [Option.none_or]
    | some stored =>
      rw [hall stored hfind]
      rfl
  · intro hfind
    obtain ⟨hclaims, before, rest, rfl, hnone⟩ := List.find?_eq_some_iff_append.1 hfind
    refine ⟨before, rest, rfl, registerEntity_eq_ok_iff.2 ⟨claims_entityId.1 hclaims, ?_⟩⟩
    intro stored hstored
    rw [byId_after] at hstored
    have hmem := List.mem_of_find?_eq_some hstored
    exact absurd (List.find?_some hstored) (by simpa using hnone stored hmem)

lemma isSome_lookup_iff : (r.lookup key).isSome ↔
    key.source ≠ .unknown ∧ (r.byId key.entityId).isSome := by
  rw [lookup]
  split_ifs with hsource hsome
  · simp [hsource]
  · simp [hsource, hsome]
  · simp [hsource, hsome]

/-! ### Conflated keys -/

/-- The key is the first one that a call offers under its id, unless no call does. -/
def FirstOfItsId (calls : List Key) (key : Key) : Prop :=
  key.source = .unknown ∨ ∀ first ∈ calls.find? (Claims key.entityId), first = key

instance (calls : List Key) (key : Key) : Decidable (FirstOfItsId calls key) :=
  inferInstanceAs (Decidable (_ ∨ _))

lemma lookup_exact_iff :
    (((after calls).lookup key).isSome ↔ Registered calls key) ↔ FirstOfItsId calls key := by
  rw [isSome_lookup_iff, registered_iff, byId_after, FirstOfItsId]
  by_cases hsource : key.source = .unknown
  · have hnever : calls.find? (Claims key.entityId) ≠ some key := by
      intro hfind
      exact claims_entityId.1 (List.find?_some hfind) hsource
    simp [hsource, hnever]
  · cases hfind : calls.find? (Claims key.entityId) with
    | none => simp
    | some first => simp [hsource, eq_comm]

/-- The registry after any calls: a registered key is found under its id, a call that throws changes
nothing, and `lookup` is right about a key exactly if no other one came first under its id. -/
theorem registry_lookup_iff (calls : List Key) :
    (∀ key, Registered calls key → (after calls).reverse key.entityId = some key) ∧
    (∀ key e r, (after calls).registerEntity key = (.error e, r) → r = after calls) ∧
    ∀ key, (((after calls).lookup key).isSome ↔ Registered calls key) ↔
      FirstOfItsId calls key := by
  refine ⟨fun key h => registered_iff.1 h, ?_, fun key => lookup_exact_iff⟩
  intro key e r h
  rcases registerEntity_cases (after calls) key with ⟨e', heq, -⟩ | ⟨-, hok, -⟩
  · rw [heq] at h
    exact (Prod.mk.inj h).2.symm
  · rw [h] at hok
    exact absurd hok nofun

/-- Two tickers with one hash. -/
def twins : Key × Key :=
  (⟨.kalshi, ascii "KXQACF5PJLZHZ6L"⟩, ⟨.kalshi, ascii "KXID2DCPLMLIOBO"⟩)

/-- The second is found when the first is registered. -/
theorem registry_conflates :
    ¬ ∀ calls key, ((after calls).lookup key).isSome ↔ Registered calls key := by
  intro h
  have hfirst := lookup_exact_iff.1 (h [twins.1] twins.2)
  exact absurd hfirst (by decide +kernel)

end EntityRegistry

end HftBot.Storage
