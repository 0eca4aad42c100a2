import HftBot.Experiment.ReadableCard

/-!
# When the validation of a registry returns

Some cards are looked up by their identifier and read once more, and the summary is computed from
all of them. The checks before have recorded what is wrong with a card, but have not kept it from
being read.
-/

namespace HftBot.Experiment

open HftBot.Core PyValue

/-! ### Conditions -/

/-- The member of a member is there and can be a key. -/
def HasKey (v : PyValue) (outer inner : String) : Prop :=
  ∃ w, v.nested outer inner = some w ∧ w.hashable = true

def actionAt (card : PyValue) : PyValue := (card.field "action").getD (dict [])

def childProfileNames : List String := childDependentActionProfiles.map ActionProfile.name

structure ChildReadable (card : PyValue) : Prop where
  action : (actionAt card).isDict = true
  profile : ((actionAt card).valueAt "profile_id").hashable = true
  blockers : ((actionAt card).valueAt "profile_id").isOneOf childProfileNames = true →
    ((card.field "blockers").getD (list [])).isContainer = true

structure ExperimentReadable (card : PyValue) : Prop where
  id : HasKey card "identity" "experiment_id"
  family : HasKey card "identity" "family_code"
  computed : HasKey card "classification" "computed_class"
  target : HasKey card "classification" "target_class"
  eligible : (card.nested "classification" "strategy_eligible").isSome = true
  body : CardReadable card
  child : ChildReadable card

/-- The last card with the identifier. -/
def lastCard (experiments : List PyValue) (atomicId : String) : Option PyValue :=
  experiments.reverse.find? fun card => (card.nestedAt "identity" "experiment_id").isText atomicId

def UnsignedReadable (card : PyValue) : Prop :=
  ∃ direction, card.nested "signal" "direction_semantics" = some (str direction)

structure GuardReadable (card : PyValue) : Prop where
  profile : (card.nested "action" "profile_id").isSome = true
  side : (card.nestedAt "action" "profile_id").isText "RFQ_GUARD" = true →
    (card.nested "action" "instrument_side").isSome = true
  actionType : (card.nestedAt "action" "profile_id").isText "RFQ_GUARD" = true →
    (card.nestedAt "action" "instrument_side").isText
      "BOTH_RELATED_CLOB_SIDES_PUBLIC_UNSIGNED" = true →
    (card.nested "action" "action_type").isSome = true
  plain : (card.valueAt "action").Plain

structure PrivateReadable (card : PyValue) : Prop where
  profile : (card.nested "data" "profile_id").isSome = true
  actionType : (card.nestedAt "data" "profile_id").isText "RFQ_PRIVATE" = true →
    (card.nested "action" "action_type").isSome = true

structure ControlReadable (card : PyValue) : Prop where
  profile : (card.nested "action" "profile_id").isSome = true
  actionType : (card.nestedAt "action" "profile_id").isText "CONTROL_ONLY" = true →
    (card.nested "action" "action_type").isSome = true
  direction : (card.nestedAt "action" "profile_id").isText "CONTROL_ONLY" = true →
    (card.nestedAt "action" "action_type").truthy = false →
      (card.nestedAt "signal" "direction_semantics").isContainer = true

structure CatalogReadable (card : PyValue) : Prop where
  venue : (card.nested "venue" "execution_venue").isSome = true
  blockers : (card.nestedAt "venue" "execution_venue").isText "NONE" = true →
    (card.valueAt "blockers").isContainer = true

structure DirectReadable (card : PyValue) : Prop where
  profile : (card.nested "action" "profile_id").isSome = true
  data : (card.nestedAt "action" "profile_id").isText "MVE_DIRECT" = true →
    (card.nested "data" "profile_id").isSome = true
  venue : (card.nestedAt "action" "profile_id").isText "MVE_DIRECT" = true →
    (card.nestedAt "data" "profile_id").isText "MVE_PRIVATE" = true →
      (card.nested "venue" "execution_venue").isSome = true
  blockers : (card.nestedAt "action" "profile_id").isText "MVE_DIRECT" = true →
    (card.nestedAt "data" "profile_id").isText "MVE_PRIVATE" = true →
      (card.nestedAt "venue" "execution_venue").isText "KALSHI_MVE_PRIVATE_EXECUTION" = true →
        (card.valueAt "blockers").isContainer = true

/-- Every card can be read, and the named ones once more, each as its check reads it. -/
structure ExperimentsReadable (experiments : List PyValue) : Prop where
  card : ∀ card ∈ experiments, ExperimentReadable card
  eligible : Returns (sum (experiments.map fun card =>
    card.nestedAt "classification" "strategy_eligible"))
  unsigned : ∀ id ∈ unsignedCards, ∀ card ∈ lastCard experiments id, UnsignedReadable card
  guards : ∀ id ∈ guardCards, ∀ card ∈ lastCard experiments id, GuardReadable card
  signed : ∀ card ∈ lastCard experiments "D06-RFQ-DIRECTION-VOL-SIGNAL", PrivateReadable card
  control : ∀ card ∈ lastCard experiments "E01-SETTLEMENT-CONVERGENCE", ControlReadable card
  catalog : ∀ card ∈ lastCard experiments "D09-MVE-CATALOG-SCHEMA", CatalogReadable card
  direct : ∀ card ∈ lastCard experiments "D10-MVE-DIRECT-TRADING", DirectReadable card

/-- Every member that the validation reads is there and of a kind that can be read so. -/
structure Readable (env : Environment) (registry : PyValue) : Prop where
  bindings : BindingsReadable env (registry.valueAt "source_bindings")
  experiments : ∀ items, registry.valueAt "experiments" = list items → ExperimentsReadable items
  plain : ∀ items, registry.valueAt "experiments" = list items →
    (registry.without "registry_sha256").Plain

/-! ### Named cards -/

lemma isSome_of_nested {v : PyValue} {outer inner : String}
    (h : (v.nested outer inner).isSome = true) : (v.field outer).isSome = true := by
  obtain ⟨w, hw⟩ := Option.isSome_iff_exists.1 h
  obtain ⟨u, hu, -⟩ := Option.bind_eq_some_iff.1 hw
  exact Option.isSome_iff_exists.2 ⟨u, hu⟩

lemma returns_isUnsigned {env : Environment} {card : PyValue} :
    Returns (isUnsigned env card) ↔ UnsignedReadable card := by
  have hupper : ∀ v : PyValue, Returns (upperOf env v) ↔ ∃ direction, v = str direction := by
    intro v
    cases v with
    | str t => exact iff_of_true (returns_ok _) ⟨t, rfl⟩
    | _ => exact iff_of_false (not_returns_error _) fun ⟨_, h⟩ => by cases h
  rw [isUnsigned, returns_nestedItem_bind]
  simp only [returns_map, hupper]
  constructor
  · rintro ⟨_, h, direction, rfl⟩
    exact ⟨direction, h⟩
  · rintro ⟨direction, h⟩
    exact ⟨_, h, direction, rfl⟩

lemma returns_guardsBothSides {card : PyValue} : Returns (guardsBothSides card) ↔
    (card.nested "action" "profile_id").isSome = true ∧
      ((card.nestedAt "action" "profile_id").isText "RFQ_GUARD" = true →
        (card.nested "action" "instrument_side").isSome = true ∧
        ((card.nestedAt "action" "instrument_side").isText
            "BOTH_RELATED_CLOB_SIDES_PUBLIC_UNSIGNED" = true →
          (card.nested "action" "action_type").isSome = true)) := by
  simp only [guardsBothSides, returns_both, returns_nestedIs, nestedIs_eq_true, returns_map,
    returns_nestedItem]

lemma returns_hasNoSide {env : Environment} {card : PyValue} : Returns (hasNoSide env card) ↔
    (card.field "action").isSome = true ∧ (card.valueAt "action").Plain := by
  have htext : ∀ {v : PyValue} {f : Text → Bool},
      Returns (v.canonicalJson >>= fun bytes => decodeUtf8 bytes >>= fun t => pure (f t)) ↔
        v.Plain := by
    intro v f
    rw [← canonicalJson_returns_iff, returns_bind]
    refine exists_congr fun bytes => and_iff_left_of_imp fun h => ?_
    exact returns_map.2 ⟨_, decodeUtf8_eq_ok h⟩
  rw [hasNoSide, returns_item_bind]
  simp only [htext]
  constructor
  · rintro ⟨action, haction, hplain⟩
    rw [valueAt, haction]
    exact ⟨rfl, hplain⟩
  · rintro ⟨haction, hplain⟩
    obtain ⟨action, haction⟩ := Option.isSome_iff_exists.1 haction
    rw [valueAt, haction] at hplain
    exact ⟨action, haction, hplain⟩

lemma returns_isPrivateInaction {card : PyValue} :
    Returns (isPrivateInaction card) ↔ PrivateReadable card := by
  simp only [isPrivateInaction, returns_both, returns_nestedIs, nestedIs_eq_true, returns_negated,
    returns_nestedTruthy]
  constructor
  · rintro ⟨hprofile, haction⟩
    exact ⟨hprofile, haction⟩
  · rintro ⟨hprofile, haction⟩
    exact ⟨hprofile, haction⟩

lemma returns_isControlOnly {card : PyValue} :
    Returns (isControlOnly card) ↔ ControlReadable card := by
  have hdirection : (∃ w, card.nested "signal" "direction_semantics" = some w ∧
      w.isContainer = true) ↔ (card.nestedAt "signal" "direction_semantics").isContainer = true :=
    exists_getD_iff Bool.false_ne_true
  simp only [isControlOnly, returns_both, returns_nestedIs, nestedIs_eq_true, returns_negated,
    returns_nestedTruthy, negated_eq_ok, nestedTruthy_eq_ok, returns_nestedItem_bind,
    returns_contains, hdirection]
  constructor
  · rintro ⟨hprofile, h⟩
    exact ⟨hprofile, fun hp => (h hp).1, fun hp ht => (h hp).2
      ⟨_, nested_eq_nestedAt (h hp).1, ht⟩⟩
  · rintro ⟨hprofile, haction, hdirection⟩
    refine ⟨hprofile, fun hp => ⟨haction hp, ?_⟩⟩
    rintro ⟨w, hw, ht⟩
    exact hdirection hp (by rwa [nestedAt, hw])

lemma returns_needsNoVenue {card : PyValue} :
    Returns (needsNoVenue card) ↔ CatalogReadable card := by
  simp only [needsNoVenue, returns_both, returns_nestedIs, nestedIs_eq_true, returns_negated,
    returns_itemContains]
  constructor
  · rintro ⟨hvenue, hblockers⟩
    exact ⟨hvenue, hblockers⟩
  · rintro ⟨hvenue, hblockers⟩
    exact ⟨hvenue, hblockers⟩

lemma returns_isDirectPackage {card : PyValue} :
    Returns (isDirectPackage card) ↔ DirectReadable card := by
  simp only [isDirectPackage, returns_both, returns_nestedIs, nestedIs_eq_true, returns_negated,
    returns_itemContains]
  constructor
  · rintro ⟨hprofile, h⟩
    exact ⟨hprofile, fun hp => (h hp).1, fun hp hd => ((h hp).2 hd).1,
      fun hp hd => ((h hp).2 hd).2⟩
  · rintro ⟨hprofile, hdata, hvenue, hblockers⟩
    exact ⟨hprofile, fun hp => ⟨hdata hp, fun hd => ⟨hvenue hp hd, hblockers hp hd⟩⟩⟩

/-! ### Cards by their identifiers -/

lemma asKey_eq_ok {v w : PyValue} : asKey v = .ok w ↔ v.hashable = true ∧ v = w := by
  rw [asKey]
  split
  · rename_i h
    rw [and_iff_right h]
    exact pure_eq_ok
  · rename_i h
    exact iff_of_false (fun h => by cases h) fun h' => absurd h'.1 h

lemma hasKey_of_eq {v w : PyValue} {outer inner : String} (h : v.nested outer inner = some w)
    (hw : w.hashable = true) : HasKey v outer inner ∧ v.nestedAt outer inner = w :=
  ⟨⟨w, h, hw⟩, by rw [nestedAt, h]; rfl⟩

lemma HasKey.nested_eq {v : PyValue} {outer inner : String} (h : HasKey v outer inner) :
    v.nested outer inner = some (v.nestedAt outer inner) ∧
      (v.nestedAt outer inner).hashable = true := by
  obtain ⟨w, hw, hkey⟩ := h
  rw [nestedAt, hw]
  exact ⟨rfl, hkey⟩

/-- The dictionary from identifiers to cards, while none of them is read through a missing
member. -/
lemma byId_eq_ok {experiments : List PyValue} {cards : List (PyValue × PyValue)} :
    byId experiments = .ok cards ↔
      (∀ card ∈ experiments, HasKey card "identity" "experiment_id") ∧
        (experiments.map fun card => (card.nestedAt "identity" "experiment_id", card)) = cards := by
  rw [byId, mapM_eq_ok]
  simp only [bind_eq_ok, nestedItem_eq_ok, asKey_eq_ok, pure_eq_ok]
  constructor
  · intro h
    induction h with
    | nil => exact ⟨fun _ h => absurd h List.not_mem_nil, rfl⟩
    | @cons card entry experiments cards h _ ih =>
      obtain ⟨id, hid, _, ⟨hkey, rfl⟩, rfl⟩ := h
      obtain ⟨hhas, hat⟩ := hasKey_of_eq hid hkey
      exact ⟨List.forall_mem_cons.2 ⟨hhas, ih.1⟩, by rw [List.map_cons, ih.2, hat]⟩
  · rintro ⟨hkeys, rfl⟩
    rw [List.forall₂_map_right_iff, List.forall₂_same]
    intro card hcard
    obtain ⟨hid, hkey⟩ := (hkeys card hcard).nested_eq
    exact ⟨_, hid, _, ⟨hkey, rfl⟩, rfl⟩

lemma cardOf_map (experiments : List PyValue) (atomicId : String) :
    cardOf (experiments.map fun card => (card.nestedAt "identity" "experiment_id", card))
      atomicId = lastCard experiments atomicId := by
  rw [cardOf, lastCard, ← List.map_reverse, List.find?_map, Option.map_map]
  exact Option.map_id'

lemma returns_cardCheck {cards : List (PyValue × PyValue)} {atomicId : String}
    {condition : PyValue → Raising Bool} {message : Message} :
    Returns (cardCheck cards atomicId condition message) ↔
      ∀ card ∈ cardOf cards atomicId, Returns (condition card) := by
  rw [cardCheck]
  cases cardOf cards atomicId with
  | none => exact iff_of_true (returns_pure []) fun _ h => by cases h
  | some card => simp

lemma returns_rfqReport {env : Environment} {cards : List (PyValue × PyValue)} :
    Returns (rfqReport env cards) ↔
      (∀ id ∈ unsignedCards, ∀ card ∈ cardOf cards id, UnsignedReadable card) ∧
      (∀ id ∈ guardCards, ∀ card ∈ cardOf cards id, GuardReadable card) ∧
      ∀ card ∈ cardOf cards "D06-RFQ-DIRECTION-VOL-SIGNAL", PrivateReadable card := by
  have hguard : ∀ card, GuardReadable card ↔
      Returns (guardsBothSides card) ∧ Returns (hasNoSide env card) := by
    intro card
    rw [returns_guardsBothSides, returns_hasNoSide]
    constructor
    · rintro ⟨hprofile, hside, htype, hplain⟩
      refine ⟨⟨hprofile, fun hp => ⟨hside hp, htype hp⟩⟩, ?_, hplain⟩
      exact isSome_of_nested hprofile
    · rintro ⟨⟨hprofile, h⟩, -, hplain⟩
      exact ⟨hprofile, fun hp => (h hp).1, fun hp => (h hp).2, hplain⟩
  simp only [rfqReport, returns_allReports_append, returns_allReports_map,
    returns_allReports_flatMap, returns_allReports_cons, returns_allReports_nil, returns_cardCheck,
    returns_isUnsigned, returns_isPrivateInaction, hguard, and_true, forall_and, and_assoc]

lemma returns_namedReport {cards : List (PyValue × PyValue)} :
    Returns (namedReport cards) ↔
      (∀ card ∈ cardOf cards "E01-SETTLEMENT-CONVERGENCE", ControlReadable card) ∧
      (∀ card ∈ cardOf cards "D09-MVE-CATALOG-SCHEMA", CatalogReadable card) ∧
      ∀ card ∈ cardOf cards "D10-MVE-DIRECT-TRADING", DirectReadable card := by
  simp only [namedReport, returns_allReports_cons, returns_allReports_nil, returns_cardCheck,
    returns_isControlOnly, returns_needsNoVenue, returns_isDirectPackage, and_true]

lemma returns_childReport {card : PyValue} (hcard : card.isDict = true)
    (hidentity : (identityAt card).isDict = true) :
    Returns (childReport card) ↔ ChildReadable card := by
  have hreport : ∀ profile : PyValue, Returns (do
      if ← profile.isIn childProfileNames then
        let cardId ← (← identityOf card).get "experiment_id"
        expect (do
            (← card.getOr "blockers" (list [])).contains
              Blocker.confirmedChildStrategiesMissing.name)
          (about cardId ": child-dependent profile lacks immutable child binding blocker")
      else pure [] : Report) ↔ profile.hashable = true ∧
        (profile.isOneOf childProfileNames = true →
          ((card.field "blockers").getD (list [])).isContainer = true) := by
    intro profile
    have hid : ∃ id, (do (← identityOf card).get "experiment_id") = .ok id :=
      returns_getOr_bind.2 ⟨hcard, returns_get.2 hidentity⟩
    rw [returns_isIn_bind, returns_if]
    refine and_congr_right fun _ => imp_congr_right fun _ => ?_
    obtain ⟨id, hid⟩ := hid
    rw [← bind_assoc, returns_bind_of_eq hid, returns_expect, returns_getOr_bind,
      and_iff_right hcard, returns_contains]
  rw [childReport, returns_getOr_bind, and_iff_right hcard, returns_get_bind]
  refine (and_congr_right fun _ => hreport _).trans ?_
  constructor
  · rintro ⟨haction, hprofile, hblockers⟩
    exact ⟨haction, hprofile, hblockers⟩
  · rintro ⟨haction, hprofile, hblockers⟩
    exact ⟨haction, hprofile, hblockers⟩

/-! ### The summary -/

lemma summaryKeys_eq_ok {card : PyValue} {keys : PyValue × PyValue × PyValue} :
    summaryKeys card = .ok keys ↔
      (HasKey card "identity" "family_code" ∧ HasKey card "classification" "computed_class" ∧
        HasKey card "classification" "target_class") ∧
      (card.nestedAt "identity" "family_code", card.nestedAt "classification" "computed_class",
        card.nestedAt "classification" "target_class") = keys := by
  simp only [summaryKeys, bind_eq_ok, nestedItem_eq_ok, asKey_eq_ok, pure_eq_ok]
  constructor
  · rintro ⟨f, hf, c, hc, t, ht, _, ⟨hfkey, rfl⟩, _, ⟨hckey, rfl⟩, _, ⟨htkey, rfl⟩, rfl⟩
    obtain ⟨hfamily, hfat⟩ := hasKey_of_eq hf hfkey
    obtain ⟨hcomputed, hcat⟩ := hasKey_of_eq hc hckey
    obtain ⟨htarget, htat⟩ := hasKey_of_eq ht htkey
    exact ⟨⟨hfamily, hcomputed, htarget⟩, by rw [hfat, hcat, htat]⟩
  · rintro ⟨⟨hfamily, hcomputed, htarget⟩, rfl⟩
    exact ⟨_, hfamily.nested_eq.1, _, hcomputed.nested_eq.1, _, htarget.nested_eq.1, _,
      ⟨hfamily.nested_eq.2, rfl⟩, _, ⟨hcomputed.nested_eq.2, rfl⟩, _,
      ⟨htarget.nested_eq.2, rfl⟩, rfl⟩

lemma mapM_nestedItem_eq_ok {cards vs : List PyValue} {outer inner : String} :
    (cards.mapM fun card => card.nestedItem outer inner) = .ok vs ↔
      (∀ card ∈ cards, (card.nested outer inner).isSome = true) ∧
        (cards.map fun card => card.nestedAt outer inner) = vs := by
  rw [mapM_eq_ok]
  simp only [nestedItem_eq_ok]
  constructor
  · intro h
    induction h with
    | nil => exact ⟨fun _ h => absurd h List.not_mem_nil, rfl⟩
    | @cons card v cards vs h _ ih =>
      refine ⟨List.forall_mem_cons.2 ⟨Option.isSome_iff_exists.2 ⟨v, h⟩, ih.1⟩, ?_⟩
      rw [List.map_cons, ih.2, nestedAt, h]
      rfl
  · rintro ⟨h, rfl⟩
    rw [List.forall₂_map_right_iff, List.forall₂_same]
    exact fun card hcard => nested_eq_nestedAt (h card hcard)

lemma returns_summaryReport {summary : PyValue} {experiments : List PyValue} :
    Returns (summaryReport summary experiments) ↔
      (∀ card ∈ experiments, HasKey card "identity" "family_code" ∧
        HasKey card "classification" "computed_class" ∧
        HasKey card "classification" "target_class") ∧
      (∀ card ∈ experiments, (card.nested "classification" "strategy_eligible").isSome = true) ∧
      Returns (sum (experiments.map fun card =>
        card.nestedAt "classification" "strategy_eligible")) := by
  have hkeys : ∀ card, Returns (summaryKeys card) ↔ HasKey card "identity" "family_code" ∧
      HasKey card "classification" "computed_class" ∧
      HasKey card "classification" "target_class" := by
    intro card
    simp only [Returns, summaryKeys_eq_ok, exists_and_left, exists_eq', and_true]
  rw [summaryReport, returns_bind]
  simp only [returns_expect, returns_pure, and_true]
  change Returns (summaryForCards experiments) ↔ _
  simp only [summaryForCards, returns_bind, mapM_nestedItem_eq_ok, and_assoc,
    exists_and_left, exists_eq_left', returns_pure, and_true, ← hkeys, ← returns_mapM]
  exact exists_and_right

/-! ### The registry -/

lemma isDict_of_nested {v w : PyValue} {outer inner : String}
    (h : v.nested outer inner = some w) : v.isDict = true := by
  obtain ⟨u, hu, -⟩ := Option.bind_eq_some_iff.1 h
  exact isDict_of_field hu

/-- The section that a member is read from is the one that the checks of the card read. -/
lemma nested_identity {card w : PyValue} {inner : String}
    (h : card.nested "identity" inner = some w) : (identityAt card).field inner = some w := by
  obtain ⟨u, hu, hw⟩ := Option.bind_eq_some_iff.1 h
  rw [identityAt, hu]
  exact hw

lemma objects_eq_self {experiments : List PyValue}
    (h : ∀ card ∈ experiments, HasKey card "identity" "experiment_id") :
    objects experiments = experiments := by
  refine List.filter_eq_self.2 fun card hcard => ?_
  obtain ⟨id, hid, -⟩ := h card hcard
  exact isDict_of_nested hid

lemma cardIds_eq_ok {experiments : List PyValue}
    (h : ∀ card ∈ experiments, HasKey card "identity" "experiment_id") :
    cardIds experiments =
      .ok (experiments.map fun card => card.nestedAt "identity" "experiment_id") := by
  rw [cardIds, objects_eq_self h, mapM_eq_ok, List.forall₂_map_right_iff, List.forall₂_same]
  intro card hcard
  obtain ⟨id, hid, -⟩ := h card hcard
  have hfield := nested_identity hid
  refine bind_eq_ok.2 ⟨identityAt card, getOr_eq_ok.2 ⟨isDict_of_nested hid, rfl⟩, ?_⟩
  exact get_eq_ok.2 ⟨isDict_of_field hfield, by rw [valueAt, hfield, nestedAt, hid]⟩

lemma returns_idsReport {experiments : List PyValue}
    (h : ∀ card ∈ experiments, HasKey card "identity" "experiment_id") :
    Returns (idsReport experiments) := by
  rw [idsReport, returns_bind_of_eq (cardIds_eq_ok h)]
  simp only [returns_allReports_cons, returns_allReports_nil, returns_expect, returns_pure,
    returns_map, returns_mapM, List.forall_mem_map, returns_asKey, true_and, and_true]
  exact fun card hcard => (h card hcard).nested_eq.2

lemma returns_familiesReport {experiments : List PyValue}
    (hid : ∀ card ∈ experiments, HasKey card "identity" "experiment_id")
    (h : ∀ card ∈ experiments, HasKey card "identity" "family_code") :
    Returns (familiesReport experiments) := by
  have hfamily : ∀ card ∈ experiments, Returns (do
      asKey (← (← identityOf card).get "family_code")) := by
    intro card hcard
    obtain ⟨family, hfamily, hkey⟩ := h card hcard
    have hfield := nested_identity hfamily
    refine returns_getOr_bind.2 ⟨isDict_of_nested hfamily, ?_⟩
    refine returns_get_bind.2 ⟨isDict_of_field hfield, returns_asKey.2 ?_⟩
    change ((identityAt card).valueAt "family_code").hashable = true
    rwa [valueAt, hfield]
  obtain ⟨families, hfamilies⟩ := returns_mapM.2 hfamily
  have hcounts : familyCounts experiments = .ok (tally families) := by
    rw [familyCounts, objects_eq_self hid]
    exact bind_eq_ok.2 ⟨families, hfamilies, rfl⟩
  rw [familiesReport, returns_bind_of_eq hcounts]
  exact returns_expect.2 (returns_pure _)

lemma returns_byId_bind {α : Type} {experiments : List PyValue}
    {f : List (PyValue × PyValue) → Raising α} : Returns (byId experiments >>= f) ↔
      (∀ card ∈ experiments, HasKey card "identity" "experiment_id") ∧
        Returns (f (experiments.map fun card =>
          (card.nestedAt "identity" "experiment_id", card))) := by
  simp only [returns_bind, byId_eq_ok, and_assoc, exists_and_left, exists_eq_left']

lemma returns_childReports {experiments : List PyValue}
    (hid : ∀ card ∈ experiments, HasKey card "identity" "experiment_id") :
    (∀ card ∈ objects experiments, Returns (childReport card)) ↔
      ∀ card ∈ experiments, ChildReadable card := by
  rw [objects_eq_self hid]
  refine forall₂_congr fun card hcard => ?_
  obtain ⟨id, hid, -⟩ := hid card hcard
  exact returns_childReport (isDict_of_nested hid) (isDict_of_field (nested_identity hid))

lemma returns_experimentsReport {env : Environment} {registry : PyValue}
    (hregistry : registry.isDict = true) {experiments : List PyValue} :
    Returns (experimentsReport env registry experiments) ↔
      ExperimentsReadable experiments ∧ (registry.without "registry_sha256").Plain := by
  rw [experimentsReport, returns_get_bind, and_iff_right hregistry]
  simp only [returns_allReports_append, returns_allReports_cons, returns_allReports_nil,
    returns_allReports_map, returns_cardReport, returns_expect, returns_signed hregistry,
    returns_summaryReport, and_true]
  rw [returns_byId_bind, returns_byId_bind, returns_rfqReport, returns_namedReport]
  simp only [cardOf_map]
  constructor
  · rintro ⟨⟨⟨⟨-, hbody⟩, -, hid, hunsigned, hguards, hsigned⟩, hchild⟩,
      ⟨-, hcontrol, hcatalog, hdirect⟩, ⟨hkeys, heligible, hsum⟩, hplain⟩
    rw [returns_childReports hid] at hchild
    refine ⟨⟨fun card hcard => ?_, hsum, hunsigned, hguards, hsigned, hcontrol, hcatalog, hdirect⟩,
      hplain⟩
    obtain ⟨id, hnested, -⟩ := hid card hcard
    obtain ⟨hfamily, hcomputed, htarget⟩ := hkeys card hcard
    exact ⟨hid card hcard, hfamily, hcomputed, htarget, heligible card hcard,
      hbody card hcard (isDict_of_nested hnested), hchild card hcard⟩
  · rintro ⟨⟨hcard, hsum, hunsigned, hguards, hsigned, hcontrol, hcatalog, hdirect⟩, hplain⟩
    have hid : ∀ card ∈ experiments, HasKey card "identity" "experiment_id" :=
      fun card h => (hcard card h).id
    have hfamily : ∀ card ∈ experiments, HasKey card "identity" "family_code" :=
      fun card h => (hcard card h).family
    refine ⟨⟨⟨⟨returns_idsReport hid, fun card h _ => (hcard card h).body⟩,
      returns_familiesReport hid hfamily, hid, hunsigned, hguards, hsigned⟩,
      (returns_childReports hid).2 fun card h => (hcard card h).child⟩,
      ⟨hid, hcontrol, hcatalog, hdirect⟩, ⟨fun card h => ?_, fun card h => (hcard card h).eligible,
      hsum⟩, hplain⟩
    exact ⟨(hcard card h).family, (hcard card h).computed, (hcard card h).target⟩

lemma returns_scopeReport {scope : PyValue} : Returns (scopeReport scope) := by
  rw [scopeReport]
  cases h : scope.isDict with
  | false => exact returns_ok _
  | true => simp [h]

lemma returns_experiments {env : Environment} {registry : PyValue}
    (hregistry : registry.isDict = true) {experiments : PyValue} :
    Returns (match experiments with
      | list items => experimentsReport env registry items
      | _          => fail [.text "experiments must be a list"]) ↔
    ∀ items, experiments = list items →
      ExperimentsReadable items ∧ (registry.without "registry_sha256").Plain := by
  cases experiments with
  | list items =>
    refine (returns_experimentsReport hregistry).trans ⟨?_, fun h => h items rfl⟩
    rintro h items ⟨⟩
    exact h
  | _ => exact iff_of_true (returns_ok _) fun _ h => by cases h

/-- The validation returns its list exactly when the registry can be read. -/
theorem validateRegistry_returns_iff (env : Environment) (registry : Registry) :
    Returns (validateRegistry env registry) ↔ Readable env registry.toValue := by
  have hdict : registry.toValue.isDict = true := rfl
  rw [validateRegistry, returns_getOr_bind, and_iff_right hdict, returns_get_bind,
    and_iff_right hdict, returns_get_bind, and_iff_right hdict]
  simp only [returns_allReports_cons, returns_allReports_nil, returns_expect, returns_getIs, hdict,
    returns_scopeReport, returns_bindingsReport, returns_map, returns_get, true_and, and_true]
  refine (and_congr_right fun _ => returns_experiments hdict).trans ?_
  constructor
  · rintro ⟨hbindings, hexperiments⟩
    exact ⟨hbindings, fun items h => (hexperiments items h).1,
      fun items h => (hexperiments items h).2⟩
  · rintro ⟨hbindings, hexperiments, hplain⟩
    exact ⟨hbindings, fun items h => ⟨hexperiments items h, hplain items h⟩⟩

/-- A repository without files. -/
def emptyRepository : Environment where
  sha256 _ := ""
  upper t := t
  resolve := .ok
  insideRoot _ := true
  isFile _ := .ok false
  fileSha256 _ := .error .osError
  readJson _ := .error .osError

/-- One binding that is null. -/
def nullBinding : Registry where
  members := [(text "source_bindings", list [null])]
  wellFormed := ⟨List.nodup_singleton _, ⟨trivial, trivial⟩, trivial⟩

/-- The binding is found to be no object, and is then asked for its role. -/
theorem validateRegistry_nullBinding :
    bindingReport emptyRepository null = .ok [[.text "source binding must be an object"]] ∧
      validateRegistry emptyRepository nullBinding = .error .attributeError :=
  ⟨rfl, rfl⟩

end HftBot.Experiment
