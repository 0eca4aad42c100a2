import HftBot.Experiment.Registry

/-!
# Validating a registry

`validate_registry` reads an object of any shape and returns the list of what is wrong with it. The
checks are in the order of the source, in groups; a group that the source skips after an error is
skipped here. A check whose condition raises raises through the whole validation.
-/

namespace HftBot.Experiment

open HftBot.Core PyValue

/-! ### Outside -/

/-- What the validation takes from outside: SHA-256, `str.upper` and the files of the repository. -/
structure Environment where
  sha256 : Bytes → String
  upper : Text → Text
  /-- `(ROOT / path).resolve()`. -/
  resolve : Text → Raising Text
  insideRoot : Text → Bool
  isFile : Text → Raising Bool
  fileSha256 : Text → Raising String
  /-- Reading and parsing a file: one of the exceptions that are caught has a text. -/
  readJson : Text → Raising (Except Text PyValue)

/-! ### Messages -/

/-- A part of a message. -/
inductive Piece
  | text (s : String)
  | shown (v : PyValue)
  | number (n : Nat)
  | counts (c : Counts)
  | caught (t : Text)

abbrev Message := List Piece

abbrev Report := Raising (List Message)

def fail (message : Message) : Report := .ok [message]

/-- A message about a card that has no seed yet. -/
def about (cardId : PyValue) (s : String) : Message := [.shown cardId, .text s]

/-- A message about a card of the registry. -/
def aboutCard (atomicId s : String) : Message := about (string atomicId) s

/-- The hash in the object is that of the rest of it. -/
def signed (env : Environment) (v : PyValue) (key : String) : Raising Bool := do
  pure ((← v.get key).isText (← sha256Of env.sha256 (v.without key)))

/-! ### The registry as a whole -/

def authorityFields : List String := ["deployment_authority", "order_authority", "action_authority"]

def scopeReport (scope : PyValue) : Report :=
  if scope.isDict then
    allReports
      (authorityFields.map (fun field => expect (scope.getIs field "NONE")
        [.text ("scope." ++ field ++ " must remain NONE")]) ++
      [expect (scope.getIs "breadth_policy" "REGISTER_ALL_106_BEFORE_DEPTH_RANKING")
        [.text "scope breadth policy drift"],
       expect (scope.getIs "external_data_policy" "MISSING_EXTERNAL_DATA_BLOCK_NO_IMPUTE")
        [.text "scope external-data fail-closed policy drift"]])
  else fail [.text "scope must be an object"]

/-- The file of a binding, once its path is known to be a text. -/
def boundFileReport (env : Environment) (binding role : PyValue) (path : Text) : Report := do
  let resolved ← env.resolve path
  if !env.insideRoot resolved then fail (about role ": source path escapes repository root")
  else if ← both (binding.getTruthy "local_required") (negated (env.isFile resolved)) then
    fail (about role ": required source file missing")
  else if ← env.isFile resolved then
    expect (do
      let digest ← env.fileSha256 resolved
      binding.getIs "sha256" digest) (about role ": source file SHA mismatch")
  else pure []

def bindingReport (env : Environment) (binding : PyValue) : Report :=
  if binding.isDict then do
    let role ← binding.getOr "role" (string "<missing>")
    match ← binding.get "path" with
    | str path => boundFileReport env binding role path
    | _        => fail (about role ": source path missing")
  else fail [.text "source binding must be an object"]

def authorityRole : String := "ATOMIC_DIRECTION_AUTHORITY"

/-- The bindings with the role of the authority; one that is no object raises. -/
def authorityBindings : List PyValue → Raising (List PyValue)
  | []              => pure []
  | binding :: rest => do
    let isAuthority ← binding.getIs "role" authorityRole
    let others ← authorityBindings rest
    pure (if isAuthority then binding :: others else others)

def originDocumentSha256 : String :=
  "ded84065dec179ce713377b53607b04adad342ae77e5c3c2b894247bc07b5d36"

/-- What the file of the authority says, against the identifiers here. -/
def authorityFileReport (authority : PyValue) : Report :=
  allReports
    [expect (do
      let ids ← (← authority.getOr "atomic_ids" (list [])).elements
      pure (eqList ids (atomicIds.map string)))
      [.text "atomic direction authority IDs differ from generator"],
     expect (authority.getIs "source_document_sha256" originDocumentSha256)
      [.text "atomic authority origin document SHA mismatch"]]

/-- A value that a path can be made of. -/
def asPath : PyValue → Raising Text
  | str path => .ok path
  | _        => .error .typeError

/-- The file that the binding of the authority names. -/
def authoritySourceReport (env : Environment) (binding : PyValue) : Report := do
  let resolved ← env.resolve (← asPath (← binding.item "path"))
  if ← env.isFile resolved then
    match ← env.readJson resolved with
    | .error caught => fail [.text "atomic direction authority unreadable: ", .caught caught]
    | .ok authority => authorityFileReport authority
  else pure []

def authorityReport (env : Environment) (bindings : List PyValue) : Report := do
  match ← authorityBindings bindings with
  | [binding] => authoritySourceReport env binding
  | _         => fail [.text "exactly one atomic direction authority binding is required"]

def bindingsReport (env : Environment) (bindings : PyValue) : Report :=
  match bindings with
  | list items =>
    allReports
      ([expect (pure (bindings.eq sourceBindings))
        [.text "source bindings differ from the five canonical evidence roles"]] ++
      items.map (bindingReport env) ++ [authorityReport env items])
  | _          => fail [.text "source_bindings must be a list"]

/-! ### Cards -/

def identityOf (card : PyValue) : Raising PyValue := card.getOr "identity" (dict [])

def requiredSections : List String :=
  ["classification", "hypothesis", "signal", "action", "venue", "baseline", "pnl", "costs", "data",
   "external_sports_data", "experiment_design", "current_result", "blockers", "next_evidence"]

def hasSections (card : PyValue) : Bool :=
  requiredSections.all fun name => (card.field name).isSome

/-- The seed of a card and its identifier as the table has it. -/
def seedOf (cardId : PyValue) : Raising (Option (String × Seed)) :=
  if cardId.hashable then .ok (cardSeeds.find? fun e => cardId.isText e.1)
  else .error .typeError

/-- The sections of a card that has all of them. -/
structure Sections where
  identity : PyValue
  action : PyValue
  venue : PyValue
  baseline : PyValue
  pnl : PyValue
  classification : PyValue
  costs : PyValue
  data : PyValue
  ext : PyValue
  blockers : PyValue
  hypothesis : PyValue
  signal : PyValue
  currentResult : PyValue

def sectionsOf (card : PyValue) : Raising Sections := do
  pure
    { identity := ← identityOf card
      action := ← card.item "action"
      venue := ← card.item "venue"
      baseline := ← card.item "baseline"
      pnl := ← card.item "pnl"
      classification := ← card.item "classification"
      costs := ← card.item "costs"
      data := ← card.item "data"
      ext := ← card.item "external_sports_data"
      blockers := ← card.item "blockers"
      hypothesis := ← card.item "hypothesis"
      signal := ← card.item "signal"
      currentResult := ← card.item "current_result" }

/-- The kind that each of eight sections has to be of, with the message for one that is not. -/
def shapes (s : Sections) : List (Bool × String) :=
  [(s.action.isDict, ": action must be an object"), (s.venue.isDict, ": venue must be an object"),
   (s.baseline.isDict, ": baseline must be an object"), (s.pnl.isDict, ": pnl must be an object"),
   (s.costs.isList, ": costs must be a list"), (s.data.isDict, ": data must be an object"),
   (s.ext.isDict, ": external contract must be an object"),
   (s.blockers.isList, ": blockers must be a list")]

/-- The elements of a section that is a list. -/
def itemsOf : PyValue → List PyValue
  | list items => items
  | _          => []

section

variable (s : Sections) (expected : CardBody)

/-- The card repeats its seed. -/
def seedReport : Report :=
  allReports
    [expect (pure (s.identity.eq (identityValue expected.atomicId expected.family)))
      (aboutCard expected.atomicId ": identity contract drift"),
     expect (s.hypothesis.getIs "mechanism" expected.seed.hypothesis)
      (aboutCard expected.atomicId ": hypothesis differs from canonical seed"),
     expect (pure (s.signal.eq expected.seed.signal.toValue))
      (aboutCard expected.atomicId ": signal differs from canonical seed"),
     expect (s.action.getIs "profile_id" expected.profiles.action.name)
      (aboutCard expected.atomicId ": action profile differs from canonical seed"),
     expect (pure (s.action.eq (actionValue expected.profiles.action expected.seed.signal.trigger)))
      (aboutCard expected.atomicId ": action contract drift")]

def signalKeys : List String :=
  ["trigger", "direction_semantics", "decision_clock", "forecast_horizon", "falsifier"]

/-- The card says what it claims, and its contracts are those of its profile. -/
def contractReport : Report :=
  allReports
    ([expect (both (s.hypothesis.itemTruthy "mechanism")
        (s.hypothesis.itemTruthy "falsifiable_statement"))
      (aboutCard expected.atomicId ": empty hypothesis")] ++
    signalKeys.map (fun key => expect (s.signal.getTruthy key)
      (aboutCard expected.atomicId (": missing signal." ++ key))) ++
    [expect (do (← s.venue.get "execution_venue").isIn (Venue.all.map Venue.name))
      (aboutCard expected.atomicId ": unknown venue"),
     expect (s.action.getIs "current_execution_authority" "NONE")
      (aboutCard expected.atomicId ": execution authority must remain NONE"),
     expect (pure (s.venue.eq expected.venue.toValue))
      (aboutCard expected.atomicId ": venue contract drift"),
     expect (pure (s.baseline.eq expected.baseline.toValue))
      (aboutCard expected.atomicId ": baseline contract drift"),
     expect (pure (s.pnl.eq expected.pnl.toValue))
      (aboutCard expected.atomicId ": PnL contract drift"),
     expect (pure (s.costs.eq (list (expected.costs.map Cost.toValue))))
      (aboutCard expected.atomicId ": cost contract drift"),
     expect (pure (s.ext.eq expected.external.toValue))
      (aboutCard expected.atomicId ": external-data contract drift"),
     expect (do (← s.ext.get "dependency").isIn (Dependency.all.map Dependency.name))
      (aboutCard expected.atomicId ": unknown external dependency")])

/-- A card without an action has nothing that only an action can have. -/
def inactionReport : Report :=
  allReports
    [expect (s.venue.itemIs "execution_venue" "NONE")
      (aboutCard expected.atomicId ": no-action card has venue"),
     expect (s.pnl.itemIs "status" "NOT_DEFINED_NOT_A_STRATEGY")
      (aboutCard expected.atomicId ": no-action card has PnL"),
     expect (negated (s.classification.itemTruthy "strategy_eligible"))
      (aboutCard expected.atomicId ": no-action card marked strategy"),
     expect (pure !s.costs.truthy)
      (aboutCard expected.atomicId ": no-action card has execution costs")]

def actionFields : List String :=
  ["signal_to_action_mapping", "instrument_side", "order_style", "price_rule", "quantity_rule",
   "timing_and_cancel", "exit_or_settlement", "kill_conditions", "registered_signal_to_action"]

def pnlFields : List String :=
  ["formula", "incremental_formula", "markout_rule", "denominators", "zero_fill_treatment",
   "capacity_rule"]

/-- The conditions on one cost, up to the first that fails. -/
def costIsValid (cost : PyValue) : Raising Bool :=
  both (pure cost.isDict)
    (both (do (← cost.get "type").isIn (CostType.all.map CostType.name))
      (both (do (← cost.get "role").isIn (CostRole.all.map CostRole.name))
        (both (do (← cost.get "status").isIn (CostStatus.all.map CostStatus.name))
          (cost.getTruthy "rule"))))

/-- The blocker of a missing cost, as `_cost_blockers` finds it in the objects of a card. -/
def costBlockerOf (cost : PyValue) : Raising (Option Blocker) := do
  if (← cost.item "status").isText CostStatus.missing.name then
    let type ← asKey (← cost.item "type")
    let known := CostType.all.find? fun t => type.isText t.name
    return some (← orRaise .valueError (known.bind blockerByCostType))
  else return none

/-- Every cost that is missing has its blocker among those of the card. -/
def missingCostsBlocked (costs blockers : List PyValue) : Raising Bool := do
  let needed ← costs.mapM costBlockerOf
  let present ← blockers.mapM asKey
  pure ((needed.filterMap id).all fun b => present.any fun v => v.isText b.name)

/-- The costs of a card with an action. -/
def costsReport (costs blockers : List PyValue) : Report := do
  let valid ← costs.mapM costIsValid
  allReports
    (valid.zipIdx.map (fun v => expect (pure v.1)
      [.shown (string expected.atomicId), .text ": invalid cost contract at index ",
        .number v.2]) ++
    if valid.all id then
      [expect (missingCostsBlocked costs blockers)
        (aboutCard expected.atomicId
          ": missing cost is not represented by a critical blocker")]
    else [])

/-- A card with an action has all that an action needs. -/
def actionReport : Report :=
  allReports
    (actionFields.map (fun field => expect (s.action.getTruthy field)
      (aboutCard expected.atomicId (": action." ++ field ++ " is empty"))) ++
    [expect (negated (s.venue.itemIs "execution_venue" "NONE"))
      (aboutCard expected.atomicId ": action lacks venue"),
     expect (do pure !((← s.baseline.item "baseline_id").eq null))
      (aboutCard expected.atomicId ": action lacks baseline"),
     expect (both (do
        (← s.baseline.get "baseline_type").isIn (BaselineType.all.map BaselineType.name))
        (both (s.baseline.getTruthy "policy") (s.baseline.getTruthy "comparability")))
      (aboutCard expected.atomicId ": action baseline policy/comparability is incomplete"),
     expect (both (s.pnl.itemIs "basis" "PATHWISE_AFTER_COST")
        (allOf s.pnl.getTruthy pnlFields))
      (aboutCard expected.atomicId ": action lacks after-cost incremental PnL"),
     expect (pure s.costs.truthy) (aboutCard expected.atomicId ": action lacks costs"),
     costsReport expected (itemsOf s.costs) (itemsOf s.blockers)])

/-- What closes a gap is written down, and what is unknown blocks. -/
def gapIsComplete (gap : PyValue) : Raising Bool :=
  both (gap.getTruthy "missing_evidence")
    (both (gap.getTruthy "acquisition_or_build_path")
      (gap.getIs "unknown_value_policy" "BLOCK_NOT_ZERO"))

/-- The gaps of the data section. -/
def gapsReport : Report := do
  let gaps ← (← s.data.getOr "critical_gaps" (list [])).elements
  let names ← gaps.mapM fun gap => gap.get "blocker"
  allReports
    [expect (pure (eqList names (itemsOf s.blockers)))
      (aboutCard expected.atomicId ": critical gap contracts do not match blockers"),
     expect (allOf gapIsComplete gaps)
      (aboutCard expected.atomicId ": incomplete blocker remediation contract")]

/-- Blockers, data and class are those that the seed calls for. -/
def blockersReport : Report :=
  allReports
    [expect (allOf (fun b => b.isIn (Blocker.all.map Blocker.name)) (itemsOf s.blockers))
      (aboutCard expected.atomicId ": unknown blocker"),
     expect (pure (s.blockers.eq (strings expected.blockers)))
      (aboutCard expected.atomicId ": blocker set differs from fail-closed contract"),
     expect (pure (s.data.eq
        (dataValue expected.profiles.data expected.data expected.criticalGaps)))
      (aboutCard expected.atomicId ": data and study-date contract drift"),
     gapsReport s expected,
     expect (pure (s.classification.eq expected.classification.toValue))
      (aboutCard expected.atomicId ": computed classification drift")]

def mappingVariable : String := "versioned provider-event-to-Kalshi root/market/outcome mapping"

/-- A card that needs data from outside is blocked until there is some. -/
def requiredReport (hasAction : Bool) : Report :=
  allReports
    ([expect (both (s.ext.itemIs "availability" "MISSING")
        (s.ext.itemIs "missing_policy" "BLOCK_NO_IMPUTE"))
      (aboutCard expected.atomicId ": required external data not fail-closed"),
     expect (s.blockers.contains Blocker.externalSportsDataMissing.name)
      (aboutCard expected.atomicId ": external blocker absent"),
     expect (negated (s.classification.itemTruthy "strategy_eligible"))
      (aboutCard expected.atomicId ": missing external data promoted"),
     expect (do (← s.ext.getOr "required_variables" (list [])).contains mappingVariable)
      (aboutCard expected.atomicId ": external mapping variable absent")] ++
    if hasAction then
      [expect (s.blockers.contains Blocker.instrumentMappingUnknown.name)
        (aboutCard expected.atomicId ": external action mapping blocker absent"),
       expect (anyOf (fun cost => cost.getIs "type" CostType.dataApi.name) (itemsOf s.costs))
        (aboutCard expected.atomicId ": external action omits data/API cost")]
    else [])

def optionalReport : Report :=
  expect (both (s.ext.itemIs "availability" "MISSING_OPTIONAL_REFINEMENT")
      (both (s.ext.itemIs "missing_policy" "DO_NOT_IMPUTE_CORE_MAY_RUN_WITHOUT_FIELD")
        (negated (s.ext.itemTruthy "blockers"))))
    (aboutCard expected.atomicId ": optional external refinement contract is invalid")

def externalReport (hasAction : Bool) : Report := do
  let dependency ← s.ext.get "dependency"
  allReports
    [if dependency.isText Dependency.required.name then requiredReport s expected hasAction
      else pure [],
     if dependency.isText Dependency.optionalRefinement.name then optionalReport s expected
      else pure []]

/-- The dates of the study follow from whether the signal can be computed. -/
def datesReport : Report := do
  let status ← s.data.nestedItem "can_compute_now" "signal_event"
  allReports
    [expect (do pure ((← s.data.get "study_dates").eq (studyDates expected.profiles.data status)))
      (aboutCard expected.atomicId ": fixed study dates drift"),
     if status.isText Estimable.yes.name then pure []
      else expect
        (negated (s.data.nestedTruthy "study_dates" "eligible_for_current_signal_description"))
        [.shown (string expected.atomicId),
          .text ": dates marked eligible although signal_event is ", .shown status],
     expect (do
        if ← s.blockers.contains Blocker.missingSignalInput.name then
          pure (status.isText Estimable.no.name)
        else pure true)
      (aboutCard expected.atomicId ": missing signal input still marked calculable")]

/-- The result claims no more than the seed and the evidence allow. -/
def resultReport : Report :=
  allReports
    [expect (do
        pure ((← s.currentResult.get "observed_signal").eq (observedSignal expected.atomicId)))
      (aboutCard expected.atomicId ": current evidence binding drift"),
     expect (both (s.currentResult.getIs "registry_design_status" expected.seed.resultStatus)
        (s.currentResult.getIs "registered_claim_ceiling" expected.seed.claimTier))
      (aboutCard expected.atomicId ": design status differs from canonical seed"),
     expect (both (s.currentResult.itemIs "strategy_pnl_claim" "NONE")
        (s.currentResult.itemIs "live_pnl_claim" "NONE"))
      (aboutCard expected.atomicId ": unsupported PnL claim")]

end

/-- The checks of a card whose sections have the right kinds. -/
def bodyReport (env : Environment) (card : PyValue) (s : Sections) (atomicId : String)
    (seed : Seed) : Report := do
  let profiles ← seed.profiles
  let blockers ← blockersOf atomicId seed profiles
  let gaps ← blockers.mapM (gapContract atomicId)
  let family ← familyOf atomicId
  let expected := cardBody atomicId family seed profiles blockers gaps
  let hasAction ← s.action.getTruthy "action_type"
  allReports
    [seedReport s expected, contractReport s expected,
     if hasAction then actionReport s expected else inactionReport s expected,
     blockersReport s expected, externalReport s expected hasAction, datesReport s expected,
     resultReport s expected,
     expect (do pure (card.eq (← buildCard env.sha256 atomicId seed).toValue))
      (aboutCard atomicId ": card differs from canonical materialization")]

def seededReport (env : Environment) (card : PyValue) (atomicId : String) (seed : Seed) :
    Report := do
  let s ← sectionsOf card
  if (shapes s).all (·.1) then bodyReport env card s atomicId seed
  else allReports ((shapes s).map fun shape => expect (pure shape.1) (aboutCard atomicId shape.2))

def cardReport (env : Environment) (card : PyValue) : Report :=
  if card.isDict then do
    let identity ← identityOf card
    let cardId ← identity.getOr "experiment_id" (string "<missing>")
    allReports
      [expect (signed env card "definition_sha256") (about cardId ": definition SHA mismatch"),
       if hasSections card then do
         match ← seedOf cardId with
         | some (atomicId, seed) => seededReport env card atomicId seed
         | none                  => fail (about cardId ": no canonical seed")
       else fail (about cardId ": missing required sections")]
  else fail [.text "experiment card must be an object"]

/-! ### Across the cards -/

/-- The cards that are objects: the others are skipped. -/
def objects (experiments : List PyValue) : List PyValue := experiments.filter isDict

def cardIds (experiments : List PyValue) : Raising (List PyValue) :=
  (objects experiments).mapM fun card => do (← identityOf card).get "experiment_id"

def familyCounts (experiments : List PyValue) : Raising Counts := do
  let families ← (objects experiments).mapM fun card => do
    asKey (← (← identityOf card).get "family_code")
  pure (tally families)

def expectedFamilyCounts : PyValue :=
  object [("A", int 23), ("B", int 17), ("C", int 10), ("D", int 10), ("E", int 6), ("F", int 17),
    ("G", int 12), ("P", int 11)]

/-- The dictionary is that object. -/
def Counts.isValue (counts : Counts) (v : PyValue) : Bool := counts.toValue.any fun c => c.eq v

def idsReport (experiments : List PyValue) : Report := do
  let ids ← cardIds experiments
  allReports
    [expect (pure (experiments.length = 106))
      [.text "expected 106 cards, got ", .number experiments.length],
     expect (pure (eqList ids (atomicIds.map string)))
      [.text "card IDs/order differ from atomic authority"],
     expect (do
        let keys ← ids.mapM asKey
        pure ((tally keys).length = ids.length)) [.text "duplicate experiment IDs"]]

def familiesReport (experiments : List PyValue) : Report := do
  let counts ← familyCounts experiments
  expect (pure (counts.isValue expectedFamilyCounts))
    [.text "family counts mismatch: ", .counts counts]

/-- The cards under their identifiers. -/
def byId (experiments : List PyValue) : Raising (List (PyValue × PyValue)) :=
  experiments.mapM fun card => do
    pure (← asKey (← card.nestedItem "identity" "experiment_id"), card)

/-- The last card of an identifier is the one that the dictionary keeps. -/
def cardOf (cards : List (PyValue × PyValue)) (atomicId : String) : Option PyValue :=
  (cards.reverse.find? fun c => c.1.isText atomicId).map (·.2)

/-- A check of the card of that identifier, when there is one. -/
def cardCheck (cards : List (PyValue × PyValue)) (atomicId : String)
    (condition : PyValue → Raising Bool) (message : Message) : Report :=
  match cardOf cards atomicId with
  | some card => expect (condition card) message
  | none      => pure []

def unsignedCards : List String :=
  ["D01-RFQ-FLOW-CENSUS", "D04-RFQ-COMBO-DEMAND-LEG-PRESSURE", "D06-RFQ-DIRECTION-VOL-SIGNAL"]

def guardCards : List String :=
  ["D02-RFQ-SIZE-INTENT", "D03-RFQ-LIFECYCLE-SURVIVAL", "D05-RFQ-REQUESTER-HASH",
   "D07-RFQ-TO-CLOB-IMPACT"]

def sidedTokens : List String := ["BUY_YES", "BUY_NO", "SELL_YES", "SELL_NO", "ACCEPTED_SIDE"]

/-- `v.upper()`. -/
def upperOf (env : Environment) : PyValue → Raising Text
  | str t => .ok (env.upper t)
  | _     => .error .attributeError

def isPart (s : String) (t : Text) : Bool := decide (text s <:+: t)

def isUnsigned (env : Environment) (card : PyValue) : Raising Bool := do
  let direction ← upperOf env (← card.nestedItem "signal" "direction_semantics")
  pure (isPart "UNSIGNED" direction || isPart "NO_DIRECTION" direction)

def guardsBothSides (card : PyValue) : Raising Bool :=
  both (card.nestedIs "action" "profile_id" "RFQ_GUARD")
    (both (card.nestedIs "action" "instrument_side" "BOTH_RELATED_CLOB_SIDES_PUBLIC_UNSIGNED") do
      pure ((← card.nestedItem "action" "action_type").eq
        (strings ["CANCEL", "REPRICE", "RESIZE"])))

def hasNoSide (env : Environment) (card : PyValue) : Raising Bool := do
  let action ← decodeUtf8 (← canonicalJson (← card.item "action"))
  pure (sidedTokens.all fun token => !isPart token (env.upper action))

def isPrivateInaction (card : PyValue) : Raising Bool :=
  both (card.nestedIs "data" "profile_id" "RFQ_PRIVATE")
    (negated (card.nestedTruthy "action" "action_type"))

def isControlOnly (card : PyValue) : Raising Bool :=
  both (card.nestedIs "action" "profile_id" "CONTROL_ONLY")
    (both (negated (card.nestedTruthy "action" "action_type")) do
      (← card.nestedItem "signal" "direction_semantics").contains "never triggers an order")

def needsNoVenue (card : PyValue) : Raising Bool :=
  both (card.nestedIs "venue" "execution_venue" "NONE")
    (negated (card.itemContains "blockers" Blocker.venuePermissionMissing.name))

def isDirectPackage (card : PyValue) : Raising Bool :=
  both (card.nestedIs "action" "profile_id" "MVE_DIRECT")
    (both (card.nestedIs "data" "profile_id" "MVE_PRIVATE")
      (both (card.nestedIs "venue" "execution_venue" "KALSHI_MVE_PRIVATE_EXECUTION")
        (negated (card.itemContains "blockers" Blocker.rfqPublicDataUnreleased.name))))

/-- A card whose profile depends on confirmed children is blocked for the lack of them. -/
def childReport (card : PyValue) : Report := do
  let profile ← (← card.getOr "action" (dict [])).get "profile_id"
  if ← profile.isIn (childDependentActionProfiles.map ActionProfile.name) then
    let cardId ← (← identityOf card).get "experiment_id"
    expect (do
        (← card.getOr "blockers" (list [])).contains
          Blocker.confirmedChildStrategiesMissing.name)
      (about cardId ": child-dependent profile lacks immutable child binding blocker")
  else pure []

/-- What is public about requests for quotes is unsigned, and only the private control is not. -/
def rfqReport (env : Environment) (cards : List (PyValue × PyValue)) : Report :=
  allReports
    (unsignedCards.map (fun id => cardCheck cards id (isUnsigned env)
      (aboutCard id ": public RFQ direction must remain unsigned")) ++
    guardCards.flatMap (fun id =>
      [cardCheck cards id guardsBothSides (aboutCard id ": public RFQ guard action drift"),
       cardCheck cards id (hasNoSide env)
        (aboutCard id ": public RFQ guard contains directional action")]) ++
    [cardCheck cards "D06-RFQ-DIRECTION-VOL-SIGNAL" isPrivateInaction
      [.text "D06: signed accepted-side analysis must remain private and no-action"]])

def namedReport (cards : List (PyValue × PyValue)) : Report :=
  allReports
    [cardCheck cards "E01-SETTLEMENT-CONVERGENCE" isControlOnly
      [.text "E01: final settlement label must remain a no-action retrospective control"],
     cardCheck cards "D09-MVE-CATALOG-SCHEMA" needsNoVenue
      [.text "D09: read-only catalog card must not request venue permission"],
     cardCheck cards "D10-MVE-DIRECT-TRADING" isDirectPackage
      [.text "D10: MVE execution must not reuse RFQ contracts"]]

def summaryReport (summary : PyValue) (experiments : List PyValue) : Report := do
  let recomputed ← summaryForCards experiments
  expect (pure (recomputed.toValue.any fun s => summary.eq s))
    [.text "registry summary does not recompute from cards"]

def experimentsReport (env : Environment) (registry : PyValue) (experiments : List PyValue) :
    Report := do
  let summary ← registry.get "summary"
  allReports
    ([idsReport experiments] ++ experiments.map (cardReport env) ++
    [familiesReport experiments, byId experiments >>= rfqReport env] ++
    (objects experiments).map childReport ++
    [byId experiments >>= namedReport, summaryReport summary experiments,
     expect (signed env registry "registry_sha256") [.text "registry SHA mismatch"]])

/-! ### The registry -/

/-- A JSON object: its keys are different from each other, at every depth. -/
structure Registry where
  members : List (Text × PyValue)
  wellFormed : (dict members).WellFormed

def Registry.toValue (registry : Registry) : PyValue := dict registry.members

/-- The list of what is wrong with the registry. -/
def validateRegistry (env : Environment) (registry : Registry) : Report := do
  let r := registry.toValue
  let scope ← r.getOr "scope" (dict [])
  let sourceBindings ← r.get "source_bindings"
  let experiments ← r.get "experiments"
  allReports
    [expect (r.getIs "schema_version" schemaVersion) [.text "bad schema_version"],
     expect (r.getIs "registry_id" registryId) [.text "bad registry_id"],
     scopeReport scope, bindingsReport env sourceBindings,
     expect (do pure ((← r.get "external_source_catalog").eq externalSourceCatalog))
      [.text "external source catalog drift"],
     match experiments with
     | list items => experimentsReport env r items
     | _          => fail [.text "experiments must be a list"]]

end HftBot.Experiment
