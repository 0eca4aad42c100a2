import HftBot.Core.CanonicalJson
import HftBot.Experiment.Data
import Mathlib.Data.List.Dedup
import Mathlib.Data.String.Basic

/-!
# Experiment cards

A card is built from a seed: the tables say what its profiles need and lack, the blockers are merged
from six places, and the class of the card follows from them. A card with a blocker is blocked,
whatever it would be without.
-/

namespace HftBot.Experiment

open HftBot.Core PyValue

/-! ### Seeds -/

structure Signal where
  trigger : String
  directionSemantics : String
  decisionClock : String
  forecastHorizon : String
  falsifier : String

def Signal.toValue (signal : Signal) : PyValue :=
  object [("trigger", string signal.trigger),
    ("direction_semantics", string signal.directionSemantics),
    ("decision_clock", string signal.decisionClock),
    ("forecast_horizon", string signal.forecastHorizon), ("falsifier", string signal.falsifier)]

structure Seed where
  hypothesis : String
  signal : Signal
  actionProfile : String
  dataProfile : String
  externalDependency : String
  targetClass : String
  resultStatus : String
  claimTier : String
  extraBlockers : List String

/-- The profiles a seed names. -/
structure Profiles where
  action : ActionProfile
  data : DataProfile
  dependency : Dependency

def orRaise {α : Type} (e : PyError) (x : Option α) : Raising α := x.elim (.error e) .ok

/-- The tables raise on a name that they do not have. -/
def Seed.profiles (seed : Seed) : Raising Profiles := do
  let action ← orRaise .keyError (ActionProfile.ofName seed.actionProfile)
  let data ← orRaise .keyError (DataProfile.ofName seed.dataProfile)
  let dependency ← orRaise .valueError (Dependency.ofName seed.externalDependency)
  pure ⟨action, data, dependency⟩

/-! ### Blockers -/

def blockerByCostType : CostType → Option Blocker
  | .exchangeMakerFee              => some .feeUnknown
  | .exchangeTakerFee              => some .feeUnknown
  | .slippageMarketImpact          => some .fillModelMissing
  | .placeCancelExitLatency        => some .latencyUnmeasured
  | .inventoryTerminalVoid         => some .settlementMissing
  | .collateralAndCapital          => some .riskGatesMissing
  | .rfqSelectionAndConfirmation   => some .rfqPrivateEventsMissing
  | .mvePackageExecutionAndPartial => some .mvePrivateEventsMissing
  | .dataApi                       => some .externalApiUnverified
  | .policySwitchAndOverlap        => some .riskGatesMissing
  | .dataProviderLicenseApi        => some .operatingCostUnknown
  | .cloudComputeStorageEgress     => some .operatingCostUnknown
  | .opsLaborAndIncident           => some .operatingCostUnknown
  | .spreadCrossing                => none

/-- The blockers of the missing costs; one that has none raises. -/
def costBlockers : List Cost → Raising (List Blocker)
  | []           => pure []
  | cost :: rest =>
    if cost.status ≠ .missing then costBlockers rest
    else do
      let blocker ← orRaise .valueError (blockerByCostType cost.type)
      return blocker :: (← costBlockers rest)

def childDependentActionProfiles : List ActionProfile :=
  [.makerFilter, .rfqGuard, .router, .sizeRisk, .childHedge, .t90Rebuild, .commercialRoc]

/-- `sorted(set(names))`. -/
def sortedSet (names : List String) : List String := names.dedup.insertionSort (· ≤ ·)

def expectedBlockers (profiles : Profiles) (extra : List String) (data : Data)
    (external : External) (costs : List Cost) (hasAction : Bool) : Raising (List String) := do
  let fromData := if hasAction then data.blockers else signalLevelBlockers profiles.data
  let fromCosts ← (if hasAction then costBlockers costs else pure [])
  let fromChild :=
    if profiles.action ∈ childDependentActionProfiles then
      [Blocker.confirmedChildStrategiesMissing]
    else []
  let fromMapping :=
    if hasAction ∧ profiles.dependency = .required then [Blocker.instrumentMappingUnknown] else []
  pure (sortedSet
    ((fromData ++ fromCosts ++ fromChild ++ fromMapping ++ external.blockers).map Blocker.name ++
      extra))

/-! ### Classes -/

def baseClass (targetClass : String) (action : Action) (venue : VenueContract)
    (baseline : Baseline) (pnl : Pnl) : String :=
  if targetClass = "RESEARCH_QUESTION" then "RESEARCH_QUESTION"
  else if action.actionType = [] then "SIGNAL"
  else if venue.executionVenue ≠ .noVenue ∧ baseline.baselineId ≠ none ∧
      pnl.basis = "PATHWISE_AFTER_COST" ∧ pnl.incrementalFormula.getD "" ≠ "" then
    "EXECUTABLE_STRATEGY"
  else "SIGNAL"

structure Classification where
  targetClass : String
  computedClass : String
  blockedFrom : Option String
  strategyEligible : Bool
  lifecycle : String

def classificationOf (targetClass base : String) (blockers : List String) : Classification :=
  let computed := if blockers ≠ [] then "BLOCKED" else base
  { targetClass := targetClass
    computedClass := computed
    blockedFrom := if blockers ≠ [] then some base else none
    strategyEligible := computed = "EXECUTABLE_STRATEGY"
    lifecycle :=
      if blockers ≠ [] then "REGISTERED_BLOCKED"
      else if base = "EXECUTABLE_STRATEGY" then "REGISTERED_ACTION_SPEC_COMPLETE"
      else "REGISTERED_RESEARCH_ONLY" }

def Classification.toValue (c : Classification) : PyValue :=
  object [("target_class", string c.targetClass), ("computed_class", string c.computedClass),
    ("blocked_from", optional c.blockedFrom), ("strategy_eligible", .bool c.strategyEligible),
    ("lifecycle", string c.lifecycle),
    ("promotion_rule",
      string ("Only a new immutable revision with all critical blockers closed, an untouched " ++
               "confirmation cohort, and a fee-after pathwise PnL receipt may become a " ++
               "deployment candidate."))]

def claimTierForObservation (status : String) : String :=
  if "DESCRIPTIVE".toList <+: status.toList then "DESCRIPTIVE_ONLY_NO_PNL"
  else if "NOT_ESTIMABLE".toList <:+: status.toList then "NOT_ESTIMABLE"
  else "NONE"

/-! ### The sections of a card -/

def familyNames : List (Char × String) :=
  [('A', "MICROSTRUCTURE_AND_MAKER"), ('B', "DIRECTIONAL_AND_VOLATILITY"), ('C', "RELATIVE_VALUE"),
   ('D', "RFQ_AND_MVE"), ('E', "TERMINAL_AND_SETTLEMENT"), ('F', "ECOLOGY_EXTERNAL_AND_SPORT"),
   ('G', "MODEL_METHODS"), ('P', "PORTFOLIO_AND_META")]

/-- The first character of the identifier and the name of the family it stands for. -/
def familyOf (atomicId : String) : Raising (Char × String) := do
  let code ← orRaise .indexError atomicId.toList.head?
  let name ← orRaise .keyError (familyNames.lookup code)
  pure (code, name)

def identityValue (atomicId : String) (family : Char × String) : PyValue :=
  object [("experiment_id", string atomicId),
    ("registry_id", string "DEEP03-ALL-ANGLES-MONETIZATION-V1"), ("version", int 1),
    ("family_code", str [codePoint family.1]), ("family_name", string family.2),
    ("lineage_status", string "BREADTH_ATOMIC_DIRECTION"), ("source_atomic_id", string atomicId)]

/-- What the signal of the card makes its action do. -/
def registeredSignalToAction (profile : ActionProfile) (trigger : String) : Option String :=
  if (actionProfile profile).actionType = [] then none
  else some ("IF [" ++ trigger ++ "] THEN apply [" ++ profile.name ++ "] exactly as specified " ++
    "below; ELSE preserve the registered baseline/no-trade branch.")

def actionValue (profile : ActionProfile) (trigger : String) : PyValue :=
  let action := actionProfile profile
  object [("status", string action.status), ("action_type", strings action.actionType),
    ("signal_to_action_mapping", optional action.signalToActionMapping),
    ("instrument_side", optional action.instrumentSide),
    ("order_style", optional action.orderStyle), ("price_rule", optional action.priceRule),
    ("quantity_rule", optional action.quantityRule),
    ("timing_and_cancel", optional action.timingAndCancel),
    ("exit_or_settlement", optional action.exitOrSettlement),
    ("kill_conditions", strings action.killConditions), ("profile_id", string profile.name),
    ("current_execution_authority", string "NONE"),
    ("registered_signal_to_action", optional (registeredSignalToAction profile trigger))]

/-- The data profile, for a card whose own signal input is missing perhaps. -/
def dataOf (profile : DataProfile) (blockers : List String) : Data :=
  let data := dataProfile profile
  if Blocker.missingSignalInput.name ∈ blockers then
    { data with
      canComputeNow := { data.canComputeNow with signalEvent := .no }
      currentlyCalculable :=
        "The base feed may exist, but this experiment's named signal input is absent; current " ++
          "signal incidence and effect are not calculable." }
  else data

def dataValue (profile : DataProfile) (data : Data) (gaps : List Gap) : PyValue :=
  object [("profile_id", string profile.name), ("inputs", strings data.inputs),
    ("can_compute_now", data.canComputeNow.toValue),
    ("currently_calculable", string data.currentlyCalculable), ("missing", strings data.missing),
    ("acquisition_paths", strings data.acquisitionPaths),
    ("blockers", strings (data.blockers.map Blocker.name)),
    ("critical_gaps", list (gaps.map Gap.toValue)),
    ("study_dates", studyDates profile (string data.canComputeNow.signalEvent.name))]

def hypothesisValue (seed : Seed) (profile : ActionProfile) (hasAction : Bool) : PyValue :=
  let trigger := seed.signal.trigger
  object [("mechanism", string seed.hypothesis),
    ("falsifiable_statement", string (if hasAction then
      "Under preregistered eligibility, if [" ++ trigger ++ "], the registered " ++ profile.name ++
        " policy must improve its primary estimand against the registered baseline; otherwise " ++
          "the hypothesis fails or remains non-strategic."
    else
      "Under preregistered eligibility, test whether [" ++ trigger ++ "] changes the registered " ++
        "signal/outcome contrast versus its stated control. Failure of that contrast rejects " ++
        "the signal; no action or PnL claim follows from this card.")),
    ("primary_estimand", string (if hasAction then
      "fee-after pathwise incremental NetPnL versus registered baseline"
    else "registered signal/outcome contrast; no PnL claim")),
    ("failure_conditions", object [("signal", string seed.signal.falsifier),
      ("execution", string (if hasAction then
        "No pessimistically valid fills/acceptances after latency, queue, depth and " ++
          "reconciliation rules."
      else "No action is defined, so execution and PnL are not testable.")),
      ("economics", string (if hasAction then
        "Out-of-sample incremental NetPnL after every registered cost is <= 0 or its lower " ++
          "confidence bound misses the frozen commercial threshold."
      else "NOT_APPLICABLE_UNTIL_ACTION_AND_PNL_EXIST")),
      ("capacity", string (if hasAction then
        "Positive one-contract economics disappear at the first tested size step or " ++
          "peak-capital return is below threshold."
      else "NOT_APPLICABLE_UNTIL_ACTION_AND_PNL_EXIST"))])]

def designValue (atomicId : String) (family : Char × String) (signal : Signal)
    (baseline : Baseline) : PyValue :=
  object [("unit", string "ROOT_EVENT_X_MARKET_X_DECISION_OPPORTUNITY"),
    ("eligibility", string "past-only, gap-free, exact-release-bound card-specific gate"),
    ("clock_rule", string signal.decisionClock),
    ("forecast_horizon", string signal.forecastHorizon),
    ("comparison",
      string (baseline.policy.getD "signal/control contrast only; no executable comparison")),
    ("overlap_and_precedence", string ((overlapPrecedenceByExperiment.lookup atomicId).getD
      ("No card-specific overlap exception registered; shared roots, orders, capital and PnL " ++
        "must be deduplicated at portfolio evaluation."))),
    ("split_status", string "NOT_FROZEN_FOR_THIS_CARD"),
    ("minimum_evidence",
      string ("independent days and roots, zeros retained, root/day clustered uncertainty, " ++
               "untouched validation and confirmation")),
    ("multiple_testing_family", string ("DEEP03-" ++ String.singleton family.1 ++ "-BREADTH")),
    ("stop_rule",
      string ("Fail or remain blocked; never extend data because the observed result is " ++
               "unprofitable or insignificant."))]

def resultValue (atomicId : String) (seed : Seed) : PyValue :=
  object [("status", string (observedStatus atomicId)),
    ("claim_tier", string (claimTierForObservation (observedStatus atomicId))),
    ("registry_design_status", string seed.resultStatus),
    ("registered_claim_ceiling", string seed.claimTier),
    ("observed_signal", observedSignal atomicId), ("strategy_pnl_claim", string "NONE"),
    ("live_pnl_claim", string "NONE"),
    ("note",
      string ("A descriptive signal result does not establish fillability, fee-after PnL, " ++
               "capacity, or live profitability."))]

def nextEvidenceValue (data : Data) (external : External) (hasAction : Bool) : PyValue :=
  object [("to_measure_signal", strings data.acquisitionPaths),
    ("to_measure_pnl", strings (if hasAction then
      ["freeze this exact card and baseline before outcome reads",
       "stateful pessimistic shadow replay with exact fees and clocks",
       "own-order shadow then separately authorized one-contract micro-live",
       "untouched chronological confirmation with root/day accounting"]
    else ["define a deterministic action, executable baseline and PnL first"])),
    ("external_source_ids", strings external.providerCandidates)]

/-! ### Cards -/

/-- A card before it is signed. -/
structure CardBody where
  atomicId : String
  family : Char × String
  seed : Seed
  profiles : Profiles
  action : Action
  venue : VenueContract
  baseline : Baseline
  pnl : Pnl
  costs : List Cost
  data : Data
  external : External
  blockers : List String
  criticalGaps : List Gap
  classification : Classification

def CardBody.hasAction (body : CardBody) : Bool := body.action.actionType ≠ []

/-- The sections of the object, without its hash. -/
def CardBody.sections (body : CardBody) : List (String × PyValue) :=
  [("identity", identityValue body.atomicId body.family),
   ("classification", body.classification.toValue),
   ("hypothesis", hypothesisValue body.seed body.profiles.action body.hasAction),
   ("signal", body.seed.signal.toValue),
   ("action", actionValue body.profiles.action body.seed.signal.trigger),
   ("venue", body.venue.toValue), ("baseline", body.baseline.toValue), ("pnl", body.pnl.toValue),
   ("costs", list (body.costs.map Cost.toValue)),
   ("data", dataValue body.profiles.data body.data body.criticalGaps),
   ("external_sports_data", body.external.toValue),
   ("experiment_design",
    designValue body.atomicId body.family body.seed.signal body.baseline),
   ("current_result", resultValue body.atomicId body.seed),
   ("blockers", strings body.blockers),
   ("next_evidence", nextEvidenceValue body.data body.external body.hasAction)]

structure Card extends CardBody where
  definitionSha256 : String

def Card.toValue (card : Card) : PyValue :=
  object (card.sections ++ [("definition_sha256", string card.definitionSha256)])

/-- The body that a seed and its tables make. -/
def cardBody (atomicId : String) (family : Char × String) (seed : Seed) (profiles : Profiles)
    (blockers : List String) (gaps : List Gap) : CardBody :=
  let action := actionProfile profiles.action
  let venue := venueFor profiles.action
  let baseline := baselineFor profiles.action
  let pnl := pnlFor profiles.action
  { atomicId := atomicId
    family := family
    seed := seed
    profiles := profiles
    action := action
    venue := venue
    baseline := baseline
    pnl := pnl
    costs := costsFor profiles.action profiles.dependency
    data := dataOf profiles.data blockers
    external := externalContract profiles.dependency atomicId
    blockers := blockers
    criticalGaps := gaps
    classification := classificationOf seed.targetClass
      (baseClass seed.targetClass action venue baseline pnl) blockers }

def blockersOf (atomicId : String) (seed : Seed) (profiles : Profiles) : Raising (List String) :=
  expectedBlockers profiles seed.extraBlockers (dataProfile profiles.data)
    (externalContract profiles.dependency atomicId)
    (costsFor profiles.action profiles.dependency)
    ((actionProfile profiles.action).actionType ≠ [])

def sha256Of (sha256 : Bytes → String) (v : PyValue) : Raising String := do
  pure (sha256 (← canonicalJson v))

def buildCard (sha256 : Bytes → String) (atomicId : String) (seed : Seed) : Raising Card := do
  let profiles ← seed.profiles
  let blockers ← blockersOf atomicId seed profiles
  let gaps ← blockers.mapM (gapContract atomicId)
  let family ← familyOf atomicId
  let body := cardBody atomicId family seed profiles blockers gaps
  let digest ← sha256Of sha256 (object body.sections)
  pure { body with definitionSha256 := digest }

end HftBot.Experiment
