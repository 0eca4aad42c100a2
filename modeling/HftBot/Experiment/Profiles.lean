import Mathlib.Data.List.Basic

/-!
# The words of the experiment registry

The names that seeds, tables and cards are written in. Each list of names that the registry knows
is a type here; `ofName` is the lookup that fails on any other name.
-/

namespace HftBot.Experiment

/-- The one of that name. -/
def byName {α : Type} (all : List α) (name : α → String) (s : String) : Option α :=
  all.find? fun x => name x = s

lemma name_of_byName {α : Type} {all : List α} {name : α → String} {s : String} {x : α}
    (h : byName all name s = some x) : name x = s :=
  of_decide_eq_true (List.find?_some (p := fun x => decide (name x = s)) h)

inductive ActionProfile
  | noAction
  | makerSpread
  | makerFilter
  | makerRefill
  | t90Range
  | t90Rebuild
  | passiveFade
  | takerDirectional
  | relativeValue
  | expiryRoll
  | childHedge
  | rfqGuard
  | rfqMaker
  | mveDirect
  | terminalPolicy
  | terminalEntry
  | csAsk
  | earlyExit
  | externalAction
  | router
  | commercialRoc
  | sizeRisk
  | modelComponent
  | controlOnly
  deriving DecidableEq

namespace ActionProfile

def all : List ActionProfile :=
  [.noAction, .makerSpread, .makerFilter, .makerRefill, .t90Range, .t90Rebuild, .passiveFade,
   .takerDirectional, .relativeValue, .expiryRoll, .childHedge, .rfqGuard, .rfqMaker, .mveDirect,
   .terminalPolicy, .terminalEntry, .csAsk, .earlyExit, .externalAction, .router, .commercialRoc,
   .sizeRisk, .modelComponent, .controlOnly]

def name : ActionProfile → String
  | noAction         => "NO_ACTION"
  | makerSpread      => "MAKER_SPREAD"
  | makerFilter      => "MAKER_FILTER"
  | makerRefill      => "MAKER_REFILL"
  | t90Range         => "T90_RANGE"
  | t90Rebuild       => "T90_REBUILD"
  | passiveFade      => "PASSIVE_FADE"
  | takerDirectional => "TAKER_DIRECTIONAL"
  | relativeValue    => "RELATIVE_VALUE"
  | expiryRoll       => "EXPIRY_ROLL"
  | childHedge       => "CHILD_HEDGE"
  | rfqGuard         => "RFQ_GUARD"
  | rfqMaker         => "RFQ_MAKER"
  | mveDirect        => "MVE_DIRECT"
  | terminalPolicy   => "TERMINAL_POLICY"
  | terminalEntry    => "TERMINAL_ENTRY"
  | csAsk            => "CS_ASK"
  | earlyExit        => "EARLY_EXIT"
  | externalAction   => "EXTERNAL_ACTION"
  | router           => "ROUTER"
  | commercialRoc    => "COMMERCIAL_ROC"
  | sizeRisk         => "SIZE_RISK"
  | modelComponent   => "MODEL_COMPONENT"
  | controlOnly      => "CONTROL_ONLY"

def ofName : String → Option ActionProfile := byName all name

end ActionProfile

inductive DataProfile
  | l1
  | l2
  | l1L2
  | l1Private
  | family
  | terminal
  | rfqPublic
  | rfqPrivate
  | mvePrivate
  | external
  | catalog
  | model
  | metaStrategy
  | privateState
  | outOfScope
  | internalControl
  | ownerEvpi
  deriving DecidableEq

namespace DataProfile

def all : List DataProfile :=
  [.l1, .l2, .l1L2, .l1Private, .family, .terminal, .rfqPublic, .rfqPrivate, .mvePrivate,
   .external, .catalog, .model, .metaStrategy, .privateState, .outOfScope, .internalControl,
   .ownerEvpi]

def name : DataProfile → String
  | l1              => "L1"
  | l2              => "L2"
  | l1L2            => "L1_L2"
  | l1Private       => "L1_PRIVATE"
  | family          => "FAMILY"
  | terminal        => "TERMINAL"
  | rfqPublic       => "RFQ_PUBLIC"
  | rfqPrivate      => "RFQ_PRIVATE"
  | mvePrivate      => "MVE_PRIVATE"
  | external        => "EXTERNAL"
  | catalog         => "CATALOG"
  | model           => "MODEL"
  | metaStrategy    => "META"
  | privateState    => "PRIVATE"
  | outOfScope      => "OUT_OF_SCOPE"
  | internalControl => "INTERNAL_CONTROL"
  | ownerEvpi       => "OWNER_EVPI"

def ofName : String → Option DataProfile := byName all name

end DataProfile

/-- What a card needs of data from outside the venue. -/
inductive Dependency
  | notRequired
  | required
  | optionalRefinement
  | inheritOwner
  | inheritChildren
  deriving DecidableEq

namespace Dependency

def all : List Dependency :=
  [.notRequired, .required, .optionalRefinement, .inheritOwner, .inheritChildren]

def name : Dependency → String
  | notRequired        => "NOT_REQUIRED"
  | required           => "REQUIRED"
  | optionalRefinement => "OPTIONAL_REFINEMENT"
  | inheritOwner       => "INHERIT_OWNER"
  | inheritChildren    => "INHERIT_CHILDREN"

def ofName : String → Option Dependency := byName all name

end Dependency

/-- A critical input that is missing. -/
inductive Blocker
  | missingSignalInput
  | timestampSemanticsUnknown
  | externalSportsDataMissing
  | externalApiUnverified
  | venuePermissionMissing
  | instrumentMappingUnknown
  | actionIncomplete
  | baselineIncomplete
  | feeUnknown
  | fillModelMissing
  | ownOrderCalibrationMissing
  | latencyUnmeasured
  | settlementMissing
  | payoutExhaustivenessMissing
  | rfqPrivateEventsMissing
  | rfqPublicDataUnreleased
  | mvePrivateEventsMissing
  | multiLegEngineMissing
  | confirmedChildStrategiesMissing
  | privateAccountStateMissing
  | insufficientQualityDates
  | sampleTooSmall
  | dataIntegrityBlocked
  | riskGatesMissing
  | operatingCostUnknown
  | outOfScopeCurrentProgram
  deriving DecidableEq

namespace Blocker

def all : List Blocker :=
  [.missingSignalInput, .timestampSemanticsUnknown, .externalSportsDataMissing,
   .externalApiUnverified, .venuePermissionMissing, .instrumentMappingUnknown, .actionIncomplete,
   .baselineIncomplete, .feeUnknown, .fillModelMissing, .ownOrderCalibrationMissing,
   .latencyUnmeasured, .settlementMissing, .payoutExhaustivenessMissing, .rfqPrivateEventsMissing,
   .rfqPublicDataUnreleased, .mvePrivateEventsMissing, .multiLegEngineMissing,
   .confirmedChildStrategiesMissing, .privateAccountStateMissing, .insufficientQualityDates,
   .sampleTooSmall, .dataIntegrityBlocked, .riskGatesMissing, .operatingCostUnknown,
   .outOfScopeCurrentProgram]

def name : Blocker → String
  | missingSignalInput              => "MISSING_SIGNAL_INPUT"
  | timestampSemanticsUnknown       => "TIMESTAMP_SEMANTICS_UNKNOWN"
  | externalSportsDataMissing       => "EXTERNAL_SPORTS_DATA_MISSING"
  | externalApiUnverified           => "EXTERNAL_API_UNVERIFIED"
  | venuePermissionMissing          => "VENUE_PERMISSION_MISSING"
  | instrumentMappingUnknown        => "INSTRUMENT_MAPPING_UNKNOWN"
  | actionIncomplete                => "ACTION_INCOMPLETE"
  | baselineIncomplete              => "BASELINE_INCOMPLETE"
  | feeUnknown                      => "FEE_UNKNOWN"
  | fillModelMissing                => "FILL_MODEL_MISSING"
  | ownOrderCalibrationMissing      => "OWN_ORDER_CALIBRATION_MISSING"
  | latencyUnmeasured               => "LATENCY_UNMEASURED"
  | settlementMissing               => "SETTLEMENT_MISSING"
  | payoutExhaustivenessMissing     => "PAYOUT_EXHAUSTIVENESS_MISSING"
  | rfqPrivateEventsMissing         => "RFQ_PRIVATE_EVENTS_MISSING"
  | rfqPublicDataUnreleased         => "RFQ_PUBLIC_DATA_UNRELEASED"
  | mvePrivateEventsMissing         => "MVE_PRIVATE_EVENTS_MISSING"
  | multiLegEngineMissing           => "MULTI_LEG_ENGINE_MISSING"
  | confirmedChildStrategiesMissing => "CONFIRMED_CHILD_STRATEGIES_MISSING"
  | privateAccountStateMissing      => "PRIVATE_ACCOUNT_STATE_MISSING"
  | insufficientQualityDates        => "INSUFFICIENT_QUALITY_DATES"
  | sampleTooSmall                  => "SAMPLE_TOO_SMALL"
  | dataIntegrityBlocked            => "DATA_INTEGRITY_BLOCKED"
  | riskGatesMissing                => "RISK_GATES_MISSING"
  | operatingCostUnknown            => "OPERATING_COST_UNKNOWN"
  | outOfScopeCurrentProgram        => "OUT_OF_SCOPE_CURRENT_PROGRAM"

def ofName : String → Option Blocker := byName all name

end Blocker

inductive Venue
  | noVenue
  | kalshiClob
  | kalshiRfq
  | kalshiClobAndRfq
  | kalshiMvePrivateExecution
  | kalshiMultiMarketClob
  | policyRouterOverKalshi
  deriving DecidableEq

namespace Venue

def all : List Venue :=
  [.noVenue, .kalshiClob, .kalshiRfq, .kalshiClobAndRfq, .kalshiMvePrivateExecution,
   .kalshiMultiMarketClob, .policyRouterOverKalshi]

def name : Venue → String
  | noVenue                   => "NONE"
  | kalshiClob                => "KALSHI_CLOB"
  | kalshiRfq                 => "KALSHI_RFQ"
  | kalshiClobAndRfq          => "KALSHI_CLOB_AND_RFQ"
  | kalshiMvePrivateExecution => "KALSHI_MVE_PRIVATE_EXECUTION"
  | kalshiMultiMarketClob     => "KALSHI_MULTI_MARKET_CLOB"
  | policyRouterOverKalshi    => "POLICY_ROUTER_OVER_KALSHI"

end Venue

inductive BaselineType
  | notApplicable
  | noTrade
  | unfilteredQuoter
  | customExecutable
  deriving DecidableEq

namespace BaselineType

def all : List BaselineType :=
  [.notApplicable, .noTrade, .unfilteredQuoter, .customExecutable]

def name : BaselineType → String
  | notApplicable    => "NOT_APPLICABLE"
  | noTrade          => "NO_TRADE"
  | unfilteredQuoter => "UNFILTERED_QUOTER"
  | customExecutable => "CUSTOM_EXECUTABLE"

end BaselineType

inductive CostType
  | exchangeMakerFee
  | exchangeTakerFee
  | spreadCrossing
  | slippageMarketImpact
  | placeCancelExitLatency
  | inventoryTerminalVoid
  | collateralAndCapital
  | rfqSelectionAndConfirmation
  | mvePackageExecutionAndPartial
  | dataApi
  | policySwitchAndOverlap
  | dataProviderLicenseApi
  | cloudComputeStorageEgress
  | opsLaborAndIncident
  deriving DecidableEq

namespace CostType

def all : List CostType :=
  [.exchangeMakerFee, .exchangeTakerFee, .spreadCrossing, .slippageMarketImpact,
   .placeCancelExitLatency, .inventoryTerminalVoid, .collateralAndCapital,
   .rfqSelectionAndConfirmation, .mvePackageExecutionAndPartial, .dataApi,
   .policySwitchAndOverlap, .dataProviderLicenseApi, .cloudComputeStorageEgress,
   .opsLaborAndIncident]

def name : CostType → String
  | exchangeMakerFee              => "EXCHANGE_MAKER_FEE"
  | exchangeTakerFee              => "EXCHANGE_TAKER_FEE"
  | spreadCrossing                => "SPREAD_CROSSING"
  | slippageMarketImpact          => "SLIPPAGE_MARKET_IMPACT"
  | placeCancelExitLatency        => "PLACE_CANCEL_EXIT_LATENCY"
  | inventoryTerminalVoid         => "INVENTORY_TERMINAL_VOID"
  | collateralAndCapital          => "COLLATERAL_AND_CAPITAL"
  | rfqSelectionAndConfirmation   => "RFQ_SELECTION_AND_CONFIRMATION"
  | mvePackageExecutionAndPartial => "MVE_PACKAGE_EXECUTION_AND_PARTIAL"
  | dataApi                       => "DATA_API"
  | policySwitchAndOverlap        => "POLICY_SWITCH_AND_OVERLAP"
  | dataProviderLicenseApi        => "DATA_PROVIDER_LICENSE_API"
  | cloudComputeStorageEgress     => "CLOUD_COMPUTE_STORAGE_EGRESS"
  | opsLaborAndIncident           => "OPS_LABOR_AND_INCIDENT"

end CostType

inductive CostRole
  | cashDeduction
  | executionModelInput
  | operatingExpense
  | riskDiagnostic
  deriving DecidableEq

namespace CostRole

def all : List CostRole :=
  [.cashDeduction, .executionModelInput, .operatingExpense, .riskDiagnostic]

def name : CostRole → String
  | cashDeduction       => "CASH_DEDUCTION"
  | executionModelInput => "EXECUTION_MODEL_INPUT"
  | operatingExpense    => "OPERATING_EXPENSE"
  | riskDiagnostic      => "RISK_DIAGNOSTIC"

end CostRole

inductive CostStatus
  | missing
  | conservativeModeled
  deriving DecidableEq

namespace CostStatus

def all : List CostStatus :=
  [.missing, .conservativeModeled]

def name : CostStatus → String
  | missing             => "MISSING"
  | conservativeModeled => "CONSERVATIVE_MODELED"

end CostStatus

/-- Whether a quantity can be computed from the data there is. -/
inductive Estimable
  | yes
  | inPart
  | no
  deriving DecidableEq

namespace Estimable

def all : List Estimable :=
  [.yes, .inPart, .no]

def name : Estimable → String
  | yes    => "YES"
  | inPart => "PARTIAL"
  | no     => "NO"

end Estimable

end HftBot.Experiment
