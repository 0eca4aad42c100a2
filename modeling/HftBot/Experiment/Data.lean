import HftBot.Experiment.Actions

/-!
# The data a card needs

What each data profile can compute today and what it lacks, the contract for data from outside the
venue, how each blocker is remedied, and the evidence measured so far.
-/

namespace HftBot.Experiment

open HftBot.Core PyValue

/-! ### Data profiles -/

structure CanComputeNow where
  signalEvent : Estimable
  conditionalMarkout : Estimable
  strictFill : Estimable
  feeAfterShadowPnl : Estimable
  settlementPnl : Estimable
  realizedPnl : Estimable

def CanComputeNow.toValue (c : CanComputeNow) : PyValue :=
  object [("signal_event", string c.signalEvent.name),
    ("conditional_markout", string c.conditionalMarkout.name),
    ("strict_fill", string c.strictFill.name),
    ("fee_after_shadow_pnl", string c.feeAfterShadowPnl.name),
    ("settlement_pnl", string c.settlementPnl.name), ("realized_pnl", string c.realizedPnl.name)]

structure Data where
  inputs : List String
  canComputeNow : CanComputeNow
  currentlyCalculable : String
  missing : List String
  acquisitionPaths : List String
  blockers : List Blocker

def dataProfile : DataProfile → Data
  | .l1 =>
    { inputs := ["KALSHI_L1", "PUBLIC_TRADES", "CATALOG"]
      canComputeNow := ⟨.yes, .yes, .inPart, .no, .no, .no⟩
      currentlyCalculable :=
        "8 exact V3 dates can describe L1/trade signal incidence and conditional markout; this " ++
          "is not executable PnL."
      missing := ["strategy-specific stateful strict-fill replay",
        "versioned exact fee/rounding at each simulated fill",
        "measured placement/cancel/exit latency", "untouched quality dates for validation"]
      acquisitionPaths := ["existing sealed Kalshi L1/trade pipeline",
        "shadow engine actual decision and order-state ledgers",
        "Kalshi private fills for later micro-live reconciliation"]
      blockers := [.fillModelMissing, .feeUnknown, .latencyUnmeasured, .insufficientQualityDates] }
  | .l2 =>
    { inputs := ["SEQUENCE_VALID_KALSHI_L2", "KALSHI_L1", "PUBLIC_TRADES"]
      canComputeNow := ⟨.yes, .yes, .inPart, .no, .no, .no⟩
      currentlyCalculable :=
        "Depth/refill/retreat signals are descriptive on clean dates 2026-07-12, 2026-07-15 and " ++
          "2026-07-17 only."
      missing := ["own queue position and order acknowledgements",
        "strategy-specific strict-fill and cancel-race replay",
        "exact fees, latency and at least 20 independent clean days"]
      acquisitionPaths := ["continue sequence-valid L2 capture and daily quality receipts",
        "own-order shadow/micro-live calibration",
        "private order/fill/cancel acknowledgement ledger"]
      blockers := [.ownOrderCalibrationMissing, .fillModelMissing, .feeUnknown,
        .latencyUnmeasured, .insufficientQualityDates] }
  | .l1L2 =>
    { inputs := ["KALSHI_L1", "PUBLIC_TRADES", "SEQUENCE_VALID_KALSHI_L2", "CATALOG"]
      canComputeNow := ⟨.yes, .yes, .inPart, .no, .no, .no⟩
      currentlyCalculable :=
        "L1 signal and 3-clean-day L2 mechanism measurements; no own-order, fee-after or " ++
          "realized PnL."
      missing := ["own fills/queue/cancel-effective state", "exact fee and latency path",
        "additional clean L2 dates"]
      acquisitionPaths := ["existing L1/L2 collectors", "stateful shadow order ledger",
        "private fills and acknowledgements after separate authority"]
      blockers := [.ownOrderCalibrationMissing, .fillModelMissing, .feeUnknown,
        .latencyUnmeasured, .insufficientQualityDates] }
  | .l1Private =>
    { inputs := ["KALSHI_L1", "PUBLIC_TRADES", "CATALOG", "FROZEN_PAST_ONLY_FAIR_AND_VOLATILITY",
        "PRIVATE_ACCOUNT_ORDERS_POSITIONS_FILLS"]
      canComputeNow := ⟨.no, .inPart, .no, .no, .no, .no⟩
      currentlyCalculable :=
        "Public L1/trades can produce candidate fair and volatility features, but the " ++
          "reservation-skew signal is not observable without authoritative point-in-time own " ++
          "inventory and orders."
      missing := ["authoritative point-in-time position and resting-order exposure",
        "immutable child maker definition and fair/volatility specification",
        "own order acknowledgements, fills, fees and reconciliation"]
      acquisitionPaths := ["existing sealed Kalshi L1/trade/catalog pipeline",
        "read-only private positions/open-orders/fills snapshots",
        "system-owned shadow order ledger with frozen fair/volatility model"]
      blockers := [.privateAccountStateMissing, .ownOrderCalibrationMissing, .fillModelMissing,
        .feeUnknown, .latencyUnmeasured, .insufficientQualityDates] }
  | .family =>
    { inputs := ["CATALOG", "FAMILY_MAP", "KALSHI_L1", "KALSHI_L2"]
      canComputeNow := ⟨.inPart, .inPart, .no, .no, .no, .no⟩
      currentlyCalculable :=
        "Market-graph price residuals are monitors only; the prior B03 run found zero " ++
          "payout-exhaustive, fill-feasible candidates."
      missing := ["authoritative exhaustive payout-state mapping",
        "all-leg exact fees and synchronized executable depth",
        "partial-leg/orphan unwind engine"]
      acquisitionPaths := ["Kalshi catalog/market rules and settlement metadata",
        "manual-plus-machine audited payout mapping",
        "stateful multi-leg shadow engine and private fills"]
      blockers := [.payoutExhaustivenessMissing, .multiLegEngineMissing, .feeUnknown] }
  | .terminal =>
    { inputs := ["KALSHI_L1", "CATALOG", "SETTLEMENT_AND_LIFECYCLE"]
      canComputeNow := ⟨.inPart, .yes, .inPart, .no, .inPart, .no⟩
      currentlyCalculable :=
        "Price/lifecycle paths are observable; terminal coverage is not yet exact-release-bound " ++
          "and exhaustive for every legal state."
      missing := ["100% resolved/void/retire/postpone terminal state coverage",
        "exact fill selection and fees", "capital-hours and residual inventory reconciliation"]
      acquisitionPaths := ["Kalshi settlements and lifecycle APIs captured append-only",
        "versioned market rules and settlement-source mapping",
        "private fills for realized reconciliation"]
      blockers := [.settlementMissing, .fillModelMissing, .feeUnknown] }
  | .rfqPublic =>
    { inputs := ["FRESH_RFQ_CREATED_DELETED", "KALSHI_L1", "KALSHI_L2"]
      canComputeNow := ⟨.no, .no, .no, .no, .no, .no⟩
      currentlyCalculable :=
        "Code for D01-D07 exists, but the unified durable release chain has not produced a " ++
          "locally available eligible RFQ result."
      missing := ["eligible fresh exact-version RFQ releases", "same-date exact CLOB joins",
        "own CLOB order counterfactual for risk-off PnL"]
      acquisitionPaths := ["finish RFQ unified seal/verify/release chain",
        "run D01-D07 against same-date L1/L2", "capture own shadow maker order state"]
      blockers := [.rfqPublicDataUnreleased, .fillModelMissing, .latencyUnmeasured] }
  | .rfqPrivate =>
    { inputs := ["FRESH_RFQ_CREATED_DELETED", "PRIVATE_QUOTE_ACCEPT_CONFIRM_EXECUTE",
        "PRIVATE_FILLS_FEES", "KALSHI_L2"]
      canComputeNow := ⟨.no, .no, .no, .no, .no, .no⟩
      currentlyCalculable :=
        "Public RFQ create/delete cannot establish direction, acceptance, fill, fee, inventory, " ++
          "hedge or realized PnL."
      missing := ["separate RFQ quote-write authority",
        "private accepted_side/confirm/executed lifecycle",
        "quote-to-fill correlation, exact fees and hedge depth"]
      acquisitionPaths := ["separately authorized RFQ shadow/micro-live participant",
        "communications private events",
        "Kalshi portfolio fills and position/settlement reconciliation"]
      blockers := [.rfqPublicDataUnreleased, .rfqPrivateEventsMissing, .venuePermissionMissing,
        .feeUnknown, .latencyUnmeasured] }
  | .mvePrivate =>
    { inputs := ["EXACT_VERSION_MVE_CATALOG_AND_RULES",
        "AUDITED_MVE_LEG_ORIENTATION_AND_PAYOUT_MATRIX", "PRIVATE_MVE_PACKAGE_ORDER_ACK_FILL_FEE",
        "PRIVATE_LEG_FILLS_POSITIONS_AND_SETTLEMENT", "SEQUENCE_VALID_KALSHI_L2"]
      canComputeNow := ⟨.no, .no, .no, .no, .no, .no⟩
      currentlyCalculable :=
        "No admitted private MVE package lifecycle, exact leg/payout mapping, or " ++
          "package-to-position reconciliation is bound. RFQ public/private events are not an " ++
          "MVE substitute."
      missing := ["exact-version MVE catalog, leg orientation and payout matrix",
        "private MVE package submit/ack/cancel/fill/fee lifecycle",
        "synchronized hedge-leg L2, fills, positions and settlement"]
      acquisitionPaths := ["capture the admitted MVE catalog and rules append-only",
        "separately authorized private MVE execution/shadow receipts",
        "join package and leg events to positions, fees and settlements"]
      blockers := [.mvePrivateEventsMissing, .instrumentMappingUnknown,
        .payoutExhaustivenessMissing, .multiLegEngineMissing, .venuePermissionMissing,
        .feeUnknown, .latencyUnmeasured] }
  | .external =>
    { inputs := ["EXTERNAL_SPORTS_ASOF", "KALSHI_L1", "KALSHI_L2"]
      canComputeNow := ⟨.no, .no, .no, .no, .no, .no⟩
      currentlyCalculable :=
        "No score, serve, injury, lineup or external-odds feed is present in the exact " ++
          "DeepResearch data. Price proxies are forbidden."
      missing := ["licensed direct sports/odds source",
        "source event timestamp and local receive clocks",
        "versioned event/market mapping and point-in-time snapshots"]
      acquisitionPaths := ["append-only Kalshi Milestones/Live Data capture for direct labels",
        "licensed provider historical backfill where point-in-time semantics exist",
        "forward commercial real-time feed with raw bytes and dual receive clocks"]
      blockers := [.externalSportsDataMissing, .externalApiUnverified, .timestampSemanticsUnknown] }
  | .catalog =>
    { inputs := ["KALSHI_CATALOG_AND_MARKET_RULES"]
      canComputeNow := ⟨.inPart, .no, .no, .no, .no, .no⟩
      currentlyCalculable := "Schema/coverage only; no action or cash PnL."
      missing := ["versioned semantics for any unsupported instrument"]
      acquisitionPaths := ["Kalshi public catalog/rules captured by exact version"]
      blockers := [] }
  | .model =>
    { inputs := ["OWNER_EXPERIMENT_FEATURES_AND_LABEL"]
      canComputeNow := ⟨.inPart, .inPart, .no, .no, .no, .no⟩
      currentlyCalculable :=
        "Chronological forecast comparisons are possible only after a specific owner, label and " ++
          "split are bound; a model is not a strategy."
      missing := ["one owner experiment with frozen action and outcome label",
        "nested chronological split and simple-model baseline", "owner execution PnL"]
      acquisitionPaths := ["create a separate G-method x owner experiment revision"]
      blockers := [.actionIncomplete] }
  | .metaStrategy =>
    { inputs := ["CONFIRMED_CHILD_STRATEGY_OUTPUTS", "COMMON_ROOT_LEDGER"]
      canComputeNow := ⟨.inPart, .no, .no, .no, .no, .no⟩
      currentlyCalculable :=
        "Overlap/covariance descriptions are possible; a router or portfolio PnL is not " ++
          "estimable without confirmed children."
      missing := ["at least one or two confirmed child strategies as applicable",
        "joint root-deduped execution and capital ledger", "switch/overlap/correlation costs"]
      acquisitionPaths := ["complete child confirmation first",
        "joint shadow replay with shared order/risk ledger"]
      blockers := [.confirmedChildStrategiesMissing] }
  | .privateState =>
    { inputs := ["PRIVATE_ACCOUNT_ORDERS_POSITIONS_FILLS"]
      canComputeNow := ⟨.no, .no, .no, .no, .no, .no⟩
      currentlyCalculable := "Public research data cannot establish account ownership conflicts."
      missing := ["private open-order/position/fill ownership state",
        "manual/system precedence and STP receipts"]
      acquisitionPaths := ["read-only private account snapshots",
        "system-owned order registry and reconciliation ledger"]
      blockers := [.privateAccountStateMissing] }
  | .outOfScope =>
    { inputs := []
      canComputeNow := ⟨.no, .no, .no, .no, .no, .no⟩
      currentlyCalculable := "No computation in the current Sports program."
      missing := ["separate program authority and registry lineage"]
      acquisitionPaths := ["new operator-approved program, if ever desired"]
      blockers := [.outOfScopeCurrentProgram] }
  | .internalControl =>
    { inputs := ["INTERNAL_SEALED_RESEARCH_DATA"]
      canComputeNow := ⟨.inPart, .inPart, .no, .no, .no, .no⟩
      currentlyCalculable := "Diagnostic/control statistic only; no trading action."
      missing := []
      acquisitionPaths := ["existing sealed research releases"]
      blockers := [] }
  | .ownerEvpi =>
    { inputs := ["IMMUTABLE_OWNER_CARD_ID_REVISION_DEFINITION_SHA",
        "OWNER_DECISION_AND_OPPORTUNITY_LEDGER", "FROZEN_OWNER_LOSS_FUNCTIONAL",
        "FROZEN_NON_CAUSAL_FUTURE_ORACLE_RULE", "KALSHI_L1", "PUBLIC_TRADES",
        "SEQUENCE_VALID_KALSHI_L2", "CATALOG"]
      canComputeNow := ⟨.no, .no, .no, .no, .no, .no⟩
      currentlyCalculable :=
        "The future L1/L2 path exists, but EVPI is undefined until an immutable eligible owner " ++
          "card, its actual decision/opportunity ledger, loss functional and oracle rule are " ++
          "frozen."
      missing := ["confirmed immutable owner card ID, revision and definition SHA",
        "owner decision/opportunity ledger including abstentions and zeros",
        "frozen loss functional and non-causal future-oracle rule"]
      acquisitionPaths := ["confirm an eligible owner experiment first",
        "seal the owner's shadow decision/opportunity ledger by exact release",
        "preregister loss and oracle functions before future-path evaluation"]
      blockers := [.confirmedChildStrategiesMissing] }

/-- The blockers of a card that has no action. -/
def signalLevelBlockers : DataProfile → List Blocker
  | .rfqPublic    => [.rfqPublicDataUnreleased]
  | .rfqPrivate   => [.rfqPublicDataUnreleased, .rfqPrivateEventsMissing]
  | .mvePrivate   => [.mvePrivateEventsMissing, .instrumentMappingUnknown,
                      .payoutExhaustivenessMissing]
  | .external     => [.externalSportsDataMissing, .externalApiUnverified,
                      .timestampSemanticsUnknown]
  | .model        => [.actionIncomplete]
  | .metaStrategy => [.confirmedChildStrategiesMissing]
  | .privateState => [.privateAccountStateMissing]
  | .l1Private    => [.privateAccountStateMissing]
  | .outOfScope   => [.outOfScopeCurrentProgram]
  | .ownerEvpi    => [.confirmedChildStrategiesMissing]
  | _             => []

/-! ### Data from outside the venue -/

structure External where
  dependency : Dependency
  availability : String
  requiredVariables : List String
  providerCandidates : List String
  asofClockStatus : String
  licenseStatus : String
  historicalBackfillStatus : String
  missingPolicy : String
  proxyPolicy : String
  blockers : List Blocker

def External.toValue (e : External) : PyValue :=
  object [("dependency", string e.dependency.name), ("availability", string e.availability),
    ("required_variables", strings e.requiredVariables), ("approved_source", null),
    ("provider_candidates", strings e.providerCandidates),
    ("asof_clock_status", string e.asofClockStatus), ("license_status", string e.licenseStatus),
    ("historical_backfill_status", string e.historicalBackfillStatus),
    ("missing_policy", string e.missingPolicy), ("proxy_policy", string e.proxyPolicy),
    ("blockers", strings (e.blockers.map Blocker.name))]

def externalVariablesByExperiment : List (String × List String) :=
  [("B10-INPLAY-PROXY-PRICE-EROSION",
    ["official game live/pre/post status", "period or set/inning/round",
     "score and authoritative game clock"]),
   ("C05-SOCCER-POISSON",
    ["fixture identity and kickoff", "goals and match state",
     "team/lineup inputs if used by the frozen Poisson specification"]),
   ("F09-TENNIS-BO3-BO5",
    ["authoritative best-of-three or best-of-five format",
     "set/game/point score and server if used"]),
   ("F11-GOLF-THIN-LONG-LIFECYCLE",
    ["tournament round, cut status and field status"]),
   ("F12-EXTERNAL-ODDS-LEADLAG",
    ["bookmaker, market, selection and decimal price",
     "provider price-change event time and suspension state"]),
   ("F13-EXTERNAL-SPORT-STATE",
    ["sport-specific score, period/set/inning/round and game clock",
     "serve, possession, outs/bases, lineup or injury only when named by the card"]),
   ("F14-PROVIDER-PRICE-LATENCY-TIER",
    ["same odds update from each named provider",
     "provider event time, provider publication time and local receive time"]),
   ("F15-BLINDNESS-EVPI",
    ["the exact external variables available to the informed policy",
     "provider event/publication time and local receive time"]),
   ("F16-COURTSIDE-SPEED-OUT-OF-SCOPE",
    ["authoritative venue event time and courtside receive time"])]

/-- The variables, with those of the three that are not among them. -/
def withClocksAndMapping (named : List String) : List String :=
  ["provider event/publication timestamp", "local receive wall clock and monotonic clock",
   "versioned provider-event-to-Kalshi root/market/outcome mapping"].foldl
    (fun vs required => if required ∈ vs then vs else vs ++ [required]) named

def externalContract (dependency : Dependency) (atomicId : String) : External :=
  let namedVariables (otherwise : String) : List String :=
    (externalVariablesByExperiment.lookup atomicId).getD [otherwise]
  match dependency with
  | .notRequired =>
    { dependency := dependency
      availability := "NOT_APPLICABLE"
      requiredVariables := []
      providerCandidates := []
      asofClockStatus := "NOT_APPLICABLE"
      licenseStatus := "NOT_APPLICABLE"
      historicalBackfillStatus := "NOT_APPLICABLE"
      missingPolicy := "NOT_APPLICABLE"
      proxyPolicy := "PRICE_IS_NOT_SPORT_STATE"
      blockers := [] }
  | .optionalRefinement =>
    { dependency := dependency
      availability := "MISSING_OPTIONAL_REFINEMENT"
      requiredVariables := namedVariables "the explicitly named direct sports-state refinement"
      providerCandidates := ["KALSHI_MILESTONES_LIVE_DATA", "OPTICODDS", "SPORTRADAR"]
      asofClockStatus := "UNVERIFIED"
      licenseStatus := "UNVERIFIED"
      historicalBackfillStatus := "UNVERIFIED_POINT_IN_TIME"
      missingPolicy := "DO_NOT_IMPUTE_CORE_MAY_RUN_WITHOUT_FIELD"
      proxyPolicy :=
        "The core experiment keeps its internal proxy label and never renames it as actual " ++
          "sports state."
      blockers := [] }
  | .required =>
    { dependency := dependency
      availability := "MISSING"
      requiredVariables := withClocksAndMapping
        (namedVariables "direct event or game state named by the experiment")
      providerCandidates := ["KALSHI_MILESTONES_LIVE_DATA", "THE_ODDS_API", "OPTICODDS",
        "SPORTRADAR"]
      asofClockStatus := "UNVERIFIED"
      licenseStatus := "UNVERIFIED"
      historicalBackfillStatus := "UNVERIFIED_POINT_IN_TIME"
      missingPolicy := "BLOCK_NO_IMPUTE"
      proxyPolicy :=
        "Do not infer score, serve, inning, pitch, injury, lineup, round, cut, or external odds " ++
          "from Kalshi price/order flow."
      blockers := [.externalSportsDataMissing, .externalApiUnverified, .timestampSemanticsUnknown] }
  | .inheritOwner | .inheritChildren =>
    { dependency := dependency
      availability := "UNRESOLVED_UNTIL_BINDING"
      requiredVariables := ["the exact external-data contract of the bound owner or child card"]
      providerCandidates := []
      asofClockStatus := "INHERITED"
      licenseStatus := "INHERITED"
      historicalBackfillStatus := "INHERITED"
      missingPolicy := "BLOCK_IF_BOUND_CARD_REQUIRES_IT"
      proxyPolicy := "PRICE_IS_NOT_SPORT_STATE"
      blockers := [] }

/-! ### Study dates -/

def availableReleaseDates : List String :=
  ["2026-07-10", "2026-07-11", "2026-07-12", "2026-07-13", "2026-07-14", "2026-07-15",
   "2026-07-16", "2026-07-17"]

def l2EstimatorCleanDates : List String := ["2026-07-12", "2026-07-15", "2026-07-17"]

/-- The dates that the signal is described on now, or may be once its last gates close. The status
is what the object under check says, so it is any value. -/
def studyDates (profile : DataProfile) (signalEventStatus : PyValue) : PyValue :=
  let dates :=
    if profile ∈ [.l2, .l1L2, .family, .mvePrivate, .ownerEvpi] then l2EstimatorCleanDates
    else availableReleaseDates
  object [("available_exact_release_dates", strings availableReleaseDates),
    ("eligible_for_current_signal_description",
      strings (if signalEventStatus.eq (string "YES") then dates else [])),
    ("potential_dates_after_remaining_signal_gates_close",
      strings (if signalEventStatus.eq (string "PARTIAL") then dates else [])),
    ("signal_event_status", signalEventStatus),
    ("l2_estimator_clean_dates", strings l2EstimatorCleanDates),
    ("quality_rule",
      string ("L2 estimands use only 2026-07-12/15/17. Damaged L2 dates 2026-07-13/14/16 stay " ++
               "in the coverage ledger only; 2026-07-10/11 are L2-missing. Every experiment " ++
               "re-runs its own input gate.")),
    ("confirmation_status", string "NO_UNTOUCHED_CONFIRMATION_COHORT_ALLOCATED")]

/-! ### Blockers -/

structure Remedy where
  missing : String
  acquisition : String
  blockingStage : String

def blockerRemediationCatalog : Blocker → Remedy
  | .missingSignalInput =>
    ⟨"The card-specific real-time signal field is not captured.",
     "Add an append-only source adapter with schema, event time, receive time, mapping and " ++
       "quality receipts.",
     "SIGNAL"⟩
  | .timestampSemanticsUnknown =>
    ⟨"Publication/event/as-of and local receive clocks are not proven causal.",
     "Retain raw payloads plus source, wall and monotonic receive clocks; audit revisions and " ++
       "future-as-of sentinels.",
     "SIGNAL"⟩
  | .externalSportsDataMissing =>
    ⟨"The named direct sports-state or odds variables are absent.",
     "Capture an approved official/licensed source forward, or buy a point-in-time historical " ++
       "product after license review.",
     "SIGNAL"⟩
  | .externalApiUnverified =>
    ⟨"API fields, coverage, point-in-time behavior, license or cost are unverified.",
     "Run a read-only provider canary and schema/clock/license/spend audit before admitting a " ++
       "release.",
     "SIGNAL"⟩
  | .venuePermissionMissing =>
    ⟨"The experiment has no shadow, RFQ-write or live-order authority.",
     "Request a separate least-privilege execution authority only after the research card is " ++
       "frozen.",
     "EXECUTION"⟩
  | .instrumentMappingUnknown =>
    ⟨"Outcome, root, leg or external-event mapping is not authoritative.",
     "Build a versioned catalog/rules mapping with manual exception review and exact hash " ++
       "receipts.",
     "SIGNAL"⟩
  | .actionIncomplete =>
    ⟨"No deterministic side/price/quantity/timing/exit action is bound.",
     "Create a new immutable action-card revision; do not promote the research direction itself.",
     "ACTION"⟩
  | .baselineIncomplete =>
    ⟨"No comparable executable control policy is frozen.",
     "Define a same-opportunity no-trade or executable policy baseline before reading outcomes.",
     "DESIGN"⟩
  | .feeUnknown =>
    ⟨"Exact order-level maker/taker fee, rounding, rebate or override is absent.",
     "Version fee facts by series/date/role/account and reconcile simulated fees to private " ++
       "account charges.",
     "PNL"⟩
  | .fillModelMissing =>
    ⟨"Strict stateful fill, partial fill, depth, cancel race or impact is not calibrated.",
     "Run pessimistic replay, then shadow own orders and reconcile to separately authorized " ++
       "micro-live fills.",
     "EXECUTION"⟩
  | .ownOrderCalibrationMissing =>
    ⟨"Public book data does not reveal own queue position or order lifecycle.",
     "Capture client order IDs, acknowledgements, queue proxies, cancels and fills in " ++
       "shadow/micro-live.",
     "EXECUTION"⟩
  | .latencyUnmeasured =>
    ⟨"Decision, place, cancel-effective, hedge or exit latency is not measured.",
     "Instrument monotonic timestamps at decision/send/ack/effective/fill and replay " ++
       "p50/p95/p99 paths.",
     "EXECUTION"⟩
  | .settlementMissing =>
    ⟨"Terminal payout and every legal void/cancel/retire/postpone path are incomplete.",
     "Capture settlements and lifecycle changes append-only and bind versioned market rules to " ++
       "each contract.",
     "PNL"⟩
  | .payoutExhaustivenessMissing =>
    ⟨"The proposed leg set is not proven exhaustive across all legal payout states.",
     "Create an audited state-by-leg payout matrix from market rules and settlement metadata.",
     "SIGNAL"⟩
  | .rfqPrivateEventsMissing =>
    ⟨"Accepted side, quote, confirmation, execution, fill or fee events are absent.",
     "Use a separately authorized RFQ participant to capture private lifecycle receipts and " ++
       "correlate them to fills.",
     "EXECUTION"⟩
  | .rfqPublicDataUnreleased =>
    ⟨"No eligible fresh exact-version RFQ release is bound to the experiment.",
     "Complete the fresh RFQ seal/quality/manifest chain and same-date CLOB join; never repair " ++
       "the old damaged set.",
     "SIGNAL"⟩
  | .mvePrivateEventsMissing =>
    ⟨"MVE package/leg order, acknowledgement, fill and fee lifecycle is absent.",
     "Capture the admitted MVE private execution interface and reconcile package/leg events to " ++
       "positions and settlement.",
     "EXECUTION"⟩
  | .multiLegEngineMissing =>
    ⟨"Atomic/orphan-safe multi-leg execution and reconciliation do not exist.",
     "Build a joint replay/shadow engine with worst-sequence reserve, partial-leg unwind and " ++
       "shared risk ledger.",
     "EXECUTION"⟩
  | .confirmedChildStrategiesMissing =>
    ⟨"The router, portfolio or increment has no confirmed executable child policies.",
     "Confirm children independently, then bind immutable child fingerprints and a common-root " ++
       "ledger.",
     "DESIGN"⟩
  | .privateAccountStateMissing =>
    ⟨"Authoritative positions, open orders, fills or ownership state are absent.",
     "Capture least-privilege read-only account snapshots and reconcile system-owned " ++
       "order/position ledgers.",
     "RISK"⟩
  | .insufficientQualityDates =>
    ⟨"Independent clean dates/roots are below the frozen evidence requirement.",
     "Continue the automatic sealed daily pipeline to a preregistered fixed end; never extend " ++
       "based on results.",
     "INFERENCE"⟩
  | .sampleTooSmall =>
    ⟨"Eligible independent roots/events are too sparse for the frozen estimand.",
     "Accrue to the preregistered end or close as not estimable; do not pool away the niche.",
     "INFERENCE"⟩
  | .dataIntegrityBlocked =>
    ⟨"An input object or release failed immutable integrity checks.",
     "Quarantine the whole damaged object/release and use only a newly sealed clean acquisition.",
     "DATA"⟩
  | .riskGatesMissing =>
    ⟨"Capital, inventory, tail, concentration, stop or emergency-exit limits are not complete.",
     "Freeze root/event/day caps, collateral, tail limits, emergency tokens and reduce-only " ++
       "exits.",
     "RISK"⟩
  | .operatingCostUnknown =>
    ⟨"Provider, compute/storage/egress, labor/on-call or incident cost is not measured.",
     "Bind invoices and metered usage to UTC day/card/root allocation rules; unknown operating " ++
       "cost blocks commercial ROC.",
     "PNL"⟩
  | .outOfScopeCurrentProgram =>
    ⟨"The direction is excluded from the current Sports program.",
     "Keep it closed unless a new operator-approved program and lineage explicitly admit it.",
     "PROGRAM"⟩

/-- What is missing and how to acquire it, where a card says that in its own words. -/
def cardSpecificGapOverrides : List ((String × Blocker) × String × String) :=
  [(("A07D-ANCHOR-MANIPULABILITY", .missingSignalInput),
    "No independently sourced fair anchor and visible cost-to-move series is bound.",
    "Define an actually independent anchor, prove it excludes circular Kalshi inputs, and " ++
      "capture its as-of path."),
   (("A20-SYSTEM-LOAD-QUEUE-GROWTH", .missingSignalInput),
    "Decision-queue age, event-loop lag, send backlog and cancel-effective system telemetry are " ++
      "absent.",
    "Instrument the production/shadow engine with monotonic queue/load/send/ack timestamps and " ++
      "seal daily telemetry."),
   (("F07-LOW-OCC-INDEPENDENT-FAIR", .missingSignalInput),
    "No independent fair-value source or model with non-circular inputs is available.",
    "Register the fair model/source, its inputs and as-of clock; prove no contemporaneous " ++
      "target-book leakage."),
   (("F15-BLINDNESS-EVPI", .confirmedChildStrategiesMissing),
    "No immutable eligible owner card, decision/opportunity ledger, loss functional, or " ++
      "future-oracle rule is bound.",
    "Confirm and fingerprint one owner revision, seal its decision ledger, then freeze the loss " ++
      "functional and non-causal oracle rule before outcome reads."),
   (("A16-INVENTORY-RESERVATION-SKEW", .privateAccountStateMissing),
    "The strategy cannot observe reconciled own inventory and resting-order exposure.",
    "Add read-only positions/open-orders/fills snapshots and a system-owned order " ++
      "reconciliation ledger."),
   (("E03-FREEZE-WINDOW", .privateAccountStateMissing),
    "The early-exit policy lacks an authoritative position to reduce.",
    "Bind read-only position/open-order snapshots at every freeze decision and reconcile the " ++
      "reduce-only quantity."),
   (("E06-HOLD-TO-TERMINAL-TAIL", .privateAccountStateMissing),
    "The hold-versus-exit comparison lacks exact owned fill and residual position identity.",
    "Bind the original private fill, subsequent position ledger and paired executable exit " ++
      "opportunity."),
   (("P05-BRACKET-HEDGE", .confirmedChildStrategiesMissing),
    "The hedge has no confirmed primary child exposure to offset.",
    "Confirm and fingerprint the primary child first, then bind the exact bracket hedge legs."),
   (("P09-MANUAL-SYSTEM-COEXISTENCE", .privateAccountStateMissing),
    "Manual and automated order ownership, precedence and self-trade state are not observable.",
    "Add system ownership tags, read-only account reconciliation and explicit manual/system " ++
      "precedence receipts.")]

structure Gap where
  blocker : Blocker
  blockingStage : String
  missingEvidence : String
  acquisitionOrBuildPath : String
  externalApiCandidateIds : List String

def gapOf (atomicId : String) (blocker : Blocker) : Gap :=
  let remedy := blockerRemediationCatalog blocker
  let (missing, acquisition) :=
    (cardSpecificGapOverrides.lookup (atomicId, blocker)).getD (remedy.missing, remedy.acquisition)
  { blocker := blocker
    blockingStage := remedy.blockingStage
    missingEvidence := missing
    acquisitionOrBuildPath := acquisition
    externalApiCandidateIds :=
      if blocker = .externalSportsDataMissing ∨ blocker = .externalApiUnverified then
        ["KALSHI_MILESTONES_LIVE_DATA", "THE_ODDS_API", "OPTICODDS", "SPORTRADAR"]
      else [] }

/-- A name that no remedy is known for raises. -/
def gapContract (atomicId : String) (blocker : String) : Except PyError Gap :=
  match Blocker.ofName blocker with
  | some b => .ok (gapOf atomicId b)
  | none   => .error .keyError

def Gap.toValue (gap : Gap) : PyValue :=
  object [("blocker", string gap.blocker.name), ("blocking_stage", string gap.blockingStage),
    ("missing_evidence", string gap.missingEvidence),
    ("acquisition_or_build_path", string gap.acquisitionOrBuildPath),
    ("external_api_candidate_ids", strings gap.externalApiCandidateIds),
    ("unknown_value_policy", string "BLOCK_NOT_ZERO")]

/-! ### Evidence -/

/-- The double nearest to a decimal fraction. -/
def decimal (digits : Nat) (places : Nat) (neg : Bool := false) : PyValue :=
  float (Double.ofRatio neg digits (10 ^ places))

/-- The status of an observation, its values and its source. -/
def observedSignalEvidence : List (String × String × PyValue × String) :=
  [("A01-SPREAD-CAPTURE", "DESCRIPTIVE_GROSS_SIGNAL_ONLY",
    object [
      ("pooled_signed_markout_logodds",
       object [("1s", decimal 38 3), ("5s", decimal 46 3), ("30s", decimal 56 3)]),
      ("interpretation",
       string ("Pooled half-spread exceeded signed markout in most large-sport cells, before " ++
                "fees, fills, latency and executable exit."))],
    "RESULTS.json::base_methods[D3-B01-MARKOUT]"),
   ("A03-DEPLETION-REFILL", "DESCRIPTIVE_CLEAN_L2_DATES_ONLY",
    object [("dates", strings ["2026-07-12", "2026-07-15", "2026-07-17"]),
      ("refill_hazard_0_100ms", list [decimal 245 3, decimal 293 3, decimal 308 3]),
      ("cumulative_refill_probability_1s", list [decimal 572 3, decimal 505 3, decimal 52 2]),
      ("interpretation",
       string ("Displayed depth often refilled quickly; this is not own-order queue survival, " ++
                "fill probability or PnL."))],
    "FULLSCOPE_L2_REPORT_TABLES.json::refill_hazard"),
   ("A07B-COORDINATED-RETREAT", "OUTCOME_NOT_ESTIMABLE_FROM_DELIVERED_TABLES",
    object [("retreat_episode_rows", int 853294),
      ("matched_control_rates", list [decimal 19 3, decimal 19 3, decimal 16 3]),
      ("depth_smd", list [decimal 32 2 true, decimal 31 2 true, decimal 4 1 true]),
      ("interpretation",
       string ("Event extraction exists, but delivered tables lack the required " ++
                "event-minus-control price outcome and depth matching is imbalanced."))],
    "FULLSCOPE_L2_REPORT_TABLES.json::match_coverage"),
   ("A11-ONE-SIDED-PROVISION", "DESCRIPTIVE_NARROW_PRESTART_SIGNAL_ONLY",
    object [
      ("tennis_prestart_duration_seconds",
       object [("p50", decimal 1001 3), ("p95", decimal 30999 3)]),
      ("basketball_prestart_p50_seconds", decimal 5001 3),
      ("interpretation",
       string ("Only a narrow pre-scheduled-start cell looked transient; the broad one-sided " ++
                "fade was contradicted and no fill/PnL was measured."))],
    "RESULTS.json::base_methods[D3-B02-ONESIDE]"),
   ("C04-SAME-EVENT-FAMILY-COHERENCE", "NOT_ESTIMABLE",
    object [("candidate_families", int 28080), ("payout_exhaustive_survivors", int 0),
      ("fee_and_fill_feasible_survivors", int 0)],
    "EXCLUSION_WATERFALL.json::D3-B03-XMKT")]

def observedStatus (atomicId : String) : String :=
  ((observedSignalEvidence.lookup atomicId).map fun e => e.1).getD "NOT_MEASURED_IN_CURRENT_RELEASE"

def observedSignal (atomicId : String) : PyValue :=
  match observedSignalEvidence.lookup atomicId with
  | some (status, values, source) =>
    object [("status", string status), ("values", values), ("source", string source)]
  | none =>
    object [("status", string "NOT_MEASURED_IN_CURRENT_RELEASE"), ("values", null),
      ("source", null)]

def overlapPrecedenceByExperiment : List (String × String) :=
  [("B08-CONTINUOUS-PRICE-CALIBRATION",
    "B08 owns only lifecycle opportunities outside E04_PRE_FREEZE_NEAR_TERMINAL_WINDOW; it " ++
      "abstains inside E04's window."),
   ("E04-SETTLEMENT-CALIBRATION",
    "E04 exclusively owns E04_PRE_FREEZE_NEAR_TERMINAL_WINDOW; B08 is ineligible there, and " ++
      "common-root capital/PnL is counted once.")]

end HftBot.Experiment
