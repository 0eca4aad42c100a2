import HftBot.Experiment.Card

/-!
# The seeds

The seeds of the registry's cards, in the order in which they are registered. The fields of a seed
stand in the order of its structure: the hypothesis, the signal, the three profiles, the class, the
status, the ceiling of the claim and the extra blockers.
-/

namespace HftBot.Experiment

def receive : String := "LOCAL_RECEIVE_CLOCK_PAST_ONLY"
def rfqReceive : String := "RFQ_LOCAL_RECEIVE_CLOCK_PAST_ONLY"
def privateRfq : String := "PRIVATE_RFQ_EVENT_RECEIVE_CLOCK_PAST_ONLY"
def externalClock : String := "EXTERNAL_PUBLICATION_AND_LOCAL_RECEIVE_CLOCK_PAST_ONLY"
def terminalClock : String := "VENUE_LIFECYCLE_RECEIVE_CLOCK_PAST_ONLY"
def dayClock : String := "UTC_DAY_BOUNDARY_WITH_PAST_ONLY_FEATURES"

/-- A model method has no action and no data of its own. -/
def registerModel (hypothesis trigger forecastHorizon falsifier : String) : Seed where
  hypothesis := hypothesis
  signal :=
    { trigger := trigger
      directionSemantics :=
        "inherits the exact owner label and orientation; the model method cannot invent a side, " ++
          "fill, action, or missing sports state"
      decisionClock := receive
      forecastHorizon := forecastHorizon
      falsifier := falsifier }
  actionProfile := "MODEL_COMPONENT"
  dataProfile := "MODEL"
  externalDependency := "INHERIT_OWNER"
  targetClass := "SIGNAL"
  resultStatus := "BLOCKED_OWNER"
  claimTier := "MODEL_COMPONENT_ONLY"
  extraBlockers := ["ACTION_INCOMPLETE", "INSUFFICIENT_QUALITY_DATES"]

def seedsA : List (String × Seed) :=
  [("A01-SPREAD-CAPTURE",
    ⟨"In eligible two-sided states, passive spread capture remains positive after strict " ++
       "fills, adverse selection, forced exit, and exact fees.",
     ⟨"executable spread exceeds frozen fee, markout, exit, and safety buffers",
      "two-sided passive quote; no directional forecast",
      receive, "fill path through 100ms, 1s, 5s, and frozen exit deadline",
      "pessimistic root-event fee-after PnL is non-positive on any required clean date"⟩,
     "MAKER_SPREAD", "L1", "NOT_REQUIRED", "EXECUTABLE_STRATEGY", "PARTIAL_EVIDENCE",
     "PNL_NOT_ESTIMATED",
     ["FEE_UNKNOWN", "FILL_MODEL_MISSING", "LATENCY_UNMEASURED"]⟩),
   ("A02-TOXICITY-MARKOUT",
    ⟨"A past-only toxicity score identifies resting quotes whose cancellation avoids more " ++
       "adverse-selection loss than the spread opportunity forfeited.",
     ⟨"signed flow and quote-state toxicity crosses the frozen vulnerable-side threshold",
      "cancel the quote exposed to the predicted adverse move; never open risk",
      receive, "cancel-effective time, 100ms, 1s, and 5s",
      "signal-gated maker does not beat the identical unfiltered maker after costs"⟩,
     "MAKER_FILTER", "L1", "NOT_REQUIRED", "EXECUTABLE_STRATEGY", "DESCRIPTIVE_ONLY",
     "MECHANISM_ONLY",
     ["OWN_ORDER_CALIBRATION_MISSING", "LATENCY_UNMEASURED", "FEE_UNKNOWN"]⟩),
   ("A03-DEPLETION-REFILL",
    ⟨"Persistent refill after a level depletion creates a safer passive re-entry window than " ++
       "immediate replacement or permanent abstention.",
     ⟨"registered level depletes and refill hazard plus persistence gates both pass",
      "post only on the enumerated depleted side after refill confirmation",
      receive, "10ms through 1s refill window plus frozen inventory exit",
      "refill-conditioned strict-fill PnL is non-positive or no better than immediate re-entry"⟩,
     "MAKER_REFILL", "L2", "NOT_REQUIRED", "EXECUTABLE_STRATEGY", "PARTIAL_EVIDENCE",
     "MECHANISM_ONLY",
     ["OWN_ORDER_CALIBRATION_MISSING", "FEE_UNKNOWN", "INSUFFICIENT_QUALITY_DATES"]⟩),
   ("A04-QUEUE-LAMBDA-DISTANCE",
    ⟨"Quote distance and age provide an own-order-calibrated fill-intensity surface that " ++
       "improves the join, improve, or abstain decision.",
     ⟨"calibrated benign-fill intensity at a registered distance exceeds its adverse-fill " ++
        "hazard",
      "place one passive quote on the side and distance explicitly enumerated by the owner " ++
        "card",
      receive, "quote lifetime through fill, cancel acknowledgement, or timeout",
      "public queue proxy fails to predict private own-order fills or fee-after PnL"⟩,
     "PASSIVE_FADE", "L1", "NOT_REQUIRED", "EXECUTABLE_STRATEGY", "BLOCKED_DATA", "NO_CLAIM",
     ["OWN_ORDER_CALIBRATION_MISSING", "FILL_MODEL_MISSING", "FEE_UNKNOWN"]⟩),
   ("A05-SNBD-LIQUIDITY-REGIMES",
    ⟨"Past-only single-name book states select maker regimes with higher fee-after PnL than " ++
       "quoting throughout every valid state.",
     ⟨"registered SNBD state enters a state-action cell with positive frozen training edge",
      "two-sided or enumerated one-sided passive action owned by the selected state cell",
      receive, "state dwell, transition, fill path, and frozen exit deadline",
      "state filtering has no incremental root-event PnL over the always-valid-state maker"⟩,
     "MAKER_FILTER", "L2", "NOT_REQUIRED", "EXECUTABLE_STRATEGY", "DESCRIPTIVE_ONLY",
     "MECHANISM_ONLY",
     ["OWN_ORDER_CALIBRATION_MISSING", "FEE_UNKNOWN", "INSUFFICIENT_QUALITY_DATES"]⟩),
   ("A06-QUOTE-LIFETIME-BURST",
    ⟨"Very short quote lifetimes and update bursts lead toxic moves early enough for " ++
       "cancellation to improve a maker's PnL.",
     ⟨"quote-lifetime lower-tail event coincides with a frozen update-rate burst",
      "cancel or widen the affected side; an unsigned burst cancels both sides",
      receive, "cancel-effective latency, 100ms, 1s, and 5s",
      "the burst does not lead adverse executable movement or false pauses erase avoided loss"⟩,
     "MAKER_FILTER", "L1", "NOT_REQUIRED", "EXECUTABLE_STRATEGY", "DESCRIPTIVE_ONLY",
     "MECHANISM_ONLY",
     ["OWN_ORDER_CALIBRATION_MISSING", "LATENCY_UNMEASURED", "FEE_UNKNOWN"]⟩),
   ("A07A-OCCUPANCY-FINGERPRINT",
    ⟨"An occupancy fingerprint adds fee-after market-selection value beyond volume, spread, " ++
       "and activity without asserting participant identity.",
     ⟨"past-only occupancy score admits a market after simple-selector controls",
      "route only an already registered child action; occupancy supplies no side",
      receive, "selected child root-event path and UTC-day portfolio result",
      "nested out-of-fold child PnL does not improve over the simple selector"⟩,
     "ROUTER", "L1_L2", "NOT_REQUIRED", "EXECUTABLE_STRATEGY", "BLOCKED_CHILDREN",
     "PNL_NOT_ESTIMATED",
     ["CONFIRMED_CHILD_STRATEGIES_MISSING", "INSUFFICIENT_QUALITY_DATES"]⟩),
   ("A07B-COORDINATED-RETREAT",
    ⟨"Coordinated multi-level retreat leads adverse movement by more than cancel-effective " ++
       "latency, so a retreat kill reduces losses.",
     ⟨"frozen multi-level depth-retreat score crosses its kill threshold",
      "cancel the side losing depth; cancel both if retreat direction is ambiguous",
      receive, "retreat onset to cancel-effective time, 100ms, 1s, and 5s",
      "retreat has no safety lead or avoided loss is smaller than false-kill opportunity cost"⟩,
     "MAKER_FILTER", "L2", "NOT_REQUIRED", "EXECUTABLE_STRATEGY", "PARTIAL_EVIDENCE",
     "MECHANISM_ONLY",
     ["LATENCY_UNMEASURED", "OWN_ORDER_CALIBRATION_MISSING", "INSUFFICIENT_QUALITY_DATES"]⟩),
   ("A07C-ADVERSE-SELECTION-TRANSFER",
    ⟨"Toxic flow or retreat in one canonically linked market transfers adverse selection to " ++
       "a sibling book before that book reprices.",
     ⟨"age-aligned source toxicity event occurs while the target quote remains unchanged",
      "cancel the target side exposed by the canonical outcome mapping; abstain if mapping " ++
        "is unknown",
      receive, "source event through target cancel-effective time and 5s",
      "target adverse markout is absent after age, root, liquidity, and placebo controls"⟩,
     "MAKER_FILTER", "L1_L2", "NOT_REQUIRED", "EXECUTABLE_STRATEGY", "BLOCKED_MAPPING",
     "NO_CLAIM",
     ["INSTRUMENT_MAPPING_UNKNOWN", "LATENCY_UNMEASURED", "FEE_UNKNOWN"]⟩),
   ("A07D-ANCHOR-MANIPULABILITY",
    ⟨"Rejecting a fair-value anchor when its visible cost-to-move is small prevents more " ++
       "downstream strategy loss than it sacrifices.",
     ⟨"anchor depth and cost-to-move fall below frozen robustness thresholds",
      "cancel affected child quotes and forbid new risk; the anchor never creates a " ++
        "directional trade",
      receive, "anchor fragility episode through child recovery and exit",
      "fragility gating does not improve the identical child policy or an independent anchor " ++
        "is unaffected"⟩,
     "MAKER_FILTER", "L1_L2", "NOT_REQUIRED", "EXECUTABLE_STRATEGY", "BLOCKED_DATA",
     "NO_CLAIM",
     ["MISSING_SIGNAL_INPUT", "OWN_ORDER_CALIBRATION_MISSING", "FEE_UNKNOWN"]⟩),
   ("A08-PRICE-GRID-ROUND-NUMBER",
    ⟨"Round-number price levels have a reproducible fill-minus-markout difference large " ++
       "enough to justify a one-tick quote adjustment.",
     ⟨"quote enters a frozen grid-distance cell with positive incremental training economics",
      "cancel and replace at the enumerated safer or higher-value tick; no side is inferred " ++
        "from roundness",
      receive, "quote lifetime, fill path, 1s markout, and exit",
      "grid-conditioned fee-after PnL is no better than the same quote without grid adjustment"⟩,
     "MAKER_FILTER", "L1", "NOT_REQUIRED", "EXECUTABLE_STRATEGY", "DESCRIPTIVE_ONLY",
     "MECHANISM_ONLY",
     ["OWN_ORDER_CALIBRATION_MISSING", "FEE_UNKNOWN", "LATENCY_UNMEASURED"]⟩),
   ("A09-LIQUIDITY-SEASONALITY",
    ⟨"A frozen time or phase schedule can abstain from loss-making maker windows while " ++
       "retaining positive windows.",
     ⟨"past-only time-phase cell is on the frozen allowlist and data quality is valid",
      "time selects an authorized child but supplies no market side",
      receive, "active window, child fill path, and UTC-day PnL",
      "scheduled routing fails to beat the same child active throughout all valid windows"⟩,
     "ROUTER", "L1", "NOT_REQUIRED", "EXECUTABLE_STRATEGY", "DESCRIPTIVE_ONLY",
     "PNL_NOT_ESTIMATED",
     ["FEE_UNKNOWN", "FILL_MODEL_MISSING", "INSUFFICIENT_QUALITY_DATES"]⟩),
   ("A10-CROSS-MARKET-QUOTE-SPILLOVER",
    ⟨"A canonically linked leader quote change reaches a follower slowly enough for " ++
       "defensive cancellation or repricing to reduce loss.",
     ⟨"age-aligned leader moves while follower executable quote is stale",
      "map leader outcome to follower side through audited identity; unknown mapping means " ++
        "abstain",
      receive, "10ms through 5s plus follower cancel-effective time",
      "time reversal, unrelated-root, or stale-age controls match the observed follower " ++
        "response"⟩,
     "MAKER_FILTER", "FAMILY", "NOT_REQUIRED", "EXECUTABLE_STRATEGY", "BLOCKED_MAPPING",
     "NO_CLAIM",
     ["INSTRUMENT_MAPPING_UNKNOWN", "LATENCY_UNMEASURED", "FEE_UNKNOWN"]⟩),
   ("A11-ONE-SIDED-PROVISION",
    ⟨"Supplying the missing side of a persistent one-sided book earns positive fee-after PnL " ++
       "after inventory exit risk.",
     ⟨"valid bid-only or ask-only state persists past the frozen dwell gate",
      "post only the explicitly missing YES-normalized side",
      receive, "one-sided dwell through fill, topology recovery, or forced exit",
      "missing-side strict fills are absent or their adverse/exit loss exceeds captured spread"⟩,
     "PASSIVE_FADE", "L1", "NOT_REQUIRED", "EXECUTABLE_STRATEGY", "DESCRIPTIVE_ONLY",
     "PNL_NOT_ESTIMATED",
     ["FILL_MODEL_MISSING", "FEE_UNKNOWN", "LATENCY_UNMEASURED"]⟩),
   ("A12-GENERIC-PASSIVE-SCALPING",
    ⟨"A passive entry and passive exit inside a stable range survives strict two-leg fills, " ++
       "fees, and breakout loss.",
     ⟨"frozen range, spread, volatility, and depth gates admit a round-trip opportunity",
      "enter on the enumerated cheap side and exit the same inventory; never count unmatched " ++
        "legs as profit",
      receive, "entry timeout through second fill or forced-exit deadline",
      "strict round trips vanish or breakout and forced-exit losses make root-event PnL " ++
        "non-positive"⟩,
     "PASSIVE_FADE", "L1", "NOT_REQUIRED", "EXECUTABLE_STRATEGY", "BLOCKED_ENGINE",
     "PNL_NOT_ESTIMATED",
     ["FILL_MODEL_MISSING", "FEE_UNKNOWN", "LATENCY_UNMEASURED"]⟩),
   ("A13-T90-RANGE",
    ⟨"Past-only Tennis leader episodes in the 88–93 cent range provide a repeatable passive " ++
       "range-making edge after retreat and terminal risks.",
     ⟨"authoritative Tennis mapping, prior two-way tug, 88–93 leader state, and depth gates " ++
        "all pass",
      "quote the registered high/low outcome mapping; leader flips cancel the episode",
      receive, "T90 episode through retreat, timeout, forced exit, or settlement",
      "eligible episodes are too rare or pessimistic fee-after PnL is non-positive"⟩,
     "T90_RANGE", "L1_L2", "NOT_REQUIRED", "EXECUTABLE_STRATEGY", "BLOCKED_AUTHORITY",
     "NO_CLAIM",
     ["VENUE_PERMISSION_MISSING", "INSUFFICIENT_QUALITY_DATES", "FEE_UNKNOWN"]⟩),
   ("A14-T90-REBUILD",
    ⟨"After a completed T90 retreat kill and zero-resting reconciliation, one rebuild " ++
       "re-entry adds positive PnL over never re-entering.",
     ⟨"parent retreat completed, zero resting confirmed, and frozen rebuilt-depth gate passes",
      "one passive re-entry in the parent orientation; no second cycle",
      receive, "rebuild window through one fill cycle, renewed retreat, or exit",
      "rebuild window closes before fill or paired incremental PnL over the parent is " ++
        "non-positive"⟩,
     "T90_REBUILD", "L1_L2", "NOT_REQUIRED", "EXECUTABLE_STRATEGY", "BLOCKED_AUTHORITY",
     "NO_CLAIM",
     ["VENUE_PERMISSION_MISSING", "OWN_ORDER_CALIBRATION_MISSING",
      "INSUFFICIENT_QUALITY_DATES"]⟩),
   ("A15-FAIR-MICROPRICE-PAST-FLOW",
    ⟨"A past-flow microprice estimates near-term executable fair value better than midpoint " ++
       "and improves maker repricing PnL.",
     ⟨"microprice displacement exceeds the frozen reprice threshold and costs",
      "cancel and replace quotes around the signed microprice; no aggressive opening",
      receive, "10ms, 100ms, 1s, and maker exit",
      "microprice forecast or fee-after maker increment does not beat midpoint"⟩,
     "MAKER_FILTER", "L1", "NOT_REQUIRED", "EXECUTABLE_STRATEGY", "DESCRIPTIVE_ONLY",
     "MECHANISM_ONLY",
     ["FILL_MODEL_MISSING", "FEE_UNKNOWN", "LATENCY_UNMEASURED"]⟩),
   ("A16-INVENTORY-RESERVATION-SKEW",
    ⟨"Position-aware reservation-price skew reduces inventory tail loss without erasing " ++
       "spread capture.",
     ⟨"authoritative position and frozen fair/volatility inputs imply a non-zero reservation " ++
        "skew",
      "widen the inventory-increasing side and improve only the reducing side",
      receive, "position path through flat, risk timeout, or terminal",
      "skewed policy does not beat the same symmetric maker on PnL and tail risk"⟩,
     "SIZE_RISK", "L1_PRIVATE", "NOT_REQUIRED", "EXECUTABLE_STRATEGY", "BLOCKED_DATA",
     "NO_CLAIM",
     ["PRIVATE_ACCOUNT_STATE_MISSING", "FEE_UNKNOWN", "RISK_GATES_MISSING"]⟩),
   ("A17-DYNAMIC-QUOTE-RADIUS",
    ⟨"A radius driven by past-only volatility and toxicity outperforms one fixed quote " ++
       "radius after fill and fee costs.",
     ⟨"frozen volatility-toxicity cell maps to a radius different from the fixed baseline",
      "symmetrically widen or narrow unless a separately registered side signal exists",
      receive, "quote lifetime, 1s adverse markout, and forced exit",
      "dynamic radius has no paired fee-after PnL improvement over fixed radius"⟩,
     "MAKER_FILTER", "L1", "NOT_REQUIRED", "EXECUTABLE_STRATEGY", "DESCRIPTIVE_ONLY",
     "PNL_NOT_ESTIMATED",
     ["FILL_MODEL_MISSING", "FEE_UNKNOWN", "INSUFFICIENT_QUALITY_DATES"]⟩),
   ("A18-TIME-SHRINKING-CAP",
    ⟨"Reducing inventory caps as scheduled start or terminal approaches improves " ++
       "tail-adjusted PnL and capital use versus a constant cap.",
     ⟨"time-to-start or time-to-terminal crosses a frozen cap step",
      "reduce or forbid risk-increasing orders; exits remain allowed",
      terminalClock, "cap step through start, settlement, or complete unwind",
      "shrinking caps do not improve worst-tail loss or commercial return on capital"⟩,
     "SIZE_RISK", "TERMINAL", "NOT_REQUIRED", "EXECUTABLE_STRATEGY", "BLOCKED_DATA",
     "NO_CLAIM",
     ["SETTLEMENT_MISSING", "PRIVATE_ACCOUNT_STATE_MISSING", "RISK_GATES_MISSING"]⟩),
   ("A19-NO-TRADE-QUOTE-JUMP",
    ⟨"A quote jump with no intervening public trade reveals information risk that a " ++
       "trade-only kill misses.",
     ⟨"executable quote moves by the frozen threshold with zero intervening trades",
      "cancel the side made stale by the quote jump; ambiguous gaps cancel both",
      receive, "jump through cancel-effective time, 100ms, 1s, and 5s",
      "no-trade jumps do not lead adverse fills or are explained by gaps and reconnects"⟩,
     "MAKER_FILTER", "L1", "NOT_REQUIRED", "EXECUTABLE_STRATEGY", "DESCRIPTIVE_ONLY",
     "MECHANISM_ONLY",
     ["LATENCY_UNMEASURED", "OWN_ORDER_CALIBRATION_MISSING", "FEE_UNKNOWN"]⟩),
   ("A20-SYSTEM-LOAD-QUEUE-GROWTH",
    ⟨"Local decision and send-queue growth predicts cancel-safety failure, so a load kill " ++
       "prevents losses.",
     ⟨"decision age, send queue, or acknowledgement latency exceeds a frozen load threshold",
      "cancel all resting risk and forbid new risk until telemetry recovers",
      "LOCAL_MONOTONIC_SYSTEM_AND_VENUE_RECEIVE_CLOCKS",
      "load breach through cancel acknowledgement and reconciliation",
      "load telemetry has no relation to cancel misses or the kill loses more than it avoids"⟩,
     "MAKER_FILTER", "L1", "NOT_REQUIRED", "EXECUTABLE_STRATEGY", "BLOCKED_DATA", "NO_CLAIM",
     ["MISSING_SIGNAL_INPUT", "LATENCY_UNMEASURED", "OWN_ORDER_CALIBRATION_MISSING"]⟩)]

def seedsB : List (String × Seed) :=
  [("B01-MOMENTUM-CONTINUATION",
    ⟨"Signed flow, quote velocity, and depletion identify continuation large enough to " ++
       "survive aggressive entry, exit, fees, and latency.",
     ⟨"frozen signed-flow continuation score exceeds all-in executable cost plus safety buffer",
      "positive score buys YES and negative score buys NO through an exhaustive orientation " ++
        "map",
      receive, "100ms, 1s, 5s, and frozen time or reversal exit",
      "executable continuation after latency is non-positive or fee-after root PnL is " ++
        "non-positive"⟩,
     "TAKER_DIRECTIONAL", "L1", "NOT_REQUIRED", "EXECUTABLE_STRATEGY", "BLOCKED_AUTHORITY",
     "DESCRIPTIVE_ONLY",
     ["VENUE_PERMISSION_MISSING", "FEE_UNKNOWN", "LATENCY_UNMEASURED"]⟩),
   ("B02-MEAN-REVERSION",
    ⟨"A shock followed by deceleration and opposing refill creates a passive fade whose " ++
       "reversal gain exceeds continuation loss and costs.",
     ⟨"shock, deceleration, opposing refill, and stable-anchor gates all pass",
      "post one passive contract opposite the enumerated shock direction",
      receive, "100ms through 30s or frozen continuation stop",
      "continuation-adjusted fee-after fade PnL is non-positive"⟩,
     "PASSIVE_FADE", "L1_L2", "NOT_REQUIRED", "EXECUTABLE_STRATEGY", "DESCRIPTIVE_ONLY",
     "MECHANISM_ONLY",
     ["FILL_MODEL_MISSING", "FEE_UNKNOWN", "INSUFFICIENT_QUALITY_DATES"]⟩),
   ("B03-POST-JUMP-CONTINUATION-VS-REVERSAL",
    ⟨"Past-only post-jump state distinguishes follow from fade well enough to outperform " ++
       "either unconditional action.",
     ⟨"jump classifier assigns follow or reverse with confidence above the frozen abstention " ++
        "threshold",
      "follow maps to jump sign, reverse maps against it, and uncertain state takes no order",
      receive, "100ms, 1s, 5s, and registered stop",
      "chronological paired PnL fails to beat both always-follow and always-fade baselines"⟩,
     "TAKER_DIRECTIONAL", "L1", "NOT_REQUIRED", "EXECUTABLE_STRATEGY", "BLOCKED_AUTHORITY",
     "DESCRIPTIVE_ONLY",
     ["VENUE_PERMISSION_MISSING", "FEE_UNKNOWN", "LATENCY_UNMEASURED"]⟩),
   ("B04-LARGE-FLOW-CONTINUATION-VS-REVERSAL",
    ⟨"Large public trades have a conditional continuation or reversal response that remains " ++
       "tradable after impact and costs.",
     ⟨"trade size percentile and frozen post-trade book response select follow or fade",
      "use audited aggressor orientation; unknown trade side means abstain",
      receive, "10ms through 30s and frozen exit",
      "large-flow conditional executable return is non-positive after fees and impact"⟩,
     "TAKER_DIRECTIONAL", "L1", "NOT_REQUIRED", "EXECUTABLE_STRATEGY", "BLOCKED_AUTHORITY",
     "DESCRIPTIVE_ONLY",
     ["VENUE_PERMISSION_MISSING", "FEE_UNKNOWN", "LATENCY_UNMEASURED"]⟩),
   ("B05-OFI-PREDICTIVITY",
    ⟨"Sequence-valid order-flow imbalance adds signed executable-return information beyond " ++
       "public trade flow.",
     ⟨"past-only OFI crosses a frozen side-specific threshold after simple-flow controls",
      "positive normalized OFI buys YES and negative normalized OFI buys NO",
      receive, "100ms, 1s, 5s, and 30s",
      "OFI has no chronological incremental return or fees consume the predicted move"⟩,
     "TAKER_DIRECTIONAL", "L1_L2", "NOT_REQUIRED", "EXECUTABLE_STRATEGY", "DESCRIPTIVE_ONLY",
     "MECHANISM_ONLY",
     ["INSUFFICIENT_QUALITY_DATES", "FEE_UNKNOWN", "VENUE_PERMISSION_MISSING"]⟩),
   ("B06-BOOK-IMBALANCE-PREDICTIVITY",
    ⟨"Top-k depth imbalance predicts signed executable returns after spread, liquidity, and " ++
       "price controls.",
     ⟨"sequence-valid top-k imbalance exceeds the frozen directional threshold",
      "buy the outcome whose normalized same-side pressure is positive; unknown depth abstains",
      receive, "100ms, 1s, 5s, and 30s",
      "shuffle, matched-state, or chronological tests remove the directional increment"⟩,
     "TAKER_DIRECTIONAL", "L2", "NOT_REQUIRED", "EXECUTABLE_STRATEGY", "DESCRIPTIVE_ONLY",
     "MECHANISM_ONLY",
     ["INSUFFICIENT_QUALITY_DATES", "FEE_UNKNOWN", "VENUE_PERMISSION_MISSING"]⟩),
   ("B07-MICROPRICE-PREDICTIVITY",
    ⟨"Microprice displacement predicts a large enough bid/ask move to cover crossing costs " ++
       "and latency.",
     ⟨"microprice minus midpoint exceeds the frozen executable-cost threshold",
      "positive displacement buys YES and negative displacement buys NO",
      receive, "10ms, 100ms, 1s, and 5s",
      "future executable return fails to exceed midpoint baseline and all-in cost"⟩,
     "TAKER_DIRECTIONAL", "L1_L2", "NOT_REQUIRED", "EXECUTABLE_STRATEGY", "DESCRIPTIVE_ONLY",
     "MECHANISM_ONLY",
     ["FEE_UNKNOWN", "LATENCY_UNMEASURED", "VENUE_PERMISSION_MISSING"]⟩),
   ("B08-CONTINUOUS-PRICE-CALIBRATION",
    ⟨"Outside the registered E04 near-terminal window, a continuously point-in-time " ++
       "calibrated probability differs from executable price enough to support a bounded " ++
       "hold-to-terminal action.",
     ⟨"outside E04_PRE_FREEZE_NEAR_TERMINAL_WINDOW, chronological calibrated probability " ++
        "minus executable price exceeds fee and tail buffers",
      "buy YES when calibrated probability is higher and buy NO when its complement is higher",
      terminalClock, "non-E04 lifecycle entry through frozen exit or actual terminal settlement",
      "calibration vanishes out of sample or settlement PnL is non-positive"⟩,
     "TERMINAL_ENTRY", "TERMINAL", "NOT_REQUIRED", "EXECUTABLE_STRATEGY", "BLOCKED_TERMINAL",
     "NO_CLAIM",
     ["SETTLEMENT_MISSING", "FEE_UNKNOWN", "VENUE_PERMISSION_MISSING"]⟩),
   ("B09-LISTING-TO-START-DRIFT",
    ⟨"A frozen listing-to-scheduled-start phase has a repeatable signed drift that remains " ++
       "after executable costs.",
     ⟨"time-since-listing and time-to-scheduled-start enter an admitted drift cell",
      "direction is the cell's training-frozen sign; no actual game state is inferred",
      receive, "next phase boundary or frozen pre-start exit",
      "leave-day-out drift changes sign or executable fee-after PnL is non-positive"⟩,
     "TAKER_DIRECTIONAL", "L1", "NOT_REQUIRED", "EXECUTABLE_STRATEGY", "DESCRIPTIVE_ONLY",
     "PNL_NOT_ESTIMATED",
     ["FEE_UNKNOWN", "LATENCY_UNMEASURED", "INSUFFICIENT_QUALITY_DATES"]⟩),
   ("B10-INPLAY-PROXY-PRICE-EROSION",
    ⟨"The explicitly labeled scheduled-start proxy has a repeatable signed price-erosion " ++
       "pattern that survives executable costs; it is not a claim about actual live-game " ++
       "state.",
     ⟨"scheduled-start proxy boundary and a training-frozen signed erosion cell are both " ++
        "active",
      "trade only the cell's frozen observed price sign; never call it score, serve, period, " ++
        "inning, or true in-play state",
      receive, "scheduled-start proxy through the frozen post-proxy exit",
      "signed post-proxy drift is unstable or non-positive after executable costs and " ++
        "start-time mismatch stress"⟩,
     "TAKER_DIRECTIONAL", "L1", "OPTIONAL_REFINEMENT", "EXECUTABLE_STRATEGY",
     "DESCRIPTIVE_ONLY", "NO_CLAIM",
     ["FEE_UNKNOWN", "LATENCY_UNMEASURED", "VENUE_PERMISSION_MISSING"]⟩),
   ("B11-REALIZED-VOL-BY-TIME",
    ⟨"Past-only time and phase volatility forecasts improve maker quote radius relative to " ++
       "one fixed radius.",
     ⟨"time-phase conditional volatility maps to a different frozen safety radius",
      "volatility is unsigned and changes width only",
      receive, "next 1s, 30s, 5m, and child quote lifetime",
      "conditional volatility has no out-of-sample forecast or maker-PnL increment"⟩,
     "MAKER_FILTER", "L1", "NOT_REQUIRED", "EXECUTABLE_STRATEGY", "DESCRIPTIVE_ONLY",
     "MECHANISM_ONLY",
     ["FILL_MODEL_MISSING", "FEE_UNKNOWN", "INSUFFICIENT_QUALITY_DATES"]⟩),
   ("B12-JUMP-HAZARD",
    ⟨"A past-only jump hazard rises early enough for cancellation to reduce a maker's " ++
       "adverse tail.",
     ⟨"frozen jump-hazard estimate exceeds its cancel threshold",
      "unsigned hazard cancels both sides; a separately audited side signal may cancel one",
      receive, "cancel-effective time, 100ms, 1s, and 5s",
      "hazard lacks cancel headroom or false-pause cost exceeds avoided jump loss"⟩,
     "MAKER_FILTER", "L1", "NOT_REQUIRED", "EXECUTABLE_STRATEGY", "DESCRIPTIVE_ONLY",
     "MECHANISM_ONLY",
     ["LATENCY_UNMEASURED", "OWN_ORDER_CALIBRATION_MISSING", "FEE_UNKNOWN"]⟩),
   ("B13-CALM-TO-BURST",
    ⟨"Activity acceleration during a calm state predicts a burst early enough for a " ++
       "temporary risk-off action to add PnL.",
     ⟨"calm dwell plus quote/trade acceleration crosses the frozen burst threshold",
      "burst probability is unsigned and cancels or widens both sides",
      receive, "burst onset through frozen recovery dwell",
      "burst precision after latency is low or false pauses erase avoided loss"⟩,
     "MAKER_FILTER", "L1", "NOT_REQUIRED", "EXECUTABLE_STRATEGY", "DESCRIPTIVE_ONLY",
     "MECHANISM_ONLY",
     ["LATENCY_UNMEASURED", "FILL_MODEL_MISSING", "FEE_UNKNOWN"]⟩),
   ("B14-VOL-HARVEST",
    ⟨"When executable spread is wide relative to past-only volatility and jump risk, " ++
       "selective passive quoting has positive fee-after PnL.",
     ⟨"spread exceeds predicted adverse move, exact fees, exit cost, and tail buffer",
      "two-sided passive quote; no volatility-derived direction",
      receive, "quote lifetime through jump kill, fill, and forced exit",
      "adverse-jump expected shortfall or strict-fill loss exceeds captured spread"⟩,
     "MAKER_SPREAD", "L1", "NOT_REQUIRED", "EXECUTABLE_STRATEGY", "DESCRIPTIVE_ONLY",
     "PNL_NOT_ESTIMATED",
     ["FILL_MODEL_MISSING", "FEE_UNKNOWN", "LATENCY_UNMEASURED"]⟩),
   ("B15-VOL-BREAKOUT",
    ⟨"A calm-to-burst transition with independent directional confirmation continues far " ++
       "enough to support an aggressive breakout trade.",
     ⟨"burst detector and signed flow or quote-velocity confirmation agree",
      "trade only the confirmed sign; unsigned bursts abstain",
      receive, "100ms, 1s, 5s, or frozen reversal stop",
      "false breakouts or latency consume the continuation edge"⟩,
     "TAKER_DIRECTIONAL", "L1", "NOT_REQUIRED", "EXECUTABLE_STRATEGY", "BLOCKED_AUTHORITY",
     "DESCRIPTIVE_ONLY",
     ["VENUE_PERMISSION_MISSING", "FEE_UNKNOWN", "LATENCY_UNMEASURED"]⟩),
   ("B16-CS-ASK",
    ⟨"At verified 97 or 98 cent high-side states, economically selling high by buying the " ++
       "low-side outcome earns positive exact settlement PnL.",
     ⟨"registered high-side ask persists at 97c or 98c with complete terminal and fee facts",
      "from flat buy the low-side outcome at 1-q; never assume a naked high-side sale",
      terminalClock, "actual settlement including void, retirement, and postponement paths",
      "conditional upset rate plus exact fee exceeds break-even or settlement-PnL lower " ++
        "bound is non-positive"⟩,
     "CS_ASK", "TERMINAL", "NOT_REQUIRED", "EXECUTABLE_STRATEGY", "BLOCKED_AUTHORITY",
     "NO_CLAIM",
     ["SETTLEMENT_MISSING", "VENUE_PERMISSION_MISSING", "FEE_UNKNOWN"]⟩),
   ("B17-CS-BID-CONTROL",
    ⟨"On exactly the B16 ASK fill IDs, the counterfactual BID payoff does not explain the " ++
       "proposed ASK edge.",
     ⟨"a B16 strict ASK fill has exact q, terminal Y, and counterfactual fee facts",
      "payoff transform only; it submits no BID and has no fill or capacity claim",
      terminalClock, "same terminal outcome as the paired B16 fill",
      "paired ASK-minus-BID payoff contrast is absent or reverses"⟩,
     "CONTROL_ONLY", "TERMINAL", "NOT_REQUIRED", "RESEARCH_QUESTION", "CONTROL_ONLY",
     "CONTROL_ONLY",
     ["SETTLEMENT_MISSING", "FILL_MODEL_MISSING", "FEE_UNKNOWN"]⟩)]

def seedsC : List (String × Seed) :=
  [("C01-THREEWAY-OVERROUND",
    ⟨"An exhaustive three-way outcome family occasionally has an all-leg executable basket " ++
       "residual larger than fees and orphan risk.",
     ⟨"sum of synchronized executable leg costs violates the exact exhaustive payout bound",
      "buy or hedge the complete payout vector specified by the audited residual; never " ++
        "trade one leg alone",
      receive, "all-leg execution through hedge completion or joint terminal settlement",
      "no residual survives quote age, all-leg depth, exact fees, and worst-sequence execution"⟩,
     "RELATIVE_VALUE", "FAMILY", "NOT_REQUIRED", "EXECUTABLE_STRATEGY", "BLOCKED_ENGINE",
     "NO_CLAIM",
     ["PAYOUT_EXHAUSTIVENESS_MISSING", "MULTI_LEG_ENGINE_MISSING", "FEE_UNKNOWN"]⟩),
   ("C02-BRACKET-MONOTONICITY",
    ⟨"Ordered bracket contracts contain a statewise monotonicity violation that can be " ++
       "hedged for positive all-leg PnL.",
     ⟨"audited adjacent-bracket or cumulative probability constraint is violated after costs",
      "buy the underpriced payout vector and hedge the dominated vector using exact bracket " ++
        "states",
      receive, "multi-leg completion, unwind, or joint terminal",
      "monotonicity residual disappears under payout mapping, executable depth, or orphan " ++
        "stress"⟩,
     "RELATIVE_VALUE", "FAMILY", "NOT_REQUIRED", "EXECUTABLE_STRATEGY", "BLOCKED_ENGINE",
     "NO_CLAIM",
     ["PAYOUT_EXHAUSTIVENESS_MISSING", "MULTI_LEG_ENGINE_MISSING",
      "INSTRUMENT_MAPPING_UNKNOWN"]⟩),
   ("C03-THRESHOLD-MONOTONICITY",
    ⟨"Nested threshold contracts sometimes violate statewise probability ordering by more " ++
       "than joint execution costs.",
     ⟨"a higher threshold is priced above a lower threshold after synchronized " ++
        "executable-cost adjustment",
      "trade the exact lower/higher threshold hedge implied by the statewise dominance proof",
      receive, "all-leg completion, forced unwind, or joint terminal",
      "no violation survives exact threshold semantics, fees, depth, and serial-leg risk"⟩,
     "RELATIVE_VALUE", "FAMILY", "NOT_REQUIRED", "EXECUTABLE_STRATEGY", "BLOCKED_ENGINE",
     "NO_CLAIM",
     ["PAYOUT_EXHAUSTIVENESS_MISSING", "MULTI_LEG_ENGINE_MISSING",
      "INSTRUMENT_MAPPING_UNKNOWN"]⟩),
   ("C04-SAME-EVENT-FAMILY-COHERENCE",
    ⟨"Canonically linked same-event contracts have a payout-constrained incoherence that " ++
       "remains after age, fees, and all-leg execution.",
     ⟨"family residual exceeds its frozen cost and mapping-confidence threshold",
      "execute only the full statewise-verified family hedge; unknown orientation abstains",
      receive, "joint execution through unwind or terminal",
      "residual is explained by quote age, incomplete payout states, or infeasible fills"⟩,
     "RELATIVE_VALUE", "FAMILY", "NOT_REQUIRED", "EXECUTABLE_STRATEGY", "BLOCKED_ENGINE",
     "NO_CLAIM",
     ["PAYOUT_EXHAUSTIVENESS_MISSING", "MULTI_LEG_ENGINE_MISSING", "FEE_UNKNOWN"]⟩),
   ("C05-SOCCER-POISSON",
    ⟨"A real Soccer Poisson estimate built from authoritative point-in-time sport data can " ++
       "expose a payout-verified relative-value discrepancy; internal implied-rate " ++
       "consistency alone is not a trading strategy.",
     ⟨"external-as-of fitted score-rate distribution and mapped contracts produce an all-leg " ++
        "residual above costs",
      "trade only the full payout-mapped vector; never infer score, lineup, or match state " ++
        "from prices",
      externalClock,
      "external observation through multi-leg completion, pre-start unwind, or terminal",
      "external model is uncalibrated, one common rate fits within uncertainty, or execution " ++
        "removes the residual"⟩,
     "RELATIVE_VALUE", "EXTERNAL", "REQUIRED", "EXECUTABLE_STRATEGY", "BLOCKED_EXTERNAL",
     "NO_CLAIM",
     ["EXTERNAL_SPORTS_DATA_MISSING", "EXTERNAL_API_UNVERIFIED",
      "PAYOUT_EXHAUSTIVENESS_MISSING", "MULTI_LEG_ENGINE_MISSING"]⟩),
   ("C06-WITHIN-EVENT-LEADLAG",
    ⟨"A frozen same-event leader reprices before a mapped follower often enough for a " ++
       "defensive follower cancel to improve PnL.",
     ⟨"age-aligned leader move occurs while the canonical follower quote remains stale",
      "cancel the follower side exposed by audited payout orientation; this seed does not " ++
        "authorize a directional opener",
      receive, "10ms through 5s and follower cancel-effective time",
      "time-reversal or unrelated-root placebo matches the lag, or cancel headroom is absent"⟩,
     "MAKER_FILTER", "FAMILY", "NOT_REQUIRED", "EXECUTABLE_STRATEGY", "BLOCKED_MAPPING",
     "NO_CLAIM",
     ["INSTRUMENT_MAPPING_UNKNOWN", "LATENCY_UNMEASURED", "FEE_UNKNOWN"]⟩),
   ("C07-STALE-LEG",
    ⟨"After a mapped leader reprices, a stale sibling leg can be traded and hedged for " ++
       "positive joint PnL.",
     ⟨"leader shock plus follower quote-age gap creates a payout-verified residual above all " ++
        "costs",
      "take the stale leg and execute the exact registered hedge vector",
      receive, "stale-leg entry through hedge completion, unwind, or terminal",
      "joint fill, latency, fee, or orphan accounting makes residual non-positive"⟩,
     "RELATIVE_VALUE", "FAMILY", "NOT_REQUIRED", "EXECUTABLE_STRATEGY", "BLOCKED_ENGINE",
     "NO_CLAIM",
     ["MULTI_LEG_ENGINE_MISSING", "PAYOUT_EXHAUSTIVENESS_MISSING", "LATENCY_UNMEASURED"]⟩),
   ("C08-COMBO-VS-LEG-COST",
    ⟨"A verified MVE or combo package and its complete leg replication differ by more than " ++
       "all execution, fee, and orphan costs.",
     ⟨"package-versus-legs executable residual exceeds the registered joint safety buffer",
      "buy the cheaper complete payout and hedge with the more expensive complete replication",
      receive, "package and leg completion through unwind or terminal",
      "no residual survives exact package semantics, synchronized depth, and partial-leg " ++
        "stress"⟩,
     "RELATIVE_VALUE", "FAMILY", "NOT_REQUIRED", "EXECUTABLE_STRATEGY", "BLOCKED_AUTHORITY",
     "NO_CLAIM",
     ["VENUE_PERMISSION_MISSING", "MULTI_LEG_ENGINE_MISSING", "PAYOUT_EXHAUSTIVENESS_MISSING"]⟩),
   ("C09-PAYOUT-STATE-DOMINANCE",
    ⟨"One verified contract portfolio statewise dominates another while costing less by more " ++
       "than joint execution costs.",
     ⟨"machine-audited payout matrix proves dominance and executable price difference " ++
        "exceeds costs",
      "buy the dominating portfolio and hedge or sell only through a legally supported " ++
        "complete vector",
      receive, "joint execution, residual unwind, or all legal terminal states",
      "any legal payout state breaks dominance or joint PnL is non-positive"⟩,
     "RELATIVE_VALUE", "FAMILY", "NOT_REQUIRED", "EXECUTABLE_STRATEGY", "BLOCKED_ENGINE",
     "NO_CLAIM",
     ["PAYOUT_EXHAUSTIVENESS_MISSING", "MULTI_LEG_ENGINE_MISSING",
      "INSTRUMENT_MAPPING_UNKNOWN"]⟩),
   ("C10-MULTIDAY-SERIES",
    ⟨"Matched contracts across dates have a term-structure residual that can be hedged " ++
       "without assuming unlike economic exposure is equivalent.",
     ⟨"audited exposure-equivalent dates show an executable residual above fees and capital " ++
        "cost",
      "buy the cheap maturity and hedge the exact mapped exposure in the rich maturity",
      receive, "two-leg completion through roll, unwind, or both terminals",
      "exposure mapping, carry, capital, or serial-leg risk removes the residual"⟩,
     "RELATIVE_VALUE", "FAMILY", "NOT_REQUIRED", "EXECUTABLE_STRATEGY", "BLOCKED_ENGINE",
     "NO_CLAIM",
     ["INSTRUMENT_MAPPING_UNKNOWN", "MULTI_LEG_ENGINE_MISSING", "FEE_UNKNOWN"]⟩)]

def seedsD : List (String × Seed) :=
  [("D01-RFQ-FLOW-CENSUS",
    ⟨"RFQ arrival intensity varies enough by market and time to define capacity and risk " ++
       "strata, but arrival alone supplies no trading side.",
     ⟨"fresh exact-version rfq_created or rfq_deleted event enters a registered stratum",
      "unsigned census only; no order",
      rfqReceive, "same RFQ lifecycle and UTC-day count",
      "eligible fresh RFQ coverage is absent or intensity has no stable strata"⟩,
     "NO_ACTION", "RFQ_PUBLIC", "NOT_REQUIRED", "RESEARCH_QUESTION", "BLOCKED_DATA",
     "NO_CLAIM",
     ["RFQ_PUBLIC_DATA_UNRELEASED"]⟩),
   ("D02-RFQ-SIZE-INTENT",
    ⟨"RFQ contracts or target-cost size predicts unsigned CLOB toxicity strongly enough for " ++
       "a size-conditioned quote guard.",
     ⟨"public RFQ size bucket exceeds the frozen absolute-risk threshold",
      "size is not buy or sell intent; cancel or widen both related CLOB sides",
      rfqReceive, "RFQ creation through 100ms, 1s, 5s, and deletion",
      "size does not predict absolute move, spread, or depth loss, or guard PnL fails"⟩,
     "RFQ_GUARD", "RFQ_PUBLIC", "NOT_REQUIRED", "EXECUTABLE_STRATEGY", "BLOCKED_DATA",
     "NO_CLAIM",
     ["RFQ_PUBLIC_DATA_UNRELEASED", "FILL_MODEL_MISSING", "LATENCY_UNMEASURED"]⟩),
   ("D03-RFQ-LIFECYCLE-SURVIVAL",
    ⟨"RFQ lifetime and deletion survival identify how long a CLOB maker should remain in an " ++
       "unsigned risk-off state.",
     ⟨"RFQ survival state enters a frozen high-risk lifetime bucket",
      "lifecycle is unsigned; guard both related CLOB sides",
      rfqReceive, "creation through deletion plus frozen recovery dwell",
      "lifetime does not condition CLOB risk or a fixed guard window performs as well"⟩,
     "RFQ_GUARD", "RFQ_PUBLIC", "NOT_REQUIRED", "EXECUTABLE_STRATEGY", "BLOCKED_DATA",
     "NO_CLAIM",
     ["RFQ_PUBLIC_DATA_UNRELEASED", "FILL_MODEL_MISSING", "LATENCY_UNMEASURED"]⟩),
   ("D04-RFQ-COMBO-DEMAND-LEG-PRESSURE",
    ⟨"A combo RFQ may predict absolute pressure in its listed legs, but its combo side never " ++
       "reveals the requester's transaction direction.",
     ⟨"public combo RFQ with an auditable leg map is received",
      "UNSIGNED_ONLY; combo side describes contract composition, not RFQ buy or sell direction",
      rfqReceive, "RFQ creation through each leg's 100ms, 1s, and 5s absolute response",
      "listed legs show no absolute pressure beyond matched non-combo RFQs"⟩,
     "NO_ACTION", "RFQ_PUBLIC", "NOT_REQUIRED", "RESEARCH_QUESTION", "BLOCKED_DATA",
     "NO_CLAIM",
     ["RFQ_PUBLIC_DATA_UNRELEASED", "INSTRUMENT_MAPPING_UNKNOWN"]⟩),
   ("D05-RFQ-REQUESTER-HASH",
    ⟨"A stable non-identifying requester hash can segment subsequent unsigned toxicity " ++
       "enough to improve an RFQ CLOB guard.",
     ⟨"requester hash has sufficient past support and exceeds its frozen absolute-impact " ++
        "risk score",
      "requester strata never infer identity or side; high risk guards both sides",
      rfqReceive, "creation through deletion and 5s post-RFQ response",
      "out-of-fold requester strata are unstable or add no guard PnL"⟩,
     "RFQ_GUARD", "RFQ_PUBLIC", "NOT_REQUIRED", "EXECUTABLE_STRATEGY", "BLOCKED_DATA",
     "NO_CLAIM",
     ["RFQ_PUBLIC_DATA_UNRELEASED", "SAMPLE_TOO_SMALL", "FILL_MODEL_MISSING"]⟩),
   ("D06-RFQ-DIRECTION-VOL-SIGNAL",
    ⟨"Only a private accepted RFQ side can support a signed RFQ-to-CLOB return test; public " ++
       "create/delete and combo composition cannot.",
     ⟨"private quote_accepted event with exact accepted_side and correlated RFQ is received",
      "PUBLIC_UNSIGNED; PRIVATE accepted_side is authoritative for signed analysis; combo " ++
        "side and public RFQ fields are forbidden substitutes",
      privateRfq, "acceptance through confirmation, hedge, 100ms, 1s, and 5s",
      "accepted-side signed return is absent after latency or cannot cover hedge costs"⟩,
     "NO_ACTION", "RFQ_PRIVATE", "NOT_REQUIRED", "SIGNAL", "BLOCKED_DATA_AND_AUTHORITY",
     "NO_CLAIM",
     ["RFQ_PRIVATE_EVENTS_MISSING", "VENUE_PERMISSION_MISSING", "RFQ_PUBLIC_DATA_UNRELEASED"]⟩),
   ("D07-RFQ-TO-CLOB-IMPACT",
    ⟨"A public RFQ creation event predicts unsigned short-horizon CLOB toxicity early enough " ++
       "for cancellation or widening to reduce maker loss.",
     ⟨"fresh mapped RFQ arrives while a related CLOB maker quote is resting",
      "guard both sides unless a separate private-direction card is authorized",
      rfqReceive, "RFQ receive through cancel-effective time, 100ms, 1s, and 5s",
      "RFQ impact lacks cancel headroom or the identical unguarded maker has equal or higher " ++
        "PnL"⟩,
     "RFQ_GUARD", "RFQ_PUBLIC", "NOT_REQUIRED", "EXECUTABLE_STRATEGY", "BLOCKED_DATA",
     "NO_CLAIM",
     ["RFQ_PUBLIC_DATA_UNRELEASED", "FILL_MODEL_MISSING", "LATENCY_UNMEASURED"]⟩),
   ("D08-RFQ-DIRECT-QUOTE-PNL",
    ⟨"A fully collateralized two-sided RFQ quote can earn positive PnL after selection, " ++
       "confirmation, CLOB hedge, fees, and residual inventory.",
     ⟨"full RFQ size is hedgeable and both bounded yes_bid and no_bid satisfy frozen " ++
        "net-edge limits",
      "quote both sides, then use only private accepted_side to confirm and hedge",
      privateRfq,
      "quote submission through acceptance, confirmation, fills, hedge, and terminal residual",
      "acceptance-weighted RFQ plus hedge PnL is non-positive or tail inventory breaches " ++
        "limits"⟩,
     "RFQ_MAKER", "RFQ_PRIVATE", "NOT_REQUIRED", "EXECUTABLE_STRATEGY",
     "BLOCKED_DATA_AND_AUTHORITY", "NO_CLAIM",
     ["RFQ_PRIVATE_EVENTS_MISSING", "VENUE_PERMISSION_MISSING", "FEE_UNKNOWN"]⟩),
   ("D09-MVE-CATALOG-SCHEMA",
    ⟨"MVE catalog records can reconstruct every leg, orientation, and payout state without " ++
       "heuristic inference.",
     ⟨"an admitted MVE catalog object is available under exact version",
      "schema and coverage only; no order",
      receive, "catalog-version validity interval",
      "any leg, orientation, version, or payout state remains ambiguous"⟩,
     "NO_ACTION", "CATALOG", "NOT_REQUIRED", "RESEARCH_QUESTION", "BLOCKED_MAPPING",
     "NO_CLAIM",
     ["INSTRUMENT_MAPPING_UNKNOWN"]⟩),
   ("D10-MVE-DIRECT-TRADING",
    ⟨"An MVE package can be directly traded and hedged at positive joint PnL after private " ++
       "fills, fees, and partial-package risk.",
     ⟨"payout-verified package residual exceeds all package, leg, hedge, and tail costs",
      "execute the exact package orientation and complete registered hedge vector",
      "PRIVATE_MVE_EVENT_RECEIVE_CLOCK_PAST_ONLY",
      "package entry through hedge completion, unwind, or joint terminal",
      "private execution, fees, or partial-package stress makes joint PnL non-positive"⟩,
     "MVE_DIRECT", "MVE_PRIVATE", "NOT_REQUIRED", "EXECUTABLE_STRATEGY",
     "BLOCKED_DATA_AND_AUTHORITY", "NO_CLAIM",
     ["MVE_PRIVATE_EVENTS_MISSING", "VENUE_PERMISSION_MISSING", "MULTI_LEG_ENGINE_MISSING",
      "PAYOUT_EXHAUSTIVENESS_MISSING", "INSTRUMENT_MAPPING_UNKNOWN"]⟩)]

def seedsE : List (String × Seed) :=
  [("E01-SETTLEMENT-CONVERGENCE",
    ⟨"Executable prices converge toward later actual settlement value as point-in-time venue " ++
       "lifecycle states approach terminal resolution.",
     ⟨"point-in-time venue lifecycle snapshots can be joined to a later exact settlement " ++
        "label without exposing that label at the snapshot clock",
      "retrospective convergence control only; the later settlement label never triggers an " ++
        "order",
      terminalClock,
      "actual settlement, void, retirement, cancellation, or postponement resolution",
      "price error does not shrink with lifecycle proximity or legal-state mapping is " ++
        "incomplete"⟩,
     "CONTROL_ONLY", "TERMINAL", "NOT_REQUIRED", "SIGNAL", "BLOCKED_TERMINAL", "NO_CLAIM",
     ["SETTLEMENT_MISSING"]⟩),
   ("E02-EXPIRY-LIQUIDITY-MIGRATION",
    ⟨"Rolling an exposure from a deteriorating expiry into an audited equivalent contract " ++
       "reduces execution and capital cost.",
     ⟨"old-contract liquidity deteriorates while an exposure-equivalent mapped contract " ++
        "passes the roll-cost gate",
      "close the exact old exposure and open only the audited equivalent new exposure",
      terminalClock, "two-leg roll through reconciliation or both terminal states",
      "mapping, two-leg fees, orphan risk, or carry makes the roll worse than holding"⟩,
     "EXPIRY_ROLL", "TERMINAL", "NOT_REQUIRED", "EXECUTABLE_STRATEGY", "BLOCKED_ENGINE",
     "NO_CLAIM",
     ["INSTRUMENT_MAPPING_UNKNOWN", "MULTI_LEG_ENGINE_MISSING", "SETTLEMENT_MISSING"]⟩),
   ("E03-FREEZE-WINDOW",
    ⟨"Observable pre-freeze liquidity deterioration permits an earlier reduce-only exit that " ++
       "avoids more loss than it costs.",
     ⟨"time-to-freeze and update/depth precursor enter the frozen exit-risk cell",
      "cancel all risk-adding orders and reduce only the authoritative position",
      terminalClock, "precursor through freeze, executable exit, or terminal",
      "precursor does not lead freeze or early exit underperforms waiting under identical " ++
        "inventory"⟩,
     "EARLY_EXIT", "TERMINAL", "NOT_REQUIRED", "EXECUTABLE_STRATEGY", "BLOCKED_TERMINAL",
     "NO_CLAIM",
     ["SETTLEMENT_MISSING", "PRIVATE_ACCOUNT_STATE_MISSING", "LATENCY_UNMEASURED"]⟩),
   ("E04-SETTLEMENT-CALIBRATION",
    ⟨"Inside a preregistered pre-freeze near-terminal lifecycle window, exception-aware " ++
       "settlement frequency has a stable executable calibration bias relative to market " ++
       "price.",
     ⟨"inside E04_PRE_FREEZE_NEAR_TERMINAL_WINDOW, out-of-fold lifecycle- and " ++
        "exception-aware terminal probability differs from executable price by more than " ++
        "exact cost and uncertainty",
      "buy YES or NO according to the signed calibrated probability gap",
      terminalClock, "actual terminal settlement",
      "bias vanishes on untouched dates or fill-conditioned terminal PnL is non-positive"⟩,
     "TERMINAL_ENTRY", "TERMINAL", "NOT_REQUIRED", "EXECUTABLE_STRATEGY", "BLOCKED_TERMINAL",
     "NO_CLAIM",
     ["SETTLEMENT_MISSING", "FILL_MODEL_MISSING", "FEE_UNKNOWN"]⟩),
   ("E05-TERMINAL-EXCEPTION-STATES",
    ⟨"Void, retirement, postponement, cancellation, and other exception states materially " ++
       "change candidate-strategy tail economics.",
     ⟨"a versioned lifecycle path enters a non-standard legal terminal state",
      "diagnostic enumeration only; this base experiment submits no order",
      terminalClock, "exception declaration through final cash-flow reconciliation",
      "exception frequency and cash-flow effect are immaterial under every owner policy"⟩,
     "NO_ACTION", "TERMINAL", "NOT_REQUIRED", "RESEARCH_QUESTION", "BLOCKED_TERMINAL",
     "NO_CLAIM",
     ["SETTLEMENT_MISSING"]⟩),
   ("E06-HOLD-TO-TERMINAL-TAIL",
    ⟨"For a specified strict fill, holding to terminal has better paired PnL than the frozen " ++
       "early exit without unacceptable tail loss.",
     ⟨"existing reconciled position enters a terminal-authorized hold cell with complete " ++
        "lifecycle facts",
      "hold only the existing position; never convert this decision into a new opening trade",
      terminalClock, "actual terminal versus paired frozen executable exit",
      "paired hold increment is non-positive or terminal expected shortfall breaches the " ++
        "frozen limit"⟩,
     "TERMINAL_POLICY", "TERMINAL", "NOT_REQUIRED", "EXECUTABLE_STRATEGY", "BLOCKED_TERMINAL",
     "NO_CLAIM",
     ["SETTLEMENT_MISSING", "PRIVATE_ACCOUNT_STATE_MISSING", "FEE_UNKNOWN"]⟩)]

def seedsF : List (String × Seed) :=
  [("F01-PARTICIPANT-MIX-PROXY",
    ⟨"Non-identifying flow and occupancy proxies improve a maker risk filter without " ++
       "claiming to identify participant types.",
     ⟨"past-only proxy score enters a frozen high-toxicity or benign-flow cell",
      "proxy can cancel or admit an owner quote but never infers trader identity or side by " ++
        "itself",
      receive, "proxy event through child fill, cancel, and 5s markout",
      "proxy adds no out-of-fold child PnL beyond volume, spread, and activity"⟩,
     "MAKER_FILTER", "L1", "NOT_REQUIRED", "EXECUTABLE_STRATEGY", "DESCRIPTIVE_ONLY",
     "MECHANISM_ONLY",
     ["FILL_MODEL_MISSING", "FEE_UNKNOWN", "INSUFFICIENT_QUALITY_DATES"]⟩),
   ("F02-FEE-STRUCTURE-EFFECT",
    ⟨"Exact series, date, role, and account fee facts change whether a child should make, " ++
       "take, or abstain.",
     ⟨"versioned exact fee lookup changes the frozen child's marginal net edge sign",
      "fee chooses action eligibility and order role, not a market direction",
      receive, "each intended fill through order-level fee accumulation and exit",
      "fee-aware routing has no incremental PnL or fee facts cannot reconcile to account " ++
        "charges"⟩,
     "ROUTER", "L1", "NOT_REQUIRED", "EXECUTABLE_STRATEGY", "BLOCKED_DATA", "NO_CLAIM",
     ["FEE_UNKNOWN", "CONFIRMED_CHILD_STRATEGIES_MISSING"]⟩),
   ("F03-NEW-MARKET-COLD-START",
    ⟨"Waiting for a new market to pass topology, depth, and activity readiness gates " ++
       "improves maker PnL over quoting immediately after listing.",
     ⟨"market age plus two-sided uptime, depth, and activity pass the frozen readiness gate",
      "start the same two-sided maker only after readiness; listing age supplies no side",
      receive, "listing through readiness, fills, and UTC-day close",
      "delayed start does not beat immediate quoting or eliminates nearly all capacity"⟩,
     "MAKER_SPREAD", "L1", "NOT_REQUIRED", "EXECUTABLE_STRATEGY", "DESCRIPTIVE_ONLY",
     "PNL_NOT_ESTIMATED",
     ["FILL_MODEL_MISSING", "FEE_UNKNOWN", "INSUFFICIENT_QUALITY_DATES"]⟩),
   ("F04-CROSS-SECTIONAL-RANK",
    ⟨"Ranking comparable markets by past-only expected net edge allocates a fixed child " ++
       "action better than equal-weight or all-eligible routing.",
     ⟨"market enters the frozen top rank after root, liquidity, and phase matching",
      "rank selects a confirmed child and inherits its side unchanged",
      receive, "ranking rebalance through child root-event and UTC-day PnL",
      "ranked child PnL does not beat equal-weight and best simple selector out of sample"⟩,
     "ROUTER", "L1", "NOT_REQUIRED", "EXECUTABLE_STRATEGY", "BLOCKED_CHILDREN", "NO_CLAIM",
     ["CONFIRMED_CHILD_STRATEGIES_MISSING", "INSUFFICIENT_QUALITY_DATES"]⟩),
   ("F05-SCANNER-SPREAD-FLOW-DEPTH",
    ⟨"A spread, flow, and depth scanner selects child opportunities with higher fee-after " ++
       "PnL than any one scanner input alone.",
     ⟨"frozen composite scanner score passes the opportunity and data-quality gates",
      "scanner selects only; the registered child supplies side and order semantics",
      receive, "trigger through child fill, exit, and day result",
      "composite selector fails to beat spread-only, flow-only, and depth-only baselines"⟩,
     "ROUTER", "L1_L2", "NOT_REQUIRED", "EXECUTABLE_STRATEGY", "BLOCKED_CHILDREN", "NO_CLAIM",
     ["CONFIRMED_CHILD_STRATEGIES_MISSING", "INSUFFICIENT_QUALITY_DATES"]⟩),
   ("F06-NICHE-COMPOSITE",
    ⟨"A narrow sport, structure, phase, and liquidity niche retains incremental child PnL " ++
       "after matched controls and concentration tests.",
     ⟨"all frozen niche dimensions match and the selected child is authorized",
      "niche selects the child but does not alter its side",
      receive, "niche episode through child exit and day-level concentration",
      "delete-best event, league, or day removes the increment or support is insufficient"⟩,
     "ROUTER", "L1_L2", "NOT_REQUIRED", "EXECUTABLE_STRATEGY", "BLOCKED_CHILDREN", "NO_CLAIM",
     ["CONFIRMED_CHILD_STRATEGIES_MISSING", "SAMPLE_TOO_SMALL"]⟩),
   ("F07-LOW-OCC-INDEPENDENT-FAIR",
    ⟨"A low-occupancy market with a genuinely independent stable fair value supports a " ++
       "one-contract maker after adverse-selection costs.",
     ⟨"occupancy is below threshold and an audited independent fair plus spread gate passes",
      "quote around the independent fair; missing or circular fair means no order",
      receive, "quote lifetime through fill, cancel, and bounded exit",
      "empty books produce no fills, informed fills dominate, or the fair is not independent"⟩,
     "MAKER_SPREAD", "L1_L2", "NOT_REQUIRED", "EXECUTABLE_STRATEGY", "BLOCKED_DATA",
     "NO_CLAIM",
     ["MISSING_SIGNAL_INPUT", "FILL_MODEL_MISSING", "FEE_UNKNOWN"]⟩),
   ("F08-SPORT-FACTORY",
    ⟨"Mechanism effects differ across captured sports, so each sport must retain its own " ++
       "support and falsifier instead of being pooled away.",
     ⟨"a captured sport and atomic owner pair emits a support or zero-support row",
      "factory only; no order and no side",
      receive, "owner-defined horizon with sport-stratified reporting",
      "sport interaction is unsupported and the pooled mechanism is stable under " ++
        "leave-one-sport tests"⟩,
     "NO_ACTION", "CATALOG", "NOT_REQUIRED", "RESEARCH_QUESTION", "DESCRIPTIVE_ONLY",
     "DESCRIPTIVE_ONLY",
     []⟩),
   ("F09-TENNIS-BO3-BO5",
    ⟨"Authoritative best-of-three versus best-of-five format changes Tennis state " ++
       "transitions or a bound child policy's PnL.",
     ⟨"point-in-time authoritative match-format label joins a Tennis market before decision",
      "format selects a child stratum only; it never supplies side",
      externalClock, "match-format stratum through owner-defined exit or terminal",
      "matched BO3 and BO5 effects are equal or format support is too small"⟩,
     "NO_ACTION", "EXTERNAL", "REQUIRED", "RESEARCH_QUESTION", "BLOCKED_EXTERNAL", "NO_CLAIM",
     ["EXTERNAL_SPORTS_DATA_MISSING", "EXTERNAL_API_UNVERIFIED"]⟩),
   ("F10-BASEBALL-ONE-SIDE",
    ⟨"Baseball one-sided-book episodes admit a missing-side passive quote with positive " ++
       "fee-after PnL without inferring inning or pitch state.",
     ⟨"authoritative Baseball identity plus persistent bid-only or ask-only state passes gates",
      "post the explicitly missing book side; no inning, pitch, or score is inferred",
      receive, "one-sided dwell through fill, recovery, or forced exit",
      "strict missing-side fills are absent or their adverse loss exceeds spread capture"⟩,
     "PASSIVE_FADE", "L1_L2", "NOT_REQUIRED", "EXECUTABLE_STRATEGY", "DESCRIPTIVE_ONLY",
     "PNL_NOT_ESTIMATED",
     ["FILL_MODEL_MISSING", "FEE_UNKNOWN", "INSUFFICIENT_QUALITY_DATES"]⟩),
   ("F11-GOLF-THIN-LONG-LIFECYCLE",
    ⟨"Observable Golf market thinness and long lifecycle identify an internal one-contract " ++
       "passive window that survives fill, capital, and terminal risk.",
     ⟨"authoritative Golf identity plus catalog age and a frozen thin-book spread/liquidity " ++
        "gate",
      "quote the registered two-sided book without inferring round, cut, score, or field state",
      receive, "quote lifetime through executable exit or tournament terminal",
      "capital duration, no-fill rate, or terminal tail erases spread economics"⟩,
     "MAKER_SPREAD", "L1", "OPTIONAL_REFINEMENT", "EXECUTABLE_STRATEGY", "DESCRIPTIVE_ONLY",
     "NO_CLAIM",
     ["FILL_MODEL_MISSING", "FEE_UNKNOWN", "SETTLEMENT_MISSING"]⟩),
   ("F12-EXTERNAL-ODDS-LEADLAG",
    ⟨"A licensed external-odds update leads the mapped Kalshi executable price by more than " ++
       "provider latency and total trading cost.",
     ⟨"verified external fair-value update creates a mapped executable discrepancy above cost",
      "buy the Kalshi outcome underpriced relative to the audited external mapping",
      externalClock, "provider publication through Kalshi repricing or frozen exit",
      "lead disappears under publication/receive clocks or net PnL is non-positive"⟩,
     "EXTERNAL_ACTION", "EXTERNAL", "REQUIRED", "EXECUTABLE_STRATEGY", "BLOCKED_EXTERNAL",
     "NO_CLAIM",
     ["EXTERNAL_SPORTS_DATA_MISSING", "EXTERNAL_API_UNVERIFIED", "TIMESTAMP_SEMANTICS_UNKNOWN"]⟩),
   ("F13-EXTERNAL-SPORT-STATE",
    ⟨"A licensed score, serve, injury, lineup, or official state change leads a mapped " ++
       "Kalshi repricing enough for cancellation or trade.",
     ⟨"verified point-in-time sport-state event changes the audited contract fair value " ++
        "above cost",
      "derive side from the explicit state-to-payout mapping; missing fields never impute " ++
        "direction",
      externalClock, "source publication through venue reaction, stop, or terminal",
      "state event has no latency-adjusted executable effect or data timing is unverifiable"⟩,
     "EXTERNAL_ACTION", "EXTERNAL", "REQUIRED", "EXECUTABLE_STRATEGY", "BLOCKED_EXTERNAL",
     "NO_CLAIM",
     ["EXTERNAL_SPORTS_DATA_MISSING", "EXTERNAL_API_UNVERIFIED", "TIMESTAMP_SEMANTICS_UNKNOWN"]⟩),
   ("F14-PROVIDER-PRICE-LATENCY-TIER",
    ⟨"Provider usefulness depends on effective point-in-time coverage, latency, reliability, " ++
       "license, and cost rather than nominal feed speed.",
     ⟨"two or more verified provider streams expose comparable publication and receive " ++
        "timestamps",
      "provider-selection diagnostic only; it submits no order",
      externalClock, "publication-to-receive latency distribution and daily coverage",
      "no provider has positive value after latency, missingness, and commercial cost"⟩,
     "NO_ACTION", "EXTERNAL", "REQUIRED", "RESEARCH_QUESTION", "BLOCKED_EXTERNAL", "NO_CLAIM",
     ["EXTERNAL_API_UNVERIFIED", "TIMESTAMP_SEMANTICS_UNKNOWN"]⟩),
   ("F15-BLINDNESS-EVPI",
    ⟨"A non-causal future-information oracle on the same internal L1/L2 paths bounds how " ++
       "much loss an ideal external signal could avoid.",
     ⟨"an internal blind owner decision and its later same-path L1/L2 outcome can be paired " ++
        "with the frozen oracle rule",
      "future-information upper-bound control only; the oracle is never a live signal or " ++
        "order action",
      receive, "owner decision through its internal future-path outcome and avoided-loss ceiling",
      "oracle-minus-blind upper bound is below any plausible provider and implementation cost"⟩,
     "CONTROL_ONLY", "OWNER_EVPI", "NOT_REQUIRED", "RESEARCH_QUESTION", "CONTROL_ONLY",
     "CONTROL_ONLY",
     []⟩),
   ("F16-COURTSIDE-SPEED-OUT-OF-SCOPE",
    ⟨"Courtside-speed information would require separate legal, licensing, network, and " ++
       "action authority and is excluded from this program.",
     ⟨"none in the current program",
      "no order",
      externalClock, "not applicable",
      "not evaluated unless a new durable program explicitly admits the source and action"⟩,
     "NO_ACTION", "OUT_OF_SCOPE", "REQUIRED", "RESEARCH_QUESTION", "OUT_OF_SCOPE", "NO_CLAIM",
     ["OUT_OF_SCOPE_CURRENT_PROGRAM", "EXTERNAL_SPORTS_DATA_MISSING"]⟩),
   ("F17-CRYPTO-SPOT-ANCHOR-OUT-OF-SCOPE",
    ⟨"Crypto spot anchoring has no admitted mechanism inside the Sports program and belongs " ++
       "to a separate registry.",
     ⟨"none in the Sports program",
      "no order",
      receive, "not applicable",
      "a separately authorized non-Sports program establishes an explicit mapped instrument"⟩,
     "NO_ACTION", "OUT_OF_SCOPE", "NOT_REQUIRED", "RESEARCH_QUESTION", "OUT_OF_SCOPE",
     "NO_CLAIM",
     ["OUT_OF_SCOPE_CURRENT_PROGRAM"]⟩)]

def seedsG : List (String × Seed) :=
  [("G01-CHANGEPOINT-REGIME", registerModel
    ("A past-only change-point detector improves an owner's regime forecast over a fixed " ++
      "rolling window.")
    "online change probability crosses the owner-frozen regime boundary"
    "owner horizon from detected break through next stable segment"
    "chronological owner loss and eventual fee-after PnL do not beat the fixed-window baseline"),
   ("G02-HMM-HSMM-STATE", registerModel
    ("Filtered HMM or HSMM state and dwell improve an owner outcome over deterministic SNBD " ++
      "state.")
    "filtered, never smoothed, state posterior crosses the owner-frozen threshold"
    "owner horizon plus latent-state dwell"
    "latent states are unstable or add no calibrated owner increment out of sample"),
   ("G03-POINT-PROCESS-HAWKES", registerModel
    ("History-only point-process intensity improves an owner's fill, jump, or flow hazard " ++
      "forecast.")
    "causal self- or cross-excitation intensity exceeds the owner-frozen hazard threshold"
    "next event time and owner hazard horizon"
    ("Poisson or empirical hazard matches the model chronologically or owner economics do not " ++
      "improve")),
   ("G04-GARCH-STOCHASTIC-VOL", registerModel
    ("Conditional GARCH or stochastic-volatility forecasts improve an owner's risk or radius " ++
      "decision.")
    "one-step conditional volatility enters a different owner-frozen action cell"
    "next 1s, 30s, 5m, or owner-defined quote horizon"
    "rolling realized volatility forecasts as well or the owner action gains no PnL"),
   ("G05-STATE-SPACE-KALMAN", registerModel
    ("A filtered state-space fair value and uncertainty improve an owner action over midpoint " ++
      "or EWMA.")
    "filtered fair displacement and posterior uncertainty pass the owner gate"
    "owner fair-value and exit horizon"
    "midpoint, microprice, or EWMA matches forecast and owner PnL"),
   ("G06-PCA-FACTOR-CLUSTER", registerModel
    ("Past-fit common factors expose owner residuals that survive matched cross-market " ++
      "controls.")
    "factor-neutral residual exceeds the owner-frozen threshold in a mapped comparable panel"
    "owner convergence or risk horizon"
    "residual vanishes under rolling fit, leave-root-out tests, or joint execution costs"),
   ("G07-COINTEGRATION-VECM", registerModel
    ("A past-fit long-run relation produces a stable error-correction signal for an owner " ++
      "relative-value card.")
    "causal error-correction residual exceeds the owner-frozen entry boundary"
    "owner convergence, stop, or joint terminal horizon"
    "relation breaks chronologically or executable joint PnL is non-positive"),
   ("G08-REGULARIZED-GLM-SURVIVAL", registerModel
    ("A regularized GLM or survival model adds calibrated owner prediction beyond a " ++
      "univariate hazard.")
    "out-of-fold probability or hazard crosses the owner-frozen decision threshold"
    "owner binary, return, fill, or survival horizon"
    "simple empirical or univariate baseline matches calibration and owner economics"),
   ("G09-TREE-BOOSTING", registerModel
    "Tree boosting captures stable nonlinear owner interactions beyond a regularized GLM."
    "chronological out-of-fold tree score crosses the owner-frozen threshold"
    "owner outcome horizon"
    "nested out-of-fold increment, calibration, or eventual owner PnL is absent"),
   ("G10-NEURAL-SEQUENCE", registerModel
    ("A causal neural sequence model adds owner value beyond tree and GLM baselines after " ++
      "latency and drift costs.")
    "causal sequence score crosses the owner-frozen threshold within its latency budget"
    "owner sequence outcome horizon"
    ("simpler models match performance or inference, drift, and execution costs erase the " ++
      "increment")),
   ("G11-ENSEMBLE-STACKING", registerModel
    ("An out-of-fold-only stack improves owner calibration and PnL over the best frozen " ++
      "single model.")
    "meta-score built only from out-of-fold base predictions crosses the owner gate"
    "owner outcome and action horizon"
    ("the best single model matches the stack or switching and compute costs erase the " ++
      "increment")),
   ("G12-DRIFT-CALIBRATION-RETRAINING", registerModel
    ("A frozen drift detector and retraining cadence improve live-like owner calibration and " ++
      "PnL.")
    "calibration or feature drift crosses the frozen retrain or abstention boundary"
    "walk-forward owner horizon through the next retraining checkpoint"
    "never-retrain or fixed-cadence baseline matches performance after retraining costs")]

def seedsP : List (String × Seed) :=
  [("P01-STRATEGY-OVERLAP-PRECEDENCE",
    ⟨"Frozen precedence among overlapping confirmed strategies prevents duplicate or " ++
       "contradictory root risk and improves joint PnL.",
     ⟨"two confirmed child intents overlap on the same root, market, or outcome exposure",
      "select one precedence winner, cancel conflicts, reach zero resting, then route its " ++
        "unchanged side",
      receive, "conflict through cancellation, reconciliation, child exit, and day PnL",
      "joint precedence PnL does not beat independently running children under shared risk"⟩,
     "ROUTER", "META", "INHERIT_CHILDREN", "EXECUTABLE_STRATEGY", "BLOCKED_CHILDREN",
     "NO_CLAIM",
     ["CONFIRMED_CHILD_STRATEGIES_MISSING", "RISK_GATES_MISSING"]⟩),
   ("P02-ROUTER-ABSTENTION-SWITCH",
    ⟨"A frozen router with abstention and hysteresis outperforms the best fixed confirmed " ++
       "child after switch costs.",
     ⟨"past-only regime score selects a different child beyond the frozen hysteresis boundary",
      "no new risk, cancel, zero resting, reconcile, then inherit the selected child's side",
      receive, "router state through switch completion and child root-event outcome",
      "router fails to beat the best fixed training-selected child on untouched evidence"⟩,
     "ROUTER", "META", "INHERIT_CHILDREN", "EXECUTABLE_STRATEGY", "BLOCKED_CHILDREN",
     "NO_CLAIM",
     ["CONFIRMED_CHILD_STRATEGIES_MISSING", "RISK_GATES_MISSING"]⟩),
   ("P03-COMMON-ROOT-COVARIANCE-COTAIL",
    ⟨"Aggregating exposure by canonical root and enforcing a co-tail cap reduces portfolio " ++
       "tail loss without destroying expected PnL.",
     ⟨"root exposure, covariance, or co-tail stress exceeds a frozen joint risk limit",
      "deny new risk and preserve reduce-only actions across every affected child",
      receive, "risk breach through joint unwind, terminal, and daily tail result",
      "joint cap does not reduce expected shortfall or sacrifices more PnL than the frozen " ++
        "tolerance"⟩,
     "SIZE_RISK", "META", "INHERIT_CHILDREN", "EXECUTABLE_STRATEGY", "BLOCKED_CHILDREN",
     "NO_CLAIM",
     ["CONFIRMED_CHILD_STRATEGIES_MISSING", "RISK_GATES_MISSING"]⟩),
   ("P04-MULTIMARKET-ALLOCATION",
    ⟨"Allocating fixed risk units by marginal net edge, covariance, capital, and token use " ++
       "beats equal allocation.",
     ⟨"confirmed-child scores and joint risk ledger produce a frozen non-equal allocation",
      "allocation changes size only and inherits every child's side unchanged",
      dayClock, "allocation interval through root-deduped day PnL and capital peak",
      "allocation fails to beat equal weight and best single child after turnover and costs"⟩,
     "SIZE_RISK", "META", "INHERIT_CHILDREN", "EXECUTABLE_STRATEGY", "BLOCKED_CHILDREN",
     "NO_CLAIM",
     ["CONFIRMED_CHILD_STRATEGIES_MISSING", "RISK_GATES_MISSING"]⟩),
   ("P05-BRACKET-HEDGE",
    ⟨"A payout-verified bracket hedge reduces a confirmed child's tail or capital use by " ++
       "more than all-leg execution cost.",
     ⟨"authoritative child position plus bracket hedge residual passes the frozen benefit " ++
        "threshold",
      "execute the exact statewise hedge vector; never use a name-only bracket match",
      receive, "hedge entry through child exit, orphan unwind, or joint terminal",
      "joint fill costs or any legal payout state makes the hedge increment non-positive"⟩,
     "CHILD_HEDGE", "FAMILY", "NOT_REQUIRED", "EXECUTABLE_STRATEGY", "BLOCKED_ENGINE",
     "NO_CLAIM",
     ["PAYOUT_EXHAUSTIVENESS_MISSING", "MULTI_LEG_ENGINE_MISSING",
      "CONFIRMED_CHILD_STRATEGIES_MISSING"]⟩),
   ("P06-DYNAMIC-DAILY-SELECTION",
    ⟨"Selecting only past-predicted positive confirmed children each day outperforms static " ++
       "daily activation after turnover.",
     ⟨"prior-day-only quality, capacity, and edge score places a child on the daily allowlist",
      "daily selector inherits child actions and sides; excluded children submit nothing",
      dayClock, "next UTC day with no intraday refit",
      "daily selector fails to beat always-on and best fixed child on untouched days"⟩,
     "ROUTER", "META", "INHERIT_CHILDREN", "EXECUTABLE_STRATEGY", "BLOCKED_CHILDREN",
     "NO_CLAIM",
     ["CONFIRMED_CHILD_STRATEGIES_MISSING", "INSUFFICIENT_QUALITY_DATES"]⟩),
   ("P07-CAPACITY-FILL-DECAY-IMPACT",
    ⟨"Fill probability decays and impact grows with size, producing a finite PnL-maximizing " ++
       "capacity rather than linear scale.",
     ⟨"marginal tested size has positive pessimistic PnL after fill decay and impact",
      "change quantity only and inherit the child side",
      receive, "order lifetime through fills, impact, unwind, and daily capacity",
      "no size above one has positive marginal PnL or capacity estimates fail micro-live " ++
        "calibration"⟩,
     "SIZE_RISK", "META", "INHERIT_CHILDREN", "EXECUTABLE_STRATEGY", "BLOCKED_CHILDREN",
     "NO_CLAIM",
     ["CONFIRMED_CHILD_STRATEGIES_MISSING", "OWN_ORDER_CALIBRATION_MISSING",
      "RISK_GATES_MISSING"]⟩),
   ("P08-PROGRESSIVE-SCALING",
    ⟨"A maximum two-times size ladder increases dollar PnL only while every tier retains " ++
       "positive marginal economics and tail safety.",
     ⟨"previous tier passes frozen PnL, drawdown, impact, and reconciliation gates",
      "raise or lower size only; inherit child side and immediately allow reduce-only exit",
      dayClock, "one complete tier evaluation window before any next step",
      "a tier has non-positive marginal PnL, excess tail, or unmodeled impact"⟩,
     "SIZE_RISK", "META", "INHERIT_CHILDREN", "EXECUTABLE_STRATEGY", "BLOCKED_CHILDREN",
     "NO_CLAIM",
     ["CONFIRMED_CHILD_STRATEGIES_MISSING", "RISK_GATES_MISSING",
      "OWN_ORDER_CALIBRATION_MISSING"]⟩),
   ("P09-MANUAL-SYSTEM-COEXISTENCE",
    ⟨"Authoritative ownership, self-trade prevention, and precedence allow manual and system " ++
       "orders to coexist without conflict loss.",
     ⟨"private account state reports overlapping manual and system exposure or orders",
      "forbid system new risk, cancel only system-owned conflicts, and reconcile before " ++
        "resuming",
      "PRIVATE_ACCOUNT_EVENT_RECEIVE_CLOCK_PAST_ONLY",
      "conflict detection through cancel, reconciliation, and position normalization",
      "ownership cannot be proven or coexistence produces duplicate fills, self-trades, or " ++
        "unexplained exposure"⟩,
     "SIZE_RISK", "PRIVATE", "NOT_REQUIRED", "EXECUTABLE_STRATEGY", "BLOCKED_DATA", "NO_CLAIM",
     ["PRIVATE_ACCOUNT_STATE_MISSING", "RISK_GATES_MISSING"]⟩),
   ("P10-COMMERCIAL-ROC-COST",
    ⟨"A confirmed strategy remains commercially worthwhile after exchange, data, cloud, " ++
       "capital, labor, and incident costs.",
     ⟨"rolling commercial net PnL and return on committed capital pass frozen continue or " ++
        "stop gates",
      "deploy, continue, scale down, or stop a confirmed child; no independent market side",
      dayClock, "daily, monthly, and capital-payback windows",
      "commercial net PnL or risk-adjusted return on cost is non-positive"⟩,
     "COMMERCIAL_ROC", "META", "INHERIT_CHILDREN", "EXECUTABLE_STRATEGY", "BLOCKED_CHILDREN",
     "NO_CLAIM",
     ["CONFIRMED_CHILD_STRATEGIES_MISSING"]⟩),
   ("P11-UNCLASSIFIED-BACKLOG",
    ⟨"Valid observations with no falsifiable action and PnL contract should remain " ++
       "unclassified rather than be promoted by narrative.",
     ⟨"valid evidence matches no atomic experiment with a complete target and action",
      "no order",
      receive, "not applicable until a new audited lineage exists",
      "an independently audited taxonomy proposal supplies a unique action, baseline, and " ++
        "PnL contract"⟩,
     "NO_ACTION", "INTERNAL_CONTROL", "INHERIT_CHILDREN", "RESEARCH_QUESTION",
     "UNCLASSIFIED_BACKLOG", "NO_CLAIM",
     ["ACTION_INCOMPLETE", "BASELINE_INCOMPLETE"]⟩)]

def cardSeeds : List (String × Seed) :=
  seedsA ++ seedsB ++ seedsC ++ seedsD ++ seedsE ++ seedsF ++ seedsG ++ seedsP

end HftBot.Experiment
