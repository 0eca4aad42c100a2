import HftBot.Core.PyValue
import HftBot.Experiment.Profiles

/-!
# Actions and their economics

The action contract of each profile, with the venue, the baseline, the PnL formula and the costs
that go with it, and the object that each is in a card.
-/

namespace HftBot.Experiment

open HftBot.Core PyValue

/-- A text, or `None`. -/
def optional : Option String → PyValue := fun s => s.elim null string

/-- A member that an object has or lacks. -/
def member (key : String) (value : Option PyValue) : List (String × PyValue) :=
  (value.map fun v => (key, v)).toList

/-! ### Actions -/

structure Action where
  status : String
  actionType : List String := []
  signalToActionMapping : Option String := none
  instrumentSide : Option String := none
  orderStyle : Option String := none
  priceRule : Option String := none
  quantityRule : Option String := none
  timingAndCancel : Option String := none
  exitOrSettlement : Option String := none
  killConditions : List String := []

def actionProfile : ActionProfile → Action
  | .noAction => { status := "NO_ACTION_DEFINED" }
  | .makerSpread =>
    { status := "DEFINED_FOR_BACKTEST_DESIGN"
      actionType := ["PLACE_PASSIVE_QUOTE", "CANCEL", "REPRICE"]
      signalToActionMapping :=
        "When the registered eligibility and net-edge trigger is true, place one post-only " ++
          "quote on each permitted side; cancel both when the trigger becomes false, the book " ++
          "gaps, or data is stale."
      instrumentSide := "TWO_SIDED_YES_NORMALIZED"
      orderStyle := "POST_ONLY_LIMIT"
      priceRule := "registered tick-valid bid/ask offsets from executable book"
      quantityRule := "one contract per active side until capacity is proven"
      timingAndCancel := "decision clock plus measured placement/cancel latency"
      exitOrSettlement := "cancel sibling, reconcile, then bounded reduce-only IOC"
      killConditions := ["gap", "stale_book", "unknown_fee", "position_mismatch"] }
  | .makerFilter =>
    { status := "DEFINED_FOR_BACKTEST_DESIGN"
      actionType := ["CANCEL", "REPRICE", "RESIZE", "CANCEL_AND_REPLACE"]
      signalToActionMapping :=
        "Apply the signal as a risk switch to the registered maker: cancel the vulnerable side, " ++
          "widen, or reduce size; restore only after the signal clears and state is reconciled."
      instrumentSide := "DERIVED_BY_SIGNAL_WITH_BOTH_SIDES_ENUMERATED"
      orderStyle := "POST_ONLY_LIMIT_AND_CANCEL"
      priceRule := "registered maker price plus signal-conditioned safety buffer"
      quantityRule := "never exceed the unfiltered baseline inventory cap"
      timingAndCancel := "cancel-effective latency is part of treatment"
      exitOrSettlement := "reconcile residual fills, then reduce-only exit"
      killConditions := ["direction_unknown", "cancel_race", "gap", "stale_book"] }
  | .makerRefill =>
    { status := "DEFINED_FOR_BACKTEST_DESIGN"
      actionType := ["PLACE_PASSIVE_QUOTE", "CANCEL_AND_REPLACE"]
      signalToActionMapping :=
        "After registered depletion, quote or requote only when refill state and price-band " ++
          "gates pass; cancel at the frozen refill deadline if recovery is absent."
      instrumentSide := "DEPLETED_SIDE_ENUMERATED_IN_YES_NORMALIZED_BOOK"
      orderStyle := "POST_ONLY_LIMIT"
      priceRule := "same tick or registered adjacent tick after depletion"
      quantityRule := "one contract; no refill-size extrapolation"
      timingAndCancel := "frozen refill window plus measured cancel-effective latency"
      exitOrSettlement := "cancel sibling and reduce-only unwind after any fill"
      killConditions := ["no_refill_by_deadline", "gap", "queue_unknown", "stale_book"] }
  | .t90Range =>
    { status := "DEFINED_BUT_SCOPE_AND_EXECUTION_BLOCKED"
      actionType := ["PLACE_PASSIVE_QUOTE", "CANCEL", "REDUCE_ONLY_EXIT"]
      signalToActionMapping :=
        "After the frozen Tennis 88-93 leader band, causal two-way tug, flat inventory and " ++
          "no-retreat gates pass, post one contract at each touch (or the one preregistered " ++
          "behind1 variant). On any fill cancel the sibling, reconcile, and reduce only."
      instrumentSide := "FROZEN_LEADER_NORMALIZED_TWO_SIDED_PAIR"
      orderStyle := "NON_ATOMIC_POST_ONLY_PAIR_WITH_WORST_SEQUENCE_RESERVE"
      priceRule := "touch or one legal tick behind, frozen before YES/NO mapping"
      quantityRule := "one contract per side; absolute root inventory <= 1"
      timingAndCancel := "cancel-before-replace; 250ms normal reprice minimum"
      exitOrSettlement :=
        "band exit, leader change, hard flip, timeout or safety kill at effective executable " ++
          "depth"
      killConditions := ["retreat", "gap", "stale", "pause", "terminal", "leader_change"] }
  | .t90Rebuild =>
    { status := "DEFINED_BUT_SCOPE_AND_EXECUTION_BLOCKED"
      actionType := ["PLACE_PASSIVE_QUOTE", "CANCEL", "REDUCE_ONLY_EXIT"]
      signalToActionMapping :=
        "Only after the parent retreat kill is complete and zero-resting is proven: require a " ++
          "latched burst, 3s without retreat, top-3 depth recovery >=80% of pre-kill, spread " ++
          ">=1.25x baseline, <=1 tick movement and the 88-93 band; then quote touch one " ++
          "contract per side for at most one rebuild cycle."
      instrumentSide := "FROZEN_T90_LEADER_NORMALIZED_TWO_SIDED_PAIR"
      orderStyle := "ONE_CYCLE_NON_ATOMIC_POST_ONLY_PAIR"
      priceRule := "touch only, bound to the frozen pre-kill baseline"
      quantityRule := "one contract per side; one rebuild cycle per root"
      timingAndCancel := "zero-resting precedes entry; maximum episode 30s"
      exitOrSettlement :=
        "exit at spread <=1.10x pre-kill baseline or immediately on a new burst, renewed " ++
          "retreat, gap, stale or root stop"
      killConditions := ["renewed_retreat", "new_burst", "gap", "stale", "root_stop",
        "second_cycle"] }
  | .passiveFade =>
    { status := "DEFINED_FOR_BACKTEST_DESIGN"
      actionType := ["PLACE_PASSIVE_QUOTE", "CANCEL"]
      signalToActionMapping :=
        "Place a post-only quote on the registered missing/cheap side only inside the eligible " ++
          "state; cancel on timeout or continuation."
      instrumentSide := "DERIVED_BY_SIGNAL_WITH_YES_NO_MAPPING"
      orderStyle := "POST_ONLY_LIMIT"
      priceRule := "registered tick at or behind the restored side"
      quantityRule := "one contract until real-fill calibration passes"
      timingAndCancel := "frozen fade horizon and measured cancel latency"
      exitOrSettlement := "time exit or state-recovery exit at executable price"
      killConditions := ["continuation", "timeout", "gap", "external_state_missing"] }
  | .takerDirectional =>
    { status := "DEFINED_FOR_BACKTEST_DESIGN"
      actionType := ["TAKE_LIQUIDITY", "HEDGE"]
      signalToActionMapping :=
        "Map the registered signed signal to BUY_YES or BUY_NO, enter with a marketable limit " ++
          "after measured latency, and exit at the registered horizon or reversal using " ++
          "executable depth."
      instrumentSide := "DERIVED_BY_SIGNAL_EXHAUSTIVE_YES_NO_MAP"
      orderStyle := "MARKETABLE_LIMIT"
      priceRule := "walk current exact L2 up to frozen slippage cap"
      quantityRule := "largest quantity whose pessimistic marginal edge remains positive"
      timingAndCancel := "entry and exit latency measured separately"
      exitOrSettlement := "time/reversal exit; no silent upgrade to settlement hold"
      killConditions := ["unsigned_signal", "edge_below_cost", "depth_shortfall", "gap"] }
  | .relativeValue =>
    { status := "DEFINED_BUT_ENGINE_BLOCKED"
      actionType := ["MULTI_LEG_ATOMIC", "HEDGE"]
      signalToActionMapping :=
        "When a payout-exhaustive executable residual exceeds all-leg cost plus buffer, execute " ++
          "the full registered leg set or abstain."
      instrumentSide := "EXACT_LEG_VECTOR_WITH_PAYOUT_STATES"
      orderStyle := "BOUNDED_MARKETABLE_LIMIT_PER_LEG"
      priceRule := "all-leg executable L2, never mids"
      quantityRule := "minimum fillable quantity across every required leg"
      timingAndCancel := "serial-leg risk and partial fills explicitly bounded"
      exitOrSettlement := "complete hedge or joint worst-state terminal valuation"
      killConditions := ["payout_incomplete", "partial_leg", "mapping_drift", "fee_unknown"] }
  | .expiryRoll =>
    { status := "DEFINED_BUT_MAPPING_AND_ENGINE_BLOCKED"
      actionType := ["REDUCE_OLD_EXPOSURE", "OPEN_EQUIVALENT_NEW_EXPOSURE", "RECONCILE"]
      signalToActionMapping :=
        "For an authoritative existing position, close the old expiry and open only the audited " ++
          "exposure-equivalent new contract when the complete two-leg roll cost is below " ++
          "holding cost."
      instrumentSide := "EXACT_EXISTING_EXPOSURE_TO_AUDITED_EQUIVALENT_VECTOR"
      orderStyle := "BOUNDED_MARKETABLE_LIMIT_PER_ROLL_LEG"
      priceRule := "synchronized executable depth including orphan unwind"
      quantityRule := "no more than the reconciled old exposure and new-leg depth"
      timingAndCancel := "serial-leg risk and partial roll are explicitly bounded"
      exitOrSettlement := "complete, unwind, or retain the frozen original exposure baseline"
      killConditions := ["mapping_unknown", "partial_leg", "roll_cost_above_hold",
        "position_mismatch"] }
  | .childHedge =>
    { status := "DEFINED_BUT_CHILD_MAPPING_AND_ENGINE_BLOCKED"
      actionType := ["OPEN_HEDGE_VECTOR", "RECONCILE", "UNWIND_HEDGE"]
      signalToActionMapping :=
        "Given an authoritative confirmed child exposure, execute the exact payout-verified " ++
          "hedge vector only when its reduction in tail/capital cost exceeds all-leg execution " ++
          "cost."
      instrumentSide := "EXACT_CONFIRMED_CHILD_EXPOSURE_AND_HEDGE_VECTOR"
      orderStyle := "BOUNDED_MARKETABLE_LIMIT_PER_HEDGE_LEG"
      priceRule := "synchronized executable all-leg depth, never mids"
      quantityRule := "hedge no more than the reconciled child exposure"
      timingAndCancel := "partial hedge and child-exit races are explicitly bounded"
      exitOrSettlement := "joint child-plus-hedge unwind or legal joint terminal value"
      killConditions := ["child_unconfirmed", "payout_incomplete", "partial_leg",
        "tail_benefit_below_cost"] }
  | .rfqGuard =>
    { status := "DEFINED_BUT_DATA_BLOCKED"
      actionType := ["CANCEL", "REPRICE", "RESIZE"]
      signalToActionMapping :=
        "Treat a public RFQ as unsigned toxicity/volatility information: cancel, widen, or " ++
          "shrink related CLOB quotes. Never infer a direction from public create/delete or " ++
          "combo composition."
      instrumentSide := "BOTH_RELATED_CLOB_SIDES_PUBLIC_UNSIGNED"
      orderStyle := "POST_ONLY_LIMIT_AND_CANCEL"
      priceRule := "unfiltered maker price plus RFQ risk buffer"
      quantityRule := "at most baseline resting quantity"
      timingAndCancel := "RFQ receive clock to cancel-effective clock"
      exitOrSettlement := "reconcile any cancel-race fill"
      killConditions := ["rfq_gap", "mapping_ambiguous", "direction_inferred_publicly"] }
  | .rfqMaker =>
    { status := "DEFINED_BUT_PERMISSION_AND_DATA_BLOCKED"
      actionType := ["RFQ_SUBMIT_QUOTE", "RFQ_CONFIRM", "HEDGE"]
      signalToActionMapping :=
        "For a full-size hedgeable RFQ, submit bounded yes_bid/no_bid; after a private " ++
          "accepted_side event confirm, correlate executed orders to fills, hedge, and " ++
          "reconcile residual inventory."
      instrumentSide := "TWO_SIDED_RFQ_BID_THEN_PRIVATE_ACCEPTED_SIDE"
      orderStyle := "RFQ_QUOTE_PLUS_CLOB_MARKETABLE_LIMIT"
      priceRule := "bid no higher than fair value minus all hedge and tail costs"
      quantityRule := "entire RFQ size only when full size is collateralized and hedgeable"
      timingAndCancel := "standard/HVM confirmation and execution clocks measured"
      exitOrSettlement := "CLOB hedge, executable unwind, or bound settlement"
      killConditions := ["private_event_missing", "hedge_depth_shortfall", "permission_missing"] }
  | .mveDirect =>
    { status := "DEFINED_BUT_PRIVATE_MVE_AND_ENGINE_BLOCKED"
      actionType := ["MVE_SUBMIT_PACKAGE_ORDER", "CANCEL", "HEDGE_LEGS", "RECONCILE", "UNWIND"]
      signalToActionMapping :=
        "Only for an exact-version MVE package with an audited leg, orientation and " ++
          "payout-state map: submit one fully collateralized package order when package price " ++
          "plus synchronized executable hedge cost leaves positive worst-state PnL; otherwise " ++
          "abstain."
      instrumentSide := "EXACT_MVE_PACKAGE_ORIENTATION_AND_AUDITED_HEDGE_VECTOR"
      orderStyle := "PRIVATE_MVE_PACKAGE_ORDER_PLUS_BOUNDED_LEG_LIMITS"
      priceRule :=
        "exact executable package price plus synchronized all-leg L2, fees, orphan-unwind and " ++
          "tail buffer; never use mids"
      quantityRule := "one complete package at the minimum fully hedgeable size"
      timingAndCancel :=
        "retain package submit/ack/cancel/fill clocks and bound serial-leg hedge latency and " ++
          "partial-package races"
      exitOrSettlement :=
        "complete the audited hedge, execute the frozen orphan unwind, or use the joint legal " ++
          "terminal payout matrix"
      killConditions := ["mve_catalog_or_orientation_unknown", "private_package_event_missing",
        "partial_package_or_leg", "hedge_depth_shortfall", "fee_or_terminal_state_unknown"] }
  | .terminalPolicy =>
    { status := "DEFINED_BUT_SETTLEMENT_BLOCKED"
      actionType := ["HOLD", "TAKE_LIQUIDITY", "CANCEL"]
      signalToActionMapping :=
        "At the registered terminal-state signal, choose the frozen hold or executable exit " ++
          "branch; cancel all risk-adding orders first."
      instrumentSide := "EXACT_EXISTING_POSITION"
      orderStyle := "CANCEL_THEN_REDUCE_ONLY_MARKETABLE_LIMIT_OR_HOLD"
      priceRule := "executable unwind depth or authoritative terminal value"
      quantityRule := "no more than reconciled absolute position"
      timingAndCancel := "freeze/settlement clock with separate exit latency"
      exitOrSettlement := "frozen exit rule or actual 0/1/void settlement"
      killConditions := ["terminal_state_unknown", "void_rule_unknown", "position_mismatch"] }
  | .terminalEntry =>
    { status := "DEFINED_BUT_SETTLEMENT_BLOCKED"
      actionType := ["TAKE_LIQUIDITY", "CANCEL", "HOLD"]
      signalToActionMapping :=
        "From flat, buy exactly the registered underpriced YES or NO outcome with a marketable " ++
          "limit only when the terminal-value gap exceeds all fees, exit and legal-state buffers."
      instrumentSide := "EXPLICIT_BUY_YES_OR_BUY_NO_FROM_FLAT"
      orderStyle := "ONE_CONTRACT_MARKETABLE_LIMIT"
      priceRule := "executable ask no higher than terminal value minus all costs"
      quantityRule := "one contract from flat; no pyramiding or naked short"
      timingAndCancel := "decision-effective depth plus measured entry/exit latency"
      exitOrSettlement := "frozen executable exit or authoritative 0/1/void settlement"
      killConditions := ["terminal_state_unknown", "void_rule_unknown", "edge_below_cost",
        "depth_shortfall"] }
  | .csAsk =>
    { status := "DEFINED_BUT_SCOPE_SETTLEMENT_AND_EXECUTION_BLOCKED"
      actionType := ["PLACE_PASSIVE_QUOTE", "CANCEL", "HOLD_TO_SETTLEMENT"]
      signalToActionMapping :=
        "Freeze the high outcome and q in \x7b0.97,0.98\x7d; after the exact book-regime and " ++
          "30s persistence gate, economically sell high from flat by posting to buy the low " ++
          "outcome at 1-q. Allow one contract and one fill per root with no replenish."
      instrumentSide := "FROM_FLAT_BUY_LOW_OUTCOME_AT_ONE_MINUS_Q"
      orderStyle := "POST_ONLY_LIMIT_ONE_FILL_MAX"
      priceRule := "q is the intended high-side ask; low-side buy price is exactly 1-q"
      quantityRule := "one contract, one fill maximum per root, no replenish"
      timingAndCancel := "intended quote state persists 30s; quote age 30s"
      exitOrSettlement := "actual authoritative settlement only for binding PnL"
      killConditions := ["price_cell_exit", "high_side_bid_retreat_one_tick", "better_ask",
        "leader_flip", "stale", "gap", "pause", "terminal", "fee_or_tick_unknown"] }
  | .earlyExit =>
    { status := "DEFINED_BUT_PRIVATE_AND_TERMINAL_DATA_BLOCKED"
      actionType := ["CANCEL", "REDUCE_ONLY_EXIT"]
      signalToActionMapping :=
        "When the frozen pre-freeze deterioration signal fires, cancel risk-adding orders and " ++
          "unwind only the reconciled existing position at bounded executable depth."
      instrumentSide := "EXACT_EXISTING_POSITION_REDUCE_ONLY"
      orderStyle := "CANCEL_THEN_REDUCE_ONLY_MARKETABLE_LIMIT"
      priceRule := "decision-effective executable depth with slippage cap"
      quantityRule := "no more than reconciled absolute position"
      timingAndCancel := "cancel-effective and exit latency are distinct"
      exitOrSettlement := "early executable exit before freeze"
      killConditions := ["position_unknown", "precursor_stale", "depth_shortfall",
        "terminal_state_unknown"] }
  | .externalAction =>
    { status := "DEFINED_BUT_EXTERNAL_DATA_BLOCKED"
      actionType := ["CANCEL", "REPRICE", "TAKE_LIQUIDITY"]
      signalToActionMapping :=
        "After a verified external event/odds update with trustworthy event time, cancel stale " ++
          "quotes or trade only the registered venue-price discrepancy; no proxy or imputation " ++
          "is allowed."
      instrumentSide := "DERIVED_FROM_VERIFIED_EXTERNAL_TO_KALSHI_MAPPING"
      orderStyle := "CANCEL_OR_MARKETABLE_LIMIT"
      priceRule := "verified external fair value versus executable Kalshi L2"
      quantityRule := "depth- and latency-bounded one-contract pilot"
      timingAndCancel := "external event time, ingest time, and venue send time all retained"
      exitOrSettlement := "time/reversal exit or explicitly bound settlement"
      killConditions := ["external_stale", "mapping_unverified", "license_unknown",
        "clock_unknown"] }
  | .router =>
    { status := "DEFINED_BUT_CHILDREN_BLOCKED"
      actionType := ["RESIZE", "CANCEL", "REPRICE"]
      signalToActionMapping :=
        "Select, size, or abstain among already confirmed child policies using only past state; " ++
          "route no action to an unconfirmed child."
      instrumentSide := "INHERITED_FROM_SELECTED_CONFIRMED_CHILD"
      orderStyle := "INHERITED_FROM_SELECTED_CONFIRMED_CHILD"
      priceRule := "unchanged child price rule"
      quantityRule := "shared root/event/capital cap across children"
      timingAndCancel := "router decision and switch latency included"
      exitOrSettlement := "unchanged child exit plus portfolio reconciliation"
      killConditions := ["child_unconfirmed", "overlap_unresolved", "capital_breach"] }
  | .commercialRoc =>
    { status := "DEFINED_BUT_CHILDREN_AND_FULL_COST_LEDGER_BLOCKED"
      actionType := ["CONTINUE_CONFIRMED_CHILD", "SCALE_DOWN", "STOP_NEW_RISK"]
      signalToActionMapping :=
        "At the frozen UTC decision boundary, continue the immutable confirmed child only when " ++
          "fully allocated trailing commercial NetPnL and ROC clear their preregistered gates; " ++
          "scale down at the warning gate and stop new risk at the failure gate."
      instrumentSide := "INHERITED_UNCHANGED_FROM_IMMUTABLE_CONFIRMED_CHILD"
      orderStyle := "INHERITED_CHILD_OR_STOP_NEW_RISK"
      priceRule := "unchanged immutable child price rule"
      quantityRule := "frozen full, reduced or zero-new-risk ladder only"
      timingAndCancel := "UTC boundary decision using past-only closed accounting periods"
      exitOrSettlement :=
        "stopped children add no new risk and retain their registered reduce-only exit and " ++
          "reconciliation path"
      killConditions := ["child_fingerprint_missing", "invoice_or_usage_unallocated",
        "capital_ledger_incomplete", "incident_cost_unknown"] }
  | .sizeRisk =>
    { status := "DEFINED_BUT_PRIVATE_OR_CHILD_DATA_BLOCKED"
      actionType := ["RESIZE", "CANCEL", "HEDGE"]
      signalToActionMapping :=
        "Translate the registered capacity/risk signal into a bounded size or no-new-risk " ++
          "decision; reconcile before any size increase."
      instrumentSide := "INHERITED_FROM_REGISTERED_CHILD_OR_POSITION"
      orderStyle := "INHERITED_CHILD_WITH_REDUCE_ONLY_EMERGENCY_EXIT"
      priceRule := "unchanged registered child price rule"
      quantityRule := "frozen size ladder bounded by depth, collateral and root cap"
      timingAndCancel := "size change only after prior orders reconcile"
      exitOrSettlement := "reduce-only exit derived from authoritative position"
      killConditions := ["capacity_curve_negative", "tail_breach", "position_unknown"] }
  | .modelComponent => { status := "NO_STANDALONE_ACTION_MODEL_COMPONENT" }
  | .controlOnly => { status := "NO_ACTION_CONTROL_ONLY" }

/-! ### Venues -/

def executionVenue : ActionProfile → Venue
  | .noAction         => .noVenue
  | .modelComponent   => .noVenue
  | .controlOnly      => .noVenue
  | .makerSpread      => .kalshiClob
  | .makerFilter      => .kalshiClob
  | .makerRefill      => .kalshiClob
  | .t90Range         => .kalshiClob
  | .t90Rebuild       => .kalshiClob
  | .passiveFade      => .kalshiClob
  | .takerDirectional => .kalshiClob
  | .relativeValue    => .kalshiMultiMarketClob
  | .expiryRoll       => .kalshiMultiMarketClob
  | .childHedge       => .kalshiMultiMarketClob
  | .rfqGuard         => .kalshiClob
  | .rfqMaker         => .kalshiClobAndRfq
  | .mveDirect        => .kalshiMvePrivateExecution
  | .terminalPolicy   => .kalshiClob
  | .terminalEntry    => .kalshiClob
  | .csAsk            => .kalshiClob
  | .earlyExit        => .kalshiClob
  | .externalAction   => .kalshiClob
  | .router           => .policyRouterOverKalshi
  | .commercialRoc    => .policyRouterOverKalshi
  | .sizeRisk         => .policyRouterOverKalshi

structure VenueContract where
  executionVenue : Venue
  requiredPermission : String

def venueFor (profile : ActionProfile) : VenueContract :=
  let venue := executionVenue profile
  { executionVenue := venue
    requiredPermission :=
      if venue = .noVenue then "NONE"
      else "SEPARATE_SHADOW_OR_LIVE_AUTHORITY; registry grants none" }

def VenueContract.toValue (venue : VenueContract) : PyValue :=
  object [("execution_venue", string venue.executionVenue.name),
    ("required_permission", string venue.requiredPermission), ("availability_receipt", null)]

/-! ### Baselines -/

structure Baseline where
  baselineId : Option String
  baselineType : BaselineType
  policy : Option String
  comparability : Option String
  secondaryBaselines : List String

def baselineFor : ActionProfile → Baseline
  | .noAction | .modelComponent | .controlOnly =>
    { baselineId := none
      baselineType := .notApplicable
      policy := none
      comparability := none
      secondaryBaselines := [] }
  | .makerFilter | .rfqGuard =>
    { baselineId := "UNFILTERED_SAME_MAKER"
      baselineType := .unfilteredQuoter
      policy := "identical maker without the tested signal gate"
      comparability := "same roots, capital, latency, fill and fee assumptions"
      secondaryBaselines := ["NO_TRADE_SAME_OPPORTUNITIES"] }
  | .makerRefill =>
    { baselineId := "IMMEDIATE_SAME_PRICE_REENTRY"
      baselineType := .customExecutable
      policy :=
        "replace immediately at the same tick after depletion without waiting for the tested " ++
          "refill/persistence gate"
      comparability := "same roots, price, size, latency, fill and fee assumptions"
      secondaryBaselines := ["NO_TRADE_SAME_OPPORTUNITIES"] }
  | .t90Range =>
    { baselineId := "NO_TRADE_SAME_OPPORTUNITIES"
      baselineType := .noTrade
      policy := "remain flat for every eligible T90 episode"
      comparability := "same roots, band, tug, clock, capital and data exclusions"
      secondaryBaselines := ["SAME_T90_RANGE_WITHOUT_RETREAT_KILL"] }
  | .t90Rebuild =>
    { baselineId := "T90_PARENT_NEVER_REENTER"
      baselineType := .customExecutable
      policy :=
        "same-root T90 parent transitions OFF_FOR_ROOT after the first valid retreat kill and " ++
          "never re-enters"
      comparability := "same parent roots, fills, kill, fees, capital and terminal path"
      secondaryBaselines := ["NO_TRADE_SAME_OPPORTUNITIES"] }
  | .router =>
    { baselineId := "BEST_FIXED_CONFIRMED_CHILD_TRAIN_ONLY"
      baselineType := .customExecutable
      policy := "best fixed child chosen without holdout information"
      comparability := "same roots, capital, risk caps and execution engine"
      secondaryBaselines := ["NO_TRADE_SAME_OPPORTUNITIES"] }
  | .sizeRisk =>
    { baselineId := "FIXED_ONE_CONTRACT_SAME_CHILD"
      baselineType := .customExecutable
      policy := "same child policy at one contract and unchanged risk caps"
      comparability := "same roots, prices, timing, fill and fee assumptions"
      secondaryBaselines := ["NO_TRADE_SAME_OPPORTUNITIES"] }
  | .terminalPolicy =>
    { baselineId := "FIXED_IMMEDIATE_EXECUTABLE_EXIT"
      baselineType := .customExecutable
      policy := "cancel then unwind at the first eligible terminal decision"
      comparability := "same inventory, roots, costs and terminal states"
      secondaryBaselines := ["NO_TRADE_OR_HOLD_AS_CARD_SPECIFIES"] }
  | .terminalEntry =>
    { baselineId := "NO_TRADE_SAME_OPPORTUNITIES"
      baselineType := .noTrade
      policy := "remain flat and record zero cash flow for every eligible opportunity"
      comparability := "same roots, clock, capital availability and data exclusions"
      secondaryBaselines := ["SIMPLE_UNCALIBRATED_EXECUTABLE_PRICE_RULE"] }
  | .csAsk =>
    { baselineId := "NO_TRADE_SAME_CS_OPPORTUNITIES"
      baselineType := .noTrade
      policy := "remain flat for every eligible 97/98 price/regime/phase cell"
      comparability := "same roots, q cells, persistence, fees and settlement coverage"
      secondaryBaselines := ["CS_94_TO_96_PLACEBO", "CS_BID_PAYOFF_CONTROL_ON_EXACT_ASK_FILL_IDS"] }
  | .earlyExit =>
    { baselineId := "WAIT_UNTIL_FREEZE_OR_TERMINAL"
      baselineType := .customExecutable
      policy :=
        "retain the same reconciled position through the precursor and follow the frozen later " ++
          "exit/terminal rule"
      comparability := "same position, roots, clocks, fees and terminal paths"
      secondaryBaselines := ["IMMEDIATE_EXIT_BEFORE_PRECURSOR"] }
  | .expiryRoll =>
    { baselineId := "HOLD_ORIGINAL_EXPOSURE"
      baselineType := .customExecutable
      policy :=
        "do not roll; retain the exact original exposure under its frozen exit/terminal rule"
      comparability := "same starting position, roots, capital clock and legal terminal states"
      secondaryBaselines := ["IMMEDIATE_EXIT_ORIGINAL_EXPOSURE"] }
  | .childHedge =>
    { baselineId := "UNHEDGED_CONFIRMED_CHILD"
      baselineType := .customExecutable
      policy := "run the identical confirmed child without the proposed hedge"
      comparability := "same child fills, roots, capital clock, exits and terminal states"
      secondaryBaselines := ["NO_TRADE_SAME_OPPORTUNITIES"] }
  | .mveDirect =>
    { baselineId := "NO_MVE_PACKAGE_TRADE_SAME_OPPORTUNITIES"
      baselineType := .noTrade
      policy := "submit no MVE package or hedge legs and record zero cash flow"
      comparability := "same package catalog, clocks, collateral and mapping exclusions"
      secondaryBaselines := ["LEG_REPLICATION_ONLY_IF_SEPARATELY_REGISTERED"] }
  | .commercialRoc =>
    { baselineId := "UNCHANGED_CONFIRMED_CHILD_WITHOUT_COMMERCIAL_GATE"
      baselineType := .customExecutable
      policy :=
        "run the same immutable confirmed child at its frozen size and risk limits without the " ++
          "tested commercial continue/scale/stop gate"
      comparability :=
        "same child fingerprint, roots, fills, capital clock, risk limits and fully allocated " ++
          "operating-cost ledger"
      secondaryBaselines := ["NO_TRADE_SAME_ACCOUNTING_PERIODS"] }
  | _ =>
    { baselineId := "NO_TRADE_SAME_OPPORTUNITIES"
      baselineType := .noTrade
      policy := "record every eligible opportunity with zero cash flow"
      comparability := "same roots, clock, capital availability and data exclusions"
      secondaryBaselines := [] }

def Baseline.toValue (baseline : Baseline) : PyValue :=
  object [("baseline_id", optional baseline.baselineId),
    ("baseline_type", string baseline.baselineType.name), ("policy", optional baseline.policy),
    ("comparability", optional baseline.comparability),
    ("secondary_baselines", strings baseline.secondaryBaselines)]

/-! ### PnL -/

/-- The last four are keys that only some PnL contracts have. -/
structure Pnl where
  status : String
  basis : String
  formula : Option String := none
  incrementalFormula : Option String := none
  aggregationUnit : Option String := none
  zeroFillTreatment : Option String := none
  capacityRule : Option String := none
  denominators : Option (List String) := none
  markoutRule : Option String := none
  rocDefinition : Option String := none
  costAllocationRule : Option String := none

/-- The formula of an action's PnL and that of its increment over the baseline. -/
def formulas : ActionProfile → String × String
  | .makerFilter | .rfqGuard =>
    ("NetPnL_policy = cash_in - cash_out - exact_fees - realized_variable_costs + " ++
       "terminal_value(residual_inventory)",
     "DeltaPnL = NetPnL_signal_gated_maker - NetPnL_unfiltered_same_maker")
  | .rfqMaker =>
    ("NetPnL = RFQ_and_hedge_cash_in - RFQ_and_hedge_cash_out - exact_RFQ_and_CLOB_fees + " ++
       "terminal_value(residual_inventory)",
     "DeltaPnL = NetPnL_RFQ_quote_policy - 0_for_no_quote_baseline")
  | .mveDirect =>
    ("NetPnL = MVE_package_and_hedge_cash_in - MVE_package_and_hedge_cash_out - " ++
       "exact_package_and_leg_fees - partial_package_orphan_unwind_cost + joint_terminal_value",
     "DeltaPnL = NetPnL_MVE_direct_policy - 0_for_same_opportunity_no_MVE_trade_baseline")
  | .relativeValue =>
    ("NetPnL = sum(executed_leg_cashflows) - sum(exact_leg_fees) - hedge_and_partial_leg_cost + " ++
       "joint_terminal_value",
     "DeltaPnL = NetPnL_full_leg_policy - 0_for_no_trade_baseline")
  | .router =>
    ("NetPnL = sum(root_deduped_child_cashflows) - exact_fees - switch_cost + " ++
       "joint_terminal_value",
     "DeltaPnL = NetPnL_router - NetPnL_best_fixed_train_only_child")
  | .commercialRoc =>
    ("CommercialNetPnL = child_realized_and_terminal_NetPnL - exchange_fees - " ++
       "data_provider_license_API_cost - cloud_compute_storage_egress_cost - " ++
       "operations_labor_oncall_cost - incident_loss_and_remediation_cost - " ++
       "capital_and_collateral_cost",
     "DeltaCommercialPnL = CommercialNetPnL_ROC_gate - " ++
       "CommercialNetPnL_same_child_without_commercial_gate")
  | .sizeRisk =>
    ("NetPnL = child_executed_cashflows - exact_fees - impact - tail_and_unwind_cost + " ++
       "terminal_value",
     "DeltaPnL = NetPnL_sized_policy - NetPnL_same_child_at_one_contract")
  | .terminalEntry =>
    ("NetPnL = terminal_or_exit_cash_in - entry_cash_out - exact_entry_and_exit_fees - " ++
       "realized_variable_costs",
     "DeltaPnL = NetPnL_terminal_entry - 0_for_flat_no_trade_baseline")
  | .csAsk =>
    ("NetPnL_per_strict_fill = q - Y_high_outcome_terminal - exact_net_fee_for_low_side_buy",
     "DeltaPnL = sum(NetPnL_on_exact_CS_ASK_fills) - 0_for_same_opportunity_no_trade_baseline")
  | .t90Rebuild =>
    ("NetPnL = parent_and_rebuild_executed_cash_in - executed_cash_out - exact_fees - " ++
       "forced_exit_cost + terminal_value(residual_inventory)",
     "DeltaPnL = NetPnL_T90_with_one_rebuild - NetPnL_same_root_T90_never_reenter")
  | .earlyExit =>
    ("NetPnL = executable_exit_cash - original_position_cost - exact_fees - realized_exit_cost",
     "DeltaPnL = NetPnL_early_reduce_only_exit - " ++
       "NetPnL_same_position_wait_until_freeze_or_terminal")
  | .expiryRoll =>
    ("NetPnL = old_close_cashflow + new_exposure_cashflow - all_leg_fees - " ++
       "orphan_and_carry_cost + terminal_value(new_residual)",
     "DeltaPnL = NetPnL_roll_policy - NetPnL_hold_original_exposure")
  | .childHedge =>
    ("NetPnL = child_cashflows + hedge_cashflows - all_leg_fees - partial_hedge_cost + " ++
       "joint_terminal_value",
     "DeltaPnL = NetPnL_child_plus_hedge - NetPnL_unhedged_same_child")
  | _ =>
    ("NetPnL = executed_cash_in - executed_cash_out - exact_venue_fees - " ++
       "realized_variable_costs + terminal_value(residual_inventory)",
     "DeltaPnL = NetPnL_strategy - NetPnL_registered_baseline")

def pnlFor : ActionProfile → Pnl
  | .noAction | .modelComponent | .controlOnly =>
    { status := "NOT_DEFINED_NOT_A_STRATEGY"
      basis := "NONE" }
  | profile =>
    { status := "DEFINED_NOT_YET_ESTIMABLE"
      basis := "PATHWISE_AFTER_COST"
      formula := (formulas profile).1
      incrementalFormula := (formulas profile).2
      aggregationUnit := "ROOT_EVENT_AND_UTC_DAY"
      zeroFillTreatment := "eligible no-trigger/no-fill/no-accept rows contribute zero"
      capacityRule := "no linear extrapolation beyond executable depth and tested size"
      denominators := ["per_opportunity", "per_trigger", "per_fill", "per_contract", "per_day",
        "per_peak_capital"]
      markoutRule := "mid/markout is diagnostic and never cash PnL"
      rocDefinition := if profile = .commercialRoc then some
        ("CommercialROC = CommercialNetPnL / max(peak_committed_capital, " ++
          "fully_allocated_cash_operating_cost); report both denominators separately")
        else none
      costAllocationRule := if profile = .commercialRoc then some
        ("Fully allocated provider, cloud, labor/on-call and incident costs use each sealed UTC " ++
          "accounting period, then measured card/root usage; shared fixed costs use a frozen " ++
          "driver and never disappear from the denominator.")
        else none }

def Pnl.toValue (pnl : Pnl) : PyValue :=
  object ([("status", string pnl.status), ("basis", string pnl.basis),
    ("formula", optional pnl.formula), ("incremental_formula", optional pnl.incrementalFormula),
    ("aggregation_unit", optional pnl.aggregationUnit),
    ("zero_fill_treatment", optional pnl.zeroFillTreatment),
    ("capacity_rule", optional pnl.capacityRule)] ++
    member "denominators" (pnl.denominators.map strings) ++
    member "markout_rule" (pnl.markoutRule.map string) ++
    member "roc_definition" (pnl.rocDefinition.map string) ++
    member "cost_allocation_rule" (pnl.costAllocationRule.map string))

/-! ### Costs -/

structure Cost where
  type : CostType
  role : CostRole
  status : CostStatus
  rule : String

def Cost.toValue (cost : Cost) : PyValue :=
  object [("type", string cost.type.name), ("role", string cost.role.name),
    ("status", string cost.status.name), ("rule", string cost.rule)]

def commonCostComponents : List Cost :=
  [⟨.exchangeMakerFee, .cashDeduction, .missing,
    "exact per-fill fee_cost or versioned series/date fee formula"⟩,
   ⟨.exchangeTakerFee, .cashDeduction, .missing,
    "exact entry/exit/hedge fee including rounding and rebates"⟩,
   ⟨.spreadCrossing, .executionModelInput, .conservativeModeled,
    "use executable ask on buys and executable bid on sells"⟩,
   ⟨.slippageMarketImpact, .executionModelInput, .missing,
    "walk exact L2 for requested quantity at decision-effective time"⟩,
   ⟨.placeCancelExitLatency, .executionModelInput, .missing,
    "separate measured placement, cancel-effective, hedge and exit paths"⟩,
   ⟨.inventoryTerminalVoid, .riskDiagnostic, .missing,
    "joint worst legal terminal state unless actual settlement is bound"⟩,
   ⟨.collateralAndCapital, .operatingExpense, .missing,
    "peak collateral, capital-time and capacity reported separately"⟩]

def costsFor (profile : ActionProfile) (dependency : Dependency) : List Cost :=
  match profile with
  | .noAction | .modelComponent | .controlOnly => []
  | _ =>
    commonCostComponents ++
    (if profile = .rfqMaker then
      [⟨.rfqSelectionAndConfirmation, .riskDiagnostic, .missing,
        "requester side selection, confirmation, execution and no-accept loss"⟩]
     else []) ++
    (if dependency = .required then
      [⟨.dataApi, .operatingExpense, .missing,
        "provider subscription, redistribution and historical backfill cost"⟩]
     else []) ++
    (if profile = .mveDirect then
      [⟨.mvePackageExecutionAndPartial, .executionModelInput, .missing,
        "private package quote/order/fill fees plus worst-sequence partial-package and " ++
          "orphan-leg unwind cost"⟩]
     else []) ++
    (if profile = .router then
      [⟨.policySwitchAndOverlap, .executionModelInput, .missing,
        "switch latency plus common-root capital and co-tail use"⟩]
     else []) ++
    (if profile = .commercialRoc then
      [⟨.dataProviderLicenseApi, .operatingExpense, .missing,
        "invoice-backed provider, license, API and historical-data allocation"⟩,
       ⟨.cloudComputeStorageEgress, .operatingExpense, .missing,
        "metered compute, storage, request and egress allocation by UTC period and card"⟩,
       ⟨.opsLaborAndIncident, .operatingExpense, .missing,
        "labor, on-call, incident loss and remediation under a frozen allocation rule"⟩]
     else [])

end HftBot.Experiment
