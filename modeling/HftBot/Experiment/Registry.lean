import HftBot.Experiment.Seeds

/-!
# The registry

The constants that a registry is made of, the summary of its cards and the registry that the seeds
make.
-/

namespace HftBot.Experiment

open HftBot.Core PyValue

/-! ### Constants -/

def atomicIds : List String :=
  ["A01-SPREAD-CAPTURE", "A02-TOXICITY-MARKOUT", "A03-DEPLETION-REFILL",
   "A04-QUEUE-LAMBDA-DISTANCE", "A05-SNBD-LIQUIDITY-REGIMES", "A06-QUOTE-LIFETIME-BURST",
   "A07A-OCCUPANCY-FINGERPRINT", "A07B-COORDINATED-RETREAT", "A07C-ADVERSE-SELECTION-TRANSFER",
   "A07D-ANCHOR-MANIPULABILITY", "A08-PRICE-GRID-ROUND-NUMBER", "A09-LIQUIDITY-SEASONALITY",
   "A10-CROSS-MARKET-QUOTE-SPILLOVER", "A11-ONE-SIDED-PROVISION", "A12-GENERIC-PASSIVE-SCALPING",
   "A13-T90-RANGE", "A14-T90-REBUILD", "A15-FAIR-MICROPRICE-PAST-FLOW",
   "A16-INVENTORY-RESERVATION-SKEW", "A17-DYNAMIC-QUOTE-RADIUS", "A18-TIME-SHRINKING-CAP",
   "A19-NO-TRADE-QUOTE-JUMP", "A20-SYSTEM-LOAD-QUEUE-GROWTH", "B01-MOMENTUM-CONTINUATION",
   "B02-MEAN-REVERSION", "B03-POST-JUMP-CONTINUATION-VS-REVERSAL",
   "B04-LARGE-FLOW-CONTINUATION-VS-REVERSAL", "B05-OFI-PREDICTIVITY",
   "B06-BOOK-IMBALANCE-PREDICTIVITY", "B07-MICROPRICE-PREDICTIVITY",
   "B08-CONTINUOUS-PRICE-CALIBRATION", "B09-LISTING-TO-START-DRIFT",
   "B10-INPLAY-PROXY-PRICE-EROSION", "B11-REALIZED-VOL-BY-TIME", "B12-JUMP-HAZARD",
   "B13-CALM-TO-BURST", "B14-VOL-HARVEST", "B15-VOL-BREAKOUT", "B16-CS-ASK", "B17-CS-BID-CONTROL",
   "C01-THREEWAY-OVERROUND", "C02-BRACKET-MONOTONICITY", "C03-THRESHOLD-MONOTONICITY",
   "C04-SAME-EVENT-FAMILY-COHERENCE", "C05-SOCCER-POISSON", "C06-WITHIN-EVENT-LEADLAG",
   "C07-STALE-LEG", "C08-COMBO-VS-LEG-COST", "C09-PAYOUT-STATE-DOMINANCE", "C10-MULTIDAY-SERIES",
   "D01-RFQ-FLOW-CENSUS", "D02-RFQ-SIZE-INTENT", "D03-RFQ-LIFECYCLE-SURVIVAL",
   "D04-RFQ-COMBO-DEMAND-LEG-PRESSURE", "D05-RFQ-REQUESTER-HASH", "D06-RFQ-DIRECTION-VOL-SIGNAL",
   "D07-RFQ-TO-CLOB-IMPACT", "D08-RFQ-DIRECT-QUOTE-PNL", "D09-MVE-CATALOG-SCHEMA",
   "D10-MVE-DIRECT-TRADING", "E01-SETTLEMENT-CONVERGENCE", "E02-EXPIRY-LIQUIDITY-MIGRATION",
   "E03-FREEZE-WINDOW", "E04-SETTLEMENT-CALIBRATION", "E05-TERMINAL-EXCEPTION-STATES",
   "E06-HOLD-TO-TERMINAL-TAIL", "F01-PARTICIPANT-MIX-PROXY", "F02-FEE-STRUCTURE-EFFECT",
   "F03-NEW-MARKET-COLD-START", "F04-CROSS-SECTIONAL-RANK", "F05-SCANNER-SPREAD-FLOW-DEPTH",
   "F06-NICHE-COMPOSITE", "F07-LOW-OCC-INDEPENDENT-FAIR", "F08-SPORT-FACTORY",
   "F09-TENNIS-BO3-BO5", "F10-BASEBALL-ONE-SIDE", "F11-GOLF-THIN-LONG-LIFECYCLE",
   "F12-EXTERNAL-ODDS-LEADLAG", "F13-EXTERNAL-SPORT-STATE", "F14-PROVIDER-PRICE-LATENCY-TIER",
   "F15-BLINDNESS-EVPI", "F16-COURTSIDE-SPEED-OUT-OF-SCOPE",
   "F17-CRYPTO-SPOT-ANCHOR-OUT-OF-SCOPE", "G01-CHANGEPOINT-REGIME", "G02-HMM-HSMM-STATE",
   "G03-POINT-PROCESS-HAWKES", "G04-GARCH-STOCHASTIC-VOL", "G05-STATE-SPACE-KALMAN",
   "G06-PCA-FACTOR-CLUSTER", "G07-COINTEGRATION-VECM", "G08-REGULARIZED-GLM-SURVIVAL",
   "G09-TREE-BOOSTING", "G10-NEURAL-SEQUENCE", "G11-ENSEMBLE-STACKING",
   "G12-DRIFT-CALIBRATION-RETRAINING", "P01-STRATEGY-OVERLAP-PRECEDENCE",
   "P02-ROUTER-ABSTENTION-SWITCH", "P03-COMMON-ROOT-COVARIANCE-COTAIL",
   "P04-MULTIMARKET-ALLOCATION", "P05-BRACKET-HEDGE", "P06-DYNAMIC-DAILY-SELECTION",
   "P07-CAPACITY-FILL-DECAY-IMPACT", "P08-PROGRESSIVE-SCALING", "P09-MANUAL-SYSTEM-COEXISTENCE",
   "P10-COMMERCIAL-ROC-COST", "P11-UNCLASSIFIED-BACKLOG"]

def schemaVersion : String := "monetizable-experiment-registry-v1"

def registryId : String := "DEEP03-ALL-ANGLES-MONETIZATION-V1"

/-- The files that the registry rests on, with their hashes. -/
def sourceBindings : PyValue :=
  list [
    object [("role", string "ATOMIC_DIRECTION_AUTHORITY"),
      ("path",
       string "Deepresearch V3/registry/sources/DEEP03_ATOMIC_DIRECTION_AUTHORITY_V1.json"),
      ("sha256", string "85db70587525ab34af7b5e1cba8bb70929581ea2ff64eb075eabaf5f98ea337e"),
      ("local_required", .bool true),
      ("note",
       string ("Local immutable extraction of plan section 4.7.2; it binds the origin document " ++
                "SHA ded84065... and the exact 106-ID universe."))],
    object [("role", string "CURRENT_RESULT_EVIDENCE"),
      ("path", string "Deepresearch V3/run_2026-07-22_D3-W2A/RESULTS.json"),
      ("sha256", string "e2265284704a828ec9dd0c700c66f16bdf11c9729530b583e9578561e27782f6"),
      ("local_required", .bool true),
      ("note", string "Descriptive results only; no card inherits a PnL claim from this file.")],
    object [("role", string "CURRENT_ESTIMABILITY_EVIDENCE"),
      ("path", string "Deepresearch V3/run_2026-07-22_D3-W2A/ESTIMABILITY_PREFLIGHT.json"),
      ("sha256", string "50a63f633db2edccfc315d482684d5d6ea488fdbd5526106e9a2c60b5831c7de"),
      ("local_required", .bool true),
      ("note", string "Used to distinguish observable signals from executable economics.")],
    object [("role", string "CURRENT_L2_SIGNAL_EVIDENCE"),
      ("path", string "Deepresearch V3/run_2026-07-22_D3-W2A/FULLSCOPE_L2_REPORT_TABLES.json"),
      ("sha256", string "e97fe0376cf4700829ed5afccc6eeaa10f4c368b417d335b0e1af7df490d0f52"),
      ("local_required", .bool true),
      ("note", string "Direct source for A03 refill and A07B retreat/control observations.")],
    object [("role", string "CURRENT_EXCLUSION_EVIDENCE"),
      ("path", string "Deepresearch V3/run_2026-07-22_D3-W2A/EXCLUSION_WATERFALL.json"),
      ("sha256", string "3e8136820158d320bbc1df52edb7239af9d29c281308c7c97dad3297d0deef4a"),
      ("local_required", .bool true),
      ("note", string "Direct source for the C04 payout/fill feasibility exclusion.")]]

def externalSourceCatalog : PyValue :=
  object [
    ("current_system_state",
     string ("No direct external sports adapter, decoder, schema or capture is present. All " ++
              "external sports variables are MISSING until point-in-time evidence, clock " ++
              "semantics and license are independently verified.")),
    ("sources",
     list [
       object [("source_id", string "KALSHI_MILESTONES_LIVE_DATA"),
         ("kind", string "DIRECT_SPORT_LABEL_AND_LIVE_STATE"),
         ("status", string "AVAILABLE_API_NOT_CAPTURED"),
         ("official_docs",
          strings ["https://docs.kalshi.com/api-reference/milestone/get-milestones",
                   "https://docs.kalshi.com/api-reference/live-data/get-live-data",
                   "https://docs.kalshi.com/api-reference/live-data/get-multiple-live-data",
                   "https://docs.kalshi.com/api-reference/live-data/get-game-stats"]),
         ("historical_backfill", string "SNAPSHOT_ONLY_NOT_POINT_IN_TIME"),
         ("live_use", string "POSSIBLE_AFTER_APPEND_ONLY_CAPTURE_AND_CLOCK_AUDIT"),
         ("notes",
          string ("Milestones can map sports entities to Kalshi events; Live Data can expose " ++
                   "score/period/game state. Mutable current snapshots must never be backfilled " ++
                   "as if known historically."))],
       object [("source_id", string "THE_ODDS_API"), ("kind", string "EXTERNAL_ODDS"),
         ("status", string "CANDIDATE_NOT_LICENSED_OR_CAPTURED"),
         ("official_docs", strings ["https://the-odds-api.com/liveapi/guides/v4/"]),
         ("historical_backfill", string "PREGAME_SNAPSHOT_CANDIDATE"),
         ("live_use", string "LATENCY_TOO_COARSE_FOR_UNAUDITED_FAST_ACTION"),
         ("notes",
          string "Provider time, latency, commercial use and exact fields require receipt.")],
       object [("source_id", string "OPTICODDS"),
         ("kind", string "ODDS_RESULTS_LINEUPS_INJURIES"),
         ("status", string "CANDIDATE_NOT_LICENSED_OR_CAPTURED"),
         ("official_docs",
          strings ["https://developer.opticodds.com/docs/odds-api-getting-started-guide"]),
         ("historical_backfill", string "PREGAME_ODDS_CANDIDATE_WITH_RETENTION_LIMIT"),
         ("live_use", string "SSE_CANDIDATE_AFTER_COMMERCIAL_AND_CLOCK_AUDIT"),
         ("notes", string "Do not treat an endpoint name as verified availability.")],
       object [("source_id", string "SPORTRADAR"),
         ("kind", string "PLAY_BY_PLAY_ROSTER_INJURY_AND_ODDS_PRODUCTS"),
         ("status", string "CANDIDATE_NOT_LICENSED_OR_CAPTURED"),
         ("official_docs", strings ["https://developer.sportradar.com/"]),
         ("historical_backfill", string "SPORT_AND_PRODUCT_SPECIFIC_UNKNOWN_UNTIL_CONTRACT"),
         ("live_use", string "CANDIDATE_AFTER_COMMERCIAL_AND_CLOCK_AUDIT"),
         ("notes",
          string "Product, league, timestamps, storage and trading use require verification.")],
       object [("source_id", string "PINNACLE_DIRECT"), ("kind", string "EXTERNAL_ODDS"),
         ("status", string "NOT_AVAILABLE_BY_DEFAULT_LEGAL_AUTH_REQUIRED"),
         ("official_docs", list []), ("historical_backfill", string "NO_DEFAULT_PUBLIC_ACCESS"),
         ("live_use", string "NO_DEFAULT_PUBLIC_ACCESS"),
         ("notes", string "No scraping or assumed access.")],
       object [("source_id", string "NOAA_NWS_NCEI"), ("kind", string "WEATHER_CONTROL"),
         ("status", string "PUBLIC_CANDIDATE_NOT_MAPPED"),
         ("official_docs",
          strings ["https://www.weather.gov/documentation/services-web-api",
                   "https://www.ncei.noaa.gov/support/access-data-service-api-user-documentation"]),
         ("historical_backfill", string "POSSIBLE_AFTER_VENUE_STATION_MAPPING"),
         ("live_use", string "SLOW_CONTROL_NOT_LOW_LATENCY_TRIGGER"),
         ("notes",
          string "Venue coordinates, roof state, QC delay and receive clock remain required.")]])]

/-! ### Counts -/

/-- A dictionary from keys to how often they occur. -/
abbrev Counts := List (PyValue × Nat)

/-- Count a key that is there already, or add it. -/
def Counts.add : Counts → PyValue → Counts
  | [], key             => [(key, 1)]
  | (k, n) :: rest, key => if k.eq key then (k, n + 1) :: rest else (k, n) :: Counts.add rest key

def tally (keys : List PyValue) : Counts := keys.foldl Counts.add []

/-- The counts as a JSON object, which their keys allow when all of them are texts. -/
def Counts.toValue (counts : Counts) : Option PyValue :=
  (counts.mapM fun (c : PyValue × Nat) => match c with
    | (str s, n) => some (s, int n)
    | _          => none).map dict

/-! ### The summary -/

structure Summary where
  totalCards : Nat
  familyCounts : Counts
  computedClassCounts : Counts
  targetClassCounts : Counts
  strategyEligibleNow : PyValue

/-- What can be a key of a dictionary. -/
def asKey (v : PyValue) : Raising PyValue := if v.hashable then .ok v else .error .typeError

/-- The keys a card is counted under. -/
def summaryKeys (card : PyValue) : Raising (PyValue × PyValue × PyValue) := do
  let family ← card.nestedItem "identity" "family_code"
  let computed ← card.nestedItem "classification" "computed_class"
  let target ← card.nestedItem "classification" "target_class"
  pure (← asKey family, ← asKey computed, ← asKey target)

def summaryForCards (cards : List PyValue) : Raising Summary := do
  let keys ← cards.mapM summaryKeys
  let eligible ← cards.mapM fun card => card.nestedItem "classification" "strategy_eligible"
  let eligibleNow ← sum eligible
  pure
    { totalCards := cards.length
      familyCounts := tally (keys.map fun k => k.1)
      computedClassCounts := tally (keys.map fun k => k.2.1)
      targetClassCounts := tally (keys.map fun k => k.2.2)
      strategyEligibleNow := eligibleNow }

def Summary.toValue (s : Summary) : Option PyValue := do
  pure (object [("total_cards", int s.totalCards), ("family_counts", ← s.familyCounts.toValue),
    ("computed_class_counts", ← s.computedClassCounts.toValue),
    ("target_class_counts", ← s.targetClassCounts.toValue),
    ("strategy_eligible_now", s.strategyEligibleNow),
    ("warning",
      string ("A registered action-shaped experiment is not evidence of profit and carries no " ++
               "permission to shadow, quote, trade or spend."))])

/-! ### Building a registry -/

def buildCards (sha256 : Bytes → String) : Raising (List Card) :=
  atomicIds.mapM fun atomicId => do
    let seed ← orRaise .keyError (cardSeeds.lookup atomicId)
    buildCard sha256 atomicId seed

/-- The members of a registry before it is signed. -/
def registryMembers (summary : PyValue) (cards : List PyValue) : List (String × PyValue) :=
  [("schema_version", string schemaVersion), ("registry_id", string registryId),
   ("generated_by", string "tools/experiment_registry.py"),
   ("scope",
    object [
      ("objective",
       string ("Convert the full Deep03 idea surface into falsifiable, action-linked, " ++
                "cost-complete PnL experiments.")),
      ("breadth_policy", string "REGISTER_ALL_106_BEFORE_DEPTH_RANKING"),
      ("strategy_definition",
       string ("No concrete action, venue, executable baseline and after-cost PnL definition " ++
                "means it is not a strategy.")),
      ("deployment_authority", string "NONE"), ("order_authority", string "NONE"),
      ("action_authority", string "NONE"),
      ("external_data_policy", string "MISSING_EXTERNAL_DATA_BLOCK_NO_IMPUTE")]),
   ("source_bindings", sourceBindings),
   ("classification_contract",
    object [
      ("classes", strings ["RESEARCH_QUESTION", "SIGNAL", "EXECUTABLE_STRATEGY", "BLOCKED"]),
      ("rule",
       string ("Target class records intent; computed class records present readiness. A " ++
                "critical missing input yields BLOCKED and preserves blocked_from. Unknown PnL " ++
                "is never zero."))]),
   ("pnl_contract",
    object [("primary", string "incremental pathwise NetPnL after all costs"),
      ("cash_authority", string "executable fills or separately authorized actual fills only"),
      ("diagnostic_only", strings ["mid return", "markout", "microprice", "spread opportunity"]),
      ("denominator_policy",
       string ("retain eligible no-trigger, no-fill and no-accept opportunities; report per " ++
                "opportunity, trigger, fill, contract, day and peak capital")),
      ("capacity_policy", string "no linear extrapolation beyond tested executable depth")]),
   ("external_source_catalog", externalSourceCatalog), ("summary", summary),
   ("experiments", list cards)]

/-- The registry that the seeds make. -/
def buildRegistry (sha256 : Bytes → String) : Raising PyValue := do
  let ids := cardSeeds.map fun e => e.1
  if ids ⊆ atomicIds ∧ atomicIds ⊆ ids then
    let seeds ← atomicIds.mapM fun id => orRaise .keyError (cardSeeds.lookup id)
    if (seeds.map fun s => (s.hypothesis, s.signal.trigger)).Nodup then
      let cards := (← buildCards sha256).map Card.toValue
      let summary ← summaryForCards cards
      -- the keys of the counts are texts
      let members := registryMembers (summary.toValue.getD null) cards
      let digest ← sha256Of sha256 (object members)
      return object (members ++ [("registry_sha256", string digest)])
    else throw .valueError
  else throw .valueError

end HftBot.Experiment
