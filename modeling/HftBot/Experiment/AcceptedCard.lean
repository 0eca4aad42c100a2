import HftBot.Experiment.Eligibility
import HftBot.Experiment.Pinned
import HftBot.Experiment.ProfileProperties

/-!
# The registry of the seeds is accepted

Every check holds of the cards that the seeds make. The checks that look at a profile only are read
off its tables, and those of the blockers follow from how they are merged.
-/

namespace HftBot.Experiment

open HftBot.Core PyValue

/-! ### Checks that hold -/

lemma expect_pure_eq_nil {b : Bool} {message : Message} :
    expect (pure b : Raising Bool) message = .ok [] ↔ b = true :=
  expect_eq_nil.trans pure_eq_ok

lemma isText_string {s t : String} : (string s).isText t = decide (s = t) := by
  rw [Bool.eq_iff_iff, isText_iff, string_inj, decide_eq_true_iff]

lemma truthy_string {s : String} : (string s).truthy = true ↔ s ≠ "" := by
  rw [string, truthy, decide_eq_true_iff, ne_eq, ne_eq, not_iff_not, text, List.map_eq_nil_iff,
    String.toList_eq_nil_iff]

lemma valueAt_of_field {v w : PyValue} {key : String} (h : v.field key = some w) :
    v.valueAt key = w := by
  rw [valueAt, h]
  rfl

lemma getIs_of_field {v : PyValue} {key s : String} (h : v.field key = some (string s)) :
    v.getIs key s = .ok true :=
  getIs_eq_true.2 ((valueAt_of_field h).symm ▸ isText_iff.2 rfl)

lemma itemIs_of_field {v : PyValue} {key s : String} (h : v.field key = some (string s)) :
    v.itemIs key s = .ok true :=
  itemIs_eq_true.2 ((valueAt_of_field h).symm ▸ isText_iff.2 rfl)

lemma getTruthy_of_field {v w : PyValue} {key : String} (h : v.field key = some w)
    (hw : w.truthy = true) : v.getTruthy key = .ok true :=
  getTruthy_eq_true.2 ((valueAt_of_field h).symm ▸ hw)

lemma itemTruthy_of_field {v w : PyValue} {key : String} (h : v.field key = some w)
    (hw : w.truthy = true) : v.itemTruthy key = .ok true :=
  itemTruthy_eq_true.2 ((valueAt_of_field h).symm ▸ hw)

lemma get_isIn_of_field {v : PyValue} {key s : String} {names : List String}
    (h : v.field key = some (string s)) (hs : s ∈ names) :
    (do (← v.get key).isIn names) = .ok true := by
  rw [get_isIn_eq_true (isDict_of_field h), valueAt_of_field h]
  exact isOneOf_iff.2 ⟨s, hs, rfl⟩

/-! ### Sections -/

/-- The sections of a card that is built. -/
def CardBody.asSections (body : CardBody) : Sections where
  identity := identityValue body.atomicId body.family
  action := actionValue body.profiles.action body.seed.signal.trigger
  venue := body.venue.toValue
  baseline := body.baseline.toValue
  pnl := body.pnl.toValue
  classification := body.classification.toValue
  costs := list (body.costs.map Cost.toValue)
  data := dataValue body.profiles.data body.data body.criticalGaps
  ext := body.external.toValue
  blockers := strings body.blockers
  hypothesis := hypothesisValue body.seed body.profiles.action body.hasAction
  signal := body.seed.signal.toValue
  currentResult := resultValue body.atomicId body.seed

/-! ### Members of sections -/

lemma hypothesis_field (seed : Seed) (profile : ActionProfile) (hasAction : Bool) :
    (hypothesisValue seed profile hasAction).field "mechanism" = some (string seed.hypothesis) := by
  rw [hypothesisValue]
  exact object_field (by simp [-String.reduceAppend]) List.mem_cons_self

/-- The statement begins with a text of its own. -/
lemma statement_field (seed : Seed) (profile : ActionProfile) (hasAction : Bool) :
    ∃ s, (hypothesisValue seed profile hasAction).field "falsifiable_statement" =
      some (string s) ∧ s ≠ "" := by
  rw [hypothesisValue]
  refine ⟨_, object_field (by simp [-String.reduceAppend])
    (List.mem_cons_of_mem _ List.mem_cons_self), ?_⟩
  cases hasAction <;> simp [-String.reduceAppend, String.append_eq_empty_iff]

lemma signal_truthy {seed : Seed} (h : Filled seed) :
    ∀ key ∈ signalKeys, seed.signal.toValue.getTruthy key = .ok true := by
  have hfield : ∀ {key s : String}, (key, string s) ∈ [("trigger", string seed.signal.trigger),
      ("direction_semantics", string seed.signal.directionSemantics),
      ("decision_clock", string seed.signal.decisionClock),
      ("forecast_horizon", string seed.signal.forecastHorizon),
      ("falsifier", string seed.signal.falsifier)] → s ≠ "" →
      seed.signal.toValue.getTruthy key = .ok true :=
    fun hmem hs => getTruthy_of_field (object_field (by simp) hmem) (truthy_string.2 hs)
  simp only [signalKeys, List.forall_mem_cons]
  refine ⟨hfield (by simp) h.trigger, hfield (by simp) h.directionSemantics,
    hfield (by simp) h.decisionClock, hfield (by simp) h.forecastHorizon,
    hfield (by simp) h.falsifier, fun _ h => absurd h List.not_mem_nil⟩

lemma action_fields (profile : ActionProfile) (trigger : String) :
    (actionValue profile trigger).field "action_type" =
        some (strings (actionProfile profile).actionType) ∧
      (actionValue profile trigger).field "profile_id" = some (string profile.name) ∧
      (actionValue profile trigger).field "current_execution_authority" = some (string "NONE") := by
  have hwf := (regular_action profile trigger).wellFormed
  exact ⟨field_of_wellFormed hwf (by simp), field_of_wellFormed hwf (by simp),
    field_of_wellFormed hwf (by simp)⟩

section

variable {body : CardBody}

lemma seedReport_asSections : seedReport body.asSections body = .ok [] := by
  have hprofile : body.asSections.action.field "profile_id" =
      some (string body.profiles.action.name) :=
    (action_fields _ _).2.1
  simp only [seedReport, allReports_eq_nil, List.forall_mem_cons, expect_pure_eq_nil]
  refine ⟨(regular_identity _ _).eq_self, expect_eq_nil.2 (getIs_of_field (hypothesis_field _ _ _)),
    (regular_signal _).eq_self, expect_eq_nil.2 (getIs_of_field hprofile),
    (regular_action _ _).eq_self, fun _ h => absurd h List.not_mem_nil⟩

lemma mem_all_venue (v : Venue) : v ∈ Venue.all := by cases v <;> decide

lemma mem_all_dependency (d : Dependency) : d ∈ Dependency.all := by cases d <;> decide

lemma contractReport_asSections (h : Filled body.seed) : contractReport body.asSections body =
    .ok [] := by
  obtain ⟨statement, hstatement, hne⟩ :=
    statement_field body.seed body.profiles.action body.hasAction
  have hhypothesis : both (body.asSections.hypothesis.itemTruthy "mechanism")
      (body.asSections.hypothesis.itemTruthy "falsifiable_statement") = .ok true :=
    both_eq_true.2 ⟨itemTruthy_of_field (hypothesis_field _ _ _) (truthy_string.2 h.hypothesis),
      itemTruthy_of_field hstatement (truthy_string.2 hne)⟩
  have hauthority : body.asSections.action.field "current_execution_authority" =
      some (string "NONE") :=
    (action_fields _ _).2.2
  have hvenue : body.asSections.venue.field "execution_venue" =
      some (string body.venue.executionVenue.name) :=
    object_field (by simp) (by simp)
  have hdependency : body.asSections.ext.field "dependency" =
      some (string body.external.dependency.name) :=
    object_field (by simp) (by simp)
  simp only [contractReport, allReports_eq_nil, List.forall_mem_append, List.forall_mem_cons,
    List.forall_mem_map, expect_eq_nil, pure_eq_ok]
  refine ⟨⟨⟨hhypothesis, fun _ h => absurd h List.not_mem_nil⟩, signal_truthy h⟩,
    get_isIn_of_field hvenue (List.mem_map_of_mem (mem_all_venue _)), getIs_of_field hauthority,
    (regular_venue _).eq_self, (regular_baseline _).eq_self, (regular_pnl _).eq_self,
    (regular_map regular_cost _).eq_self, (regular_external _).eq_self,
    get_isIn_of_field hdependency (List.mem_map_of_mem (mem_all_dependency _)),
    fun _ h => absurd h List.not_mem_nil⟩

end

lemma truthy_optional {s : Option String} : (optional s).truthy = true ↔ s.getD "" ≠ "" := by
  cases s with
  | none => exact iff_of_false Bool.false_ne_true fun h => h rfl
  | some s => exact truthy_string

lemma truthy_strings {ss : List String} : (strings ss).truthy = true ↔ ss ≠ [] := by
  cases ss with
  | nil => exact iff_of_false Bool.false_ne_true fun h => h rfl
  | cons s ss => exact iff_of_true rfl (List.cons_ne_nil s ss)

/-! ### Costs -/

lemma cost_fields (cost : Cost) :
    cost.toValue.field "type" = some (string cost.type.name) ∧
      cost.toValue.field "role" = some (string cost.role.name) ∧
      cost.toValue.field "status" = some (string cost.status.name) ∧
      cost.toValue.field "rule" = some (string cost.rule) :=
  ⟨object_field (by simp) (by simp), object_field (by simp) (by simp),
    object_field (by simp) (by simp), object_field (by simp) (by simp)⟩

lemma isOneOf_of_field {v : PyValue} {key s : String} {names : List String}
    (h : v.field key = some (string s)) (hs : s ∈ names) :
    (v.valueAt key).isOneOf names = true := by
  rw [valueAt_of_field h]
  exact isOneOf_iff.2 ⟨s, hs, rfl⟩

lemma costValid_toValue {cost : Cost} (h : cost.rule ≠ "") : CostValid cost.toValue := by
  obtain ⟨htype, hrole, hstatus, hrule⟩ := cost_fields cost
  refine ⟨rfl, isOneOf_of_field htype (List.mem_map_of_mem ?_),
    isOneOf_of_field hrole (List.mem_map_of_mem ?_),
    isOneOf_of_field hstatus (List.mem_map_of_mem ?_), ?_⟩
  · cases cost.type <;> decide
  · cases cost.role <;> decide
  · cases cost.status <;> decide
  · rw [valueAt_of_field hrule]
    exact truthy_string.2 h

lemma find_costType_name (type : CostType) :
    CostType.all.find? (fun t => (string type.name).isText t.name) = some type := by
  simp only [isText_string]
  cases type <;> decide +kernel

lemma costBlockerOf_toValue {cost : Cost} (h : cost.status = .missing →
      ∃ b, blockerByCostType cost.type = some b) : costBlockerOf cost.toValue =
    .ok (if cost.status = .missing then blockerByCostType cost.type else none) := by
  obtain ⟨htype, -, hstatus, -⟩ := cost_fields cost
  have hname : (string cost.status.name).isText CostStatus.missing.name =
      decide (cost.status = .missing) := by
    rw [isText_string]
    cases cost.status <;> decide
  refine bind_eq_ok.2 ⟨_, item_eq_ok.2 hstatus, ?_⟩
  rw [hname]
  by_cases hmissing : cost.status = .missing
  · obtain ⟨b, hb⟩ := h hmissing
    rw [if_pos (decide_eq_true hmissing), if_pos hmissing, hb]
    refine bind_eq_ok.2 ⟨_, item_eq_ok.2 htype, bind_eq_ok.2 ⟨_, rfl, bind_eq_ok.2 ⟨b, ?_, rfl⟩⟩⟩
    rw [find_costType_name, Option.bind_some, hb]
    rfl
  · rw [if_neg (by rwa [decide_eq_true_iff]), if_neg hmissing]
    rfl

lemma missingCostsBlocked_toValue {costs : List Cost} {blockers : List String}
    (h : ∀ cost ∈ costs, cost.status = .missing →
      ∃ b, blockerByCostType cost.type = some b ∧ b.name ∈ blockers) :
    missingCostsBlocked (costs.map Cost.toValue) (blockers.map string) = .ok true := by
  have hneeded : (costs.map Cost.toValue).mapM costBlockerOf = .ok (costs.map fun cost =>
      if cost.status = .missing then blockerByCostType cost.type else none) := by
    rw [mapM_eq_ok, List.forall₂_map_left_iff, List.forall₂_map_right_iff, List.forall₂_same]
    intro cost hcost
    refine costBlockerOf_toValue fun hmissing => ?_
    obtain ⟨b, hb, -⟩ := h cost hcost hmissing
    exact ⟨b, hb⟩
  have hpresent : (blockers.map string).mapM asKey = .ok (blockers.map string) := by
    rw [mapM_eq_ok, List.forall₂_map_left_iff, List.forall₂_map_right_iff, List.forall₂_same]
    exact fun _ _ => rfl
  refine bind_eq_ok.2 ⟨_, hneeded, bind_eq_ok.2 ⟨_, hpresent, pure_eq_ok.2 ?_⟩⟩
  refine List.all_eq_true.2 fun b hb => List.any_eq_true.2 ⟨string b.name, ?_, isText_iff.2 rfl⟩
  obtain ⟨needed, hmem, rfl⟩ := List.mem_filterMap.1 hb
  obtain ⟨cost, hcost, heq⟩ := List.mem_map.1 hmem
  split at heq
  · rename_i hmissing
    obtain ⟨b', hb', hblocked⟩ := h cost hcost hmissing
    obtain rfl := Option.some.inj (hb'.symm.trans heq)
    exact List.mem_map_of_mem hblocked
  · cases heq

lemma costsReport_toValue {expected : CardBody} {costs : List Cost} {blockers : List String}
    (hrule : ∀ cost ∈ costs, cost.rule ≠ "") (h : ∀ cost ∈ costs, cost.status = .missing →
      ∃ b, blockerByCostType cost.type = some b ∧ b.name ∈ blockers) :
    costsReport expected (costs.map Cost.toValue) (blockers.map string) = .ok [] := by
  have hvalid : (costs.map Cost.toValue).mapM costIsValid = .ok (costs.map fun _ => true) := by
    rw [mapM_eq_ok, List.forall₂_map_left_iff, List.forall₂_map_right_iff, List.forall₂_same]
    exact fun cost hcost => costIsValid_eq_true.2 (costValid_toValue (hrule cost hcost))
  refine bind_eq_ok.2 ⟨_, hvalid, ?_⟩
  rw [if_pos (by simp), allReports_eq_nil, List.forall_mem_append, List.forall_mem_singleton,
    List.forall_mem_map]
  refine ⟨fun v hv => expect_pure_eq_nil.2 ?_, expect_eq_nil.2 (missingCostsBlocked_toValue h)⟩
  obtain ⟨-, -, hv⟩ := List.mem_zipIdx hv
  simp [hv]

/-! ### Cards with and without an action -/

lemma classification_field (c : Classification) :
    c.toValue.field "strategy_eligible" = some (.bool c.strategyEligible) :=
  object_field (by simp [-String.reduceAppend]) (by simp [-String.reduceAppend])

section

variable {atomicId : String} {family : Char × String} {seed : Seed} {profiles : Profiles}
  {blockers : List String} {gaps : List Gap}

/-- A card without an action is no strategy. -/
lemma not_eligible_of_inaction (h : (actionProfile profiles.action).actionType = []) :
    (cardBody atomicId family seed profiles blockers gaps).classification.strategyEligible =
      false := by
  rw [← Bool.not_eq_true]
  intro heligible
  obtain ⟨-, hbase⟩ := eligible_iff.1 heligible
  exact (baseClass_eq_executable hbase).2.1 h

lemma inactionReport_asSections (h : (actionProfile profiles.action).actionType = []) :
    inactionReport (cardBody atomicId family seed profiles blockers gaps).asSections
      (cardBody atomicId family seed profiles blockers gaps) = .ok [] := by
  obtain ⟨hvenue, hpnl, hcosts⟩ := inaction_profile h
  have hvenue : (venueFor profiles.action).toValue.field "execution_venue" =
      some (string "NONE") := by
    have hfield : (venueFor profiles.action).toValue.field "execution_venue" =
        some (string (venueFor profiles.action).executionVenue.name) :=
      object_field (by simp) (by simp)
    rw [hfield, hvenue]
    rfl
  have hpnl : (pnlFor profiles.action).toValue.field "status" =
      some (string "NOT_DEFINED_NOT_A_STRATEGY") := by
    rw [← hpnl]
    exact field_of_wellFormed (regular_pnl _).wellFormed (by simp)
  have heligible : negated ((cardBody atomicId family seed profiles blockers
      gaps).classification.toValue.itemTruthy "strategy_eligible") = .ok true := by
    rw [negated_eq_ok, itemTruthy, item_eq_ok.2 (classification_field _),
      not_eligible_of_inaction h]
    rfl
  simp only [inactionReport, allReports_eq_nil, List.forall_mem_cons, expect_eq_nil]
  refine ⟨itemIs_of_field hvenue, itemIs_of_field hpnl, heligible, ?_,
    fun _ h => absurd h List.not_mem_nil⟩
  change (pure !(list ((costsFor profiles.action profiles.dependency).map Cost.toValue)).truthy :
    Raising Bool) = .ok true
  rw [hcosts]
  rfl

lemma actionFields_truthy {profile : ActionProfile} (trigger : String)
    (h : (actionProfile profile).actionType ≠ []) :
    ∀ key ∈ actionFields, (actionValue profile trigger).getTruthy key = .ok true := by
  obtain ⟨⟨hmapping, hside, hstyle, hprice, hquantity, htiming, hexit, hkill⟩, -⟩ :=
    action_profile h
  have hregistered : (registeredSignalToAction profile trigger).getD "" ≠ "" := by
    rw [registeredSignalToAction, if_neg h]
    simp [-String.reduceAppend, String.append_eq_empty_iff]
  have hwf := (regular_action profile trigger).wellFormed
  have hfield : ∀ {key : String} {s : Option String},
      (actionValue profile trigger).field key = some (optional s) → s.getD "" ≠ "" →
      (actionValue profile trigger).getTruthy key = .ok true :=
    fun h hs => getTruthy_of_field h (truthy_optional.2 hs)
  have hkinds : (actionValue profile trigger).field "kill_conditions" =
      some (strings (actionProfile profile).killConditions) :=
    field_of_wellFormed hwf (by simp)
  simp only [actionFields, List.forall_mem_cons]
  exact ⟨hfield (field_of_wellFormed hwf (by simp)) hmapping,
    hfield (field_of_wellFormed hwf (by simp)) hside,
    hfield (field_of_wellFormed hwf (by simp)) hstyle,
    hfield (field_of_wellFormed hwf (by simp)) hprice,
    hfield (field_of_wellFormed hwf (by simp)) hquantity,
    hfield (field_of_wellFormed hwf (by simp)) htiming,
    hfield (field_of_wellFormed hwf (by simp)) hexit,
    getTruthy_of_field hkinds (truthy_strings.2 hkill),
    hfield (field_of_wellFormed hwf (by simp)) hregistered, fun _ h => absurd h List.not_mem_nil⟩

lemma venue_field (profile : ActionProfile) : (venueFor profile).toValue.field "execution_venue" =
    some (string (venueFor profile).executionVenue.name) :=
  object_field (by simp) (by simp)

lemma hasVenue_of_action {profile : ActionProfile}
    (h : (actionProfile profile).actionType ≠ []) :
    negated ((venueFor profile).toValue.itemIs "execution_venue" "NONE") = .ok true := by
  have hvenue := (action_profile h).2.1
  have hname : ¬ (venueFor profile).executionVenue.name = "NONE" := by
    cases hv : (venueFor profile).executionVenue <;> first | exact absurd hv hvenue | decide
  rw [negated_eq_ok, itemIs, item_eq_ok.2 (venue_field profile)]
  refine pure_eq_ok.2 ?_
  rw [isText_string, decide_eq_false hname]
  rfl

lemma baseline_fields (b : Baseline) :
    b.toValue.field "baseline_id" = some (optional b.baselineId) ∧
      b.toValue.field "baseline_type" = some (string b.baselineType.name) ∧
      b.toValue.field "policy" = some (optional b.policy) ∧
      b.toValue.field "comparability" = some (optional b.comparability) :=
  ⟨object_field (by simp) (by simp), object_field (by simp) (by simp),
    object_field (by simp) (by simp), object_field (by simp) (by simp)⟩

lemma mem_all_baselineType (t : BaselineType) : t ∈ BaselineType.all := by cases t <;> decide

lemma hasBaseline_of_action {profile : ActionProfile}
    (h : (actionProfile profile).actionType ≠ []) :
    (do pure !((← (baselineFor profile).toValue.item "baseline_id").eq null) : Raising Bool) =
        .ok true ∧
      both (do
          (← (baselineFor profile).toValue.get "baseline_type").isIn
            (BaselineType.all.map BaselineType.name))
        (both ((baselineFor profile).toValue.getTruthy "policy")
          ((baselineFor profile).toValue.getTruthy "comparability")) = .ok true := by
  obtain ⟨-, -, hid, hpolicy, hcomparability⟩ := action_profile h
  obtain ⟨hidField, htype, hpolicyField, hcomparabilityField⟩ :=
    baseline_fields (baselineFor profile)
  refine ⟨bind_eq_ok.2 ⟨_, item_eq_ok.2 hidField, pure_eq_ok.2 ?_⟩, both_eq_true.2
    ⟨get_isIn_of_field htype (List.mem_map_of_mem (mem_all_baselineType _)), both_eq_true.2
      ⟨getTruthy_of_field hpolicyField (truthy_optional.2 hpolicy),
        getTruthy_of_field hcomparabilityField (truthy_optional.2 hcomparability)⟩⟩⟩
  obtain ⟨s, hs⟩ := Option.ne_none_iff_exists'.1 hid
  rw [hs]
  rfl

lemma hasPnl_of_action {profile : ActionProfile} (h : (actionProfile profile).actionType ≠ []) :
    both ((pnlFor profile).toValue.itemIs "basis" "PATHWISE_AFTER_COST")
      (allOf (pnlFor profile).toValue.getTruthy pnlFields) = .ok true := by
  obtain ⟨hbasis, hformula, hincremental, hzero, hcapacity, hdenominators, hmarkout⟩ := action_pnl h
  have hwf := (regular_pnl (pnlFor profile)).wellFormed
  have hbasis : (pnlFor profile).toValue.field "basis" = some (string "PATHWISE_AFTER_COST") := by
    rw [← hbasis]
    exact field_of_wellFormed hwf (by simp)
  have hfield : ∀ {key : String} {s : Option String},
      (pnlFor profile).toValue.field key = some (optional s) → s.getD "" ≠ "" →
      (pnlFor profile).toValue.getTruthy key = .ok true :=
    fun h hs => getTruthy_of_field h (truthy_optional.2 hs)
  have hdenominators : (pnlFor profile).toValue.getTruthy "denominators" = .ok true := by
    cases hd : (pnlFor profile).denominators with
    | none => exact absurd (by rw [hd]; rfl) hdenominators
    | some ss =>
      rw [hd] at hdenominators
      have hmem : (pnlFor profile).toValue.field "denominators" = some (strings ss) :=
        field_of_wellFormed hwf (by simp [member, hd])
      exact getTruthy_of_field hmem (truthy_strings.2 hdenominators)
  have hmarkout : (pnlFor profile).toValue.getTruthy "markout_rule" = .ok true := by
    cases hm : (pnlFor profile).markoutRule with
    | none => exact absurd (by rw [hm]; rfl) hmarkout
    | some s =>
      rw [hm] at hmarkout
      have hmem : (pnlFor profile).toValue.field "markout_rule" = some (string s) :=
        field_of_wellFormed hwf (by simp [member, hm])
      exact getTruthy_of_field hmem (truthy_string.2 hmarkout)
  refine both_eq_true.2 ⟨itemIs_of_field hbasis, allOf_eq_true.2 ?_⟩
  simp only [pnlFields, List.forall_mem_cons]
  exact ⟨hfield (field_of_wellFormed hwf (by simp)) hformula,
    hfield (field_of_wellFormed hwf (by simp)) hincremental, hmarkout, hdenominators,
    hfield (field_of_wellFormed hwf (by simp)) hzero,
    hfield (field_of_wellFormed hwf (by simp)) hcapacity, fun _ h => absurd h List.not_mem_nil⟩

lemma actionReport_asSections (h : (actionProfile profiles.action).actionType ≠ [])
    (hcosts : ∀ cost ∈ costsFor profiles.action profiles.dependency, cost.status = .missing →
      ∃ b, blockerByCostType cost.type = some b ∧ b.name ∈ blockers) :
    actionReport (cardBody atomicId family seed profiles blockers gaps).asSections
      (cardBody atomicId family seed profiles blockers gaps) = .ok [] := by
  obtain ⟨hid, htype⟩ := hasBaseline_of_action h
  simp only [actionReport, allReports_eq_nil, List.forall_mem_append, List.forall_mem_cons,
    List.forall_mem_map, expect_eq_nil]
  refine ⟨actionFields_truthy _ h, hasVenue_of_action h, hid, htype, hasPnl_of_action h, ?_,
    costsReport_toValue (rule_ne_empty _ _) hcosts, fun _ h => absurd h List.not_mem_nil⟩
  obtain ⟨cost, costs, hcons⟩ := List.exists_cons_of_ne_nil (action_costs h profiles.dependency)
  change (pure (list ((costsFor profiles.action profiles.dependency).map Cost.toValue)).truthy :
    Raising Bool) = .ok true
  rw [hcons]
  rfl

/-! ### Blockers -/

/-- Two more of the sources that are merged. -/
lemma mem_blockersOf (h : blockersOf atomicId seed profiles = .ok blockers) :
    (profiles.action ∈ childDependentActionProfiles →
      Blocker.confirmedChildStrategiesMissing.name ∈ blockers) ∧
    ((actionProfile profiles.action).actionType ≠ [] → profiles.dependency = .required →
      Blocker.instrumentMappingUnknown.name ∈ blockers) := by
  rw [blockersOf, expectedBlockers] at h
  obtain ⟨fromCosts, -, h⟩ := bind_eq_ok.1 h
  cases h
  refine ⟨fun hchild => ?_, fun haction hrequired => ?_⟩
  · refine mem_sortedSet.2 (List.mem_append_left _ (List.mem_map_of_mem ?_))
    simp only [List.mem_append, if_pos hchild]
    exact .inl (.inl (.inr List.mem_cons_self))
  · refine mem_sortedSet.2 (List.mem_append_left _ (List.mem_map_of_mem ?_))
    simp only [List.mem_append, if_pos (And.intro (decide_eq_true haction) hrequired)]
    exact .inl (.inr List.mem_cons_self)

lemma contains_strings {ss : List String} {s : String} (h : s ∈ ss) :
    (strings ss).contains s = .ok true :=
  congrArg Except.ok (List.any_eq_true.2 ⟨string s, List.mem_map_of_mem h, isText_iff.2 rfl⟩)

lemma not_contains_strings {ss : List String} {s : String} (h : s ∉ ss) :
    (strings ss).contains s = .ok false := by
  refine congrArg Except.ok (List.any_eq_false.2 fun v hv => ?_)
  obtain ⟨s', hs', rfl⟩ := List.mem_map.1 hv
  rw [isText_iff, string_inj]
  rintro rfl
  exact h hs'

lemma mem_all_blocker (b : Blocker) : b ∈ Blocker.all := by cases b <;> decide

lemma override_filled : ∀ e ∈ cardSpecificGapOverrides, e.2.1 ≠ "" ∧ e.2.2 ≠ "" := by
  decide +kernel

lemma remedy_filled (b : Blocker) : (blockerRemediationCatalog b).missing ≠ "" ∧
    (blockerRemediationCatalog b).acquisition ≠ "" := by
  cases b <;> decide +kernel

lemma gapOf_filled (atomicId : String) (b : Blocker) :
    (gapOf atomicId b).missingEvidence ≠ "" ∧ (gapOf atomicId b).acquisitionOrBuildPath ≠ "" := by
  rw [gapOf]
  cases h : cardSpecificGapOverrides.lookup (atomicId, b) with
  | none => exact remedy_filled b
  | some e => exact override_filled _ (mem_of_lookup h)

lemma gapIsComplete_toValue (atomicId : String) (b : Blocker) :
    gapIsComplete (gapOf atomicId b).toValue = .ok true := by
  obtain ⟨hmissing, hacquisition⟩ := gapOf_filled atomicId b
  have hwf := (regular_gap (gapOf atomicId b)).wellFormed
  exact both_eq_true.2
    ⟨getTruthy_of_field (field_of_wellFormed hwf (by simp)) (truthy_string.2 hmissing),
      both_eq_true.2
      ⟨getTruthy_of_field (field_of_wellFormed hwf (by simp)) (truthy_string.2 hacquisition),
        getIs_of_field (field_of_wellFormed hwf (by simp))⟩⟩

lemma eq_gapOf {names : List String} (h : names.mapM (gapContract atomicId) = .ok gaps) :
    ∀ gap ∈ gaps, ∃ b, gap = gapOf atomicId b := by
  have hgaps := mapM_eq_ok.1 h
  clear h
  induction hgaps with
  | nil => exact fun _ h => absurd h List.not_mem_nil
  | cons hgap _ ih =>
    refine List.forall_mem_cons.2 ⟨?_, ih⟩
    rw [gapContract] at hgap
    split at hgap
    · rename_i b _
      cases hgap
      exact ⟨b, rfl⟩
    · cases hgap

lemma gapsReport_asSections (h : blockers.mapM (gapContract atomicId) = .ok gaps) :
    gapsReport (cardBody atomicId family seed profiles blockers gaps).asSections
      (cardBody atomicId family seed profiles blockers gaps) = .ok [] := by
  have hdata : (cardBody atomicId family seed profiles blockers gaps).asSections.data.field
      "critical_gaps" = some (list (gaps.map Gap.toValue)) :=
    field_of_wellFormed (regular_data _ _ _).wellFormed (by simp [cardBody])
  have hnames : (gaps.map Gap.toValue).mapM (fun gap => gap.get "blocker") =
      .ok (gaps.map fun gap => string gap.blocker.name) := by
    rw [mapM_eq_ok, List.forall₂_map_left_iff, List.forall₂_map_right_iff, List.forall₂_same]
    intro gap _
    refine get_eq_ok.2 ⟨rfl, valueAt_of_field ?_⟩
    exact field_of_wellFormed (regular_gap gap).wellFormed (by simp)
  have hblockers : (gaps.map fun gap => string gap.blocker.name) = blockers.map string := by
    rw [← blocker_gaps h, List.map_map]
    rfl
  refine bind_eq_ok.2 ⟨_, getOr_eq_ok.2 ⟨rfl, by rw [hdata, Option.getD_some]⟩,
    bind_eq_ok.2 ⟨_, rfl,
    bind_eq_ok.2 ⟨_, hnames, ?_⟩⟩⟩
  simp only [allReports_eq_nil, List.forall_mem_cons]
  refine ⟨expect_pure_eq_nil.2 (eqList_strings.2 hblockers), expect_eq_nil.2 (allOf_eq_true.2 ?_),
    fun _ h => absurd h List.not_mem_nil⟩
  intro v hv
  obtain ⟨gap, hgap, rfl⟩ := List.mem_map.1 hv
  obtain ⟨b, rfl⟩ := eq_gapOf h gap hgap
  exact gapIsComplete_toValue atomicId b

lemma blockersReport_asSections (hgaps : blockers.mapM (gapContract atomicId) = .ok gaps)
    (hknown : ∀ b ∈ blockers, (Blocker.ofName b).isSome = true) :
    blockersReport (cardBody atomicId family seed profiles blockers gaps).asSections
      (cardBody atomicId family seed profiles blockers gaps) = .ok [] := by
  have hnames : ∀ b ∈ blockers, b ∈ Blocker.all.map Blocker.name := by
    intro b hb
    obtain ⟨c, hc⟩ := Option.isSome_iff_exists.1 (hknown b hb)
    rw [← name_of_byName hc]
    exact List.mem_map_of_mem (mem_all_blocker c)
  have hin : allOf (fun b => b.isIn (Blocker.all.map Blocker.name)) (blockers.map string) =
      .ok true := by
    refine allOf_eq_true.2 fun v hv => ?_
    obtain ⟨b, hb, rfl⟩ := List.mem_map.1 hv
    exact isIn_eq_true.2 (isOneOf_iff.2 ⟨b, hnames b hb, rfl⟩)
  simp only [blockersReport, allReports_eq_nil, List.forall_mem_cons]
  exact ⟨expect_eq_nil.2 hin, expect_pure_eq_nil.2 (regular_strings _).eq_self,
    expect_pure_eq_nil.2 (regular_data _ _ _).eq_self, gapsReport_asSections hgaps,
    expect_pure_eq_nil.2 (regular_classification _).eq_self, fun _ h => absurd h List.not_mem_nil⟩

/-! ### Data from outside and dates -/

lemma mappingVariable_mem (named : List String) :
    mappingVariable ∈ withClocksAndMapping named := by
  -- the mapping is the last of the three that are added
  have hlast : ∀ vs : List String,
      mappingVariable ∈ if mappingVariable ∈ vs then vs else vs ++ [mappingVariable] := by
    intro vs
    split
    · assumption
    · exact List.mem_append_right _ (List.mem_singleton_self _)
  exact hlast _

lemma external_fields (e : External) :
    e.toValue.field "dependency" = some (string e.dependency.name) ∧
      e.toValue.field "availability" = some (string e.availability) ∧
      e.toValue.field "missing_policy" = some (string e.missingPolicy) ∧
      e.toValue.field "required_variables" = some (strings e.requiredVariables) ∧
      e.toValue.field "blockers" = some (strings (e.blockers.map Blocker.name)) := by
  have hwf := (regular_external e).wellFormed
  exact ⟨field_of_wellFormed hwf (by simp), field_of_wellFormed hwf (by simp),
    field_of_wellFormed hwf (by simp), field_of_wellFormed hwf (by simp),
    field_of_wellFormed hwf (by simp)⟩

/-- A card with an action that needs data from outside pays for it. -/
lemma dataApi_mem {profile : ActionProfile} (h : (actionProfile profile).actionType ≠ []) :
    ∃ cost ∈ costsFor profile .required, cost.type = .dataApi := by
  cases profile <;> first | exact absurd rfl h | decide

lemma hasDataCost {costs : List Cost} (h : ∃ cost ∈ costs, cost.type = .dataApi) :
    anyOf (fun cost => cost.getIs "type" CostType.dataApi.name) (costs.map Cost.toValue) =
      .ok true := by
  have htype : ∀ v ∈ costs.map Cost.toValue, v.getIs "type" CostType.dataApi.name =
      .ok ((v.valueAt "type").isText CostType.dataApi.name) := by
    intro v hv
    obtain ⟨cost, -, rfl⟩ := List.mem_map.1 hv
    exact getIs_eq_ok.2 ⟨rfl, rfl⟩
  rw [anyOf_eq_any htype]
  obtain ⟨cost, hcost, hapi⟩ := h
  refine congrArg Except.ok (List.any_eq_true.2 ⟨_, List.mem_map_of_mem hcost, ?_⟩)
  rw [valueAt_of_field (cost_fields cost).1, hapi]
  exact isText_iff.2 rfl

lemma not_eligible_of_blocked (h : blockers ≠ []) :
    negated ((cardBody atomicId family seed profiles blockers gaps).classification.toValue.itemTruthy
      "strategy_eligible") = .ok true := by
  have hfalse : (cardBody atomicId family seed profiles blockers
      gaps).classification.strategyEligible = false := by
    rw [← Bool.not_eq_true]
    exact fun heligible => h (eligible_iff.1 heligible).1
  rw [negated_eq_ok, itemTruthy, item_eq_ok.2 (classification_field _), hfalse]
  rfl

lemma requiredReport_asSections (h : blockersOf atomicId seed profiles = .ok blockers)
    (hrequired : profiles.dependency = .required) :
    requiredReport (cardBody atomicId family seed profiles blockers gaps).asSections
      (cardBody atomicId family seed profiles blockers gaps)
      (decide ((actionProfile profiles.action).actionType ≠ [])) = .ok [] := by
  have hsports : Blocker.externalSportsDataMissing.name ∈ blockers := by
    have hexternal := (expectedBlockers_eq_ok h).1
    rw [hrequired] at hexternal
    exact hexternal _ (blocked_of_required atomicId)
  have hext : (cardBody atomicId family seed profiles blockers gaps).asSections.ext =
      (externalContract .required atomicId).toValue := by
    rw [← hrequired]
    rfl
  obtain ⟨-, havailability, hpolicy, hvariables, -⟩ :=
    external_fields (externalContract .required atomicId)
  have hmapping : (do
      (← (externalContract .required atomicId).toValue.getOr "required_variables"
        (list [])).contains mappingVariable) = .ok true := by
    refine bind_eq_ok.2 ⟨_, getOr_eq_ok.2 ⟨rfl, by rw [hvariables, Option.getD_some]⟩, ?_⟩
    exact contains_strings (mappingVariable_mem _)
  simp only [requiredReport, hext, allReports_eq_nil, List.forall_mem_append,
    List.forall_mem_cons, expect_eq_nil]
  refine ⟨⟨both_eq_true.2 ⟨itemIs_of_field havailability, itemIs_of_field hpolicy⟩,
    contains_strings hsports, not_eligible_of_blocked (List.ne_nil_of_mem hsports), hmapping,
    fun _ h => absurd h List.not_mem_nil⟩, ?_⟩
  split
  · rename_i haction
    have haction := of_decide_eq_true haction
    have hcost : ∃ cost ∈ costsFor profiles.action profiles.dependency, cost.type = .dataApi :=
      hrequired ▸ dataApi_mem haction
    simp only [List.forall_mem_cons]
    exact ⟨expect_eq_nil.2 (contains_strings ((mem_blockersOf h).2 haction hrequired)),
      expect_eq_nil.2 (hasDataCost hcost), fun _ h => absurd h List.not_mem_nil⟩
  · exact fun _ h => absurd h List.not_mem_nil

lemma optionalReport_asSections (hoptional : profiles.dependency = .optionalRefinement) :
    optionalReport (cardBody atomicId family seed profiles blockers gaps).asSections
      (cardBody atomicId family seed profiles blockers gaps) = .ok [] := by
  have hext : (cardBody atomicId family seed profiles blockers gaps).asSections.ext =
      (externalContract .optionalRefinement atomicId).toValue := by
    rw [← hoptional]
    rfl
  obtain ⟨-, havailability, hpolicy, -, hblockers⟩ :=
    external_fields (externalContract .optionalRefinement atomicId)
  have hnone : negated ((externalContract .optionalRefinement atomicId).toValue.itemTruthy
      "blockers") = .ok true := by
    rw [negated_eq_ok, itemTruthy, item_eq_ok.2 hblockers]
    rfl
  rw [optionalReport, hext, expect_eq_nil]
  exact both_eq_true.2 ⟨itemIs_of_field havailability, both_eq_true.2
    ⟨itemIs_of_field hpolicy, hnone⟩⟩

lemma isText_dependency {d e : Dependency} :
    (string d.name).isText e.name = decide (d = e) := by
  rw [isText_string]
  cases d <;> cases e <;> decide

lemma externalReport_asSections (h : blockersOf atomicId seed profiles = .ok blockers) :
    externalReport (cardBody atomicId family seed profiles blockers gaps).asSections
      (cardBody atomicId family seed profiles blockers gaps)
      (decide ((actionProfile profiles.action).actionType ≠ [])) = .ok [] := by
  have hdependency : (externalContract profiles.dependency atomicId).toValue.get "dependency" =
      .ok (string profiles.dependency.name) := by
    have hfield := (external_fields (externalContract profiles.dependency atomicId)).1
    rw [externalContract_dependency] at hfield
    exact get_eq_ok.2 ⟨rfl, valueAt_of_field hfield⟩
  refine bind_eq_ok.2 ⟨_, hdependency, ?_⟩
  rw [isText_dependency, isText_dependency]
  simp only [allReports_eq_nil, List.forall_mem_cons]
  refine ⟨?_, ?_, fun _ h => absurd h List.not_mem_nil⟩
  · split
    · rename_i hrequired
      exact requiredReport_asSections h (of_decide_eq_true hrequired)
    · rfl
  · split
    · rename_i hoptional
      exact optionalReport_asSections (of_decide_eq_true hoptional)
    · rfl

lemma data_fields (profile : DataProfile) (data : Data) (gaps : List Gap) :
    (dataValue profile data gaps).nested "can_compute_now" "signal_event" =
        some (string data.canComputeNow.signalEvent.name) ∧
      (dataValue profile data gaps).field "study_dates" =
        some (studyDates profile (string data.canComputeNow.signalEvent.name)) := by
  have hwf := (regular_data profile data gaps).wellFormed
  have hcompute : (dataValue profile data gaps).field "can_compute_now" =
      some data.canComputeNow.toValue :=
    field_of_wellFormed hwf (by simp)
  refine ⟨?_, field_of_wellFormed hwf (by simp)⟩
  rw [nested, hcompute]
  exact field_of_wellFormed (regular_canComputeNow _).wellFormed (by simp)

lemma studyDates_field (profile : DataProfile) (status : Estimable) : ∃ dates,
    (studyDates profile (string status.name)).field "eligible_for_current_signal_description" =
      some (strings dates) ∧ (status ≠ .yes → dates = []) := by
  have hwf := (regular_studyDates profile (regular_string status.name)).wellFormed
  refine ⟨_, field_of_wellFormed hwf (List.mem_cons_of_mem _ List.mem_cons_self), fun h => ?_⟩
  rw [if_neg]
  change ¬ (string status.name).isText "YES" = true
  rw [isText_string, decide_eq_true_iff]
  cases status <;> first | exact absurd rfl h | decide

lemma signalEvent_of_blocked (profile : DataProfile)
    (h : Blocker.missingSignalInput.name ∈ blockers) :
    (dataOf profile blockers).canComputeNow.signalEvent = .no := by
  rw [dataOf, if_pos h]

lemma datesReport_asSections :
    datesReport (cardBody atomicId family seed profiles blockers gaps).asSections
      (cardBody atomicId family seed profiles blockers gaps) = .ok [] := by
  obtain ⟨hstatus, hdates⟩ :=
    data_fields profiles.data (dataOf profiles.data blockers) gaps
  obtain ⟨dates, heligible, hnone⟩ := studyDates_field profiles.data
    (dataOf profiles.data blockers).canComputeNow.signalEvent
  refine bind_eq_ok.2 ⟨_, nestedItem_eq_ok.2 hstatus, ?_⟩
  simp only [allReports_eq_nil, List.forall_mem_cons]
  refine ⟨expect_eq_nil.2 (bind_eq_ok.2 ⟨_, get_eq_ok.2 ⟨rfl, valueAt_of_field hdates⟩,
    pure_eq_ok.2 (regular_studyDates _ (regular_string _)).eq_self⟩), ?_, ?_,
    fun _ h => absurd h List.not_mem_nil⟩
  · split
    · rfl
    · rename_i hyes
      have hyes : (dataOf profiles.data blockers).canComputeNow.signalEvent ≠ .yes := by
        intro h
        rw [h] at hyes
        exact hyes (isText_iff.2 rfl)
      have hnested : (dataValue profiles.data (dataOf profiles.data blockers) gaps).nested
          "study_dates" "eligible_for_current_signal_description" = some (strings []) := by
        rw [nested, hdates, Option.bind_some, heligible, hnone hyes]
      exact expect_eq_nil.2 (negated_eq_ok.2 (nestedTruthy_eq_ok.2 ⟨_, hnested, rfl⟩))
  · refine expect_eq_nil.2 ?_
    by_cases hmissing : Blocker.missingSignalInput.name ∈ blockers
    · refine bind_eq_ok.2 ⟨true, contains_strings hmissing, ?_⟩
      rw [if_pos rfl, signalEvent_of_blocked _ hmissing]
      exact pure_eq_ok.2 (isText_iff.2 rfl)
    · exact bind_eq_ok.2 ⟨false, not_contains_strings hmissing, rfl⟩

lemma resultReport_asSections {body : CardBody} : resultReport body.asSections body = .ok [] := by
  have hwf := (regular_result body.atomicId body.seed).wellFormed
  have hobserved : (resultValue body.atomicId body.seed).field "observed_signal" =
      some (observedSignal body.atomicId) :=
    field_of_wellFormed hwf (by simp [-String.reduceAppend])
  simp only [resultReport, allReports_eq_nil, List.forall_mem_cons, expect_eq_nil]
  refine ⟨bind_eq_ok.2 ⟨_, get_eq_ok.2 ⟨rfl, valueAt_of_field hobserved⟩,
    pure_eq_ok.2 (regular_observedSignal _).eq_self⟩, both_eq_true.2 ⟨?_, ?_⟩,
    both_eq_true.2 ⟨?_, ?_⟩, fun _ h => absurd h List.not_mem_nil⟩
  · exact getIs_of_field (field_of_wellFormed hwf (by simp [-String.reduceAppend]))
  · exact getIs_of_field (field_of_wellFormed hwf (by simp [-String.reduceAppend]))
  · exact itemIs_of_field (field_of_wellFormed hwf (by simp [-String.reduceAppend]))
  · exact itemIs_of_field (field_of_wellFormed hwf (by simp [-String.reduceAppend]))

end

/-! ### Cards -/

section

variable {env : Environment} {card : Card}

/-- The members of a card, by their names. -/
lemma sections_fields (card : Card) : ∀ m ∈ card.sections, card.toValue.field m.1 = some m.2 :=
  fun _ hm => card_field card hm

lemma hasSections_card (card : Card) : hasSections card.toValue = true := by
  have hfields := sections_fields card
  simp only [CardBody.sections, List.forall_mem_cons] at hfields
  obtain ⟨-, h1, h2, h3, h4, h5, h6, h7, h8, h9, h10, h11, h12, h13, h14, -⟩ := hfields
  simp only [hasSections, requiredSections, List.all_cons, List.all_nil, h1, h2, h3, h4, h5, h6, h7,
    h8, h9, h10, h11, h12, h13, h14, Option.isSome_some, Bool.and_self]

lemma sectionsAt_card (card : Card) : sectionsAt card.toValue = card.toCardBody.asSections := by
  have hfields := sections_fields card
  simp only [CardBody.sections, List.forall_mem_cons] at hfields
  obtain ⟨h0, h1, h2, h3, h4, h5, h6, h7, h8, h9, h10, h11, h12, h13, h14, -⟩ := hfields
  simp only [sectionsAt, identityAt, valueAt, h0, h1, h2, h3, h4, h5, h6, h7, h8, h9, h10, h12, h13,
    Option.getD_some]
  rfl

lemma shaped_asSections (body : CardBody) : Shaped body.asSections :=
  ⟨rfl, rfl, rfl, rfl, rfl, rfl, rfl, rfl⟩

lemma bodyReport_of_buildCard {atomicId : String} {seed : Seed}
    (hseed : (atomicId, seed) ∈ cardSeeds)
    (hcard : buildCard env.sha256 atomicId seed = .ok card) :
    bodyReport env card.toValue card.toCardBody.asSections atomicId seed = .ok [] := by
  obtain ⟨profiles, blockers, gaps, family, digest, hprofiles, hblockers, hgaps, hfamily, -,
    hbody⟩ := buildCard_eq_ok.1 hcard
  have hknown := isSome_of_mem_blockers hblockers (isSome_extraBlockers _ hseed)
  have heq : card.toCardBody = cardBody atomicId family seed profiles blockers gaps := by
    rw [hbody]
  have haction : (cardBody atomicId family seed profiles blockers gaps).asSections.action.getTruthy
      "action_type" = .ok (decide ((actionProfile profiles.action).actionType ≠ [])) := by
    refine getTruthy_eq_ok.2 ⟨rfl, ?_⟩
    have htype : (cardBody atomicId family seed profiles blockers gaps).asSections.action.valueAt
        "action_type" = strings (actionProfile profiles.action).actionType :=
      valueAt_of_field (action_fields _ _).1
    rw [htype, Bool.eq_iff_iff, truthy_strings, decide_eq_true_iff]
  rw [heq]
  refine bind_eq_ok.2 ⟨profiles, hprofiles, bind_eq_ok.2 ⟨blockers, hblockers, bind_eq_ok.2
    ⟨gaps, hgaps, bind_eq_ok.2 ⟨family, hfamily, bind_eq_ok.2 ⟨_, haction, ?_⟩⟩⟩⟩⟩
  simp only [allReports_eq_nil, List.forall_mem_cons]
  refine ⟨seedReport_asSections, contractReport_asSections (filled_of_mem _ hseed), ?_,
    blockersReport_asSections hgaps hknown, externalReport_asSections hblockers,
    datesReport_asSections, resultReport_asSections, ?_, fun _ h => absurd h List.not_mem_nil⟩
  · split
    · rename_i h
      have hcosts := (expectedBlockers_eq_ok hblockers).2.2 h
      exact actionReport_asSections (of_decide_eq_true h) hcosts
    · rename_i h
      exact inactionReport_asSections (not_not.1 (by rwa [decide_eq_true_iff] at h))
  · exact expect_eq_nil.2 (bind_eq_ok.2 ⟨card, hcard, pure_eq_ok.2 (regular_card card).eq_self⟩)

/-- A card that is built has no errors. -/
theorem cardReport_of_buildCard {atomicId : String} {seed : Seed}
    (hfound : (cardSeeds.find? fun e => (string atomicId).isText e.1) = some (atomicId, seed))
    (hcard : buildCard env.sha256 atomicId seed = .ok card) :
    cardReport env card.toValue = .ok [] := by
  have hseed := List.mem_of_find?_eq_some hfound
  have hidentity : card.toValue.field "identity" =
      some (identityValue card.atomicId card.family) :=
    card_field card List.mem_cons_self
  have hid : (identityValue card.atomicId card.family).field "experiment_id" =
      some (string atomicId) := by
    obtain ⟨profiles, blockers, gaps, family, digest, -, -, -, -, -, rfl⟩ := buildCard_eq_ok.1 hcard
    exact field_of_wellFormed (regular_identity _ _).wellFormed List.mem_cons_self
  have hsections : sectionsOf card.toValue = .ok card.toCardBody.asSections := by
    rw [sectionsOf_eq_ok rfl (hasSections_card card), sectionsAt_card]
  have hdict : card.toValue.isDict = true := rfl
  rw [cardReport, if_pos hdict]
  refine bind_eq_ok.2 ⟨_, getOr_eq_ok.2 ⟨rfl, by rw [hidentity, Option.getD_some]⟩, bind_eq_ok.2
    ⟨_, getOr_eq_ok.2 ⟨rfl, by rw [hid, Option.getD_some]⟩, ?_⟩⟩
  rw [if_pos (hasSections_card card)]
  simp only [allReports_eq_nil, List.forall_mem_cons]
  refine ⟨expect_eq_nil.2 (signed_eq_true.2 (signed_buildCard hcard)), ?_,
    fun _ h => absurd h List.not_mem_nil⟩
  refine bind_eq_ok.2 ⟨some (atomicId, seed), seedOf_eq_ok.2 ⟨rfl, hfound⟩, ?_⟩
  refine bind_eq_ok.2 ⟨_, hsections, ?_⟩
  rw [if_pos (shapes_iff.2 (shaped_asSections _))]
  exact bodyReport_of_buildCard hseed hcard

end

end HftBot.Experiment
