import HftBot.Experiment.Readable

/-!
# When the checks of a card return

The conditions are section by section, as the checks are. None of them depends on the seed: a
section is compared with what the seed calls for only after its members have been read.
-/

namespace HftBot.Experiment

open HftBot.Core PyValue

/-! ### Costs -/

abbrev costTypeNames : List String := CostType.all.map CostType.name

abbrev costRoleNames : List String := CostRole.all.map CostRole.name

abbrev costStatusNames : List String := CostStatus.all.map CostStatus.name

/-- The next key of a cost is looked up while the ones before it are known. -/
def CostReadable (cost : PyValue) : Prop :=
  cost.isDict = true → (cost.valueAt "type").hashable = true ∧
    ((cost.valueAt "type").isOneOf costTypeNames = true →
      (cost.valueAt "role").hashable = true ∧
      ((cost.valueAt "role").isOneOf costRoleNames = true →
        (cost.valueAt "status").hashable = true))

structure CostValid (cost : PyValue) : Prop where
  dict : cost.isDict = true
  type : (cost.valueAt "type").isOneOf costTypeNames = true
  role : (cost.valueAt "role").isOneOf costRoleNames = true
  status : (cost.valueAt "status").isOneOf costStatusNames = true
  rule : (cost.valueAt "rule").truthy = true

/-- The costs can be read, and when all of them are valid, so can their blockers: crossing the
spread has none. -/
structure CostsReadable (costs blockers : List PyValue) : Prop where
  cost : ∀ cost ∈ costs, CostReadable cost
  crossing : (∀ cost ∈ costs, CostValid cost) → ∀ cost ∈ costs,
    (cost.valueAt "status").isText CostStatus.missing.name = true →
      (cost.valueAt "type").isText CostType.spreadCrossing.name = false
  blockers : (∀ cost ∈ costs, CostValid cost) → ∀ blocker ∈ blockers, blocker.hashable = true

lemma returns_get_isIn {v : PyValue} {key : String} {names : List String} (hv : v.isDict = true) :
    Returns (do (← v.get key).isIn names) ↔ (v.valueAt key).hashable = true := by
  rw [returns_get_bind, and_iff_right hv, returns_isIn]

lemma get_isIn_eq_true {v : PyValue} {key : String} {names : List String} (hv : v.isDict = true) :
    (do (← v.get key).isIn names) = .ok true ↔ (v.valueAt key).isOneOf names = true := by
  rw [bind_eq_ok]
  constructor
  · rintro ⟨w, hw, h⟩
    obtain ⟨-, rfl⟩ := get_eq_ok.1 hw
    exact isIn_eq_true.1 h
  · exact fun h => ⟨_, get_eq_ok.2 ⟨hv, rfl⟩, isIn_eq_true.2 h⟩

lemma returns_costIsValid {cost : PyValue} : Returns (costIsValid cost) ↔ CostReadable cost := by
  rw [costIsValid, returns_both, and_iff_right (returns_pure _), pure_eq_ok]
  refine imp_congr_right fun hcost => ?_
  rw [returns_both, returns_get_isIn hcost, get_isIn_eq_true hcost]
  refine and_congr_right fun _ => imp_congr_right fun _ => ?_
  rw [returns_both, returns_get_isIn hcost, get_isIn_eq_true hcost]
  refine and_congr_right fun _ => imp_congr_right fun _ => ?_
  rw [returns_both, returns_get_isIn hcost, and_iff_left_iff_imp]
  exact fun _ _ => returns_getTruthy.2 hcost

lemma costIsValid_eq_true {cost : PyValue} : costIsValid cost = .ok true ↔ CostValid cost := by
  rw [costIsValid, both_eq_true, pure_eq_ok]
  constructor
  · rintro ⟨hdict, h⟩
    simp only [both_eq_true, get_isIn_eq_true hdict, getTruthy_eq_true] at h
    exact ⟨hdict, h.1, h.2.1, h.2.2.1, h.2.2.2⟩
  · rintro ⟨hdict, htype, hrole, hstatus, hrule⟩
    simp only [both_eq_true, get_isIn_eq_true hdict, getTruthy_eq_true]
    exact ⟨hdict, htype, hrole, hstatus, hrule⟩

/-- A type is found under its own name only. -/
lemma find_costType {type : PyValue} (h : type.isOneOf costTypeNames = true) :
    ∃ t, CostType.all.find? (fun t => type.isText t.name) = some t ∧ type = string t.name := by
  rw [isOneOf, List.any_map, List.any_eq_true] at h
  obtain ⟨t, ht⟩ := Option.isSome_iff_exists.1 (List.find?_isSome.2 h)
  exact ⟨t, ht, isText_iff.1 (List.find?_some (p := fun t : CostType => type.isText t.name) ht)⟩

lemma exists_blockerByCostType {t : CostType} :
    (∃ b, blockerByCostType t = some b) ↔ t.name ≠ CostType.spreadCrossing.name := by
  cases t <;> simp [blockerByCostType, CostType.name]

lemma returns_costBlockerOf {cost : PyValue} (h : CostValid cost) :
    Returns (costBlockerOf cost) ↔
      ((cost.valueAt "status").isText CostStatus.missing.name = true →
        (cost.valueAt "type").isText CostType.spreadCrossing.name = false) := by
  obtain ⟨t, ht, htype⟩ := find_costType h.type
  have hstatus : cost.item "status" = .ok (cost.valueAt "status") := item_of_isOneOf h.status
  have hitem : cost.item "type" = .ok (cost.valueAt "type") := item_of_isOneOf h.type
  have hkey : asKey (cost.valueAt "type") = .ok (cost.valueAt "type") := by
    rw [htype]
    rfl
  rw [costBlockerOf, returns_bind_of_eq hstatus]
  cases hmissing : (cost.valueAt "status").isText CostStatus.missing.name with
  | false => exact iff_of_true (returns_pure _) fun h => by cases h
  | true =>
    rw [if_pos rfl, returns_bind_of_eq hitem, returns_bind_of_eq hkey, ht, imp_iff_right rfl,
      returns_map, ← Bool.not_eq_true, isText_iff, htype, string_inj, ← ne_eq,
      ← exists_blockerByCostType]
    exact exists_congr fun b => orRaise_eq_ok

lemma returns_asKey {v : PyValue} : Returns (asKey v) ↔ v.hashable = true := by
  rw [asKey]
  split
  · rename_i h
    exact iff_of_true (returns_ok _) h
  · rename_i h
    exact iff_of_false (not_returns_error _) h

lemma returns_missingCostsBlocked {costs blockers : List PyValue} :
    Returns (missingCostsBlocked costs blockers) ↔
      (∀ cost ∈ costs, Returns (costBlockerOf cost)) ∧ ∀ b ∈ blockers, b.hashable = true := by
  rw [missingCostsBlocked, returns_bind, ← returns_mapM]
  constructor
  · rintro ⟨needed, hneeded, h⟩
    exact ⟨⟨needed, hneeded⟩, fun b hb => returns_asKey.1 (returns_mapM.1 (returns_map.1 h) b hb)⟩
  · rintro ⟨⟨needed, hneeded⟩, h⟩
    exact ⟨needed, hneeded, returns_map.2 (returns_mapM.2 fun b hb => returns_asKey.2 (h b hb))⟩

lemma all_of_mapM_eq_ok {p : PyValue → Raising Bool} {xs : List PyValue} {bs : List Bool}
    (h : xs.mapM p = .ok bs) : bs.all id = true ↔ ∀ x ∈ xs, p x = .ok true := by
  induction mapM_eq_ok.1 h with
  | nil => exact iff_of_true rfl fun _ h => absurd h List.not_mem_nil
  | @cons x b xs bs hx hxs ih =>
    rw [List.all_cons, Bool.and_eq_true, List.forall_mem_cons, ih (mapM_eq_ok.2 hxs), hx]
    exact and_congr_left' pure_eq_ok.symm

lemma returns_costsReport {expected : CardBody} {costs blockers : List PyValue} :
    Returns (costsReport expected costs blockers) ↔ CostsReadable costs blockers := by
  have hrest : ∀ valid : List Bool, costs.mapM costIsValid = .ok valid →
      (Returns (allReports (valid.zipIdx.map (fun v => expect (pure v.1)
        [Piece.shown (string expected.atomicId), .text ": invalid cost contract at index ",
          .number v.2]) ++
        if valid.all id then
          [expect (missingCostsBlocked costs blockers) (aboutCard expected.atomicId
            ": missing cost is not represented by a critical blocker")]
        else [])) ↔
      ((∀ cost ∈ costs, CostValid cost) → Returns (missingCostsBlocked costs blockers))) := by
    intro valid hvalid
    simp only [← costIsValid_eq_true]
    rw [← all_of_mapM_eq_ok hvalid]
    simp only [returns_allReports, List.forall_mem_append, List.forall_mem_map, returns_expect,
      returns_pure, implies_true, true_and]
    cases valid.all id with
    | false => exact iff_of_true (fun _ h => absurd h List.not_mem_nil) fun h => by cases h
    | true => rw [if_pos rfl, List.forall_mem_singleton, returns_expect, imp_iff_right rfl]
  rw [costsReport, returns_bind]
  constructor
  · rintro ⟨valid, hvalid, h⟩
    have hcosts := (hrest valid hvalid).1 h
    refine ⟨fun cost hc => returns_costIsValid.1 (returns_mapM.1 ⟨valid, hvalid⟩ cost hc),
      fun hall cost hc => ?_, fun hall => (returns_missingCostsBlocked.1 (hcosts hall)).2⟩
    have hblocker := (returns_missingCostsBlocked.1 (hcosts hall)).1 cost hc
    exact (returns_costBlockerOf (hall cost hc)).1 hblocker
  · rintro ⟨hcost, hcrossing, hblockers⟩
    obtain ⟨valid, hvalid⟩ := returns_mapM.2 fun cost hc => returns_costIsValid.2 (hcost cost hc)
    refine ⟨valid, hvalid, (hrest valid hvalid).2 fun hall => returns_missingCostsBlocked.2 ?_⟩
    refine ⟨fun cost hc => ?_, hblockers hall⟩
    exact (returns_costBlockerOf (hall cost hc)).2 (hcrossing hall cost hc)

/-! ### Sections -/

/-- The eight sections that are checked are of the kind they have to be of. -/
structure Shaped (s : Sections) : Prop where
  action : s.action.isDict = true
  venue : s.venue.isDict = true
  baseline : s.baseline.isDict = true
  pnl : s.pnl.isDict = true
  costs : s.costs.isList = true
  data : s.data.isDict = true
  ext : s.ext.isDict = true
  blockers : s.blockers.isList = true

structure ContractReadable (s : Sections) : Prop where
  mechanism : (s.hypothesis.field "mechanism").isSome = true
  statement : (s.hypothesis.valueAt "mechanism").truthy = true →
    (s.hypothesis.field "falsifiable_statement").isSome = true
  signal : s.signal.isDict = true
  venue : (s.venue.valueAt "execution_venue").hashable = true
  dependency : (s.ext.valueAt "dependency").hashable = true

structure InactionReadable (s : Sections) : Prop where
  venue : (s.venue.field "execution_venue").isSome = true
  pnl : (s.pnl.field "status").isSome = true
  classification : (s.classification.field "strategy_eligible").isSome = true

structure ActionReadable (s : Sections) : Prop where
  venue : (s.venue.field "execution_venue").isSome = true
  baseline : (s.baseline.field "baseline_id").isSome = true
  baselineType : (s.baseline.valueAt "baseline_type").hashable = true
  pnl : (s.pnl.field "basis").isSome = true
  costs : CostsReadable (itemsOf s.costs) (itemsOf s.blockers)

/-- A blocker is looked up while the ones before it are known, and every gap is an object. -/
structure BlockersReadable (s : Sections) : Prop where
  blockers : ∀ before blocker after, itemsOf s.blockers = before ++ blocker :: after →
    (∀ b ∈ before, b.isOneOf (Blocker.all.map Blocker.name) = true) → blocker.hashable = true
  gaps : ∃ gaps, ((s.data.field "critical_gaps").getD (list [])).elements = .ok gaps ∧
    ∀ gap ∈ gaps, gap.isDict = true

/-- The type of a cost is looked up until one is the cost of data. -/
structure RequiredReadable (s : Sections) : Prop where
  availability : (s.ext.field "availability").isSome = true
  missingPolicy : (s.ext.valueAt "availability").isText "MISSING" = true →
    (s.ext.field "missing_policy").isSome = true
  classification : (s.classification.field "strategy_eligible").isSome = true
  mapping : ((s.ext.field "required_variables").getD (list [])).isContainer = true
  costs : (s.action.valueAt "action_type").truthy = true →
    ∀ before cost after, itemsOf s.costs = before ++ cost :: after →
      (∀ c ∈ before, c.isDict = true ∧ (c.valueAt "type").isText CostType.dataApi.name = false) →
      cost.isDict = true

structure OptionalReadable (s : Sections) : Prop where
  availability : (s.ext.field "availability").isSome = true
  missingPolicy : (s.ext.valueAt "availability").isText "MISSING_OPTIONAL_REFINEMENT" = true →
    (s.ext.field "missing_policy").isSome = true
  blockers : (s.ext.valueAt "availability").isText "MISSING_OPTIONAL_REFINEMENT" = true →
    (s.ext.valueAt "missing_policy").isText "DO_NOT_IMPUTE_CORE_MAY_RUN_WITHOUT_FIELD" = true →
      (s.ext.field "blockers").isSome = true

def DatesReadable (s : Sections) : Prop :=
  ∃ status, s.data.nested "can_compute_now" "signal_event" = some status ∧
    (status.isText Estimable.yes.name = false →
      (s.data.nested "study_dates" "eligible_for_current_signal_description").isSome = true)

structure ResultReadable (s : Sections) : Prop where
  strategy : (s.currentResult.field "strategy_pnl_claim").isSome = true
  live : (s.currentResult.valueAt "strategy_pnl_claim").isText "NONE" = true →
    (s.currentResult.field "live_pnl_claim").isSome = true

structure BodyReadable (s : Sections) : Prop where
  contract : ContractReadable s
  action : (s.action.valueAt "action_type").truthy = true → ActionReadable s
  inaction : (s.action.valueAt "action_type").truthy = false → InactionReadable s
  blockers : BlockersReadable s
  required : (s.ext.valueAt "dependency").isText Dependency.required.name = true →
    RequiredReadable s
  optional : (s.ext.valueAt "dependency").isText Dependency.optionalRefinement.name = true →
    OptionalReadable s
  dates : DatesReadable s
  result : ResultReadable s

section

variable {s : Sections} {expected : CardBody}

lemma returns_seedReport (h : Shaped s) :
    Returns (seedReport s expected) ↔ s.hypothesis.isDict = true := by
  simp only [seedReport, returns_allReports_cons, returns_allReports_nil, returns_expect,
    returns_pure, returns_getIs, h.action, true_and, and_true]

lemma returns_contractReport (h : Shaped s) :
    Returns (contractReport s expected) ↔ ContractReadable s := by
  simp only [contractReport, returns_allReports_append, returns_allReports_map,
    returns_allReports_cons, returns_allReports_nil, returns_expect, returns_both,
    returns_itemTruthy, itemTruthy_eq_true, returns_getTruthy, returns_get_isIn h.venue,
    returns_get_isIn h.ext, returns_getIs, h.action, returns_pure, true_and, and_true]
  constructor
  · rintro ⟨⟨⟨hmechanism, hstatement⟩, hsignal⟩, hvenue, hdependency⟩
    exact ⟨hmechanism, hstatement, hsignal "trigger" List.mem_cons_self, hvenue, hdependency⟩
  · rintro ⟨hmechanism, hstatement, hsignal, hvenue, hdependency⟩
    exact ⟨⟨⟨hmechanism, hstatement⟩, fun _ _ => hsignal⟩, hvenue, hdependency⟩

lemma returns_inactionReport : Returns (inactionReport s expected) ↔ InactionReadable s := by
  simp only [inactionReport, returns_allReports_cons, returns_allReports_nil, returns_expect,
    returns_negated, returns_itemIs, returns_itemTruthy, returns_pure, and_true]
  constructor
  · rintro ⟨hvenue, hpnl, hclassification⟩
    exact ⟨hvenue, hpnl, hclassification⟩
  · rintro ⟨hvenue, hpnl, hclassification⟩
    exact ⟨hvenue, hpnl, hclassification⟩

lemma returns_actionReport (h : Shaped s) :
    Returns (actionReport s expected) ↔ ActionReadable s := by
  have hpolicy : Returns (both (s.baseline.getTruthy "policy")
      (s.baseline.getTruthy "comparability")) :=
    returns_both.2 ⟨returns_getTruthy.2 h.baseline, fun _ => returns_getTruthy.2 h.baseline⟩
  have hfields : Returns (allOf s.pnl.getTruthy pnlFields) :=
    returns_allOf.2 fun _ _ _ _ _ => returns_getTruthy.2 h.pnl
  simp only [actionReport, returns_allReports_append, returns_allReports_map,
    returns_allReports_cons, returns_allReports_nil, returns_expect, returns_negated,
    returns_map, returns_both_of_right hpolicy, returns_both_of_right hfields, returns_itemIs,
    returns_getTruthy, returns_item, returns_get_isIn h.baseline, returns_pure,
    returns_costsReport, h.action, implies_true, true_and, and_true]
  constructor
  · rintro ⟨hvenue, hbaseline, htype, hpnl, hcosts⟩
    exact ⟨hvenue, hbaseline, htype, hpnl, hcosts⟩
  · rintro ⟨hvenue, hbaseline, htype, hpnl, hcosts⟩
    exact ⟨hvenue, hbaseline, htype, hpnl, hcosts⟩

lemma returns_gapIsComplete {gap : PyValue} (hgap : gap.isDict = true) :
    Returns (gapIsComplete gap) := by
  simp only [gapIsComplete, returns_both, returns_getTruthy, returns_getIs, hgap, implies_true,
    and_self]

lemma returns_gapsReport (h : Shaped s) : Returns (gapsReport s expected) ↔
    ∃ gaps, ((s.data.field "critical_gaps").getD (list [])).elements = .ok gaps ∧
      ∀ gap ∈ gaps, gap.isDict = true := by
  rw [gapsReport, returns_getOr_bind, and_iff_right h.data, returns_bind]
  refine exists_congr fun gaps => and_congr_right fun _ => ?_
  simp only [returns_bind, returns_allReports_cons, returns_allReports_nil, returns_expect,
    returns_pure, true_and, and_true]
  constructor
  · rintro ⟨names, hnames, -⟩ gap hgap
    exact returns_get.1 (returns_mapM.1 ⟨names, hnames⟩ gap hgap)
  · intro hgaps
    obtain ⟨names, hnames⟩ := returns_mapM.2 fun gap hgap => returns_get.2 (hgaps gap hgap)
    refine ⟨names, hnames, returns_allOf.2 fun before gap after hsplit _ => ?_⟩
    have hgap : gap ∈ gaps := hsplit ▸ List.mem_append_right _ List.mem_cons_self
    exact returns_gapIsComplete (hgaps gap hgap)

lemma returns_blockersReport (h : Shaped s) :
    Returns (blockersReport s expected) ↔ BlockersReadable s := by
  simp only [blockersReport, returns_allReports_cons, returns_allReports_nil, returns_expect,
    returns_pure, returns_gapsReport h, returns_allOf, returns_isIn, isIn_eq_true, true_and,
    and_true]
  constructor
  · rintro ⟨hblockers, hgaps⟩
    exact ⟨hblockers, hgaps⟩
  · rintro ⟨hblockers, hgaps⟩
    exact ⟨hblockers, hgaps⟩

lemma isContainer_of_isList {v : PyValue} (h : v.isList = true) : v.isContainer = true := by
  cases v with
  | list items => rfl
  | _ => cases h

/-- What a card with an action is checked for besides. -/
lemma returns_dataCost {hasAction : Bool} (h : Shaped s) :
    Returns (allReports (if hasAction = true then
        [expect (s.blockers.contains Blocker.instrumentMappingUnknown.name)
          (aboutCard expected.atomicId ": external action mapping blocker absent"),
         expect (anyOf (fun cost => cost.getIs "type" CostType.dataApi.name) (itemsOf s.costs))
          (aboutCard expected.atomicId ": external action omits data/API cost")]
      else [])) ↔ (hasAction = true → ∀ before cost after,
        itemsOf s.costs = before ++ cost :: after →
        (∀ c ∈ before, c.isDict = true ∧ (c.valueAt "type").isText CostType.dataApi.name = false) →
        cost.isDict = true) := by
  cases hasAction with
  | false => exact iff_of_true returns_allReports_nil fun h => by cases h
  | true =>
    rw [if_pos rfl, imp_iff_right rfl]
    simp only [returns_allReports_cons, returns_allReports_nil, returns_expect, returns_contains,
      isContainer_of_isList h.blockers, returns_anyOf, returns_getIs, getIs_eq_ok, true_and,
      and_true]

lemma returns_requiredReport (h : Shaped s) :
    Returns (requiredReport s expected (s.action.valueAt "action_type").truthy) ↔
      RequiredReadable s := by
  simp only [requiredReport, returns_allReports_append, returns_dataCost h,
    returns_allReports_cons, returns_allReports_nil, returns_expect, returns_both, returns_negated,
    returns_itemIs, itemIs_eq_true, returns_itemTruthy, returns_getOr_bind, returns_contains,
    isContainer_of_isList h.blockers, h.ext, true_and, and_true]
  constructor
  · rintro ⟨⟨⟨havailability, hpolicy⟩, hclassification, hmapping⟩, hcosts⟩
    exact ⟨havailability, hpolicy, hclassification, hmapping, hcosts⟩
  · rintro ⟨havailability, hpolicy, hclassification, hmapping, hcosts⟩
    exact ⟨⟨⟨havailability, hpolicy⟩, hclassification, hmapping⟩, hcosts⟩

lemma returns_optionalReport : Returns (optionalReport s expected) ↔ OptionalReadable s := by
  simp only [optionalReport, returns_expect, returns_both, returns_itemIs, itemIs_eq_true,
    returns_negated, returns_itemTruthy]
  constructor
  · rintro ⟨havailability, h⟩
    exact ⟨havailability, fun hmissing => (h hmissing).1, fun hmissing => (h hmissing).2⟩
  · rintro ⟨havailability, hpolicy, hblockers⟩
    exact ⟨havailability, fun hmissing => ⟨hpolicy hmissing, hblockers hmissing⟩⟩

lemma returns_externalReport (h : Shaped s) :
    Returns (externalReport s expected (s.action.valueAt "action_type").truthy) ↔
      ((s.ext.valueAt "dependency").isText Dependency.required.name = true →
        RequiredReadable s) ∧
      ((s.ext.valueAt "dependency").isText Dependency.optionalRefinement.name = true →
        OptionalReadable s) := by
  rw [externalReport, returns_get_bind, and_iff_right h.ext, returns_allReports_cons,
    returns_allReports_cons, returns_if, returns_if, returns_requiredReport h,
    returns_optionalReport]
  simp only [returns_allReports_nil, and_true]

lemma returns_datesReport (h : Shaped s) :
    Returns (datesReport s expected) ↔ DatesReadable s := by
  rw [datesReport, returns_nestedItem_bind]
  refine exists_congr fun status => and_congr_right fun _ => ?_
  have hdates : ∀ eligible : Raising Bool, Returns (if status.isText Estimable.yes.name = true then
      (pure [] : Report) else expect eligible [.shown (string expected.atomicId),
        .text ": dates marked eligible although signal_event is ", .shown status]) ↔
      (status.isText Estimable.yes.name = false → Returns eligible) := by
    intro eligible
    cases status.isText Estimable.yes.name with
    | false => rw [if_neg Bool.false_ne_true, returns_expect, imp_iff_right rfl]
    | true => exact iff_of_true (returns_pure _) fun h => by cases h
  have hsignal : Returns (do
      if ← s.blockers.contains Blocker.missingSignalInput.name then
        pure (status.isText Estimable.no.name)
      else pure true) := by
    obtain ⟨b, hb⟩ := returns_contains.2 (isContainer_of_isList h.blockers)
    refine returns_bind.2 ⟨b, hb, ?_⟩
    split <;> exact returns_pure _
  simp only [returns_allReports_cons, returns_allReports_nil, returns_expect, returns_map,
    returns_get, h.data, hdates, returns_negated, returns_nestedTruthy, hsignal, true_and, and_true]

lemma returns_resultReport : Returns (resultReport s expected) ↔ ResultReadable s := by
  simp only [resultReport, returns_allReports_cons, returns_allReports_nil, returns_expect,
    returns_map, returns_get, returns_both, returns_getIs, returns_itemIs, itemIs_eq_true, and_true]
  constructor
  · rintro ⟨-, -, hstrategy, hlive⟩
    exact ⟨hstrategy, hlive⟩
  · rintro ⟨hstrategy, hlive⟩
    have hdict : s.currentResult.isDict = true := by
      obtain ⟨w, hw⟩ := Option.isSome_iff_exists.1 hstrategy
      exact isDict_of_field hw
    exact ⟨hdict, ⟨hdict, fun _ => hdict⟩, hstrategy, hlive⟩

end

/-! ### Cards -/

def identityAt (card : PyValue) : PyValue := (card.field "identity").getD (dict [])

def idAt (card : PyValue) : PyValue :=
  ((identityAt card).field "experiment_id").getD (string "<missing>")

def sectionsAt (card : PyValue) : Sections where
  identity := identityAt card
  action := card.valueAt "action"
  venue := card.valueAt "venue"
  baseline := card.valueAt "baseline"
  pnl := card.valueAt "pnl"
  classification := card.valueAt "classification"
  costs := card.valueAt "costs"
  data := card.valueAt "data"
  ext := card.valueAt "external_sports_data"
  blockers := card.valueAt "blockers"
  hypothesis := card.valueAt "hypothesis"
  signal := card.valueAt "signal"
  currentResult := card.valueAt "current_result"

/-- The body of a card is read when the card has its sections, of the right kinds, and a seed. -/
structure CardReadable (card : PyValue) : Prop where
  identity : (identityAt card).isDict = true
  plain : (card.without "definition_sha256").Plain
  id : hasSections card = true → (idAt card).hashable = true
  body : hasSections card = true → (idAt card).isOneOf (cardSeeds.map (·.1)) = true →
    Shaped (sectionsAt card) → BodyReadable (sectionsAt card)

lemma shapes_iff {s : Sections} : (shapes s).all (·.1) = true ↔ Shaped s := by
  simp only [shapes, List.all_cons, List.all_nil, Bool.and_eq_true, and_true]
  constructor
  · rintro ⟨haction, hvenue, hbaseline, hpnl, hcosts, hdata, hext, hblockers⟩
    exact ⟨haction, hvenue, hbaseline, hpnl, hcosts, hdata, hext, hblockers⟩
  · rintro ⟨haction, hvenue, hbaseline, hpnl, hcosts, hdata, hext, hblockers⟩
    exact ⟨haction, hvenue, hbaseline, hpnl, hcosts, hdata, hext, hblockers⟩

lemma item_of_hasSections {card : PyValue} (h : hasSections card = true) {name : String}
    (hname : name ∈ requiredSections) : card.item name = .ok (card.valueAt name) := by
  obtain ⟨w, hw⟩ := Option.isSome_iff_exists.1 (List.all_eq_true.1 h name hname)
  rw [item_eq_ok, valueAt, hw]
  rfl

lemma sectionsOf_eq_ok {card : PyValue} (hcard : card.isDict = true)
    (h : hasSections card = true) : sectionsOf card = .ok (sectionsAt card) := by
  have hidentity : identityOf card = .ok (identityAt card) := getOr_eq_ok.2 ⟨hcard, rfl⟩
  have hitems : ∀ name ∈ requiredSections, card.item name = .ok (card.valueAt name) :=
    fun _ hname => item_of_hasSections h hname
  simp only [requiredSections, List.forall_mem_cons] at hitems
  obtain ⟨hclassification, hhypothesis, hsignal, haction, hvenue, hbaseline, hpnl, hcosts, hdata,
    hext, -, hresult, hblockers, -⟩ := hitems
  simp only [sectionsOf, hidentity, hclassification, hhypothesis, hsignal, haction, hvenue,
    hbaseline, hpnl, hcosts, hdata, hext, hresult, hblockers]
  rfl

lemma seedOf_eq_ok {cardId : PyValue} {found : Option (String × Seed)} :
    seedOf cardId = .ok found ↔
      cardId.hashable = true ∧ (cardSeeds.find? fun e => cardId.isText e.1) = found := by
  rw [seedOf]
  split
  · rename_i h
    rw [and_iff_right h]
    exact pure_eq_ok
  · rename_i h
    exact iff_of_false (fun h => by cases h) fun h' => absurd h'.1 h

lemma returns_branchReport {s : Sections} {expected : CardBody} (h : Shaped s) :
    Returns (if (s.action.valueAt "action_type").truthy = true then actionReport s expected
      else inactionReport s expected) ↔
    ((s.action.valueAt "action_type").truthy = true → ActionReadable s) ∧
      ((s.action.valueAt "action_type").truthy = false → InactionReadable s) := by
  cases (s.action.valueAt "action_type").truthy with
  | false => simp [returns_inactionReport]
  | true => simp [returns_actionReport h]

lemma returns_bodyReport {env : Environment} {card : PyValue} {s : Sections} (h : Shaped s)
    {atomicId : String} {seed : Seed} (hseed : (atomicId, seed) ∈ cardSeeds) :
    Returns (bodyReport env card s atomicId seed) ↔ BodyReadable s := by
  obtain ⟨profiles, blockers, gaps, family, built, hprofiles, hblockers, hgaps, hfamily, hbuilt⟩ :=
    exists_card env.sha256 hseed
  rw [bodyReport, returns_bind_of_eq hprofiles, returns_bind_of_eq hblockers,
    returns_bind_of_eq hgaps, returns_bind_of_eq hfamily,
    returns_bind_of_eq (getTruthy_eq_ok.2 ⟨h.action, rfl⟩)]
  have hcard : Returns (do pure (card.eq (← buildCard env.sha256 atomicId seed).toValue)) :=
    returns_map.2 ⟨built, hbuilt⟩
  simp only [returns_allReports_cons, returns_allReports_nil, returns_seedReport h,
    returns_contractReport h, returns_branchReport h, returns_blockersReport h,
    returns_externalReport h, returns_datesReport h, returns_resultReport, returns_expect, hcard,
    and_true]
  constructor
  · rintro ⟨-, hcontract, ⟨haction, hinaction⟩, hblockers, ⟨hrequired, hoptional⟩, hdates, hresult⟩
    exact ⟨hcontract, haction, hinaction, hblockers, hrequired, hoptional, hdates, hresult⟩
  · rintro ⟨hcontract, haction, hinaction, hblockers, hrequired, hoptional, hdates, hresult⟩
    obtain ⟨w, hw⟩ := Option.isSome_iff_exists.1 hcontract.mechanism
    exact ⟨isDict_of_field hw, hcontract, ⟨haction, hinaction⟩, hblockers,
      ⟨hrequired, hoptional⟩, hdates, hresult⟩

lemma returns_seededReport {env : Environment} {card : PyValue} (hcard : card.isDict = true)
    (h : hasSections card = true) {atomicId : String} {seed : Seed}
    (hseed : (atomicId, seed) ∈ cardSeeds) : Returns (seededReport env card atomicId seed) ↔
      (Shaped (sectionsAt card) → BodyReadable (sectionsAt card)) := by
  rw [seededReport, returns_bind_of_eq (sectionsOf_eq_ok hcard h), ← shapes_iff]
  cases hshapes : (shapes (sectionsAt card)).all (·.1) with
  | true =>
    rw [if_pos rfl, imp_iff_right rfl]
    exact returns_bodyReport (shapes_iff.1 hshapes) hseed
  | false =>
    refine iff_of_true ?_ fun h => by cases h
    exact returns_allReports_map.2 fun _ _ => returns_expect.2 (returns_pure _)

lemma isOneOf_cardSeeds {cardId : PyValue} : cardId.isOneOf (cardSeeds.map (·.1)) = true ↔
    (cardSeeds.find? fun e => cardId.isText e.1).isSome = true := by
  rw [isOneOf, List.any_map, List.any_eq_true, List.find?_isSome]
  exact Iff.rfl

lemma returns_foundReport (env : Environment) {card : PyValue} (hcard : card.isDict = true)
    (h : hasSections card = true) : Returns (do
        match ← seedOf (idAt card) with
        | some (atomicId, seed) => seededReport env card atomicId seed
        | none                  => fail (about (idAt card) ": no canonical seed")) ↔
      (idAt card).hashable = true ∧ ((idAt card).isOneOf (cardSeeds.map (·.1)) = true →
        Shaped (sectionsAt card) → BodyReadable (sectionsAt card)) := by
  rw [returns_bind, isOneOf_cardSeeds]
  simp only [seedOf_eq_ok, and_assoc, exists_eq_left', exists_and_left]
  refine and_congr_right fun _ => ?_
  cases hfound : cardSeeds.find? fun e => (idAt card).isText e.1 with
  | none => exact iff_of_true (returns_ok _) fun h => by cases h
  | some e =>
    rw [Option.isSome_some, imp_iff_right rfl]
    exact returns_seededReport hcard h (List.mem_of_find?_eq_some hfound)

lemma returns_signed {env : Environment} {v : PyValue} {key : String} (hv : v.isDict = true) :
    Returns (signed env v key) ↔ (v.without key).Plain := by
  rw [signed, returns_get_bind, and_iff_right hv, returns_map, sha256Of, returns_map]
  exact canonicalJson_returns_iff

lemma returns_cardReport {env : Environment} {card : PyValue} :
    Returns (cardReport env card) ↔ (card.isDict = true → CardReadable card) := by
  rw [cardReport]
  cases hcard : card.isDict with
  | false => exact iff_of_true (returns_ok _) fun h => by cases h
  | true =>
    have hidentity : identityOf card = .ok (identityAt card) := getOr_eq_ok.2 ⟨hcard, rfl⟩
    rw [if_pos rfl, imp_iff_right rfl, returns_bind_of_eq hidentity, returns_getOr_bind,
      returns_allReports_cons, returns_allReports_cons, returns_expect, returns_signed hcard]
    cases h : hasSections card with
    | false =>
      constructor
      · rintro ⟨hidentity, hplain, -⟩
        exact ⟨hidentity, hplain, fun h' => by simp [h] at h', fun h' => by simp [h] at h'⟩
      · rintro ⟨hidentity, hplain, -, -⟩
        exact ⟨hidentity, hplain, returns_ok _, returns_allReports_nil⟩
    | true =>
      have hfound := returns_foundReport env hcard h
      constructor
      · rintro ⟨hidentity, hplain, hreport, -⟩
        obtain ⟨hid, hbody⟩ := hfound.1 hreport
        exact ⟨hidentity, hplain, fun _ => hid, fun _ => hbody⟩
      · rintro ⟨hidentity, hplain, hid, hbody⟩
        exact ⟨hidentity, hplain, hfound.2 ⟨hid h, hbody h⟩, returns_allReports_nil⟩

end HftBot.Experiment
