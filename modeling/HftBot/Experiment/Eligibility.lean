import HftBot.Experiment.CardValue
import HftBot.Experiment.Seeds

/-!
# Eligibility fails closed

Whatever profiles a seed combines, the class of its card is computed after the blockers are merged:
only a card with none can be a strategy, and no source of blockers is lost in the merge.
-/

namespace HftBot.Experiment

open HftBot.Core PyValue

/-! ### Blockers -/

lemma sortedSet_sorted (names : List String) : (sortedSet names).Pairwise (· < ·) := by
  have hnodup : (sortedSet names).Nodup :=
    (List.perm_insertionSort _ _).nodup_iff.2 (List.nodup_dedup names)
  have hle : (sortedSet names).Pairwise (· ≤ ·) := List.pairwise_insertionSort _ _
  exact (hle.and hnodup).imp fun h => lt_of_le_of_ne h.1 h.2

lemma costBlockers_eq_ok {costs : List Cost} {blockers : List Blocker}
    (h : costBlockers costs = .ok blockers) :
    ∀ cost ∈ costs, cost.status = .missing →
      ∃ b, blockerByCostType cost.type = some b ∧ b ∈ blockers := by
  induction costs generalizing blockers with
  | nil => exact fun _ hc => absurd hc List.not_mem_nil
  | cons cost rest ih =>
    rw [costBlockers] at h
    split at h
    · rename_i hstatus
      refine List.forall_mem_cons.2 ⟨fun hmissing => absurd hmissing hstatus, ih h⟩
    · obtain ⟨b, hb, h⟩ := bind_eq_ok.1 h
      obtain ⟨bs, hbs, h⟩ := bind_eq_ok.1 h
      cases h
      refine List.forall_mem_cons.2 ⟨fun _ => ⟨b, orRaise_eq_ok.1 hb, List.mem_cons_self⟩, ?_⟩
      intro c hc hmissing
      obtain ⟨b', hb', hmem⟩ := ih hbs c hc hmissing
      exact ⟨b', hb', List.mem_cons_of_mem _ hmem⟩

/-- The six sources of blockers, merged. -/
lemma expectedBlockers_eq_ok {profiles : Profiles} {extra : List String} {data : Data}
    {external : External} {costs : List Cost} {hasAction : Bool} {blockers : List String}
    (h : expectedBlockers profiles extra data external costs hasAction = .ok blockers) :
    (∀ b ∈ external.blockers, b.name ∈ blockers) ∧ blockers.Pairwise (· < ·) ∧
      (hasAction = true → ∀ cost ∈ costs, cost.status = .missing →
        ∃ b, blockerByCostType cost.type = some b ∧ b.name ∈ blockers) := by
  rw [expectedBlockers] at h
  obtain ⟨fromCosts, hcosts, h⟩ := bind_eq_ok.1 h
  cases h
  refine ⟨fun b hb => ?_, sortedSet_sorted _, fun hact cost hcost hmissing => ?_⟩
  · refine mem_sortedSet.2 (List.mem_append_left _ (List.mem_map_of_mem ?_))
    exact List.mem_append_right _ hb
  · rw [if_pos hact] at hcosts
    obtain ⟨b, hb, hmem⟩ := costBlockers_eq_ok hcosts cost hcost hmissing
    refine ⟨b, hb, mem_sortedSet.2 (List.mem_append_left _ (List.mem_map_of_mem ?_))⟩
    simp only [List.mem_append]
    exact .inl (.inl (.inl (.inr hmem)))

lemma externalContract_dependency (dependency : Dependency) (atomicId : String) :
    (externalContract dependency atomicId).dependency = dependency := by
  cases dependency <;> rfl

/-- The contract for data that is required has blockers of its own. -/
lemma blocked_of_required (atomicId : String) :
    .externalSportsDataMissing ∈ (externalContract .required atomicId).blockers :=
  List.mem_cons_self

/-! ### Classes -/

lemma baseClass_eq_executable {targetClass : String} {action : Action} {venue : VenueContract}
    {baseline : Baseline} {pnl : Pnl}
    (h : baseClass targetClass action venue baseline pnl = "EXECUTABLE_STRATEGY") :
    targetClass ≠ "RESEARCH_QUESTION" ∧ action.actionType ≠ [] ∧
      venue.executionVenue ≠ .noVenue ∧ baseline.baselineId ≠ none ∧
      pnl.basis = "PATHWISE_AFTER_COST" ∧ pnl.incrementalFormula.getD "" ≠ "" := by
  rw [baseClass] at h
  split at h
  · exact absurd h (by decide)
  rename_i htarget
  split at h
  · exact absurd h (by decide)
  rename_i haction
  split at h
  · rename_i hrest
    exact ⟨htarget, haction, hrest⟩
  · exact absurd h (by decide)

lemma eligible_iff {targetClass base : String} {blockers : List String} :
    (classificationOf targetClass base blockers).strategyEligible = true ↔
      blockers = [] ∧ base = "EXECUTABLE_STRATEGY" := by
  rw [classificationOf]
  simp only [decide_eq_true_iff]
  split
  · rename_i hne
    exact ⟨fun h => absurd h (by decide), fun h => absurd h.1 hne⟩
  · rename_i hnil
    exact ⟨fun h => ⟨not_not.1 hnil, h⟩, fun h => h.2⟩

/-- The common costs of an action are not known. -/
lemma exists_missing_cost {profile : ActionProfile}
    (haction : (actionProfile profile).actionType ≠ []) (dependency : Dependency) :
    ∃ cost ∈ costsFor profile dependency, cost.status = .missing := by
  obtain ⟨cost, hcost, hmissing⟩ : ∃ cost ∈ commonCostComponents, cost.status = .missing :=
    ⟨_, List.mem_cons_self, rfl⟩
  refine ⟨cost, ?_, hmissing⟩
  cases profile with
  | noAction | modelComponent | controlOnly => exact absurd rfl haction
  | _ => simp [costsFor, hcost]

/-- With the profiles there are, no card is a strategy yet. -/
lemma not_strategyEligible {sha256 : Bytes → String} {atomicId : String} {seed : Seed} {card : Card}
    (h : buildCard sha256 atomicId seed = .ok card) :
    card.classification.strategyEligible = false := by
  obtain ⟨profiles, blockers, gaps, family, digest, -, hblockers, -, -, -, rfl⟩ :=
    buildCard_eq_ok.1 h
  rw [Bool.eq_false_iff]
  intro heligible
  obtain ⟨rfl, hbase⟩ := eligible_iff.1 heligible
  obtain ⟨-, haction, -⟩ := baseClass_eq_executable hbase
  obtain ⟨-, -, hcosts⟩ := expectedBlockers_eq_ok hblockers
  obtain ⟨cost, hcost, hmissing⟩ := exists_missing_cost haction profiles.dependency
  obtain ⟨b, -, hb⟩ := hcosts (decide_eq_true haction) cost hcost hmissing
  exact List.not_mem_nil hb

/-- A card is a strategy only when nothing is missing, and what is missing is never lost. -/
theorem eligibility_fails_closed {sha256 : Bytes → String} {atomicId : String} {seed : Seed}
    {card : Card} (h : buildCard sha256 atomicId seed = .ok card) :
    (card.classification.strategyEligible = true →
      card.blockers = [] ∧ card.classification.targetClass ≠ "RESEARCH_QUESTION" ∧
      card.action.actionType ≠ [] ∧ card.venue.executionVenue ≠ .noVenue ∧
      card.baseline.baselineId ≠ none ∧ card.pnl.basis = "PATHWISE_AFTER_COST" ∧
      card.pnl.incrementalFormula.getD "" ≠ "") ∧
    (card.action.actionType ≠ [] → ∀ cost ∈ card.costs, cost.status = .missing →
      ∃ b, blockerByCostType cost.type = some b ∧ b.name ∈ card.blockers) ∧
    (card.external.dependency = .required → card.blockers ≠ []) ∧
    card.criticalGaps.map (fun gap => gap.blocker.name) = card.blockers ∧
    card.blockers.Pairwise (· < ·) := by
  obtain ⟨profiles, blockers, gaps, family, digest, -, hblockers, hgaps, -, -, rfl⟩ :=
    buildCard_eq_ok.1 h
  obtain ⟨hexternal, hsorted, hcosts⟩ := expectedBlockers_eq_ok hblockers
  refine ⟨fun heligible => ?_, fun haction => hcosts (decide_eq_true haction), fun hrequired => ?_,
    ?_, hsorted⟩
  · obtain ⟨hnil, hbase⟩ := eligible_iff.1 heligible
    exact ⟨hnil, baseClass_eq_executable hbase⟩
  · have hdependency : profiles.dependency = .required :=
      (externalContract_dependency _ atomicId).symm.trans hrequired
    rw [hdependency] at hexternal
    exact List.ne_nil_of_mem (hexternal _ (blocked_of_required atomicId))
  · exact blocker_gaps hgaps

/-- The first card of the registry: each of its missing costs blocks it. -/
theorem eligibility_fails_closed_spread_capture : ∃ seed card,
    cardSeeds.lookup "A01-SPREAD-CAPTURE" = some seed ∧
    buildCard (fun _ => "d0a426775e71969141ec96db9fac7a5d38e53fb4d294d1d6027dd37bfc4cb9d4")
      "A01-SPREAD-CAPTURE" seed = .ok card ∧
    card.action.actionType ≠ [] ∧
    (∀ cost ∈ card.costs, cost.status = .missing →
      ∃ b, blockerByCostType cost.type = some b ∧ b.name ∈ card.blockers) ∧
    card.criticalGaps.map (fun gap => gap.blocker.name) = card.blockers := by
  obtain ⟨seed, hseed, hprofiles, hextra⟩ : ∃ seed,
      cardSeeds.lookup "A01-SPREAD-CAPTURE" = some seed ∧
      seed.profiles = .ok ⟨.makerSpread, .l1, .notRequired⟩ ∧
      ∀ b ∈ seed.extraBlockers, (Blocker.ofName b).isSome = true :=
    ⟨_, rfl, rfl, by decide⟩
  have hfamily : familyOf "A01-SPREAD-CAPTURE" = .ok ('A', "MICROSTRUCTURE_AND_MAKER") := rfl
  obtain ⟨card, hcard⟩ := exists_buildCard _ hprofiles hextra hfamily
  have haction : card.action.actionType ≠ [] := by
    obtain ⟨profiles, blockers, gaps, family, digest, hp, -, -, -, -, rfl⟩ :=
      buildCard_eq_ok.1 hcard
    obtain rfl := Except.ok.inj (hprofiles.symm.trans hp)
    exact List.cons_ne_nil _ _
  have hclosed := eligibility_fails_closed hcard
  exact ⟨seed, card, hseed, hcard, haction, hclosed.2.1 haction, hclosed.2.2.2.1⟩

end HftBot.Experiment
