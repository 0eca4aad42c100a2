import HftBot.Experiment.Actions

/-!
# What the profiles have in common

A profile with an action has a venue, a baseline, a PnL and costs with nothing left empty, and one
without has none of them.
-/

namespace HftBot.Experiment

/-- What a profile without an action has. -/
lemma inaction_profile {profile : ActionProfile} (h : (actionProfile profile).actionType = []) :
    (venueFor profile).executionVenue = .noVenue ∧
      (pnlFor profile).status = "NOT_DEFINED_NOT_A_STRATEGY" ∧
      ∀ dependency, costsFor profile dependency = [] := by
  cases profile <;> first | exact ⟨rfl, rfl, fun _ => rfl⟩ | cases h

/-- What a profile with an action has. -/
lemma action_profile {profile : ActionProfile} (h : (actionProfile profile).actionType ≠ []) :
    let action := actionProfile profile
    (action.signalToActionMapping.getD "" ≠ "" ∧ action.instrumentSide.getD "" ≠ "" ∧
      action.orderStyle.getD "" ≠ "" ∧ action.priceRule.getD "" ≠ "" ∧
      action.quantityRule.getD "" ≠ "" ∧ action.timingAndCancel.getD "" ≠ "" ∧
      action.exitOrSettlement.getD "" ≠ "" ∧ action.killConditions ≠ []) ∧
      (venueFor profile).executionVenue ≠ .noVenue ∧
      (baselineFor profile).baselineId ≠ none ∧ (baselineFor profile).policy.getD "" ≠ "" ∧
      (baselineFor profile).comparability.getD "" ≠ "" := by
  cases profile <;> first | exact absurd rfl h | decide +kernel

lemma action_costs {profile : ActionProfile} (h : (actionProfile profile).actionType ≠ [])
    (dependency : Dependency) : costsFor profile dependency ≠ [] := by
  cases profile <;> first | exact absurd rfl h | exact List.cons_ne_nil _ _

lemma action_pnl {profile : ActionProfile} (h : (actionProfile profile).actionType ≠ []) :
    (pnlFor profile).basis = "PATHWISE_AFTER_COST" ∧ (pnlFor profile).formula.getD "" ≠ "" ∧
      (pnlFor profile).incrementalFormula.getD "" ≠ "" ∧
      (pnlFor profile).zeroFillTreatment.getD "" ≠ "" ∧
      (pnlFor profile).capacityRule.getD "" ≠ "" ∧
      (pnlFor profile).denominators.getD [] ≠ [] ∧ (pnlFor profile).markoutRule.getD "" ≠ "" := by
  cases profile <;> first | exact absurd rfl h | decide +kernel

lemma rule_ne_empty (profile : ActionProfile) (dependency : Dependency) :
    ∀ cost ∈ costsFor profile dependency, cost.rule ≠ "" := by
  have hcommon : ∀ cost ∈ commonCostComponents, cost.rule ≠ "" := by decide +kernel
  rw [costsFor.eq_def]
  split
  · exact fun _ h => absurd h List.not_mem_nil
  · exact fun _ h => absurd h List.not_mem_nil
  · exact fun _ h => absurd h List.not_mem_nil
  · simp only [List.forall_mem_append]
    refine ⟨⟨⟨⟨⟨hcommon, ?_⟩, ?_⟩, ?_⟩, ?_⟩, ?_⟩ <;> split <;> decide +kernel

end HftBot.Experiment
