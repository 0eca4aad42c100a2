import HftBot.Core.Leaves
import HftBot.Experiment.CardValue
import HftBot.Experiment.Seeds

/-!
# What the seeds have in common

The tables know every name that a seed uses, and no text of a seed is empty, so the card of each
seed can be built.
-/

namespace HftBot.Experiment

open HftBot.Core PyValue

/-! ### Names -/

/-- The tables know the names that the seeds use. -/
lemma exists_profiles : ∀ e ∈ cardSeeds, ∃ profiles, e.2.profiles = .ok profiles := by
  have haction : ∀ e ∈ cardSeeds, (ActionProfile.ofName e.2.actionProfile).isSome = true := by
    decide +kernel
  have hdata : ∀ e ∈ cardSeeds, (DataProfile.ofName e.2.dataProfile).isSome = true := by
    decide +kernel
  have hdependency : ∀ e ∈ cardSeeds, (Dependency.ofName e.2.externalDependency).isSome = true := by
    decide +kernel
  intro e he
  obtain ⟨action, ha⟩ := Option.isSome_iff_exists.1 (haction e he)
  obtain ⟨data, hd⟩ := Option.isSome_iff_exists.1 (hdata e he)
  obtain ⟨dependency, hdep⟩ := Option.isSome_iff_exists.1 (hdependency e he)
  exact ⟨⟨action, data, dependency⟩, bind_eq_ok.2 ⟨action, orRaise_eq_ok.2 ha, bind_eq_ok.2
    ⟨data, orRaise_eq_ok.2 hd, bind_eq_ok.2 ⟨dependency, orRaise_eq_ok.2 hdep, rfl⟩⟩⟩⟩

lemma isSome_extraBlockers :
    ∀ e ∈ cardSeeds, ∀ b ∈ e.2.extraBlockers, (Blocker.ofName b).isSome = true := by
  decide +kernel

lemma exists_familyOf : ∀ e ∈ cardSeeds, ∃ family, familyOf e.1 = .ok family := by
  have hfamily : ∀ e ∈ cardSeeds, (0 < firstByte e.1 ∧ firstByte e.1 < 128) ∧
      (familyNames.lookup (Char.ofUInt8 (firstByte e.1))).isSome = true := by
    decide +kernel
  intro e he
  obtain ⟨⟨hpos, hascii⟩, h⟩ := hfamily e he
  obtain ⟨name, hname⟩ := Option.isSome_iff_exists.1 h
  exact ⟨(_, name), bind_eq_ok.2 ⟨_, orRaise_eq_ok.2 (head_text hpos hascii),
    bind_eq_ok.2 ⟨name, orRaise_eq_ok.2 hname, rfl⟩⟩⟩

/-! ### Texts -/

/-- No text of the seed is empty. -/
structure Filled (seed : Seed) : Prop where
  hypothesis : seed.hypothesis ≠ ""
  trigger : seed.signal.trigger ≠ ""
  directionSemantics : seed.signal.directionSemantics ≠ ""
  decisionClock : seed.signal.decisionClock ≠ ""
  forecastHorizon : seed.signal.forecastHorizon ≠ ""
  falsifier : seed.signal.falsifier ≠ ""

lemma filled_of_mem : ∀ e ∈ cardSeeds, Filled e.2 := by
  have h : ∀ e ∈ cardSeeds, e.2.hypothesis ≠ "" ∧ e.2.signal.trigger ≠ "" ∧
      e.2.signal.directionSemantics ≠ "" ∧ e.2.signal.decisionClock ≠ "" ∧
      e.2.signal.forecastHorizon ≠ "" ∧ e.2.signal.falsifier ≠ "" := by
    decide +kernel
  intro e he
  obtain ⟨hhypothesis, htrigger, hdirection, hclock, hhorizon, hfalsifier⟩ := h e he
  exact ⟨hhypothesis, htrigger, hdirection, hclock, hhorizon, hfalsifier⟩

/-! ### Cards -/

lemma exists_card (sha256 : Bytes → String) {atomicId : String} {seed : Seed}
    (h : (atomicId, seed) ∈ cardSeeds) : ∃ profiles blockers gaps family card,
      seed.profiles = .ok profiles ∧ blockersOf atomicId seed profiles = .ok blockers ∧
      blockers.mapM (gapContract atomicId) = .ok gaps ∧ familyOf atomicId = .ok family ∧
      buildCard sha256 atomicId seed = .ok card := by
  obtain ⟨profiles, hprofiles⟩ := exists_profiles _ h
  obtain ⟨family, hfamily⟩ := exists_familyOf _ h
  obtain ⟨card, hcard⟩ := exists_buildCard sha256 hprofiles (isSome_extraBlockers _ h) hfamily
  obtain ⟨profiles, blockers, gaps, family, digest, hp, hb, hg, hf, -, -⟩ := buildCard_eq_ok.1 hcard
  exact ⟨profiles, blockers, gaps, family, card, hp, hb, hg, hf, hcard⟩

end HftBot.Experiment
