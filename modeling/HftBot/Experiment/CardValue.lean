import HftBot.Experiment.Card

/-!
# Cards as objects

The object of a card is regular, section by section, so a card is built whenever the tables know the
names that its seed uses.
-/

namespace HftBot.Experiment

open HftBot.Core PyValue

/-! ### What a function that succeeds returned -/

lemma orRaise_eq_ok {α : Type} {e : PyError} {x : Option α} {a : α} :
    orRaise e x = .ok a ↔ x = some a := by
  cases x with
  | none => exact ⟨fun h => (by cases h), fun h => (by cases h)⟩
  | some b => exact ⟨fun h => (by cases h; rfl), fun h => (by cases h; rfl)⟩

lemma gapContract_eq_ok {atomicId name : String} {gap : Gap}
    (h : gapContract atomicId name = .ok gap) : gap.blocker.name = name := by
  rw [gapContract] at h
  split at h
  · rename_i b hb
    cases h
    exact name_of_byName hb
  · cases h

lemma blocker_gaps {atomicId : String} {names : List String} {gaps : List Gap}
    (h : names.mapM (gapContract atomicId) = .ok gaps) :
    gaps.map (fun gap => gap.blocker.name) = names := by
  have hnames : List.Forall₂ (fun name gap => name = gap.blocker.name) names gaps :=
    (mapM_eq_ok.1 h).imp fun _ _ hgap => (gapContract_eq_ok hgap).symm
  rw [← List.forall₂_map_right_iff, List.forall₂_eq_eq_eq] at hnames
  exact hnames.symm

/-- What building a card computes, from the profiles on. -/
theorem buildCard_eq_ok {sha256 : Bytes → String} {atomicId : String} {seed : Seed} {card : Card} :
    buildCard sha256 atomicId seed = .ok card ↔ ∃ profiles blockers gaps family digest,
      seed.profiles = .ok profiles ∧ blockersOf atomicId seed profiles = .ok blockers ∧
      blockers.mapM (gapContract atomicId) = .ok gaps ∧ familyOf atomicId = .ok family ∧
      sha256Of sha256 (object (cardBody atomicId family seed profiles blockers gaps).sections) =
        .ok digest ∧
      card = { cardBody atomicId family seed profiles blockers gaps with
        definitionSha256 := digest } := by
  simp only [buildCard, bind_eq_ok]
  constructor
  · rintro ⟨profiles, hp, blockers, hb, gaps, hg, family, hf, digest, hd, h⟩
    cases h
    exact ⟨profiles, blockers, gaps, family, digest, hp, hb, hg, hf, hd, rfl⟩
  · rintro ⟨profiles, blockers, gaps, family, digest, hp, hb, hg, hf, hd, rfl⟩
    exact ⟨profiles, hp, blockers, hb, gaps, hg, family, hf, digest, hd, rfl⟩

/-! ### Regular sections -/

@[simp] lemma regular_optional (s : Option String) : (optional s).Regular := by
  cases s with
  | none => exact regular_null
  | some s => exact regular_string s

lemma regular_venue (venue : VenueContract) : venue.toValue.Regular :=
  regular_object (by simp) (by simp)

lemma regular_baseline (baseline : Baseline) : baseline.toValue.Regular :=
  regular_object (by simp) (by simp)

lemma keys_member_sublist (key : String) (v : Option PyValue) :
    ((member key v).map (·.1)).Sublist [key] := by
  cases v with
  | none => exact List.nil_sublist _
  | some v => exact List.Sublist.refl _

lemma regular_member {key : String} {v : Option PyValue} (h : ∀ w ∈ v, w.Regular) :
    ∀ m ∈ member key v, m.2.Regular := by
  cases v with
  | none => exact fun _ hm => absurd hm List.not_mem_nil
  | some v => exact List.forall_mem_singleton.2 (h v rfl)

lemma regular_pnl (pnl : Pnl) : pnl.toValue.Regular := by
  refine regular_object ?_ ?_
  · -- the keys are among all that a table can have
    simp only [List.map_append]
    apply List.Sublist.nodup
      (((((List.Sublist.refl _).append (keys_member_sublist _ _)).append
        (keys_member_sublist _ _)).append (keys_member_sublist _ _)).append
        (keys_member_sublist _ _))
    simp
  · simp only [List.forall_mem_append]
    refine ⟨⟨⟨⟨by simp, ?_⟩, ?_⟩, ?_⟩, ?_⟩ <;> exact regular_member (by simp)

lemma regular_cost (cost : Cost) : cost.toValue.Regular := regular_object (by simp) (by simp)

lemma regular_external (external : External) : external.toValue.Regular :=
  regular_object (by simp) (by simp)

lemma regular_gap (gap : Gap) : gap.toValue.Regular := regular_object (by simp) (by simp)

lemma regular_canComputeNow (c : CanComputeNow) : c.toValue.Regular :=
  regular_object (by simp) (by simp)

lemma regular_studyDates (profile : DataProfile) {status : PyValue} (h : status.Regular) :
    (studyDates profile status).Regular :=
  regular_object (by simp [-String.reduceAppend]) (by simp [h, -String.reduceAppend])

lemma regular_signal (signal : Signal) : signal.toValue.Regular :=
  regular_object (by simp) (by simp)

lemma regular_classification (c : Classification) : c.toValue.Regular :=
  regular_object (by simp [-String.reduceAppend]) (by simp [-String.reduceAppend])

lemma regular_identity (atomicId : String) (family : Char × String) :
    (identityValue atomicId family).Regular :=
  regular_object (by simp) (by simp)

lemma regular_action (profile : ActionProfile) (trigger : String) :
    (actionValue profile trigger).Regular :=
  regular_object (by simp) (by simp)

lemma regular_data (profile : DataProfile) (data : Data) (gaps : List Gap) :
    (dataValue profile data gaps).Regular :=
  regular_object (by simp) (by
    simp [regular_canComputeNow, regular_studyDates, regular_map regular_gap])

lemma regular_hypothesis (seed : Seed) (profile : ActionProfile) (hasAction : Bool) :
    (hypothesisValue seed profile hasAction).Regular := by
  have hconditions : ∀ a b c d : String, (object [("signal", string a), ("execution", string b),
      ("economics", string c), ("capacity", string d)]).Regular :=
    fun _ _ _ _ => regular_object (by simp) (by simp)
  rw [hypothesisValue]
  refine regular_object (by simp [-String.reduceAppend]) ?_
  simp only [List.forall_mem_cons, regular_string, true_and]
  exact ⟨hconditions _ _ _ _, fun _ h => absurd h List.not_mem_nil⟩

lemma regular_design (atomicId : String) (family : Char × String) (signal : Signal)
    (baseline : Baseline) : (designValue atomicId family signal baseline).Regular := by
  rw [designValue]
  refine regular_object (by simp [-String.reduceAppend]) ?_
  simp only [List.forall_mem_cons, regular_string, true_and]
  exact fun _ h => absurd h List.not_mem_nil

lemma regular_evidence (data : Data) (external : External) (hasAction : Bool) :
    (nextEvidenceValue data external hasAction).Regular :=
  regular_object (by simp) (by simp)

@[simp] lemma regular_decimal (digits places : Nat) (neg : Bool) :
    (decimal digits places neg).Regular :=
  regular_float (Double.eq_self (Double.ofRatio_ne_nan _ _ _))

lemma regular_evidenceValues : ∀ e ∈ observedSignalEvidence, e.2.2.1.Regular := by
  simp [observedSignalEvidence, regular_object, regular_list, -String.reduceAppend]

lemma regular_observedSignal (atomicId : String) : (observedSignal atomicId).Regular := by
  rw [observedSignal]
  split
  · rename_i status values source h
    have hvalues := regular_evidenceValues _ (mem_of_lookup h)
    exact regular_object (by simp) (by simpa using hvalues)
  · exact regular_object (by simp) (by simp)

lemma regular_result (atomicId : String) (seed : Seed) : (resultValue atomicId seed).Regular :=
  regular_object (by simp [-String.reduceAppend])
    (by simp [regular_observedSignal, -String.reduceAppend])

lemma regular_sections (body : CardBody) : ∀ m ∈ body.sections, m.2.Regular := by
  simp [CardBody.sections, regular_identity, regular_classification, regular_hypothesis,
    regular_signal, regular_action, regular_venue, regular_baseline, regular_pnl,
    regular_map regular_cost, regular_data, regular_external, regular_design, regular_result,
    regular_evidence]

theorem regular_card (card : Card) : card.toValue.Regular := by
  refine regular_object (by simp [CardBody.sections]) ?_
  exact List.forall_mem_append.2 ⟨regular_sections card.toCardBody, by simp⟩

/-! ### A card is built -/

lemma ofName_name (b : Blocker) : Blocker.ofName b.name = some b := by
  cases b <;> rfl

lemma exists_costBlockers {costs : List Cost}
    (h : ∀ cost ∈ costs, cost.status = .missing → cost.type ≠ .spreadCrossing) :
    ∃ blockers, costBlockers costs = .ok blockers := by
  induction costs with
  | nil => exact ⟨[], rfl⟩
  | cons cost rest ih =>
    obtain ⟨hcost, hrest⟩ := List.forall_mem_cons.1 h
    obtain ⟨blockers, hblockers⟩ := ih hrest
    rw [costBlockers]
    split
    · exact ⟨blockers, hblockers⟩
    · rename_i hstatus
      -- every type but one has a blocker
      obtain ⟨b, hb⟩ : ∃ b, blockerByCostType cost.type = some b := by
        have htype := hcost (not_not.1 hstatus)
        cases ht : cost.type <;> first | exact ⟨_, rfl⟩ | exact absurd ht htype
      exact ⟨b :: blockers, bind_eq_ok.2 ⟨b, orRaise_eq_ok.2 hb,
        bind_eq_ok.2 ⟨blockers, hblockers, rfl⟩⟩⟩

/-- Crossing the spread is the one cost that is modelled. -/
lemma not_spreadCrossing_of_missing (profile : ActionProfile) (dependency : Dependency) :
    ∀ cost ∈ costsFor profile dependency, cost.status = .missing →
      cost.type ≠ .spreadCrossing := by
  cases profile <;> cases dependency <;> decide

lemma exists_blockersOf (atomicId : String) (seed : Seed) (profiles : Profiles) :
    ∃ blockers, blockersOf atomicId seed profiles = .ok blockers := by
  obtain ⟨fromCosts, hcosts⟩ := exists_costBlockers
    (not_spreadCrossing_of_missing profiles.action profiles.dependency)
  by_cases haction : (actionProfile profiles.action).actionType ≠ []
  · exact ⟨_, bind_eq_ok.2 ⟨fromCosts, by rw [if_pos (decide_eq_true haction), hcosts], rfl⟩⟩
  · exact ⟨_, bind_eq_ok.2 ⟨[], by rw [if_neg (by simpa using haction)]; rfl, rfl⟩⟩

lemma mem_sortedSet {names : List String} {b : String} : b ∈ sortedSet names ↔ b ∈ names := by
  rw [sortedSet, List.mem_insertionSort, List.mem_dedup]

/-- The tables know the blockers that they name themselves. -/
lemma isSome_of_mem_blockers {atomicId : String} {seed : Seed} {profiles : Profiles}
    {blockers : List String} (h : blockersOf atomicId seed profiles = .ok blockers)
    (hextra : ∀ b ∈ seed.extraBlockers, (Blocker.ofName b).isSome = true) :
    ∀ b ∈ blockers, (Blocker.ofName b).isSome = true := by
  obtain ⟨fromCosts, -, h⟩ := bind_eq_ok.1 h
  cases h
  intro b hb
  rcases List.mem_append.1 (mem_sortedSet.1 hb) with hb | hb
  · obtain ⟨b, -, rfl⟩ := List.mem_map.1 hb
    rw [ofName_name]
    rfl
  · exact hextra b hb

lemma exists_gaps (atomicId : String) {names : List String}
    (h : ∀ b ∈ names, (Blocker.ofName b).isSome = true) :
    ∃ gaps, names.mapM (gapContract atomicId) = .ok gaps := by
  induction names with
  | nil => exact ⟨[], rfl⟩
  | cons name rest ih =>
    obtain ⟨hname, hrest⟩ := List.forall_mem_cons.1 h
    obtain ⟨b, hb⟩ := Option.isSome_iff_exists.1 hname
    obtain ⟨gaps, hgaps⟩ := ih hrest
    refine ⟨gapOf atomicId b :: gaps, mapM_eq_ok.2 (.cons ?_ (mapM_eq_ok.1 hgaps))⟩
    rw [gapContract, hb]

/-- A card is built whenever the tables know the names that its seed uses. -/
theorem exists_buildCard (sha256 : Bytes → String) {atomicId : String} {seed : Seed}
    {profiles : Profiles} {family : Char × String} (hprofiles : seed.profiles = .ok profiles)
    (hextra : ∀ b ∈ seed.extraBlockers, (Blocker.ofName b).isSome = true)
    (hfamily : familyOf atomicId = .ok family) :
    ∃ card, buildCard sha256 atomicId seed = .ok card := by
  obtain ⟨blockers, hblockers⟩ := exists_blockersOf atomicId seed profiles
  obtain ⟨gaps, hgaps⟩ := exists_gaps atomicId (isSome_of_mem_blockers hblockers hextra)
  let body := cardBody atomicId family seed profiles blockers gaps
  obtain ⟨text, htext⟩ := canonicalJson_returns_iff.2
    (regular_object (by simp [CardBody.sections]) (regular_sections body)).plain
  exact ⟨_, buildCard_eq_ok.2 ⟨profiles, blockers, gaps, family, sha256 text, hprofiles, hblockers,
    hgaps, hfamily, bind_eq_ok.2 ⟨text, htext, rfl⟩, rfl⟩⟩

end HftBot.Experiment
