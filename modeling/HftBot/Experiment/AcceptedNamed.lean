import HftBot.Core.Leaves
import HftBot.Experiment.AcceptedBindings

/-!
# The cards that a check names

Some checks are about the cards of a few identifiers. They hold of the cards of the seeds, whose
profiles and texts decide them.
-/

namespace HftBot.Experiment

open HftBot.Core PyValue

/-! ### Cards of identifiers -/

/-- The card that the seed of an identifier makes. -/
def IsCardOf (sha256 : Bytes → String) (atomicId : String) (card : Card) : Prop :=
  ∃ seed, cardSeeds.lookup atomicId = some seed ∧ buildCard sha256 atomicId seed = .ok card

lemma buildCards_eq_ok {sha256 : Bytes → String} {cards : List Card} :
    buildCards sha256 = .ok cards ↔ List.Forall₂ (IsCardOf sha256) atomicIds cards := by
  simp only [buildCards, mapM_eq_ok, bind_eq_ok, orRaise_eq_ok]
  rfl

/-- What a card has from its seed. -/
lemma IsCardOf.body {sha256 : Bytes → String} {atomicId : String} {card : Card}
    (h : IsCardOf sha256 atomicId card) : ∃ seed profiles blockers gaps family,
      cardSeeds.lookup atomicId = some seed ∧ seed.profiles = .ok profiles ∧
      blockersOf atomicId seed profiles = .ok blockers ∧
      card.toCardBody = cardBody atomicId family seed profiles blockers gaps := by
  obtain ⟨seed, hseed, hcard⟩ := h
  obtain ⟨profiles, blockers, gaps, family, digest, hprofiles, hblockers, -, -, -, rfl⟩ :=
    buildCard_eq_ok.1 hcard
  exact ⟨seed, profiles, blockers, gaps, family, hseed, hprofiles, hblockers, rfl⟩

lemma profiles_eq_ok {seed : Seed} {profiles : Profiles} (h : seed.profiles = .ok profiles) :
    ActionProfile.ofName seed.actionProfile = some profiles.action ∧
      DataProfile.ofName seed.dataProfile = some profiles.data := by
  simp only [Seed.profiles, bind_eq_ok, orRaise_eq_ok] at h
  obtain ⟨action, haction, data, hdata, dependency, -, h⟩ := h
  obtain rfl := pure_eq_ok.1 h
  exact ⟨haction, hdata⟩

lemma nested_of_field {v w x : PyValue} {outer inner : String} (hv : v.field outer = some w)
    (hw : w.field inner = some x) : v.nested outer inner = some x := by
  rw [nested, hv, Option.bind_some, hw]

lemma nestedIs_of_nested {v : PyValue} {outer inner s : String}
    (h : v.nested outer inner = some (string s)) : v.nestedIs outer inner s = .ok true := by
  rw [nestedIs_eq_true, nestedAt, h]
  exact isText_iff.2 rfl

section

variable {sha256 : Bytes → String} {atomicId : String} {card : Card}

lemma nested_experimentId (h : IsCardOf sha256 atomicId card) :
    card.toValue.nested "identity" "experiment_id" = some (string atomicId) := by
  obtain ⟨seed, profiles, blockers, gaps, family, -, -, -, hbody⟩ := h.body
  have hid : card.atomicId = atomicId := by rw [hbody]; rfl
  refine nested_of_field (card_field card List.mem_cons_self) ?_
  rw [← hid]
  exact field_of_wellFormed (regular_identity _ _).wellFormed List.mem_cons_self

/-- The sections that the checks below look at. -/
lemma card_sections (card : Card) :
    card.toValue.field "signal" = some card.seed.signal.toValue ∧
      card.toValue.field "action" =
        some (actionValue card.profiles.action card.seed.signal.trigger) ∧
      card.toValue.field "venue" = some card.venue.toValue ∧
      card.toValue.field "data" =
        some (dataValue card.profiles.data card.data card.criticalGaps) ∧
      card.toValue.field "blockers" = some (strings card.blockers) := by
  have hfields := sections_fields card
  simp only [CardBody.sections, List.forall_mem_cons] at hfields
  obtain ⟨-, -, -, hsignal, haction, hvenue, -, -, -, hdata, -, -, -, hblockers, -⟩ := hfields
  exact ⟨hsignal, haction, hvenue, hdata, hblockers⟩

lemma nested_direction (card : Card) : card.toValue.nested "signal" "direction_semantics" =
    some (string card.seed.signal.directionSemantics) :=
  nested_of_field (card_sections card).1 (field_of_wellFormed (regular_signal _).wellFormed
    (List.mem_cons_of_mem _ List.mem_cons_self))

lemma nested_action (card : Card) :
    card.toValue.nested "action" "profile_id" = some (string card.profiles.action.name) ∧
      card.toValue.nested "action" "action_type" =
        some (strings (actionProfile card.profiles.action).actionType) ∧
      card.toValue.nested "action" "instrument_side" =
        some (optional (actionProfile card.profiles.action).instrumentSide) := by
  have haction := (card_sections card).2.1
  have hwf := (regular_action card.profiles.action card.seed.signal.trigger).wellFormed
  obtain ⟨htype, hprofile, -⟩ := action_fields card.profiles.action card.seed.signal.trigger
  exact ⟨nested_of_field haction hprofile, nested_of_field haction htype,
    nested_of_field haction (field_of_wellFormed hwf (by simp))⟩

lemma nested_data (card : Card) :
    card.toValue.nested "data" "profile_id" = some (string card.profiles.data.name) :=
  nested_of_field (card_sections card).2.2.2.1
    (field_of_wellFormed (regular_data _ _ _).wellFormed List.mem_cons_self)

lemma nested_venue (card : Card) :
    card.toValue.nested "venue" "execution_venue" =
      some (string card.venue.executionVenue.name) :=
  nested_of_field (card_sections card).2.2.1
    (field_of_wellFormed (regular_venue _).wellFormed List.mem_cons_self)

/-! ### Directions -/

/-- The directions of the unsigned cards say that they are. -/
lemma unsigned_seeds : ∀ id ∈ unsignedCards, ∀ seed ∈ cardSeeds.lookup id,
    isPlain seed.signal.directionSemantics = true ∧
      (isPart "UNSIGNED" (asciiUpper (byteText seed.signal.directionSemantics)) ||
        isPart "NO_DIRECTION" (asciiUpper (byteText seed.signal.directionSemantics))) = true := by
  decide +kernel

lemma isUnsigned_card {env : Environment} (henv : Intact env) (hid : atomicId ∈ unsignedCards)
    (h : IsCardOf env.sha256 atomicId card) : isUnsigned env card.toValue = .ok true := by
  obtain ⟨seed, profiles, blockers, gaps, family, hseed, -, -, hbody⟩ := h.body
  have hdirection : card.seed = seed := by rw [hbody]; rfl
  obtain ⟨hplain, hunsigned⟩ := unsigned_seeds atomicId hid seed hseed
  obtain ⟨htext, -, hascii⟩ := text_of_isPlain hplain
  refine bind_eq_ok.2 ⟨_, nestedItem_eq_ok.2 (nested_direction card), bind_eq_ok.2 ⟨_, rfl, ?_⟩⟩
  rw [hdirection, htext, henv.upper _ hascii]
  exact pure_eq_ok.2 hunsigned

/-! ### Guards -/

/-- The leaf is ASCII and names no side. -/
def Sideless (leaf : Text) : Prop :=
  (∀ c ∈ leaf, c.val < 128) ∧ ∀ token ∈ sidedTokens, ¬ text token <:+: asciiUpper leaf

/-- A plain literal that names no side. -/
def isSideless (s : String) : Bool :=
  isPlain s && sidedTokens.all fun token =>
    isPlain token && !decide (byteText token <:+: asciiUpper (byteText s))

lemma ascii_punctuation : ∀ c ∈ punctuation, c.val < 128 := by
  have h : punctuation.all (fun c => c.val < 128) = true := by decide +kernel
  simpa using h

/-- No punctuation becomes a character of a token. -/
lemma sided_words : ∀ token ∈ sidedTokens, text token ≠ [] ∧
    ∀ c ∈ punctuation, upperAscii c ∉ text token := by
  have h : ∀ token ∈ sidedTokens, text token ≠ [] ∧
      punctuation.all (fun c => upperAscii c ∉ text token) = true := by
    decide +kernel
  simpa using h

lemma sideless_of_isSideless {s : String} (h : isSideless s = true) :
    Sideless ((text s).flatMap escape) := by
  obtain ⟨hs, htokens⟩ := Bool.and_eq_true_iff.1 h
  obtain ⟨-, hescape, hascii⟩ := text_of_isPlain hs
  refine ⟨hescape.symm ▸ hascii, fun token htoken => ?_⟩
  obtain ⟨hplain, hpart⟩ := Bool.and_eq_true_iff.1 (List.all_eq_true.1 htokens token htoken)
  rw [hescape, (text_of_isPlain hplain).1]
  simpa using hpart

/-- The actions of the guards have no leaf with a side. -/
lemma sideless_action {trigger sentence : String}
    (hsentence : registeredSignalToAction .rfqGuard trigger = some sentence)
    (h : isSideless sentence = true) :
    ∀ leaf ∈ (actionValue .rfqGuard trigger).leaves, Sideless leaf := by
  simp only [actionValue, hsentence, forall_leaves_object, List.forall_mem_cons,
    forall_leaves_string, forall_leaves_strings, actionProfile, optional, Option.elim_some]
  simp (disch := first | assumption | decide +kernel) only [sideless_of_isSideless,
    List.not_mem_nil, false_imp_iff, implies_true, and_self]

lemma guard_seeds : ∀ id ∈ guardCards, ∀ seed ∈ cardSeeds.lookup id,
    ActionProfile.ofName seed.actionProfile = some .rfqGuard ∧
      (registeredSignalToAction .rfqGuard seed.signal.trigger).any isSideless = true := by
  decide +kernel

end

section

variable {env : Environment} {atomicId : String} {card : Card}

lemma guard_profile (hid : atomicId ∈ guardCards) (h : IsCardOf env.sha256 atomicId card) :
    card.profiles.action = .rfqGuard ∧ ∃ sentence,
      registeredSignalToAction .rfqGuard card.seed.signal.trigger = some sentence ∧
        isSideless sentence = true := by
  obtain ⟨seed, profiles, blockers, gaps, family, hseed, hprofiles, -, hbody⟩ := h.body
  obtain ⟨hprofile, hsentence⟩ := guard_seeds atomicId hid seed hseed
  have haction : profiles.action = .rfqGuard :=
    Option.some.inj ((profiles_eq_ok hprofiles).1.symm.trans hprofile)
  rw [hbody]
  exact ⟨haction, (Option.any_eq_true _ _).1 hsentence⟩

lemma guardsBothSides_card (hid : atomicId ∈ guardCards) (h : IsCardOf env.sha256 atomicId card) :
    guardsBothSides card.toValue = .ok true := by
  obtain ⟨hprofile, htype, hside⟩ := nested_action card
  rw [(guard_profile hid h).1] at hprofile htype hside
  exact both_eq_true.2 ⟨nestedIs_of_nested hprofile, both_eq_true.2 ⟨nestedIs_of_nested hside,
    bind_eq_ok.2 ⟨_, nestedItem_eq_ok.2 htype, pure_eq_ok.2 (regular_strings _).eq_self⟩⟩⟩

lemma hasNoSide_card (henv : Intact env) (hid : atomicId ∈ guardCards)
    (h : IsCardOf env.sha256 atomicId card) : hasNoSide env card.toValue = .ok true := by
  obtain ⟨hprofile, sentence, hsentence, hsideless⟩ := guard_profile hid h
  have haction := (card_sections card).2.1
  rw [hprofile] at haction
  let action := actionValue .rfqGuard card.seed.signal.trigger
  obtain ⟨bytes, hbytes⟩ := canonicalJson_returns_iff.2 (regular_action .rfqGuard
    card.seed.signal.trigger).plain
  have hleaves : ∀ leaf ∈ action.sorted.leaves, Sideless leaf := fun leaf hleaf =>
    sideless_action hsentence hsideless leaf ((mem_leaves_sorted action).1 hleaf)
  have hascii : ∀ c ∈ action.sorted.write, c.val < 128 := by
    intro c hc
    rcases mem_punctuation_or_leaf hc with hc | ⟨leaf, hleaf, hc⟩
    · exact ascii_punctuation c hc
    · exact (hleaves leaf hleaf).1 c hc
  have hpart : ∀ token ∈ sidedTokens, ¬ text token <:+: asciiUpper action.sorted.write := by
    intro token htoken hinfix
    obtain ⟨hne, hpunctuation⟩ := sided_words token htoken
    obtain ⟨leaf, hleaf, h⟩ := infix_write hne hpunctuation _ hinfix
    exact (hleaves leaf hleaf).2 token htoken h
  refine bind_eq_ok.2 ⟨_, item_eq_ok.2 haction, bind_eq_ok.2 ⟨bytes, hbytes, bind_eq_ok.2
    ⟨_, decodeUtf8_eq_ok hbytes, pure_eq_ok.2 (List.all_eq_true.2 fun token htoken => ?_)⟩⟩⟩
  rw [henv.upper _ hascii, isPart, decide_eq_false (hpart token htoken)]
  rfl

end

/-! ### Profiles -/

/-- A seed of the table has these profiles. -/
def HasProfiles (atomicId : String) (action : ActionProfile) (data : DataProfile) : Prop :=
  ∀ seed ∈ cardSeeds.lookup atomicId, ActionProfile.ofName seed.actionProfile = some action ∧
    DataProfile.ofName seed.dataProfile = some data

instance (atomicId : String) (action : ActionProfile) (data : DataProfile) :
    Decidable (HasProfiles atomicId action data) :=
  inferInstanceAs (Decidable (∀ seed ∈ cardSeeds.lookup atomicId, _))

/-- The blockers that a seed calls for do not have that one. -/
def LacksBlocker (atomicId : String) (blocker : Blocker) : Prop :=
  ∀ seed ∈ cardSeeds.lookup atomicId,
    ∀ blockers ∈ (seed.profiles >>= blockersOf atomicId seed).toOption, blocker.name ∉ blockers

instance (atomicId : String) (blocker : Blocker) : Decidable (LacksBlocker atomicId blocker) :=
  inferInstanceAs (Decidable (∀ seed ∈ cardSeeds.lookup atomicId, _))

section

variable {env : Environment} {sha256 : Bytes → String} {atomicId : String} {card : Card}

lemma profiles_card {action : ActionProfile} {data : DataProfile}
    (hid : HasProfiles atomicId action data) (h : IsCardOf sha256 atomicId card) :
    card.profiles.action = action ∧ card.profiles.data = data := by
  obtain ⟨seed, profiles, blockers, gaps, family, hseed, hprofiles, -, hbody⟩ := h.body
  obtain ⟨haction, hdata⟩ := profiles_eq_ok hprofiles
  obtain ⟨haction', hdata'⟩ := hid seed hseed
  rw [hbody]
  exact ⟨Option.some.inj (haction.symm.trans haction'), Option.some.inj (hdata.symm.trans hdata')⟩

lemma venue_card (h : IsCardOf sha256 atomicId card) :
    card.venue = venueFor card.profiles.action := by
  obtain ⟨seed, profiles, blockers, gaps, family, -, -, -, hbody⟩ := h.body
  rw [hbody]
  rfl

lemma lacks_card {blocker : Blocker} (hid : LacksBlocker atomicId blocker)
    (h : IsCardOf sha256 atomicId card) :
    negated (card.toValue.itemContains "blockers" blocker.name) = .ok true := by
  obtain ⟨seed, profiles, blockers, gaps, family, hseed, hprofiles, hblockers, hbody⟩ := h.body
  have hlacks : blocker.name ∉ blockers := by
    refine hid seed hseed blockers ?_
    rw [hprofiles]
    exact congrArg Except.toOption hblockers
  have hfield := (card_sections card).2.2.2.2
  rw [hbody] at hfield
  exact negated_eq_ok.2 (bind_eq_ok.2 ⟨_, item_eq_ok.2 hfield, not_contains_strings hlacks⟩)

/-- A card whose profile has no action takes none. -/
lemma inaction_card (h : (actionProfile card.profiles.action).actionType = []) :
    negated (card.toValue.nestedTruthy "action" "action_type") = .ok true := by
  have htype := (nested_action card).2.1
  rw [h] at htype
  exact negated_eq_ok.2 (nestedTruthy_eq_ok.2 ⟨_, htype, rfl⟩)

lemma isPrivateInaction_card (h : IsCardOf sha256 "D06-RFQ-DIRECTION-VOL-SIGNAL" card) :
    isPrivateInaction card.toValue = .ok true := by
  have hid : HasProfiles "D06-RFQ-DIRECTION-VOL-SIGNAL" .noAction .rfqPrivate := by
    decide +kernel
  obtain ⟨haction, hdata⟩ := profiles_card hid h
  have hprofile := nested_data card
  rw [hdata] at hprofile
  refine both_eq_true.2 ⟨nestedIs_of_nested hprofile, inaction_card ?_⟩
  rw [haction]
  rfl

lemma isControlOnly_card (h : IsCardOf sha256 "E01-SETTLEMENT-CONVERGENCE" card) :
    isControlOnly card.toValue = .ok true := by
  have hid : HasProfiles "E01-SETTLEMENT-CONVERGENCE" .controlOnly .terminal := by decide +kernel
  have hnever : ∀ seed ∈ cardSeeds.lookup "E01-SETTLEMENT-CONVERGENCE",
      text "never triggers an order" <:+: text seed.signal.directionSemantics := by
    decide +kernel
  obtain ⟨seed, profiles, blockers, gaps, family, hseed, -, -, hbody⟩ := h.body
  obtain ⟨haction, -⟩ := profiles_card hid h
  have hprofile := (nested_action card).1
  have hdirection := nested_direction card
  rw [haction] at hprofile
  rw [hbody] at hdirection
  refine both_eq_true.2 ⟨nestedIs_of_nested hprofile, both_eq_true.2 ⟨inaction_card ?_, ?_⟩⟩
  · rw [haction]
    rfl
  · exact bind_eq_ok.2 ⟨_, nestedItem_eq_ok.2 hdirection,
      congrArg Except.ok (decide_eq_true (hnever seed hseed))⟩

lemma needsNoVenue_card (h : IsCardOf sha256 "D09-MVE-CATALOG-SCHEMA" card) :
    needsNoVenue card.toValue = .ok true := by
  have hid : HasProfiles "D09-MVE-CATALOG-SCHEMA" .noAction .catalog := by decide +kernel
  have hlacks : LacksBlocker "D09-MVE-CATALOG-SCHEMA" .venuePermissionMissing := by
    decide +kernel
  have hvenue := nested_venue card
  rw [venue_card h, (profiles_card hid h).1] at hvenue
  exact both_eq_true.2 ⟨nestedIs_of_nested hvenue, lacks_card hlacks h⟩

lemma isDirectPackage_card (h : IsCardOf sha256 "D10-MVE-DIRECT-TRADING" card) :
    isDirectPackage card.toValue = .ok true := by
  have hid : HasProfiles "D10-MVE-DIRECT-TRADING" .mveDirect .mvePrivate := by decide +kernel
  have hlacks : LacksBlocker "D10-MVE-DIRECT-TRADING" .rfqPublicDataUnreleased := by
    decide +kernel
  obtain ⟨haction, hdata⟩ := profiles_card hid h
  have hprofile := (nested_action card).1
  have hcontract := nested_data card
  have hvenue := nested_venue card
  rw [haction] at hprofile
  rw [hdata] at hcontract
  rw [venue_card h, haction] at hvenue
  exact both_eq_true.2 ⟨nestedIs_of_nested hprofile, both_eq_true.2
    ⟨nestedIs_of_nested hcontract, both_eq_true.2 ⟨nestedIs_of_nested hvenue,
      lacks_card hlacks h⟩⟩⟩

end

/-! ### Checks by identifier -/

section

variable {env : Environment} {cards : List Card}

/-- Each card is that of some identifier. -/
def Identified (sha256 : Bytes → String) (cards : List Card) : Prop :=
  ∀ card ∈ cards, ∃ atomicId, IsCardOf sha256 atomicId card

lemma identified_of_forall₂ {sha256 : Bytes → String} {ids : List String}
    (h : List.Forall₂ (IsCardOf sha256) ids cards) : Identified sha256 cards := by
  induction h with
  | nil => exact fun _ h => absurd h List.not_mem_nil
  | cons hcard _ ih => exact List.forall_mem_cons.2 ⟨⟨_, hcard⟩, ih⟩

lemma cardCheck_eq_nil (hcards : Identified env.sha256 cards) {atomicId : String}
    {condition : PyValue → Raising Bool} {message : Message}
    (h : ∀ card, IsCardOf env.sha256 atomicId card → condition card.toValue = .ok true) :
    cardCheck ((cards.map Card.toValue).map fun card =>
      (card.nestedAt "identity" "experiment_id", card)) atomicId condition message = .ok [] := by
  rw [cardCheck, cardOf_map]
  cases hlast : lastCard (cards.map Card.toValue) atomicId with
  | none => rfl
  | some value =>
    have hmem := List.mem_reverse.1 (List.mem_of_find?_eq_some hlast)
    obtain ⟨card, hcard, rfl⟩ := List.mem_map.1 hmem
    have hid := List.find?_some hlast
    obtain ⟨atomicId', hcard⟩ := hcards card hcard
    have hnested : card.toValue.nestedAt "identity" "experiment_id" = string atomicId' := by
      rw [nestedAt, nested_experimentId hcard]
      rfl
    rw [hnested, isText_iff, string_inj] at hid
    exact expect_eq_nil.2 (h card (hid ▸ hcard))

lemma rfqReport_eq_nil (henv : Intact env) (hcards : Identified env.sha256 cards) :
    rfqReport env ((cards.map Card.toValue).map fun card =>
      (card.nestedAt "identity" "experiment_id", card)) = .ok [] := by
  simp only [rfqReport, allReports_eq_nil, List.forall_mem_append, List.forall_mem_map,
    List.forall_mem_flatMap, List.forall_mem_cons]
  refine ⟨⟨fun id hid => ?_, fun id hid => ⟨?_, ?_, fun _ h => absurd h List.not_mem_nil⟩⟩, ?_,
    fun _ h => absurd h List.not_mem_nil⟩
  · exact cardCheck_eq_nil hcards fun card => isUnsigned_card henv hid
  · exact cardCheck_eq_nil hcards fun card => guardsBothSides_card hid
  · exact cardCheck_eq_nil hcards fun card => hasNoSide_card henv hid
  · exact cardCheck_eq_nil hcards fun card => isPrivateInaction_card

lemma namedReport_eq_nil (hcards : Identified env.sha256 cards) :
    namedReport ((cards.map Card.toValue).map fun card =>
      (card.nestedAt "identity" "experiment_id", card)) = .ok [] := by
  simp only [namedReport, allReports_eq_nil, List.forall_mem_cons]
  exact ⟨cardCheck_eq_nil hcards fun card => isControlOnly_card,
    cardCheck_eq_nil hcards fun card => needsNoVenue_card,
    cardCheck_eq_nil hcards fun card => isDirectPackage_card,
    fun _ h => absurd h List.not_mem_nil⟩

lemma childReport_card {atomicId : String} {card : Card} (h : IsCardOf env.sha256 atomicId card) :
    childReport card.toValue = .ok [] := by
  obtain ⟨seed, profiles, blockers, gaps, family, -, -, hblockers, hbody⟩ := h.body
  have hprofiles : card.profiles = profiles ∧ card.blockers = blockers := by
    rw [hbody]
    exact ⟨rfl, rfl⟩
  obtain ⟨-, haction, -, -, hfield⟩ := card_sections card
  have hidentity : card.toValue.field "identity" =
      some (identityValue card.atomicId card.family) :=
    card_field card List.mem_cons_self
  have hprofile := (action_fields card.profiles.action card.seed.signal.trigger).2.1
  refine bind_eq_ok.2 ⟨_, getOr_eq_ok.2 ⟨rfl, by rw [haction, Option.getD_some]⟩, bind_eq_ok.2
    ⟨_, get_eq_ok.2 ⟨rfl, valueAt_of_field hprofile⟩, bind_eq_ok.2 ⟨_, rfl, ?_⟩⟩⟩
  split
  · rename_i hchild
    have hmem : profiles.action ∈ childDependentActionProfiles := by
      obtain ⟨name, hname, heq⟩ := isOneOf_iff.1 hchild
      rw [string_inj, hprofiles.1] at heq
      subst heq
      revert hname
      cases profiles.action <;> decide
    have hblocked := (mem_blockersOf hblockers).1 hmem
    rw [← hprofiles.2] at hblocked
    refine bind_eq_ok.2 ⟨_, getOr_eq_ok.2 ⟨rfl, by rw [hidentity, Option.getD_some]⟩, bind_eq_ok.2
      ⟨_, get_eq_ok.2 ⟨rfl, rfl⟩, expect_eq_nil.2 (bind_eq_ok.2 ⟨strings card.blockers,
        getOr_eq_ok.2 ⟨rfl, by rw [hfield, Option.getD_some]⟩, ?_⟩)⟩⟩
    exact contains_strings hblocked
  · rfl

end

end HftBot.Experiment
