import HftBot.Core.SameJson
import HftBot.Experiment.ReadableRegistry

/-!
# What is accepted is pinned

A registry with no errors has the cards that the seeds make, each the same JSON as its card: the
last check of a card compares all of it, and the hash in the card settles the kinds of its numbers.
The summary is compared as the language compares, and nothing settles the kinds of its numbers.
-/

namespace HftBot.Experiment

open HftBot.Core PyValue

/-! ### A card -/

lemma fail_ne_nil {message : Message} : fail message ≠ .ok [] := by
  rintro ⟨⟩

lemma seededReport_eq_nil {env : Environment} {card : PyValue} {atomicId : String} {seed : Seed}
    (h : seededReport env card atomicId seed = .ok []) :
    ∃ built, buildCard env.sha256 atomicId seed = .ok built ∧ card.eq built.toValue = true := by
  rw [seededReport, bind_eq_ok] at h
  obtain ⟨s, -, h⟩ := h
  cases hshapes : (shapes s).all (·.1) with
  | false =>
    rw [hshapes, if_neg Bool.false_ne_true, allReports_eq_nil, List.forall_mem_map] at h
    have hall : (shapes s).all (·.1) = true :=
      List.all_eq_true.2 fun shape hshape => pure_eq_ok.1 (expect_eq_nil.1 (h shape hshape))
    exact absurd (hshapes.symm.trans hall) Bool.false_ne_true
  | true =>
    rw [hshapes, if_pos rfl, bodyReport] at h
    obtain ⟨profiles, -, h⟩ := bind_eq_ok.1 h
    obtain ⟨blockers, -, h⟩ := bind_eq_ok.1 h
    obtain ⟨gaps, -, h⟩ := bind_eq_ok.1 h
    obtain ⟨family, -, h⟩ := bind_eq_ok.1 h
    obtain ⟨hasAction, -, h⟩ := bind_eq_ok.1 h
    -- the last check is the one that looks at the whole card
    simp only [allReports_eq_nil, List.forall_mem_cons] at h
    obtain ⟨-, -, -, -, -, -, -, hcard, -⟩ := h
    obtain ⟨built, hbuilt, heq⟩ := bind_eq_ok.1 (expect_eq_nil.1 hcard)
    exact ⟨built, hbuilt, pure_eq_ok.1 heq⟩

/-- The card without errors is signed and equal to the card of its seed. -/
lemma cardReport_eq_nil {env : Environment} {card : PyValue} (h : cardReport env card = .ok []) :
    signed env card "definition_sha256" = .ok true ∧
      ∃ e built, (cardSeeds.find? fun e => (idAt card).isText e.1) = some e ∧
        buildCard env.sha256 e.1 e.2 = .ok built ∧ card.eq built.toValue = true := by
  rw [cardReport] at h
  cases hcard : card.isDict with
  | false =>
    rw [hcard] at h
    exact absurd h fail_ne_nil
  | true =>
    rw [hcard, if_pos rfl] at h
    obtain ⟨identity, hidentity, h⟩ := bind_eq_ok.1 h
    obtain ⟨-, rfl⟩ := getOr_eq_ok.1 hidentity
    obtain ⟨cardId, hid, h⟩ := bind_eq_ok.1 h
    obtain ⟨-, rfl⟩ := getOr_eq_ok.1 hid
    simp only [allReports_eq_nil, List.forall_mem_cons] at h
    obtain ⟨hsigned, hreport, -⟩ := h
    refine ⟨expect_eq_nil.1 hsigned, ?_⟩
    split at hreport
    · obtain ⟨found, hfound, hreport⟩ := bind_eq_ok.1 hreport
      obtain ⟨-, hfound⟩ := seedOf_eq_ok.1 hfound
      cases found with
      | none => exact absurd hreport fail_ne_nil
      | some e =>
        obtain ⟨built, hbuilt, heq⟩ := seededReport_eq_nil hreport
        exact ⟨e, built, hfound, hbuilt, heq⟩
    · exact absurd hreport fail_ne_nil

/-! ### The hash -/

/-- The digests of canonical texts are different when the texts are. -/
def InjectiveOnCanonical (sha256 : Bytes → String) : Prop :=
  ∀ {v w : PyValue} {b c : Bytes}, v.canonicalJson = .ok b → w.canonicalJson = .ok c →
    sha256 b = sha256 c → b = c

lemma signed_eq_true {env : Environment} {v : PyValue} {key : String} :
    signed env v key = .ok true ↔ ∃ b, (v.without key).canonicalJson = .ok b ∧
      v.field key = some (string (env.sha256 b)) := by
  simp only [signed, sha256Of, bind_eq_ok, pure_eq_ok]
  constructor
  · rintro ⟨w, hw, digest, ⟨b, hb, rfl⟩, h⟩
    obtain ⟨-, rfl⟩ := get_eq_ok.1 hw
    obtain ⟨w, hw, h⟩ :=
      (exists_getD_iff (P := fun w => w.isText (env.sha256 b) = true) not_isText_null).2 h
    rw [isText_iff.1 h] at hw
    exact ⟨b, hb, hw⟩
  · rintro ⟨b, hb, h⟩
    refine ⟨_, get_eq_ok.2 ⟨isDict_of_field h, rfl⟩, _, ⟨b, hb, rfl⟩, ?_⟩
    rw [valueAt, h]
    exact isText_iff.2 rfl

lemma object_without {members : List (String × PyValue)} {key : String}
    (h : key ∉ members.map (·.1)) (v : PyValue) :
    (object (members ++ [(key, v)])).without key = object members := by
  have hne : ∀ m ∈ members, text m.1 ≠ text key := by
    rintro m hm heq
    exact h (List.mem_map.2 ⟨m, hm, text_inj.1 heq⟩)
  rw [object, object, without, List.map_append, List.filter_append]
  refine congrArg dict ?_
  have hself : (members.map fun m => (text m.1, m.2)).filter (fun m => m.1 ≠ text key) =
      members.map fun m => (text m.1, m.2) := by
    refine List.filter_eq_self.2 fun m hm => ?_
    obtain ⟨m', hm', rfl⟩ := List.mem_map.1 hm
    exact decide_eq_true (hne m' hm')
  rw [hself, List.map_singleton, List.filter_cons_of_neg (by simp), List.filter_nil,
    List.append_nil]

lemma field_of_wellFormed {members : List (String × PyValue)} (h : (object members).WellFormed)
    {key : String} {v : PyValue} (hmem : (key, v) ∈ members) :
    (object members).field key = some v :=
  lookup_of_mem_of_nodup h.1 (List.mem_map.2 ⟨_, hmem, rfl⟩)

lemma object_field {members : List (String × PyValue)} (hkeys : (members.map (·.1)).Nodup)
    {key : String} {v : PyValue} (h : (key, v) ∈ members) :
    (object members).field key = some v := by
  have hnodup : ((members.map fun m => (text m.1, m.2)).map (·.1)).Nodup := by
    have htexts := hkeys.map fun _ _ => text_inj.1
    rwa [List.map_map] at htexts ⊢
  exact lookup_of_mem_of_nodup hnodup (List.mem_map.2 ⟨_, h, rfl⟩)

/-- A card that is built carries the hash of its sections. -/
lemma signed_buildCard {env : Environment} {atomicId : String} {seed : Seed} {built : Card}
    (h : buildCard env.sha256 atomicId seed = .ok built) :
    ∃ b, (built.toValue.without "definition_sha256").canonicalJson = .ok b ∧
      built.toValue.field "definition_sha256" = some (string (env.sha256 b)) := by
  obtain ⟨profiles, blockers, gaps, family, digest, -, -, -, -, hdigest, rfl⟩ :=
    buildCard_eq_ok.1 h
  obtain ⟨b, hb, hdigest⟩ := bind_eq_ok.1 hdigest
  obtain rfl := pure_eq_ok.1 hdigest
  refine ⟨b, ?_, ?_⟩
  · rw [Card.toValue, object_without (by simp [CardBody.sections])]
    exact hb
  · exact object_field (by simp [CardBody.sections])
      (List.mem_append_right _ (List.mem_singleton_self _))

/-- A card that is signed and equal to one that is built is the same JSON. -/
lemma sameJson_card {env : Environment} (hinj : InjectiveOnCanonical env.sha256) {card : PyValue}
    (hcard : card.WellFormed) (hsigned : signed env card "definition_sha256" = .ok true)
    {atomicId : String} {seed : Seed} {built : Card}
    (hbuilt : buildCard env.sha256 atomicId seed = .ok built)
    (h : card.eq built.toValue = true) : SameJson card built.toValue := by
  obtain ⟨b, hb, hbkey⟩ := signed_eq_true.1 hsigned
  obtain ⟨c, hc, hckey⟩ := signed_buildCard hbuilt
  exact sameJson_of_hash env.sha256 hinj hcard (regular_card built).wellFormed h hb hc hbkey hckey

/-! ### All cards -/

lemma eqList_strings {vs : List PyValue} {ss : List String} :
    eqList vs (ss.map string) = true ↔ vs = ss.map string := by
  induction vs generalizing ss with
  | nil =>
    cases ss with
    | nil => exact iff_of_true rfl rfl
    | cons s ss => exact iff_of_false Bool.false_ne_true fun h => by cases h
  | cons v vs ih =>
    cases ss with
    | nil => exact iff_of_false Bool.false_ne_true fun h => by cases h
    | cons s ss =>
      rw [List.map_cons, eqList, Bool.and_eq_true, ih, List.cons.injEq]
      exact and_congr_left' isText_iff

lemma lookup_of_find {α : Type} {table : List (String × α)} {s : String} {e : String × α}
    (h : (table.find? fun e => (string s).isText e.1) = some e) :
    e.1 = s ∧ table.lookup s = some e.2 := by
  induction table with
  | nil => cases h
  | cons entry rest ih =>
    rw [List.find?_cons] at h
    rw [List.lookup_cons]
    split at h
    · rename_i hentry
      obtain rfl := Option.some.inj h
      obtain rfl := string_inj.1 (isText_iff.1 hentry)
      exact ⟨rfl, by rw [beq_self_eq_true]⟩
    · rename_i hentry
      have hne : (s == entry.1) = false := by
        refine beq_false_of_ne ?_
        rintro rfl
        exact absurd (hentry.symm.trans (isText_iff.2 rfl)) Bool.false_ne_true
      rw [hne]
      exact ih h

lemma idAt_eq {card : PyValue} (h : HasKey card "identity" "experiment_id") :
    idAt card = card.nestedAt "identity" "experiment_id" := by
  rw [idAt, nested_identity h.nested_eq.1]
  rfl

/-- The cards without errors under some identifiers are those of the seeds of these. -/
lemma exists_cards {env : Environment} (hinj : InjectiveOnCanonical env.sha256)
    {experiments : List PyValue} {ids : List String}
    (hids : experiments.map (fun card => card.nestedAt "identity" "experiment_id") =
      ids.map string)
    (h : ∀ card ∈ experiments, card.WellFormed ∧ HasKey card "identity" "experiment_id" ∧
      cardReport env card = .ok []) :
    ∃ cards : List Card, (ids.mapM fun id => do
        let seed ← orRaise .keyError (cardSeeds.lookup id)
        buildCard env.sha256 id seed) = .ok cards ∧
      List.Forall₂ SameJson experiments (cards.map Card.toValue) := by
  induction experiments generalizing ids with
  | nil =>
    obtain rfl := List.map_eq_nil_iff.1 hids.symm
    exact ⟨[], rfl, .nil⟩
  | cons card rest ih =>
    cases ids with
    | nil => cases hids
    | cons id ids =>
      obtain ⟨hid, hids⟩ := List.cons.inj hids
      obtain ⟨⟨hwf, hkey, hreport⟩, hrest⟩ := List.forall_mem_cons.1 h
      obtain ⟨cards, hcards, hsame⟩ := ih hids hrest
      obtain ⟨hsigned, e, built, hfound, hbuilt, heq⟩ := cardReport_eq_nil hreport
      have hidAt : idAt card = string id := (idAt_eq hkey).trans hid
      rw [hidAt] at hfound
      obtain ⟨rfl, hlookup⟩ := lookup_of_find hfound
      refine ⟨built :: cards, mapM_eq_ok.2 (.cons ?_ (mapM_eq_ok.1 hcards)),
        .cons (sameJson_card hinj hwf hsigned hbuilt heq) hsame⟩
      exact bind_eq_ok.2 ⟨e.2, orRaise_eq_ok.2 hlookup, hbuilt⟩

/-! ### The summary -/

/-- The value is its own form with sorted members. -/
def IsLeaf (v : PyValue) : Prop := ∀ {w : PyValue}, w.sorted = v.sorted → w = v

lemma isLeaf_str (s : Text) : IsLeaf (str s) := by
  intro w h
  cases w with
  | str t => exact h
  | _ => cases h

lemma isLeaf_bool (b : Bool) : IsLeaf (.bool b) := by
  intro w h
  cases w with
  | bool c => exact h
  | _ => cases h

lemma exists_field_of_sameJson {v w u : PyValue} (hv : v.WellFormed) (h : SameJson v w)
    {key : String} (hw : w.field key = some u) :
    ∃ x, v.field key = some x ∧ x.WellFormed ∧ SameJson x u := by
  have hfield : (v.field key).map sorted = (w.field key).map sorted := sorted_field hv h
  rw [hw, Option.map_some, Option.map_eq_some_iff] at hfield
  obtain ⟨x, hx, hsame⟩ := hfield
  exact ⟨x, hx, wellFormed_field hv hx, hsame⟩

lemma nested_of_sameJson {v w u : PyValue} (hv : v.WellFormed) (h : SameJson v w)
    {outer inner : String} (hu : IsLeaf u) (hw : w.nested outer inner = some u) :
    v.nested outer inner = some u := by
  obtain ⟨y, hy, hinner⟩ := Option.bind_eq_some_iff.1 hw
  obtain ⟨x, hx, hxwf, hxy⟩ := exists_field_of_sameJson hv h hy
  obtain ⟨z, hz, -, hzu⟩ := exists_field_of_sameJson hxwf hxy hinner
  rw [nested, hx, Option.bind_some, hz, hu hzu]

lemma card_field (card : Card) {name : String} {v : PyValue} (h : (name, v) ∈ card.sections) :
    card.toValue.field name = some v :=
  object_field (by simp [CardBody.sections]) (List.mem_append_left _ h)

/-- The members that a summary is made of. -/
lemma nested_card (card : Card) :
    card.toValue.nested "identity" "family_code" = some (str [codePoint card.family.1]) ∧
      card.toValue.nested "classification" "computed_class" =
        some (string card.classification.computedClass) ∧
      card.toValue.nested "classification" "target_class" =
        some (string card.classification.targetClass) ∧
      card.toValue.nested "classification" "strategy_eligible" =
        some (.bool card.classification.strategyEligible) := by
  have hidentity : card.toValue.field "identity" =
      some (identityValue card.atomicId card.family) :=
    card_field card List.mem_cons_self
  have hclassification : card.toValue.field "classification" =
      some card.classification.toValue :=
    card_field card (List.mem_cons_of_mem _ List.mem_cons_self)
  simp only [nested, hidentity, hclassification, Option.bind_some]
  refine ⟨?_, ?_, ?_, ?_⟩
  · exact object_field (by simp) (by simp)
  · exact object_field (by simp [-String.reduceAppend]) (by simp [-String.reduceAppend])
  · exact object_field (by simp [-String.reduceAppend]) (by simp [-String.reduceAppend])
  · exact object_field (by simp [-String.reduceAppend]) (by simp [-String.reduceAppend])

lemma summaryForCards_congr {experiments : List PyValue} {cards : List Card}
    (hwf : ∀ card ∈ experiments, card.WellFormed)
    (h : List.Forall₂ SameJson experiments (cards.map Card.toValue)) :
    summaryForCards experiments = summaryForCards (cards.map Card.toValue) := by
  have hnested : List.Forall₂ (fun v w => summaryKeys v = summaryKeys w ∧
      v.nestedItem "classification" "strategy_eligible" =
        w.nestedItem "classification" "strategy_eligible") experiments
      (cards.map Card.toValue) := by
    rw [List.forall₂_map_right_iff] at h ⊢
    refine List.forall₂_iff_zip.2 ⟨h.length_eq, fun {v card} hmem => ?_⟩
    have hv : v.WellFormed := hwf v (List.of_mem_zip hmem).1
    have hsame : SameJson v card.toValue := (List.forall₂_iff_zip.1 h).2 hmem
    obtain ⟨hfamily, hcomputed, htarget, heligible⟩ := nested_card card
    have heq : ∀ {outer inner : String} {u : PyValue}, IsLeaf u →
        card.toValue.nested outer inner = some u →
        v.nestedItem outer inner = card.toValue.nestedItem outer inner := fun hu hw =>
      (nestedItem_eq_ok.2 (nested_of_sameJson hv hsame hu hw)).trans (nestedItem_eq_ok.2 hw).symm
    refine ⟨?_, heq (isLeaf_bool _) heligible⟩
    rw [summaryKeys, summaryKeys, heq (isLeaf_str _) hfamily, heq (isLeaf_str _) hcomputed,
      heq (isLeaf_str _) htarget]
  rw [summaryForCards, summaryForCards, mapM_congr (hnested.imp fun _ _ h => h.1),
    mapM_congr (hnested.imp fun _ _ h => h.2), h.length_eq]

/-! ### The registry -/

/-- Experiments without errors are the cards of the seeds, and the summary is equal to theirs. -/
lemma experimentsReport_eq_nil {env : Environment} (hinj : InjectiveOnCanonical env.sha256)
    {registry : PyValue} {experiments : List PyValue} (hreadable : ExperimentsReadable experiments)
    (hwf : ∀ card ∈ experiments, card.WellFormed)
    (h : experimentsReport env registry experiments = .ok []) :
    ∃ cards summary value, buildCards env.sha256 = .ok cards ∧
      List.Forall₂ SameJson experiments (cards.map Card.toValue) ∧
      summaryForCards (cards.map Card.toValue) = .ok summary ∧ summary.toValue = some value ∧
      (registry.valueAt "summary").eq value = true := by
  have hkeys : ∀ card ∈ experiments, HasKey card "identity" "experiment_id" :=
    fun card hcard => (hreadable.card card hcard).id
  rw [experimentsReport, bind_eq_ok] at h
  obtain ⟨stored, hstored, h⟩ := h
  obtain ⟨-, rfl⟩ := get_eq_ok.1 hstored
  simp only [allReports_eq_nil, List.forall_mem_append, List.forall_mem_cons,
    List.forall_mem_map] at h
  obtain ⟨⟨⟨⟨⟨hids, -⟩, hcards⟩, -⟩, -⟩, -, hsummary, -⟩ := h
  rw [idsReport, cardIds_eq_ok hkeys] at hids
  have hids := (allReports_eq_nil.1 hids) _ (List.mem_cons_of_mem _ List.mem_cons_self)
  have hordered := eqList_strings.1 (pure_eq_ok.1 (expect_eq_nil.1 hids))
  obtain ⟨cards, hbuilt, hsame⟩ := exists_cards hinj hordered fun card hcard =>
    ⟨hwf card hcard, hkeys card hcard, hcards card hcard⟩
  obtain ⟨summary, hrecomputed, hsummary⟩ := bind_eq_ok.1 hsummary
  have hequal := pure_eq_ok.1 (expect_eq_nil.1 hsummary)
  rw [Option.any_eq_true] at hequal
  obtain ⟨value, hvalue, hequal⟩ := hequal
  rw [summaryForCards_congr hwf hsame] at hrecomputed
  exact ⟨cards, summary, value, hbuilt, hsame, hrecomputed, hvalue, hequal⟩

end HftBot.Experiment
