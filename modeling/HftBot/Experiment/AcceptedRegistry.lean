import HftBot.Experiment.AcceptedNamed

/-!
# The registry of the seeds is accepted

In a repository whose files are the bound ones, the registry that the seeds make has no errors, and
neither has one whose summary is only equal to that of the cards.
-/

namespace HftBot.Experiment

open HftBot.Core PyValue

/-! ### Counts -/

/-- The counts of texts, as a dictionary. -/
def textCounts (counts : List (Text × Nat)) : Counts := counts.map fun c => (str c.1, c.2)

/-- Counting a text adds it unless it is there. -/
lemma add_textCounts (counts : List (Text × Nat)) (t : Text) : ∃ counts',
    (textCounts counts).add (str t) = textCounts counts' ∧
      counts'.map (·.1) =
        if t ∈ counts.map (·.1) then counts.map (·.1) else counts.map (·.1) ++ [t] := by
  induction counts with
  | nil => exact ⟨[(t, 1)], rfl, rfl⟩
  | cons c rest ih =>
    obtain ⟨u, n⟩ := c
    have hadd : (textCounts ((u, n) :: rest)).add (str t) = if u = t then
        (str u, n + 1) :: textCounts rest else (str u, n) :: (textCounts rest).add (str t) := by
      change (if decide (u = t) = true then _ else _) = _
      simp only [decide_eq_true_iff]
      rfl
    rw [hadd]
    by_cases hu : u = t
    · refine ⟨(u, n + 1) :: rest, if_pos hu, ?_⟩
      rw [if_pos (by simp [hu])]
      rfl
    · obtain ⟨counts', hcounts, hkeys⟩ := ih
      refine ⟨(u, n) :: counts', ?_, ?_⟩
      · rw [if_neg hu, hcounts]
        rfl
      · rw [List.map_cons, hkeys]
        by_cases ht : t ∈ rest.map (·.1)
        · rw [if_pos ht, if_pos (by simp [ht])]
          rfl
        · rw [if_neg ht, if_neg (by simp [ht, Ne.symm hu])]
          rfl

/-- The texts that are counted, each once. -/
lemma tally_texts (ts : List Text) : ∃ counts, tally (ts.map str) = textCounts counts ∧
    (counts.map (·.1)).Nodup ∧ ∀ t, t ∈ counts.map (·.1) ↔ t ∈ ts := by
  induction ts using List.reverseRecOn with
  | nil => exact ⟨[], rfl, List.nodup_nil, fun _ => Iff.rfl⟩
  | append_singleton ts t ih =>
    obtain ⟨counts, htally, hnodup, hmem⟩ := ih
    obtain ⟨counts', hadd, hkeys⟩ := add_textCounts counts t
    refine ⟨counts', ?_, ?_, fun u => ?_⟩
    · rw [← hadd, ← htally, tally, tally, List.map_append, List.foldl_append]
      rfl
    · rw [hkeys]
      split
      · exact hnodup
      · rename_i ht
        exact List.nodup_append.2 ⟨hnodup, List.nodup_singleton t, by
          rintro a ha b hb rfl
          exact ht (List.mem_singleton.1 hb ▸ ha)⟩
    · rw [hkeys, List.mem_append, List.mem_singleton, ← hmem]
      split
      · rename_i ht
        exact ⟨.inl, fun h => h.elim id fun h => h ▸ ht⟩
      · rw [List.mem_append, List.mem_singleton]

lemma length_tally {ts : List Text} (h : ts.Nodup) : (tally (ts.map str)).length = ts.length := by
  obtain ⟨counts, htally, hnodup, hmem⟩ := tally_texts ts
  have hperm := (List.perm_ext_iff_of_nodup hnodup h).2 hmem
  rw [htally, textCounts, List.length_map, ← List.length_map, hperm.length_eq]

lemma toValue_textCounts (counts : List (Text × Nat)) :
    (textCounts counts).toValue = some (dict (counts.map fun c => (c.1, int c.2))) := by
  rw [Counts.toValue, Option.map_eq_some_iff]
  refine ⟨_, ?_, rfl⟩
  induction counts with
  | nil => rfl
  | cons c rest ih =>
    rw [textCounts, List.map_cons, List.mapM_cons]
    exact Option.bind_eq_some_iff.2 ⟨_, rfl, Option.bind_eq_some_iff.2 ⟨_, ih, rfl⟩⟩

/-- The counts of texts as an object. -/
lemma toValue_tally (ts : List Text) (h : ∀ t ∈ ts, ∀ c ∈ t, ¬ c.IsSurrogate) :
    ∃ v, (tally (ts.map str)).toValue = some v ∧ v.Regular := by
  obtain ⟨counts, htally, hnodup, hmem⟩ := tally_texts ts
  refine ⟨_, htally ▸ toValue_textCounts counts, regular_dict ?_ fun m hm => ?_⟩
  · rwa [List.map_map]
  · obtain ⟨c, hc, rfl⟩ := List.mem_map.1 hm
    exact ⟨h c.1 ((hmem c.1).1 (List.mem_map_of_mem hc)), regular_int _⟩

/-! ### The summary -/

lemma summaryKeys_card (card : Card) : summaryKeys card.toValue =
    .ok (str [codePoint card.family.1], string card.classification.computedClass,
      string card.classification.targetClass) := by
  obtain ⟨hfamily, hcomputed, htarget, -⟩ := nested_card card
  exact bind_eq_ok.2 ⟨_, nestedItem_eq_ok.2 hfamily, bind_eq_ok.2 ⟨_, nestedItem_eq_ok.2 hcomputed,
    bind_eq_ok.2 ⟨_, nestedItem_eq_ok.2 htarget, rfl⟩⟩⟩

lemma sum_bools (bs : List Bool) : ∃ n, sum (bs.map .bool) = .ok (int n) := by
  have hrun : ∀ m, ∃ n, (bs.map PyValue.bool).foldlM plus (int m) = .ok (int n) := by
    induction bs with
    | nil => exact fun m => ⟨m, rfl⟩
    | cons b bs ih => exact fun m => ih (m + b.toInt)
  exact hrun 0

lemma summary_toValue {s : Summary} {families computed target : PyValue}
    (hfamilies : s.familyCounts.toValue = some families)
    (hcomputed : s.computedClassCounts.toValue = some computed)
    (htarget : s.targetClassCounts.toValue = some target) : ∃ warning, s.toValue =
      some (object [("total_cards", int s.totalCards), ("family_counts", families),
        ("computed_class_counts", computed), ("target_class_counts", target),
        ("strategy_eligible_now", s.strategyEligibleNow), ("warning", string warning)]) :=
  ⟨_, Option.bind_eq_some_iff.2 ⟨families, hfamilies, Option.bind_eq_some_iff.2
    ⟨computed, hcomputed, Option.bind_eq_some_iff.2 ⟨target, htarget, rfl⟩⟩⟩⟩

/-- The summary of cards: how many there are, and the rest. -/
lemma exists_summary (cards : List Card) : ∃ summary rest,
    summaryForCards (cards.map Card.toValue) = .ok summary ∧
      summary.toValue = some (object (("total_cards", int cards.length) :: rest)) ∧
      rest.map (·.1) = ["family_counts", "computed_class_counts", "target_class_counts",
        "strategy_eligible_now", "warning"] ∧ ∀ m ∈ rest, m.2.Regular := by
  obtain ⟨n, hsum⟩ := sum_bools (cards.map fun card => card.classification.strategyEligible)
  have htally : ∀ f : Card → Text, (∀ card, ∀ c ∈ f card, ¬ c.IsSurrogate) → ∃ v,
      (tally (cards.map fun card => str (f card))).toValue = some v ∧ v.Regular := by
    intro f hf
    have h := toValue_tally (cards.map f) (by
      intro t ht
      obtain ⟨card, -, rfl⟩ := List.mem_map.1 ht
      exact hf card)
    rwa [List.map_map] at h
  have hname : ∀ f : Card → String, ∀ card, ∀ c ∈ text (f card), ¬ c.IsSurrogate :=
    fun f card c hc hsurr => not_mem_text hsurr _ hc
  obtain ⟨families, hfamilies, hregularF⟩ := htally (fun card => [codePoint card.family.1])
    fun card c hc => List.mem_singleton.1 hc ▸ not_isSurrogate_codePoint card.family.1
  obtain ⟨computed, hcomputed, hregularC⟩ := htally _
    (hname fun card => card.classification.computedClass)
  obtain ⟨target, htarget, hregularT⟩ := htally _
    (hname fun card => card.classification.targetClass)
  have hkeys : (cards.map Card.toValue).mapM summaryKeys = .ok (cards.map fun card =>
      (str [codePoint card.family.1], string card.classification.computedClass,
        string card.classification.targetClass)) := by
    rw [mapM_eq_ok, List.forall₂_map_left_iff, List.forall₂_map_right_iff, List.forall₂_same]
    exact fun card _ => summaryKeys_card card
  have heligible : ((cards.map Card.toValue).mapM fun card =>
      card.nestedItem "classification" "strategy_eligible") =
        .ok ((cards.map fun card => card.classification.strategyEligible).map .bool) := by
    rw [List.map_map, mapM_eq_ok, List.forall₂_map_left_iff, List.forall₂_map_right_iff,
      List.forall₂_same]
    exact fun card _ => nestedItem_eq_ok.2 (nested_card card).2.2.2
  let summary : Summary :=
    { totalCards := cards.length
      familyCounts := tally (cards.map fun card => str [codePoint card.family.1])
      computedClassCounts := tally (cards.map fun card => string card.classification.computedClass)
      targetClassCounts := tally (cards.map fun card => string card.classification.targetClass)
      strategyEligibleNow := int n }
  have hsummary : summaryForCards (cards.map Card.toValue) = .ok summary := by
    refine bind_eq_ok.2 ⟨_, hkeys, bind_eq_ok.2 ⟨_, heligible, bind_eq_ok.2 ⟨_, hsum, ?_⟩⟩⟩
    rw [List.map_map, List.map_map, List.map_map, List.length_map]
    rfl
  obtain ⟨warning, hvalue⟩ := summary_toValue (s := summary) hfamilies hcomputed htarget
  refine ⟨summary, _, hsummary, hvalue, rfl, ?_⟩
  simp only [List.forall_mem_cons]
  exact ⟨hregularF, hregularC, hregularT, regular_int n, regular_string warning,
    fun _ h => absurd h List.not_mem_nil⟩

/-! ### Identifiers and families -/

lemma find_of_lookup {α : Type} {table : List (String × α)} {s : String} {a : α}
    (h : table.lookup s = some a) :
    (table.find? fun e => (string s).isText e.1) = some (s, a) := by
  induction table with
  | nil => cases h
  | cons entry rest ih =>
    rw [List.lookup_cons] at h
    rw [List.find?_cons, isText_string]
    by_cases hs : s = entry.1
    · subst hs
      rw [beq_self_eq_true] at h
      obtain rfl := Option.some.inj h
      rw [decide_eq_true rfl]
    · rw [beq_false_of_ne hs] at h
      rw [decide_eq_false hs]
      exact ih h

lemma seed_ids : cardSeeds.map (·.1) = atomicIds := by decide +kernel

lemma atomicIds_nodup : atomicIds.Nodup := by decide +kernel

lemma take_text {s : String} (hpos : 0 < firstByte s) (hascii : firstByte s < 128) :
    (text s).take 1 = [ofByte (firstByte s)] := by
  obtain ⟨rest, hrest⟩ := List.head?_eq_some_iff.1 (head_text hpos hascii)
  rw [text, hrest]
  rfl

/-- The first letters of the identifiers have the counts that are expected. -/
lemma family_counts : (tally (atomicIds.map fun id => str ((text id).take 1))).isValue
    expectedFamilyCounts = true := by
  have hascii : ∀ id ∈ atomicIds, 0 < firstByte id ∧ firstByte id < 128 := by decide +kernel
  have hfirst : (atomicIds.map fun id => str ((text id).take 1)) =
      atomicIds.map fun id => str [ofByte (firstByte id)] :=
    List.map_congr_left fun id hid => congrArg str (take_text (hascii id hid).1 (hascii id hid).2)
  rw [hfirst]
  decide +kernel

section

variable {env : Environment} {ids : List String} {cards : List Card}

lemma nestedAt_ids {sha256 : Bytes → String} (h : List.Forall₂ (IsCardOf sha256) ids cards) :
    ((cards.map Card.toValue).map fun card => card.nestedAt "identity" "experiment_id") =
      ids.map string := by
  induction h with
  | nil => rfl
  | cons hcard _ ih =>
    rw [List.map_cons, List.map_cons, List.map_cons, ih, nestedAt, nested_experimentId hcard]
    rfl

lemma hasKey_cards (h : Identified env.sha256 cards) :
    ∀ card ∈ cards.map Card.toValue, HasKey card "identity" "experiment_id" := by
  intro card hcard
  obtain ⟨built, hbuilt, rfl⟩ := List.mem_map.1 hcard
  obtain ⟨atomicId, hid⟩ := h built hbuilt
  exact ⟨_, nested_experimentId hid, rfl⟩

lemma cardReport_card {card : Card} {atomicId : String} (h : IsCardOf env.sha256 atomicId card) :
    cardReport env card.toValue = .ok [] := by
  obtain ⟨seed, hseed, hcard⟩ := h
  exact cardReport_of_buildCard (find_of_lookup hseed) hcard

lemma idsReport_eq_nil (h : buildCards env.sha256 = .ok cards) :
    idsReport (cards.map Card.toValue) = .ok [] := by
  have hcards := buildCards_eq_ok.1 h
  have hlength : (cards.map Card.toValue).length = 106 := by
    rw [List.length_map, ← hcards.length_eq]
    rfl
  have hkeys : (atomicIds.map string).mapM asKey = .ok (atomicIds.map string) := by
    rw [mapM_eq_ok, List.forall₂_map_left_iff, List.forall₂_map_right_iff, List.forall₂_same]
    exact fun _ _ => rfl
  have htally : (tally (atomicIds.map string)).length = (atomicIds.map string).length := by
    have htexts : (atomicIds.map text).Nodup := atomicIds_nodup.map fun _ _ => text_inj.1
    have hlen := length_tally htexts
    rwa [List.map_map, List.length_map, ← List.length_map (f := string)] at hlen
  refine bind_eq_ok.2 ⟨_, cardIds_eq_ok (hasKey_cards (identified_of_forall₂ hcards)), ?_⟩
  rw [nestedAt_ids hcards]
  simp only [allReports_eq_nil, List.forall_mem_cons, expect_eq_nil]
  exact ⟨pure_eq_ok.2 (decide_eq_true hlength), pure_eq_ok.2 (eqList_strings.2 rfl),
    bind_eq_ok.2 ⟨_, hkeys, pure_eq_ok.2 (decide_eq_true htally)⟩,
    fun _ h => absurd h List.not_mem_nil⟩

/-- The family of a card is the first letter of its identifier. -/
lemma familyKey_card {sha256 : Bytes → String} {atomicId : String} {card : Card}
    (h : IsCardOf sha256 atomicId card) :
    (do asKey (← (← identityOf card.toValue).get "family_code")) =
      .ok (str ((text atomicId).take 1)) := by
  obtain ⟨seed, -, hcard⟩ := h
  obtain ⟨profiles, blockers, gaps, family, digest, -, -, -, hfamily, -, hbody⟩ :=
    buildCard_eq_ok.1 hcard
  obtain ⟨code, hcode, hfamily⟩ := bind_eq_ok.1 hfamily
  obtain ⟨name, -, hfamily⟩ := bind_eq_ok.1 hfamily
  have hfirst : card.family.1 = code := by
    rw [hbody, ← pure_eq_ok.1 hfamily]
    rfl
  have htext : (text atomicId).take 1 = [codePoint card.family.1] := by
    have hhead := orRaise_eq_ok.1 hcode
    rw [List.head?_eq_some_iff] at hhead
    obtain ⟨rest, hrest⟩ := hhead
    rw [text, hrest, hfirst]
    rfl
  have hnested := nested_identity (nested_card card).1
  rw [htext]
  refine bind_eq_ok.2 ⟨identityAt card.toValue, getOr_eq_ok.2 ⟨rfl, rfl⟩, bind_eq_ok.2
    ⟨_, get_eq_ok.2 ⟨isDict_of_field hnested, valueAt_of_field hnested⟩, rfl⟩⟩

lemma familiesReport_eq_nil (h : buildCards env.sha256 = .ok cards) :
    familiesReport (cards.map Card.toValue) = .ok [] := by
  have hcards := buildCards_eq_ok.1 h
  have hfamilies : ((cards.map Card.toValue).mapM fun card => do
      asKey (← (← identityOf card).get "family_code")) =
        .ok (atomicIds.map fun id => str ((text id).take 1)) := by
    rw [mapM_eq_ok, List.forall₂_map_left_iff, List.forall₂_map_right_iff]
    exact (hcards.imp fun _ _ hcard => familyKey_card hcard).flip
  refine bind_eq_ok.2 ⟨_, ?_, expect_pure_eq_nil.2 family_counts⟩
  rw [familyCounts, objects_eq_self (hasKey_cards (identified_of_forall₂ hcards))]
  exact bind_eq_ok.2 ⟨_, hfamilies, rfl⟩

lemma experimentsReport_of_cards (henv : Intact env) (h : buildCards env.sha256 = .ok cards)
    {registry stored value : PyValue} {summary : Summary}
    (hsummary : summaryForCards (cards.map Card.toValue) = .ok summary)
    (hvalue : summary.toValue = some value) (hfield : registry.field "summary" = some stored)
    (hstored : stored.eq value = true)
    (hsigned : signed env registry "registry_sha256" = .ok true) :
    experimentsReport env registry (cards.map Card.toValue) = .ok [] := by
  have hcards := identified_of_forall₂ (buildCards_eq_ok.1 h)
  have hkeys := hasKey_cards hcards
  have hbyId := byId_eq_ok.2 ⟨hkeys, rfl⟩
  have hrecomputed : summaryReport stored (cards.map Card.toValue) = .ok [] := by
    refine bind_eq_ok.2 ⟨summary, hsummary, expect_pure_eq_nil.2 ?_⟩
    rw [hvalue]
    exact hstored
  refine bind_eq_ok.2 ⟨stored, get_eq_ok.2 ⟨isDict_of_field hfield, valueAt_of_field hfield⟩, ?_⟩
  simp only [allReports_eq_nil, List.forall_mem_append, List.forall_mem_cons, List.forall_mem_map,
    objects_eq_self hkeys]
  have hnone : ∀ report : Report, report ∈ [] → report = .ok [] :=
    fun _ h => absurd h List.not_mem_nil
  refine ⟨⟨⟨⟨⟨idsReport_eq_nil h, hnone⟩, fun card hcard => ?_⟩, familiesReport_eq_nil h,
    bind_eq_ok.2 ⟨_, hbyId, rfqReport_eq_nil henv hcards⟩, hnone⟩, fun card hcard => ?_⟩,
    bind_eq_ok.2 ⟨_, hbyId, namedReport_eq_nil hcards⟩, hrecomputed, expect_eq_nil.2 hsigned, hnone⟩
  · obtain ⟨atomicId, hid⟩ := hcards card hcard
    exact cardReport_card hid
  · obtain ⟨atomicId, hid⟩ := hcards card hcard
    exact childReport_card hid

end

/-! ### The registry -/

/-- The members of a registry, its hash included. -/
lemma registry_keys (stored : PyValue) (experiments : List PyValue) (digest : String) :
    ((registryMembers stored experiments ++ [("registry_sha256", string digest)]).map
      (·.1)).Nodup := by
  simp [registryMembers]

lemma scopeReport_eq_nil {scope : List (String × PyValue)} (hkeys : (scope.map (·.1)).Nodup)
    (hauthority : ∀ field ∈ authorityFields, (field, string "NONE") ∈ scope)
    (hbreadth : ("breadth_policy", string "REGISTER_ALL_106_BEFORE_DEPTH_RANKING") ∈ scope)
    (hexternal :
      ("external_data_policy", string "MISSING_EXTERNAL_DATA_BLOCK_NO_IMPUTE") ∈ scope) :
    scopeReport (object scope) = .ok [] := by
  have hdict : (object scope).isDict = true := rfl
  rw [scopeReport, if_pos hdict]
  simp only [allReports_eq_nil, List.forall_mem_append, List.forall_mem_map, List.forall_mem_cons,
    expect_eq_nil]
  exact ⟨fun field hfield => getIs_of_field (object_field hkeys (hauthority field hfield)),
    getIs_of_field (object_field hkeys hbreadth), getIs_of_field (object_field hkeys hexternal),
    fun _ h => absurd h List.not_mem_nil⟩

lemma regular_catalog : externalSourceCatalog.Regular := by
  have hsource : ∀ {docs : PyValue} {id kind status backfill use notes : String}, docs.Regular →
      (object [("source_id", string id), ("kind", string kind), ("status", string status),
        ("official_docs", docs), ("historical_backfill", string backfill),
        ("live_use", string use), ("notes", string notes)]).Regular :=
    fun hdocs => regular_object (by simp) (by simp [hdocs])
  refine regular_object (by simp) (List.forall_mem_cons.2 ⟨regular_string _,
    List.forall_mem_singleton.2 (regular_list ?_)⟩)
  have hempty : (list []).Regular := regular_list fun _ h => absurd h List.not_mem_nil
  simp only [List.forall_mem_cons]
  exact ⟨hsource (regular_strings _), hsource (regular_strings _), hsource (regular_strings _),
    hsource (regular_strings _), hsource hempty, hsource (regular_strings _),
    fun _ h => absurd h List.not_mem_nil⟩

/-- The registry of the cards has no errors, whatever its summary is spelled like. -/
theorem validateRegistry_of_cards {env : Environment} (henv : Intact env) {cards : List Card}
    (hcards : buildCards env.sha256 = .ok cards) {summary : Summary} {stored value : PyValue}
    (hsummary : summaryForCards (cards.map Card.toValue) = .ok summary)
    (hvalue : summary.toValue = some value) (hstored : stored.eq value = true) {digest : String}
    (hdigest : sha256Of env.sha256
      (object (registryMembers stored (cards.map Card.toValue))) = .ok digest)
    {registry : Registry} (hregistry : registry.toValue =
      object (registryMembers stored (cards.map Card.toValue) ++
        [("registry_sha256", string digest)])) :
    validateRegistry env registry = .ok [] := by
  have hfields : ∀ m ∈ registryMembers stored (cards.map Card.toValue) ++
      [("registry_sha256", string digest)], registry.toValue.field m.1 = some m.2 := by
    intro m hm
    rw [hregistry]
    exact object_field (registry_keys _ _ _) hm
  have hsigned : signed env registry.toValue "registry_sha256" = .ok true := by
    obtain ⟨bytes, hbytes, heq⟩ := bind_eq_ok.1 hdigest
    obtain rfl := pure_eq_ok.1 heq
    refine signed_eq_true.2 ⟨bytes, ?_, ?_⟩
    · rw [hregistry, object_without (by simp [registryMembers])]
      exact hbytes
    · exact hfields _ (List.mem_append_right _ (List.mem_singleton_self _))
  simp only [registryMembers, List.forall_mem_append, List.forall_mem_cons] at hfields
  obtain ⟨⟨hversion, hid, -, hscope, hbindings, -, -, hcatalog, hsum, hexperiments, -⟩, -⟩ :=
    hfields
  have hdict := isDict_of_field hversion
  refine bind_eq_ok.2 ⟨_, getOr_eq_ok.2 ⟨hdict, by rw [hscope, Option.getD_some]⟩, bind_eq_ok.2
    ⟨_, get_eq_ok.2 ⟨hdict, valueAt_of_field hbindings⟩, bind_eq_ok.2
      ⟨_, get_eq_ok.2 ⟨hdict, valueAt_of_field hexperiments⟩, ?_⟩⟩⟩
  simp only [allReports_eq_nil, List.forall_mem_cons]
  refine ⟨expect_eq_nil.2 (getIs_of_field hversion), expect_eq_nil.2 (getIs_of_field hid), ?_,
    bindingsReport_of_intact henv, expect_eq_nil.2 ?_,
    experimentsReport_of_cards henv hcards hsummary hvalue hsum hstored hsigned,
    fun _ h => absurd h List.not_mem_nil⟩
  · exact scopeReport_eq_nil (by simp) (by simp [authorityFields]) (by simp) (by simp)
  · exact bind_eq_ok.2 ⟨_, get_eq_ok.2 ⟨hdict, valueAt_of_field hcatalog⟩,
      pure_eq_ok.2 regular_catalog.eq_self⟩

/-! ### The registry that is built -/

/-- Every identifier has a seed, and its card can be built. -/
lemma exists_buildCards (sha256 : Bytes → String) : ∃ cards, buildCards sha256 = .ok cards := by
  refine returns_mapM.2 fun id hid => ?_
  rw [← seed_ids] at hid
  obtain ⟨e, he, rfl⟩ := List.mem_map.1 hid
  obtain ⟨-, -, -, -, card, -, -, -, -, hcard⟩ := exists_card sha256 he
  have hseed : cardSeeds.lookup e.1 = some e.2 :=
    lookup_of_mem_of_nodup (seed_ids ▸ atomicIds_nodup) he
  exact ⟨card, bind_eq_ok.2 ⟨e.2, orRaise_eq_ok.2 hseed, hcard⟩⟩

lemma regular_binding_list : sourceBindings.Regular := by
  obtain ⟨bindings, hbindings, -⟩ := sourceBindings_eq
  rw [hbindings]
  exact regular_map regular_binding bindings

lemma regular_registryMembers {stored : PyValue} (hstored : stored.Regular) (cards : List Card) :
    ∀ m ∈ registryMembers stored (cards.map Card.toValue), m.2.Regular := by
  simp only [registryMembers, List.forall_mem_cons]
  refine ⟨regular_string _, regular_string _, regular_string _, ?_, regular_binding_list, ?_, ?_,
    regular_catalog, hstored, regular_map regular_card cards, fun _ h => absurd h List.not_mem_nil⟩
  · exact regular_object (by simp) (by simp [-String.reduceAppend])
  · exact regular_object (by simp) (by simp [-String.reduceAppend])
  · exact regular_object (by simp) (by simp [-String.reduceAppend])

/-- The registry that the seeds make has no errors. -/
theorem validateRegistry_buildRegistry {env : Environment} (henv : Intact env) {v : PyValue}
    (hv : buildRegistry env.sha256 = .ok v) {registry : Registry}
    (hregistry : registry.toValue = v) :
    validateRegistry env registry = .ok [] := by
  rw [buildRegistry] at hv
  split at hv
  swap
  · cases hv
  obtain ⟨seeds, -, hv⟩ := bind_eq_ok.1 hv
  split at hv
  swap
  · cases hv
  obtain ⟨cards, hcards, hv⟩ := bind_eq_ok.1 hv
  obtain ⟨summary, hsummary, hv⟩ := bind_eq_ok.1 hv
  obtain ⟨digest, hdigest, hv⟩ := bind_eq_ok.1 hv
  obtain rfl := pure_eq_ok.1 hv
  obtain ⟨summary', rest, hsummary', hvalue, hkeys, hrest⟩ := exists_summary cards
  obtain rfl := Except.ok.inj (hsummary.symm.trans hsummary')
  rw [hvalue, Option.getD_some] at hdigest hregistry
  refine validateRegistry_of_cards henv hcards hsummary hvalue ?_ hdigest hregistry
  exact (regular_object (by simp [hkeys]) (List.forall_mem_cons.2 ⟨regular_int _, hrest⟩)).eq_self

end HftBot.Experiment
