import HftBot.Experiment.AcceptedRegistry

/-!
# What tampering is detected

A registry without errors holds the cards of the seeds as JSON. Its summary is equal to theirs, as
the language compares, so the number of cards may be spelled as a float: signed again, such a
registry is accepted in every repository whose files are the bound ones.
-/

namespace HftBot.Experiment

open HftBot.Core PyValue

/-! ### Signing -/

/-- The registry of a summary and cards, with the hash that it should have. -/
def signedRegistry (sha256 : Bytes → String) {stored : PyValue} (hstored : stored.Regular)
    (cards : List Card) : Registry where
  members := (registryMembers stored (cards.map Card.toValue) ++ [("registry_sha256",
    string ((sha256Of sha256
      (object (registryMembers stored (cards.map Card.toValue)))).toOption.getD ""))]).map
        fun m => (text m.1, m.2)
  wellFormed := by
    refine (regular_object (registry_keys _ _ _) ?_).wellFormed
    exact List.forall_mem_append.2 ⟨regular_registryMembers hstored cards,
      List.forall_mem_singleton.2 (regular_string _)⟩

lemma toValue_signedRegistry (sha256 : Bytes → String) {stored : PyValue}
    (hstored : stored.Regular) (cards : List Card) : ∃ digest,
      sha256Of sha256 (object (registryMembers stored (cards.map Card.toValue))) = .ok digest ∧
      (signedRegistry sha256 hstored cards).toValue =
        object (registryMembers stored (cards.map Card.toValue) ++
          [("registry_sha256", string digest)]) := by
  have hkeys := registry_keys stored (cards.map Card.toValue) ""
  rw [List.map_append] at hkeys
  have hregular : (object (registryMembers stored (cards.map Card.toValue))).Regular :=
    regular_object hkeys.of_append_left (regular_registryMembers hstored cards)
  obtain ⟨bytes, hbytes⟩ := canonicalJson_returns_iff.2 hregular.plain
  have hdigest : sha256Of sha256 (object (registryMembers stored (cards.map Card.toValue))) =
      .ok (sha256 bytes) :=
    bind_eq_ok.2 ⟨bytes, hbytes, rfl⟩
  have hstamp : (sha256Of sha256
      (object (registryMembers stored (cards.map Card.toValue)))).toOption.getD "" =
        sha256 bytes := by
    rw [hdigest]
    rfl
  refine ⟨_, hdigest, ?_⟩
  rw [← hstamp]
  rfl

/-! ### A number spelled as a float -/

/-- The number of the cards. -/
def hundredSix : Double := .finite false (106 * 2 ^ 46) (-46) (by decide)

/-- The summary with the number of its cards, which comes first, as a float. -/
def respell : PyValue → PyValue
  | dict ((key, _) :: rest) => dict ((key, float hundredSix) :: rest)
  | v                       => v

/-- The summary of the cards, as an object. -/
def summaryValue (cards : List Card) : PyValue :=
  ((summaryForCards (cards.map Card.toValue)).toOption.bind Summary.toValue).getD null

lemma summaryValue_eq {cards : List Card} {summary : Summary} {value : PyValue}
    (hsummary : summaryForCards (cards.map Card.toValue) = .ok summary)
    (hvalue : summary.toValue = some value) : summaryValue cards = value := by
  rw [summaryValue, hsummary]
  exact congrArg (·.getD null) hvalue

lemma exists_summaryValue (cards : List Card) : ∃ summary rest,
    summaryForCards (cards.map Card.toValue) = .ok summary ∧
      summary.toValue = some (summaryValue cards) ∧
      summaryValue cards = object (("total_cards", int cards.length) :: rest) ∧
      (∀ v, v.Regular → (object (("total_cards", v) :: rest)).Regular) := by
  obtain ⟨summary, rest, hsummary, hvalue, hkeys, hrest⟩ := exists_summary cards
  have heq := summaryValue_eq hsummary hvalue
  refine ⟨summary, rest, hsummary, heq ▸ hvalue, heq, fun v hv => ?_⟩
  exact regular_object (by simp [hkeys]) (List.forall_mem_cons.2 ⟨hv, hrest⟩)

lemma regular_respell (cards : List Card) : (respell (summaryValue cards)).Regular := by
  obtain ⟨-, rest, -, -, heq, hregular⟩ := exists_summaryValue cards
  rw [heq]
  exact hregular _ (regular_float (by decide))

/-- The first member of an object can be replaced by an equal one. -/
lemma eq_of_first {v w : PyValue} {key : Text} {rest : List (Text × PyValue)}
    (hw : (dict ((key, w) :: rest)).Regular) (h : v.eq w = true) :
    (dict ((key, v) :: rest)).eq (dict ((key, w) :: rest)) = true := by
  obtain ⟨-, hself⟩ := Bool.and_eq_true_iff.1 hw.eq_self
  refine Bool.and_eq_true_iff.2 ⟨decide_eq_true rfl, ?_⟩
  rw [eqMembers_iff, List.forall_mem_cons] at hself ⊢
  exact ⟨⟨w, by rw [List.lookup_cons, beq_self_eq_true], h⟩, hself.2⟩

lemma eq_respell {cards : List Card} (h : cards.length = 106) :
    (respell (summaryValue cards)).eq (summaryValue cards) = true := by
  obtain ⟨-, rest, -, -, heq, hregular⟩ := exists_summaryValue cards
  rw [heq, h]
  exact eq_of_first (hregular _ (regular_int _)) (by decide)

/-- A float and an integer are different JSON. -/
lemma not_sameJson_respell (cards : List Card) :
    ¬ SameJson (respell (summaryValue cards)) (summaryValue cards) := by
  intro h
  obtain ⟨-, rest, -, -, heq, hregular⟩ := exists_summaryValue cards
  have hwf := (regular_respell cards).wellFormed
  rw [heq] at h hwf
  have hfirst : ∀ v, (object (("total_cards", v) :: rest)).field "total_cards" = some v :=
    fun _ => List.lookup_cons_self
  have hfield := @sorted_field _ _ hwf h "total_cards"
  have hrespell : respell (object (("total_cards", int cards.length) :: rest)) =
      object (("total_cards", float hundredSix) :: rest) := rfl
  rw [hrespell, hfirst, hfirst] at hfield
  cases hfield

/-! ### The registry -/

/-- The cards of the seeds. -/
def builtCards (sha256 : Bytes → String) : List Card := (buildCards sha256).toOption.getD []

lemma buildCards_eq (sha256 : Bytes → String) : buildCards sha256 = .ok (builtCards sha256) := by
  obtain ⟨cards, hcards⟩ := exists_buildCards sha256
  rw [builtCards, hcards]
  rfl

/-- The registry of the seeds, with the number of its cards spelled as a float. -/
def tamperedRegistry (sha256 : Bytes → String) : Registry :=
  signedRegistry sha256 (regular_respell (builtCards sha256)) (builtCards sha256)

/-- In a repository with the bound files it is accepted. -/
theorem validateRegistry_tampered {env : Environment} (henv : Intact env) :
    validateRegistry env (tamperedRegistry env.sha256) = .ok [] := by
  have hcards := buildCards_eq env.sha256
  have hlength : (builtCards env.sha256).length = 106 :=
    (buildCards_eq_ok.1 hcards).length_eq.symm
  obtain ⟨summary, -, hsummary, hvalue, -⟩ := exists_summaryValue (builtCards env.sha256)
  obtain ⟨digest, hdigest, hregistry⟩ :=
    toValue_signedRegistry env.sha256 (regular_respell (builtCards env.sha256)) _
  exact validateRegistry_of_cards henv hcards hsummary hvalue (eq_respell hlength) hdigest hregistry

lemma summary_tampered (sha256 : Bytes → String) :
    (tamperedRegistry sha256).toValue.valueAt "summary" =
      respell (summaryValue (builtCards sha256)) := by
  obtain ⟨digest, -, hregistry⟩ :=
    toValue_signedRegistry sha256 (regular_respell (builtCards sha256)) (builtCards sha256)
  rw [tamperedRegistry, hregistry]
  exact valueAt_of_field (object_field (registry_keys _ _ _) (by simp [registryMembers]))

/-! ### A repository -/

/-- The bytes themselves, as the characters of these codes. -/
def spelledBytes (bytes : Bytes) : String := String.ofList (bytes.map Char.ofUInt8)

/-- A repository with the bound files, whose hash is the text itself. -/
def plainEnvironment : Environment where
  sha256 := spelledBytes
  upper := asciiUpper
  resolve := .ok
  insideRoot _ := true
  isFile _ := .ok true
  fileSha256 path := .ok (((boundFiles.map fun file => (text file.1, file.2)).lookup path).getD "")
  readJson _ := .ok (.ok (object [("atomic_ids", strings atomicIds),
    ("source_document_sha256", string originDocumentSha256)]))

lemma intact_plainEnvironment : Intact plainEnvironment := by
  refine ⟨fun _ _ => rfl, fun file hfile => ?_, fun resolved _ => ?_⟩
  · have hpaths : ((boundFiles.map fun file => (text file.1, file.2)).map (·.1)).Nodup := by
      have hnames : (boundFiles.map (·.1)).Nodup := by decide +kernel
      have htexts := hnames.map fun _ _ => text_inj.1
      rwa [List.map_map] at htexts ⊢
    have hfound : (boundFiles.map fun file => (text file.1, file.2)).lookup (text file.1) =
        some file.2 :=
      lookup_of_mem_of_nodup hpaths (List.mem_map_of_mem hfile)
    exact ⟨_, rfl, rfl, rfl, congrArg Except.ok (congrArg (·.getD "") hfound)⟩
  · exact ⟨_, rfl, object_field (by simp) List.mem_cons_self,
      object_field (by simp) (List.mem_cons_of_mem _ List.mem_cons_self)⟩

lemma injective_spelledBytes : InjectiveOnCanonical plainEnvironment.sha256 := by
  intro v w b c _ _ h
  have hchar : Function.Injective Char.ofUInt8 := by
    intro x y hxy
    exact UInt8.toUInt32_inj.1 (congrArg Char.val hxy)
  exact List.map_injective_iff.2 hchar (String.ofList_injective h)

/-! ### What is pinned -/

/-- A registry without errors holds the cards of the seeds, in order and as JSON, and a summary that
is equal to theirs. -/
theorem accepted_registry_pinned {env : Environment} (hinj : InjectiveOnCanonical env.sha256)
    {registry : Registry} (h : validateRegistry env registry = .ok []) :
    ∃ experiments cards summary value,
      registry.toValue.field "experiments" = some (list experiments) ∧
      buildCards env.sha256 = .ok cards ∧
      List.Forall₂ SameJson experiments (cards.map Card.toValue) ∧
      summaryForCards (cards.map Card.toValue) = .ok summary ∧ summary.toValue = some value ∧
      (registry.toValue.valueAt "summary").eq value = true := by
  rw [validateRegistry] at h
  obtain ⟨scope, -, h⟩ := bind_eq_ok.1 h
  obtain ⟨bindings, -, h⟩ := bind_eq_ok.1 h
  obtain ⟨experiments, hexperiments, h⟩ := bind_eq_ok.1 h
  obtain ⟨-, rfl⟩ := get_eq_ok.1 hexperiments
  simp only [allReports_eq_nil, List.forall_mem_cons] at h
  obtain ⟨-, -, -, -, -, h, -⟩ := h
  split at h
  · rename_i items hitems
    have hfield : registry.toValue.field "experiments" = some (list items) := by
      rw [valueAt] at hitems
      cases hvalue : registry.toValue.field "experiments" with
      | none => rw [hvalue] at hitems; cases hitems
      | some v => rw [hvalue] at hitems; exact congrArg some hitems
    have hwf := wellFormedItems_iff.1 (wellFormed_field registry.wellFormed hfield)
    have hreadable := ((returns_experimentsReport (isDict_of_field hfield)).1 ⟨[], h⟩).1
    obtain ⟨cards, summary, value, hpinned⟩ := experimentsReport_eq_nil hinj hreadable hwf h
    exact ⟨items, cards, summary, value, hfield, hpinned⟩
  · exact absurd h fail_ne_nil

theorem tampered_registry_pinned :
    InjectiveOnCanonical plainEnvironment.sha256 ∧
      validateRegistry plainEnvironment (tamperedRegistry plainEnvironment.sha256) = .ok [] ∧
      ∃ experiments cards summary value,
        (tamperedRegistry plainEnvironment.sha256).toValue.field "experiments" =
          some (list experiments) ∧
        buildCards plainEnvironment.sha256 = .ok cards ∧
        List.Forall₂ SameJson experiments (cards.map Card.toValue) ∧
        summaryForCards (cards.map Card.toValue) = .ok summary ∧ summary.toValue = some value ∧
        ((tamperedRegistry plainEnvironment.sha256).toValue.valueAt "summary").eq value = true :=
  ⟨injective_spelledBytes, validateRegistry_tampered intact_plainEnvironment,
    accepted_registry_pinned injective_spelledBytes
      (validateRegistry_tampered intact_plainEnvironment)⟩

/-- The summary of an accepted registry need not be that of the cards as JSON. -/
theorem tampered_summary_not_sameJson :
    InjectiveOnCanonical plainEnvironment.sha256 ∧
      validateRegistry plainEnvironment (tamperedRegistry plainEnvironment.sha256) = .ok [] ∧
      ¬ ∃ experiments cards summary value,
        (tamperedRegistry plainEnvironment.sha256).toValue.field "experiments" =
          some (list experiments) ∧
        buildCards plainEnvironment.sha256 = .ok cards ∧
        List.Forall₂ SameJson experiments (cards.map Card.toValue) ∧
        summaryForCards (cards.map Card.toValue) = .ok summary ∧ summary.toValue = some value ∧
        SameJson ((tamperedRegistry plainEnvironment.sha256).toValue.valueAt "summary") value := by
  refine ⟨injective_spelledBytes, validateRegistry_tampered intact_plainEnvironment, ?_⟩
  rintro ⟨-, cards, summary, value, -, hcards, -, hsummary, hvalue, hsame⟩
  have heq := Except.ok.inj ((buildCards_eq plainEnvironment.sha256).symm.trans hcards)
  rw [summary_tampered, heq, ← summaryValue_eq hsummary hvalue] at hsame
  exact not_sameJson_respell cards hsame

end HftBot.Experiment
