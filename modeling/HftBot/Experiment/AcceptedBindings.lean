import HftBot.Experiment.AcceptedCard

/-!
# The bindings are accepted

In a repository whose files are the bound ones, the bindings that every registry has are in order.
-/

namespace HftBot.Experiment

open HftBot.Core PyValue

/-! ### The repository -/

/-- A lower-case letter of ASCII is made upper-case. -/
def upperAscii (c : CodePoint) : CodePoint :=
  if h : 97 ≤ c.val ∧ c.val ≤ 122 then ⟨c.val - 32, by omega⟩ else c

def asciiUpper (t : Text) : Text := t.map upperAscii

/-- The file of the path is in the repository and has that hash. -/
def HasFile (env : Environment) (path sha256 : String) : Prop :=
  ∃ resolved, env.resolve (text path) = .ok resolved ∧ env.insideRoot resolved = true ∧
    env.isFile resolved = .ok true ∧ env.fileSha256 resolved = .ok sha256

/-- The paths of the bound files, with their hashes. -/
def boundFiles : List (String × String) :=
  [("Deepresearch V3/registry/sources/DEEP03_ATOMIC_DIRECTION_AUTHORITY_V1.json",
    "85db70587525ab34af7b5e1cba8bb70929581ea2ff64eb075eabaf5f98ea337e"),
   ("Deepresearch V3/run_2026-07-22_D3-W2A/RESULTS.json",
    "e2265284704a828ec9dd0c700c66f16bdf11c9729530b583e9578561e27782f6"),
   ("Deepresearch V3/run_2026-07-22_D3-W2A/ESTIMABILITY_PREFLIGHT.json",
    "50a63f633db2edccfc315d482684d5d6ea488fdbd5526106e9a2c60b5831c7de"),
   ("Deepresearch V3/run_2026-07-22_D3-W2A/FULLSCOPE_L2_REPORT_TABLES.json",
    "e97fe0376cf4700829ed5afccc6eeaa10f4c368b417d335b0e1af7df490d0f52"),
   ("Deepresearch V3/run_2026-07-22_D3-W2A/EXCLUSION_WATERFALL.json",
    "3e8136820158d320bbc1df52edb7239af9d29c281308c7c97dad3297d0deef4a")]

def authorityPath : String :=
  "Deepresearch V3/registry/sources/DEEP03_ATOMIC_DIRECTION_AUTHORITY_V1.json"

/-- The bound files are there, the authority lists the identifiers, and `upper` is that of the
language on ASCII. -/
structure Intact (env : Environment) : Prop where
  upper : ∀ t : Text, (∀ c ∈ t, c.val < 128) → env.upper t = asciiUpper t
  files : ∀ file ∈ boundFiles, HasFile env file.1 file.2
  authority : ∀ resolved, env.resolve (text authorityPath) = .ok resolved →
    ∃ authority, env.readJson resolved = .ok (.ok authority) ∧
      authority.field "atomic_ids" = some (strings atomicIds) ∧
      authority.field "source_document_sha256" = some (string originDocumentSha256)

/-! ### The bindings -/

structure Binding where
  role : String
  path : String
  sha256 : String
  note : String

def Binding.toValue (b : Binding) : PyValue :=
  object [("role", string b.role), ("path", string b.path), ("sha256", string b.sha256),
    ("local_required", .bool true), ("note", string b.note)]

lemma regular_binding (b : Binding) : b.toValue.Regular := regular_object (by simp) (by simp)

lemma binding_fields (b : Binding) : b.toValue.field "role" = some (string b.role) ∧
    b.toValue.field "path" = some (string b.path) ∧
    b.toValue.field "sha256" = some (string b.sha256) ∧
    b.toValue.field "local_required" = some (.bool true) := by
  have hwf := (regular_binding b).wellFormed
  exact ⟨field_of_wellFormed hwf (by simp), field_of_wellFormed hwf (by simp),
    field_of_wellFormed hwf (by simp), field_of_wellFormed hwf (by simp)⟩

lemma isAuthority_binding (b : Binding) :
    isAuthority b.toValue = decide (b.role = authorityRole) := by
  rw [isAuthority, valueAt_of_field (binding_fields b).1, isText_string]

lemma bindingReport_of_file {env : Environment} {b : Binding} (h : HasFile env b.path b.sha256) :
    bindingReport env b.toValue = .ok [] := by
  obtain ⟨resolved, hresolved, hinside, hisFile, hhash⟩ := h
  obtain ⟨hrole, hpath, hsha, hrequired⟩ := binding_fields b
  have hdict : b.toValue.isDict = true := rfl
  have hpath : b.toValue.get "path" = .ok (str (text b.path)) :=
    get_eq_ok.2 ⟨rfl, valueAt_of_field hpath⟩
  have hmissing : both (b.toValue.getTruthy "local_required") (negated (env.isFile resolved)) =
      .ok false := by
    rw [getTruthy_of_field hrequired rfl, hisFile]
    rfl
  rw [bindingReport, if_pos hdict]
  refine bind_eq_ok.2 ⟨_, getOr_eq_ok.2 ⟨rfl, by rw [hrole, Option.getD_some]⟩,
    bind_eq_ok.2 ⟨_, hpath, bind_eq_ok.2 ⟨resolved, hresolved, ?_⟩⟩⟩
  rw [hinside, Bool.not_true, if_neg Bool.false_ne_true]
  refine bind_eq_ok.2 ⟨false, hmissing, bind_eq_ok.2 ⟨true, hisFile, ?_⟩⟩
  exact expect_eq_nil.2 (bind_eq_ok.2 ⟨_, hhash, getIs_of_field hsha⟩)

lemma authoritySourceReport_of_intact {env : Environment} (henv : Intact env) {b : Binding}
    (hb : b.path = authorityPath) : authoritySourceReport env b.toValue = .ok [] := by
  obtain ⟨resolved, hresolved, -, hisFile, -⟩ := henv.files _ (List.mem_cons_self : _ ∈ boundFiles)
  obtain ⟨authority, hread, hids, hsha⟩ := henv.authority resolved hresolved
  have hpath : b.toValue.item "path" = .ok (str (text authorityPath)) := by
    rw [← hb]
    exact item_eq_ok.2 (binding_fields b).2.1
  have helements : (do
      let ids ← (← authority.getOr "atomic_ids" (list [])).elements
      pure (eqList ids (atomicIds.map string)) : Raising Bool) = .ok true := by
    refine bind_eq_ok.2 ⟨_, getOr_eq_ok.2 ⟨isDict_of_field hids, by
      rw [hids, Option.getD_some]⟩, bind_eq_ok.2 ⟨_, rfl, pure_eq_ok.2 ?_⟩⟩
    exact eqList_strings.2 rfl
  have hfile : authorityFileReport authority = .ok [] := by
    simp only [authorityFileReport, allReports_eq_nil, List.forall_mem_cons, expect_eq_nil]
    exact ⟨helements, getIs_of_field hsha, fun _ h => absurd h List.not_mem_nil⟩
  exact bind_eq_ok.2 ⟨_, hpath, bind_eq_ok.2 ⟨_, rfl, bind_eq_ok.2 ⟨resolved, hresolved,
    bind_eq_ok.2 ⟨true, hisFile, bind_eq_ok.2 ⟨_, hread, hfile⟩⟩⟩⟩⟩

/-- The bindings of a registry bind the files, the first of them as the authority. -/
lemma sourceBindings_eq : ∃ bindings : List Binding,
    sourceBindings = list (bindings.map Binding.toValue) ∧
      bindings.map (fun b => (b.path, b.sha256)) = boundFiles ∧
      ∃ b, bindings.filter (fun b => b.role = authorityRole) = [b] ∧ b.path = authorityPath :=
  ⟨[⟨authorityRole, _, _, _⟩, ⟨"CURRENT_RESULT_EVIDENCE", _, _, _⟩,
    ⟨"CURRENT_ESTIMABILITY_EVIDENCE", _, _, _⟩, ⟨"CURRENT_L2_SIGNAL_EVIDENCE", _, _, _⟩,
    ⟨"CURRENT_EXCLUSION_EVIDENCE", _, _, _⟩], rfl, rfl, _, rfl, rfl⟩

lemma bindingsReport_of_intact {env : Environment} (henv : Intact env) :
    bindingsReport env sourceBindings = .ok [] := by
  obtain ⟨bindings, hbindings, hfiles, b, hfilter, hb⟩ := sourceBindings_eq
  have hself : sourceBindings.eq sourceBindings = true := by
    rw [hbindings]
    exact (regular_map regular_binding bindings).eq_self
  have hauthority : authorityBindings (bindings.map Binding.toValue) = .ok [b.toValue] := by
    refine authorityBindings_eq_ok.2 ⟨List.forall_mem_map.2 fun _ _ => rfl, ?_⟩
    rw [List.filter_map, ← List.map_singleton, ← hfilter]
    exact congrArg _ (List.filter_congr fun b _ => isAuthority_binding b)
  rw [hbindings] at hself ⊢
  simp only [bindingsReport, allReports_eq_nil, List.forall_mem_append, List.forall_mem_singleton,
    List.forall_mem_map]
  refine ⟨⟨expect_pure_eq_nil.2 ?_, fun b hb => bindingReport_of_file ?_⟩, ?_⟩
  · rwa [hbindings]
  · exact henv.files (b.path, b.sha256) (hfiles ▸ List.mem_map_of_mem hb)
  · exact bind_eq_ok.2 ⟨_, hauthority, authoritySourceReport_of_intact henv hb⟩

end HftBot.Experiment
