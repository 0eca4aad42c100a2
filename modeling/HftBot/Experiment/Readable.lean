import HftBot.Experiment.SeedProperties
import HftBot.Experiment.Validate

/-!
# When validation returns

The checks read members of an object of any shape, and most of them are guarded by no check of the
shape. A registry is readable when every member that is read is there and of a kind that can be
read so; exactly then the validation returns its list.
-/

namespace HftBot.Experiment

open HftBot.Core PyValue

/-! ### Bindings -/

/-- The file of a path can be looked at. -/
def FileReadable (env : Environment) (path : Text) : Prop :=
  ∃ resolved, env.resolve path = .ok resolved ∧ (env.insideRoot resolved = true →
    ∃ isFile, env.isFile resolved = .ok isFile ∧
      (isFile = true → Returns (env.fileSha256 resolved)))

def BindingReadable (env : Environment) (binding : PyValue) : Prop :=
  binding.isDict = true ∧ ∀ path, binding.field "path" = some (str path) → FileReadable env path

def isAuthority (binding : PyValue) : Bool :=
  (binding.valueAt "role").isText authorityRole

/-- What the file of the authority holds can be read. -/
def AuthorityFileReadable (authority : PyValue) : Prop :=
  authority.isDict = true ∧ ((authority.field "atomic_ids").getD (list [])).isContainer = true

/-- The binding of the authority names a file that can be read. -/
def AuthoritySourceReadable (env : Environment) (binding : PyValue) : Prop :=
  ∃ path resolved isFile, binding.field "path" = some (str path) ∧
    env.resolve path = .ok resolved ∧ env.isFile resolved = .ok isFile ∧
    (isFile = true → ∃ read, env.readJson resolved = .ok read ∧
      ∀ authority, read = .ok authority → AuthorityFileReadable authority)

def BindingsReadable (env : Environment) (bindings : PyValue) : Prop :=
  ∀ items, bindings = list items →
    (∀ binding ∈ items, BindingReadable env binding) ∧
    ∀ binding, items.filter isAuthority = [binding] → AuthoritySourceReadable env binding

/-- Once it is known whether there is a file, only its hash can raise. -/
lemma returns_fileHash {env : Environment} {binding role : PyValue} {resolved : Text}
    (hbinding : binding.isDict = true) {isFile : Bool} :
    Returns (if isFile = true then expect (do
        let digest ← env.fileSha256 resolved
        binding.getIs "sha256" digest) (about role ": source file SHA mismatch") else pure []) ↔
      (isFile = true → Returns (env.fileSha256 resolved)) := by
  cases isFile with
  | false => exact iff_of_true (returns_pure []) fun h => by cases h
  | true =>
    rw [if_pos rfl, returns_expect, returns_bind, imp_iff_right rfl]
    exact exists_congr fun digest => and_iff_left (returns_getIs.2 hbinding)

lemma returns_boundFileReport {env : Environment} {binding role : PyValue} {path : Text}
    (hbinding : binding.isDict = true) :
    Returns (boundFileReport env binding role path) ↔ FileReadable env path := by
  rw [boundFileReport, returns_bind]
  refine exists_congr fun resolved => and_congr_right fun _ => ?_
  cases hinside : env.insideRoot resolved with
  | false => exact iff_of_true (returns_ok _) fun h => by cases h
  | true =>
    rw [Bool.not_true, if_neg Bool.false_ne_true, returns_bind, imp_iff_right rfl]
    constructor
    · rintro ⟨missing, hmissing, h⟩
      cases missing with
      | true =>
        -- a file that is missing is not hashed
        obtain ⟨-, hisFile⟩ := both_eq_true.1 hmissing
        exact ⟨false, negated_eq_ok.1 hisFile, fun h => by cases h⟩
      | false =>
        obtain ⟨isFile, hisFile, h⟩ := returns_bind.1 h
        exact ⟨isFile, hisFile, (returns_fileHash hbinding).1 h⟩
    · rintro ⟨isFile, hisFile, h⟩
      obtain ⟨missing, hmissing⟩ : Returns (both (binding.getTruthy "local_required")
          (negated (env.isFile resolved))) :=
        returns_both.2 ⟨returns_getTruthy.2 hbinding, fun _ => returns_negated.2 ⟨_, hisFile⟩⟩
      refine ⟨missing, hmissing, ?_⟩
      cases missing with
      | true => exact returns_ok _
      | false => exact returns_bind.2 ⟨isFile, hisFile, (returns_fileHash hbinding).2 h⟩

lemma returns_bindingReport {env : Environment} {binding : PyValue} :
    Returns (bindingReport env binding) ↔ (binding.isDict = true →
      ∀ path, binding.field "path" = some (str path) → FileReadable env path) := by
  rw [bindingReport]
  cases hbinding : binding.isDict with
  | false => exact iff_of_true (returns_ok _) fun h => by cases h
  | true =>
    obtain ⟨role, hrole⟩ := returns_getOr.2 hbinding
    rw [if_pos rfl, returns_bind_of_eq hrole, returns_get_bind, and_iff_right hbinding,
      imp_iff_right rfl]
    rw [valueAt]
    cases binding.field "path" with
    | none => exact iff_of_true (returns_ok _) fun _ h => by cases h
    | some v =>
      cases v with
      | str path =>
        refine (returns_boundFileReport hbinding).trans ⟨?_, fun h => h path rfl⟩
        rintro h path ⟨⟩
        exact h
      | _ => exact iff_of_true (returns_ok _) fun _ h => by cases h

lemma authorityBindings_eq_ok {bindings authority : List PyValue} :
    authorityBindings bindings = .ok authority ↔
      (∀ binding ∈ bindings, binding.isDict = true) ∧ bindings.filter isAuthority = authority := by
  induction bindings generalizing authority with
  | nil =>
    rw [authorityBindings, pure_eq_ok]
    exact (and_iff_right fun _ h => absurd h List.not_mem_nil).symm
  | cons binding rest ih =>
    rw [authorityBindings, bind_eq_ok, List.forall_mem_cons, List.filter_cons]
    constructor
    · rintro ⟨role, hrole, h⟩
      obtain ⟨others, hothers, h⟩ := bind_eq_ok.1 h
      obtain ⟨hrest, rfl⟩ := ih.1 hothers
      obtain ⟨v, hv, hrole⟩ := bind_eq_ok.1 hrole
      obtain ⟨hdict, rfl⟩ := get_eq_ok.1 hv
      obtain rfl := pure_eq_ok.1 hrole
      exact ⟨⟨hdict, hrest⟩, pure_eq_ok.1 h⟩
    · rintro ⟨⟨hdict, hrest⟩, h⟩
      refine ⟨isAuthority binding, ?_, bind_eq_ok.2 ⟨_, ih.2 ⟨hrest, rfl⟩, pure_eq_ok.2 h⟩⟩
      exact bind_eq_ok.2 ⟨_, get_eq_ok.2 ⟨hdict, rfl⟩, rfl⟩

lemma returns_authorityFileReport {authority : PyValue} :
    Returns (authorityFileReport authority) ↔ AuthorityFileReadable authority := by
  rw [authorityFileReport, returns_allReports, List.forall_mem_cons, List.forall_mem_singleton,
    returns_expect, returns_expect, returns_getIs, returns_getOr_bind, returns_map,
    returns_elements]
  exact ⟨fun h => h.1, fun h => ⟨h, h.1⟩⟩

lemma asPath_eq_ok {v : PyValue} {path : Text} : asPath v = .ok path ↔ v = str path := by
  cases v with
  | str t =>
    constructor
    · rintro ⟨⟩
      rfl
    · rintro ⟨⟩
      rfl
  | _ => exact iff_of_false (fun h => by cases h) fun h => by cases h

lemma returns_readAuthority {read : Except Text PyValue} :
    Returns (match read with
      | .error caught => fail [.text "atomic direction authority unreadable: ", .caught caught]
      | .ok authority => authorityFileReport authority) ↔
      ∀ authority, read = .ok authority → AuthorityFileReadable authority := by
  cases read with
  | error caught => exact iff_of_true (returns_ok _) fun _ h => by cases h
  | ok authority =>
    refine returns_authorityFileReport.trans ⟨?_, fun h => h authority rfl⟩
    rintro h authority ⟨⟩
    exact h

lemma returns_authoritySourceReport {env : Environment} {binding : PyValue} :
    Returns (authoritySourceReport env binding) ↔ AuthoritySourceReadable env binding := by
  rw [authoritySourceReport, returns_item_bind]
  simp only [returns_bind, asPath_eq_ok]
  constructor
  · rintro ⟨_, hpath, path, rfl, resolved, hresolved, isFile, hisFile, h⟩
    refine ⟨path, resolved, isFile, hpath, hresolved, hisFile, ?_⟩
    rintro rfl
    obtain ⟨read, hr, h⟩ := returns_bind.1 h
    exact ⟨read, hr, returns_readAuthority.1 h⟩
  · rintro ⟨path, resolved, isFile, hpath, hresolved, hisFile, h⟩
    refine ⟨_, hpath, path, rfl, resolved, hresolved, isFile, hisFile, ?_⟩
    cases isFile with
    | false => exact returns_pure []
    | true =>
      obtain ⟨read, hr, h⟩ := h rfl
      exact returns_bind.2 ⟨read, hr, returns_readAuthority.2 h⟩

lemma returns_oneAuthority {env : Environment} {authority : List PyValue} :
    Returns (match authority with
      | [binding] => authoritySourceReport env binding
      | _ => fail [.text "exactly one atomic direction authority binding is required"]) ↔
      ∀ binding, authority = [binding] → AuthoritySourceReadable env binding := by
  split
  · refine returns_authoritySourceReport.trans ⟨?_, fun h => h _ rfl⟩
    rintro h binding ⟨⟩
    exact h
  · rename_i hne
    exact iff_of_true (returns_ok _) fun binding h => absurd h (hne binding)

lemma returns_authorityReport {env : Environment} {bindings : List PyValue} :
    Returns (authorityReport env bindings) ↔ (∀ binding ∈ bindings, binding.isDict = true) ∧
      ∀ binding, bindings.filter isAuthority = [binding] →
        AuthoritySourceReadable env binding := by
  rw [authorityReport, returns_bind]
  simp only [authorityBindings_eq_ok]
  constructor
  · rintro ⟨authority, ⟨hdict, rfl⟩, h⟩
    exact ⟨hdict, returns_oneAuthority.1 h⟩
  · rintro ⟨hdict, h⟩
    exact ⟨_, ⟨hdict, rfl⟩, returns_oneAuthority.2 h⟩

lemma returns_bindingsReport {env : Environment} {bindings : PyValue} :
    Returns (bindingsReport env bindings) ↔ BindingsReadable env bindings := by
  cases bindings with
  | list items =>
    rw [bindingsReport, returns_allReports]
    simp only [List.forall_mem_append, List.forall_mem_singleton, List.forall_mem_map,
      returns_expect, returns_pure, returns_bindingReport, returns_authorityReport, true_and]
    constructor
    · rintro ⟨hbindings, hdict, hauthority⟩ items ⟨⟩
      exact ⟨fun b hb => ⟨hdict b hb, hbindings b hb (hdict b hb)⟩, hauthority⟩
    · intro h
      obtain ⟨hbindings, hauthority⟩ := h items rfl
      exact ⟨fun b hb _ => (hbindings b hb).2, fun b hb => (hbindings b hb).1, hauthority⟩
  | _ => exact iff_of_true (returns_ok _) fun _ h => by cases h

end HftBot.Experiment
