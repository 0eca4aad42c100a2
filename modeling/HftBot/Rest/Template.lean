import HftBot.Rest.RequestSpec
import Mathlib.Data.List.Forall2
import Mathlib.Data.List.TakeWhile

/-!
# Templates of the cost table

`template_match` walks the segments of a template and of a path side by side. The language of a
template is stated without the walk: every segment before the first glob stands for one segment of
the path, a glob for all that are left and at least one, and without a glob nothing is left.
-/

namespace HftBot

/-! ### The walk -/

/-- The loop of `split_segments`, on what is left of the path. -/
def splitSegments : List Char → List (List Char)
  | []      => []
  | c :: cs =>
    if c = '/' then splitSegments cs
    else (c :: cs.takeWhile (· ≠ '/')) :: splitSegments (cs.dropWhile (· ≠ '/'))
termination_by s => s.length
decreasing_by
  · exact Nat.lt_succ_self _
  · exact Nat.lt_succ_of_le (List.dropWhile_suffix _).length_le

/-- The loop of `template_match`, from the segment `k` on. -/
def templateMatchFrom (ts ps : List (List Char)) (k : Nat) : Bool :=
  match _h : ts[k]? with
  | none   => ts.length = ps.length
  | some t =>
    if t.head? = some '*' then k < ps.length
    else
      match ps[k]? with
      | none   => false
      | some p => if segIsParam t || t = p then templateMatchFrom ts ps (k + 1) else false
termination_by ts.length - k
decreasing_by
  obtain ⟨hk, -⟩ := List.getElem?_eq_some_iff.1 _h
  omega

def templateMatchLoop (tmpl path : List Char) : Bool :=
  templateMatchFrom (splitSegments tmpl) (splitSegments path) 0

/-! ### The language -/

def IsGlob (t : List Char) : Prop := t.head? = some '*'

/-- A segment that starts with a colon or stands in braces. -/
def IsParam (t : List Char) : Prop :=
  t.head? = some ':' ∨ ∃ name, t = Char.ofNat 123 :: name ++ [Char.ofNat 125]

def StandsFor (t p : List Char) : Prop := t = p ∨ IsParam t

/-- The segments of the paths that a template stands for. -/
inductive InLanguage : List (List Char) → List (List Char) → Prop
  | whole {ts ps} (hplain : ∀ t ∈ ts, ¬ IsGlob t) (hmatch : List.Forall₂ StandsFor ts ps) :
    InLanguage ts ps
  | glob {before glob after matched rest} (hplain : ∀ t ∈ before, ¬ IsGlob t)
      (hglob : IsGlob glob) (hmatch : List.Forall₂ StandsFor before matched) (hrest : rest ≠ []) :
    InLanguage (before ++ glob :: after) (matched ++ rest)

/-! ### The segments -/

lemma segs_cons_slash (cs : List Char) : segs ('/' :: cs) = segs cs := by
  have hsplit := List.splitOn_append_cons_self (a := '/') [] cs
  rw [List.nil_append] at hsplit
  rw [segs, hsplit]
  simp [segs]

/-- The first segment ends before the next slash. -/
lemma segs_append {w : List Char} (hne : w ≠ []) (hw : '/' ∉ w) {rest : List Char}
    (hrest : rest.head? = some '/' ∨ rest = []) : segs (w ++ rest) = w :: segs rest := by
  have hkeep : (!w.isEmpty) = true := by simpa using hne
  cases rest with
  | nil =>
    rw [List.append_nil, segs, List.splitOn_eq_singleton hw, List.filter_singleton, hkeep]
    rfl
  | cons c r =>
    obtain rfl : c = '/' := by simpa using hrest
    rw [segs_cons_slash, segs, List.splitOn_append_cons_self_of_not_mem hw, List.filter_cons,
      if_pos hkeep, segs]

/-- The loop finds the nonempty segments between slashes. -/
theorem splitSegments_eq_segs (path : List Char) : splitSegments path = segs path := by
  induction path using splitSegments.induct with
  | case1 => simp [splitSegments, segs]
  | case2 cs ih => rw [splitSegments, if_pos rfl, ih, segs_cons_slash]
  | case3 c cs hc ih =>
    have hword : '/' ∉ c :: cs.takeWhile (· ≠ '/') := by
      rw [List.mem_cons, not_or]
      refine ⟨fun h => hc h.symm, fun h => ?_⟩
      have hne := List.mem_takeWhile_imp h
      exact absurd rfl (of_decide_eq_true hne)
    have hrest : (cs.dropWhile (· ≠ '/')).head? = some '/' ∨ cs.dropWhile (· ≠ '/') = [] := by
      cases hdrop : cs.dropWhile (· ≠ '/') with
      | nil => exact .inr rfl
      | cons d r =>
        have hstop := List.head?_dropWhile_not (fun c => decide (c ≠ '/')) cs
        rw [hdrop] at hstop
        exact .inl (by simpa using hstop)
    have hsplit : c :: cs = c :: cs.takeWhile (· ≠ '/') ++ cs.dropWhile (· ≠ '/') := by
      rw [List.cons_append, List.takeWhile_append_dropWhile]
    rw [splitSegments, if_neg hc, ih, hsplit, segs_append (List.cons_ne_nil _ _) hword hrest]

/-! ### The walk and the language -/

lemma drop_eq_cons {α : Type} {xs : List α} {k : Nat} {x : α} (h : xs[k]? = some x) :
    xs.drop k = x :: xs.drop (k + 1) := by
  obtain ⟨hk, rfl⟩ := List.getElem?_eq_some_iff.1 h
  exact List.drop_eq_getElem_cons hk

/-- The walk from the segment `k` on compares what is left of both. -/
lemma templateMatchFrom_eq (ts ps : List (List Char)) {k : Nat} (hts : k ≤ ts.length)
    (hps : k ≤ ps.length) :
    templateMatchFrom ts ps k = matchSegments (ts.drop k) (ps.drop k) := by
  induction k using templateMatchFrom.induct ts ps with
  | case1 k hend =>
    have hk : ts.length = k := Nat.le_antisymm (List.getElem?_eq_none_iff.1 hend) hts
    rw [templateMatchFrom, hend, List.drop_eq_nil_of_le (Nat.le_of_eq hk), matchSegments,
      Bool.eq_iff_iff, List.isEmpty_iff, List.drop_eq_nil_iff]
    simp only [decide_eq_true_iff]
    omega
  | case2 k t ht hglob =>
    rw [templateMatchFrom, ht, drop_eq_cons ht]
    simp only [if_pos hglob]
    cases hp : ps[k]? with
    | none =>
      have hend := List.getElem?_eq_none_iff.1 hp
      rw [List.drop_eq_nil_of_le hend, matchSegments]
      exact decide_eq_false (Nat.not_lt.2 hend)
    | some p =>
      rw [drop_eq_cons hp, matchSegments, if_pos hglob]
      exact decide_eq_true (List.getElem?_eq_some_iff.1 hp).1
  | case3 k t ht hglob hend =>
    rw [templateMatchFrom, ht, drop_eq_cons ht,
      List.drop_eq_nil_of_le (List.getElem?_eq_none_iff.1 hend), matchSegments]
    simp only [if_neg hglob, hend]
  | case4 k t ht hglob p hp hsame ih =>
    rw [templateMatchFrom, ht, drop_eq_cons ht, drop_eq_cons hp, matchSegments]
    simp only [if_neg hglob, hp, if_pos hsame]
    exact ih (List.getElem?_eq_some_iff.1 ht).1 (List.getElem?_eq_some_iff.1 hp).1
  | case5 k t ht hglob p hp hsame =>
    rw [templateMatchFrom, ht, drop_eq_cons ht, drop_eq_cons hp, matchSegments]
    simp only [if_neg hglob, hp, if_neg hsame]

lemma templateMatchLoop_eq (tmpl path : List Char) :
    templateMatchLoop tmpl path = templateMatch tmpl path := by
  rw [templateMatchLoop, templateMatchFrom_eq _ _ (Nat.zero_le _) (Nat.zero_le _), List.drop_zero,
    List.drop_zero, splitSegments_eq_segs, splitSegments_eq_segs, templateMatch]

lemma segIsParam_iff (t : List Char) : segIsParam t = true ↔ IsParam t := by
  rw [segIsParam, IsParam, Bool.or_eq_true, decide_eq_true_iff]
  refine or_congr_right ?_
  simp only [Bool.and_eq_true, decide_eq_true_iff]
  constructor
  · rintro ⟨⟨hlength, hhead⟩, hlast⟩
    cases t with
    | nil => cases hhead
    | cons c rest =>
      obtain rfl := Option.some.inj hhead
      have hne : rest ≠ [] := by
        rintro rfl
        exact absurd hlength (by decide)
      rw [List.getLast?_cons_of_ne_nil hne] at hlast
      obtain ⟨name, rfl⟩ := List.getLast?_eq_some_iff.1 hlast
      exact ⟨name, rfl⟩
  · rintro ⟨name, rfl⟩
    exact ⟨⟨by simp, rfl⟩, List.getLast?_concat⟩

lemma standsFor_iff (t p : List Char) : (segIsParam t || t = p) = true ↔ StandsFor t p := by
  rw [Bool.or_eq_true, segIsParam_iff, decide_eq_true_iff, StandsFor, Or.comm]

section

variable {t p : List Char} {ts ps : List (List Char)}

lemma inLanguage_nil_iff : InLanguage [] ps ↔ ps = [] := by
  constructor
  · generalize hts : [] = ts
    rintro (⟨-, hmatch⟩ | ⟨-, -, -, -⟩)
    · subst hts
      exact List.forall₂_nil_left_iff.1 hmatch
    · exact absurd hts.symm (List.append_ne_nil_of_right_ne_nil _ (List.cons_ne_nil _ _))
  · rintro rfl
    exact .whole (fun _ h => absurd h List.not_mem_nil) .nil

lemma not_inLanguage_cons_nil : ¬ InLanguage (t :: ts) [] := by
  generalize hps : [] = ps
  generalize hts : t :: ts = us
  rintro (⟨-, hmatch⟩ | ⟨-, -, -, hrest⟩)
  · rw [← hts, ← hps] at hmatch
    cases hmatch
  · exact hrest (List.append_eq_nil_iff.1 hps.symm).2

lemma inLanguage_glob (ht : IsGlob t) : InLanguage (t :: ts) (p :: ps) := by
  have h : InLanguage ([] ++ t :: ts) ([] ++ p :: ps) :=
    .glob (fun _ h => absurd h List.not_mem_nil) ht .nil (List.cons_ne_nil p ps)
  exact h

lemma inLanguage_cons_iff (ht : ¬ IsGlob t) :
    InLanguage (t :: ts) (p :: ps) ↔ StandsFor t p ∧ InLanguage ts ps := by
  constructor
  · generalize hts : t :: ts = us
    generalize hps : p :: ps = qs
    rintro (⟨hplain, hmatch⟩ | ⟨hplain, hglob, hmatch, hrest⟩)
    · subst hts hps
      obtain ⟨hp, hmatch⟩ := List.forall₂_cons.1 hmatch
      exact ⟨hp, .whole (List.forall_mem_cons.1 hplain).2 hmatch⟩
    · -- the glob is not the first segment
      cases hmatch with
      | nil =>
        obtain ⟨rfl, -⟩ := List.cons.inj hts
        exact absurd hglob ht
      | cons hp hmatch =>
        obtain ⟨rfl, rfl⟩ := List.cons.inj hts
        obtain ⟨rfl, rfl⟩ := List.cons.inj hps
        exact ⟨hp, .glob (List.forall_mem_cons.1 hplain).2 hglob hmatch hrest⟩
  · rintro ⟨hp, ⟨hplain, hmatch⟩ | ⟨hplain, hglob, hmatch, hrest⟩⟩
    · exact .whole (List.forall_mem_cons.2 ⟨ht, hplain⟩) (.cons hp hmatch)
    · rw [← List.cons_append, ← List.cons_append]
      exact .glob (List.forall_mem_cons.2 ⟨ht, hplain⟩) hglob (.cons hp hmatch) hrest

end

theorem matchSegments_iff (ts ps : List (List Char)) :
    matchSegments ts ps = true ↔ InLanguage ts ps := by
  induction ts, ps using matchSegments.induct with
  | case1 ps => rw [matchSegments, List.isEmpty_iff, inLanguage_nil_iff]
  | case2 t ts => exact iff_of_false Bool.false_ne_true not_inLanguage_cons_nil
  | case3 t ts p ps hglob =>
    rw [matchSegments, if_pos hglob]
    exact iff_of_true rfl (inLanguage_glob hglob)
  | case4 t ts p ps hglob hsame ih =>
    rw [matchSegments, if_neg hglob, if_pos hsame, ih, inLanguage_cons_iff hglob]
    exact (and_iff_right ((standsFor_iff t p).1 hsame)).symm
  | case5 t ts p ps hglob hsame =>
    rw [matchSegments, if_neg hglob, if_neg hsame, inLanguage_cons_iff hglob]
    exact iff_of_false Bool.false_ne_true fun h => hsame ((standsFor_iff t p).2 h.1)

/-! ### Costs -/

/-- The first of a list that is so. -/
def IsFirst {α : Type} (P : α → Prop) (xs : List α) (x : α) : Prop :=
  ∃ before after, xs = before ++ x :: after ∧ P x ∧ ∀ y ∈ before, ¬ P y

/-- An entry for the very path, of the method that is asked for. -/
def EndpointCost.Exact (method : Method) (path : List Char) (e : EndpointCost) : Prop :=
  e.method = method ∧ e.path = path

/-- An entry whose template stands for the path, of the method that is asked for. -/
def EndpointCost.Matches (method : Method) (path : List Char) (e : EndpointCost) : Prop :=
  e.method = method ∧ InLanguage (segs e.path) (segs path)

/-- The first exact entry decides, else the first template, else the default. -/
inductive Charged (costs : EndpointCostTable) (method : Method) (path : List Char) : Int → Prop
  | exact {e} (hfirst : IsFirst (EndpointCost.Exact method path) costs.overrides e) :
    Charged costs method path e.cost
  | template {e} (hnone : ∀ e ∈ costs.overrides, ¬ e.Exact method path)
      (hfirst : IsFirst (EndpointCost.Matches method path) costs.overrides e) :
    Charged costs method path e.cost
  | default (hnone : ∀ e ∈ costs.overrides, ¬ e.Exact method path)
      (hnone' : ∀ e ∈ costs.overrides, ¬ e.Matches method path) :
    Charged costs method path costs.defaultCost

section

variable {α : Type} {P : α → Prop} {p : α → Bool} (hp : ∀ x, p x = true ↔ P x) {xs : List α}

include hp

lemma find?_eq_some_iff_isFirst {x : α} : xs.find? p = some x ↔ IsFirst P xs x := by
  rw [List.find?_eq_some_iff_append]
  constructor
  · rintro ⟨hx, before, after, rfl, hbefore⟩
    refine ⟨before, after, rfl, (hp x).1 hx, fun y hy hPy => ?_⟩
    have hy' := hbefore y hy
    rw [(hp y).2 hPy] at hy'
    cases hy'
  · rintro ⟨before, after, rfl, hx, hbefore⟩
    refine ⟨(hp x).2 hx, before, after, rfl, fun y hy => ?_⟩
    rw [Bool.not_eq_true', ← Bool.not_eq_true, hp y]
    exact hbefore y hy

lemma find?_eq_none_iff_forall : xs.find? p = none ↔ ∀ x ∈ xs, ¬ P x := by
  simp only [List.find?_eq_none, hp]

end

theorem costFor_eq_iff {costs : EndpointCostTable} {method : Method} {path : List Char}
    {cost : Int} : costs.costFor method path = cost ↔ Charged costs method path cost := by
  have hexact : ∀ e : EndpointCost, (decide (e.method = method) && decide (e.path = path)) = true ↔
      e.Exact method path := by
    intro e
    rw [Bool.and_eq_true, decide_eq_true_iff, decide_eq_true_iff, EndpointCost.Exact]
  have hmatches : ∀ e : EndpointCost,
      (decide (e.method = method) && templateMatch e.path path) = true ↔
      e.Matches method path := by
    intro e
    rw [Bool.and_eq_true, decide_eq_true_iff, templateMatch, matchSegments_iff,
      EndpointCost.Matches]
  rw [EndpointCostTable.costFor]
  constructor
  · rintro rfl
    split
    · next e he => exact .exact ((find?_eq_some_iff_isFirst hexact).1 he)
    · next hnone =>
      have hnone := (find?_eq_none_iff_forall hexact).1 hnone
      split
      · next e he => exact .template hnone ((find?_eq_some_iff_isFirst hmatches).1 he)
      · next hnone' => exact .default hnone ((find?_eq_none_iff_forall hmatches).1 hnone')
  · rintro (hfirst | ⟨hnone, hfirst⟩ | ⟨hnone, hnone'⟩)
    · rw [(find?_eq_some_iff_isFirst hexact).2 hfirst]
    · rw [(find?_eq_none_iff_forall hexact).2 hnone, (find?_eq_some_iff_isFirst hmatches).2 hfirst]
    · rw [(find?_eq_none_iff_forall hexact).2 hnone, (find?_eq_none_iff_forall hmatches).2 hnone']

/-- The walk decides the language of a template, and the cost table charges by it. -/
theorem templates_decide_costs : (∀ tmpl path,
      templateMatchLoop tmpl path = true ↔ InLanguage (segs tmpl) (segs path)) ∧
    ∀ costs method path cost,
      EndpointCostTable.costFor costs method path = cost ↔ Charged costs method path cost := by
  refine ⟨fun tmpl path => ?_, fun _ _ _ _ => costFor_eq_iff⟩
  rw [templateMatchLoop_eq, templateMatch, matchSegments_iff]

end HftBot
