import HftBot.Core.CanonicalJson

/-!
# The same JSON

Two values are the same JSON when they differ in the order of members only. What the language finds
equal may differ in the kind of a number as well; a member that holds the hash of the rest of an
object settles these.
-/

namespace HftBot.Core.PyValue

/-- The values are equal up to the order of the members of objects. -/
def SameJson (v w : PyValue) : Prop := v.sorted = w.sorted

variable {xs ys : List (Text × PyValue)} {k : Text}

/-! ### Members -/

lemma lookup_eq_some_iff (hx : (xs.map (·.1)).Nodup) {v : PyValue} :
    xs.lookup k = some v ↔ (k, v) ∈ xs :=
  ⟨mem_of_lookup, fun h => lookup_of_mem_of_nodup hx h⟩

lemma lookup_eq_of_perm (hx : (xs.map (·.1)).Nodup) (h : xs.Perm ys) :
    xs.lookup k = ys.lookup k := by
  have hy : (ys.map (·.1)).Nodup := (h.map _).nodup_iff.1 hx
  refine Option.ext fun v => ?_
  rw [lookup_eq_some_iff hx, lookup_eq_some_iff hy, h.mem_iff]

lemma map_key_sortedMembers : (sortedMembers xs).map (·.1) = xs.map (·.1) := by
  rw [sortedMembers_eq, List.map_map]
  rfl

lemma lookup_sortedMembers : (sortedMembers xs).lookup k = (xs.lookup k).map sorted := by
  induction xs with
  | nil => rfl
  | cons m rest ih =>
    obtain ⟨l, v⟩ := m
    rw [sortedMembers, List.lookup_cons, List.lookup_cons, ih]
    split <;> rfl

/-- An object is its member of some name and the others. -/
lemma perm_filter (hx : (xs.map (·.1)).Nodup) {v : PyValue} (h : xs.lookup k = some v) :
    xs.Perm ((k, v) :: xs.filter fun m => m.1 ≠ k) := by
  obtain ⟨before, after, rfl⟩ := List.append_of_mem (mem_of_lookup h)
  have hne : ∀ m ∈ before ++ after, m.1 ≠ k := by
    rw [List.map_append, List.map_cons, List.nodup_middle, List.nodup_cons, ← List.map_append] at hx
    rintro m hm rfl
    exact hx.1 (List.mem_map.2 ⟨m, hm, rfl⟩)
  have hfilter : (before ++ (k, v) :: after).filter (fun m => m.1 ≠ k) = before ++ after := by
    rw [List.filter_append, List.filter_cons_of_neg (by simp), ← List.filter_append]
    exact List.filter_eq_self.2 fun m hm => decide_eq_true (hne m hm)
  rw [hfilter]
  exact List.perm_middle

/-! ### Objects -/

lemma sameJson_dict_iff (hx : (xs.map (·.1)).Nodup) :
    SameJson (dict xs) (dict ys) ↔ (sortedMembers xs).Perm (sortedMembers ys) := by
  have hperm : ∀ zs : List (Text × PyValue), (byKey (sortedMembers zs)).Perm (sortedMembers zs) :=
    fun _ => List.perm_insertionSort _ _
  constructor
  · intro h
    have hkey : byKey (sortedMembers xs) = byKey (sortedMembers ys) := dict.inj h
    exact ((hperm xs).symm.trans (.of_eq hkey)).trans (hperm ys)
  · intro h
    refine congrArg dict (List.Perm.eq_of_pairwise ?_ (List.pairwise_map.1 (byKey_keys_sorted _))
      (List.pairwise_map.1 (byKey_keys_sorted _)) (((hperm xs).trans h).trans (hperm ys).symm))
    intro a b ha hb hab hba
    -- two members of one key are one member
    rw [(hperm xs).mem_iff] at ha
    rw [(hperm ys).mem_iff, ← h.mem_iff] at hb
    rw [← map_key_sortedMembers] at hx
    exact List.inj_on_of_nodup_map hx ha hb (le_antisymm hab hba)

/-- Members of one name of two values that are the same JSON are the same JSON. -/
lemma sorted_field {v w : PyValue} (hv : v.WellFormed) (h : SameJson v w) {key : String} :
    (v.field key).map sorted = (w.field key).map sorted := by
  cases v with
  | dict xs =>
    cases w with
    | dict ys =>
      have hx := hv.1
      rw [field, field, ← lookup_sortedMembers, ← lookup_sortedMembers]
      apply lookup_eq_of_perm _ ((sameJson_dict_iff hx).1 h)
      rwa [map_key_sortedMembers]
    | _ => cases h
  | _ =>
    cases w with
    | dict ys => cases h
    | _ => rfl

/-- Equal objects have equal members of each name. -/
lemma eq_field {v w a : PyValue} {key : String} (h : v.eq w = true) (ha : v.field key = some a) :
    ∃ b, w.field key = some b ∧ a.eq b = true := by
  cases v with
  | dict xs =>
    cases w with
    | dict ys => exact eqMembers_iff.1 (Bool.and_eq_true_iff.1 h).2 _ (mem_of_lookup ha)
    | _ => exact absurd h Bool.false_ne_true
  | _ => cases ha

lemma wellFormed_field {v x : PyValue} (hv : v.WellFormed) {key : String}
    (h : v.field key = some x) : x.WellFormed := by
  cases v with
  | dict xs => exact wellFormedMembers_iff.1 hv.2 _ (mem_of_lookup h)
  | _ => cases h

/-! ### An object without a member -/

lemma wellFormed_without {v : PyValue} (hv : v.WellFormed) (key : String) :
    (v.without key).WellFormed := by
  cases v with
  | dict xs =>
    refine ⟨hv.1.sublist (List.filter_sublist.map _), wellFormedMembers_iff.2 fun m hm => ?_⟩
    exact wellFormedMembers_iff.1 hv.2 m (List.mem_filter.1 hm).1
  | _ => exact hv

lemma lookup_filter {key : Text} (hk : k ≠ key) :
    (xs.filter fun m => m.1 ≠ key).lookup k = xs.lookup k := by
  induction xs with
  | nil => rfl
  | cons m rest ih =>
    rw [List.filter_cons, List.lookup_cons]
    split
    · rw [List.lookup_cons, ih]
    · rename_i hm
      have hne : (k == m.1) = false := beq_false_of_ne fun h => hm (decide_eq_true (h ▸ hk))
      rw [ih, hne]

/-- Equal objects that both have a member are equal without it. -/
lemma eq_without {v w : PyValue} (hv : v.WellFormed) (hw : w.WellFormed) (h : v.eq w = true)
    {key : String} {a b : PyValue} (ha : v.field key = some a) (hb : w.field key = some b) :
    (v.without key).eq (w.without key) = true := by
  cases v with
  | dict xs =>
    cases w with
    | dict ys =>
      obtain ⟨hlength, hmembers⟩ := Bool.and_eq_true_iff.1 h
      have hx := (perm_filter hv.1 ha).length_eq
      have hy := (perm_filter hw.1 hb).length_eq
      rw [List.length_cons] at hx hy
      refine Bool.and_eq_true_iff.2 ⟨decide_eq_true ?_, eqMembers_iff.2 fun m hm => ?_⟩
      · have hlen := of_decide_eq_true hlength
        omega
      · obtain ⟨hm, hne⟩ := List.mem_filter.1 hm
        rw [lookup_filter (of_decide_eq_true hne)]
        exact eqMembers_iff.1 hmembers m hm
    | _ => cases hb
  | _ => cases ha

/-- Objects with the same member that are the same JSON without it. -/
lemma sameJson_of_without {v w : PyValue} (hv : v.WellFormed) (hw : w.WellFormed) {key : String}
    {a : PyValue} (ha : v.field key = some a) (hb : w.field key = some a)
    (h : SameJson (v.without key) (w.without key)) : SameJson v w := by
  cases v with
  | dict xs =>
    cases w with
    | dict ys =>
      have hperm := (sameJson_dict_iff (wellFormed_without hv key).1).1 h
      have hsplit : ∀ {zs : List (Text × PyValue)}, (zs.map (·.1)).Nodup →
          zs.lookup (text key) = some a → (sortedMembers zs).Perm
            ((text key, a.sorted) :: sortedMembers (zs.filter fun m => m.1 ≠ text key)) := by
        intro zs hz hlookup
        rw [sortedMembers_eq, sortedMembers_eq]
        exact (perm_filter hz hlookup).map _
      rw [sameJson_dict_iff hv.1]
      exact ((hsplit hv.1 ha).trans (hperm.cons _)).trans (hsplit hw.1 hb).symm
    | _ => cases hb
  | _ => cases ha

/-- A member that two equal objects have in common, and that holds a hash of the rest, makes them
the same JSON. -/
theorem sameJson_of_hash (hash : Bytes → String) (hhash : ∀ {v w : PyValue} {b c : Bytes},
    v.canonicalJson = .ok b → w.canonicalJson = .ok c → hash b = hash c → b = c)
    {v w : PyValue} (hv : v.WellFormed) (hw : w.WellFormed) (h : v.eq w = true) {key : String}
    {b c : Bytes} (hvb : (v.without key).canonicalJson = .ok b)
    (hwc : (w.without key).canonicalJson = .ok c) (hvkey : v.field key = some (string (hash b)))
    (hwkey : w.field key = some (string (hash c))) : SameJson v w := by
  have hbc : hash b = hash c := by
    obtain ⟨d, hd, heq⟩ := eq_field h hvkey
    obtain rfl := Option.some.inj (hwkey.symm.trans hd)
    exact string_inj.1 (isText_iff.1 heq)
  obtain rfl := hhash hvb hwc hbc
  apply sameJson_of_without hv hw hvkey hwkey
  exact sorted_eq_of_canonicalJson (wellFormed_without hv key) (wellFormed_without hw key)
    (eq_without hv hw h hvkey hwkey) hvb hwc

end HftBot.Core.PyValue
