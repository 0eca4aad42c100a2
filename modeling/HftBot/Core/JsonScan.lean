import HftBot.Core.JsonObject
import HftBot.Core.Run

/-!
# Scanning a text

A machine that looks at one byte at a time, and keeps only how deep it is nested and whether it is
in a string. It takes every text that the reader takes, which shows that texts are refused without
following the reader through them.
-/

namespace HftBot.Core.JsonText

open HftBot.Core.Utf8

/-- Between tokens or inside of one, in a string, after a string, or in what is no JSON text. -/
inductive Scan
  | out (depth : Int)
  | str (depth : Int) (escaped : Bool)
  | closed (depth : Int)
  | bad
deriving DecidableEq, Repr

namespace Scan

def step : Scan → UInt8 → Scan
  | out d,       b =>
    if b = '"'.toUInt8 then str d false
    else if b = '{'.toUInt8 ∨ b = '['.toUInt8 then out (d + 1)
    else if b = '}'.toUInt8 ∨ b = ']'.toUInt8 then out (d - 1)
    else out d
  | str d true,  _ => str d false
  | str d false, b =>
    if b = '"'.toUInt8 then closed d
    else if b = '\\'.toUInt8 then str d true
    else str d false
  | closed d,    b =>
    if isSpace b then closed d
    else if b = ','.toUInt8 ∨ b = ':'.toUInt8 then out d
    else if b = '}'.toUInt8 ∨ b = ']'.toUInt8 then out (d - 1)
    else bad
  | bad,         _ => bad

/-- Not in a string, at that depth. -/
inductive Outside (d : Int) : Scan → Prop
  | out    : Outside d (out d)
  | closed : Outside d (closed d)

/-- Between a text and a rest of it the machine gets from a state to another one. -/
def Gets (t rest : Bytes) (s : Scan) (Q : Scan → Prop) : Prop :=
  ∃ used, t = used ++ rest ∧ Q (run step s used)

variable {t t' t'' : Bytes} {s : Scan} {Q Q' : Scan → Prop} {d : Int} {b : UInt8}

lemma Gets.refl (h : Q s) : Gets t t s Q := ⟨[], rfl, h⟩

lemma Gets.trans (h : Gets t t' s Q) (h' : ∀ s', Q s' → Gets t' t'' s' Q') : Gets t t'' s Q' := by
  obtain ⟨used, rfl, hs⟩ := h
  obtain ⟨used', rfl, hs'⟩ := h' _ hs
  exact ⟨used ++ used', (List.append_assoc _ _ _).symm, by rw [run_append]; exact hs'⟩

lemma Gets.eq_out (h : Gets t t' s (· = out d)) : Gets t t' s (Outside d) := by
  obtain ⟨used, rfl, hs⟩ := h
  exact ⟨used, rfl, hs ▸ .out⟩

lemma Gets.cons (h : Gets t t' (step s b) Q) : Gets (b :: t) t' s Q := by
  obtain ⟨used, rfl, hs⟩ := h
  exact ⟨b :: used, rfl, hs⟩

/-! ### Tokens -/

/-- A byte that the machine does not look at outside of strings. -/
def Neutral (b : UInt8) : Prop := step (out 0) b = out 0

instance (b : UInt8) : Decidable (Neutral b) := inferInstanceAs (Decidable (_ = _))

lemma step_neutral (hb : Neutral b) : step (out d) b = out d := by
  simp only [Neutral, step] at hb ⊢
  split_ifs at hb ⊢ with h₁ h₂ h₃
  · exact absurd (Scan.out.inj hb) (by decide)
  · exact absurd (Scan.out.inj hb) (by decide)
  · rfl

lemma gets_neutral {w : Bytes} (hw : ∀ b ∈ w, Neutral b) : Gets (w ++ t) t (out d) (· = out d) := by
  refine ⟨w, rfl, ?_⟩
  induction w with
  | nil => rfl
  | cons b w ih =>
    rw [run_cons, step_neutral (hw b List.mem_cons_self)]
    exact ih fun c hc => hw c (List.mem_cons_of_mem b hc)

lemma neutral_of_isDigit (hb : isDigit b = true) : Neutral b := by
  have hne : ∀ c : Char, isDigit c.toUInt8 = false → b ≠ c.toUInt8 := by
    rintro c hc rfl
    rw [hc] at hb
    exact Bool.false_ne_true hb
  simp [Neutral, step, hne '"' (by decide), hne '{' (by decide), hne '[' (by decide),
    hne '}' (by decide), hne ']' (by decide)]

lemma neutral_of_isSpace (hb : isSpace b = true) : Neutral b := by
  simp only [isSpace, decide_eq_true_eq] at hb
  rcases hb with rfl | rfl | rfl | rfl <;> decide

/-- White space between tokens changes nothing. -/
lemma run_space (hs : Outside d s) {w : Bytes} (hw : ∀ b ∈ w, isSpace b = true) :
    run step s w = s := by
  refine run_inv (P := (· = s)) (A := fun _ b => isSpace b = true) (fun s' b hs' hb => ?_) rfl
    (along_of_forall hw)
  subst hs'
  cases hs with
  | out => exact step_neutral (neutral_of_isSpace hb)
  | closed => rw [step, if_pos hb]

lemma gets_skipSpace (hs : Outside d s) : Gets t (skipSpace t) s (· = s) :=
  ⟨t.takeWhile isSpace, (List.takeWhile_append_dropWhile).symm,
    run_space hs (List.all_eq_true.1 List.all_takeWhile)⟩

/-- A string up to its closing quote. -/
lemma gets_quoted {c rest : Bytes} (h : quoted t = some (c, rest)) :
    Gets t rest (str d false) (· = closed d) := by
  induction t using quoted.induct generalizing c with
  | case1 => rw [quoted] at h; exact absurd h (by simp)
  | case2 t =>
    rw [quoted.eq_def] at h
    simp only [↓reduceIte, Option.some.injEq, Prod.mk.injEq] at h
    rw [← h.2]
    exact .cons (.refl rfl)
  | case3 hne =>
    rw [quoted.eq_def] at h
    simp only [hne, ↓reduceIte] at h
    exact absurd h (by simp)
  | case4 e t hne ih =>
    rw [quoted.eq_def] at h
    simp only [hne, ↓reduceIte, Option.map_eq_some_iff, Prod.mk.injEq] at h
    obtain ⟨⟨c, r⟩, hq, -, rfl⟩ := h
    exact .cons (.cons (ih hq))
  | case5 b t hne hback ih =>
    rw [quoted.eq_def] at h
    simp only [hne, hback, ↓reduceIte, Option.map_eq_some_iff, Prod.mk.injEq] at h
    obtain ⟨⟨c, r⟩, hq, -, rfl⟩ := h
    have hstep : step (str d false) b = str d false := by rw [step, if_neg hne, if_neg hback]
    refine .cons ?_
    rw [hstep]
    exact ih hq

lemma gets_string {c rest : Bytes} (h : string t = some (c, rest)) :
    Gets t rest (str d false) (· = closed d) := by
  simp only [string, Option.bind_eq_bind, Option.bind_eq_some_iff] at h
  obtain ⟨⟨q, r⟩, hq, c, -, heq⟩ := h
  obtain ⟨-, rfl⟩ := Prod.mk.inj (Option.some.inj heq)
  exact gets_quoted hq

/-! ### Numbers -/

/-- Bytes that the machine does not look at stand in front of the rest. -/
def Splits (t w rest : Bytes) : Prop := t = w ++ rest ∧ ∀ b ∈ w, Neutral b

lemma Splits.append {w w' rest : Bytes} (h : Splits t w t') (h' : Splits t' w' rest) :
    Splits t (w ++ w') rest := by
  obtain ⟨rfl, hw⟩ := h
  obtain ⟨rfl, hw'⟩ := h'
  exact ⟨(List.append_assoc _ _ _).symm, List.forall_mem_append.2 ⟨hw, hw'⟩⟩

lemma splits_nil : Splits t [] t := ⟨rfl, fun _ hb => absurd hb List.not_mem_nil⟩

lemma splits_optionally {p : UInt8 → Bool} (hp : ∀ b, p b = true → Neutral b) :
    Splits t (optionally p t).1 (optionally p t).2 := by
  cases t with
  | nil => exact splits_nil
  | cons b t =>
    rw [optionally]
    split_ifs with hb
    · exact ⟨rfl, fun c hc => by rw [List.mem_singleton.1 hc]; exact hp b hb⟩
    · exact splits_nil

lemma splits_digits {ds rest : Bytes} (h : digits t = some (ds, rest)) : Splits t ds rest := by
  rw [digits] at h
  split_ifs at h
  obtain ⟨rfl, rfl⟩ := Prod.mk.inj (Option.some.inj h)
  exact ⟨(List.takeWhile_append_dropWhile).symm,
    fun b hb => neutral_of_isDigit (List.all_eq_true.1 List.all_takeWhile b hb)⟩

lemma splits_integer {ds rest : Bytes} (h : integer t = some (ds, rest)) : Splits t ds rest := by
  rw [integer, Option.filter_eq_some_iff] at h
  exact splits_digits h.1

lemma splits_fraction {w rest : Bytes} (h : fraction t = some (w, rest)) : Splits t w rest := by
  have hdot : Splits t (optionally (· = '.'.toUInt8) t).1 (optionally (· = '.'.toUInt8) t).2 :=
    splits_optionally fun b hb => by rw [of_decide_eq_true hb]; decide
  rw [fraction] at h
  generalize optionally (· = '.'.toUInt8) t = o at h hdot
  obtain ⟨dot, r⟩ := o
  cases dot with
  | nil =>
    obtain ⟨rfl, rfl⟩ := Prod.mk.inj (Option.some.inj h)
    exact splits_nil
  | cons b dot =>
    obtain ⟨⟨ds, r'⟩, hds, heq⟩ := Option.map_eq_some_iff.1 h
    obtain ⟨rfl, rfl⟩ := Prod.mk.inj heq
    exact hdot.append (splits_digits hds)

lemma splits_exponent {w rest : Bytes} (h : exponent t = some (w, rest)) : Splits t w rest := by
  have he : ∀ t, Splits t (optionally (fun b => b = 'e'.toUInt8 ∨ b = 'E'.toUInt8) t).1
      (optionally (fun b => b = 'e'.toUInt8 ∨ b = 'E'.toUInt8) t).2 := fun t =>
    splits_optionally fun b hb => by rcases of_decide_eq_true hb with rfl | rfl <;> decide
  have hsign : ∀ t, Splits t (optionally (fun b => b = '+'.toUInt8 ∨ b = '-'.toUInt8) t).1
      (optionally (fun b => b = '+'.toUInt8 ∨ b = '-'.toUInt8) t).2 := fun t =>
    splits_optionally fun b hb => by rcases of_decide_eq_true hb with rfl | rfl <;> decide
  have het := he t
  rw [exponent] at h
  generalize optionally (fun b => b = 'e'.toUInt8 ∨ b = 'E'.toUInt8) t = o at h het
  obtain ⟨e, r⟩ := o
  cases e with
  | nil =>
    obtain ⟨rfl, rfl⟩ := Prod.mk.inj (Option.some.inj h)
    exact splits_nil
  | cons b e =>
    obtain ⟨⟨ds, r'⟩, hds, heq⟩ := Option.map_eq_some_iff.1 h
    obtain ⟨rfl, rfl⟩ := Prod.mk.inj heq
    exact (het.append (hsign r)).append (splits_digits hds)

lemma gets_number {w rest : Bytes} (h : number t = some (w, rest)) :
    Gets t rest (out d) (· = out d) := by
  have hsign : Splits t (optionally (· = '-'.toUInt8) t).1 (optionally (· = '-'.toUInt8) t).2 :=
    splits_optionally fun b hb => by rw [of_decide_eq_true hb]; decide
  simp only [number, Option.bind_eq_bind, Option.bind_eq_some_iff] at h
  obtain ⟨⟨whole, t₁⟩, hwhole, ⟨frac, t₂⟩, hfrac, ⟨exp, t₃⟩, hexp, heq⟩ := h
  obtain ⟨-, rfl⟩ := Prod.mk.inj (Option.some.inj heq)
  obtain ⟨heq, hneutral⟩ := ((hsign.append (splits_integer hwhole)).append
    (splits_fraction hfrac)).append (splits_exponent hexp)
  rw [heq]
  exact gets_neutral hneutral

lemma gets_literal {word rest : Bytes} {v v' : Value} (hword : ∀ b ∈ word, Neutral b)
    (h : literal word v t = some (v', rest)) : Gets t rest (out d) (· = out d) := by
  rw [literal] at h
  split_ifs at h with hpre
  obtain ⟨u, rfl⟩ := List.isPrefixOf_iff_prefix.1 hpre
  obtain ⟨-, rfl⟩ := Prod.mk.inj (Option.some.inj h)
  rw [List.drop_left]
  exact gets_neutral hword

/-! ### Values -/

lemma step_comma (hs : Outside d s) : step s ','.toUInt8 = out d := by
  cases hs with
  | out => rfl
  | closed => rfl

lemma step_brace (s : Scan) (d : Int) (hs : Outside d s) : step s '}'.toUInt8 = out (d - 1) := by
  cases hs with
  | out => rfl
  | closed => rfl

lemma step_bracket (s : Scan) (d : Int) (hs : Outside d s) : step s ']'.toUInt8 = out (d - 1) := by
  cases hs with
  | out => rfl
  | closed => rfl

section

variable {α : Type} {item : Bytes → Option (α × Bytes)} {close : UInt8}
  (hitem : ∀ {t a rest} (d : Int), item t = some (a, rest) → Gets t rest (out d) (Outside d))
  (hclose : ∀ s d, Outside d s → step s close = out (d - 1))
include hitem hclose

lemma gets_items {n : Nat} {as : List α} {rest : Bytes}
    (h : items item close n t = some (as, rest)) : Gets t rest (out d) (· = out (d - 1)) := by
  induction n generalizing t as with
  | zero => rw [items] at h; exact absurd h (by simp)
  | succ n ih =>
    simp only [items, Option.bind_eq_bind, Option.bind_eq_some_iff] at h
    obtain ⟨⟨a, t₁⟩, ha, h⟩ := h
    refine (gets_skipSpace .out).trans ?_
    rintro s rfl
    refine (hitem d ha).trans fun s hs => ?_
    refine (gets_skipSpace hs).trans ?_
    rintro s' rfl
    split at h
    · exact absurd h (by simp)
    · rename_i b t₂ heq
      rw [heq]
      refine .cons ?_
      split_ifs at h with hb hcomma
      · obtain ⟨-, rfl⟩ := Prod.mk.inj (Option.some.inj h)
        rw [hb, hclose s' d hs]
        exact .refl rfl
      · obtain ⟨⟨as, r⟩, has, heq⟩ := Option.map_eq_some_iff.1 h
        obtain ⟨-, rfl⟩ := Prod.mk.inj heq
        rw [hcomma, step_comma hs]
        exact ih has

lemma gets_container {as : List α} {rest : Bytes} (h : container item close t = some (as, rest)) :
    Gets t rest (out d) (· = out (d - 1)) := by
  rw [container] at h
  refine (gets_skipSpace .out).trans ?_
  rintro s rfl
  split at h
  · exact absurd h (by simp)
  · rename_i b t₁ heq
    rw [heq]
    split_ifs at h with hb
    · obtain ⟨-, rfl⟩ := Prod.mk.inj (Option.some.inj h)
      refine .cons (.refl ?_)
      rw [hb, hclose _ d .out]
    · exact gets_items hitem hclose h

end

lemma gets_member {value : Bytes → Option (Value × Bytes)} {m : Bytes × Value} {rest : Bytes}
    (hvalue : ∀ {t v rest} (d : Int), value t = some (v, rest) → Gets t rest (out d) (Outside d))
    (h : member value t = some (m, rest)) : Gets t rest (out d) (Outside d) := by
  cases t with
  | nil => exact absurd h (by simp [member])
  | cons b t =>
    rw [member] at h
    split_ifs at h with hb
    simp only [Option.bind_eq_bind, Option.bind_eq_some_iff] at h
    obtain ⟨⟨name, t₁⟩, hname, h⟩ := h
    subst hb
    refine .cons ((gets_string hname).trans ?_)
    rintro s rfl
    refine (gets_skipSpace .closed).trans ?_
    rintro s rfl
    split at h
    · exact absurd h (by simp)
    · rename_i c t₂ heq
      split_ifs at h with hc
      obtain ⟨⟨v, r⟩, hv, heq'⟩ := Option.map_eq_some_iff.1 h
      obtain ⟨-, rfl⟩ := Prod.mk.inj heq'
      rw [heq, hc]
      refine .cons ((gets_skipSpace .out).trans ?_)
      rintro s rfl
      exact hvalue d hv

theorem gets_value {n : Nat} {v : Value} {rest : Bytes} (h : value n t = some (v, rest)) :
    Gets t rest (out d) (Outside d) := by
  induction n generalizing t v rest d with
  | zero => rw [value] at h; exact absurd h (by simp)
  | succ n ih =>
    cases t with
    | nil => rw [value] at h; exact absurd h (by simp)
    | cons b t =>
      rw [value] at h
      split_ifs at h with hobject harray hstring hnull htrue hfalse
      · obtain ⟨⟨ms, r⟩, hms, heq⟩ := Option.map_eq_some_iff.1 h
        obtain ⟨-, rfl⟩ := Prod.mk.inj heq
        rw [hobject]
        refine .cons (Gets.eq_out ?_)
        have hinside : Gets t r (out (d + 1)) (· = out (d + 1 - 1)) :=
          gets_container (fun d hm => gets_member (fun _ => ih) hm) step_brace hms
        rw [Int.add_sub_cancel] at hinside
        exact hinside
      · obtain ⟨⟨vs, r⟩, hvs, heq⟩ := Option.map_eq_some_iff.1 h
        obtain ⟨-, rfl⟩ := Prod.mk.inj heq
        rw [harray]
        refine .cons (Gets.eq_out ?_)
        have hinside : Gets t r (out (d + 1)) (· = out (d + 1 - 1)) :=
          gets_container (fun _ => ih) step_bracket hvs
        rw [Int.add_sub_cancel] at hinside
        exact hinside
      · obtain ⟨⟨c, r⟩, hc, heq⟩ := Option.map_eq_some_iff.1 h
        obtain ⟨-, rfl⟩ := Prod.mk.inj heq
        rw [hstring]
        refine .cons ((gets_string hc).trans ?_)
        rintro s rfl
        exact .refl .closed
      · exact (gets_literal (forall_mem_of_all (by decide)) h).eq_out
      · exact (gets_literal (forall_mem_of_all (by decide)) h).eq_out
      · exact (gets_literal (forall_mem_of_all (by decide)) h).eq_out
      · obtain ⟨⟨w, r⟩, hw, heq⟩ := Option.map_eq_some_iff.1 h
        obtain ⟨-, rfl⟩ := Prod.mk.inj heq
        exact (gets_number hw).eq_out

/-- A text that is read leaves the machine where it began. -/
theorem outside_of_read {v : Value} (h : read t = some v) : Outside 0 (run step (out 0) t) := by
  rw [read] at h
  split_ifs at h
  cases hv : value t.length (skipSpace t) with
  | none => rw [hv] at h; exact absurd h (by simp)
  | some p =>
    obtain ⟨v', rest⟩ := p
    rw [hv] at h
    simp only at h
    split_ifs at h with hrest
    have hgets : Gets t (skipSpace rest) (out 0) (Outside 0) := by
      refine (gets_skipSpace .out).trans ?_
      rintro s rfl
      refine (gets_value hv).trans fun s hs => ?_
      refine (gets_skipSpace hs).trans ?_
      rintro s' rfl
      exact .refl hs
    obtain ⟨used, heq, hs⟩ := hgets
    rw [hrest, List.append_nil] at heq
    rw [heq]
    exact hs

/-! ### Parts of an object -/

/-- Inside of an object that is not inside of anything. -/
def Inside (s : Scan) : Prop := Outside 1 s ∨ ∃ escaped, s = str 1 escaped

/-- The machine stays inside of the object all along a text. -/
def Stays (s : Scan) (t : Bytes) : Prop := Along step (fun s b => Inside (step s b)) s t

lemma Stays.inside {p : Bytes} (h : Stays s t) (hs : Inside s) (hp : p <+: t) :
    Inside (run step s p) := by
  obtain ⟨u, rfl⟩ := hp
  exact run_inv (A := fun s b => Inside (step s b)) (fun _ _ _ h => h) hs (along_append.1 h).1

/-- The text of a value, at whichever byte it is cut. -/
def TextIn (t : Bytes) : Prop := Stays (out 1) t ∧ Outside 1 (run step (out 1) t)

/-- The bytes of a string, at whichever of them it is cut. -/
def ContentIn (c : Bytes) : Prop := Stays (str 1 false) c ∧ run step (str 1 false) c = str 1 false

lemma contentIn_nil : ContentIn [] := ⟨trivial, rfl⟩

lemma ContentIn.append {c c' : Bytes} (h : ContentIn c) (h' : ContentIn c') :
    ContentIn (c ++ c') := by
  refine ⟨along_append.2 ⟨h.1, ?_⟩, ?_⟩
  · rw [h.2]
    exact h'.1
  · rw [run_append, h.2, h'.2]

lemma contentIn_plain (hb : Plain b) : ContentIn [b] := by
  have hstep : step (str 1 false) b = str 1 false := by
    rw [step, if_neg hb.2.1, if_neg hb.2.2]
  exact ⟨⟨Or.inr ⟨false, hstep⟩, trivial⟩, hstep⟩

lemma contentIn_escape (e : UInt8) : ContentIn ['\\'.toUInt8, e] :=
  ⟨⟨Or.inr ⟨true, rfl⟩, Or.inr ⟨false, rfl⟩, trivial⟩, rfl⟩

lemma contentIn_flatMap {f : UInt8 → Bytes} {w : Bytes} (h : ∀ b ∈ w, ContentIn (f b)) :
    ContentIn (w.flatMap f) := by
  induction w with
  | nil => exact contentIn_nil
  | cons a w ih =>
    exact (h a List.mem_cons_self).append (ih fun b hb => h b (List.mem_cons_of_mem a hb))

lemma contentIn_of_plain {w : Bytes} (h : ∀ b ∈ w, Plain b) : ContentIn w := by
  have hw : w.flatMap (fun b => [b]) = w := by simp
  rw [← hw]
  exact contentIn_flatMap fun b hb => contentIn_plain (h b hb)

lemma textIn_string {c : Bytes} (h : ContentIn c) : TextIn ('"'.toUInt8 :: c ++ ['"'.toUInt8]) := by
  have hopen : step (out 1) '"'.toUInt8 = str 1 false := rfl
  have hclose : step (str 1 false) '"'.toUInt8 = closed 1 := rfl
  constructor
  · refine along_append.2 ⟨⟨Or.inr ⟨false, hopen⟩, ?_⟩, ?_⟩
    · rw [hopen]
      exact h.1
    · rw [run_cons, hopen, h.2]
      exact ⟨Or.inl (hclose ▸ .closed), trivial⟩
  · rw [run_append, run_cons (s := out 1), hopen, h.2]
    exact .closed

lemma textIn_neutral {w : Bytes} (hw : ∀ b ∈ w, Neutral b) : TextIn w := by
  induction w with
  | nil => exact ⟨trivial, .out⟩
  | cons b w ih =>
    have hstep : step (out 1) b = out 1 := step_neutral (hw b List.mem_cons_self)
    obtain ⟨hstays, hout⟩ := ih fun c hc => hw c (List.mem_cons_of_mem b hc)
    refine ⟨⟨Or.inl (by rw [hstep]; exact .out), ?_⟩, ?_⟩
    · rw [hstep]
      exact hstays
    · rw [run_cons, hstep]
      exact hout

/-- What follows the comma or the colon after a value is a value again. -/
lemma TextIn.append {w w' : Bytes} {c : UInt8} (h : TextIn w)
    (hc : ∀ s, Outside 1 s → step s c = out 1) (h' : TextIn w') : TextIn (w ++ c :: w') := by
  have hstep := hc _ h.2
  constructor
  · refine along_append.2 ⟨h.1, Or.inl (by rw [hstep]; exact .out), ?_⟩
    rw [hstep]
    exact h'.1
  · rw [run_append, run_cons, hstep]
    exact h'.2

lemma textIn_member {m : String × Bytes} (hname : ∀ b ∈ ascii m.1, Plain b) (hm : TextIn m.2) :
    TextIn (memberText m) := by
  have hcolon : ∀ s, Outside 1 s → step s ':'.toUInt8 = out 1 := by
    intro s hs
    cases hs with
    | out => rfl
    | closed => rfl
  have htext : memberText m =
      ('"'.toUInt8 :: ascii m.1 ++ ['"'.toUInt8]) ++ ':'.toUInt8 :: m.2 := by
    simp [memberText]
  rw [htext]
  exact (textIn_string (contentIn_of_plain hname)).append hcolon hm

lemma textIn_members {ms : List (String × Bytes)} (hnames : ∀ m ∈ ms, ∀ b ∈ ascii m.1, Plain b)
    (hms : ∀ m ∈ ms, TextIn m.2) : TextIn (membersText ms) := by
  induction ms with
  | nil => exact ⟨trivial, .out⟩
  | cons m ms ih =>
    obtain ⟨hname, hnames⟩ := List.forall_mem_cons.1 hnames
    obtain ⟨hm, hms⟩ := List.forall_mem_cons.1 hms
    cases ms with
    | nil =>
      rw [membersText_singleton]
      exact textIn_member hname hm
    | cons m' ms =>
      rw [membersText_cons_cons]
      exact (textIn_member hname hm).append (fun s hs => step_comma hs) (ih hnames hms)

lemma run_bad (t : Bytes) : run step bad t = bad := by
  induction t with
  | nil => rfl
  | cons b t ih => exact ih

/-- An object inside of another one that is cut off does not end it. -/
lemma not_outside_zero_of_inside {ms : List (String × Bytes)} {vs : List (Bytes × Value)}
    (h : List.Forall₂ MemberAs ms vs) {name : UInt8} {u : Bytes}
    (htext : objectText ms = '{'.toUInt8 :: '"'.toUInt8 :: name :: u)
    (hname : step (closed 1) name = bad) (hs : Inside s) :
    ¬ Outside 0 (run step s (objectText ms)) := by
  rcases hs with (- | -) | ⟨escaped, rfl⟩
  · -- the object is complete, and the other one is still open
    have hne : ms ≠ [] := by
      rintro rfl
      exact absurd (List.cons.inj (List.cons.inj htext).2).1 (by decide)
    have hvalue := value_objectText h hne 0 []
    rw [List.append_nil] at hvalue
    obtain ⟨used, heq, hused⟩ := gets_value (d := 1) hvalue
    rw [List.append_nil] at heq
    rw [heq]
    intro hzero
    cases hused' : run step (out 1) used with
    | out d =>
      rw [hused'] at hused hzero
      cases hused
      cases hzero
    | closed d =>
      rw [hused'] at hused hzero
      cases hused
      cases hzero
    | str d escaped => rw [hused'] at hused; cases hused
    | bad => rw [hused'] at hused; cases hused
  · have hbad : run step (closed 1) (objectText ms) = bad := by
      rw [htext, run_cons, show step (closed 1) '{'.toUInt8 = bad from rfl, run_bad]
    rw [hbad]
    exact fun h => by cases h
  · have hbad : run step (str 1 escaped) (objectText ms) = bad := by
      rw [htext, run_cons, run_cons, run_cons, show step (step (str 1 escaped) '{'.toUInt8)
        '"'.toUInt8 = closed 1 by cases escaped <;> rfl, hname, run_bad]
    rw [hbad]
    exact fun h => by cases h

/-- An object that is cut off and the object that follows it are not a text. -/
theorem read_cut_append {ms ms' : List (String × Bytes)} {vs vs' : List (Bytes × Value)}
    (h : List.Forall₂ MemberAs ms vs) (hne : ms ≠ []) (h' : List.Forall₂ MemberAs ms' vs')
    (hnames : ∀ m ∈ ms, ∀ b ∈ ascii m.1, Plain b) (htexts : ∀ m ∈ ms, TextIn m.2) {name : UInt8}
    {u : Bytes} (htext : objectText ms' = '{'.toUInt8 :: '"'.toUInt8 :: name :: u)
    (hname : step (closed 1) name = bad) {p : Bytes} (hp : p <+: objectText ms) (hcut : p ≠ []) :
    read (p ++ objectText ms') = none := by
  rcases List.prefix_concat_iff.1 hp with hwhole | hpart
  · -- nothing is missing, and more follows
    have hvalue : ∀ n, value (n + 2) (p ++ objectText ms') = some (.obj vs, objectText ms') := by
      intro n
      rw [hwhole]
      exact value_objectText h hne n (objectText ms')
    have hskip : skipSpace (p ++ objectText ms') = p ++ objectText ms' := by
      rw [hwhole]
      exact skipSpace_cons (by decide) _
    have hlength : ∃ n, (p ++ objectText ms').length = n + 2 := by
      rw [hwhole]
      exact ⟨(membersText ms).length + (objectText ms').length, by simp; omega⟩
    obtain ⟨n, hn⟩ := hlength
    have hrest : skipSpace (objectText ms') ≠ [] := by
      rw [htext, skipSpace_cons (by decide)]
      exact List.cons_ne_nil _ _
    rw [read, hskip, hn, hvalue]
    simp [hrest]
  · cases hread : read (p ++ objectText ms') with
    | none => rfl
    | some v =>
      obtain ⟨b, p, rfl⟩ := List.exists_cons_of_ne_nil hcut
      obtain ⟨rfl, hmembers⟩ := List.cons_prefix_cons.1 hpart
      have hinside := (textIn_members hnames htexts).1.inside (Or.inl .out) hmembers
      have hzero := outside_of_read hread
      rw [run_append] at hzero
      exact absurd hzero (not_outside_zero_of_inside h' htext hname hinside)

end Scan

end HftBot.Core.JsonText
