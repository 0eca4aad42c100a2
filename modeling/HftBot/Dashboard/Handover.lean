import HftBot.Dashboard.Tail

/-!
# Hand-over from backfill to stream

The stream shows every line that begins where it begins, and the backfill shows the last piece of
what it read, complete or not. So the two fit together only where the file ends with a line at the
call, and blank lines must not make the blocks that are read too short.
-/

namespace HftBot.Dashboard

open HftBot.Core HftBot.Core.Utf8

variable {α : Type} (decode : Bytes → α)

/-! ### Stream -/

lemma idxOf?_append_cons {l : Bytes} (hl : newline ∉ l) (r : Bytes) :
    (l ++ newline :: r).idxOf? newline = some l.length := by
  induction l with
  | nil => simp [List.idxOf?_cons]
  | cons b l ih =>
    rw [List.mem_cons, not_or] at hl
    have hne : (b == newline) = false := beq_eq_false_iff_ne.2 fun heq => hl.1 heq.symm
    rw [List.cons_append, List.idxOf?_cons, hne, ih hl.2]
    rfl

/-- The text up to the last newline has the complete lines, and the rest is the fragment. -/
lemma rfind_spec (s : Bytes) : (rfind s = none ∧ newline ∉ s) ∨
    ∃ i, rfind s = some i ∧ s.drop (i + 1) = fragment newline s ∧
      (s.take (i + 1)).splitOn newline = complete newline s ++ [[]] := by
  obtain ⟨hno, t, hs, rfl | hlast⟩ := exists_append_fragment (c := newline) s
  · rw [List.nil_append] at hs
    rw [← hs] at hno
    refine Or.inl ⟨?_, hno⟩
    rw [rfind, Option.map_eq_none_iff, List.idxOf?_eq_none_iff, List.mem_reverse]
    exact hno
  · obtain ⟨t', rfl⟩ := List.getLast?_eq_some_iff.1 hlast
    generalize fragment newline s = f at hno hs
    have htext : s = (t' ++ [newline]) ++ f := hs
    have hsplit : s.splitOn newline = t'.splitOn newline ++ [f] := by
      rw [htext, List.append_assoc, List.singleton_append, List.splitOn_append_cons_self,
        List.splitOn_eq_singleton hno]
    have hcomplete := (complete_fragment_of_splitOn hsplit).1
    have hlength : t'.length + 1 = (t' ++ [newline]).length := by simp
    refine Or.inr ⟨t'.length, ?_, ?_, ?_⟩
    · have hreverse : s.reverse = f.reverse ++ newline :: t'.reverse := by simp [htext]
      have hno' : newline ∉ f.reverse := by rwa [List.mem_reverse]
      rw [rfind, hreverse, idxOf?_append_cons hno', Option.map_some, htext]
      simp
    · rw [htext, hlength, List.drop_left]
    · rw [hcomplete, htext, hlength, List.take_left, List.splitOn_append_cons_self]
      rfl

lemma nonBlank_append (l l' : List Bytes) : nonBlank (l ++ l') = nonBlank l ++ nonBlank l' :=
  List.filter_append ..

lemma linesOf_append (s t : Bytes) :
    linesOf (s ++ t) = linesOf s ++ linesOf (fragment newline s ++ t) := by
  rw [linesOf, complete_append, nonBlank_append]
  rfl

/-- The stream that began behind `c` and has read `r` since. -/
def Stream.ofRead (c r : Bytes) : Stream :=
  { pos := (c ++ r).length, pending := fragment newline r }

/-- Lines with the empty piece behind them, which is blank. -/
lemma nonBlank_append_nil (l : List Bytes) : nonBlank (l ++ [[]]) = nonBlank l := by
  rw [nonBlank_append]
  exact List.append_nil _

lemma reduceOption_map_some (l : List Bytes) :
    (l.map fun ln => some (decode ln)).reduceOption = l.map decode := by
  rw [List.reduceOption, List.filterMap_map]
  exact congrFun List.filterMap_eq_map' l

/-- A fragment has no complete line. -/
lemma linesOf_fragment (r : Bytes) : linesOf (fragment newline r) = [] := by
  rw [linesOf, (complete_fragment_of_notMem (notMem_fragment r)).1]
  rfl

/-- A turn in which the file is read yields the lines that were completed. -/
lemma poll_read (c r new grown : Bytes) : ∃ out,
    (Stream.ofRead c r).poll decode (some (c ++ r ++ new)) grown true =
      (.ofRead c (r ++ new), out) ∧
    out.reduceOption = (linesOf (fragment newline r ++ new)).map decode := by
  have hlength : (c ++ r ++ new).length = (c ++ r).length + new.length := List.length_append
  have hpos : ¬ (c ++ r ++ new).length < (c ++ r).length := by omega
  rw [Stream.poll, Stream.ofRead]
  simp only [if_neg hpos, ↓reduceIte]
  cases new with
  | nil =>
    refine ⟨[none], ?_, ?_⟩
    · simp [Stream.ofRead]
    · rw [List.append_nil, linesOf_fragment]
      rfl
  | cons b new =>
    have hchunk : ((c ++ r ++ (b :: new) ++ grown).drop (c ++ r).length).take
        ((c ++ r ++ (b :: new)).length - (c ++ r).length) = b :: new := by
      rw [hlength, List.append_assoc (c ++ r), List.drop_left, Nat.add_sub_cancel_left,
        List.take_left]
    have hfragment := fragment_append (c := newline) r (b :: new)
    rw [if_pos (by simp), hchunk]
    rcases rfind_spec (fragment newline r ++ (b :: new)) with ⟨hnone, hno⟩ | ⟨i, hi, hdrop, htake⟩
    · obtain ⟨hcomplete, hfrag⟩ := complete_fragment_of_notMem hno
      rw [hnone, linesOf, hcomplete]
      refine ⟨[none], ?_, rfl⟩
      rw [Stream.ofRead, hfragment, hfrag, List.append_assoc]
    · rw [hi]
      refine ⟨_, ?_, reduceOption_map_some decode _⟩
      simp only [Stream.ofRead, hfragment, hdrop, htake, nonBlank_append_nil, List.append_assoc]
      rfl

lemma poll_idle (t : Stream) (grown : Bytes) (opens : Bool) :
    t.poll decode none grown opens = (t, [none]) := rfl

/-- A turn in which the file cannot be opened changes nothing. -/
lemma poll_closed (c r new grown : Bytes) :
    (Stream.ofRead c r).poll decode (some (c ++ r ++ new)) grown false =
      (.ofRead c r, [none]) := by
  have hlength : (c ++ r ++ new).length = (c ++ r).length + new.length := List.length_append
  have hpos : ¬ (c ++ r ++ new).length < (c ++ r).length := by omega
  rw [Stream.poll, Stream.ofRead]
  simp only [if_neg hpos, Bool.false_eq_true, ↓reduceIte, ite_self]

/-- The file begins with what was read of it. -/
def Extends (file : Option Bytes) (read : Bytes) : Prop :=
  (file = none ∧ read = []) ∨ ∃ new, file = some (read ++ new)

lemma Extends.file {file : Option Bytes} {read : Bytes} (h : Extends file read) (turn : Turn) :
    Extends (turn.file file) read := by
  rw [Turn.file]
  cases turn.appended with
  | none => exact h
  | some a =>
    rcases h with ⟨rfl, rfl⟩ | ⟨new, rfl⟩
    · exact Or.inr ⟨a, rfl⟩
    · exact Or.inr ⟨new ++ a, congrArg some (List.append_assoc ..)⟩

/-- In any turns the stream yields the lines that are completed behind the place where it began. -/
lemma watch_spec (c : Bytes) (turns : List Turn) (file : Option Bytes) (r : Bytes)
    (hfile : Extends file (c ++ r)) : ∃ r',
      seen file (c ++ r) turns = c ++ (r ++ r') ∧
      (watch decode file (.ofRead c r) turns).reduceOption =
        (linesOf (fragment newline r ++ r')).map decode := by
  induction turns generalizing file r with
  | nil =>
    refine ⟨[], by rw [List.append_nil]; rfl, ?_⟩
    rw [List.append_nil, linesOf_fragment]
    rfl
  | cons turn turns ih =>
    have hnext := hfile.file turn
    simp only [seen, watch]
    rcases hnext with ⟨hnone, hempty⟩ | ⟨new, hsome⟩
    · obtain ⟨r', hseen, hout⟩ := ih none r (Or.inl ⟨rfl, hempty⟩)
      rw [hnone, poll_idle]
      refine ⟨r', by simpa using hseen, ?_⟩
      rw [List.reduceOption_append]
      exact hout
    · rw [hsome]
      cases turn.opens with
      | false =>
        obtain ⟨r', hseen, hout⟩ := ih (some (c ++ r ++ new ++ turn.grown)) r
          (Or.inr ⟨new ++ turn.grown, by rw [List.append_assoc (c ++ r)]⟩)
        refine ⟨r', hseen, ?_⟩
        rw [poll_closed, List.reduceOption_append]
        exact hout
      | true =>
        obtain ⟨out, hpoll, hlines⟩ := poll_read decode c r new turn.grown
        obtain ⟨r', hseen, hout⟩ := ih (some (c ++ r ++ new ++ turn.grown)) (r ++ new)
          (Or.inr ⟨turn.grown, by rw [← List.append_assoc c]⟩)
        refine ⟨new ++ r', ?_, ?_⟩
        · rw [← List.append_assoc r, ← hseen, ← List.append_assoc]
          rfl
        · rw [hpoll, List.reduceOption_append, hlines]
          refine (congrArg _ hout).trans ?_
          rw [← List.map_append, ← List.append_assoc, linesOf_append (fragment newline r ++ new),
            fragment_append r new]

/-! ### The last lines -/

section

variable {β : Type} {n : Nat}

lemma length_lastN (l : List β) : (lastN n l).length = min n l.length := by
  rw [lastN, List.length_drop]
  omega

lemma lastN_append_of_le {l l' : List β} (h : n ≤ l'.length) : lastN n (l ++ l') = lastN n l' := by
  rw [lastN, lastN, List.length_append, List.drop_append, List.drop_of_length_le (by omega),
    List.nil_append]
  congr 1
  omega

lemma lastN_of_length_le {l : List β} (h : l.length ≤ n) : lastN n l = l := by
  rw [lastN, Nat.sub_eq_zero_of_le h, List.drop_zero]

/-- The last of a longer list are those of its end if that has enough of them. -/
lemma lastN_append_iff {l l' : List β} :
    lastN n l' = lastN n (l ++ l') ↔ min n (l ++ l').length ≤ l'.length := by
  constructor
  · intro h
    have hlength := congrArg List.length h
    rw [length_lastN, length_lastN] at hlength
    omega
  · intro h
    rcases Nat.lt_or_ge l'.length n with hlt | hle
    · have hnil : l = [] := by
        rw [List.length_append] at h
        exact List.length_eq_zero_iff.1 (by omega)
      rw [hnil, List.nil_append]
    · rw [lastN_append_of_le hle]

end

/-- The lines of `e ++ d` that begin in `d`. -/
def begun (e d : Bytes) : List Bytes :=
  if fragment newline e = [] then complete newline d else (complete newline d).tail

lemma nonBlank_cons (ln : Bytes) (l : List Bytes) : nonBlank (ln :: l) =
    if blank ln then nonBlank l else ln :: nonBlank l := by
  cases hblank : blank ln <;> simp [nonBlank, hblank]

lemma blank_of_append {x p : Bytes} (h : blank (x ++ p) = true) : blank p = true := by
  rw [blank, List.all_append, Bool.and_eq_true] at h
  exact h.2

/-- A line of which the front is missing is not the line. -/
lemma lastN_cut_iff {x p : Bytes} (hx : x ≠ []) {l l' : List Bytes} {n : Nat} :
    lastN n (if blank p then l else p :: l) = lastN n (l' ++ (x ++ p) :: l) ↔
      min n (l' ++ (x ++ p) :: l).length ≤ l.length := by
  have hsplit : l' ++ (x ++ p) :: l = (l' ++ [x ++ p]) ++ l := by simp
  constructor
  · intro h
    by_contra hmore
    have hlt : l.length < n := by omega
    have hlength := congrArg List.length h
    rw [length_lastN, length_lastN, List.length_append, List.length_cons] at hlength
    split_ifs at h hlength
    · omega
    · rw [List.length_cons] at hlength
      have hall : lastN n (p :: l) = p :: l := lastN_of_length_le hlt
      have hcut : lastN n (l' ++ (x ++ p) :: l) = (x ++ p) :: l := by
        rcases Nat.eq_or_lt_of_le (Nat.succ_le_of_lt hlt) with heq | hmore
        · rw [lastN_append_of_le (Nat.le_of_eq heq.symm)]
          exact lastN_of_length_le (Nat.le_of_eq heq)
        · have hnil : l' = [] := List.length_eq_zero_iff.1 (by omega)
          rw [hnil, List.nil_append, lastN_of_length_le hlt]
      rw [hall, hcut] at h
      exact hx (List.self_eq_append_left.1 (List.cons.inj h).1)
  · intro h
    have hle : n ≤ l.length := by
      rw [List.length_append, List.length_cons] at h
      omega
    rw [hsplit, lastN_append_of_le hle]
    split_ifs
    · rfl
    · exact lastN_append_of_le (l := [p]) hle

/-- The lines in the end of a text are the last ones of the text if enough of them begin there, and
only then. -/
lemma lastN_lines_iff {e d : Bytes} (hd : newline ∈ d) {n : Nat} :
    lastN n (linesOf d) = lastN n (linesOf (e ++ d)) ↔
      min n (linesOf (e ++ d)).length ≤ (nonBlank (begun e d)).length := by
  obtain ⟨p, t, rfl, hp⟩ := List.eq_append_cons_of_mem hd
  have hx := notMem_fragment (c := newline) e
  have hlines : linesOf (e ++ (p ++ newline :: t)) =
      linesOf e ++ nonBlank ((fragment newline e ++ p) :: complete newline t) := by
    have hxp : newline ∉ fragment newline e ++ p := by
      rw [List.mem_append, not_or]
      exact ⟨hx, hp⟩
    rw [linesOf_append, ← List.append_assoc]
    exact congrArg _ (congrArg nonBlank (complete_fragment_append_cons hxp t).1)
  have hown : linesOf (p ++ newline :: t) = nonBlank (p :: complete newline t) :=
    congrArg nonBlank (complete_fragment_append_cons hp t).1
  rw [begun, hlines, hown, (complete_fragment_append_cons hp t).1]
  generalize fragment newline e = x at hx
  split_ifs with hnil
  · rw [hnil, List.nil_append]
    exact lastN_append_iff
  · rw [List.tail_cons, nonBlank_cons, nonBlank_cons]
    generalize nonBlank (complete newline t) = l
    generalize linesOf e = l'
    by_cases hxp : blank (x ++ p) = true
    · rw [if_pos hxp, if_pos (blank_of_append hxp)]
      exact lastN_append_iff
    · rw [if_neg hxp]
      exact lastN_cut_iff hnil

/-! ### Blocks -/

/-- The last blocks of a file. -/
def lastBlocks (k : Nat) (s : Bytes) : Bytes := s.drop (s.length - k * kBlock)

/-- A block that is read in front of the end of a file, whatever has been appended to it. -/
lemma take_append_drop_of_le {s : Bytes} {pos r : Nat} (hpos : pos ≤ s.length) (hr : r ≤ pos)
    (later : Bytes) :
    ((s ++ later).drop (pos - r)).take r ++ s.drop pos = s.drop (pos - r) := by
  have hfit : r ≤ (s.drop (pos - r)).length := by
    rw [List.length_drop]
    omega
  have hdrop : s.drop pos = (s.drop (pos - r)).drop r := by
    rw [List.drop_drop, Nat.sub_add_cancel hr]
  rw [List.drop_append_of_le_length (by omega), List.take_append_of_le_length hfit, hdrop,
    List.take_append_drop]

/-- The loop stops with the first blocks that hold more than `n` newlines, or with the file. -/
lemma readBack_spec (n : Nat) (s : Bytes) (during : Nat → Bytes) (j k : Nat) : ∃ m,
    readBack n (fun j => s ++ during j) j (s.length - k * kBlock) (lastBlocks k s) =
      lastBlocks m s ∧
    (s.length ≤ m * kBlock ∨ n < (lastBlocks m s).count newline) ∧
    ∀ i, k ≤ i → i < m → (lastBlocks i s).count newline ≤ n := by
  rw [readBack]
  split_ifs with hmore
  · have hblock := take_append_drop_of_le (Nat.sub_le s.length (k * kBlock))
      (Nat.min_le_right kBlock (s.length - k * kBlock)) (during j)
    have hpos : s.length - k * kBlock - min kBlock (s.length - k * kBlock) =
        s.length - (k + 1) * kBlock := by
      rw [Nat.succ_mul]
      omega
    obtain ⟨m, heq, hstop, hbefore⟩ := readBack_spec n s during (j + 1) (k + 1)
    rw [hpos] at hblock
    refine ⟨m, ?_, hstop, ?_⟩
    · simp only [lastBlocks, hpos, hblock] at heq ⊢
      exact heq
    · intro i hki him
      rcases Nat.eq_or_lt_of_le hki with rfl | hlt
      · exact hmore.2
      · exact hbefore i hlt him
  · refine ⟨k, rfl, ?_, fun i hki hik => absurd hik (by omega)⟩
    rcases Nat.lt_or_ge (k * kBlock) s.length with hlt | hle
    · exact Or.inr (by omega)
    · exact Or.inl hle
termination_by s.length - k * kBlock
decreasing_by
  have hblock : 0 < kBlock := by decide
  rw [Nat.succ_mul]
  omega

/-- Of the first blocks that hold more than `n` newlines, unless they are the whole file, enough
lines begin in them. -/
def BlocksSuffice (n : Nat) (s : Bytes) : Prop := ∀ k, k * kBlock < s.length →
  n < (lastBlocks k s).count newline → (∀ i < k, (lastBlocks i s).count newline ≤ n) →
    min n (linesOf s).length ≤
      (nonBlank (begun (s.take (s.length - k * kBlock)) (lastBlocks k s))).length

lemma lastBlocks_of_le {k : Nat} {s : Bytes} (h : s.length ≤ k * kBlock) : lastBlocks k s = s := by
  rw [lastBlocks, Nat.sub_eq_zero_of_le h, List.drop_zero]

/-- What follows the last newline does not depend on what comes before it. -/
lemma fragment_append_of_mem {d : Bytes} (hd : newline ∈ d) (e : Bytes) :
    fragment newline (e ++ d) = fragment newline d := by
  obtain ⟨p, t, rfl, hp⟩ := List.eq_append_cons_of_mem hd
  have hxp : newline ∉ fragment newline e ++ p := by
    rw [List.mem_append, not_or]
    exact ⟨notMem_fragment e, hp⟩
  rw [fragment_append, ← List.append_assoc, (complete_fragment_append_cons hxp t).2,
    (complete_fragment_append_cons hp t).2]

/-- The pieces of a text that ends with a line are its lines. -/
lemma nonBlank_splitOn {s : Bytes} (hs : fragment newline s = []) :
    nonBlank (s.splitOn newline) = linesOf s := by
  rw [splitOn_eq_complete_append, hs, nonBlank_append_nil]
  rfl

/-- If the file ends with a line, the backfill is right exactly if the blocks suffice. -/
lemma lastN_readBack_iff {n : Nat} {s : Bytes} (hs : fragment newline s = [])
    (during : Nat → Bytes) :
    lastN n (nonBlank ((readBack n (fun j => s ++ during j) 0 s.length []).splitOn newline)) =
      lastN n (linesOf s) ↔ BlocksSuffice n s := by
  obtain ⟨m, heq, hstop, hbefore⟩ := readBack_spec n s during 0 0
  have hnone : lastBlocks 0 s = [] := by simp [lastBlocks]
  rw [hnone, Nat.zero_mul, Nat.sub_zero] at heq
  rw [heq]
  rcases Nat.lt_or_ge (m * kBlock) s.length with hlt | hle
  · have hcount := hstop.resolve_left (Nat.not_le_of_lt hlt)
    have hmem : newline ∈ lastBlocks m s := List.count_pos_iff.1 (Nat.zero_lt_of_lt hcount)
    have htext : s.take (s.length - m * kBlock) ++ lastBlocks m s = s := List.take_append_drop ..
    have hfragment : fragment newline (lastBlocks m s) = [] := by
      rw [← fragment_append_of_mem hmem, htext]
      exact hs
    have hlines := lastN_lines_iff (e := s.take (s.length - m * kBlock)) hmem (n := n)
    rw [htext] at hlines
    rw [nonBlank_splitOn hfragment, hlines]
    constructor
    · intro h k hk hcount' hleast
      rcases Nat.lt_trichotomy k m with hkm | rfl | hmk
      · exact absurd (hbefore k (Nat.zero_le k) hkm) (Nat.not_le_of_lt hcount')
      · exact h
      · exact absurd (hleast m hmk) (Nat.not_le_of_lt hcount)
    · exact fun h => h m hlt hcount fun i hi => hbefore i (Nat.zero_le i) hi
  · rw [lastBlocks_of_le hle, nonBlank_splitOn hs]
    refine iff_of_true rfl fun k hk hcount _ => ?_
    have hkm : k < m := Nat.lt_of_mul_lt_mul_right (Nat.lt_of_lt_of_le hk hle)
    exact absurd (hbefore k (Nat.zero_le k) hkm) (Nat.not_le_of_lt hcount)

/-! ### Hand-over -/

/-- The file is empty or its last byte is a newline. -/
def EndsLine (s : Bytes) : Prop := s = [] ∨ s.getLast? = some newline

lemma endsLine_iff {s : Bytes} : EndsLine s ↔ fragment newline s = [] := by
  constructor
  · rintro (rfl | hlast)
    · exact (complete_fragment_of_notMem List.not_mem_nil).2
    · obtain ⟨t, rfl⟩ := List.getLast?_eq_some_iff.1 hlast
      rw [fragment_append_of_mem (List.mem_singleton.2 rfl)]
      rfl
  · intro hs
    obtain ⟨-, t, ht, hlast⟩ := exists_append_fragment (c := newline) s
    rw [hs, List.append_nil] at ht
    exact ht ▸ hlast

variable {file : Option Bytes} {n : Nat}

lemma extends_getD (file : Option Bytes) : Extends file (file.getD [] ++ []) := by
  cases file with
  | none => exact Or.inl ⟨rfl, rfl⟩
  | some s => exact Or.inr ⟨[], by simp⟩

lemma tailLines_snd (during : Nat → Bytes) (opens : Bool) :
    (tailLines decode file during opens n).2 = (file.getD []).length := by
  cases file with
  | none => rfl
  | some s =>
    simp only [tailLines]
    split_ifs <;> rfl

/-- The stream begins behind what the file holds at the call. -/
lemma shown_spec (file : Option Bytes) (n : Nat) (during : Nat → Bytes) (turns : List Turn) : ∃ r,
    seen file (file.getD []) turns = file.getD [] ++ r ∧
    shown decode file during n turns =
      (tailLines decode file during true n).1 ++ (linesOf r).map decode := by
  obtain ⟨r, hseen, hout⟩ := watch_spec decode (file.getD []) turns file [] (extends_getD file)
  have hstart : Stream.ofRead (file.getD []) [] = { pos := (file.getD []).length } := by
    rw [Stream.ofRead, List.append_nil]
    rfl
  rw [List.append_nil] at hseen
  rw [hstart] at hout
  refine ⟨r, hseen, ?_⟩
  rw [shown, tailLines_snd]
  exact congrArg _ hout

lemma shown_nil (during : Nat → Bytes) :
    shown decode file during n [] = (tailLines decode file during true n).1 := by
  rw [shown, watch]
  exact List.append_nil _

/-- The lines that are completed after the call. -/
lemma drop_linesOf (s r : Bytes) : (linesOf (s ++ r)).drop (linesOf s).length =
    linesOf (fragment newline s ++ r) := by
  rw [linesOf_append, List.drop_left]

lemma lastN_linesOf_nil : lastN n (linesOf []) = [] := by
  rw [linesOf, (complete_fragment_of_notMem List.not_mem_nil).1]
  exact List.drop_nil

lemma tailLines_fst_iff (hn : 0 < n) (hs : fragment newline (file.getD []) = [])
    (during : Nat → Bytes) :
    (tailLines id file during true n).1 = lastN n (linesOf (file.getD [])) ↔
      BlocksSuffice n (file.getD []) := by
  cases file with
  | none => exact iff_of_true lastN_linesOf_nil.symm fun k hk => absurd hk (Nat.not_lt_zero _)
  | some s =>
    simp only [tailLines, Option.getD_some]
    split_ifs with hempty
    · obtain rfl : s = [] := List.length_eq_zero_iff.1 (by omega)
      exact iff_of_true lastN_linesOf_nil.symm fun k hk => absurd hk (Nat.not_lt_zero _)
    · rw [List.map_id]
      exact lastN_readBack_iff hs during

lemma tailLines_fst_eq_map (during : Nat → Bytes) : (tailLines decode file during true n).1 =
    (tailLines id file during true n).1.map decode := by
  cases file with
  | none => rfl
  | some s =>
    simp only [tailLines]
    split_ifs
    · rfl
    · rw [List.map_id]

lemma gapless_of_suffice (hn : 0 < n) (hs : fragment newline (file.getD []) = [])
    (hblocks : BlocksSuffice n (file.getD [])) : Gapless decode file n := by
  intro during turns
  obtain ⟨r, hseen, hshown⟩ := shown_spec decode file n during turns
  rw [hshown, due, hseen, drop_linesOf, hs, List.nil_append, tailLines_fst_eq_map,
    (tailLines_fst_iff hn hs during).2 hblocks, List.map_append]

/-- A line that is continued and ended. -/
lemma linesOf_continued {x : Bytes} (hx : newline ∉ x) :
    linesOf (x ++ ['x'.toUInt8, newline]) = [x ++ ['x'.toUInt8]] := by
  have hno : newline ∉ x ++ ['x'.toUInt8] := by
    rw [List.mem_append, not_or]
    exact ⟨hx, by decide⟩
  have hcomplete := (complete_fragment_append_cons hno []).1
  rw [List.append_assoc, List.singleton_append,
    (complete_fragment_of_notMem List.not_mem_nil).1] at hcomplete
  have hblank : blank (x ++ ['x'.toUInt8]) = false := by
    rw [blank, List.all_append]
    exact Bool.and_false _
  rw [linesOf, hcomplete, nonBlank_cons, hblank]
  rfl

/-- A line that is continued after the call is shown without its front. -/
lemma fragment_eq_nil_of_gapless (h : Gapless id file n) :
    fragment newline (file.getD []) = [] := by
  let turn : Turn := { appended := some ['x'.toUInt8, newline], grown := [], opens := true }
  have hturn := h (fun _ => []) [turn]
  obtain ⟨r, hseen, hshown⟩ := shown_spec id file n (fun _ => []) [turn]
  have hread : seen file (file.getD []) [turn] = file.getD [] ++ ['x'.toUInt8, newline] := rfl
  obtain rfl : ['x'.toUInt8, newline] = r := List.append_cancel_left (hread.symm.trans hseen)
  have hx : linesOf ['x'.toUInt8, newline] = [['x'.toUInt8]] := linesOf_continued List.not_mem_nil
  rw [hshown, due, hread, drop_linesOf, linesOf_continued (notMem_fragment _), hx, List.map_id,
    List.map_id] at hturn
  obtain ⟨-, hlast⟩ := List.append_inj' hturn rfl
  exact List.self_eq_append_left.1 (List.cons.inj hlast).1

/-- The tail shows every line once and whole exactly if the file ends with a line at the call and
blank lines do not make the blocks too short. -/
theorem tail_gapless_iff (hn : 0 < n) :
    (Gapless id file n ↔ EndsLine (file.getD []) ∧ BlocksSuffice n (file.getD [])) ∧
    (EndsLine (file.getD []) ∧ BlocksSuffice n (file.getD []) →
      ∀ (α : Type) (decode : Bytes → α), Gapless decode file n) := by
  rw [endsLine_iff]
  refine ⟨⟨?_, fun h => gapless_of_suffice id hn h.1 h.2⟩,
    fun h α decode => gapless_of_suffice decode hn h.1 h.2⟩
  intro h
  have hs := fragment_eq_nil_of_gapless h
  have hnow := h (fun _ => []) []
  rw [shown_nil, due, seen, List.drop_length, List.append_nil, List.map_id] at hnow
  exact ⟨hs, (tailLines_fst_iff hn hs fun _ => []).1 hnow⟩

/-- The last line of a file of two is shown, and then whatever is appended. -/
theorem tail_gapless_two_lines : Gapless id (some (ascii "a\nb\n")) 1 := by
  refine (tail_gapless_iff (by decide)).1.2 ⟨Or.inr (by decide), ?_⟩
  intro k hk hcount
  have hlength : (ascii "a\nb\n").length = 4 := by decide
  have hzero : k = 0 := by
    rw [Option.getD_some, hlength, kBlock] at hk
    omega
  rw [hzero] at hcount
  exact absurd hcount (by decide)

/-- A line that is being written at the call is shown in two parts. -/
theorem tail_shows_fragment : ¬ ∀ (file : Option Bytes) (n : Nat), 0 < n → Gapless id file n := by
  intro h
  have hnone := fragment_eq_nil_of_gapless (h (some (ascii "a")) 1 (by decide))
  rw [Option.getD_some, (complete_fragment_of_notMem (by decide)).2] at hnone
  exact absurd hnone (by decide)

end HftBot.Dashboard
