import HftBot.Resp.Client
import HftBot.Store.RawLine

/-!
# RESP encodings

A reply is a line, or a line with a bulk string or further replies behind it. The bytes of replies
determine the replies, so whatever follows them can be told apart.
-/

namespace HftBot.Resp

open HftBot.Core HftBot.Core.Utf8 HftBot.Core.JsonText HftBot.Storage

/-- The lengths that are admitted. -/
structure Limits where
  bulk : Int → Prop
  array : Int → Prop

namespace Limits

/-- Without limits. -/
def none : Limits := ⟨fun _ => True, fun _ => True⟩

/-- The limits of the client. -/
def client : Limits :=
  ⟨fun n => InInt64 n ∧ n ≤ kMaxBulk, fun n => InInt64 n ∧ n ≤ kMaxArray⟩

end Limits

/-- A place of an encoding where bytes may be written that the protocol has not. -/
inductive Mark
  | length (text : Bytes)
  | ending (bytes : Bytes)

/-- What the protocol has there: digits or the length `-1`, and a line end behind a bulk string. -/
def Mark.Plain : Mark → Prop
  | .length text  => text = ascii "-1" ∨ (natOf text).isSome
  | .ending bytes => bytes = crlf

/-- The first line of a reply. -/
inductive FirstLine (lim : Limits) : Bytes → RespClient.Header → List Mark → Prop
  | simple (text : Bytes) : FirstLine lim ('+'.toUInt8 :: text) (.whole (.simple text)) []
  | err (text : Bytes) : FirstLine lim ('-'.toUInt8 :: text) (.whole (.err text)) []
  | integer {text : Bytes} {n : Int} (htext : parseLl text = some n) :
      FirstLine lim (':'.toUInt8 :: text) (.whole (.integer n)) []
  | bulk {text : Bytes} {n : Nat} (htext : intOf text = some (n : Int)) (hn : lim.bulk n) :
      FirstLine lim ('$'.toUInt8 :: text) (.bulk n) [.length text]
  | nilBulk {text : Bytes} {n : Int} (htext : intOf text = some n) (hn : lim.bulk n) (hneg : n < 0) :
      FirstLine lim ('$'.toUInt8 :: text) (.whole .nil) [.length text]
  | array {text : Bytes} {n : Nat} (htext : intOf text = some (n : Int)) (hn : lim.array n) :
      FirstLine lim ('*'.toUInt8 :: text) (.array n) [.length text]
  | nilArray {text : Bytes} {n : Int} (htext : intOf text = some n) (hn : lim.array n)
      (hneg : n < 0) : FirstLine lim ('*'.toUInt8 :: text) (.whole .nil) [.length text]

/-- The bytes of replies one behind the other, with the marks of them all. Two bytes of any kind
stand behind a bulk string. -/
inductive Frames (lim : Limits) : Bytes → List Reply → List Mark → Prop
  | nil : Frames lim [] [] []
  | whole {line b : Bytes} {r : Reply} {rs : List Reply} {ms ms' : List Mark}
      (hno : ¬ crlf <:+: line) (hline : FirstLine lim line (.whole r) ms)
      (hrest : Frames lim b rs ms') :
      Frames lim (line ++ cr :: lf :: b) (r :: rs) (ms ++ ms')
  | bulk {line str e b : Bytes} {rs : List Reply} {ms ms' : List Mark}
      (hno : ¬ crlf <:+: line) (hline : FirstLine lim line (.bulk str.length) ms)
      (he : e.length = 2) (hrest : Frames lim b rs ms') :
      Frames lim (line ++ cr :: lf :: (str ++ (e ++ b))) (.bulk str :: rs) (ms ++ .ending e :: ms')
  | array {line b b' : Bytes} {items rs : List Reply} {ms ms' ms'' : List Mark}
      (hno : ¬ crlf <:+: line) (hline : FirstLine lim line (.array items.length) ms)
      (hitems : Frames lim b items ms') (hrest : Frames lim b' rs ms'') :
      Frames lim (line ++ cr :: lf :: (b ++ b')) (.array items :: rs) (ms ++ (ms' ++ ms''))

/-- The bytes are an encoding of the reply as the protocol has it. -/
def Encodes (lim : Limits) (b : Bytes) (r : Reply) : Prop :=
  ∃ ms, Frames lim b [r] ms ∧ ∀ m ∈ ms, m.Plain

/-! ### Lines -/

lemma FirstLine.mono {lim : Limits} {line : Bytes} {h : RespClient.Header} {ms : List Mark}
    (hline : FirstLine lim line h ms) : FirstLine .none line h ms := by
  cases hline with
  | simple text => exact .simple text
  | err text => exact .err text
  | integer htext => exact .integer htext
  | bulk htext _ => exact .bulk htext trivial
  | nilBulk htext _ hneg => exact .nilBulk htext trivial hneg
  | array htext _ => exact .array htext trivial
  | nilArray htext _ hneg => exact .nilArray htext trivial hneg

/-- A line is the first one of a single kind of reply. -/
lemma FirstLine.unique {lim lim' : Limits} {line : Bytes} {h h' : RespClient.Header}
    {ms ms' : List Mark} (hline : FirstLine lim line h ms) (hline' : FirstLine lim' line h' ms') :
    h = h' ∧ ms = ms' := by
  cases hline with
  | simple text => cases hline'; exact ⟨rfl, rfl⟩
  | err text => cases hline'; exact ⟨rfl, rfl⟩
  | integer htext =>
    cases hline' with
    | integer htext' =>
      rw [htext, Option.some.injEq] at htext'
      exact ⟨by rw [htext'], rfl⟩
  | bulk htext _ =>
    cases hline' with
    | bulk htext' _ =>
      rw [htext, Option.some.injEq, Nat.cast_inj] at htext'
      exact ⟨by rw [htext'], rfl⟩
    | nilBulk htext' _ hneg =>
      rw [htext, Option.some.injEq] at htext'
      omega
  | nilBulk htext _ hneg =>
    cases hline' with
    | bulk htext' _ =>
      rw [htext, Option.some.injEq] at htext'
      omega
    | nilBulk htext' _ _ => exact ⟨rfl, rfl⟩
  | array htext _ =>
    cases hline' with
    | array htext' _ =>
      rw [htext, Option.some.injEq, Nat.cast_inj] at htext'
      exact ⟨by rw [htext'], rfl⟩
    | nilArray htext' _ hneg =>
      rw [htext, Option.some.injEq] at htext'
      omega
  | nilArray htext _ hneg =>
    cases hline' with
    | array htext' _ =>
      rw [htext, Option.some.injEq] at htext'
      omega
    | nilArray htext' _ _ => exact ⟨rfl, rfl⟩

/-- The end of the first line is the first line end. -/
lemma lines_inj {l l' u u' : Bytes} (hl : ¬ crlf <:+: l) (hl' : ¬ crlf <:+: l')
    (heq : l ++ cr :: lf :: u = l' ++ cr :: lf :: u') : l = l' ∧ u = u' := by
  have hcut := cutPair_append (a := cr) (b := lf) (by decide) hl u
  rw [heq, cutPair_append (by decide) hl' u', Option.some.injEq, Prod.mk.injEq] at hcut
  exact ⟨hcut.1.symm, hcut.2.symm⟩

/-- Two texts that are one and begin with the first line of a reply begin with the same one. -/
lemma FirstLine.unique_append {lim lim' : Limits} {l l' u u' s s' : Bytes}
    {h h' : RespClient.Header} {ms ms' : List Mark} (hline : FirstLine lim l h ms)
    (hline' : FirstLine lim' l' h' ms') (hl : ¬ crlf <:+: l) (hl' : ¬ crlf <:+: l')
    (heq : l ++ cr :: lf :: u ++ s = l' ++ cr :: lf :: u' ++ s') :
    l = l' ∧ h = h' ∧ ms = ms' ∧ u ++ s = u' ++ s' := by
  rw [List.append_assoc, List.append_assoc] at heq
  obtain ⟨rfl, htail⟩ := lines_inj hl hl' heq
  obtain ⟨hh, hms⟩ := hline.unique hline'
  exact ⟨rfl, hh, hms, htail⟩

/-! ### Replies -/

namespace Frames

variable {lim lim' : Limits} {b b' s s' : Bytes} {rs rs' : List Reply} {ms ms' : List Mark}

lemma mono (h : Frames lim b rs ms) : Frames .none b rs ms := by
  induction h with
  | nil => exact .nil
  | whole hno hline _ ih => exact .whole hno hline.mono ih
  | bulk hno hline he _ ih => exact .bulk hno hline.mono he ih
  | array hno hline _ _ ihitems ih => exact .array hno hline.mono ihitems ih

/-- No encoding begins another one, and a reply has one list of marks in its encoding. -/
lemma unique (h : Frames lim b rs ms) (h' : Frames lim' b' rs' ms')
    (hlength : rs.length = rs'.length) (heq : b ++ s = b' ++ s') :
    b = b' ∧ rs = rs' ∧ ms = ms' := by
  induction h generalizing b' s s' rs' ms' with
  | nil =>
    cases h' with
    | nil => exact ⟨rfl, rfl, rfl⟩
    | _ => cases hlength
  | whole hno hline _ ih =>
    cases h' with
    | nil => cases hlength
    | whole hno' hline' hrest' =>
      obtain ⟨rfl, hr, rfl, htail⟩ := hline.unique_append hline' hno hno' heq
      obtain ⟨rfl, rfl, rfl⟩ := ih hrest' (Nat.succ.inj hlength) htail
      cases hr
      exact ⟨rfl, rfl, rfl⟩
    | bulk hno' hline' _ _ => cases (hline.unique_append hline' hno hno' heq).2.1
    | array hno' hline' _ _ => cases (hline.unique_append hline' hno hno' heq).2.1
  | bulk hno hline he _ ih =>
    cases h' with
    | nil => cases hlength
    | whole hno' hline' _ => cases (hline.unique_append hline' hno hno' heq).2.1
    | bulk hno' hline' he' hrest' =>
      obtain ⟨rfl, hstr, rfl, htail⟩ := hline.unique_append hline' hno hno' heq
      rw [RespClient.Header.bulk.injEq] at hstr
      simp only [List.append_assoc] at htail
      obtain ⟨rfl, hends⟩ := List.append_inj htail hstr
      obtain ⟨rfl, hrests⟩ := List.append_inj hends (he.trans he'.symm)
      obtain ⟨rfl, rfl, rfl⟩ := ih hrest' (Nat.succ.inj hlength) hrests
      exact ⟨rfl, rfl, rfl⟩
    | array hno' hline' _ _ => cases (hline.unique_append hline' hno hno' heq).2.1
  | array hno hline _ _ ihitems ih =>
    cases h' with
    | nil => cases hlength
    | whole hno' hline' _ => cases (hline.unique_append hline' hno hno' heq).2.1
    | bulk hno' hline' _ _ => cases (hline.unique_append hline' hno hno' heq).2.1
    | array hno' hline' hitems' hrest' =>
      obtain ⟨rfl, hitems, rfl, htail⟩ := hline.unique_append hline' hno hno' heq
      rw [RespClient.Header.array.injEq] at hitems
      rw [List.append_assoc, List.append_assoc] at htail
      obtain ⟨rfl, rfl, rfl⟩ := ihitems hitems' hitems htail
      have hrests := List.append_cancel_left htail
      obtain ⟨rfl, rfl, rfl⟩ := ih hrest' (Nat.succ.inj hlength) hrests
      exact ⟨rfl, rfl, rfl⟩

/-- A reply and the ones behind it. -/
lemma cons {r : Reply} (h : Frames lim b [r] ms) (h' : Frames lim b' rs ms') :
    Frames lim (b ++ b') (r :: rs) (ms ++ ms') := by
  cases h with
  | whole hno hline hrest =>
    cases hrest
    simpa using Frames.whole hno hline h'
  | bulk hno hline he hrest =>
    cases hrest
    simpa using Frames.bulk hno hline he h'
  | array hno hline hitems hrest =>
    cases hrest
    simpa using Frames.array hno hline hitems h'

end Frames

end HftBot.Resp
