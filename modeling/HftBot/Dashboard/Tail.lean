import Mathlib.Data.List.ReduceOption
import HftBot.Core.Pieces
import HftBot.Core.Utf8

/-!
# Live tail of the dashboard

`tail_lines` and `stream_new_lines` of `dashboard_server.py`, which show a file of lines that the
trading system appends to. The first reads blocks backwards from the size that it takes at the call,
the second polls from there on. The decoding of a line to text is a parameter.
-/

namespace HftBot.Dashboard

open HftBot.Core HftBot.Core.Utf8

def newline : UInt8 := 0x0a

/-- The bytes that `strip` takes away. -/
def isSpace (b : UInt8) : Bool := b = 0x20 ∨ (0x09 ≤ b ∧ b ≤ 0x0d)

def blank (ln : Bytes) : Bool := ln.all isSpace

def nonBlank (lines : List Bytes) : List Bytes := lines.filter (!blank ·)

variable {α : Type} (decode : Bytes → α)

/-! ### Backfill -/

def kBlock : Nat := 65536

/-- The loop of `tail_lines`. The file is `disk j` when block `j` is read from it. -/
def readBack (n : Nat) (disk : Nat → Bytes) (j pos : Nat) (data : Bytes) : Bytes :=
  if 0 < pos ∧ data.count newline ≤ n then
    let read := min kBlock pos
    readBack n disk (j + 1) (pos - read) (((disk j).drop (pos - read)).take read ++ data)
  else data
termination_by pos
decreasing_by
  simp only [kBlock]
  omega

/-- The last `n` of a list. -/
def lastN {β : Type} (n : Nat) (l : List β) : List β := l.drop (l.length - n)

/-- `file` is what the file holds when its size is taken, if it is there; `during j` has been
appended when block `j` is read. -/
def tailLines (file : Option Bytes) (during : Nat → Bytes) (opens : Bool) (n : Nat) :
    List α × Nat :=
  match file with
  | none   => ([], 0)
  | some s =>
    if s.length = 0 ∨ n = 0 then ([], s.length)
    else if opens then
      let data := readBack n (fun j => s ++ during j) 0 s.length []
      ((lastN n (nonBlank (data.splitOn newline))).map decode, s.length)
    else ([], s.length)

/-! ### Stream -/

/-- The local variables of `stream_new_lines`. -/
structure Stream where
  pos     : Nat
  pending : Bytes := []

/-- The place of the last newline. -/
def rfind (s : Bytes) : Option Nat := (s.reverse.idxOf? newline).map fun i => s.length - 1 - i

/-- One turn of the loop: the file when its size is taken, what is appended before it is read, and
whether it can be opened. An idle tick is `none`. -/
def Stream.poll (t : Stream) (file : Option Bytes) (grown : Bytes) (opens : Bool) :
    Stream × List (Option α) :=
  match file with
  | none   => (t, [none])
  | some s =>
    let t := if s.length < t.pos then { pos := 0 } else t
    if t.pos < s.length then
      if opens then
        let chunk := ((s ++ grown).drop t.pos).take (s.length - t.pos)
        let pending := t.pending ++ chunk
        match rfind pending with
        | some i => ({ pos := s.length, pending := pending.drop (i + 1) },
            (nonBlank ((pending.take (i + 1)).splitOn newline)).map fun ln => some (decode ln))
        | none   => ({ pos := s.length, pending }, [none])
      else (t, [none])
    else (t, [none])

/-- What happens until the next turn: bytes are appended before the size is taken, which may create
the file, and before it is read. -/
structure Turn where
  appended : Option Bytes
  grown    : Bytes
  opens    : Bool

def Turn.file (turn : Turn) (file : Option Bytes) : Option Bytes :=
  match turn.appended with
  | none   => file
  | some a => some (file.getD [] ++ a)

/-- What is yielded in some turns. -/
def watch (file : Option Bytes) (t : Stream) : List Turn → List (Option α)
  | []            => []
  | turn :: turns =>
    let file := turn.file file
    let (t, out) := t.poll decode file turn.grown turn.opens
    out ++ watch (file.map (· ++ turn.grown)) t turns

/-! ### What should be shown -/

/-- The lines of a text that are complete and not blank. -/
def linesOf (s : Bytes) : List Bytes := nonBlank (complete newline s)

/-- The file at the last turn in which it was read. -/
def seen (file : Option Bytes) (last : Bytes) : List Turn → Bytes
  | []            => last
  | turn :: turns =>
    let file := turn.file file
    seen (file.map (· ++ turn.grown)) (if turn.opens then file.getD last else last) turns

/-- The backfill, and then the stream from where it ends. -/
def shown (file : Option Bytes) (during : Nat → Bytes) (n : Nat) (turns : List Turn) : List α :=
  (tailLines decode file during true n).1 ++
    (watch decode file { pos := (tailLines decode file during true n).2 } turns).reduceOption

/-- The last `n` lines at the call, and then every line that is completed afterwards. -/
def due (file : Option Bytes) (n : Nat) (turns : List Turn) : List Bytes :=
  lastN n (linesOf (file.getD [])) ++
    (linesOf (seen file (file.getD []) turns)).drop (linesOf (file.getD [])).length

/-- Whatever is appended, and whenever, what is due is shown. -/
def Gapless (file : Option Bytes) (n : Nat) : Prop := ∀ (during : Nat → Bytes) (turns : List Turn),
  shown decode file during n turns = (due file n turns).map decode

end HftBot.Dashboard
