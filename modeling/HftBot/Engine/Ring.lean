import Mathlib.Algebra.Ring.Int.Defs
import Mathlib.Algebra.Ring.Nat
import Mathlib.Data.Fintype.Basic
import Mathlib.Logic.Function.Basic
import HftBot.Core.Run

/-!
# Lock-free ring

`Ring` of `ring.hpp`, the bounded queue for any number of producers and consumers, in which each
load, store, compare-exchange and access to a cell is a step of its own. Positions and sequence
numbers are 64-bit words, kept as natural numbers below `2 ^ 64`; their differences are those of the
signed words. A compare-exchange may fail for no reason and leaves the position it has seen.
-/

namespace HftBot

open HftBot.Core

namespace Ring

/-- The word that a number is kept in. -/
def word (n : Nat) : Nat := n % 2 ^ 64

/-- The value of a word as a signed one. -/
def signed (w : Nat) : Int := if w < 2 ^ 63 then w else (w : Int) - 2 ^ 64

/-- Where a thread stands: in no call, or before the named access of `try_push` or `try_pop`. -/
inductive Pc (α : Type)
  | idle
  | pushLoad (v : α)
  | pushSeq (v : α) (pos : Nat)
  | pushCas (v : α) (pos : Nat)
  | pushWrite (v : α) (pos : Nat)
  | pushStore (pos : Nat)
  | popLoad
  | popSeq (pos : Nat)
  | popCas (pos : Nat)
  | popRead (pos : Nat)
  | popStore (pos : Nat) (out : Option α)
deriving DecidableEq, Repr

/-- The memory that the threads share; a cell that was not written or was moved from holds nothing
that is known. The last five fields are not part of the program: who claimed the positions of pushes
with which value, who claimed the positions of pops, which positions were published and released,
and what was returned. -/
structure Mem (τ α : Type) where
  mask       : Nat
  seq        : Nat → Nat := id
  val        : Nat → Option α := fun _ => none
  enqueuePos : Nat := 0
  dequeuePos : Nat := 0
  pushes     : List (τ × α) := []
  claims     : List τ := []
  published  : List Nat := []
  released   : List Nat := []
  popped     : List (τ × Nat × Option α) := []

inductive Action (τ α : Type)
  | tryPush (t : τ) (v : α)
  | tryPop (t : τ)
  | step (t : τ) (spurious : Bool)
deriving DecidableEq, Repr

end Ring

/-- `operations` is not part of the program: it counts the calls. -/
structure Ring (τ α : Type) where
  mem        : Ring.Mem τ α
  pcs        : τ → Ring.Pc α := fun _ => .idle
  operations : Nat := 0

namespace Ring

variable {τ α : Type}

/-- What the constructor throws. -/
inductive Error
  | badArrayNewLength
  | invalidArgument (what : String)
deriving DecidableEq, Repr

/-- The bytes of the smallest cell: a sequence number and a value, aligned with it. -/
def cellSize : Nat := 16

def new (capacity : Nat) : Except Error (Ring τ α) :=
  -- the cells are allocated first, and no array has `2 ^ 63` bytes
  if 2 ^ 63 ≤ capacity * cellSize then .error .badArrayNewLength
  else if capacity < 2 ∨ capacity &&& (capacity - 1) ≠ 0 then
    .error (.invalidArgument "Ring capacity must be a power of two >= 2")
  else .ok { mem := { mask := capacity - 1 } }

namespace Mem

variable (m : Mem τ α)

/-- The index of the cell of a position. -/
def cell (pos : Nat) : Nat := pos &&& m.mask

/-- The difference that `try_push` looks at. -/
def pushDif (pos : Nat) : Int := signed (m.seq (m.cell pos)) - signed pos

/-- The difference that `try_pop` looks at. -/
def popDif (pos : Nat) : Int := signed (m.seq (m.cell pos)) - signed (word (pos + 1))

def claimPush (t : τ) (v : α) (pos : Nat) : Mem τ α :=
  { m with enqueuePos := word (pos + 1), pushes := m.pushes ++ [(t, v)] }

def write (v : α) (pos : Nat) : Mem τ α :=
  { m with val := Function.update m.val (m.cell pos) (some v) }

def publish (pos : Nat) : Mem τ α :=
  { m with
    seq       := Function.update m.seq (m.cell pos) (word (pos + 1))
    published := m.published ++ [pos] }

def claimPop (t : τ) (pos : Nat) : Mem τ α :=
  { m with dequeuePos := word (pos + 1), claims := m.claims ++ [t] }

def moveFrom (pos : Nat) : Mem τ α :=
  { m with val := Function.update m.val (m.cell pos) none }

def release (t : τ) (pos : Nat) (out : Option α) : Mem τ α :=
  { m with
    seq      := Function.update m.seq (m.cell pos) (word (pos + m.mask + 1))
    released := m.released ++ [pos]
    popped   := m.popped ++ [(t, pos, out)] }

end Mem

/-- One access of a thread, with where the thread stands after it. -/
def access (m : Mem τ α) (t : τ) (spurious : Bool) : Pc α → Mem τ α × Pc α
  | .idle             => (m, .idle)
  | .pushLoad v       => (m, .pushSeq v m.enqueuePos)
  | .pushSeq v pos    =>
    if m.pushDif pos = 0 then (m, .pushCas v pos)
    -- the ring is full: `try_push` returns false
    else if m.pushDif pos < 0 then (m, .idle)
    else (m, .pushLoad v)
  | .pushCas v pos    =>
    if m.enqueuePos = pos ∧ spurious = false then (m.claimPush t v pos, .pushWrite v pos)
    else (m, .pushSeq v m.enqueuePos)
  | .pushWrite v pos  => (m.write v pos, .pushStore pos)
  | .pushStore pos    => (m.publish pos, .idle)
  | .popLoad          => (m, .popSeq m.dequeuePos)
  | .popSeq pos       =>
    if m.popDif pos = 0 then (m, .popCas pos)
    -- the ring is empty: `try_pop` returns false
    else if m.popDif pos < 0 then (m, .idle)
    else (m, .popLoad)
  | .popCas pos       =>
    if m.dequeuePos = pos ∧ spurious = false then (m.claimPop t pos, .popRead pos)
    else (m, .popSeq m.dequeuePos)
  | .popRead pos      => (m.moveFrom pos, .popStore pos (m.val (m.cell pos)))
  | .popStore pos out => (m.release t pos out, .idle)

variable [DecidableEq τ]

/-- A call begins, by a thread that is in none, or a thread makes its next access. -/
def step (r : Ring τ α) : Action τ α → Ring τ α
  | .tryPush t v     =>
    match r.pcs t with
    | .idle =>
      { r with pcs := Function.update r.pcs t (.pushLoad v), operations := r.operations + 1 }
    | _     => r
  | .tryPop t        =>
    match r.pcs t with
    | .idle => { r with pcs := Function.update r.pcs t .popLoad, operations := r.operations + 1 }
    | _     => r
  | .step t spurious =>
    let (mem, pc) := access r.mem t spurious (r.pcs t)
    { r with mem, pcs := Function.update r.pcs t pc }

end Ring

end HftBot
