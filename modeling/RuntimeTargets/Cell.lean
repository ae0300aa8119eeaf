import RuntimeTargets.Target.Basic

/-!
# Cells for compare and swap

A `Cell` holds one word that several clients update.  Where the processor
swaps eight bytes at once the word is updated by single instructions; elsewhere
it is guarded by a lock and updated by a short sequence of reads and writes.
The two are defined apart from each other, and a caller cannot tell which one
it has.
-/

namespace RuntimeTargets

/-- How a cell is updated. -/
inductive CellStrategy where
  | native
  | locked
  deriving DecidableEq, Repr

namespace CellStrategy

def name : CellStrategy → String
  | .native => "Native"
  | .locked => "Locked"

/-- Swaps are native where the processor has them.  The machine that runs this is
taken to be one that can use them. -/
def ofTarget (t : Target) : CellStrategy := if t.swapsWords then .native else .locked

end CellStrategy

/-! ## Single instructions -/

namespace Instruction

def swap (value current new : Word) : Except Word Word × Word :=
  if value = current then (.ok value, new) else (.error value, value)

def fetchAdd (value delta : Word) : Word × Word := (value, value + delta)

end Instruction

/-! ## Sequences under a lock -/

namespace Guarded

def load : StateM Word Word := get

def store (value : Word) : StateM Word Unit := set value

def swap (current new : Word) : StateM Word (Except Word Word) := do
  let actual ← get
  if actual = current then
    set new
    return .ok actual
  else
    return .error actual

def fetchAdd (delta : Word) : StateM Word Word := do
  let previous ← get
  set (previous + delta)
  return previous

end Guarded

/-- A word with the strategy by which it is updated. -/
inductive Cell where
  | native (value : Word)
  | locked (value : Word)
  deriving DecidableEq, Repr

namespace Cell

def ofStrategy (strategy : CellStrategy) (value : Word) : Cell :=
  match strategy with
  | .native => .native value
  | .locked => .locked value

def ofTarget (t : Target) (value : Word) : Cell := ofStrategy (.ofTarget t) value

def strategy : Cell → CellStrategy
  | .native _ => .native
  | .locked _ => .locked

def isLockFree (c : Cell) : Bool := c.strategy = .native

/-- Hold the lock for the whole of `body`. -/
def holdingLock {α : Type} (value : Word) (body : StateM Word α) : α × Cell :=
  let (result, value) := body.run value
  (result, .locked value)

def load : Cell → Word
  | .native value => value
  | .locked value => (holdingLock value Guarded.load).1

def store (new : Word) : Cell → Cell
  | .native _ => .native new
  | .locked value => (holdingLock value (Guarded.store new)).2

/-- Store `new` if the cell holds `current`.  The answer is the value found,
as a success if it was replaced. -/
def compareExchange (current new : Word) : Cell → Except Word Word × Cell
  | .native value =>
    let (found, value) := Instruction.swap value current new
    (found, .native value)
  | .locked value => holdingLock value (Guarded.swap current new)

/-- Add to the value, modulo the size of a word, and answer the value before. -/
def fetchAdd (delta : Word) : Cell → Word × Cell
  | .native value =>
    let (previous, value) := Instruction.fetchAdd value delta
    (previous, .native value)
  | .locked value => holdingLock value (Guarded.fetchAdd delta)

/-- The cell on one line. -/
def render (c : Cell) : String :=
  "Cx8Cell \x7b strategy: " ++ c.strategy.name ++ ", value: " ++ Word.decimal c.load ++ " \x7d"

/-- The cell with a line for each of its parts. -/
def renderLines (c : Cell) : String :=
  "Cx8Cell \x7b\n    strategy: " ++ c.strategy.name ++ ",\n    value: " ++
    Word.decimal c.load ++ ",\n\x7d"

end Cell

/-! ## Runs of operations -/

inductive CellOperation where
  | load
  | store (value : Word)
  | compareExchange (current new : Word)
  | fetchAdd (delta : Word)
  deriving DecidableEq, Repr

/-- What an operation answers. -/
inductive CellReply where
  | loaded (value : Word)
  | stored
  | exchanged (previous : Word)
  | kept (actual : Word)
  | added (previous : Word)
  deriving DecidableEq, Repr

namespace Cell

def perform (c : Cell) : CellOperation → CellReply × Cell
  | .load => (.loaded c.load, c)
  | .store value => (.stored, c.store value)
  | .compareExchange current new =>
    match c.compareExchange current new with
    | (.ok previous, c) => (.exchanged previous, c)
    | (.error actual, c) => (.kept actual, c)
  | .fetchAdd delta =>
    let (previous, c) := c.fetchAdd delta
    (.added previous, c)

/-- Perform operations in order.  Each reply comes with the cell after it. -/
def run (c : Cell) : List CellOperation → List (CellReply × Cell)
  | [] => []
  | operation :: operations =>
    let step := c.perform operation
    step :: step.2.run operations

end Cell

end RuntimeTargets
