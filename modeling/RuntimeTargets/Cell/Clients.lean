import RuntimeTargets.Cell

/-!
# Clients that add to one cell

Any number of clients add to a cell that they share, in any order.  A client
adds in a single step, or loads the value and then exchanges it for the sum,
loading again whenever it finds that the value is no longer the one it saw.
Each operation on the cell is one step, and between two steps of one client any
of the others may come in, so the value that a client has seen may be stale by
any number of steps.
-/

namespace RuntimeTargets

/-- What a client is in the middle of. -/
inductive ClientState where
  | idle
  /-- It is about to load the value in order to add `delta`. -/
  | loading (delta : Word)
  /-- It has loaded `seen` and is about to exchange it for the sum. -/
  | exchanging (delta seen : Word)
  deriving DecidableEq, Repr

/-- A cell and the clients that share it. -/
structure Crowd where
  cell : Cell
  clients : Nat → ClientState
  /-- What finished additions have added, the last one first. -/
  added : List Word

namespace Crowd

/-- Nobody has begun. -/
def start (cell : Cell) : Crowd := { cell, clients := fun _ => .idle, added := [] }

/-- The clients after one of them has moved on. -/
def setClient (s : Crowd) (client : Nat) (state : ClientState) : Nat → ClientState :=
  fun other => if other = client then state else s.clients other

/-- All that finished additions have added, modulo the size of a word. -/
def total (s : Crowd) : Word := s.added.foldr (· + ·) 0

/-- One client performs one operation on the cell and gets a reply. -/
inductive Step : Crowd → CellOperation → CellReply → Crowd → Prop where
  | add {s : Crowd} {client : Nat} {delta : Word} {reply : CellReply} {cell : Cell}
      (idle : s.clients client = .idle)
      (performed : s.cell.perform (.fetchAdd delta) = (reply, cell)) :
      Step s (.fetchAdd delta) reply { s with cell, added := delta :: s.added }
  | begin {s : Crowd} {client : Nat} (delta : Word)
      (idle : s.clients client = .idle) :
      Step s .load (.loaded s.cell.load)
        { s with clients := s.setClient client (.exchanging delta s.cell.load) }
  | reload {s : Crowd} {client : Nat} {delta : Word}
      (loading : s.clients client = .loading delta) :
      Step s .load (.loaded s.cell.load)
        { s with clients := s.setClient client (.exchanging delta s.cell.load) }
  | exchange {s : Crowd} {client : Nat} {delta seen previous : Word} {cell : Cell}
      (exchanging : s.clients client = .exchanging delta seen)
      (performed :
        s.cell.perform (.compareExchange seen (seen + delta)) = (.exchanged previous, cell)) :
      Step s (.compareExchange seen (seen + delta)) (.exchanged previous)
        { cell, clients := s.setClient client .idle, added := delta :: s.added }
  | retry {s : Crowd} {client : Nat} {delta seen actual : Word} {cell : Cell}
      (exchanging : s.clients client = .exchanging delta seen)
      (performed :
        s.cell.perform (.compareExchange seen (seen + delta)) = (.kept actual, cell)) :
      Step s (.compareExchange seen (seen + delta)) (.kept actual)
        { s with cell, clients := s.setClient client (.loading delta) }

/-- The crowds that clients of one cell can come to. -/
inductive Reachable (cell : Cell) : Crowd → Prop where
  | start : Reachable cell (start cell)
  | step {s later : Crowd} {operation : CellOperation} {reply : CellReply}
      (reached : Reachable cell s) (stepped : Step s operation reply later) :
      Reachable cell later

end Crowd

end RuntimeTargets
