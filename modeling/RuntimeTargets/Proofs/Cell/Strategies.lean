import Mathlib
import RuntimeTargets.Cell

/-!
# Both strategies implement one register

A cell is updated by single instructions or under a lock, in definitions that do not
refer to each other.  Either way an operation answers and leaves behind what it does on
a register, a word that is read and written in one piece.  A run is therefore the same
under both strategies, and no caller can tell on which kind of target it is running.
-/

namespace RuntimeTargets

/-! ## A register -/

namespace CellOperation

/-- What a register answers that holds `value`. -/
def reply (value : Word) : CellOperation → CellReply
  | .load => .loaded value
  | .store _ => .stored
  | .compareExchange current _ => if value = current then .exchanged value else .kept value
  | .fetchAdd _ => .added value

/-- What a register holds afterwards that held `value`. -/
def result (value : Word) : CellOperation → Word
  | .load => value
  | .store new => new
  | .compareExchange current new => if value = current then new else value
  | .fetchAdd delta => value + delta

/-- The replies of a register to operations in order, each with the value after it. -/
def trace (value : Word) : List CellOperation → List (CellReply × Word)
  | [] => []
  | operation :: operations =>
    (operation.reply value, operation.result value) ::
      trace (operation.result value) operations

theorem length_trace (value : Word) (operations : List CellOperation) :
    (trace value operations).length = operations.length := by
  induction operations generalizing value with
  | nil => rfl
  | cons operation operations ih => rw [trace, List.length_cons, List.length_cons, ih]

end CellOperation

/-! ## Sequences and instructions -/

namespace Guarded

theorem run_swap (current new value : Word) :
    (swap current new).run value = Instruction.swap value current new := by
  change StateT.run (if value = current then _ else _) value = _
  by_cases hheld : value = current
  · rw [if_pos hheld, Instruction.swap, if_pos hheld]
    rfl
  · rw [if_neg hheld, Instruction.swap, if_neg hheld]
    rfl

theorem run_fetchAdd (delta value : Word) :
    (fetchAdd delta).run value = Instruction.fetchAdd value delta := rfl

end Guarded

namespace Cell

variable {strategy : CellStrategy} {value : Word}

@[simp]
theorem load_ofStrategy : (ofStrategy strategy value).load = value := by
  cases strategy <;> rfl

@[simp]
theorem strategy_ofStrategy : (ofStrategy strategy value).strategy = strategy := by
  cases strategy <;> rfl

@[simp]
theorem ofStrategy_load (c : Cell) : ofStrategy c.strategy c.load = c := by
  cases c <;> rfl

theorem compareExchange_eq (c : Cell) (current new : Word) :
    c.compareExchange current new =
      ((Instruction.swap c.load current new).1,
        ofStrategy c.strategy (Instruction.swap c.load current new).2) := by
  cases c with
  | native value => rfl
  | locked value =>
      rw [compareExchange, holdingLock, Guarded.run_swap]
      rfl

theorem fetchAdd_eq (c : Cell) (delta : Word) :
    c.fetchAdd delta = (c.load, ofStrategy c.strategy (c.load + delta)) := by
  cases c with
  | native value => rfl
  | locked value =>
      rw [fetchAdd, holdingLock, Guarded.run_fetchAdd]
      rfl

theorem store_eq (c : Cell) (new : Word) : c.store new = ofStrategy c.strategy new := by
  cases c <;> rfl

/-! ## One operation -/

/-- An operation on a cell is that operation on a register. -/
theorem perform_eq (c : Cell) (operation : CellOperation) :
    c.perform operation =
      (operation.reply c.load, ofStrategy c.strategy (operation.result c.load)) := by
  cases operation with
  | load => rw [CellOperation.result, ofStrategy_load]; rfl
  | store new => rw [perform, store_eq]; rfl
  | compareExchange current new =>
      rw [perform, compareExchange_eq, Instruction.swap, CellOperation.reply,
        CellOperation.result]
      by_cases hheld : c.load = current
      · simp only [if_pos hheld]
      · simp only [if_neg hheld]
  | fetchAdd delta => rw [perform, fetchAdd_eq]; rfl

/-! ## Runs -/

/-- What a caller sees of a step: the reply, and the value that is then in the cell. -/
def observe (step : CellReply × Cell) : CellReply × Word := (step.1, step.2.load)

/-- A run is the trace of a register, on cells of the strategy that it began with. -/
theorem run_ofStrategy (strategy : CellStrategy) (value : Word)
    (operations : List CellOperation) :
    (ofStrategy strategy value).run operations =
      (CellOperation.trace value operations).map fun step =>
        (step.1, ofStrategy strategy step.2) := by
  induction operations generalizing value with
  | nil => rfl
  | cons operation operations ih =>
      rw [run, perform_eq, load_ofStrategy, strategy_ofStrategy]
      dsimp only
      rw [ih, CellOperation.trace, List.map_cons]

theorem map_observe_run (strategy : CellStrategy) (value : Word)
    (operations : List CellOperation) :
    ((ofStrategy strategy value).run operations).map observe =
      CellOperation.trace value operations := by
  rw [run_ofStrategy, List.map_map]
  refine (List.map_congr_left ?_).trans (List.map_id _)
  intro step _
  exact Prod.ext rfl load_ofStrategy

/-- A cell goes through the same replies and values under both strategies, whatever is
done with it, and keeps the strategy that it was given: a target without native swaps
has cells that cannot be told from those of a target that has them. -/
theorem run_indistinguishable (value : Word) (operations : List CellOperation) :
    ((ofStrategy .native value).run operations).map observe =
      ((ofStrategy .locked value).run operations).map observe ∧
    (∀ strategy, ((ofStrategy strategy value).run operations).map observe =
        CellOperation.trace value operations ∧
      ((ofStrategy strategy value).run operations).length = operations.length ∧
      ∀ step ∈ (ofStrategy strategy value).run operations, step.2.strategy = strategy) ∧
    ∀ t u : Target, ((ofTarget t value).run operations).map observe =
      ((ofTarget u value).run operations).map observe := by
  refine ⟨?_, ?_, ?_⟩
  · rw [map_observe_run, map_observe_run]
  · intro strategy
    refine ⟨map_observe_run strategy value operations, ?_, ?_⟩
    · rw [run_ofStrategy, List.length_map, CellOperation.length_trace]
    · intro step hstep
      rw [run_ofStrategy] at hstep
      obtain ⟨traced, -, rfl⟩ := List.mem_map.1 hstep
      exact strategy_ofStrategy
  · intro t u
    rw [ofTarget, ofTarget, map_observe_run, map_observe_run]

end Cell

end RuntimeTargets
