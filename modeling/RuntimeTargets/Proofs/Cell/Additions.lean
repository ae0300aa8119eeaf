import RuntimeTargets.Cell.Clients
import RuntimeTargets.Proofs.Cell.Strategies

/-!
# No addition is lost or made twice

A client that exchanges a value it loaded before may have been overtaken by any number
of others.  It does not matter by whom: the exchange succeeds only on the value that the
client has seen, so it adds to the cell what the client wanted to add, even where the
cell has left that value and come back to it.  Each step therefore adds to the cell what
its reply says it has added, and the value is at any time the first one with all those
additions, modulo the size of a word.
-/

namespace RuntimeTargets

/-! ## What an operation adds -/

namespace CellOperation

/-- What an operation with this reply has added, if it has added anything. -/
def addition : CellOperation → CellReply → Option Word
  | .fetchAdd delta, _ => some delta
  | .compareExchange current new, .exchanged _ => some (new - current)
  | _, _ => none

/-- Unless it is overwritten, a register grows by what was added to it. -/
theorem result_eq_add {value : Word} {operation : CellOperation}
    (hstore : ∀ new, operation ≠ .store new) :
    operation.result value =
      value + (operation.addition (operation.reply value)).getD 0 := by
  cases operation with
  | load => exact (UInt64.add_zero value).symm
  | store new => exact absurd rfl (hstore new)
  | compareExchange current new =>
      rw [result, reply]
      by_cases hheld : value = current
      · rw [if_pos hheld, if_pos hheld, hheld, addition, Option.getD_some,
          UInt64.add_comm, UInt64.sub_add_cancel]
      · rw [if_neg hheld, if_neg hheld]
        exact (UInt64.add_zero value).symm
  | fetchAdd delta => rfl

/-- A refused exchange names the value that it found, and leaves it. -/
theorem eq_of_reply_eq_kept {value actual : Word} {operation : CellOperation}
    (hkept : operation.reply value = .kept actual) :
    actual = value ∧ operation.result value = value := by
  cases operation with
  | compareExchange current new =>
      rw [reply] at hkept
      split at hkept
      · cases hkept
      · rename_i hheld
        cases hkept
        exact ⟨rfl, if_neg hheld⟩
  | load | store new | fetchAdd delta => cases hkept

/-- An exchange succeeds on the expected value only. -/
theorem eq_of_reply_eq_exchanged {value current new previous : Word}
    (hexchanged : reply value (.compareExchange current new) = .exchanged previous) :
    value = current ∧ previous = current ∧
      result value (.compareExchange current new) = new := by
  rw [reply] at hexchanged
  split at hexchanged
  · rename_i hheld
    cases hexchanged
    exact ⟨hheld, hheld, if_pos hheld⟩
  · cases hexchanged

end CellOperation

namespace Crowd

variable {cell : Cell} {s later : Crowd} {operation : CellOperation} {reply : CellReply}

/-! ## One step -/

/-- Each step of a client is one operation on the cell. -/
theorem Step.performed (h : Step s operation reply later) :
    s.cell.perform operation = (reply, later.cell) := by
  cases h with
  | add _ performed => exact performed
  | begin => rfl
  | reload => rfl
  | exchange _ performed => exact performed
  | retry _ performed => exact performed

theorem Step.reply_eq (h : Step s operation reply later) :
    reply = operation.reply s.cell.load := by
  have hperformed := h.performed
  rw [Cell.perform_eq] at hperformed
  exact (congrArg Prod.fst hperformed).symm

theorem Step.cell_eq (h : Step s operation reply later) :
    later.cell = .ofStrategy s.cell.strategy (operation.result s.cell.load) := by
  have hperformed := h.performed
  rw [Cell.perform_eq] at hperformed
  exact (congrArg Prod.snd hperformed).symm

theorem Step.strategy_eq (h : Step s operation reply later) :
    later.cell.strategy = s.cell.strategy := by
  rw [h.cell_eq, Cell.strategy_ofStrategy]

/-- Clients add to the cell and never overwrite it. -/
theorem Step.ne_store (h : Step s operation reply later) (new : Word) :
    operation ≠ .store new := by
  cases h <;> exact nofun

theorem Step.load_eq (h : Step s operation reply later) :
    later.cell.load = s.cell.load + (operation.addition reply).getD 0 := by
  rw [h.cell_eq, Cell.load_ofStrategy, CellOperation.result_eq_add h.ne_store, ← h.reply_eq]

/-- An addition is put on record by the step that makes it, and by no other. -/
theorem Step.added_eq (h : Step s operation reply later) :
    later.added = (operation.addition reply).toList ++ s.added := by
  cases h with
  | add => rfl
  | begin => rfl
  | reload => rfl
  | @exchange client delta seen =>
      have hdelta : seen + delta - seen = delta := by
        rw [UInt64.add_comm, UInt64.add_sub_cancel]
      rw [CellOperation.addition, hdelta]
      rfl
  | retry => rfl

theorem Step.cell_eq_of_kept {actual : Word} (h : Step s operation (.kept actual) later) :
    later.cell = s.cell ∧ later.added = s.added ∧ actual = s.cell.load := by
  obtain ⟨hactual, hresult⟩ := CellOperation.eq_of_reply_eq_kept h.reply_eq.symm
  refine ⟨?_, ?_, hactual⟩
  · rw [h.cell_eq, hresult, Cell.ofStrategy_load]
  · rw [h.added_eq]
    cases operation with
    | fetchAdd delta => cases h.reply_eq
    | load | store new | compareExchange current new => rfl

theorem Step.load_eq_of_exchanged {current new previous : Word}
    (h : Step s (.compareExchange current new) (.exchanged previous) later) :
    s.cell.load = current ∧ previous = current ∧ later.cell.load = new := by
  obtain ⟨hheld, hprevious, hresult⟩ :=
    CellOperation.eq_of_reply_eq_exchanged h.reply_eq.symm
  refine ⟨hheld, hprevious, ?_⟩
  rw [h.cell_eq, Cell.load_ofStrategy, hresult]

/-! ## Whole histories -/

/-- The crowds that clients of one cell can come to, with all they have done on the way
and the replies they got, the last one first. -/
inductive History (cell : Cell) : List (CellOperation × CellReply) → Crowd → Prop where
  | start : History cell [] (start cell)
  | step {past : List (CellOperation × CellReply)} {s later : Crowd}
      {operation : CellOperation} {reply : CellReply}
      (reached : History cell past s) (stepped : Step s operation reply later) :
      History cell ((operation, reply) :: past) later

theorem reachable_iff : Reachable cell s ↔ ∃ past, History cell past s := by
  constructor
  · intro h
    induction h with
    | start => exact ⟨[], .start⟩
    | step reached stepped ih =>
        obtain ⟨past, hpast⟩ := ih
        exact ⟨_, .step hpast stepped⟩
  · rintro ⟨past, h⟩
    induction h with
    | start => exact .start
    | step reached stepped ih => exact .step ih stepped

/-- All that was added in a history, the last addition first. -/
def additions (past : List (CellOperation × CellReply)) : List Word :=
  past.filterMap fun event => event.1.addition event.2

theorem additions_cons (operation : CellOperation) (reply : CellReply)
    (past : List (CellOperation × CellReply)) :
    additions ((operation, reply) :: past) =
      (operation.addition reply).toList ++ additions past := by
  rw [additions, List.filterMap_cons]
  cases operation.addition reply <;> rfl

namespace History

variable {past : List (CellOperation × CellReply)}

theorem strategy_eq (h : History cell past s) : s.cell.strategy = cell.strategy := by
  induction h with
  | start => rfl
  | step reached stepped ih => rw [stepped.strategy_eq, ih]

theorem added_eq (h : History cell past s) : s.added = additions past := by
  induction h with
  | start => rfl
  | step reached stepped ih => rw [stepped.added_eq, ih, additions_cons]

theorem load_eq (h : History cell past s) : s.cell.load = cell.load + s.total := by
  induction h with
  | start => exact (UInt64.add_zero _).symm
  | @step past s later operation reply reached stepped ih =>
      have htotal : later.total = (operation.addition reply).getD 0 + s.total := by
        rw [total, stepped.added_eq]
        cases operation.addition reply with
        | none => exact (UInt64.zero_add _).symm
        | some delta => rfl
      calc
        later.cell.load = s.cell.load + (operation.addition reply).getD 0 := stepped.load_eq
        _ = cell.load + s.total + (operation.addition reply).getD 0 := by rw [ih]
        _ = cell.load + ((operation.addition reply).getD 0 + s.total) := by
          rw [UInt64.add_assoc, UInt64.add_comm s.total]
        _ = cell.load + later.total := by rw [htotal]

end History

theorem toNat_foldr_add (deltas : List Word) :
    (deltas.foldr (· + ·) 0).toNat = (deltas.map UInt64.toNat).sum % 2 ^ 64 := by
  induction deltas with
  | nil => rfl
  | cons delta deltas ih =>
      rw [List.foldr_cons, UInt64.toNat_add, ih, List.map_cons, List.sum_cons, Nat.add_mod_mod]

/-- Whatever the clients of a cell have done, in whatever order, the cell holds its first
value with everything added that an addition or a successful exchange was to add, once
each and modulo the size of a word.  An exchange is successful on the value that was
expected, and a refused one has changed nothing and names the value that the cell held. -/
theorem load_of_history (cell : Cell) :
    (∀ s, Reachable cell s ↔ ∃ past, History cell past s) ∧
    ∀ past s, History cell past s →
      s.cell.load.toNat =
        (cell.load.toNat + ((additions past).map UInt64.toNat).sum) % 2 ^ 64 ∧
      s.added = additions past ∧ s.cell.strategy = cell.strategy ∧
      ∀ operation reply later, Step s operation reply later →
        later.cell.load = s.cell.load + (operation.addition reply).getD 0 ∧
        (∀ current new previous, operation = .compareExchange current new →
          reply = .exchanged previous →
            s.cell.load = current ∧ previous = current ∧ later.cell.load = new) ∧
        ∀ actual, reply = .kept actual →
          later.cell = s.cell ∧ later.added = s.added ∧ actual = s.cell.load := by
  refine ⟨fun s => reachable_iff, ?_⟩
  intro past s h
  refine ⟨?_, h.added_eq, h.strategy_eq, ?_⟩
  · rw [h.load_eq, UInt64.toNat_add, total, toNat_foldr_add, h.added_eq, Nat.add_mod_mod]
  · intro operation reply later stepped
    refine ⟨stepped.load_eq, ?_, ?_⟩
    · rintro current new previous rfl rfl
      exact stepped.load_eq_of_exchanged
    · rintro actual rfl
      exact stepped.cell_eq_of_kept

/-- One client is overtaken by a sum that wraps around, is refused, and loads again.  Then
the other one adds five and takes them back, so that the exchange succeeds on a value that
the cell had left. -/
theorem load_of_history_returning :
    ∃ s, History (.locked 0xffffffffffffffff)
        [(.compareExchange 0 2, .exchanged 0),
          (.fetchAdd 0xfffffffffffffffb, .added 5), (.fetchAdd 5, .added 0),
          (.load, .loaded 0), (.compareExchange 0xffffffffffffffff 1, .kept 0),
          (.fetchAdd 1, .added 0xffffffffffffffff), (.load, .loaded 0xffffffffffffffff)] s ∧
      s.added = [2, 0xfffffffffffffffb, 5, 1] ∧ s.cell.load.toNat = 2 := by
  have h₁ := History.step (@History.start (.locked 0xffffffffffffffff)) (@Step.begin _ 0 2 rfl)
  have h₂ := History.step h₁ (@Step.add _ 1 1 _ _ rfl rfl)
  have h₃ := History.step h₂ (@Step.retry _ 0 2 0xffffffffffffffff 0 (.locked 0) rfl rfl)
  have h₄ := History.step h₃ (@Step.reload _ 0 2 rfl)
  have h₅ := History.step h₄ (@Step.add _ 1 5 _ _ rfl rfl)
  have h₆ := History.step h₅ (@Step.add _ 1 0xfffffffffffffffb _ _ rfl rfl)
  have h₇ := History.step h₆ (@Step.exchange _ 0 2 0 0 (.locked 2) rfl rfl)
  obtain ⟨-, hall⟩ := load_of_history (.locked 0xffffffffffffffff)
  obtain ⟨hload, hadded, -⟩ := hall _ _ h₇
  exact ⟨_, h₇, hadded, hload⟩

end Crowd

end RuntimeTargets
