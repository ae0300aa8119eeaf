import Mathlib
import RuntimeTargets.Journal

/-!
# Journals that warn

A journal is put together from what each part of a computation noted, so whether it
warns is told part by part.
-/

namespace RuntimeTargets.Journal

/-- Something in the journal is a warning. -/
def Warns (journal : Journal) : Prop := ∃ entry ∈ journal, entry.severity = .warning

variable {journal later : Journal} {entry : Entry}

theorem not_warns_nil : ¬ Warns [] := by
  rintro ⟨entry, hentry, -⟩
  cases hentry

theorem warns_singleton : Warns [entry] ↔ entry.severity = .warning := by
  simp only [Warns, List.mem_singleton, exists_eq_left]

theorem warns_append : Warns (journal ++ later) ↔ journal.Warns ∨ later.Warns := by
  simp only [Warns, List.mem_append, or_and_right, exists_or]

/-- A journal of one warning, or of nothing. -/
theorem warns_ite {p : Prop} [Decidable p] (hentry : entry.severity = .warning) :
    Warns (if p then [entry] else []) ↔ p := by
  split
  · rename_i hp
    exact iff_of_true (warns_singleton.2 hentry) hp
  · rename_i hp
    exact iff_of_false not_warns_nil hp

end RuntimeTargets.Journal
