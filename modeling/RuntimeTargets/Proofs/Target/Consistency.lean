import RuntimeTargets.Target.Catalog
import RuntimeTargets.Proofs.Alignment
import RuntimeTargets.Proofs.Target.Laws

/-!
# When a target is consistent

The guards of `Target.check` are not all of the form in which consumers use them: an
alignment of loops is only compared with that of entries, and a multiple of the word size
is compared with it once more.  Among powers of two the order is that of divisibility, so
that the guards together say what a consistent target is.
-/

namespace RuntimeTargets.Target

open Word (IsPowerOfTwo)

variable {t : Target}

/-- The facts of a target fit together. -/
structure Consistent (t : Target) : Prop where
  wordSize : t.wordSize.toNat = 4 ∨ t.wordSize.toNat = 8
  instructionSize : IsPowerOfTwo t.instructionSize ∧ t.instructionSize.toNat ≤ 8
  stackAlignment : IsPowerOfTwo t.stackAlignment ∧
    t.wordSize.toNat ∣ t.stackAlignment.toNat ∧ t.wordSize.toNat ≤ t.stackAlignment.toNat
  classSpaceAlignment : ∀ alignment, t.classSpaceAlignment = some alignment →
    IsPowerOfTwo alignment
  codeAlignment : IsPowerOfTwo t.defaults.entryAlignment ∧
    IsPowerOfTwo t.defaults.loopAlignment ∧ IsPowerOfTwo t.defaults.segmentSize
  loopAlignment_dvd : t.defaults.loopAlignment.toNat ∣ t.defaults.entryAlignment.toNat
  instructionSize_dvd : t.instructionSize.toNat ∣ t.defaults.entryAlignment.toNat
  stackPages : ∀ zone,
    (t.defaults.minStackPages.count zone).toNat ≤ (t.defaults.stackPages.count zone).toNat
  reserved : t.reservesStack = false →
    t.defaults.stackPages.reserved.toNat = 0 ∧ t.defaults.minStackPages.reserved.toNat = 0

/-- Loops are aligned no more strictly than entries exactly if their alignment divides
that of entries. -/
theorem loopAlignment_le_iff_dvd (hentry : IsPowerOfTwo t.defaults.entryAlignment)
    (hloop : IsPowerOfTwo t.defaults.loopAlignment) :
    t.defaults.loopAlignment.toNat ≤ t.defaults.entryAlignment.toNat ↔
      t.defaults.loopAlignment.toNat ∣ t.defaults.entryAlignment.toNat := by
  constructor
  · exact Alignment.dvd_of_isPowerOfTwo hloop hentry
  · exact Nat.le_of_dvd (Nat.pos_of_isPowerOfTwo hentry)

theorem forall_law_iff_consistent : (∀ defect, TargetDefect.Law t defect) ↔ t.Consistent := by
  constructor
  · intro hlaw
    obtain ⟨hentry, hloop, -⟩ := hlaw .codeAlignment
    obtain ⟨hstack, hword⟩ := hlaw .stackAlignmentTooSmall
    exact
      { wordSize := hlaw .wordSize
        instructionSize := hlaw .instructionSize
        stackAlignment := ⟨hstack, hlaw .stackAlignmentNotWordMultiple, hword⟩
        classSpaceAlignment := hlaw .classSpaceAlignment
        codeAlignment := hlaw .codeAlignment
        loopAlignment_dvd :=
          (loopAlignment_le_iff_dvd hentry hloop).1 (hlaw .loopAlignmentExceedsEntry)
        instructionSize_dvd := hlaw .entryAlignmentNotInstructionMultiple
        stackPages := hlaw .stackPagesBelowMinimum
        reserved := hlaw .reservedPagesWithoutSupport }
  · intro ht defect
    cases defect with
    | wordSize => exact ht.wordSize
    | instructionSize => exact ht.instructionSize
    | stackAlignmentTooSmall => exact ⟨ht.stackAlignment.1, ht.stackAlignment.2.2⟩
    | stackAlignmentNotWordMultiple => exact ht.stackAlignment.2.1
    | classSpaceAlignment => exact ht.classSpaceAlignment
    | codeAlignment => exact ht.codeAlignment
    | loopAlignmentExceedsEntry =>
        obtain ⟨hentry, hloop, -⟩ := ht.codeAlignment
        exact (loopAlignment_le_iff_dvd hentry hloop).2 ht.loopAlignment_dvd
    | entryAlignmentNotInstructionMultiple => exact ht.instructionSize_dvd
    | stackPagesBelowMinimum => exact ht.stackPages
    | reservedPagesWithoutSupport => exact ht.reserved

/-- The check comes to no fault whatever the fields are.  It accepts the consistent
targets and refuses any other for the first of the laws in the order of the tests that
the target breaks. -/
theorem check_decides (t : Target) :
    (∀ cause, t.check ≠ .error (.fault cause)) ∧
    (t.check = .ok () ↔ t.Consistent) ∧
    ∀ defect : TargetDefect, t.check = refuse defect ↔
      ¬ defect.Law t ∧ ∀ other ∈ defect.earlier, other.Law t := by
  refine ⟨?_, check_eq_ok_iff.trans forall_law_iff_consistent, ?_⟩
  · intro cause hfault
    obtain ⟨defect, hrefusal, -⟩ := check_eq_error_iff.1 hfault
    cases hrefusal
  · intro defect
    rw [refuse, check_eq_error_iff]
    simp only [Failure.refusal.injEq, exists_eq_left']

/-- Zero is a multiple of every word size, so that it is refused for the next law. -/
example : check { mips64 with stackAlignment := 0 } = refuse .stackAlignmentTooSmall := by
  decide +kernel

end RuntimeTargets.Target
