import RuntimeTargets.Target.Basic

/-!
# The laws of a target

`Target.check` tests the internal consistency of a target and names the first
law that fails.  The order of the tests matters twice: it decides which defect
is reported, and it keeps each divisor away from zero by the time a remainder
is taken.
-/

namespace RuntimeTargets

/-- A law that a target breaks. -/
inductive TargetDefect where
  | wordSize
  | instructionSize
  | stackAlignmentTooSmall
  | stackAlignmentNotWordMultiple
  | classSpaceAlignment
  | codeAlignment
  | loopAlignmentExceedsEntry
  | entryAlignmentNotInstructionMultiple
  | stackPagesBelowMinimum
  | reservedPagesWithoutSupport
  deriving DecidableEq, Repr

def TargetDefect.message : TargetDefect → String
  | .wordSize => "word size must be 4 or 8 bytes"
  | .instructionSize =>
    "instruction word size must be a power of two no larger than 8 bytes"
  | .stackAlignmentTooSmall =>
    "stack alignment must be a power of two and at least the word size"
  | .stackAlignmentNotWordMultiple =>
    "stack alignment must be a multiple of the word size"
  | .classSpaceAlignment => "preferred metaspace alignment must be a power of two"
  | .codeAlignment => "code alignments and segment size must be powers of two"
  | .loopAlignmentExceedsEntry => "loop alignment must not exceed code entry alignment"
  | .entryAlignmentNotInstructionMultiple =>
    "code entry alignment must be a multiple of the instruction word size"
  | .stackPagesBelowMinimum =>
    "default stack guard pages must not be below the minimums"
  | .reservedPagesWithoutSupport =>
    "reserved stack pages configured but reserved stack area is unsupported"

/-- Some zone has fewer pages than the other counts ask for. -/
def GuardPages.Below (pages least : GuardPages) : Prop :=
  pages.yellow < least.yellow ∨ pages.red < least.red ∨
    pages.reserved < least.reserved ∨ pages.shadow < least.shadow

instance (pages least : GuardPages) : Decidable (pages.Below least) :=
  inferInstanceAs (Decidable (_ ∨ _ ∨ _ ∨ _))

namespace Target

open Word (IsPowerOfTwo)

/-- Refuse with `defect` unless `law` holds. -/
def require (law : Prop) [Decidable law] (defect : TargetDefect) :
    Outcome TargetDefect Unit :=
  if law then .ok () else refuse defect

def check (t : Target) : Outcome TargetDefect Unit := do
  require (t.wordSize = 4 ∨ t.wordSize = 8) .wordSize
  require (IsPowerOfTwo t.instructionSize ∧ t.instructionSize ≤ 8) .instructionSize
  let overhang ← Word.rem t.stackAlignment t.wordSize
  require (overhang = 0) .stackAlignmentNotWordMultiple
  require (IsPowerOfTwo t.stackAlignment ∧ t.wordSize ≤ t.stackAlignment)
    .stackAlignmentTooSmall
  require (t.classSpaceAlignment.all fun a => IsPowerOfTwo a) .classSpaceAlignment
  let d := t.defaults
  require (IsPowerOfTwo d.entryAlignment ∧ IsPowerOfTwo d.loopAlignment ∧
    IsPowerOfTwo d.segmentSize) .codeAlignment
  require (d.loopAlignment ≤ d.entryAlignment) .loopAlignmentExceedsEntry
  let overhang ← Word.rem d.entryAlignment t.instructionSize
  require (overhang = 0) .entryAlignmentNotInstructionMultiple
  require (¬ d.stackPages.Below d.minStackPages) .stackPagesBelowMinimum
  require (t.reservesStack ∨ (d.stackPages.reserved = 0 ∧ d.minStackPages.reserved = 0))
    .reservedPagesWithoutSupport

/-- A target that keeps every law. -/
def Sound (t : Target) : Prop := t.check = .ok ()

instance (t : Target) : Decidable t.Sound :=
  match h : t.check with
  | .ok () => isTrue h
  | .error _ => isFalse (by simp [Sound, h])

end Target

end RuntimeTargets
