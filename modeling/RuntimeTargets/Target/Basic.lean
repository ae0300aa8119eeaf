import RuntimeTargets.Word

/-!
# Targets

A `Target` is the full set of facts that the architecture-independent parts of
a managed runtime must respect on one processor family.  Every field is
required.  The consumers (`Stack`, `NativeCall`, `Layout`, `ClassSpace`,
`Cell`) read a target and never each other.
-/

namespace RuntimeTargets

/-- The zones at the low end of a thread stack that have a page count. -/
inductive GuardZone where
  | yellow
  | red
  | reserved
  | shadow
  deriving DecidableEq, Repr

/-- One page count for each guard zone. -/
structure GuardPages where
  /-- Overflow into the yellow zone is reported as an exception. -/
  yellow : Word
  /-- Overflow into the red zone is fatal. -/
  red : Word
  /-- Kept back for critical sections; zero where that is not supported. -/
  reserved : Word
  /-- Touched ahead of calls into native code. -/
  shadow : Word
  deriving DecidableEq, Repr

def GuardPages.count (pages : GuardPages) : GuardZone → Word
  | .yellow => pages.yellow
  | .red => pages.red
  | .reserved => pages.reserved
  | .shadow => pages.shadow

/-- Values that runtime flags take on a target when nobody sets them. -/
structure Defaults where
  entryAlignment : Word
  loopAlignment : Word
  segmentSize : Word
  /-- Compiled methods up to this bytecode size are inlined. -/
  inlineLimit : Word
  stackPages : GuardPages
  minStackPages : GuardPages
  deriving DecidableEq, Repr

structure Target where
  name : String
  /-- Bytes in a native pointer. -/
  wordSize : Word
  /-- Bytes in a native instruction word. -/
  instructionSize : Word
  /-- Alignment that calls require of the stack pointer. -/
  stackAlignment : Word
  /-- Native calls take 32-bit integers extended to 64 bits. -/
  widensInts : Bool
  /-- The processor can compare and swap eight bytes at once. -/
  swapsWords : Bool
  /-- Critical sections may keep back a part of the stack. -/
  reservesStack : Bool
  /-- Where the class space should be aligned, if it matters. -/
  classSpaceAlignment : Option Word
  /-- Compressed class pointers are only possible with compressed oops. -/
  classPointersNeedOops : Bool
  defaults : Defaults
  deriving DecidableEq, Repr

end RuntimeTargets
