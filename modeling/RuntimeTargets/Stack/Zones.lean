import RuntimeTargets.Span
import RuntimeTargets.Stack.Guard

/-!
# Zones of a thread stack

A stack grows down from its base.  Its guard zones lie at the low end, each
starting where the one below it stops, and what is left up to the base is
usable:

    end                                                          base
    | red | yellow | reserved | usable .............................|

The reserved zone is there only if its page count is not zero.  Code that walks
the zones must ask for it and be ready to get none.
-/

namespace RuntimeTargets

/-- The zones of one thread stack. -/
structure StackZones where
  base : Word
  /-- The lowest address of the stack. -/
  bottom : Word
  red : Span
  yellow : Span
  reserved : Option Span
  /-- The lowest stack pointer from which the shadow pages can be touched
  without leaving the usable part. -/
  shadowSafeLimit : Word
  deriving DecidableEq, Repr

/-- The part of a stack that an address falls into. -/
inductive StackRegion where
  | red
  | yellow
  | reserved
  | usable
  | outside
  deriving DecidableEq, Repr

namespace StackGuard

/-- Bytes of the zones above the end of a stack, first without the shadow
pages and then with them; no value where they are not words. -/
def zoneBytes? (guard : StackGuard) (pageSize : Word) : Checked (Option (Word × Word)) := do
  let guarded ← guard.guardBytes? pageSize
  return do
    let guarded ← guarded
    let shadow ← guard.shadowBytes? pageSize
    let needed ← Word.add? guarded shadow
    return (guarded, needed)

/-- The zones from the bottom up, where those below the usable part take `guarded`
bytes, and `needed` with the shadow pages. -/
def layOut (guard : StackGuard) (base size pageSize guarded needed : Word) :
    Checked StackZones := do
  let bottom ← Word.sub base size
  let redTop ← Word.add bottom (← Word.mul guard.pages.red pageSize)
  let yellowTop ← Word.add redTop (← Word.mul guard.pages.yellow pageSize)
  let reservedTop ← Word.add bottom guarded
  let shadowSafeLimit ← Word.add bottom needed
  return {
    base
    bottom
    red := ⟨bottom, redTop⟩
    yellow := ⟨redTop, yellowTop⟩
    reserved := if guard.HasReserved then some ⟨yellowTop, reservedTop⟩ else none
    shadowSafeLimit }

/-- Lay the zones out once their sizes are known, if they are words and there is room. -/
def zonesOfBytes (guard : StackGuard) (base size pageSize : Word) :
    Option (Word × Word) → Outcome StackError StackZones
  | none => refuse (.pageSize pageSize)
  | some (guarded, needed) =>
    if size < needed ∨ base < size then
      refuse (.stackTooSmall size needed)
    else
      guard.layOut base size pageSize guarded needed

/-- Lay the zones out on the `size` bytes below `base`. -/
def zones (guard : StackGuard) (base size pageSize : Word) :
    Outcome StackError StackZones := do
  if ¬ Word.IsPowerOfTwo pageSize then
    refuse (.pageSize pageSize)
  else
    let overhang ← Word.rem base pageSize
    if overhang ≠ 0 then
      refuse (.unalignedBase base)
    else
      let sizes ← guard.zoneBytes? pageSize
      guard.zonesOfBytes base size pageSize sizes

end StackGuard

namespace StackZones

/-- The addresses that ordinary frames may use. -/
def usable (z : StackZones) : Span :=
  ⟨(z.reserved.getD z.yellow).stop, z.base⟩

def classify (z : StackZones) (address : Word) : StackRegion :=
  if address < z.bottom ∨ z.base ≤ address then .outside
  else if address ∈ z.red then .red
  else if address ∈ z.yellow then .yellow
  else if z.reserved.any fun zone => address ∈ zone then .reserved
  else .usable

end StackZones

end RuntimeTargets
