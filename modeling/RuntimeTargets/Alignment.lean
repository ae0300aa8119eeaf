import RuntimeTargets.Word

/-!
# Rounding to an alignment

Addresses and areas are rounded by clearing the low bits of a word.  On a
power of two this is rounding to a multiple; on any other alignment the mask is
still well defined, so the functions are total in both arguments apart from the
faults of their arithmetic.  `roundUp` adds the whole alignment before it takes
one away again, so near the end of the address space it faults where
`roundUp?` merely has no value or still has one.
-/

namespace RuntimeTargets.Alignment

/-- Clear the bits of `value` that are set in `mask`. -/
def clearBits (value mask : Word) : Word := value &&& ~~~mask

/-- The least multiple of `alignment` not below `value`. -/
def roundUp (value alignment : Word) : Checked Word := do
  let raised ← Word.add value alignment
  let raised ← Word.sub raised 1
  let mask ← Word.sub alignment 1
  return clearBits raised mask

/-- `roundUp` where the rounded value is a word, and `none` where it is not. -/
def roundUp? (value alignment : Word) : Checked (Option Word) := do
  let mask ← Word.sub alignment 1
  return (Word.add? value mask).map (clearBits · mask)

/-- The greatest multiple of `alignment` not above `value`. -/
def roundDown (value alignment : Word) : Checked Word := do
  let mask ← Word.sub alignment 1
  return clearBits value mask

end RuntimeTargets.Alignment
