import RuntimeTargets.Word

/-!
# Narrow class pointers

A class pointer is stored in 32 bits as an offset from a base, scaled down
where the offsets would not fit otherwise.  Which base and scale a class space
gets depends only on where it lies: below `zeroBasedLimit` the base is zero,
and a range below `unscaledLimit` needs no scale.  Both choices make decoding
cheaper, so placement prefers addresses that allow them.
-/

namespace RuntimeTargets.ClassSpace

/-- Binary logarithm of the alignment of class structures. -/
def logClassAlignment : Word := 3

/-- Offsets below this need no scale. -/
def unscaledLimit : Word := (1 : Word) <<< 32

/-- The end of the addresses that 32 scaled bits reach, and the size of the
largest class space. -/
def zeroBasedLimit : Word := unscaledLimit <<< logClassAlignment

/-- The size of a class space that nobody sets. -/
def defaultSize : Word := gibibyte

/-- A class space must hold something and must lie in reach of 32 scaled bits. -/
def Encodable (size : Word) : Prop := size ≠ 0 ∧ size ≤ zeroBasedLimit

instance (size : Word) : Decidable (Encodable size) :=
  inferInstanceAs (Decidable (_ ∧ _))

end RuntimeTargets.ClassSpace

namespace RuntimeTargets

/-- How class pointers into one class space are narrowed. -/
structure ClassEncoding where
  base : Word
  shift : Word
  /-- Encoded addresses lie in this many bytes from the base. -/
  range : Word
  deriving DecidableEq, Repr

namespace ClassEncoding

open ClassSpace

/-- The encoding of a class space of `size` bytes at `address`, where the space
is encodable and does not run past the end of the address space. -/
def ofSpace (address size : Word) : Checked (Option ClassEncoding) :=
  if Encodable size then
    match Word.add? address size with
    | none => .ok none
    | some stop => do
      let base := if stop ≤ zeroBasedLimit then 0 else address
      let range ← Word.sub stop base
      let shift := if range < unscaledLimit then 0 else logClassAlignment
      return some { base, shift, range }
  else
    .ok none

/-- Decoding needs no addition. -/
def IsZeroBased (e : ClassEncoding) : Prop := e.base = 0

instance (e : ClassEncoding) : Decidable e.IsZeroBased :=
  inferInstanceAs (Decidable (_ = _))

/-- The narrow form of `address`, if it lies in the range at a multiple of the
scale from the base. -/
def encode (e : ClassEncoding) (address : Word) : Checked (Option UInt32) :=
  if address < e.base then .ok none
  else do
    let offset := address - e.base
    let mask ← Word.sub ((1 : Word) <<< e.shift) 1
    let scaled := offset >>> e.shift
    return if offset < e.range ∧ offset &&& mask = 0 ∧ scaled < unscaledLimit then
      some scaled.toUInt32
    else
      none

def decode (e : ClassEncoding) (narrow : UInt32) : Checked Word :=
  Word.add e.base (narrow.toUInt64 <<< e.shift)

end ClassEncoding

end RuntimeTargets
