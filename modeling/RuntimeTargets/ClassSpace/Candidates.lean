import RuntimeTargets.Alignment
import RuntimeTargets.ClassSpace.Encoding
import RuntimeTargets.Target.Basic

/-!
# Where to try a class space

`Candidates` is a walk over base addresses, in the order in which they should
be tried.  It is a state that is advanced, not a list: with a small alignment
the addresses below `searchLimit` are far too many to write down.  `remaining`
bounds the steps that are left, which is why every walk ends.
-/

namespace RuntimeTargets

/-- Aligned bases are not searched at or above this address. -/
def ClassSpace.searchLimit : Word := 1024 * gibibyte

structure Candidates where
  /-- Tried before the walk, when present. -/
  detour : Option Word
  /-- The walk's next address. -/
  position : Word
  /-- Bytes from one address of the walk to the next; zero where there is no
  walk at all. -/
  stride : Word
  deriving DecidableEq, Repr

namespace Candidates

open ClassSpace

/-- Addresses at which to try a class space of `size` bytes.

A target without a preferred alignment takes `requested` as it is.  With one,
`requested` comes first if the space would end below `unscaledLimit`, where
pointers need neither base nor scale; then follow the aligned addresses from
`requested` upward.  There are none if `requested` cannot be rounded up. -/
def ofTarget (t : Target) (requested size : Word) : Checked Candidates :=
  match t.classSpaceAlignment with
  | none => .ok { detour := some requested, position := 0, stride := 0 }
  | some alignment => do
    let aligned ← Alignment.roundUp? requested alignment
    let low := Word.addSaturating requested size < unscaledLimit
    return {
      -- an aligned request is the first address of the walk already
      detour := if low ∧ aligned ≠ some requested then some requested else none
      position := aligned.getD searchLimit
      stride := alignment }

/-- The next address, and the walk after it.  From the end of the zero-based
addresses on, a short stride is lengthened: every base there costs the same. -/
def advance (c : Candidates) : Option Word × Candidates :=
  match c.detour with
  | some address => (some address, { c with detour := none })
  | none =>
    if c.stride = 0 ∨ searchLimit ≤ c.position then
      (none, c)
    else
      let stride :=
        if c.position = zeroBasedLimit ∧ c.stride < unscaledLimit then unscaledLimit
        else c.stride
      (some c.position,
        { c with position := Word.addSaturating c.position stride, stride })

/-- No walk has more steps left than this. -/
def remaining (c : Candidates) : Nat :=
  (if c.detour.isSome then 1 else 0) +
    if c.stride = 0 then 0 else searchLimit.toNat - c.position.toNat

theorem lt_addSaturating {position stride : Word} (hstride : stride ≠ 0)
    (hposition : position < searchLimit) :
    position.toNat < (Word.addSaturating position stride).toNat := by
  have hpositive : 0 < stride.toNat := by
    rcases Nat.eq_zero_or_pos stride.toNat with hzero | hpos
    · exact absurd (UInt64.toNat_inj.1 hzero) hstride
    · exact hpos
  have hbelow : position.toNat < searchLimit.toNat := hposition
  have hlimit : searchLimit.toNat < UInt64.size - 1 := by decide
  unfold Word.addSaturating Word.add?
  split
  · rename_i hfits
    simp only [Option.getD_some, UInt64.toNat_add]
    rw [Nat.mod_eq_of_lt hfits]
    omega
  · have : Word.greatest.toNat = UInt64.size - 1 := by decide
    simp only [Option.getD_none]
    omega

/-- Each address costs at least one of the steps that are left. -/
theorem remaining_advance_lt {c rest : Candidates} {address : Word}
    (hadvance : c.advance = (some address, rest)) : rest.remaining < c.remaining := by
  unfold advance at hadvance
  split at hadvance
  · rename_i detour hdetour
    cases hadvance
    simp [remaining, hdetour]
  · rename_i hdetour
    split at hadvance
    · cases hadvance
    · rename_i hwalking
      obtain ⟨hstride, hposition⟩ := not_or.1 hwalking
      have hposition : c.position < searchLimit := UInt64.not_le.1 hposition
      cases hadvance
      generalize hnew :
        (if c.position = zeroBasedLimit ∧ c.stride < unscaledLimit then unscaledLimit
          else c.stride) = stride
      have hne : stride ≠ 0 := by
        rw [← hnew]
        split
        · decide
        · exact hstride
      have hgrows := lt_addSaturating hne hposition
      have hbelow : c.position.toNat < searchLimit.toNat := hposition
      simp only [remaining, hdetour, hstride, hne, Option.isSome_none, if_false]
      omega

/-- Every address of the walk, in order. -/
def toList (c : Candidates) : List Word :=
  match _h : c.advance with
  | (none, _) => []
  | (some address, rest) => address :: rest.toList
termination_by c.remaining
decreasing_by exact remaining_advance_lt _h

/-- The first `count` addresses, and the walk after them. -/
def split (c : Candidates) : Nat → List Word × Candidates
  | 0 => ([], c)
  | count + 1 =>
    match c.advance with
    | (none, rest) => ([], rest)
    | (some address, rest) =>
      let (addresses, rest) := rest.split count
      (address :: addresses, rest)

end Candidates

end RuntimeTargets
