import RuntimeTargets.ClassSpace.Placement
import RuntimeTargets.Span

/-!
# An address space

A plain model of the memory that class spaces are reserved in: which ranges
exist, and which of them are taken.  It is the reservation routine to use when
there is no operating system to ask.
-/

namespace RuntimeTargets

structure AddressSpace where
  /-- The ranges that may be reserved; everything may where there is no list. -/
  free : Option (List Span)
  /-- The ranges reserved so far, the latest first. -/
  taken : List Span
  deriving DecidableEq, Repr

namespace AddressSpace

/-- The span lies in one free range and apart from all that was taken. -/
def Admits (space : AddressSpace) (s : Span) : Prop :=
  (space.free.all fun ranges => ranges.any fun range => s.Within range) ∧
    ∀ other ∈ space.taken, s.Apart other

instance (space : AddressSpace) (s : Span) : Decidable (space.Admits s) :=
  inferInstanceAs (Decidable (_ ∧ _))

def reserve : Reserve AddressSpace := fun space address size =>
  let s := Span.ofSize address size
  if space.Admits s then (true, { space with taken := s :: space.taken })
  else (false, space)

end AddressSpace

/-- A routine that declines its first offers whatever they are, and behaves as
`reserve` after that. -/
def Reserve.decliningFirst {σ : Type} (reserve : Reserve σ) : Reserve (Nat × σ) :=
  fun (left, state) address size =>
    match left with
    | 0 =>
      let (taken, state) := reserve state address size
      (taken, 0, state)
    | left + 1 => (false, left, state)

end RuntimeTargets
