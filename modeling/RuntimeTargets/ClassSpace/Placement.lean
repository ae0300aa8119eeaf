import RuntimeTargets.ClassSpace.Candidates
import RuntimeTargets.Journal

/-!
# Placing a class space

Placement offers candidate addresses to a reservation routine until it takes
one.  The routine is arbitrary: it answers from a state of its own, so its
answers may depend on everything it was asked before.  What was offered, and
what was answered, is part of the result.
-/

namespace RuntimeTargets

/-- Reserve `size` bytes at an address, or decline to. -/
abbrev Reserve (σ : Type) := σ → (address size : Word) → Bool × σ

/-- One range that was offered, and whether it was taken. -/
structure Offer where
  address : Word
  size : Word
  taken : Bool
  deriving DecidableEq, Repr

/-- `reserve`, keeping the offers made so far, the latest first. -/
def Reserve.recording {σ : Type} (reserve : Reserve σ) : Reserve (σ × List Offer) :=
  fun (state, offers) address size =>
    let (taken, state) := reserve state address size
    (taken, state, ⟨address, size, taken⟩ :: offers)

/-- The outcome of a placement. -/
structure Placement (σ : Type) where
  encoding : Option ClassEncoding
  /-- The state in which the reservation routine was left. -/
  state : σ
  /-- The offers in the order in which they were made. -/
  offers : List Offer
  journal : Journal

namespace ClassSpace

/-- Offer each address that has an encoding, until one is taken. -/
def search {σ : Type} (reserve : Reserve σ) (size : Word) (candidates : Candidates)
    (state : σ) : Checked (Option ClassEncoding × σ) :=
  match _h : candidates.advance with
  | (none, _) => .ok (none, state)
  | (some address, rest) =>
    match ClassEncoding.ofSpace address size with
    | .error fault => .error fault
    | .ok none => search reserve size rest state
    | .ok (some encoding) =>
      match reserve state address size with
      | (true, state) => .ok (some encoding, state)
      | (false, state) => search reserve size rest state
termination_by candidates.remaining
decreasing_by all_goals exact Candidates.remaining_advance_lt _h

/-- What the journal says of an offer made for the target `name`. -/
def offerEntry (name : String) (offer : Offer) : Entry :=
  let place := "class space at " ++ Word.hexadecimal offer.address
  if offer.taken then
    .about .debug name (place ++ " (+" ++ Word.hexadecimal offer.size ++ ")")
  else
    .about .trace name (place ++ " unavailable")

def sizeEntry (name : String) (size : Word) : Entry :=
  .about .warning name
    ("class space size " ++ Word.hexadecimal size ++ " cannot be encoded")

/-- Reserve a class space of `size` bytes and derive its encoding.  Only ranges
that an encoding covers are offered, and none at all if `size` is not
encodable. -/
def place {σ : Type} (t : Target) (requested size : Word) (reserve : Reserve σ)
    (state : σ) : Checked (Placement σ) :=
  if Encodable size then do
    let candidates ← Candidates.ofTarget t requested size
    let (encoding, state, offers) ← search reserve.recording size candidates (state, [])
    let offers := offers.reverse
    return { encoding, state, offers, journal := offers.map (offerEntry t.name) }
  else
    .ok { encoding := none, state, offers := [], journal := [sizeEntry t.name size] }

end ClassSpace

end RuntimeTargets
