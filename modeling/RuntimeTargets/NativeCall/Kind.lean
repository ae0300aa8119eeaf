/-!
# Kinds of values

What a managed runtime passes to methods.  A method's own arguments are counted
in expression stack slots; the long kinds take two of them.
-/

namespace RuntimeTargets

inductive ValueKind where
  | boolean
  | char
  | float
  | double
  | byte
  | short
  | int
  | long
  | object
  | array
  | address
  | void
  deriving DecidableEq, Repr

namespace ValueKind

/-- Expression stack slots of a value. -/
def slots : ValueKind → Nat
  | .long | .double => 2
  | .void => 0
  | _ => 1

/-- Integers narrower than a long. -/
def isSubwordInt : ValueKind → Bool
  | .boolean | .char | .byte | .short | .int => true
  | _ => false

def isReference : ValueKind → Bool
  | .object | .array | .address => true
  | _ => false

end ValueKind

end RuntimeTargets
