/-!
# Machine words

Sizes, counts and addresses are 64-bit words.  A sum, difference or product
that leaves the words is a fault, never a wrapped value, so every operation
that can overflow says so in its type.  The bounds are stated on natural
numbers, where `omega` can use them.
-/

namespace RuntimeTargets

abbrev Word := UInt64

/-- What went wrong in arithmetic on words. -/
inductive ArithmeticFault where
  | addition
  | subtraction
  | multiplication
  | remainder
  deriving DecidableEq, Repr

def ArithmeticFault.message : ArithmeticFault → String
  | .addition => "attempt to add with overflow"
  | .subtraction => "attempt to subtract with overflow"
  | .multiplication => "attempt to multiply with overflow"
  | .remainder => "attempt to calculate the remainder with a divisor of zero"

/-- Why an operation has no value: its arithmetic left the words, or a rule of
its own refused the arguments. -/
inductive Failure (ε : Type) where
  | fault (cause : ArithmeticFault)
  | refusal (reason : ε)
  deriving DecidableEq, Repr

/-- Arithmetic on words, which only ever fails by a fault. -/
abbrev Checked (α : Type) := Except ArithmeticFault α

/-- A computation that may also be refused for a reason in `ε`. -/
abbrev Outcome (ε α : Type) := Except (Failure ε) α

/-- Refuse the arguments of a computation. -/
def refuse {ε α : Type} (reason : ε) : Outcome ε α := .error (.refusal reason)

/-- Arithmetic may be used wherever a reason for refusal is possible. -/
def Checked.toOutcome {ε α : Type} (c : Checked α) : Outcome ε α :=
  c.mapError .fault

instance {ε : Type} : MonadLift (Except ArithmeticFault) (Except (Failure ε)) where
  monadLift := Checked.toOutcome

namespace Word

def add (a b : Word) : Checked Word :=
  if a.toNat + b.toNat < UInt64.size then .ok (a + b) else .error .addition

def sub (a b : Word) : Checked Word :=
  if b.toNat ≤ a.toNat then .ok (a - b) else .error .subtraction

def mul (a b : Word) : Checked Word :=
  if a.toNat * b.toNat < UInt64.size then .ok (a * b) else .error .multiplication

def rem (a b : Word) : Checked Word :=
  if b.toNat = 0 then .error .remainder else .ok (a % b)

/-- The sum where it is a word. -/
def add? (a b : Word) : Option Word :=
  if a.toNat + b.toNat < UInt64.size then some (a + b) else none

/-- The product where it is a word. -/
def mul? (a b : Word) : Option Word :=
  if a.toNat * b.toNat < UInt64.size then some (a * b) else none

def greatest : Word := 0xffffffffffffffff

/-- The sum, held at the greatest word. -/
def addSaturating (a b : Word) : Word := (add? a b).getD greatest

/-- The difference, held at zero. -/
def subSaturating (a b : Word) : Word := if b ≤ a then a - b else 0

abbrev IsPowerOfTwo (a : Word) : Prop := a.toNat.isPowerOfTwo

def decimal (a : Word) : String := a.toNat.repr

/-- Base sixteen in lower case, marked by `0x`. -/
def hexadecimal (a : Word) : String :=
  "0x" ++ String.ofList (Nat.toDigits 16 a.toNat)

end Word

/-! ## Sizes -/

def kibibyte : Word := 1024
def mebibyte : Word := kibibyte * kibibyte
def gibibyte : Word := mebibyte * kibibyte

end RuntimeTargets
