/-!
# Base sixteen

Bytes are written by two digits each.  String notations name a character by four
digits.  The number they make is a 16-bit unit: a character of its own, or one
half of a pair that names a character beyond the first 65536.
-/

namespace RuntimeTargets.Hex

/-! ## Bytes -/

def digitsOfByte (byte : UInt8) : List Char :=
  [Nat.digitChar (byte.toNat / 16), Nat.digitChar (byte.toNat % 16)]

/-- Bytes in lower-case digits. -/
def encode (bytes : ByteArray) : String := String.ofList (bytes.data.toList.flatMap digitsOfByte)

/-! ## Escapes -/

/-- The value of a base sixteen digit of either case. -/
def digit? (c : Char) : Option Nat :=
  if c.isDigit then some (c.toNat - '0'.toNat)
  else if 'a' ≤ c ∧ c ≤ 'f' then some (c.toNat - 'a'.toNat + 10)
  else if 'A' ≤ c ∧ c ≤ 'F' then some (c.toNat - 'A'.toNat + 10)
  else none

/-- A lower-case digit has the value that it was written for. -/
theorem digit?_digitChar {n : Nat} (hn : n < 16) : digit? (Nat.digitChar n) = some n := by
  revert n
  decide

/-- The number that some digits name, the first digit counting most. -/
def number? (digits : List Char) : Option Nat :=
  digits.foldlM (fun n c => (digit? c).map (16 * n + ·)) 0

/-- The first half of a pair. -/
def IsHighHalf (unit : Nat) : Prop := 0xd800 ≤ unit ∧ unit < 0xdc00

instance (unit : Nat) : Decidable (IsHighHalf unit) := inferInstanceAs (Decidable (_ ∧ _))

/-- The second half of a pair. -/
def IsLowHalf (unit : Nat) : Prop := 0xdc00 ≤ unit ∧ unit < 0xe000

instance (unit : Nat) : Decidable (IsLowHalf unit) := inferInstanceAs (Decidable (_ ∧ _))

/-- The character that two halves name together. -/
def pair (high low : Nat) : Char :=
  Char.ofNat (0x10000 + (high - 0xd800) * 0x400 + (low - 0xdc00))

/-- The character with a number, if there is one. -/
def char? (n : Nat) : Option Char :=
  if n.isValidChar then some (Char.ofNat n) else none

end RuntimeTargets.Hex
