import RuntimeTargets.Text.Json.Basic
import RuntimeTargets.Text.Magnitude

/-!
# Reading JSON numbers

A number has a sign, whole digits without leading zeros, and perhaps a fraction
and an exponent.  Numbers that are not words are kept as text, but one whose
magnitude is beyond the doubles is refused.  The magnitude is judged from a
significand of one word and a power of ten, each rounded to a double before
they are multiplied.
-/

namespace RuntimeTargets

/-- The parts of a written number. -/
structure NumberParts where
  negative : Bool
  whole : List Char
  fraction : List Char
  exponent : Int
  /-- Neither a fraction nor an exponent is written. -/
  isWhole : Bool
  deriving DecidableEq, Repr

/-! ## Magnitude -/

namespace Magnitude

/-- Take digits into a significand while it stays a word.  Also answers how many
digits were taken. -/
def collect (significand : Nat) : List Char → Nat × Nat
  | [] => (significand, 0)
  | c :: cs =>
    let larger := Nat.ofDigitChars 10 [c] significand
    if larger < UInt64.size then
      let (result, taken) := collect larger cs
      (result, taken + 1)
    else
      (significand, 0)

/-- The product of the two, each rounded, is beyond the doubles: `significand`
and the power of ten with `exponent`. -/
def Overflows (significand : Nat) (exponent : Int) : Prop :=
  significand ≠ 0 ∧ 0 ≤ exponent ∧
    (308 < exponent ∨
      doubleLimit ≤ roundToDouble significand * roundToDouble (Nat.pow 10 exponent.toNat))

instance (significand : Nat) (exponent : Int) : Decidable (Overflows significand exponent) :=
  inferInstanceAs (Decidable (_ ∧ _ ∧ _))

end Magnitude

namespace NumberParts

/-- Whole digits that do not fit the significand raise the exponent, digits of
the fraction that do lower it. -/
def Overflows (n : NumberParts) : Prop :=
  let (significand, taken) := Magnitude.collect 0 n.whole
  let (significand, fractionTaken) := Magnitude.collect significand n.fraction
  Magnitude.Overflows significand
    (n.exponent + (n.whole.length - taken : Nat) - fractionTaken)

instance (n : NumberParts) : Decidable n.Overflows :=
  inferInstanceAs (Decidable (Magnitude.Overflows _ _))

/-! ## Reading -/

/-- The digits at the start of a text, and what follows them. -/
def spanDigits (text : List Char) : List Char × List Char :=
  (text.takeWhile Char.isDigit, text.dropWhile Char.isDigit)

/-- At least one digit. -/
def someDigits? (text : List Char) : Option (List Char × List Char) :=
  match spanDigits text with
  | ([], _) => none
  | (digits, rest) => some (digits, rest)

/-- Whole digits: a zero stands alone. -/
def whole? (text : List Char) : Option (List Char × List Char) :=
  match text with
  | '0' :: rest => some (['0'], rest)
  | text => someDigits? text

/-- The digits after a point, or nothing. -/
def fraction? (text : List Char) : Option (List Char × List Char) :=
  match text with
  | '.' :: rest => someDigits? rest
  | text => some ([], text)

def sign (text : List Char) : Bool × List Char :=
  match text with
  | '-' :: rest => (true, rest)
  | '+' :: rest => (false, rest)
  | text => (false, text)

/-- An exponent that takes all of the text, or nothing. -/
def exponent? (text : List Char) : Option Int :=
  match text with
  | [] => some 0
  | c :: rest =>
    if c = 'e' ∨ c = 'E' then
      let (negative, rest) := sign rest
      match someDigits? rest with
      | some (digits, []) =>
        let size : Int := Nat.ofDigitChars 10 digits 0
        some (if negative then -size else size)
      | _ => none
    else
      none

/-- The parts of a text that is a number and nothing else. -/
def ofChars? (text : List Char) : Option NumberParts := do
  let (negative, rest) :=
    match text with
    | '-' :: rest => (true, rest)
    | text => (false, text)
  let (whole, rest) ← whole? rest
  let (fraction, last) ← fraction? rest
  let exponent ← exponent? last
  return { negative, whole, fraction, exponent, isWhole := rest.isEmpty }

end NumberParts

namespace JsonNumber

/-- Read a number: a word where it is written as one. -/
def ofChars? (text : List Char) : Option JsonNumber := do
  let parts ← NumberParts.ofChars? text
  let value := Nat.ofDigitChars 10 parts.whole 0
  if parts.isWhole ∧ ¬ parts.negative ∧ value < UInt64.size then
    return .word value.toUInt64
  else if parts.Overflows then
    none
  else
    return .other (String.ofList text)

end JsonNumber

end RuntimeTargets
