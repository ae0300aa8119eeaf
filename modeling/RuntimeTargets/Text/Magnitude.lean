/-!
# Numbers too large for a double

A written number may be of any size, and readers refuse those that would have
to be rounded beyond the doubles.  `Exceeds` decides this exactly, from the
digits; the numbers that it compares are no longer than the text, whatever the
exponent says.
-/

namespace RuntimeTargets.Magnitude

/-- The nearest number with 53 significant bits, the even one of two. -/
def roundToDouble (n : Nat) : Nat :=
  if n < Nat.pow 2 53 then n
  else
    let unit := Nat.pow 2 (n.log2 - 52)
    let quotient := n / unit
    let excess := n % unit
    if unit < 2 * excess ∨ (unit = 2 * excess ∧ quotient % 2 = 1) then (quotient + 1) * unit
    else quotient * unit

/-- The least number that rounds beyond the doubles. -/
def doubleLimit : Nat := Nat.pow 2 1024 - Nat.pow 2 970

/-- Decimal digits of `doubleLimit`. -/
def limitPlaces : Nat := 309

/-- The whole number with these digits, times a power of ten, rounds beyond the
doubles.  How many places it has before its point settles all but the numbers
with as many places as `doubleLimit`, and those are compared with it in full. -/
def Exceeds (digits : List Char) (exponent : Int) : Prop :=
  let significant := digits.dropWhile (· = '0')
  let count := significant.length
  let places : Int := count + exponent
  significant ≠ [] ∧
    (limitPlaces < places ∨
      (places = limitPlaces ∧
        doubleLimit * Nat.pow 10 (count - limitPlaces) ≤
          Nat.ofDigitChars 10 significant 0 * Nat.pow 10 (limitPlaces - count)))

instance (digits : List Char) (exponent : Int) : Decidable (Exceeds digits exponent) :=
  inferInstanceAs (Decidable (_ ∧ (_ ∨ (_ ∧ _))))

end RuntimeTargets.Magnitude
