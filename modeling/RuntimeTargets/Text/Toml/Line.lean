import RuntimeTargets.Text.Hex
import RuntimeTargets.Text.Magnitude

/-!
# Lines of a TOML text

The dialect is flat: a line is blank, opens a table, opens an element of an
array of tables, or gives a key its value.  Values fill the rest of a line, so
each line is read on its own.  Arrays and tables written as values are empty.
-/

namespace RuntimeTargets

inductive TomlValue where
  | string (text : String)
  | integer (value : Int)
  | float (text : String)
  | boolean (value : Bool)
  | emptyArray
  | emptyTable
  deriving DecidableEq, Repr

inductive TomlLine where
  | blank
  | table (name : String)
  | element (name : String)
  | pair (key : String) (value : TomlValue)
  deriving DecidableEq, Repr

namespace TomlLine

def isBlank (c : Char) : Bool := c = ' ' || c = '\t'

/-- Control characters other than the tab stand nowhere in a line. -/
def isText (c : Char) : Bool := c = '\t' || (0x20 ≤ c.toNat && c.toNat ≠ 0x7f)

def skipBlanks (text : List Char) : List Char := text.dropWhile isBlank

/-- Only blanks and perhaps a comment are left. -/
def isFinished (text : List Char) : Bool :=
  match skipBlanks text with
  | [] => true
  | '#' :: comment => comment.all isText
  | _ => false

/-! ## Keys and strings -/

/-- What a one-letter escape stands for. -/
def escaped? : Char → Option Char
  | '"' => some '"'
  | '\\' => some '\\'
  | 'b' => some '\x08'
  | 'f' => some '\x0c'
  | 'n' => some '\n'
  | 'r' => some '\r'
  | 't' => some '\t'
  | _ => none

/-- The rest of a string after its opening quote, up to its closing one. -/
def string? : List Char → Option (List Char × List Char)
  | [] => none
  | '"' :: rest => some ([], rest)
  | '\\' :: 'u' :: a :: b :: c :: d :: rest => do
    let char ← Hex.char? (← Hex.number? [a, b, c, d])
    let (chars, rest) ← string? rest
    return (char :: chars, rest)
  | '\\' :: 'U' :: a :: b :: c :: d :: e :: f :: g :: h :: rest => do
    let char ← Hex.char? (← Hex.number? [a, b, c, d, e, f, g, h])
    let (chars, rest) ← string? rest
    return (char :: chars, rest)
  | '\\' :: c :: rest => do
    let char ← escaped? c
    let (chars, rest) ← string? rest
    return (char :: chars, rest)
  | c :: rest =>
    if c ≠ '\\' ∧ isText c then
      (string? rest).map fun (chars, rest) => (c :: chars, rest)
    else
      none

def isBareKey (c : Char) : Bool := c.isAlphanum || c = '_' || c = '-'

/-- A key, bare or quoted, and what follows it. -/
def key? (text : List Char) : Option (String × List Char) :=
  match text with
  | '"' :: rest => (string? rest).map fun (chars, rest) => (String.ofList chars, rest)
  | text =>
    match text.takeWhile isBareKey with
    | [] => none
    | chars => some (String.ofList chars, text.dropWhile isBareKey)

/-! ## Numbers -/

/-- Digits of which single ones may be set apart by underscores. -/
def plainDigits? : List Char → Option (List Char)
  | [c] => if c.isDigit then some [c] else none
  | c :: '_' :: rest => if c.isDigit then (plainDigits? rest).map (c :: ·) else none
  | c :: rest => if c.isDigit then (plainDigits? rest).map (c :: ·) else none
  | [] => none

/-- The digits of a whole number, without a sign or leading zeros. -/
def wholeDigits? (text : List Char) : Option (List Char) := do
  let digits ← plainDigits? text
  if digits.head? = some '0' ∧ digits.length ≠ 1 then none else return digits

/-- A sign apart from what it stands before. -/
def splitSign (text : List Char) : Bool × List Char :=
  match text with
  | '-' :: rest => (true, rest)
  | '+' :: rest => (false, rest)
  | text => (false, text)

/-- An integer of 64 bits with a sign. -/
def integer? (text : List Char) : Option Int := do
  let (negative, rest) := splitSign text
  let size : Int := Nat.ofDigitChars 10 (← wholeDigits? rest) 0
  let value := if negative then -size else size
  if Int64.minValue.toInt ≤ value ∧ value ≤ Int64.maxValue.toInt then return value else none

/-- The size of an exponent, which grows no further once it is 65536. -/
def exponentSize (digits : List Char) : Nat :=
  digits.foldl (fun size c => if size < 65536 then Nat.ofDigitChars 10 [c] size else size) 0

def exponent? (text : List Char) : Option Int := do
  let (negative, rest) := splitSign text
  let size : Int := exponentSize (← plainDigits? rest)
  return if negative then -size else size

/-- What may follow the whole part of a float: a fraction, an exponent or both.
The answer is the digits of the one and the value of the other. -/
def floatTail? (text : List Char) : Option (List Char × Int) :=
  let isMark (c : Char) : Bool := c = 'e' || c = 'E'
  match text with
  | '.' :: rest => do
    let fraction ← plainDigits? (rest.takeWhile (!isMark ·))
    match rest.dropWhile (!isMark ·) with
    | [] => return (fraction, 0)
    | _ :: exponent => return (fraction, ← exponent? exponent)
  | c :: rest => if isMark c then (exponent? rest).map ([], ·) else none
  | [] => none

/-- A float without its sign, as digits and the power of ten that they are
multiplied by. -/
def unsignedFloat? (text : List Char) : Option (List Char × Int) := do
  let isWhole (c : Char) : Bool := c.isDigit || c = '_'
  let whole ← wholeDigits? (text.takeWhile isWhole)
  let (fraction, exponent) ← floatTail? (text.dropWhile isWhole)
  return (whole ++ fraction, exponent - fraction.length)

/-- Floats beyond the doubles are refused above zero only: below it they are
taken for the negative infinity. -/
def isFloat (text : List Char) : Bool :=
  let (negative, rest) := splitSign text
  rest = ['i', 'n', 'f'] || rest = ['n', 'a', 'n'] ||
    (unsignedFloat? rest).any fun (digits, exponent) =>
      negative || !Magnitude.Exceeds digits exponent

/-! ## Values and lines -/

def isScalar (c : Char) : Bool := c.isAlphanum || ['+', '-', '_', '.'].contains c

/-- A literal or a number. -/
def scalar? (text : List Char) : Option TomlValue :=
  if text = ['t', 'r', 'u', 'e'] then some (.boolean true)
  else if text = ['f', 'a', 'l', 's', 'e'] then some (.boolean false)
  else
    match integer? text with
    | some value => some (.integer value)
    | none => if isFloat text then some (.float (String.ofList text)) else none

/-- A value and what follows it. -/
def value? (text : List Char) : Option (TomlValue × List Char) :=
  match text with
  | '"' :: rest =>
    (string? rest).map fun (chars, rest) => (.string (String.ofList chars), rest)
  | '[' :: rest =>
    match skipBlanks rest with
    | ']' :: rest => some (.emptyArray, rest)
    | _ => none
  | '{' :: rest =>
    match skipBlanks rest with
    | '}' :: rest => some (.emptyTable, rest)
    | _ => none
  | text => (scalar? (text.takeWhile isScalar)).map (·, text.dropWhile isScalar)

/-- The name in a header, between blanks and before `closing`. -/
def header? (closing text : List Char) : Option String := do
  let (name, rest) ← key? (skipBlanks text)
  let rest := skipBlanks rest
  if closing.isPrefixOf rest ∧ isFinished (rest.drop closing.length) then return name
  else none

def pair? (text : List Char) : Option TomlLine := do
  let (key, rest) ← key? text
  match skipBlanks rest with
  | '=' :: rest =>
    let (value, rest) ← value? (skipBlanks rest)
    if isFinished rest then return .pair key value else none
  | _ => none

/-- Read one line, without its end. -/
def ofChars? (text : List Char) : Option TomlLine :=
  if isFinished text then some .blank
  else
    match skipBlanks text with
    | '[' :: '[' :: rest => (header? [']', ']'] rest).map .element
    | '[' :: rest => (header? [']'] rest).map .table
    | text => pair? text

end TomlLine

end RuntimeTargets
