import RuntimeTargets.Text.Hex
import RuntimeTargets.Text.Json.Number
import RuntimeTargets.Text.Json.Printer

/-!
# JSON tokens

A text is cut into tokens before its structure is looked at.  The scanner takes
one character at a time and remembers only which token it is in the middle of,
so scanning a text is one step function folded over its characters.
-/

namespace RuntimeTargets

inductive JsonToken where
  | openArray
  | closeArray
  | openObject
  | closeObject
  | colon
  | comma
  /-- A string, number or literal. -/
  | scalar (value : Json)

/-- What the scanner is in the middle of.  The characters read of a token are
kept with the last one first. -/
inductive JsonScanState where
  | between
  /-- In a literal or a number. -/
  | bare (chars : List Char)
  /-- In a string. -/
  | inside (chars : List Char)
  /-- In a string, after a backslash. -/
  | escape (chars : List Char)
  /-- In a string, in the digits of a unit.  The half of a pair that came before
  is remembered. -/
  | unit (chars : List Char) (high : Option Nat) (digits : List Char)
  /-- In a string, where the second half of a pair must be written. -/
  | half (chars : List Char) (high : Nat)
  /-- The same, after the backslash. -/
  | halfEscape (chars : List Char) (high : Nat)
  deriving DecidableEq, Repr

/-- The tokens that have been read, the last one first, and the one that is not
finished yet. -/
structure JsonScan where
  tokens : List JsonToken
  state : JsonScanState

namespace JsonToken

def isBlank (c : Char) : Bool := c = ' ' || c = '\n' || c = '\r' || c = '\t'

/-- The token that a single character makes. -/
def ofChar? : Char → Option JsonToken
  | '[' => some .openArray
  | ']' => some .closeArray
  | '{' => some .openObject
  | '}' => some .closeObject
  | ':' => some .colon
  | ',' => some .comma
  | _ => none

/-- Characters of literals and numbers. -/
def isBare (c : Char) : Bool := c.isAlphanum || c = '-' || c = '+' || c = '.'

/-- The value of a literal or a number. -/
def bare? (chars : List Char) : Option Json :=
  if chars = Json.writeNull then some .null
  else if chars = Json.writeBoolean true then some (.boolean true)
  else if chars = Json.writeBoolean false then some (.boolean false)
  else (JsonNumber.ofChars? chars).map .number

/-- What a one-letter escape stands for. -/
def escaped? : Char → Option Char
  | '"' => some '"'
  | '\\' => some '\\'
  | '/' => some '/'
  | 'b' => some '\x08'
  | 'f' => some '\x0c'
  | 'n' => some '\n'
  | 'r' => some '\r'
  | 't' => some '\t'
  | _ => none

end JsonToken

namespace JsonScan

open JsonToken

def start : JsonScan := ⟨[], .between⟩

/-- Finish a token and look for the next one. -/
def push (s : JsonScan) (token : JsonToken) : JsonScan := ⟨token :: s.tokens, .between⟩

/-- Read a character that belongs to no token yet. -/
def begin? (s : JsonScan) (c : Char) : Option JsonScan :=
  if isBlank c then some s
  else if c = '"' then some { s with state := .inside [] }
  else if isBare c then some { s with state := .bare [c] }
  else (ofChar? c).map s.push

/-- Finish a literal or a number. -/
def endBare? (s : JsonScan) (chars : List Char) : Option JsonScan :=
  (bare? chars.reverse).map fun value => s.push (.scalar value)

/-- Go on in a string after all digits of a unit are read. -/
def endUnit? (chars : List Char) (high : Option Nat) (digits : List Char) :
    Option JsonScanState := do
  let unit ← Hex.number? digits.reverse
  match high with
  | some high =>
    if Hex.IsLowHalf unit then return .inside (Hex.pair high unit :: chars) else none
  | none =>
    if Hex.IsHighHalf unit then return .half chars unit
    else return .inside ((← Hex.char? unit) :: chars)

/-- Read one character. -/
def step (s : JsonScan) (c : Char) : Option JsonScan :=
  match s.state with
  | .between => s.begin? c
  | .bare chars =>
    if isBare c then some { s with state := .bare (c :: chars) }
    else (s.endBare? chars).bind (·.begin? c)
  | .inside chars =>
    if c = '"' then some (s.push (.scalar (.string (String.ofList chars.reverse))))
    else if c = '\\' then some { s with state := .escape chars }
    else if c.toNat < 0x20 then none
    else some { s with state := .inside (c :: chars) }
  | .escape chars =>
    if c = 'u' then some { s with state := .unit chars none [] }
    else (escaped? c).map fun char => { s with state := .inside (char :: chars) }
  | .unit chars high digits =>
    if digits.length < 3 then some { s with state := .unit chars high (c :: digits) }
    else (endUnit? chars high (c :: digits)).map fun state => { s with state }
  | .half chars high =>
    if c = '\\' then some { s with state := .halfEscape chars high } else none
  | .halfEscape chars high =>
    if c = 'u' then some { s with state := .unit chars (some high) [] } else none

/-- All tokens, if the text may end here. -/
def finish? (s : JsonScan) : Option (List JsonToken) :=
  match s.state with
  | .between => some s.tokens.reverse
  | .bare chars => (s.endBare? chars).map fun s => s.tokens.reverse
  | _ => none

end JsonScan

namespace JsonToken

/-- The tokens of a text. -/
def ofChars? (text : List Char) : Option (List JsonToken) := do
  (← text.foldlM JsonScan.step .start).finish?

end JsonToken

end RuntimeTargets
