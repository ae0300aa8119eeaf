import RuntimeTargets.Text.Json.Basic

/-!
# Writing JSON

Two written forms: `compact` leaves out every blank, `pretty` puts each item
and member on a line of its own, two columns further in for each level.  Only
the quote, the backslash and control characters are escaped in strings.
-/

namespace RuntimeTargets.Json

/-- The two lower-case base sixteen digits of a character below 256. -/
def hexPair (c : Char) : List Char :=
  [Nat.digitChar (c.toNat / 16), Nat.digitChar (c.toNat % 16)]

def escape (c : Char) : List Char :=
  match c with
  | '"' => ['\\', '"']
  | '\\' => ['\\', '\\']
  | '\x08' => ['\\', 'b']
  | '\x0c' => ['\\', 'f']
  | '\n' => ['\\', 'n']
  | '\r' => ['\\', 'r']
  | '\t' => ['\\', 't']
  | c => if c.toNat < 0x20 then ['\\', 'u', '0', '0'] ++ hexPair c else [c]

def quote (text : String) : List Char :=
  '"' :: text.toList.flatMap escape ++ ['"']

def writeNumber : JsonNumber → List Char
  | .word value => Nat.toDigits 10 value.toNat
  | .other text => text.toList

def writeBoolean (value : Bool) : List Char :=
  if value then ['t', 'r', 'u', 'e'] else ['f', 'a', 'l', 's', 'e']

def writeNull : List Char := ['n', 'u', 'l', 'l']

mutual

def compactChars : Json → List Char
  | .null => writeNull
  | .boolean value => writeBoolean value
  | .number value => writeNumber value
  | .string text => quote text
  | .array items => '[' :: compactItems items
  | .object members => '{' :: compactMembers members

/-- The items of an array, each with the comma or bracket after it. -/
def compactItems : List Json → List Char
  | [] => [']']
  | [item] => compactChars item ++ [']']
  | item :: items => compactChars item ++ ',' :: compactItems items

/-- The members of an object, each with the comma or brace after it. -/
def compactMembers : List (String × Json) → List Char
  | [] => ['}']
  | [(name, value)] => quote name ++ ':' :: compactChars value ++ ['}']
  | (name, value) :: members =>
    quote name ++ ':' :: compactChars value ++ ',' :: compactMembers members

end

/-- A new line at a depth of nesting. -/
def newLine (depth : Nat) : List Char := '\n' :: List.replicate (2 * depth) ' '

mutual

/-- The pretty form of a value that stands at a depth of nesting. -/
def prettyChars (depth : Nat) : Json → List Char
  | .null => writeNull
  | .boolean value => writeBoolean value
  | .number value => writeNumber value
  | .string text => quote text
  | .array [] => ['[', ']']
  | .array items => '[' :: prettyItems depth items
  | .object [] => ['{', '}']
  | .object members => '{' :: prettyMembers depth members

def prettyItems (depth : Nat) : List Json → List Char
  | [] => []
  | [item] => newLine (depth + 1) ++ prettyChars (depth + 1) item ++ newLine depth ++ [']']
  | item :: items =>
    newLine (depth + 1) ++ prettyChars (depth + 1) item ++ ',' :: prettyItems depth items

def prettyMembers (depth : Nat) : List (String × Json) → List Char
  | [] => []
  | [(name, value)] =>
    newLine (depth + 1) ++ quote name ++ [':', ' '] ++ prettyChars (depth + 1) value ++
      newLine depth ++ ['}']
  | (name, value) :: members =>
    newLine (depth + 1) ++ quote name ++ [':', ' '] ++ prettyChars (depth + 1) value ++
      ',' :: prettyMembers depth members

end

def compact (j : Json) : String := String.ofList j.compactChars

def pretty (j : Json) : String := String.ofList (j.prettyChars 0)

end RuntimeTargets.Json
