import RuntimeTargets.Text.Toml.Line

/-!
# TOML documents

A document collects the lines of a text under the headers they follow.  A name
is given one meaning only: no key is set twice in a table, no table is opened
twice, and only an array of tables that headers made can grow.
-/

namespace RuntimeTargets

abbrev TomlTable := List (String × TomlValue)

/-- What a name at the top of a document stands for. -/
inductive TomlItem where
  | value (value : TomlValue)
  | table (members : TomlTable)
  /-- An array of tables, the last one first. -/
  | elements (tables : List TomlTable)
  deriving DecidableEq, Repr

/-- The names of a document, the last one first. -/
abbrev TomlDocument := List (String × TomlItem)

namespace TomlDocument

def item? (document : TomlDocument) (name : String) : Option TomlItem := document.lookup name

/-- Give a name another item in its place. -/
def replace (document : TomlDocument) (name : String) (item : TomlItem) : TomlDocument :=
  document.map fun (other, old) => if other = name then (other, item) else (other, old)

/-- Set a key that is not set yet. -/
def insert? (members : TomlTable) (key : String) (value : TomlValue) : Option TomlTable :=
  if (members.lookup key).isSome then none else some ((key, value) :: members)

/-- Where pairs go: to the top of the document or under the header of a name. -/
abbrev Section := Option String

/-- Read one line into a document. -/
def addLine (document : TomlDocument) (current : Section) :
    TomlLine → Option (TomlDocument × Section)
  | .blank => some (document, current)
  | .table name =>
    match item? document name with
    | none => some ((name, .table []) :: document, some name)
    | some _ => none
  | .element name =>
    match item? document name with
    | none => some ((name, .elements [[]]) :: document, some name)
    | some (.elements tables) =>
      some (replace document name (.elements ([] :: tables)), some name)
    | some _ => none
  | .pair key value =>
    match current with
    | none =>
      if (item? document key).isSome then none
      else some ((key, .value value) :: document, none)
    | some name =>
      match item? document name with
      | some (.table members) => do
        let members ← insert? members key value
        return (replace document name (.table members), some name)
      | some (.elements (members :: tables)) => do
        let members ← insert? members key value
        return (replace document name (.elements (members :: tables)), some name)
      | _ => none

/-- Read lines in order. -/
def addLines (document : TomlDocument) (current : Section) :
    List (List Char) → Option TomlDocument
  | [] => some document
  | text :: rest => do
    let (document, current) ← addLine document current (← TomlLine.ofChars? text)
    addLines document current rest

/-- The lines of a text.  A line ends with a line feed, which a carriage return
may stand before. -/
def splitLines : List Char → List (List Char)
  | [] => [[]]
  | '\n' :: rest => [] :: splitLines rest
  | '\r' :: '\n' :: rest => [] :: splitLines rest
  | c :: rest =>
    match splitLines rest with
    | [] => [[c]]
    | line :: lines => (c :: line) :: lines

/-- The document that a text writes; a mark of the byte order is skipped. -/
def ofText? (text : String) : Option TomlDocument :=
  match text.toList with
  | '\ufeff' :: rest => addLines [] none (splitLines rest)
  | chars => addLines [] none (splitLines chars)

end TomlDocument

end RuntimeTargets
