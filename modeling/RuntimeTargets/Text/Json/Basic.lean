import RuntimeTargets.Word

/-!
# JSON values

Members of an object stay in the order in which they were written.  A name may
occur twice; the last member of a name is the one that counts.
-/

namespace RuntimeTargets

/-- A number is kept as a word if it is written as one, and by its text if not. -/
inductive JsonNumber where
  | word (value : Word)
  | other (text : String)
  deriving DecidableEq, Repr

inductive Json where
  | null
  | boolean (value : Bool)
  | number (value : JsonNumber)
  | string (text : String)
  | array (items : List Json)
  | object (members : List (String × Json))

namespace Json

/-- The value of a member, if this is an object that has it. -/
def member? (name : String) : Json → Option Json
  | .object members => members.reverse.lookup name
  | _ => none

def word? : Json → Option Word
  | .number (.word value) => some value
  | _ => none

def text? : Json → Option String
  | .string text => some text
  | _ => none

/-- The names of an object's members; other values have none. -/
def names : Json → List String
  | .object members => members.map Prod.fst
  | _ => []

end Json

end RuntimeTargets
