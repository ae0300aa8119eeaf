import RuntimeTargets.Text.Json.Token

/-!
# Reading JSON

The reader takes one token at a time and keeps the arrays and objects that are
still open.  What may come next depends only on the innermost of them and on
the last token, so the whole reader is one step function folded over the
tokens.
-/

namespace RuntimeTargets

/-- An array or object that is still open, its items or members reversed. -/
inductive JsonFrame where
  | array (items : List Json)
  | object (members : List (String × Json))
  /-- An object that waits for the value of a member. -/
  | member (name : String) (members : List (String × Json))

/-- What may come next. -/
inductive JsonExpected where
  | value
  | valueOrEnd
  | name
  | nameOrEnd
  | colon
  | commaOrEnd

/-- How far a text has been read: inside the open frames, the innermost first,
or at the end of a value. -/
inductive JsonProgress where
  | inside (frames : List JsonFrame) (expected : JsonExpected)
  | finished (value : Json)

namespace JsonProgress

/-- Arrays and objects may be nested this deep. -/
def mostFrames : Nat := 127

def start : JsonProgress := .inside [] .value

/-- A value has been read; give it to the innermost frame. -/
def complete (value : Json) : List JsonFrame → Option JsonProgress
  | [] => some (.finished value)
  | .array items :: frames => some (.inside (.array (value :: items) :: frames) .commaOrEnd)
  | .member name members :: frames =>
    some (.inside (.object ((name, value) :: members) :: frames) .commaOrEnd)
  | .object _ :: _ => none

/-- Open an array or object, unless that is too deep. -/
def push (frame : JsonFrame) (expected : JsonExpected) (frames : List JsonFrame) :
    Option JsonProgress :=
  if frames.length < mostFrames then some (.inside (frame :: frames) expected) else none

/-- Read on where a value may start. -/
def beginValue (frames : List JsonFrame) : JsonToken → Option JsonProgress
  | .scalar value => complete value frames
  | .openArray => push (.array []) .valueOrEnd frames
  | .openObject => push (.object []) .nameOrEnd frames
  | _ => none

/-- Read on where the innermost frame may end. -/
def endFrame : List JsonFrame → JsonToken → Option JsonProgress
  | .array items :: frames, .closeArray => complete (.array items.reverse) frames
  | .object members :: frames, .closeObject => complete (.object members.reverse) frames
  | _, _ => none

/-- Read on where a member's name may stand. -/
def beginMember : List JsonFrame → JsonToken → Option JsonProgress
  | .object members :: frames, .scalar (.string name) =>
    some (.inside (.member name members :: frames) .colon)
  | _, _ => none

/-- Read on after a comma, by the kind of the innermost frame. -/
def afterComma : List JsonFrame → Option JsonProgress
  | .array items :: frames => some (.inside (.array items :: frames) .value)
  | .object members :: frames => some (.inside (.object members :: frames) .name)
  | _ => none

def step (progress : JsonProgress) (token : JsonToken) : Option JsonProgress :=
  match progress with
  | .finished _ => none
  | .inside frames expected =>
    match expected, token with
    | .value, token => beginValue frames token
    | .valueOrEnd, .closeArray => endFrame frames .closeArray
    | .valueOrEnd, token => beginValue frames token
    | .name, token => beginMember frames token
    | .nameOrEnd, .closeObject => endFrame frames .closeObject
    | .nameOrEnd, token => beginMember frames token
    | .colon, .colon => some (.inside frames .value)
    | .colon, _ => none
    | .commaOrEnd, .comma => afterComma frames
    | .commaOrEnd, token => endFrame frames token

end JsonProgress

namespace Json

/-- The value that a list of tokens writes. -/
def ofTokens? (tokens : List JsonToken) : Option Json := do
  match ← tokens.foldlM JsonProgress.step .start with
  | .finished value => return value
  | .inside _ _ => none

/-- The value that a text writes. -/
def ofChars? (text : List Char) : Option Json := do
  ofTokens? (← JsonToken.ofChars? text)

/-- The value that the bytes of a text write. -/
def ofBytes? (bytes : ByteArray) : Option Json := do
  ofChars? (← String.fromUTF8? bytes).toList

end Json

end RuntimeTargets
