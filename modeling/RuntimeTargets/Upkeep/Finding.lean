import RuntimeTargets.Text.Hex
import RuntimeTargets.Text.Json.Printer
import RuntimeTargets.Upkeep.Error
import RuntimeTargets.Upkeep.Services

/-!
# Comparing dumps

Two builds of one target must dump it alike, and the dump must be of the target
that the matrix names.  What is found for one entry is a `Finding`; findings
must agree on their members, and are then written to a report.
-/

namespace RuntimeTargets.Upkeep

structure Finding where
  name : String
  architecture : String
  digest : String
  members : List String
  deriving DecidableEq, Repr

namespace Finding

/-- A member of a dump must be the word that the matrix gives. -/
def expectField (dump : Json) (name field : String) (expected : Word) :
    Except TaskError Unit :=
  let found := (dump.member? field).bind Json.word?
  if found = some expected then .ok () else .error (.otherField name field found expected)

/-- What two dumps of an entry's target show. -/
def ofDumps (services : Services) (entry : MatrixEntry) (first second : ByteArray) :
    Except TaskError Finding := do
  let digest := Hex.encode (services.digest first)
  let digestAgain := Hex.encode (services.digest second)
  if digest ≠ digestAgain then
    throw (.dumpsDiffer entry.name digest digestAgain)
  else
    match services.readDump first with
    | .error reason => throw (.dumpMalformed reason)
    | .ok dump =>
      if (dump.member? "name").bind Json.text? ≠ some entry.name then
        throw (.otherTarget entry.name entry.feature)
      else
        expectField dump entry.name "instruction_word_size" entry.instructionSize
        expectField dump entry.name "stack_alignment" entry.stackAlignment
        return {
          name := entry.name
          architecture := entry.architecture
          digest
          members := dump.names }

/-- The same members, in any order and however often. -/
def SameMembers (f other : Finding) : Prop :=
  (∀ name ∈ f.members, name ∈ other.members) ∧ ∀ name ∈ other.members, name ∈ f.members

instance (f other : Finding) : Decidable (f.SameMembers other) :=
  inferInstanceAs (Decidable (_ ∧ _))

/-- All findings must have the members of the first; the first that has not is
reported. -/
def agree : List Finding → Except TaskError Unit
  | [] => .ok ()
  | first :: others =>
    match others.find? fun other => ¬ other.SameMembers first with
    | some other => .error (.otherMembers first.name other.name)
    | none => .ok ()

/-- The line that announces a finding. -/
def line (f : Finding) : String := "[DETERMINISM] " ++ f.name ++ " sha256=" ++ f.digest

def toJson (f : Finding) : Json :=
  .object [("name", .string f.name), ("target_arch", .string f.architecture),
    ("sha256", .string f.digest)]

/-- The report on findings, in their order. -/
def report (findings : List Finding) : String := (Json.array (findings.map toJson)).pretty

end Finding

end RuntimeTargets.Upkeep
