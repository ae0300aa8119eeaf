import RuntimeTargets.Text.ShellWord
import RuntimeTargets.Word

/-!
# Why an upkeep task fails
-/

namespace RuntimeTargets.Upkeep

/-- The build tool that tasks call. -/
def toolName : String := "cargo"

/-- A call of the build tool as a command line. -/
def commandLine (arguments : List String) : String := ShellWord.line (toolName :: arguments)

inductive TaskError where
  /-- The build tool could not be started. -/
  | toolAbsent
  /-- There is no build tool to look for. -/
  | toolNotFound
  | matrixAbsent
  /-- The matrix file cannot be read, for the reason that its reader gives. -/
  | matrixMalformed (reason : String)
  | matrixEmpty (path : String)
  | callFailed (arguments : List String)
  /-- A call failed whose output was kept back. -/
  | captureFailed (arguments : List String) (stderr : String)
  | dumpsDiffer (name first second : String)
  /-- A dump cannot be read, for the reason that its reader gives. -/
  | dumpMalformed (reason : String)
  | otherTarget (name feature : String)
  | otherField (name field : String) (found : Option Word) (expected : Word)
  | otherMembers (first other : String)
  deriving DecidableEq, Repr

namespace TaskError

/-- The system's text for a file that is not there. -/
def fileAbsent : String := "No such file or directory (os error 2)"

def renderFound : Option Word → String
  | some value => "Some(" ++ Word.decimal value ++ ")"
  | none => "None"

def message : TaskError → String
  | .toolAbsent => fileAbsent
  | .toolNotFound => toolName ++ " not found in PATH"
  | .matrixAbsent => fileAbsent
  | .matrixMalformed reason => reason
  | .matrixEmpty path => path ++ " lists no architectures"
  | .callFailed arguments => "command failed: " ++ commandLine arguments
  | .captureFailed arguments stderr =>
    "command failed: " ++ commandLine arguments ++ "\n" ++ stderr
  | .dumpsDiffer name first second =>
    name ++ ": table dump differs between builds (" ++ first ++ " vs " ++ second ++ ")"
  | .dumpMalformed reason => reason
  | .otherTarget name feature => name ++ ": feature `" ++ feature ++ "` selected another table"
  | .otherField name field found expected =>
    name ++ ": " ++ field ++ " is " ++ renderFound found ++ ", matrix expects " ++
      Word.decimal expected
  | .otherMembers first other => first ++ " and " ++ other ++ " expose different trait sets"

end TaskError

end RuntimeTargets.Upkeep
