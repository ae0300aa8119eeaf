import RuntimeTargets.Upkeep.Program
import RuntimeTargets.Viewer.Program

/-!
# A faithful build tool

The build tool as upkeep tasks hope to find it: running the viewer with a
target's feature does what a viewer built for that target does, and every other
call succeeds quietly.
-/

namespace RuntimeTargets.Upkeep.FaithfulTool

/-- The argument after `--features`. -/
def featuresArgument (arguments : List String) : String :=
  (arguments.dropWhile (· ≠ "--features")).getD 1 ""

/-- The feature that selects a target, next to the one that builds programs. -/
def targetFeature (features : String) : String := String.ofList (features.toList.drop 4)

/-- The arguments that are passed on to a program. -/
def programArguments (arguments : List String) : List String :=
  (arguments.dropWhile (· ≠ "--")).drop 1

def unknownFeature : ProgramRun :=
  { exit := 101, stdout := .empty, stderr := "error: no such feature\n".toUTF8 }

def quiet : ProgramRun := { exit := 0, stdout := .empty, stderr := .empty }

/-- Run the viewer that a feature selects. -/
def runViewer (feature : String) (arguments : List String) : ProgramRun :=
  match Target.byName feature with
  | some built => Viewer.run .standard built arguments
  | none => unknownFeature

def respond (arguments : List String) : ProgramRun :=
  if arguments.head? = some "run" then
    runViewer (targetFeature (featuresArgument arguments)) (programArguments arguments)
  else quiet

/-- The faithful tool answers every call alike, whenever it is made. -/
def tool : Tool := fun _ arguments => respond arguments

end RuntimeTargets.Upkeep.FaithfulTool
