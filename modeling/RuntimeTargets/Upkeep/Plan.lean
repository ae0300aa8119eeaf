import RuntimeTargets.Upkeep.Finding

/-!
# Plans of upkeep tasks

What a task does is a list of steps, fixed by the command and the matrix before
the first of them is taken.  The answers of the build tool never change a plan;
they only decide how far it is carried out.
-/

namespace RuntimeTargets.Upkeep

inductive Command where
  | format
  | formatCheck
  | lint
  | test
  | matrix
  | determinism
  | everything
  | help
  deriving DecidableEq, Repr

/-- The command of a command line; what follows the first word is ignored. -/
def Command.ofArguments : List String → Command
  | "fmt" :: _ => .format
  | "fmt-check" :: _ => .formatCheck
  | "clippy" :: _ => .lint
  | "test" :: _ => .test
  | "matrix" :: _ => .matrix
  | "determinism" :: _ => .determinism
  | "ci" :: _ => .everything
  | _ => .help

inductive Step where
  | say (line : String)
  /-- Call the build tool and let its output through. -/
  | call (arguments : List String)
  /-- Call the build tool and keep its output back as a dump. -/
  | capture (arguments : List String)
  /-- Look for the build tool. -/
  | findTool
  /-- Compare the two last dumps of an entry. -/
  | compare (entry : MatrixEntry)
  /-- Compare the members of all findings. -/
  | agree
  /-- Write the report. -/
  | publish
  | stop (error : TaskError)
  deriving DecidableEq, Repr

/-! ## Calls of the build tool -/

def formatCall : List String := ["fmt", "--all"]

def formatCheckCall : List String := ["fmt", "--all", "--", "--check"]

def lintCall : List String :=
  ["clippy", "--workspace", "--all-targets", "--features", "cli", "--", "-D", "warnings"]

def testCall : List String := ["test", "--workspace"]

def cleanCall : List String := ["clean", "-p", "vm-archdefs"]

/-- Test the target that a feature selects. -/
def testCallFor (feature : String) : List String :=
  ["test", "-p", "vm-archdefs", "--no-default-features", "--features", feature]

/-- Build the viewer for the target that a feature selects, and print it. -/
def dumpCall (feature : String) : List String :=
  ["run", "--quiet", "-p", "vm-archdefs", "--no-default-features", "--features",
    "cli," ++ feature, "--bin", "arch-table", "--", "--format", "json", "--check"]

/-! ## Plans -/

def helpText : String :=
  "xtask commands:\n  fmt | fmt-check | clippy | test\n" ++
    "  matrix        # test every architecture table\n" ++
    "  determinism   # build each table twice and compare dumps\n" ++
    "  ci            # all of the above\n\nExamples:\n" ++
    "  cargo run -p xtask -- matrix\n  cargo run -p xtask -- determinism"

def matrixSteps (entry : MatrixEntry) : List Step :=
  [.say ("[MATRIX] " ++ entry.name ++ " (" ++ entry.architecture ++ ")"),
    .call (testCallFor entry.feature)]

def determinismSteps (entry : MatrixEntry) : List Step :=
  [.capture (dumpCall entry.feature), .call cleanCall, .capture (dumpCall entry.feature),
    .compare entry]

/-- Steps that need the matrix, or a stop where there is none. -/
def withMatrix (matrix : Except TaskError Matrix) (steps : Matrix → List Step) : List Step :=
  match matrix with
  | .ok matrix => steps matrix
  | .error e => [.stop e]

def matrixPlan (matrix : Except TaskError Matrix) : List Step :=
  withMatrix matrix fun entries => entries.flatMap matrixSteps

def determinismPlan (matrix : Except TaskError Matrix) : List Step :=
  .findTool :: withMatrix matrix fun entries =>
    entries.flatMap determinismSteps ++ [.agree, .publish]

def plan (matrix : Except TaskError Matrix) : Command → List Step
  | .format => [.call formatCall]
  | .formatCheck => [.call formatCheckCall]
  | .lint => [.call lintCall]
  | .test => [.call testCall]
  | .matrix => matrixPlan matrix
  | .determinism => determinismPlan matrix
  | .everything =>
    [.call formatCheckCall, .call lintCall, .call testCall] ++ matrixPlan matrix ++
      determinismPlan matrix
  | .help => [.say helpText]

/-- The call that a step makes. -/
def Step.call? : Step → Option (List String)
  | .call arguments => some arguments
  | .capture arguments => some arguments
  | _ => none

/-- The calls of a plan that is carried out to its end. -/
def plannedCalls (steps : List Step) : List (List String) := steps.filterMap Step.call?

end RuntimeTargets.Upkeep
