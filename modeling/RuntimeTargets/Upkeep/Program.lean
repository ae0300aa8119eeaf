import RuntimeTargets.ProgramRun
import RuntimeTargets.Text.Utf8
import RuntimeTargets.Upkeep.Plan

/-!
# Carrying out upkeep tasks

A task runs in a `Workspace`, which holds the matrix file, the build tool and
the services.  The tool is an arbitrary function of how often it was called and
with what, so a run can be followed for every way in which the calls may turn
out.
-/

namespace RuntimeTargets.Upkeep

/-- The run of the build tool at the call with a number, counted from zero. -/
abbrev Tool := (number : Nat) → (arguments : List String) → ProgramRun

structure Workspace where
  root : String
  /-- The text of the matrix file, if there is one. -/
  matrix : Option String
  /-- The build tool, if there is one. -/
  tool : Option Tool
  services : Services

namespace Workspace

def matrixPath (w : Workspace) : String := w.root ++ "/config/arch-matrix.toml"

def reportPath (w : Workspace) : String := w.root ++ "/build/arch-digests.json"

/-- The matrix of a workspace, which has at least one entry. -/
def loadMatrix (w : Workspace) : Except TaskError Matrix :=
  match w.matrix with
  | none => .error .matrixAbsent
  | some text =>
    match w.services.readMatrix text with
    | .error reason => .error (.matrixMalformed reason)
    | .ok [] => .error (.matrixEmpty w.matrixPath)
    | .ok matrix => .ok matrix

end Workspace

/-- What a task has done so far. -/
structure Session where
  stdout : ByteArray := .empty
  stderr : ByteArray := .empty
  /-- The arguments of each call, in order. -/
  calls : List (List String) := []
  /-- Dumps that were kept back, the last one first. -/
  dumps : List ByteArray := []
  findings : List Finding := []
  /-- The text of the report, once it is written. -/
  report : Option String := none

namespace Session

def say (s : Session) (line : String) : Session :=
  { s with stderr := s.stderr ++ (line ++ "\n").toUTF8 }

/-- Announce a call and make it, if there is a tool. -/
def call (w : Workspace) (s : Session) (arguments : List String) :
    Session × Except TaskError ProgramRun :=
  let s := s.say ("[RUN] " ++ commandLine arguments)
  match w.tool with
  | none => (s, .error .toolAbsent)
  | some tool =>
    ({ s with calls := s.calls ++ [arguments] }, .ok (tool s.calls.length arguments))

/-- Take one step.  An error stops the task where it is. -/
def perform (w : Workspace) (s : Session) : Step → Session × Option TaskError
  | .say line => (s.say line, none)
  | .call arguments =>
    match s.call w arguments with
    | (s, .error e) => (s, some e)
    | (s, .ok run) =>
      let s := { s with stdout := s.stdout ++ run.stdout, stderr := s.stderr ++ run.stderr }
      (s, if run.Succeeds then none else some (.callFailed arguments))
  | .capture arguments =>
    match s.call w arguments with
    | (s, .error e) => (s, some e)
    | (s, .ok run) =>
      if run.Succeeds then ({ s with dumps := run.stdout :: s.dumps }, none)
      else (s, some (.captureFailed arguments (Utf8.lossy run.stderr)))
  | .findTool => (s, if w.tool.isSome then none else some .toolNotFound)
  | .compare entry =>
    match Finding.ofDumps w.services entry (s.dumps.getD 1 .empty) (s.dumps.getD 0 .empty) with
    | .error e => (s, some e)
    | .ok finding => ({ s.say finding.line with findings := s.findings ++ [finding] }, none)
  | .agree =>
    match Finding.agree s.findings with
    | .error e => (s, some e)
    | .ok () => (s, none)
  | .publish =>
    let s := { s with report := some (Finding.report s.findings) }
    (s.say ("[DETERMINISM] report written to " ++ w.reportPath), none)
  | .stop e => (s, some e)

/-- Take steps in order, up to the first that fails. -/
def performAll (w : Workspace) (s : Session) : List Step → Session × Option TaskError
  | [] => (s, none)
  | step :: steps =>
    match s.perform w step with
    | (s, some e) => (s, some e)
    | (s, none) => s.performAll w steps

end Session

/-- All that a task leaves behind. -/
structure TaskRun where
  run : ProgramRun
  calls : List (List String)
  report : Option String

/-- Carry out a command in a workspace. -/
def runCommand (w : Workspace) (command : Command) : TaskRun :=
  let (s, error) := Session.performAll w {} (plan w.loadMatrix command)
  let run : ProgramRun :=
    match error with
    | none => { exit := 0, stdout := s.stdout, stderr := s.stderr }
    | some e =>
      { exit := 1
        stdout := s.stdout
        stderr := s.stderr ++ (ProgramRun.errorLine e.message).toUTF8 }
  { run, calls := s.calls, report := s.report }

/-- Carry out what a command line asks for. -/
def run (w : Workspace) (arguments : List String) : TaskRun :=
  runCommand w (.ofArguments arguments)

end RuntimeTargets.Upkeep
