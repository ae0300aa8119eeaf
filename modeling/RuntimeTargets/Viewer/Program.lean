import RuntimeTargets.Journal
import RuntimeTargets.Target.Catalog
import RuntimeTargets.Target.Record
import RuntimeTargets.Target.Sheet
import RuntimeTargets.Viewer.Options

/-!
# The table viewer

A program that prints targets.  It shows the target it was built for, another
one by name, or all of them, and can check each of them again before it does.
-/

namespace RuntimeTargets.Viewer

def productName : String := "vm-archdefs"

def version : String := "0.1.0"

/-- What has been done so far. -/
structure Progress where
  stdout : String
  journal : Journal

/-- Why the viewer gives up. -/
inductive ViewerError where
  | unknownTarget (name : String)
  | defective (name : String) (failure : Failure TargetDefect)
  deriving DecidableEq, Repr

def ViewerError.message : ViewerError → String
  | .unknownTarget name => "unknown architecture table `" ++ name ++ "`"
  | .defective name (.refusal defect) => name ++ ": " ++ defect.message
  | .defective name (.fault cause) => name ++ ": " ++ cause.message

def Format.print (t : Target) : Format → String
  | .text => t.sheet ++ "\n\n"
  | .json => t.toJson.pretty ++ "\n"

/-- Print targets in order, up to the first that fails a check. -/
def printAll (options : Options) (progress : Progress) :
    List Target → Progress × Option ViewerError
  | [] => (progress, none)
  | t :: ts =>
    let printed := progress.stdout ++ (options.format.getD .text).print t
    if options.check then
      match t.check with
      | .error failure => (progress, some (.defective t.name failure))
      | .ok () =>
        let journal := progress.journal ++ [.about .debug t.name "table ok"]
        printAll options { stdout := printed, journal } ts
    else
      printAll options { progress with stdout := printed } ts

/-- The targets that options ask for. -/
def chosen (built : Target) (options : Options) : Except ViewerError (List Target) :=
  if options.all then .ok Target.all
  else
    match options.target with
    | none => .ok [built]
    | some name =>
      match Target.byName name with
      | some t => .ok [t]
      | none => .error (.unknownTarget name)

def builtEntry (built : Target) : Entry :=
  ⟨.info, productName ++ " " ++ version ++ " built with table `" ++ built.name ++ "`"⟩

/-- Print what options ask for. -/
def view (built : Target) (options : Options) : Progress × Option ViewerError :=
  let progress := { stdout := "", journal := [builtEntry built] }
  match chosen built options with
  | .ok ts => printAll options progress ts
  | .error e => (progress, some e)

/-- The entries that a verbosity shows, as lines. -/
def console (verbosity : Nat) (journal : Journal) : String :=
  String.join ((journal.filter (·.severity.rank ≤ verbosity)).map Entry.consoleLine)

/-- Run a viewer that was built for a target and reads its options by `read`. -/
def run (read : OptionReader) (built : Target) (arguments : List String) : ProgramRun :=
  match read arguments with
  | .error ended => ended
  | .ok options =>
    let (progress, error) := view built options
    let shown := console options.verbosity progress.journal
    match error with
    | none => { exit := 0, stdout := progress.stdout.toUTF8, stderr := shown.toUTF8 }
    | some e =>
      { exit := 1
        stdout := progress.stdout.toUTF8
        stderr := (shown ++ ProgramRun.errorLine e.message).toUTF8 }

end RuntimeTargets.Viewer
