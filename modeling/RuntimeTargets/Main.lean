import RuntimeTargets.Viewer.Program

/-!
The command line of the table viewer.
-/

def main (arguments : List String) : IO UInt32 := do
  let run := RuntimeTargets.Viewer.run .standard RuntimeTargets.Target.selected arguments
  (← IO.getStdout).write run.stdout
  (← IO.getStderr).write run.stderr
  return run.exit.toUInt32
