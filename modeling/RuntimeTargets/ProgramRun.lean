/-!
# Runs of programs

All that a program leaves behind: its exit status and the bytes that it wrote,
which need not be a text.
-/

namespace RuntimeTargets

structure ProgramRun where
  exit : Nat
  stdout : ByteArray
  stderr : ByteArray

namespace ProgramRun

def Succeeds (run : ProgramRun) : Prop := run.exit = 0

instance (run : ProgramRun) : Decidable run.Succeeds :=
  inferInstanceAs (Decidable (_ = _))

/-- The last line of a program that gives up. -/
def errorLine (message : String) : String := "Error: " ++ message ++ "\n"

end ProgramRun

end RuntimeTargets
