import Mathlib
import RuntimeTargets.Upkeep.Plan

/-!
# Command lines

What upkeep is asked for, and what it asks of the build tool in turn, word for
word.  What is said of tasks is said in terms of these lines.
-/

namespace RuntimeTargets.Upkeep

/-! ## Lines for the build tool -/

namespace CommandLine

def format : List String := ["fmt", "--all"]

def formatCheck : List String := ["fmt", "--all", "--", "--check"]

def lint : List String :=
  ["clippy", "--workspace", "--all-targets", "--features", "cli", "--", "-D", "warnings"]

def test : List String := ["test", "--workspace"]

def testFor (feature : String) : List String :=
  ["test", "-p", "vm-archdefs", "--no-default-features", "--features", feature]

def clean : List String := ["clean", "-p", "vm-archdefs"]

def dump (feature : String) : List String :=
  ["run", "--quiet", "-p", "vm-archdefs", "--no-default-features", "--features",
    "cli," ++ feature, "--bin", "arch-table", "--", "--format", "json", "--check"]

end CommandLine

theorem formatCall_eq : formatCall = CommandLine.format := rfl

theorem formatCheckCall_eq : formatCheckCall = CommandLine.formatCheck := rfl

theorem lintCall_eq : lintCall = CommandLine.lint := rfl

theorem testCall_eq : testCall = CommandLine.test := rfl

theorem testCallFor_eq (feature : String) : testCallFor feature = CommandLine.testFor feature :=
  rfl

theorem cleanCall_eq : cleanCall = CommandLine.clean := rfl

theorem dumpCall_eq (feature : String) : dumpCall feature = CommandLine.dump feature := rfl

/-! ## Words that ask for a task -/

namespace Command

/-- The word for a command.  There is none for help, which is what all other words get. -/
def word : Command → Option String
  | .format => some "fmt"
  | .formatCheck => some "fmt-check"
  | .lint => some "clippy"
  | .test => some "test"
  | .matrix => some "matrix"
  | .determinism => some "determinism"
  | .everything => some "ci"
  | .help => none

theorem word_eq_none_iff {command : Command} : command.word = none ↔ command = .help := by
  cases command <;> simp [word]

/-- A command line asks for the command that its first word is for, whatever comes
after, and for help if there is no such command. -/
def AskedBy (command : Command) (arguments : List String) : Prop :=
  match command.word with
  | some word => ∃ rest, arguments = word :: rest
  | none => ∀ other word, Command.word other = some word → ∀ rest, arguments ≠ word :: rest

theorem ofArguments_eq_iff {command : Command} {word : String} (hword : command.word = some word)
    (arguments : List String) :
    ofArguments arguments = command ↔ ∃ rest, arguments = word :: rest := by
  unfold ofArguments
  split <;> cases command <;> cases hword <;> simp_all

/-- Every command line asks for one command. -/
theorem askedBy_iff {command : Command} {arguments : List String} :
    command.AskedBy arguments ↔ command = ofArguments arguments := by
  cases hword : command.word with
  | some word =>
      rw [AskedBy, hword, eq_comm]
      exact (ofArguments_eq_iff hword arguments).symm
  | none =>
      rw [AskedBy, hword]
      obtain rfl := word_eq_none_iff.1 hword
      rw [eq_comm, ← word_eq_none_iff, Option.eq_none_iff_forall_ne_some]
      constructor
      · intro hnone word hasked
        obtain ⟨rest, harguments⟩ := (ofArguments_eq_iff hasked arguments).1 rfl
        exact hnone _ word hasked rest harguments
      · intro hnone other word hother rest harguments
        have hasked := (ofArguments_eq_iff hother arguments).2 ⟨rest, harguments⟩
        exact hnone word (hasked ▸ hother)

end Command

end RuntimeTargets.Upkeep
