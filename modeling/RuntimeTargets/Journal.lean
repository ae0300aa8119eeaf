/-!
# The journal

Decisions that a user may want to know about are written to a journal.  A
journal is part of a result rather than an effect: `Noted` pairs a value with
the entries made on the way to it, so that what is written, and when, can be
stated like any other property of the value.
-/

namespace RuntimeTargets

/-- How urgent an entry is, the most urgent first. -/
inductive Severity where
  | warning
  | info
  | debug
  | trace
  deriving DecidableEq, Repr

namespace Severity

def label : Severity → String
  | .warning => "WARN"
  | .info => "INFO"
  | .debug => "DEBUG"
  | .trace => "TRACE"

def rank : Severity → Nat
  | .warning => 0
  | .info => 1
  | .debug => 2
  | .trace => 3

end Severity

structure Entry where
  severity : Severity
  text : String
  deriving DecidableEq, Repr

abbrev Journal := List Entry

namespace Entry

/-- An entry about one target opens with its name. -/
def about (severity : Severity) (name text : String) : Entry :=
  ⟨severity, name ++ ": " ++ text⟩

def render (e : Entry) : String := e.severity.label ++ " " ++ e.text

/-- The form on a console: the label right-aligned in five columns, so that
texts line up. -/
def consoleLine (e : Entry) : String :=
  String.ofList (List.replicate (5 - e.severity.label.length) ' ') ++ e.render ++ "\n"

end Entry

/-- A value and what was noted while it was computed. -/
structure Noted (α : Type) where
  value : α
  journal : Journal
  deriving DecidableEq, Repr

end RuntimeTargets
