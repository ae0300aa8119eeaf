/-!
# Words for a shell

A command line is shown so that it could be pasted into a shell.  A word of
ordinary characters stands as it is.  Any other word is put between single
quotes, inside which only the quote itself and the exclamation mark mean
something: each is written outside the quotes, behind a backslash.
-/

namespace RuntimeTargets.ShellWord

/-- Characters that mean nothing to a shell. -/
def isOrdinary (c : Char) : Bool :=
  c.isAlphanum || ['-', '_', '=', '/', ',', '.', '+'].contains c

def escape (c : Char) : List Char :=
  if c = '\'' ∨ c = '!' then ['\'', '\\', c, '\''] else [c]

def quote (word : String) : String :=
  if word.toList ≠ [] ∧ word.toList.all isOrdinary then word
  else String.ofList ('\'' :: word.toList.flatMap escape ++ ['\''])

/-- A command line of several words. -/
def line (words : List String) : String := String.intercalate " " (words.map quote)

end RuntimeTargets.ShellWord
