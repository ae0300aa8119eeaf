import RuntimeTargets.Text.Toml.Document
import RuntimeTargets.Word

/-!
# The matrix of targets

Upkeep tasks work through a list of targets that is kept in a file.  An entry
says by which feature a target is selected and repeats a few of its facts, so
that a build which selected another one is noticed.

Tasks take any reader of the file.  `Matrix.ofText?` is one for files that keep
to flat tables.
-/

namespace RuntimeTargets.Upkeep

structure MatrixEntry where
  name : String
  feature : String
  architecture : String
  instructionSize : Word
  stackAlignment : Word
  deriving DecidableEq, Repr

abbrev Matrix := List MatrixEntry

namespace MatrixEntry

def text? (members : TomlTable) (key : String) : Option String :=
  match members.lookup key with
  | some (.string text) => some text
  | _ => none

/-- An integer that is a word. -/
def word? (members : TomlTable) (key : String) : Option Word :=
  match members.lookup key with
  | some (.integer value) => if 0 ≤ value then some value.toNat.toUInt64 else none
  | _ => none

/-- The entry that a table holds; members without a meaning are passed over. -/
def ofTable? (members : TomlTable) : Option MatrixEntry := do
  return {
    name := ← text? members "name"
    feature := ← text? members "feature"
    architecture := ← text? members "target_arch"
    instructionSize := ← word? members "instruction_word_size"
    stackAlignment := ← word? members "stack_alignment" }

end MatrixEntry

namespace Matrix

/-- The entries of a document, which may be none. -/
def ofDocument? (document : TomlDocument) : Option Matrix :=
  match document.item? "arch" with
  | some (.value .emptyArray) => some []
  | some (.elements tables) => tables.reverse.mapM MatrixEntry.ofTable?
  | _ => none

/-- The entries that a text lists in flat tables. -/
def ofText? (text : String) : Option Matrix := do
  ofDocument? (← TomlDocument.ofText? text)

/-- The text of one entry whose values need no escapes. -/
def entryText (name feature architecture : String) : String :=
  "[[arch]]\nname = \"" ++ name ++ "\"\nfeature = \"" ++ feature ++
    "\"\ntarget_arch = \"" ++ architecture ++
    "\"\ninstruction_word_size = 4\nstack_alignment = 16\n"

/-- The file that goes with the supported targets. -/
def standardText : String :=
  String.join
    [entryText "mips64" "mips64" "mips64",
      entryText "loongarch64" "loongarch64" "loongarch64",
      entryText "aarch64" "aarch64" "aarch64",
      entryText "riscv64" "riscv64" "riscv64",
      entryText "ppc64" "ppc64" "powerpc64"]

end Matrix

end RuntimeTargets.Upkeep
