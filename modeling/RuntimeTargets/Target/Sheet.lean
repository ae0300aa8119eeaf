import RuntimeTargets.Stack.Guard
import RuntimeTargets.Layout

/-!
# The text form of a target

A sheet has one row for each fact, its label padded to a fixed column.  The
name stands in the first row and nothing else in a sheet is free text, so a
sheet can be read back from its end whatever the name holds.
-/

namespace RuntimeTargets.Target

/-- The column at which values start. -/
def sheetColumn : Nat := 38

def padLabel (label : String) : String :=
  label ++ String.ofList (List.replicate (sheetColumn - label.length) ' ')

def renderAlignment : Option Word → String
  | some alignment => Word.hexadecimal alignment
  | none => "none"

/-- The facts of a target with their labels, in the order of a sheet. -/
def rows (t : Target) : List (String × String) :=
  [("arch", t.name),
    ("word_size", Word.decimal t.wordSize),
    ("instruction_word_size", Word.decimal t.instructionSize),
    ("stack_alignment", Word.decimal t.stackAlignment),
    ("ints_as_longs", Layout.renderFlag t.widensInts),
    ("native_cx8", Layout.renderFlag t.swapsWords),
    ("reserved_stack_area", Layout.renderFlag t.reservesStack),
    ("preferred_metaspace_alignment", renderAlignment t.classSpaceAlignment),
    ("class_pointers_need_compressed_oops", Layout.renderFlag t.classPointersNeedOops),
    ("code_entry_alignment", Word.decimal t.defaults.entryAlignment),
    ("opto_loop_alignment", Word.decimal t.defaults.loopAlignment),
    ("code_cache_segment_size", Word.decimal t.defaults.segmentSize),
    ("inline_small_code", Word.decimal t.defaults.inlineLimit),
    ("stack_pages", t.defaults.stackPages.render),
    ("min_stack_pages", t.defaults.minStackPages.render)]

def sheet (t : Target) : String :=
  String.intercalate "\n" (t.rows.map fun (label, value) => padLabel label ++ value)

end RuntimeTargets.Target
