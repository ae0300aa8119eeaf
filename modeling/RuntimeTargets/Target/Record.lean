import RuntimeTargets.Target.Basic
import RuntimeTargets.Text.Json.Printer

/-!
# The JSON form of a target

A target is written as one object whose members stand in a fixed order.  The
defaults and the page counts in them are objects of their own.
-/

namespace RuntimeTargets

namespace Json

def ofWord (w : Word) : Json := .number (.word w)

def ofWord? : Option Word → Json
  | some w => ofWord w
  | none => .null

end Json

def GuardPages.toJson (pages : GuardPages) : Json :=
  .object
    [("yellow", .ofWord pages.yellow),
      ("red", .ofWord pages.red),
      ("reserved", .ofWord pages.reserved),
      ("shadow", .ofWord pages.shadow)]

def Defaults.toJson (d : Defaults) : Json :=
  .object
    [("code_entry_alignment", .ofWord d.entryAlignment),
      ("opto_loop_alignment", .ofWord d.loopAlignment),
      ("code_cache_segment_size", .ofWord d.segmentSize),
      ("inline_small_code", .ofWord d.inlineLimit),
      ("stack_pages", d.stackPages.toJson),
      ("min_stack_pages", d.minStackPages.toJson)]

def Target.toJson (t : Target) : Json :=
  .object
    [("name", .string t.name),
      ("word_size", .ofWord t.wordSize),
      ("instruction_word_size", .ofWord t.instructionSize),
      ("stack_alignment", .ofWord t.stackAlignment),
      ("ints_as_longs", .boolean t.widensInts),
      ("native_cx8", .boolean t.swapsWords),
      ("reserved_stack_area", .boolean t.reservesStack),
      ("preferred_metaspace_alignment", .ofWord? t.classSpaceAlignment),
      ("class_pointers_need_compressed_oops", .boolean t.classPointersNeedOops),
      ("defaults", t.defaults.toJson)]

end RuntimeTargets
