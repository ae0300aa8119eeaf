import RuntimeTargets.ClassSpace.Encoding
import RuntimeTargets.Journal
import RuntimeTargets.Target.Basic

/-!
# Compressed pointer layout

Two flags decide how a runtime lays out its memory: whether references to
objects are compressed, and whether pointers to classes are.  `resolve` settles
flags that nobody set and gives up the ones that cannot be had, with a warning;
`validate` says whether a finished configuration can be had at all.
-/

namespace RuntimeTargets

/-- Flags as they were given; `none` where one was not. -/
structure LayoutRequest where
  compressedOops : Option Bool := none
  compressedClassPointers : Option Bool := none
  maxHeapSize : Word := gibibyte
  classSpaceSize : Word := ClassSpace.defaultSize
  pageSize : Word := 4096
  deriving DecidableEq, Repr

/-- A finished configuration. -/
structure Layout where
  compressedOops : Bool
  compressedClassPointers : Bool
  maxHeapSize : Word
  classSpaceSize : Word
  pageSize : Word
  deriving DecidableEq, Repr

inductive LayoutError where
  | classPointersRequireCompressedOops (name : String)
  | compressedPointersOn32Bit (name : String)
  | heapTooLargeForCompressedOops (heap limit : Word)
  | classSpaceTooLarge (size most : Word)
  deriving DecidableEq, Repr

def LayoutError.message : LayoutError → String
  | .classPointersRequireCompressedOops name =>
    "compressed class pointers require compressed oops on " ++ name
  | .compressedPointersOn32Bit name =>
    "compressed class pointers need a 64-bit word size on " ++ name
  | .heapTooLargeForCompressedOops heap limit =>
    "max heap size " ++ Word.hexadecimal heap ++ " too large for compressed oops (limit " ++
      Word.hexadecimal limit ++ ")"
  | .classSpaceTooLarge size most =>
    "compressed class space size " ++ Word.hexadecimal size ++ " exceeds encoding range " ++
      Word.hexadecimal most

namespace LayoutRequest

/-- The request that sets both flags as a layout has them. -/
def ofLayout (layout : Layout) : LayoutRequest where
  compressedOops := some layout.compressedOops
  compressedClassPointers := some layout.compressedClassPointers
  maxHeapSize := layout.maxHeapSize
  classSpaceSize := layout.classSpaceSize
  pageSize := layout.pageSize

end LayoutRequest

namespace Layout

/-- Binary logarithm of the least alignment of objects. -/
def logObjectAlignment : Word := 3

/-- The end of the addresses that a compressed reference reaches. -/
def heapReach : Word := ((1 : Word) <<< 32) <<< logObjectAlignment

/-- The largest heap that compressed references work with: the page below it is
protected. -/
def maxHeap (pageSize : Word) : Word := Word.subSaturating heapReach pageSize

/-- Pointers cannot be compressed on a target with narrow words. -/
def IsNarrow (t : Target) : Prop := t.wordSize < 8

instance (t : Target) : Decidable (IsNarrow t) := inferInstanceAs (Decidable (_ < _))

def narrowEntry (t : Target) : Entry :=
  .about .warning t.name "compressed pointers need a 64-bit VM"

def heapEntry (t : Target) : Entry :=
  .about .warning t.name "max heap size too large for compressed oops"

def dependencyEntry (t : Target) : Entry :=
  .about .warning t.name "compressed class pointers require compressed oops"

def classSpaceEntry (t : Target) : Entry :=
  .about .warning t.name
    "compressed class space size too large for compressed class pointers"

def renderFlag (b : Bool) : String := if b then "true" else "false"

def resolvedEntry (t : Target) (layout : Layout) : Entry :=
  .about .debug t.name
    ("compressed oops " ++ renderFlag layout.compressedOops ++
      ", compressed class pointers " ++ renderFlag layout.compressedClassPointers)

/-- References are compressed where the heap allows it, unless that was ruled
out. -/
def settleOops (t : Target) (request : LayoutRequest) : Noted Bool :=
  if request.maxHeapSize ≤ maxHeap request.pageSize then
    { value := request.compressedOops.getD true, journal := [] }
  else
    { value := false
      journal := if request.compressedOops = some true then [heapEntry t] else [] }

/-- Class pointers are compressed where the target and the class space allow
it, unless that was ruled out. -/
def settleClassPointers (t : Target) (request : LayoutRequest) (oops : Bool) : Noted Bool :=
  if t.classPointersNeedOops ∧ ¬ oops then
    { value := false
      journal :=
        if request.compressedClassPointers = some true then [dependencyEntry t] else [] }
  else
    let wanted := request.compressedClassPointers.getD true
    if wanted ∧ ClassSpace.zeroBasedLimit < request.classSpaceSize then
      { value := false, journal := [classSpaceEntry t] }
    else
      { value := wanted, journal := [] }

/-- The configuration that a request comes to on a target. -/
def resolve (t : Target) (request : LayoutRequest) : Noted Layout :=
  let withFlags (oops classPointers : Bool) : Layout :=
    { compressedOops := oops
      compressedClassPointers := classPointers
      maxHeapSize := request.maxHeapSize
      classSpaceSize := request.classSpaceSize
      pageSize := request.pageSize }
  if IsNarrow t then
    { value := withFlags false false
      journal :=
        if request.compressedOops = some true ∨
            request.compressedClassPointers = some true then
          [narrowEntry t]
        else
          [] }
  else
    let oops := settleOops t request
    let classPointers := settleClassPointers t request oops.value
    let layout := withFlags oops.value classPointers.value
    { value := layout
      journal := oops.journal ++ classPointers.journal ++ [resolvedEntry t layout] }

/-- Whether a configuration can be had on a target. -/
def validate (layout : Layout) (t : Target) : Except LayoutError Unit :=
  let limit := maxHeap layout.pageSize
  if IsNarrow t ∧ (layout.compressedOops ∨ layout.compressedClassPointers) then
    .error (.compressedPointersOn32Bit t.name)
  else if layout.compressedOops ∧ limit < layout.maxHeapSize then
    .error (.heapTooLargeForCompressedOops layout.maxHeapSize limit)
  else if layout.compressedClassPointers ∧ t.classPointersNeedOops ∧
      ¬ layout.compressedOops then
    .error (.classPointersRequireCompressedOops t.name)
  else if layout.compressedClassPointers ∧
      ClassSpace.zeroBasedLimit < layout.classSpaceSize then
    .error (.classSpaceTooLarge layout.classSpaceSize ClassSpace.zeroBasedLimit)
  else
    .ok ()

end Layout

end RuntimeTargets
