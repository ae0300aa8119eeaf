import RuntimeTargets.Target.Laws

/-!
# The supported targets

One value for each processor family.  They are plain data, so tools can put
them side by side; that each of them keeps the laws is checked here, once, by
evaluation.
-/

namespace RuntimeTargets.Target

/-- Zones that every family but one starts from. -/
def usualPages : GuardPages := ⟨2, 1, 1, 20⟩

def usualMinPages : GuardPages := ⟨2, 1, 0, 20⟩

/-- 64-bit Loongson cores.  Values of 32 bits stay sign-extended in registers,
so calls widen nothing. -/
def mips64 : Target where
  name := "mips64"
  wordSize := 8
  instructionSize := 4
  stackAlignment := 16
  widensInts := false
  swapsWords := true
  reservesStack := true
  classSpaceAlignment := some gibibyte
  classPointersNeedOops := false
  defaults :=
    { entryAlignment := 16
      loopAlignment := 16
      segmentSize := 64
      inlineLimit := 4000
      stackPages := usualPages
      minStackPages := usualMinPages }

/-- Differs from `mips64` only in its code generation defaults. -/
def loongarch64 : Target where
  name := "loongarch64"
  wordSize := 8
  instructionSize := 4
  stackAlignment := 16
  widensInts := false
  swapsWords := true
  reservesStack := true
  classSpaceAlignment := some gibibyte
  classPointersNeedOops := false
  defaults :=
    { entryAlignment := 64
      loopAlignment := 16
      segmentSize := 64
      inlineLimit := 2000
      stackPages := usualPages
      minStackPages := usualMinPages }

/-- A class space base aligned to 4 GiB is decoded by a single move. -/
def aarch64 : Target where
  name := "aarch64"
  wordSize := 8
  instructionSize := 4
  stackAlignment := 16
  widensInts := false
  swapsWords := true
  reservesStack := true
  classSpaceAlignment := some (4 * gibibyte)
  classPointersNeedOops := false
  defaults :=
    { entryAlignment := 64
      loopAlignment := 16
      segmentSize := 64
      inlineLimit := 1000
      stackPages := usualPages
      minStackPages := usualMinPages }

/-- Code is laid out in four-byte words even where shorter instructions exist. -/
def riscv64 : Target where
  name := "riscv64"
  wordSize := 8
  instructionSize := 4
  stackAlignment := 16
  widensInts := false
  swapsWords := true
  reservesStack := true
  classSpaceAlignment := none
  classPointersNeedOops := false
  defaults :=
    { entryAlignment := 64
      loopAlignment := 16
      segmentSize := 64
      inlineLimit := 1000
      stackPages := usualPages
      minStackPages := usualMinPages }

/-- The only family whose calls widen integers to full 64-bit slots. -/
def ppc64 : Target where
  name := "ppc64"
  wordSize := 8
  instructionSize := 4
  stackAlignment := 16
  widensInts := true
  swapsWords := true
  reservesStack := true
  classSpaceAlignment := none
  classPointersNeedOops := false
  defaults :=
    { entryAlignment := 64
      loopAlignment := 16
      segmentSize := 128
      inlineLimit := 1500
      stackPages := usualPages
      minStackPages := ⟨2, 1, 0, 3⟩ }

/-- Every supported target, in the order in which tools list them. -/
def all : List Target := [mips64, loongarch64, aarch64, riscv64, ppc64]

/-- The target of a build that does not select one. -/
def selected : Target := mips64

def byName (name : String) : Option Target := all.find? (·.name = name)

theorem sound_of_mem_all : ∀ t ∈ all, t.Sound := by decide +kernel

theorem nodup_names : (all.map name).Nodup := by decide

theorem byName_eq_some_iff {name : String} {t : Target} :
    byName name = some t ↔ t ∈ all ∧ t.name = name := by
  constructor
  · intro hfound
    exact ⟨List.mem_of_find?_eq_some hfound, by simpa using List.find?_some hfound⟩
  · intro ⟨hmem, hname⟩
    subst hname
    revert t
    decide +kernel

end RuntimeTargets.Target
