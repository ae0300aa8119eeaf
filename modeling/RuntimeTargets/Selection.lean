import RuntimeTargets.Target.Basic

/-!
# Selecting a target for a build

Exactly one target is built in.  A build names it by a feature; a build that
names none gets the target of the architecture it compiles for.  Features are
seen through the environment, where each one that is enabled sets a variable.
-/

namespace RuntimeTargets.Selection

/-- Each feature with the architecture that it stands for when none is named. -/
def choices : List (String × String) :=
  [("mips64", "mips64"),
    ("loongarch64", "loongarch64"),
    ("aarch64", "aarch64"),
    ("riscv64", "riscv64"),
    ("ppc64", "powerpc64")]

def features : List String := choices.map Prod.fst

/-! ## Variables -/

/-- The variable that an enabled feature sets; features are named in ASCII. -/
def variableName (feature : String) : String := "CARGO_FEATURE_" ++ feature.toUpper

/-! ## The choice -/

inductive SelectionError where
  | unknownArchitecture (architecture : String)
  | severalFeatures (enabled : List String)
  deriving DecidableEq, Repr

def quoted (feature : String) : String := "\"" ++ feature ++ "\""

/-- Every feature, quoted, with commas between. -/
def featureList : String := String.intercalate ", " (features.map quoted)

def SelectionError.message : SelectionError → String
  | .unknownArchitecture architecture =>
    "no architecture table for target_arch `" ++ architecture ++
      "`; enable exactly one of the features " ++ featureList
  | .severalFeatures enabled =>
    "more than one architecture table selected (" ++ String.intercalate ", " enabled ++
      "); enable exactly one (use `default-features = false` to drop the default `mips64`)"

/-- The features whose variables are set, in the order of the choices. -/
def enabled (isSet : String → Bool) : List String :=
  features.filter fun feature => isSet (variableName feature)

/-- The feature to build with. -/
def select (isSet : String → Bool) (architecture : Option String) :
    Except SelectionError String :=
  match enabled isSet with
  | [feature] => .ok feature
  | [] =>
    let architecture := architecture.getD ""
    match choices.find? (·.2 = architecture) with
    | some (feature, _) => .ok feature
    | none => .error (.unknownArchitecture architecture)
  | several => .error (.severalFeatures several)

/-! ## What the build is told -/

/-- Lines for the build tool, and the error that cut them short. -/
structure Report where
  lines : List String
  error : Option SelectionError
  deriving DecidableEq, Repr

/-- Lines that do not depend on the choice. -/
def preamble : List String :=
  ["cargo:rerun-if-changed=build.rs",
    "cargo:rustc-check-cfg=cfg(arch_table, values(" ++ featureList ++ "))"]

def selectedLine (feature : String) : String :=
  "cargo:rustc-cfg=arch_table=" ++ quoted feature

def report (isSet : String → Bool) (architecture : Option String) : Report :=
  match select isSet architecture with
  | .ok feature => { lines := preamble ++ [selectedLine feature], error := none }
  | .error e => { lines := preamble, error := some e }

end RuntimeTargets.Selection
