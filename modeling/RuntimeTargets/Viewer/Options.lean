import RuntimeTargets.ProgramRun

/-!
# Options of the table viewer

Arguments are read in two steps.  The first cuts them into settings and needs
to know only which options take a value; the second collects the settings and
refuses combinations that make no sense.  A viewer takes any reader of its
options; this one is `OptionReader.standard`.
-/

namespace RuntimeTargets.Viewer

inductive Format where
  | text
  | json
  deriving DecidableEq, Repr

/-- Options that take a value. -/
inductive ValueOption where
  | target
  | format
  deriving DecidableEq, Repr

/-- One option as it was given. -/
inductive Setting where
  | target (name : String)
  | format (name : String)
  | all
  | check
  | verbose
  /-- Nothing after this is read. -/
  | help
  deriving DecidableEq, Repr

/-- Why there are no options. -/
inductive UsageError where
  | helpWanted
  | unknownOption (word : String)
  | unexpectedArgument (word : String)
  | missingValue (option : ValueOption)
  | unexpectedValue (word : String)
  | unknownFormat (name : String)
  | repeated
  | conflict
  deriving DecidableEq, Repr

def ValueOption.name : ValueOption → String
  | .target => "--arch"
  | .format => "--format"

def helpText : String :=
  "Print the architecture trait table compiled into this build\n\n" ++
    "Usage: arch-table [OPTIONS]\n\nOptions:\n" ++
    "  -a, --arch <ARCH>      Print the named table instead of the selected one\n" ++
    "      --all              Print every known table\n" ++
    "  -f, --format <FORMAT>  Output format [default: text] [possible values: text, json]\n" ++
    "      --check            Re-run the table checker and fail on any defect\n" ++
    "  -v, --verbose...       Verbose output (repeat for more)\n" ++
    "  -h, --help             Print help\n"

def UsageError.message : UsageError → String
  | .helpWanted => helpText
  | .unknownOption word => "unexpected argument '" ++ word ++ "' found"
  | .unexpectedArgument word => "unexpected argument '" ++ word ++ "' found"
  | .missingValue option => "a value is required for '" ++ option.name ++ "'"
  | .unexpectedValue word => "unexpected value in '" ++ word ++ "'"
  | .unknownFormat name => "invalid value '" ++ name ++ "' for '--format'"
  | .repeated => "an option cannot be used multiple times"
  | .conflict => "'--all' cannot be used with '--arch'"

/-- How the viewer ends without options. -/
def UsageError.run (e : UsageError) : ProgramRun :=
  match e with
  | .helpWanted => { exit := 0, stdout := e.message.toUTF8, stderr := .empty }
  | _ => { exit := 2, stdout := .empty, stderr := ("error: " ++ e.message ++ "\n").toUTF8 }

def ValueOption.setting (value : String) : ValueOption → Setting
  | .target => .target value
  | .format => .format value

/-! ## Words -/

/-- The settings of one word, and the option that takes the next word as its
value. -/
structure WordReading where
  settings : List Setting
  awaiting : Option ValueOption

def reading (setting : Setting) : WordReading := ⟨[setting], none⟩

/-- A word that starts with two hyphens, which are left out here. -/
def readLong (body : List Char) : Except UsageError WordReading :=
  let word := String.ofList ('-' :: '-' :: body)
  let name := String.ofList (body.takeWhile (· ≠ '='))
  let value :=
    match body.dropWhile (· ≠ '=') with
    | [] => none
    | _ :: value => some (String.ofList value)
  let flag (setting : Setting) : Except UsageError WordReading :=
    if value.isSome then .error (.unexpectedValue word) else .ok (reading setting)
  let valued (option : ValueOption) : Except UsageError WordReading :=
    match value with
    | some value => .ok (reading (option.setting value))
    | none => .ok ⟨[], some option⟩
  match name with
  | "arch" => valued .target
  | "format" => valued .format
  | "all" => flag .all
  | "check" => flag .check
  | "verbose" => flag .verbose
  | "help" => flag .help
  | _ => .error (.unknownOption word)

/-- The value attached to a letter, which an equals sign may set apart. -/
def attached (option : ValueOption) : List Char → WordReading
  | [] => ⟨[], some option⟩
  | '=' :: value => reading (option.setting (String.ofList value))
  | value => reading (option.setting (String.ofList value))

/-- The letters after a single hyphen. -/
def readLetters : List Char → Except UsageError WordReading
  | [] => .ok ⟨[], none⟩
  | 'a' :: rest => .ok (attached .target rest)
  | 'f' :: rest => .ok (attached .format rest)
  | 'v' :: rest => do
    let later ← readLetters rest
    return { later with settings := .verbose :: later.settings }
  | 'h' :: _ => .ok (reading .help)
  | c :: _ => .error (.unknownOption (String.ofList ['-', c]))

def readWord (word : String) : Except UsageError WordReading :=
  match word.toList with
  | '-' :: '-' :: body => readLong body
  | '-' :: c :: letters => readLetters (c :: letters)
  | _ => .error (.unexpectedArgument word)

/-- A word that starts like an option is never taken for a value. -/
def isValue (word : String) : Bool :=
  match word.toList with
  | '-' :: _ :: _ => false
  | _ => true

/-- The settings of a whole command line.  Nothing may follow a bare `--`. -/
def settings : List String → Except UsageError (List Setting)
  | [] => .ok []
  | "--" :: [] => .ok []
  | "--" :: word :: _ => .error (.unexpectedArgument word)
  | word :: rest => do
    let reading ← readWord word
    if .help ∈ reading.settings then return reading.settings
    match reading.awaiting, rest with
    | none, rest => return reading.settings ++ (← settings rest)
    | some option, [] => throw (.missingValue option)
    | some option, value :: rest =>
      if isValue value then
        return reading.settings ++ option.setting value :: (← settings rest)
      else
        throw (.missingValue option)

/-! ## Options -/

structure Options where
  target : Option String := none
  all : Bool := false
  format : Option Format := none
  check : Bool := false
  verbosity : Nat := 0
  deriving DecidableEq, Repr

def Format.ofName? : String → Option Format
  | "text" => some .text
  | "json" => some .json
  | _ => none

namespace Options

/-- Add one setting.  Only the verbosity may be set again. -/
def add (o : Options) : Setting → Except UsageError Options
  | .target name =>
    if o.target.isSome then .error .repeated else .ok { o with target := some name }
  | .format name =>
    match Format.ofName? name with
    | none => .error (.unknownFormat name)
    | some format =>
      if o.format.isSome then .error .repeated else .ok { o with format := some format }
  | .all => if o.all then .error .repeated else .ok { o with all := true }
  | .check => if o.check then .error .repeated else .ok { o with check := true }
  | .verbose => .ok { o with verbosity := o.verbosity + 1 }
  | .help => .error .helpWanted

/-- The options that a command line stands for. -/
def ofArguments (arguments : List String) : Except UsageError Options := do
  let o ← (← settings arguments).foldlM add {}
  if o.all ∧ o.target.isSome then throw .conflict else return o

end Options

/-- What a command line stands for: options, or a run that ends without them. -/
abbrev OptionReader := List String → Except ProgramRun Options

def OptionReader.standard : OptionReader := fun arguments =>
  (Options.ofArguments arguments).mapError UsageError.run

end RuntimeTargets.Viewer
