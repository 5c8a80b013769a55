import WidgetFlow.Project.Load
import WidgetFlow.Report.Format
import WidgetFlow.WindowTree.Builder

/-!
# The command line

What the arguments of a run ask for, and what the run prints. A run asks a disk for the files of
the project, so it is the same on the real disk and on files in memory.
-/

namespace WidgetFlow.CommandLine

open Text

/-! ## Arguments -/

/-- An option that takes a value. -/
inductive Setting where
  | config
  | program
  | res
  | format
  | output
  | apiLevel
  deriving DecidableEq, Repr, Inhabited

/-- An option that takes none. -/
inductive Switch where
  | strict
  | verbose
  | quiet
  | help
  | version
  deriving DecidableEq, Repr, Inhabited

/-- An option of either kind. -/
inductive Flag where
  | setting (setting : Setting)
  | switch (switch : Switch)
  deriving DecidableEq, Repr, Inhabited

def Flag.ofName? : String → Option Flag
  | "config" => some (.setting .config)
  | "program" => some (.setting .program)
  | "res" => some (.setting .res)
  | "format" => some (.setting .format)
  | "output" => some (.setting .output)
  | "api-level" => some (.setting .apiLevel)
  | "strict" => some (.switch .strict)
  | "verbose" => some (.switch .verbose)
  | "quiet" => some (.switch .quiet)
  | "help" => some (.switch .help)
  | "version" => some (.switch .version)
  | _ => none

def Flag.ofLetter? : Char → Option Flag
  | 'c' => some (.setting .config)
  | 'p' => some (.setting .program)
  | 'r' => some (.setting .res)
  | 'f' => some (.setting .format)
  | 'o' => some (.setting .output)
  | 'v' => some (.switch .verbose)
  | 'q' => some (.switch .quiet)
  | 'h' => some (.switch .help)
  | 'V' => some (.switch .version)
  | _ => none

/-- What the arguments say. -/
structure Arguments where
  /-- The directory of the project. -/
  path : Option String := none
  settings : List (Setting × String) := []
  switches : List Switch := []
  deriving DecidableEq, Repr, Inhabited

namespace Arguments

def value? (arguments : Arguments) (setting : Setting) : Option String :=
  arguments.settings.lookup setting

/-- Whether an option is given. -/
def has (arguments : Arguments) (switch : Switch) : Bool := arguments.switches.contains switch

/-- The directory of the project, which is the current one if none is given. -/
def root (arguments : Arguments) : String := arguments.path.getD "."

end Arguments

def apiLevel? (text : String) : Option Nat := do
  let value ← intWithin? 64 10 text.toList
  if 0 ≤ value ∧ value < wordCount 32 then some value.toNat else none

/-- Whether an option takes a value. -/
def Setting.accepts (setting : Setting) (value : String) : Bool :=
  match setting with
  | .format => ReportFormat.all.any fun format => format.text = value
  | .apiLevel => (apiLevel? value).isSome
  | _ => !value.isEmpty

/-- Why the arguments lead to no run. -/
inductive Stop where
  | usage
  /-- They ask for a text about the program. -/
  | help
  | version
  deriving DecidableEq, Repr, Inhabited

/-- The arguments with a value for an option, which is given only once. -/
def withSetting (arguments : Arguments) (setting : Setting) (value : String) :
    Except Stop Arguments :=
  if setting.accepts value && (arguments.value? setting).isNone then
    .ok { arguments with settings := (setting, value) :: arguments.settings }
  else .error .usage

/-- The arguments with an option that takes no value, which is given only once. -/
def withSwitch (arguments : Arguments) (switch : Switch) : Except Stop Arguments :=
  match switch with
  | .help => .error .help
  | .version => .error .version
  | _ =>
    if arguments.has switch then .error .usage
    else .ok { arguments with switches := switch :: arguments.switches }

/-- The arguments with a directory, which is given only once. -/
def withPath (arguments : Arguments) (path : String) : Except Stop Arguments :=
  if path.isEmpty || arguments.path.isSome then .error .usage
  else .ok { arguments with path := some path }

/-- Reads the letters of options after one hyphen. The letter of an option that takes a value is
followed by that value, with or without an equals sign between them; if nothing follows, the value
is still to come. -/
def readLetters (arguments : Arguments) : List Char → Except Stop (Arguments × Option Setting)
  | [] => .ok (arguments, none)
  | letter :: rest =>
    match Flag.ofLetter? letter with
    | none => .error .usage
    | some (.switch switch) => do readLetters (← withSwitch arguments switch) rest
    | some (.setting setting) =>
      match rest with
      | [] => .ok (arguments, some setting)
      | '=' :: value => do return (← withSetting arguments setting (String.ofList value), none)
      | value => do return (← withSetting arguments setting (String.ofList value), none)

/-- Reads an option with a long name, which is followed by its value after an equals sign, or whose
value is still to come. -/
def readName (arguments : Arguments) (text : List Char) :
    Except Stop (Arguments × Option Setting) :=
  match Flag.ofName? (String.ofList (text.takeWhile (· ≠ '='))), text.dropWhile (· ≠ '=') with
  | some (.setting setting), [] => .ok (arguments, some setting)
  | some (.setting setting), _ :: value =>
    do return (← withSetting arguments setting (String.ofList value), none)
  | some (.switch switch), [] => do return (← withSwitch arguments switch, none)
  | _, _ => .error .usage

/-- Whether an argument has the form of an option. A hyphen alone is a value. -/
def isOption (argument : String) : Bool :=
  match argument.toList with
  | '-' :: _ :: _ => true
  | _ => false

/-- Reads arguments in order. After two hyphens alone all arguments are directories. -/
def readAll (arguments : Arguments) : List String → Except Stop Arguments
  | [] => .ok arguments
  | "--" :: rest => rest.foldlM withPath arguments
  | argument :: rest =>
    match argument.toList with
    | '-' :: '-' :: name => do
      match ← readName arguments name, rest with
      | (arguments, none), rest => readAll arguments rest
      | (_, some _), [] => .error .usage
      | (arguments, some setting), value :: rest =>
        if isOption value then .error .usage
        else readAll (← withSetting arguments setting value) rest
    | '-' :: letter :: letters => do
      match ← readLetters arguments (letter :: letters), rest with
      | (arguments, none), rest => readAll arguments rest
      | (_, some _), [] => .error .usage
      | (arguments, some setting), value :: rest =>
        if isOption value then .error .usage
        else readAll (← withSetting arguments setting value) rest
    | _ => do readAll (← withPath arguments argument) rest

def parse (arguments : List String) : Except Stop Arguments := readAll {} arguments

/-! ## Texts about the program -/

def helpText : String :=
  joinWith "\n" [
    "Static reconstruction of Android GUI hierarchies: constraint-graph builder and fixpoint solver",
    "",
    "Usage: guiflow [OPTIONS] [PATH]",
    "",
    "Arguments:",
    "  [PATH]  Path to the project directory to analyze [default: .]",
    "",
    "Options:",
    "  -c, --config <CONFIG>        Path to configuration file",
    "  -p, --program <PROGRAM>      Program model file, relative to the project directory",
    "  -r, --res <RES>              Resource directory, relative to the project directory",
    "  -f, --format <FORMAT>        Output format [possible values: terminal, xml, json]",
    "  -o, --output <OUTPUT>        Output file (for xml/json formats)",
    "      --strict                 Abort on the first sanity violation",
    "      --api-level <API_LEVEL>  Target platform API level",
    "  -v, --verbose                Verbose output",
    "  -q, --quiet                  Quiet mode - only output results",
    "  -h, --help                   Print help",
    "  -V, --version                Print version",
    ""]

def versionText : String := "guiflow 0.1.0\n"

def hundredths (number : Nat) : String :=
  let places := toString (number % 100)
  toString (number / 100) ++ "." ++ (if places.length = 1 then "0" ++ places else places)

/-- A time in the largest unit that it fills, rounded to two places. -/
def timeText (nanoseconds : Nat) : String :=
  let inUnit (unit : Nat) := hundredths ((nanoseconds * 100 + unit / 2) / unit)
  if 1000000000 ≤ nanoseconds then inUnit 1000000000 ++ "s"
  else if 1000000 ≤ nanoseconds then inUnit 1000000 ++ "ms"
  else if 1000 ≤ nanoseconds then inUnit 1000 ++ "µs"
  else inUnit 1 ++ "ns"

/-- The line that tells how long a run took. -/
def timeLine (nanoseconds : Nat) : String := "Analysis completed in " ++ timeText nanoseconds ++ "\n"

/-! ## Runs -/

def configure (arguments : Arguments) (config : Config) : Config :=
  { config with
    model := (arguments.value? .program).getD config.model
    resDir := (arguments.value? .res).getD config.resDir
    format := (arguments.value? .format).getD config.format
    output := (arguments.value? .output).or config.output
    options :=
      { config.options with
        severity := if arguments.has .strict then .fatal else config.options.severity
        apiLevel := ((arguments.value? .apiLevel).bind apiLevel?).getD config.options.apiLevel } }

/-- Why a run fails. -/
inductive RunError where
  | config (error : ConfigError)
  | format (name : String)
  | load (error : LoadError)
  | analysis (error : AnalysisError)
  | unwritable (path : String)
  deriving DecidableEq, Repr, Inhabited

def RunError.message : RunError → String
  | .config error => error.message
  | .format name => "Unknown report format '" ++ name ++ "'"
  | .load error => joinWith ": " (error.message :: error.cause?.toList)
  | .analysis error => error.message
  | .unwritable path => "cannot write " ++ path

variable {m : Type → Type} [Monad m]

/-- The configuration of a run: the one that the arguments name, or the one that the project
keeps. -/
def readConfig (disk : Disk m) (arguments : Arguments) : ExceptT RunError m Config := do
  let result : Except ConfigError Config ← match arguments.value? .config with
    | some path => (Config.read disk path).run
    | none => (Config.readStandard disk arguments.root).run
  match result with
  | .ok config => pure (configure arguments config)
  | .error error => throw (.config error)

def analyze (disk : Disk m) (config : Config) (root : String) : ExceptT RunError m Outcome := do
  let loaded : Except LoadError Context ← (Project.load disk config root).run
  match loaded with
  | .error error => throw (.load error)
  | .ok ctx =>
    match ctx.analyze with
    | .error error => throw (.analysis error)
    | .ok outcome => pure outcome

/-- Writes the report of an outcome to its file, if it has one, and gives what is printed. -/
def report (disk : Disk m) (format : ReportFormat) (output : Option String) (outcome : Outcome) :
    ExceptT RunError m String := do
  let tree := outcome.builtApp
  match output, format.fileText? tree outcome.findings with
  | some path, some text =>
    if ← disk.write path text then pure ("Report written to: " ++ path ++ "\n")
    else throw (.unwritable path)
  | _, _ => pure (format.printed tree outcome.findings)

/-- What a run prints. -/
structure Printed where
  text : String
  /-- Whether the time that the run took is printed too. -/
  timed : Bool
  deriving DecidableEq, Repr, Inhabited

def execute (disk : Disk m) (arguments : Arguments) : ExceptT RunError m Printed := do
  let config ← readConfig disk arguments
  match ReportFormat.parse? config.format with
  | none => throw (.format config.format)
  | some format =>
    let outcome ← analyze disk config arguments.root
    let text ← report disk format config.output outcome
    pure { text, timed := format = .terminal && !arguments.has .quiet }

/-- How a run ends. -/
structure Ending where
  exitCode : UInt32
  output : String := ""
  /-- What is printed for the user besides the output. -/
  complaint : Option String := none
  timed : Bool := false
  deriving DecidableEq, Repr, Inhabited

def run (disk : Disk m) (arguments : List String) : m Ending := do
  match parse arguments with
  | .error .help => pure { exitCode := 0, output := helpText }
  | .error .version => pure { exitCode := 0, output := versionText }
  | .error .usage =>
    pure { exitCode := 2, complaint := some "Usage: guiflow [OPTIONS] [PATH]" }
  | .ok arguments =>
    match ← (execute disk arguments).run with
    | .ok printed => pure { exitCode := 0, output := printed.text, timed := printed.timed }
    | .error error => pure { exitCode := 1, complaint := some error.message }

end WidgetFlow.CommandLine
