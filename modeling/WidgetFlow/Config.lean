import WidgetFlow.Context
import WidgetFlow.Data.Shape

/-!
# Configurations

A configuration holds the options of the analysis, where the parts of a project are, and how the
report is written. Every setting has a default.
-/

namespace WidgetFlow

/-- The settings of a run. Places are relative to the project. -/
structure Config where
  options : Options := {}
  /-- The directory of the resources. -/
  resDir : String := "res"
  manifest : String := "AndroidManifest.xml"
  /-- A directory of resources that go before those of the platform. -/
  platformResDir : Option String := none
  model : String := "program.yaml"
  /-- The name of the format of the report. -/
  format : String := "terminal"
  /-- The file that the report is written to. -/
  output : Option String := none
  deriving DecidableEq, Repr, Inhabited

/-- Why there is no configuration. -/
inductive ConfigError where
  | unreadable (path : String)
  /-- The text is in none of the formats that it may have. -/
  | malformed (formats : List DataFormat)
  deriving DecidableEq, Repr, Inhabited

def ConfigError.message : ConfigError → String
  | .unreadable path => "Failed to read config file: " ++ path
  | .malformed [.yaml] => "Failed to parse YAML config"
  | .malformed [.toml] => "Failed to parse TOML config"
  | .malformed _ => "Failed to parse config file"

def Severity.text : Severity → String
  | .fatal => "fatal"
  | .warn => "warn"

def Severity.parse? (name : String) : Option Severity :=
  [Severity.fatal, .warn].find? fun severity => severity.text = name

namespace Datum

def severity? (format : DataFormat) : Datum → Option Severity
  | .str name => Severity.parse? name
  | .record [(name, .null)] => if format = .json then Severity.parse? name else none
  | _ => none

def options? (format : DataFormat) (value : Datum) : Option Options := do
  let fields ← value.fields? format
    ["sanity_policy", "api_level", "tab_indicator_layout", "handle_tab_host", "handle_dialogs",
      "handle_lists"]
  let standard : Options := {}
  some
    { severity := ← withDefault (field fields 0) standard.severity (severity? format)
      apiLevel := ← withDefault (field fields 1) standard.apiLevel (natBelow? (Text.wordCount 32))
      tabIndicatorLayout := ← withDefault (field fields 2) standard.tabIndicatorLayout str?
      tabHosts := ← withDefault (field fields 3) standard.tabHosts bool?
      dialogs := ← withDefault (field fields 4) standard.dialogs bool?
      lists := ← withDefault (field fields 5) standard.lists bool? }

def resourceSettings? (format : DataFormat) (config : Config) (value : Datum) : Option Config := do
  let fields ← value.fields? format ["res_dir", "manifest", "platform_res_dir"]
  some
    { config with
      resDir := ← withDefault (field fields 0) config.resDir str?
      manifest := ← withDefault (field fields 1) config.manifest str?
      platformResDir := ← withDefault (field fields 2) config.platformResDir (optional? str?) }

def programSettings? (format : DataFormat) (config : Config) (value : Datum) : Option Config := do
  let fields ← value.fields? format ["model"]
  some { config with model := ← withDefault (field fields 0) config.model str? }

/-- The settings of a configuration that say how the report is written. -/
def reportSettings? (format : DataFormat) (config : Config) (value : Datum) : Option Config := do
  let fields ← value.fields? format ["format", "output"]
  some
    { config with
      format := ← withDefault (field fields 0) config.format str?
      output := ← withDefault (field fields 1) config.output (optional? str?) }

def config? (format : DataFormat) (value : Datum) : Option Config := do
  let fields ← value.fields? format ["analysis", "resources", "program", "report"]
  let config : Config := { options := ← withDefault (field fields 0) {} (options? format) }
  let config ← withDefault (field fields 1) config (resourceSettings? format config)
  let config ← withDefault (field fields 2) config (programSettings? format config)
  withDefault (field fields 3) config (reportSettings? format config)

end Datum

namespace Config

def formatsOf (extension : String) : List DataFormat :=
  if extension = "yml" ∨ extension = "yaml" then [.yaml]
  else if extension = "toml" then [.toml]
  else [.yaml, .toml]

/-- Reads a configuration in the first format that fits. -/
def parse (extension text : String) : Except ConfigError Config :=
  let formats := formatsOf extension
  match formats.findSome? fun format => (format.parse? text).bind (Datum.config? format) with
  | some config => .ok config
  | none => .error (.malformed formats)

def datum (config : Config) : Datum :=
  let options := config.options
  let path? (path : Option String) : Datum := path.elim .null .str
  .record [
    ("analysis", .record [
      ("sanity_policy", .str options.severity.text), ("api_level", .int options.apiLevel),
      ("tab_indicator_layout", .str options.tabIndicatorLayout),
      ("handle_tab_host", .bool options.tabHosts), ("handle_dialogs", .bool options.dialogs),
      ("handle_lists", .bool options.lists)]),
    ("resources", .record [
      ("res_dir", .str config.resDir), ("manifest", .str config.manifest),
      ("platform_res_dir", path? config.platformResDir)]),
    ("program", .record [("model", .str config.model)]),
    ("report", .record [("format", .str config.format), ("output", path? config.output)])]

/-- The names of the files that a project keeps its configuration in, the first that there is
counts. -/
def standardNames : List String :=
  [".guiflow.yml", ".guiflow.yaml", ".guiflow.toml", "guiflow.yml", "guiflow.yaml", "guiflow.toml"]

end Config

end WidgetFlow
