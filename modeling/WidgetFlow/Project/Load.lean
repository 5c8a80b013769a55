import WidgetFlow.Config
import WidgetFlow.Project.ResourcePath

/-!
# Loading projects

A project is a directory with a program, its resources and its manifest. Its configuration says
where they are.
-/

namespace WidgetFlow

/-- Why there is no program. -/
inductive ProgramFault where
  | unreadable
  | malformed (format : DataFormat)
  deriving DecidableEq, Repr, Inhabited

/-- Why a project cannot be loaded. -/
inductive LoadError where
  | program (path : String) (fault : ProgramFault)
  | scene (error : AnalysisError)
  | resources (error : AnalysisError)
  deriving DecidableEq, Repr, Inhabited

namespace LoadError

def message : LoadError → String
  | program path _ => "Failed to load program model " ++ path
  | scene error => error.message
  | resources _ => "Failed to load resources"

/-- The text of what is behind an error, unless only the disk knows. -/
def cause? : LoadError → Option String
  | program path .unreadable => some ("Failed to read program model: " ++ path)
  | program _ (.malformed .json) => some "Failed to parse JSON program model"
  | program _ (.malformed _) => some "Failed to parse YAML program model"
  | scene _ => none
  | resources (.unreadable _) => none
  | resources error => some error.message

end LoadError

namespace Config

variable {m : Type → Type} [Monad m]

def read (disk : Disk m) (path : String) : ExceptT ConfigError m Config := do
  match ← disk.read? path with
  | some text => parse ((Path.extension? path).getD "") text
  | none => throw (.unreadable path)

def firstPresent? (disk : Disk m) : List String → m (Option String)
  | [] => pure none
  | path :: rest => do
    if (← disk.kind? path).isSome then pure (some path) else firstPresent? disk rest

/-- Reads the configuration that a project keeps, if it keeps one. -/
def readStandard (disk : Disk m) (root : String) : ExceptT ConfigError m Config := do
  let present : Option String ← (firstPresent? disk (standardNames.map (Path.join root)) : m _)
  match present with
  | some path => read disk path
  | none => pure {}

end Config

namespace Project

variable {m : Type → Type} [Monad m]

def readProgram (disk : Disk m) (path : String) : ExceptT LoadError m Program := do
  let format : DataFormat := if Path.extension? path = some "json" then .json else .yaml
  match ← disk.read? path with
  | none => throw (.program path .unreadable)
  | some text =>
    match Program.parse? format text with
    | some program => pure program
    | none => throw (.program path (.malformed format))

/-- Enters the files of one resource directory: first the values, then the layouts, then the menus,
and last the inclusions are replaced. A file is read when its turn comes. All layouts are read
before the first is entered. -/
def addDirectory (disk : Disk m) (system : Bool) (table : ResourceTable) (directory : String) :
    ExceptT AnalysisError m ResourceTable := do
  let found : List ResourcePath ← (ResourcePath.find disk [directory] : m _)
  let table ← (ResourcePath.ofKind .values found).foldlM (fun table place => do
    table.addValues system (← place.read disk)) table
  let layouts ← (ResourcePath.ofKind .layout found).mapM fun place => do
    table.readLayout system (← place.read disk)
  let table ← (ResourcePath.ofKind .menu found).foldlM (fun table place => do
    table.addMenuFile system (← place.read disk)) (table.enterLayouts system layouts)
  pure (table.resolveIncludes system)

def readManifest? (disk : Disk m) (path : String) :
    ExceptT AnalysisError m (Option Manifest) := do
  match ← disk.kind? path with
  | none => pure none
  | some _ =>
    match ← disk.read? path with
    | some text => return some (← Manifest.read path (Markup.events text))
    | none => throw (.unreadable path)

def readResources (disk : Disk m) (config : Config) (root : String) :
    ExceptT AnalysisError m ResourceTable := do
  let table ← match config.platformResDir with
    | some directory => addDirectory disk true .builtin (Path.join root directory)
    | none => pure .builtin
  let table ← addDirectory disk false table (Path.join root config.resDir)
  match ← readManifest? disk (Path.join root config.manifest) with
  | some manifest => pure { table with manifest }
  | none => pure table

/-- Loads a project: first its program, then its resources. -/
def load (disk : Disk m) (config : Config) (root : String) : ExceptT LoadError m Context := do
  let program ← readProgram disk (Path.join root config.model)
  let scene ← match Scene.ofProgram program with
    | .ok scene => pure scene
    | .error error => throw (.scene error)
  let resources : Except AnalysisError ResourceTable ← (readResources disk config root).run
  match resources with
  | .ok resources => pure (Context.of scene resources config.options)
  | .error error => throw (.resources error)

end Project

end WidgetFlow
