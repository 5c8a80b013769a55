import WidgetFlow.Ordered
import WidgetFlow.Project.Disk
import WidgetFlow.Resource.Table

/-!
# Resource files of a project

A resource directory holds the files of each kind in a directory of their own. The name of that
directory may go on with a qualifier after a hyphen; a file in a directory without one is for every
configuration of a device.
-/

namespace WidgetFlow

/-- The path of a resource file with its kind. -/
structure ResourcePath where
  path : String
  kind : ResourceFileKind
  deriving DecidableEq, Repr, Inhabited

def ResourceFileKind.ofDirectory? (name : String) : Option ResourceFileKind :=
  let base := String.ofList (name.toList.takeWhile (· ≠ '-'))
  [ResourceFileKind.layout, .menu, .values].find? fun kind => kind.text = base

namespace ResourcePath

def of? (path : String) : Option ResourcePath :=
  if Path.extension? path = some "xml" then
    ((Path.parentName? path).bind ResourceFileKind.ofDirectory?).map fun kind => { path, kind }
  else none

def name (file : ResourcePath) : String := Path.stem file.path

def isDefault (file : ResourcePath) : Bool :=
  (Path.parentName? file.path).any fun name => !name.toList.contains '-'

/-- The key that orders resource files: those for every configuration first. -/
def key (file : ResourcePath) : List String :=
  (if file.isDefault then "" else "qualified") :: Path.key file.path

def ofKind (kind : ResourceFileKind) (files : List ResourcePath) : List ResourcePath :=
  files.filter fun file => file.kind = kind

variable {m : Type → Type} [Monad m]

/-- The resource files that a search in some directories comes upon, in order. -/
def find (disk : Disk m) (directories : List String) : m (List ResourcePath) := do
  let found ← directories.mapM disk.files
  pure (Ordered.sort key (found.flatten.filterMap of?))

/-- Reads the resource file at a path. -/
def read (disk : Disk m) (file : ResourcePath) : ExceptT AnalysisError m ResourceFile := do
  match ← disk.read? file.path with
  | some contents => pure { path := file.path, kind := file.kind, name := file.name, contents }
  | none => throw (.unreadable file.path)

end ResourcePath

end WidgetFlow
