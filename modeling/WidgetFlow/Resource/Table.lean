import WidgetFlow.Platform.Resources
import WidgetFlow.Resource.Manifest
import WidgetFlow.Resource.Menu
import WidgetFlow.Resource.Values
import Std.Data.TreeMap

/-!
# The resource table

All resources of an application and of the platform: identifiers, trees of layouts and menus,
texts of strings, and the manifest. A resource without a declared identifier gets a fresh one, and
these count down from a number that no declared identifier uses.
-/

namespace WidgetFlow

abbrev Trees := Std.TreeMap ResId Element

/-- The resources of an application and of the platform. -/
structure ResourceTable where
  app : IdTable := {}
  sys : IdTable := Platform.idTable
  layouts : Trees := {}
  sysLayouts : Trees := .ofList Platform.layoutTrees
  menus : Trees := {}
  /-- The texts of strings by name. -/
  strings : Std.TreeMap String String := {}
  manifest : Manifest := {}
  nextFresh : ResId := -0x7f040000
  deriving Inhabited

/-- What a resource file declares, as its directory tells. -/
inductive ResourceFileKind where
  | layout
  | menu
  | values
  deriving DecidableEq, Repr, Inhabited

/-- The name of a directory of resource files. -/
def ResourceFileKind.text : ResourceFileKind → String
  | .layout => "layout"
  | .menu => "menu"
  | .values => "values"

/-- A resource file that has been read. -/
structure ResourceFile where
  path : String
  kind : ResourceFileKind
  /-- The name of the resource: that of the file without its extension. -/
  name : String
  contents : String
  deriving Repr, Inhabited

namespace ResourceTable

def builtin : ResourceTable := {}

/-! ## Look-ups -/

/-- The identifiers that a file refers to without naming the platform. -/
def own (table : ResourceTable) (system : Bool) : IdTable := if system then table.sys else table.app

def withOwn (table : ResourceTable) (system : Bool) (ids : IdTable) : ResourceTable :=
  if system then { table with sys := ids } else { table with app := ids }

def ownLayouts (table : ResourceTable) (system : Bool) : Trees :=
  if system then table.sysLayouts else table.layouts

def withOwnLayouts (table : ResourceTable) (system : Bool) (trees : Trees) : ResourceTable :=
  if system then { table with sysLayouts := trees } else { table with layouts := trees }

/-- The platform's identifier of a view. -/
def sysId? (table : ResourceTable) (name : String) : Option ResId := table.sys.id? .id name

/-- The platform's identifier of a layout. -/
def sysLayout? (table : ResourceTable) (name : String) : Option ResId := table.sys.id? .layout name

/-- The tree of a layout; one of the application hides one of the platform. -/
def layout? (table : ResourceTable) (id : ResId) : Option Element :=
  match table.layouts[id]? with
  | some tree => some tree
  | none => table.sysLayouts[id]?

def menu? (table : ResourceTable) (id : ResId) : Option Element := table.menus[id]?

def idsOf (table : ResourceTable) (kind : ResKind) : List ResId :=
  Ordered.sort (fun value : ResId => value) (table.app.values kind ++ table.sys.values kind).eraseDups

/-- The identifiers of the application's strings, ascending. -/
def stringIds (table : ResourceTable) : List ResId := table.app.values .string

/-- Whether an identifier is declared for a kind, by the application or the platform. -/
def isDeclared (table : ResourceTable) (kind : ResKind) (value : ResId) : Bool :=
  (table.app.name? kind value).isSome || (table.sys.name? kind value).isSome

/-- Whether an identifier is that of a string of the application. -/
def isStringId (table : ResourceTable) (value : ResId) : Bool :=
  (table.app.name? .string value).isSome

/-- The name of a view's identifier; the platform's names are marked. -/
def idName? (table : ResourceTable) (value : ResId) : Option String :=
  match table.app.name? .id value with
  | some name => some name
  | none => (table.sys.name? .id value).map ("android:" ++ ·)

def nameOf? (table : ResourceTable) (kind : ResKind) (value : ResId) : Option String :=
  match table.app.name? kind value with
  | some name => some name
  | none => table.sys.name? kind value

def stringValue? (table : ResourceTable) (value : ResId) : Option String :=
  (table.app.name? .string value).bind fun name => table.strings[name]?

/-! ## Declarations -/

/-- Declares an identifier of the application. -/
def addId (table : ResourceTable) (kind : ResKind) (name : String) (value : ResId) : ResourceTable :=
  { table with app := table.app.insert kind name value }

def addLayout (table : ResourceTable) (name : String) (id : ResId) (root : Element) : ResourceTable :=
  { table.addId .layout name id with layouts := table.layouts.insert id root }

def addMenu (table : ResourceTable) (name : String) (id : ResId) (root : Element) : ResourceTable :=
  { table.addId .menu name id with menus := table.menus.insert id root }

/-- The identifier of a resource, which is a fresh one if none is declared. -/
def register (table : ResourceTable) (kind : ResKind) (name : String) (system : Bool) :
    ResId × ResourceTable :=
  match (table.own system).id? kind name with
  | some id => (id, table)
  | none =>
    let id := table.nextFresh
    (id, { table with nextFresh := id - 1 }.withOwn system ((table.own system).insert kind name id))

/-! ## Files -/

/-- Enters the declarations of a values file. Only the application has strings. -/
def addValues (system : Bool) (table : ResourceTable) (file : ResourceFile) :
    Except AnalysisError ResourceTable := do
  let content ← Values.read file.path (Markup.events file.contents)
  let ids := content.entries.foldl (fun ids entry =>
    match ResKind.parse? entry.kind with
    | some kind => ids.insert kind entry.name entry.id
    | none => ids) (table.own system)
  let strings := if system then table.strings else
    content.strings.foldl (fun strings entry => strings.insert entry.1 entry.2) table.strings
  pure ({ table with strings }.withOwn system ids)

/-- Reads a layout file with the identifiers declared so far. -/
def readLayout (table : ResourceTable) (system : Bool) (file : ResourceFile) :
    Except AnalysisError (String × Option Element) :=
  (Layout.read (fun reference => (Reference.read table.app table.sys reference system).value)
    file.path (Markup.events file.contents)).map (file.name, ·)

/-- Enters a layout that has been read. The first file of a layout counts. -/
def enterLayout (system : Bool) (table : ResourceTable) (name : String) (root : Option Element) :
    ResourceTable :=
  match root with
  | none => table
  | some root =>
    let (id, table) := table.register .layout name system
    table.withOwnLayouts system ((table.ownLayouts system).insertIfNew id root)

/-- Enters layouts that have been read, in order. -/
def enterLayouts (system : Bool) (table : ResourceTable) (layouts : List (String × Option Element)) :
    ResourceTable :=
  layouts.foldl (fun table layout => table.enterLayout system layout.1 layout.2) table

/-- The fresh identifiers that a menu file has got so far, and the next one. -/
structure FreshIds where
  names : List (String × ResId) := []
  next : ResId

/-- The identifier of a reference in a menu: a fresh one for a name that has none. -/
def resolveFresh (table : ResourceTable) (system : Bool) (source : String) : StateM FreshIds ResId :=
  fun fresh =>
    let reference := Reference.read table.app table.sys source system
    match reference.value with
    | some value => (value, fresh)
    | none =>
      let name := reference.name.getD source
      match fresh.names.lookup name with
      | some value => (value, fresh)
      | none => (fresh.next, { names := (name, fresh.next) :: fresh.names, next := fresh.next - 1 })

def addMenuFile (system : Bool) (table : ResourceTable) (file : ResourceFile) :
    Except AnalysisError ResourceTable := do
  let (result, fresh) := (MenuFile.read (table.resolveFresh system) file.path
    (Markup.events file.contents)).run { next := table.nextFresh }
  let root ← result
  let ids := fresh.names.foldl (fun ids entry => ids.insert .id entry.1 entry.2) (table.own system)
  let table := { table with nextFresh := fresh.next }.withOwn system ids
  match root with
  | none => pure table
  | some root =>
    let (id, table) := table.register .menu file.name system
    pure { table with menus := table.menus.insertIfNew id root }

/-! ## Inclusions -/

/-- The layout that an inclusion names, with its identifier. A bare name is first looked for among
the layouts of its own side, and then among those of the platform. -/
def includeTarget? (table : ResourceTable) (system : Bool) (target : IncludeTarget) :
    Option (ResId × Element) :=
  let own (id : ResId) := ((table.ownLayouts system)[id]?).map (id, ·)
  let platform (id : ResId) := (table.sysLayouts[id]?).map (id, ·)
  match target with
  | .named name true => (table.sys.id? .layout name).bind platform
  | .named name false =>
    ((table.own system).id? .layout name).bind own <|> (table.sys.id? .layout name).bind platform
  | .numbered id => own id <|> platform id

/-- A tree with its inclusions replaced by the trees that they name. `around` holds the layouts that
are being included, which may not be included again. -/
def expand (table : ResourceTable) (system : Bool) : Nat → List ResId → Element → Element
  | 0, _, tree => tree
  | bound + 1, around, tree =>
    tree.expand fun inclusion =>
      match table.includeTarget? system inclusion.target with
      | none => none
      | some (id, target) =>
        if around.contains id then none
        else
          let copy := match inclusion.id with
            | some own => { target with id := some own }
            | none => target
          some (expand table system bound (id :: around) copy)

/-- Replaces the inclusions in all layouts of one side. Inclusions nest no deeper than there are
layouts. -/
def resolveIncludes (system : Bool) (table : ResourceTable) : ResourceTable :=
  let bound := table.layouts.size + table.sysLayouts.size + 1
  table.withOwnLayouts system
    ((table.ownLayouts system).map fun id tree => table.expand system bound [id] tree)

end ResourceTable

end WidgetFlow
