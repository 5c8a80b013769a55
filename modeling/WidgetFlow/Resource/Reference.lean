import WidgetFlow.Ordered
import WidgetFlow.Text.Numeral
import WidgetFlow.Text.Pieces

/-!
# Resource identifiers and references to them

An `IdTable` gives the identifiers of named resources of each kind; the resources of the
application and those of the platform have one each. A reference such as `@+id/name` is a text
that names a resource, and `Reference.read` finds its name and its identifier.
-/

namespace WidgetFlow

/-- The kinds of resources that have identifiers of interest. -/
inductive ResKind where
  | layout
  | menu
  | id
  | string
  | attr
  deriving DecidableEq, Repr, Inhabited

namespace ResKind

def text : ResKind → String
  | layout => "layout"
  | menu => "menu"
  | id => "id"
  | string => "string"
  | attr => "attr"

/-- All kinds, in the order in which a name for a bare identifier is searched. -/
def all : List ResKind := [layout, menu, id, string, attr]

def parse? (name : String) : Option ResKind := all.find? fun kind => kind.text = name

end ResKind

/-- One declaration of an identifier. -/
structure IdEntry where
  kind : ResKind
  name : String
  value : ResId
  deriving DecidableEq, Repr, Inhabited

/-- A table of identifiers: all declarations made so far, the latest first. Both look-ups answer
from the latest declaration that fits. -/
structure IdTable where
  entries : List IdEntry := []
  deriving Repr, Inhabited

namespace IdTable

def insert (table : IdTable) (kind : ResKind) (name : String) (value : ResId) : IdTable :=
  { entries := { kind, name, value } :: table.entries }

def id? (table : IdTable) (kind : ResKind) (name : String) : Option ResId :=
  (table.entries.find? fun entry => entry.kind = kind && entry.name = name).map IdEntry.value

def name? (table : IdTable) (kind : ResKind) (value : ResId) : Option String :=
  (table.entries.find? fun entry => entry.kind = kind && entry.value = value).map IdEntry.name

/-- The name of an identifier of any kind; a kind other than `id` stands before the name. -/
def anyName? (table : IdTable) (value : ResId) : Option String :=
  ResKind.all.findSome? fun kind =>
    (table.name? kind value).map fun name =>
      if kind = .id then name else kind.text ++ "_" ++ name

/-- All identifiers of a kind, ascending and without repetition. -/
def values (table : IdTable) (kind : ResKind) : List ResId :=
  Ordered.sort (fun value : ResId => value)
    ((table.entries.filter fun entry => entry.kind = kind).map IdEntry.value).eraseDups

end IdTable

/-- What a reference names: the name, and the identifier if it has one. -/
structure Reference where
  name : Option String := none
  value : Option ResId := none
  deriving DecidableEq, Repr, Inhabited

namespace Reference

open Text

/-- The identifier that hexadecimal digits stand for, which may follow an at sign and `0x`. -/
def hex? (text : List Char) : Option ResId :=
  let text := (after? "@" text).getD text
  let text := (after? "0x" text).getD text
  (intWithin? 64 16 text).map Int32.ofInt

/-- A kind and a name that are words and have a slash between them, from the text after the
beginning of the reference. -/
def typed? (text : List Char) : Option (String × String) := do
  let (kind, rest) ← run1? isWord text
  let rest ← after? "/" rest
  let (name, rest) ← run1? isWord rest
  if rest.isEmpty then some (String.ofList kind, String.ofList name) else none

def named (table : IdTable) (kind : Option ResKind) (name : String) : Reference :=
  { name := some name, value := kind.bind fun kind => table.id? kind name }

/-- The name that follows one of some beginnings. -/
def afterAny? (literals : List String) (text : List Char) : Option String :=
  (literals.findSome? fun literal => after? literal text).map String.ofList

def platformTyped? (text : List Char) : Option (String × String) :=
  (after? "@*android:" text).bind typed? <|> (after? "@android:" text).bind typed?

/-- A reference to the platform by the eight characters of an identifier. -/
def platformHex? (text : List Char) : Option (List Char) :=
  (after? "@android:" text).bind fun rest =>
    if rest.length = 8 && rest.all fun c => !isBlank c then some rest else none

/-- Reads a reference. A reference that says nothing of the platform is looked up in the platform's
own table if it stands in a file of the platform. -/
def read (app sys : IdTable) (source : String) (system : Bool) : Reference :=
  let text := source.toList
  let own := if system then sys else app
  match afterAny? ["@id/android:", "@+id/android:", "@+android:id/"] text with
  | some name => named sys (some .id) name
  | none =>
  match afterAny? ["@+id/", "@id/"] text with
  | some name => named own (some .id) name
  | none =>
  match afterAny? ["@android:id/"] text with
  | some name => named sys (some .id) name
  | none =>
  match afterAny? ["@android:attr/"] text with
  | some name => named sys (some .attr) name
  | none =>
  match platformTyped? text with
  | some (kind, name) => named sys (ResKind.parse? kind) name
  | none =>
  match platformHex? text with
  | some digits => { name := (hex? digits).bind sys.anyName?, value := hex? digits }
  | none =>
  match (after? "@" text).bind typed? with
  | some (kind, name) => named own (ResKind.parse? kind) name
  | none =>
  match hex? text with
  | some value => if 0 < value then { name := own.anyName? value, value := some value } else {}
  | none => {}

end Reference

end WidgetFlow
