import WidgetFlow.Text.Pieces

/-!
# Paths

A path is a text whose parts stand between slashes. Empty parts and single dots lead nowhere.
-/

namespace WidgetFlow.Path

open Text

def parts (path : String) : List String := (splitOn '/' path.toList).map String.ofList

/-- The steps of a path: its parts without those that lead nowhere. -/
def steps (path : String) : List String :=
  (parts path).filter fun part => part ≠ "" ∧ part ≠ "."

/-- Whether a path begins at the root of the disk. -/
def isAbsolute (path : String) : Bool := path.toList.head? = some '/'

/-- A path that starts from a base. An absolute path stays as it is. -/
def join (base path : String) : String :=
  if isAbsolute path || base.isEmpty then path
  else if base.toList.getLast? = some '/' then base ++ path
  else base ++ "/" ++ path

/-- The name at the end of some steps; going up leads to no name. -/
def lastName? (steps : List String) : Option String := steps.getLast?.filter (· ≠ "..")

def fileName? (path : String) : Option String := lastName? (steps path)

def parentName? (path : String) : Option String := lastName? (steps path).dropLast

/-- A name cut at its last dot. A dot at the beginning does not count. -/
def cutName (name : String) : String × Option String :=
  let characters := name.toList.reverse
  match characters.dropWhile (· ≠ '.') with
  | '.' :: c :: stem =>
    (String.ofList (c :: stem).reverse, some (String.ofList (characters.takeWhile (· ≠ '.')).reverse))
  | _ => (name, none)

/-- The name of a file without its extension. -/
def stem (path : String) : String := (fileName? path).elim "" fun name => (cutName name).1

def extension? (path : String) : Option String := (fileName? path).bind fun name => (cutName name).2

/-- The key that orders paths by their steps. Going up comes before every name. -/
def key (path : String) : List String :=
  (steps path).map fun step => if step = ".." then "" else step

end WidgetFlow.Path
