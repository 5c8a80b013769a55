import WidgetFlow.Text.Pieces
import WidgetFlow.Text.Word

/-!
# Types

The types of locals, fields, parameters and results. A type is written as its name, and an array
as the name of its element type followed by `[]`. `Ty.parse?` reads what `Ty.text` writes.
-/

namespace WidgetFlow

/-- A type of the analysed program. -/
inductive Ty where
  | void
  | boolean
  | byte
  | char
  | short
  | int
  | long
  | float
  | double
  | nullType
  /-- A class or an interface. -/
  | ref (name : String)
  | array (element : Ty)
  deriving DecidableEq, Repr, Inhabited

namespace Ty

def text : Ty → String
  | void => "void"
  | boolean => "boolean"
  | byte => "byte"
  | char => "char"
  | short => "short"
  | int => "int"
  | long => "long"
  | float => "float"
  | double => "double"
  | nullType => "null_type"
  | ref name => name
  | array element => element.text ++ "[]"

def className? : Ty → Option String
  | ref name => some name
  | _ => none

/-- Whether values of the type may be resource identifiers. -/
def isInt : Ty → Bool
  | int => true
  | _ => false

/-- Whether values of the type take part in the flow: identifiers, objects and arrays. -/
def carriesFlow : Ty → Bool
  | int => true
  | ref _ => true
  | array _ => true
  | _ => false

def element? : Ty → Option Ty
  | array element => some element
  | _ => none

/-- The type that a name without array brackets stands for: a reserved word or a class. -/
def ofName (name : String) : Ty :=
  if name = "void" then void
  else if name = "boolean" then boolean
  else if name = "byte" then byte
  else if name = "char" then char
  else if name = "short" then short
  else if name = "int" then int
  else if name = "long" then long
  else if name = "float" then float
  else if name = "double" then double
  else if name = "null_type" then nullType
  else ref name

/-- A character that may follow the first one of a type name. -/
def isNamePart (c : Char) : Bool := Text.isNameChar c || c == '.'

/-- Wraps `base` in one array for each pair of brackets, if the text is made of such pairs. -/
def brackets? (base : Ty) : List Char → Option Ty
  | [] => some base
  | '[' :: ']' :: rest => brackets? (array base) rest
  | _ => none

/-- Reads a type whose text has no blanks around it. -/
def read? : List Char → Option Ty
  | [] => none
  | c :: rest =>
    if Text.isNameStart c then
      brackets? (ofName (String.ofList (c :: rest.takeWhile isNamePart))) (rest.dropWhile isNamePart)
    else none

/-- Reads a type, with blanks around it allowed. -/
def parse? (source : String) : Option Ty := read? (Text.trim source.toList)

end Ty

end WidgetFlow
