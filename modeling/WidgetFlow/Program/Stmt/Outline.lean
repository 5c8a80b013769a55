import WidgetFlow.Program.Stmt
import WidgetFlow.Text.Quoted

/-!
# Outlines of values

Findings about a value that the analysis cannot follow show how the value is built: the name of its
form with its parts in brackets.
-/

namespace WidgetFlow

open Text

def outlineRecord (form : String) (parts : List (String × String)) : String :=
  form ++ " \x7b " ++ joinWith ", " (parts.map fun part => part.1 ++ ": " ++ part.2) ++ " \x7d"

def outlineOf (form part : String) : String := form ++ "(" ++ part ++ ")"

def Ty.outline : Ty → String
  | .void => "Void"
  | .boolean => "Boolean"
  | .byte => "Byte"
  | .char => "Char"
  | .short => "Short"
  | .int => "Int"
  | .long => "Long"
  | .float => "Float"
  | .double => "Double"
  | .nullType => "Null"
  | .ref name => outlineOf "Ref" (quoted name)
  | .array item => outlineOf "Array" item.outline

def FieldRef.outline (field : FieldRef) : String :=
  outlineRecord "FieldRef"
    [("class", quoted field.owner), ("ty", field.ty.outline), ("name", quoted field.name)]

def MethodSig.outline (sig : MethodSig) : String :=
  outlineRecord "MethodSig"
    [("class", quoted sig.owner), ("ret", sig.result.outline), ("name", quoted sig.name),
      ("params", "[" ++ joinWith ", " (sig.params.map Ty.outline) ++ "]")]

/-- The outline of the way in which a call finds its target. -/
def CallKind.outline : CallKind → String
  | .virtual => "Virtual"
  | .interface => "Interface"
  | .special => "Special"
  | .static => "Static"

def outlineOption : Option String → String
  | some text => outlineOf "Some" (quoted text)
  | none => "None"

mutual

def Value.outline : Value → String
  | .var name => outlineOf "Local" (quoted name)
  | .int value => outlineOf "IntConst" (decimal value.toInt)
  | .str text => outlineOf "StringConst" (quoted text)
  | .null => "Null"
  | .staticField member => outlineOf "StaticField" member.outline
  | .field base member =>
    outlineRecord "InstanceField" [("base", quoted base), ("field", member.outline)]
  | .element base index =>
    outlineRecord "ArrayRef" [("base", quoted base), ("index", index.outline)]
  | .new created => outlineOf "New" (quoted created)
  | .newArray item size =>
    outlineRecord "NewArray" [("elem", item.outline), ("size", size.outline)]
  | .cast ty operand => outlineRecord "Cast" [("ty", ty.outline), ("value", operand.outline)]
  | .call ⟨kind, method, base, args⟩ =>
    outlineOf "Invoke" (outlineRecord "InvokeExpr"
      [("kind", kind.outline), ("method", method.outline), ("base", outlineOption base),
        ("args", "[" ++ joinWith ", " (Value.outlines args) ++ "]")])
  | .other text => outlineOf "Other" (quoted text)

def Value.outlines : List Value → List String
  | [] => []
  | value :: values => value.outline :: Value.outlines values

end

end WidgetFlow
