import WidgetFlow.Program.Stmt

/-!
# Writing statements

The canonical text of a statement: one blank around the assignment sign, arguments joined by a
comma and a blank, integers in base ten, and quotes and backslashes in strings escaped by a
backslash.
-/

namespace WidgetFlow

/-- One character of a string constant as it is written between quotes. -/
def escapeChar (c : Char) : List Char := if c = '"' ∨ c = '\\' then ['\\', c] else [c]

def CallKind.word : CallKind → String
  | .virtual => "virtualinvoke"
  | .interface => "interfaceinvoke"
  | .special => "specialinvoke"
  | .static => "staticinvoke"

def Call.textWith {Arg : Type} (call : Call Arg) (args : List String) : String :=
  call.kind.word ++ " " ++ (match call.base with
    | some base => base ++ "."
    | none => "") ++ call.method.text ++ "(" ++ Text.joinWith ", " args ++ ")"

mutual

@[simp] def Value.text : Value → String
  | .var name => name
  | .int value => Text.decimal value.toInt
  | .str text => String.ofList ('"' :: text.toList.flatMap escapeChar ++ ['"'])
  | .null => "null"
  | .staticField member => member.text
  | .field base member => base ++ "." ++ member.text
  | .element base index => base ++ "[" ++ index.text ++ "]"
  | .new created => "new " ++ created
  | .newArray item size => "newarray (" ++ item.text ++ ")[" ++ size.text ++ "]"
  | .cast ty operand => "(" ++ ty.text ++ ") " ++ operand.text
  | .call ⟨kind, method, base, args⟩ =>
    (⟨kind, method, base, args⟩ : Call Value).textWith (Value.texts args)
  | .other text => text

def Value.texts : List Value → List String
  | [] => []
  | value :: values => value.text :: Value.texts values

end

/-- The text of what an identity statement binds. -/
def Entry.text : Entry → String
  | .this => "@this"
  | .parameter index => "@parameter" ++ toString index
  | .caught => "@caughtexception"

def Stmt.text : Stmt → String
  | .identity name entry => name ++ " := " ++ entry.text
  | .assign target value => target.text ++ " = " ++ value.text
  | .call expr => (Value.call expr).text
  | .ret none => "return"
  | .ret (some value) => "return " ++ value.text
  | .other text => text

end WidgetFlow
