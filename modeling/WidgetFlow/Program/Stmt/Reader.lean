import WidgetFlow.Program.Stmt

/-!
# Reading statements

A value is read in two steps. `shapeOf` looks at the text alone and says which form it has, with
the texts of the values inside it left unread; `readValue` then reads those. Every inner text is
shorter than the text around it, so the length of the text bounds the depth of the reading.

The forms overlap, and the first one that fits wins: a text in quotes is a string even if a call
stands in it, and a text that mentions a call is never anything else.
-/

namespace WidgetFlow

/-- What is wrong with the text of a statement. -/
inductive StmtFault where
  | parameterIndex
  | target
  | resultType
  | parameterType
  | arity (expected found : Nat)
  | fieldType
  | integer
  | call
  | arrayType
  deriving DecidableEq, Repr, Inhabited

def StmtFault.reason : StmtFault → String
  | .parameterIndex => "bad parameter index"
  | .target => "assignment target must be a local, field or array element"
  | .resultType => "bad return type"
  | .parameterType => "bad parameter type"
  | .arity expected found =>
    "expected " ++ toString expected ++ " arguments, found " ++ toString found
  | .fieldType => "bad field type"
  | .integer => "bad integer constant"
  | .call => "malformed invoke expression"
  | .arrayType => "bad array type"

namespace Stmt

open Text

/-- The value of an optional result, or the given fault. -/
def orFault {α : Type} (fault : StmtFault) : Option α → Except StmtFault α
  | some value => .ok value
  | none => .error fault

/-! ## Integers and strings -/

/-- Whether a text is `0x` and at least one hexadecimal digit. -/
def isHexNumeral : List Char → Bool
  | '0' :: 'x' :: c :: rest => (c :: rest).all fun digit => (digitValue? digit).isSome
  | _ => false

/-- Whether a text without its sign has the form of an integer constant. -/
def isNumeral (digits : List Char) : Bool :=
  isHexNumeral digits || (!digits.isEmpty && digits.all isDigit)

/-- The value of a numeral, if it fits in 64 bits. -/
def magnitude? : List Char → Option Int
  | '0' :: 'x' :: hex => intWithin? 64 16 hex
  | digits => intWithin? 64 10 digits

/-- Reads an integer constant, keeping the low 32 bits; a text of another form gives `none`. -/
def readInt? : List Char → Option (Except StmtFault ResId)
  | '-' :: digits =>
    if isNumeral digits then
      some (orFault .integer ((magnitude? digits).map fun value => Int32.ofInt (-value)))
    else none
  | digits =>
    if isNumeral digits then some (orFault .integer ((magnitude? digits).map Int32.ofInt)) else none

def quotedText? : List Char → Option (List Char)
  | '"' :: rest => beforeLast? '"' rest
  | _ => none

/-- The string that the text between two quotes stands for: first every escaped quote and then
every escaped backslash loses its backslash. -/
def unescape (inner : List Char) : List Char :=
  replacePair '\\' '\\' '\\' (replacePair '\\' '"' '"' inner)

/-! ## Members and calls -/

/-- The beginning of a member reference, after the opening bracket: the class, the type and what
follows. -/
def memberText? (text : List Char) : Option (List Char × List Char × List Char) := do
  let (owner, rest) ← run1? (fun c => c != ':' && c != '>') text
  let rest ← after? ":" rest
  let (_, rest) ← run1? isBlank rest
  let (ty, rest) ← run1? (fun c => !isBlank c) rest
  let (_, rest) ← run1? isBlank rest
  some (owner, ty, rest)

/-- Reads the class, type and name of a field from the text after the opening bracket. -/
def fieldText? (text : List Char) : Option (Except StmtFault FieldRef) := do
  let (owner, ty, rest) ← memberText? text
  let (name, rest) ← run1? isNameChar rest
  if rest = ['>'] then
    some ((orFault .fieldType (Ty.parse? (String.ofList ty))).map fun ty =>
      { owner := String.ofList owner, ty, name := String.ofList name })
  else none

/-- A call whose types and arguments are still texts. -/
structure CallText where
  kind : CallKind
  base : Option String
  owner : List Char
  result : List Char
  name : List Char
  params : List Char
  args : List Char

def callTail? (kind : CallKind) (base : Option String) (text : List Char) : Option CallText := do
  let (owner, result, rest) ← memberText? text
  let (name, rest) ← run1? (fun c => isNameChar c || c == '<' || c == '>') rest
  let rest ← after? "(" rest
  let params := rest.takeWhile (· != ')')
  let rest ← after? ")>(" (rest.dropWhile (· != ')'))
  let args ← beforeLast? ')' rest
  if args.contains '\n' then none else some { kind, base, owner, result, name, params, args }

def instanceCall? (kind : CallKind) (word : String) (text : List Char) : Option CallText := do
  let rest ← after? word text
  let (_, rest) ← run1? isBlank rest
  let (base, rest) ← run1? isNameChar rest
  let rest ← after? ".<" rest
  callTail? kind (some (String.ofList base)) rest

def staticCall? (text : List Char) : Option CallText := do
  let rest ← after? "staticinvoke" text
  let (_, rest) ← run1? isBlank rest
  let rest ← after? "<" rest
  callTail? .static none rest

def callText? (text : List Char) : Option CallText :=
  instanceCall? .virtual "virtualinvoke" text
    <|> instanceCall? .interface "interfaceinvoke" text
    <|> instanceCall? .special "specialinvoke" text
    <|> staticCall? text

/-- The parameter types of a signature; blank pieces between commas count for nothing. -/
def readParams (text : List Char) : Except StmtFault (List Ty) :=
  (((splitOn ',' text).map trim).filter fun piece => !piece.isEmpty).mapM fun piece =>
    orFault .parameterType (Ty.read? piece)

def CallText.signature (call : CallText) : Except StmtFault MethodSig := do
  let result ← orFault .resultType (Ty.parse? (String.ofList call.result))
  let params ← readParams call.params
  pure { owner := String.ofList call.owner, result, name := String.ofList call.name, params }

/-- Whether the word that begins every call stands in a text. -/
def mentionsCall (text : List Char) : Bool := occursIn "invoke ".toList text

/-- Splits the rest of the arguments: `depth` counts the open brackets outside strings, and `piece`
holds the characters of the argument so far, last first. -/
def splitArgsFrom (depth : Int) (inString escaped : Bool) (piece : List Char) :
    List Char → List (List Char)
  | [] =>
    let last := trim piece.reverse
    if last.isEmpty then [] else [last]
  | c :: rest =>
    if inString then
      if escaped then splitArgsFrom depth true false (c :: piece) rest
      else splitArgsFrom depth (c != '"') (c == '\\') (c :: piece) rest
    else if c == ',' && depth == 0 then
      trim piece.reverse :: splitArgsFrom depth false false [] rest
    else
      splitArgsFrom
        (if c == '(' || c == '<' || c == '[' then depth + 1
          else if c == ')' || c == '>' || c == ']' then depth - 1 else depth)
        (c == '"') false (c :: piece) rest

/-- The arguments of a call: the pieces between commas that stand outside strings and brackets. A
blank last piece is no argument. -/
def splitArgs (text : List Char) : List (List Char) := splitArgsFrom 0 false false [] text

/-! ## Values -/

/-- The form of a value, with the values inside it unread. -/
inductive Shape where
  | leaf (value : Value)
  | newArray (element : Ty) (size : List Char)
  | cast (ty : Ty) (value : List Char)
  | element (base : String) (index : List Char)
  | call (kind : CallKind) (method : MethodSig) (base : Option String) (args : List (List Char))

def isLine (text : List Char) : Bool := !text.isEmpty && !text.contains '\n'

/-- The index and the base of an array element, or the size of an array: a line in brackets up to
the end of the text. -/
def bracketed? (text : List Char) : Option (List Char) := do
  let rest ← after? "[" text
  let inner ← beforeLast? ']' rest
  if isLine inner then some inner else none

/-- The element type and the size of a new array. -/
def newArrayText? (text : List Char) : Option (List Char × List Char) := do
  let rest ← after? "newarray" text
  let (_, rest) ← run1? isBlank rest
  let rest ← after? "(" rest
  let (element, rest) ← run1? (· != ')') rest
  let rest ← after? ")" rest
  let size ← bracketed? rest
  some (element, size)

def newText? (text : List Char) : Option (List Char) := do
  let rest ← after? "new" text
  let (_, rest) ← run1? isBlank rest
  let (owner, rest) ← run1? Ty.isNamePart rest
  if rest.isEmpty then some owner else none

def castText? (text : List Char) : Option (Ty × List Char) := do
  let rest ← after? "(" text
  let (ty, rest) ← run1? (fun c => Ty.isNamePart c || c == '[' || c == ']') rest
  let rest ← after? ")" rest
  let operand := rest.dropWhile isBlank
  if isLine operand then (Ty.read? ty).map (·, operand) else none

def instanceFieldText? (text : List Char) : Option (String × Except StmtFault FieldRef) := do
  let (base, rest) ← run1? isNameChar text
  let rest ← after? ".<" rest
  (fieldText? rest).map (String.ofList base, ·)

def staticFieldText? (text : List Char) : Option (Except StmtFault FieldRef) := do
  let rest ← after? "<" text
  fieldText? rest

def elementText? (text : List Char) : Option (String × List Char) := do
  let (base, rest) ← run1? isNameChar text
  let index ← bracketed? rest
  some (String.ofList base, index)

/-- Whether a text is the name of a local. -/
def isVar : List Char → Bool
  | [] => false
  | c :: rest => isNameStart c && rest.all isNameChar

/-- The form of a text that is no constant and mentions no call. -/
def plainShape (text : List Char) : Except StmtFault Shape :=
  match newArrayText? text with
  | some (element, size) =>
    (orFault .arrayType (Ty.parse? (String.ofList element))).map (Shape.newArray · size)
  | none =>
  match newText? text with
  | some owner => .ok (.leaf (.new (String.ofList owner)))
  | none =>
  match castText? text with
  | some (ty, operand) => .ok (.cast ty operand)
  | none =>
  match instanceFieldText? text with
  | some (base, field) => field.map fun field => .leaf (.field base field)
  | none =>
  match staticFieldText? text with
  | some field => field.map fun field => .leaf (.staticField field)
  | none =>
  match elementText? text with
  | some (base, index) => .ok (.element base index)
  | none =>
    if isVar text then .ok (.leaf (.var (String.ofList text)))
    else .ok (.leaf (.other (String.ofList text)))

def callShape (call : CallText) : Except StmtFault Shape :=
  call.signature.map fun method => .call call.kind method call.base (splitArgs call.args)

/-- The form of a text without blanks around it. -/
def shapeOf (text : List Char) : Except StmtFault Shape :=
  if text = "null".toList then .ok (.leaf .null)
  else if text = "true".toList then .ok (.leaf (.int 1))
  else if text = "false".toList then .ok (.leaf (.int 0))
  else
  match readInt? text with
  | some value => value.map fun value => .leaf (.int value)
  | none =>
  match quotedText? text with
  | some inner => .ok (.leaf (.str (String.ofList (unescape inner))))
  | none =>
    if mentionsCall text then
      match callText? text with
      | some found => callShape found
      | none => .error .call
    else plainShape text

/-- Checks that a call has as many arguments as its signature has parameters. -/
def checkArity (method : MethodSig) (args : List Value) : Except StmtFault (List Value) :=
  if args.length = method.params.length then .ok args
  else .error (.arity method.params.length args.length)

def readValue : Nat → List Char → Except StmtFault Value
  | 0, text => .ok (.other (String.ofList text))
  | depth + 1, text => do
    match ← shapeOf (trim text) with
    | .leaf value => pure value
    | .newArray element size => (readValue depth size).map (.newArray element ·)
    | .cast ty operand => (readValue depth operand).map (.cast ty ·)
    | .element base index => (readValue depth index).map (.element base ·)
    | .call kind method base args =>
      let args ← args.mapM (readValue depth)
      let args ← checkArity method args
      pure (.call { kind, method, base, args })

/-- Reads a value; the length of its text bounds its depth. -/
def parseValue (text : List Char) : Except StmtFault Value := readValue (text.length + 1) text

/-! ## Statements -/

/-- The texts on both sides of the first assignment sign outside strings. -/
def splitAssignment (inString : Bool) (before : List Char) :
    List Char → Option (List Char × List Char)
  | [] => none
  | c :: rest =>
    if inString && c == '\\' then
      match rest with
      | [] => none
      | next :: rest => splitAssignment inString (next :: c :: before) rest
    else if c == '"' then splitAssignment (!inString) (c :: before) rest
    else
      match c, inString, rest with
      | ' ', false, '=' :: ' ' :: value => some (trim before.reverse, trim value)
      | _, _, _ => splitAssignment inString (c :: before) rest

/-- Whether nothing but an annotation follows: the end, or a colon and a line. -/
def isAnnotation : List Char → Bool
  | [] => true
  | c :: rest => c == ':' && !rest.contains '\n'

/-- The index of a parameter: ASCII digits whose value fits in 64 bits. -/
def parameterIndex (digits : List Char) : Except StmtFault Nat :=
  match nat? 10 digits with
  | some index => if index < wordCount 64 then .ok index else .error .parameterIndex
  | none => .error .parameterIndex

/-- What an identity statement binds, from the text after the at sign. -/
def entryText? (text : List Char) : Option (Except StmtFault Entry) :=
  match after? "this" text with
  | some rest => if isAnnotation rest then some (.ok .this) else none
  | none =>
  match after? "parameter" text with
  | some rest => do
    let (digits, rest) ← run1? isDigit rest
    if isAnnotation rest then some ((parameterIndex digits).map .parameter) else none
  | none =>
  match after? "caughtexception" text with
  | some rest => if isAnnotation rest then some (.ok .caught) else none
  | none => none

def identityText? (text : List Char) : Option (Except StmtFault Stmt) := do
  let (name, rest) ← run1? isNameChar text
  let rest ← after? ":=" (rest.dropWhile isBlank)
  let rest ← after? "@" (rest.dropWhile isBlank)
  let entry ← entryText? rest
  some (entry.map (.identity (String.ofList name) ·))

def isTarget : Value → Bool
  | .var _ => true
  | .field _ _ => true
  | .staticField _ => true
  | .element _ _ => true
  | _ => false

def readAssignment (target value : List Char) : Except StmtFault Stmt := do
  let target ← parseValue target
  if isTarget target then
    let value ← parseValue value
    pure (.assign target value)
  else throw .target

def readCallOrOther (text : List Char) : Except StmtFault Stmt :=
  if mentionsCall text && (callText? text).isSome then do
    match ← parseValue text with
    | .call expr => pure (.call expr)
    | _ => pure (.other (String.ofList text))
  else .ok (.other (String.ofList text))

/-- Reads a statement from a text without blanks and semicolons around it. -/
def read (text : List Char) : Except StmtFault Stmt :=
  match identityText? text with
  | some stmt => stmt
  | none =>
    if text = "return".toList then .ok (.ret none)
    else
      match after? "return " text with
      | some value => (parseValue value).map fun value => .ret (some value)
      | none =>
        match splitAssignment false [] text with
        | some (target, value) => readAssignment target value
        | none => readCallOrOther text

/-- The text of a statement without the blanks around it and the semicolons after it. -/
def core (source : String) : List Char :=
  trim (dropEndWhile (· == ';') (trim source.toList))

/-- Reads a statement. A fault comes with the text that has it. -/
def parse (source : String) : Except (String × StmtFault) Stmt :=
  match read (core source) with
  | .ok stmt => .ok stmt
  | .error fault => .error (String.ofList (core source), fault)

end Stmt

end WidgetFlow
