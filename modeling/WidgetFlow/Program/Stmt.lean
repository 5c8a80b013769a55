import WidgetFlow.Program.Ty
import WidgetFlow.Text.Numeral

/-!
# Statements

The body of a method is a list of statements in three-address form: a statement binds a parameter
to a local, moves one value, makes one call or returns. Values name locals, constants, fields,
array elements, new objects, casts and calls; a text that fits none of these is kept as it is.
-/

namespace WidgetFlow

/-- The position of a method among all methods of the program, in order of declaration. -/
abbrev MethodId := Nat

/-- A statement, named by its method and its position in the body. -/
structure StmtId where
  method : MethodId
  index : Nat
  deriving DecidableEq, Repr, Inhabited

/-- Statements are ordered by method and then by position. -/
instance : Ord StmtId where
  compare := compareLex (compareOn StmtId.method) (compareOn StmtId.index)

instance : Std.TransOrd StmtId :=
  inferInstanceAs (Std.TransCmp (compareLex (compareOn StmtId.method) (compareOn StmtId.index)))

/-- The signature that a call or a declaration gives for a method. -/
structure MethodSig where
  owner : String
  result : Ty
  name : String
  params : List Ty
  deriving DecidableEq, Repr, Inhabited

/-- The part of a signature that a class and its subclasses share: result, name and parameters.
Dispatch compares methods by this text. -/
def subsignature (result : Ty) (name : String) (params : List Ty) : String :=
  result.text ++ " " ++ name ++ "(" ++ Text.joinWith "," (params.map Ty.text) ++ ")"

def MethodSig.subsig (sig : MethodSig) : String := subsignature sig.result sig.name sig.params

/-- The written form of a full signature. -/
def MethodSig.text (sig : MethodSig) : String := "<" ++ sig.owner ++ ": " ++ sig.subsig ++ ">"

/-- A method that a call can reach: one of the program, or one of the platform. -/
inductive Target where
  | app (method : MethodId)
  | library (owner subsig : String)
  deriving DecidableEq, Repr, Inhabited

/-- The program's own method that a target names. -/
def Target.app? : Target → Option MethodId
  | .app method => some method
  | .library _ _ => none

/-- A field, named by its class, its type and its name. -/
structure FieldRef where
  owner : String
  ty : Ty
  name : String
  deriving DecidableEq, Repr, Inhabited

def FieldRef.text (field : FieldRef) : String :=
  "<" ++ field.owner ++ ": " ++ field.ty.text ++ " " ++ field.name ++ ">"

/-- How the target of a call is found. -/
inductive CallKind where
  | virtual
  | interface
  | special
  | static
  deriving DecidableEq, Repr, Inhabited

/-- A call with arguments of type `Arg`. A static call has no receiver. -/
structure Call (Arg : Type) where
  kind : CallKind
  method : MethodSig
  base : Option String
  args : List Arg
  deriving Repr, Inhabited

/-- A value that a statement reads or writes. -/
inductive Value where
  | var (name : String)
  | int (value : ResId)
  | str (text : String)
  | null
  | staticField (field : FieldRef)
  | field (base : String) (field : FieldRef)
  | element (base : String) (index : Value)
  | new (owner : String)
  | newArray (element : Ty) (size : Value)
  | cast (ty : Ty) (value : Value)
  | call (call : Call Value)
  /-- A text that is none of the other forms. -/
  | other (text : String)
  deriving Repr, Inhabited

/-- The call that a value makes, or an ordinary call statement. -/
abbrev CallExpr := Call Value

def Value.var? : Value → Option String
  | .var name => some name
  | _ => none

def Value.int? : Value → Option ResId
  | .int value => some value
  | _ => none

/-- What a local is bound to on entry to a method or to a handler. -/
inductive Entry where
  | this
  /-- A parameter, counted from zero. -/
  | parameter (index : Nat)
  | caught
  deriving DecidableEq, Repr, Inhabited

/-- A statement. -/
inductive Stmt where
  | identity (name : String) (entry : Entry)
  | assign (target value : Value)
  | call (call : CallExpr)
  | ret (value : Option Value)
  /-- A text that is none of the other forms. -/
  | other (text : String)
  deriving Repr, Inhabited

namespace Stmt

/-- The call that a statement makes, directly or as the value that it assigns. -/
def call? : Stmt → Option CallExpr
  | .call expr => some expr
  | .assign _ (.call expr) => some expr
  | _ => none

def definedVar? : Stmt → Option String
  | .identity name _ => some name
  | .assign (.var name) _ => some name
  | _ => none

/-- Whether a statement defines something: a local, a field or an array element. -/
def isDefinition : Stmt → Bool
  | .identity _ _ => true
  | .assign _ _ => true
  | _ => false

end Stmt

namespace Call

/-- An argument of a call, counted from zero. -/
def arg? {Arg : Type} (call : Call Arg) (index : Nat) : Option Arg := call.args[index]?

def name {Arg : Type} (call : Call Arg) : String := call.method.name

def subsig {Arg : Type} (call : Call Arg) : String := call.method.subsig

def isInstance {Arg : Type} (call : Call Arg) : Bool :=
  match call.kind with
  | .static => false
  | _ => true

end Call

end WidgetFlow
