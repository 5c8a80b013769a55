import WidgetFlow.Program.Model
import WidgetFlow.Policy

/-!
# Scenes

A scene is a program model whose statements have been read and whose locals have types. Every
method has a number, in order of declaration over all classes. A local without a declared type
takes the type of the first of its definitions that has one, and a local that is used but never
gets a type is an error.
-/

namespace WidgetFlow

/-- A method of the scene. -/
structure Method where
  sig : MethodSig
  isStatic : Bool := false
  isAbstract : Bool := false
  /-- Whether the class that declares the method belongs to the application. -/
  application : Bool := true
  body : List Stmt := []
  /-- The texts of the statements, as they were declared. -/
  source : List String := []
  locals : Locals := {}
  deriving Inhabited

namespace Method

def owner (method : Method) : String := method.sig.owner

def subsig (method : Method) : String := method.sig.subsig

/-- Whether the method has a body to run. -/
def isConcrete (method : Method) : Bool := !method.isAbstract && !method.body.isEmpty

/-- The operands of the return statements, in order. -/
def returnValues (method : Method) : List Value :=
  method.body.filterMap fun
    | .ret (some value) => some value
    | _ => none

/-- The local of the first identity statement that binds the given entry. -/
def entryVar? (method : Method) (entry : Entry) : Option String :=
  method.body.findSome? fun
    | .identity name bound => if bound = entry then some name else none
    | _ => none

/-- The local that holds the receiver. -/
def thisVar? (method : Method) : Option String := method.entryVar? .this

def paramVar? (method : Method) (index : Nat) : Option String := method.entryVar? (.parameter index)

end Method

/-! ## Types of values and locals -/

def Value.ty? (locals : Locals) : Value → Option Ty
  | .var name => locals[name]?
  | .int _ => some .int
  | .str _ => some (.ref "java.lang.String")
  | .null => some .nullType
  | .staticField member => some member.ty
  | .field _ member => some member.ty
  | .element base _ => (locals[base]?).bind Ty.element?
  | .new created => some (.ref created)
  | .newArray item _ => some (.array item)
  | .cast ty _ => some ty
  | .call expr => some expr.method.result
  | .other _ => none

/-- The type of what an identity statement binds. -/
def Entry.ty? (sig : MethodSig) : Entry → Option Ty
  | .this => some (.ref sig.owner)
  | .parameter index => sig.params[index]?
  | .caught => some (.ref "java.lang.Throwable")

/-- The local that a statement defines and the type that this definition gives it. -/
def Stmt.typing? (sig : MethodSig) (locals : Locals) : Stmt → Option (String × Ty)
  | .identity name entry => (entry.ty? sig).map (name, ·)
  | .assign (.var name) value => (value.ty? locals).map (name, ·)
  | _ => none

/-- One statement's part in the inference: a local without a type gets one. -/
def Locals.learn (sig : MethodSig) (locals : Locals) (stmt : Stmt) : Locals :=
  match stmt.typing? sig locals with
  | some (name, ty) => locals.insertIfNew name ty
  | none => locals

def Locals.pass (sig : MethodSig) (body : List Stmt) (locals : Locals) : Locals :=
  body.foldl (Locals.learn sig) locals

/-- Passes over a body until one adds nothing, at most the given number. -/
def Locals.settle (sig : MethodSig) (body : List Stmt) : Nat → Locals → Locals
  | 0, locals => locals
  | rounds + 1, locals =>
    let next := locals.pass sig body
    if next.size = locals.size then next else Locals.settle sig body rounds next

/-- The types of all locals that can be inferred. Every pass but the last types a local that some
statement defines, so there are at most as many passes as statements, and one more. -/
def Locals.infer (sig : MethodSig) (body : List Stmt) (declared : Locals) : Locals :=
  declared.settle sig body (body.length + 1)

mutual

def Value.uses : Value → List String
  | .var name => [name]
  | .field base _ => [base]
  | .element base index => base :: index.uses
  | .newArray _ size => size.uses
  | .cast _ operand => operand.uses
  | .call ⟨_, _, base, args⟩ => base.toList ++ Value.usesOf args
  | _ => []

def Value.usesOf : List Value → List String
  | [] => []
  | value :: values => value.uses ++ Value.usesOf values

end

/-- The locals that a statement uses as operands, in order. -/
def Stmt.uses : Stmt → List String
  | .assign target value => target.uses ++ value.uses
  | .call expr => (Value.call expr).uses
  | .ret (some value) => value.uses
  | _ => []

def unknownVar? (body : List Stmt) (locals : Locals) : Option String :=
  (body.flatMap Stmt.uses).find? fun name => !locals.contains name

/-! ## Scenes -/

/-- A program whose statements have been read. -/
structure Scene where
  classes : List ClassDecl := []
  methods : Array Method := #[]
  deriving Inhabited

namespace Scene

def readBody (source : List String) : Except AnalysisError (List Stmt) :=
  source.mapM fun text =>
    match Stmt.parse text with
    | .ok stmt => .ok stmt
    | .error (text, fault) => .error (.statement text fault)

def readMethod (owner : ClassDecl) (decl : MethodDecl) : Except AnalysisError Method := do
  let sig : MethodSig :=
    { owner := owner.name, result := decl.result, name := decl.name, params := decl.params }
  let body ← readBody decl.body
  let locals := decl.locals.infer sig body
  match unknownVar? body locals with
  | some name => throw (.unknownLocal name sig.text)
  | none =>
    pure { sig, isStatic := decl.isStatic, isAbstract := decl.isAbstract,
           application := owner.application, body, source := decl.body, locals }

def addClass (scene : Scene) (decl : ClassDecl) : Except AnalysisError Scene := do
  if scene.classes.any fun known => known.name = decl.name then
    throw (.model ("duplicate class `" ++ decl.name ++ "`"))
  else
    let methods ← decl.methods.mapM (readMethod decl)
    pure { classes := scene.classes ++ [decl], methods := scene.methods ++ methods.toArray }

def ofProgram (program : Program) : Except AnalysisError Scene :=
  program.classes.foldlM addClass {}

def class? (scene : Scene) (name : String) : Option ClassDecl :=
  scene.classes.find? fun decl => decl.name = name

/-- The method with a number; an empty one if there is none. -/
def method (scene : Scene) (id : MethodId) : Method := scene.methods.getD id default

def methodIds (scene : Scene) : List MethodId := List.range scene.methods.size

def applicationMethods (scene : Scene) : List MethodId :=
  scene.methodIds.filter fun id => (scene.method id).application

def methodsOf (scene : Scene) (owner : String) : List MethodId :=
  scene.methodIds.filter fun id => (scene.method id).owner = owner

/-- The method that a class itself declares with a subsignature. -/
def findMethod? (scene : Scene) (owner subsig : String) : Option MethodId :=
  (scene.methodsOf owner).find? fun id => (scene.method id).subsig = subsig

def stmt? (scene : Scene) (id : StmtId) : Option Stmt := (scene.method id.method).body[id.index]?

def stmtText (scene : Scene) (id : StmtId) : String :=
  ((scene.method id.method).source[id.index]?).getD ""

def stmts (scene : Scene) (method : MethodId) : List (StmtId × Stmt) :=
  (scene.method method).body.mapIdx fun index stmt => ({ method, index }, stmt)

def varTy? (scene : Scene) (method : MethodId) (name : String) : Option Ty :=
  (scene.method method).locals[name]?

def valueTy? (scene : Scene) (method : MethodId) (value : Value) : Option Ty :=
  value.ty? (scene.method method).locals

def methodText (scene : Scene) (method : MethodId) : String := (scene.method method).sig.text

end Scene

end WidgetFlow
