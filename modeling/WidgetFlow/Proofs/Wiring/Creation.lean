import WidgetFlow.Wiring.Graph

/-!
# What statements create and access

The wiring looks at the operands of a statement, which are what it assigns and assigns to, the
arguments of its call and what it returns (`Stmt.operands`). An operand may create an object or an
array (`Value.created?`).

The object of an operand is told by the statement that the wiring names as its place. That is the
statement itself, except that all objects which a method returns have its first statement as their
place (`Context.Operand`). Statements also write to arrays and read from them
(`Context.WritesArray`, `Context.ReadsArray`).
-/

namespace WidgetFlow

open Platform

def Value.created? : Value → Option Ty
  | .new owner => some (.ref owner)
  | .newArray item _ => some (.array item)
  | .cast _ operand => operand.created?
  | _ => none

def NodeKind.created? : NodeKind → Option Ty
  | .alloc ty _ _ => some ty
  | .dialog owner _ _ => some (.ref owner)
  | .tabSpec owner _ => some (.ref owner)
  | _ => none

/-- The values of a statement that the wiring looks at. -/
def Stmt.operands (stmt : Stmt) : List Value :=
  (match stmt with
    | .assign dst v => [dst, v]
    | .ret (some v) => [v]
    | _ => []) ++ (stmt.call?.map Call.args).getD []

def CallSite.Stands (ctx : Context) (here : CallSite) : Prop :=
  ctx.call? here.site = some here.call

namespace Context

variable {ctx : Context} {site : StmtId} {v : Value} {ty : Ty} {m : MethodId}

/-- The wiring looks at a value and takes a statement as its place. -/
inductive Operand (ctx : Context) (site : StmtId) (v : Value) : Prop
  | operand {stmt : Stmt} (hstmt : ctx.scene.stmt? site = some stmt) (hvalue : v ∈ stmt.operands)
  | returned (hindex : site.index = 0)
      (hvalue : v ∈ (ctx.scene.method site.method).returnValues)

/-- Something of a type is created that has a statement as its place. -/
def Creates (ctx : Context) (site : StmtId) (ty : Ty) : Prop :=
  ∃ v, ctx.Operand site v ∧ v.created? = some ty

/-- What a value creates has a statement as its place. -/
def Places (ctx : Context) (site : StmtId) (v : Value) : Prop :=
  ∀ ty, v.created? = some ty → ctx.Creates site ty

/-- The statements of a method are found by their places. -/
theorem stmt?_of_mem_stmts {stmt : Stmt}
    (h : (site, stmt) ∈ ctx.scene.stmts m) : ctx.scene.stmt? site = some stmt := by
  obtain ⟨index, hindex, heq⟩ := List.mem_mapIdx.mp h
  cases heq
  exact List.getElem?_eq_getElem hindex

theorem method_of_mem_stmts {entry : StmtId × Stmt}
    (h : entry ∈ ctx.scene.stmts m) : m = entry.1.method := by
  obtain ⟨index, hindex, rfl⟩ := List.mem_mapIdx.mp h
  rfl

theorem Places.of_operand {stmt : Stmt} (hstmt : ctx.scene.stmt? site = some stmt)
    (hvalue : v ∈ stmt.operands) : ctx.Places site v :=
  fun _ hty => ⟨v, .operand hstmt hvalue, hty⟩

theorem Places.of_returned (h : v ∈ (ctx.scene.method m).returnValues) :
    ctx.Places { method := m, index := 0 } v :=
  fun _ hty => ⟨v, .returned rfl h, hty⟩

theorem Places.of_assign {dst : Value} (h : ctx.scene.stmt? site = some (.assign dst v)) :
    ctx.Places site dst ∧ ctx.Places site v :=
  ⟨.of_operand h (by simp [Stmt.operands]), .of_operand h (by simp [Stmt.operands])⟩

theorem Places.of_call {call : CallExpr} (h : ctx.call? site = some call)
    (hvalue : v ∈ call.args) : ctx.Places site v := by
  obtain ⟨stmt, hstmt, hcall⟩ := Option.bind_eq_some_iff.mp h
  refine .of_operand hstmt (List.mem_append_right _ ?_)
  rw [hcall]
  exact hvalue

theorem Places.of_arg {call : CallExpr} {index : Nat} (h : ctx.call? site = some call)
    (hvalue : call.arg? index = some v) : ctx.Places site v :=
  .of_call h (List.mem_of_getElem? hvalue)

/-- A statement of the application writes a value to an array through a local. -/
structure WritesArray (ctx : Context) (site : StmtId) (base : String) (index v : Value) :
    Prop where
  method_mem : site.method ∈ Wiring.walkedMethods ctx
  stmt_eq : ctx.scene.stmt? site = some (.assign (.element base index) v)
  no_call : (Stmt.assign (.element base index) v).call? = none
  carriesFlow : (ctx.scene.valueTy? site.method (.element base index)).any Ty.carriesFlow

/-- A statement of the application reads an element of an array through a local. -/
structure ReadsArray (ctx : Context) (site : StmtId) (dst : Value) (base : String)
    (index : Value) : Prop where
  method_mem : site.method ∈ Wiring.walkedMethods ctx
  stmt_eq : ctx.scene.stmt? site = some (.assign dst (.element base index))
  no_write : ∀ base index, dst ≠ .element base index
  carriesFlow : (ctx.scene.valueTy? site.method dst).any Ty.carriesFlow

/-- A call asks a tab host for a new specification. -/
def MakesSpec (ctx : Context) (site : StmtId) : Prop :=
  ∃ call, ctx.call? site = some call ∧ call.subsig = Method.newTabSpec

def newKey (ctx : Context) (site : StmtId) (owner : String) : NodeKey :=
  if ctx.hierarchy.isDialog owner then .dialog site
  else if ctx.hierarchy.isSubclassOf owner ClassName.tabSpec then .tabSpec site
  else .alloc site

def createdKey (ctx : Context) (site : StmtId) : Ty → NodeKey
  | .ref owner => ctx.newKey site owner
  | _ => .alloc site

/-- The key of the node of a value. A value without a key is not followed. -/
def valueKey? (ctx : Context) (site : StmtId) : Value → Option NodeKey
  | .staticField member => some (.field member)
  | .field _ member => some (.field member)
  | .var name => some (.var (.named site.method name))
  | .int v => (ctx.resources.idKind? v).map fun kind => .id kind v
  | .str text => some (.string text)
  | .new owner => some (ctx.newKey site owner)
  | .newArray _ _ => some (.alloc site)
  | .cast _ operand => ctx.valueKey? site operand
  | _ => none

/-- A node comes from what a statement creates, if it is one that is created. Tab hosts make
specifications of their own, and where dialogs are built, so do builders make dialogs. -/
inductive Originates (ctx : Context) (builds : Prop) (kind : NodeKind) : Prop
  | plain (h : kind.created? = none)
  | created {site : StmtId} {ty : Ty} (hcreates : ctx.Creates site ty)
      (hty : kind.created? = some ty) (hkey : kind.key? = some (ctx.createdKey site ty))
  | spec {site : StmtId} (hmakes : ctx.MakesSpec site)
      (hkind : kind = .tabSpec ClassName.tabSpec site)
  | built {site : StmtId} {cancelable : Bool} (hbuilds : builds)
      (hkind : kind = .dialog ClassName.alertDialog site cancelable)

end Context

end WidgetFlow
