import WidgetFlow.Hierarchy
import WidgetFlow.Resource.Table

/-!
# What an analysis reads

The program with its class hierarchy, the resources and the options. Nothing of it changes while
an analysis runs.
-/

namespace WidgetFlow

/-- The options of an analysis. -/
structure Options where
  /-- How violations are treated. -/
  severity : Severity := .warn
  /-- The version of the platform. -/
  apiLevel : Nat := 10
  /-- The platform layout that shows the text of a tab. -/
  tabIndicatorLayout : String := "tab_indicator"
  /-- Whether tab hosts are followed. -/
  tabHosts : Bool := true
  /-- Whether dialogs are followed. -/
  dialogs : Bool := true
  /-- Whether lists and their adapters are followed. -/
  lists : Bool := true
  deriving DecidableEq, Repr, Inhabited

/-- What an analysis reads. -/
structure Context where
  scene : Scene
  hierarchy : Hierarchy
  resources : ResourceTable
  options : Options := {}
  deriving Inhabited

namespace Context

def of (scene : Scene) (resources : ResourceTable) (options : Options) : Context where
  scene
  hierarchy := .ofScene scene
  resources
  options

def varClass? (ctx : Context) (method : MethodId) (name : String) : Option String :=
  (ctx.scene.varTy? method name).bind Ty.className?

/-- Whether the values of a local take part in the flow. -/
def carriesFlow (ctx : Context) (method : MethodId) (name : String) : Bool :=
  (ctx.scene.varTy? method name).any Ty.carriesFlow

/-- Whether objects of a class are windows. -/
def isWindow (ctx : Context) (owner : String) : Bool :=
  ctx.hierarchy.isActivity owner || ctx.hierarchy.isDialog owner

/-- A statement with the method that it is in, as findings show it. -/
def placeText (ctx : Context) (site : StmtId) : String :=
  ctx.scene.stmtText site ++ " in " ++ ctx.scene.methodText site.method

def call? (ctx : Context) (site : StmtId) : Option CallExpr :=
  (ctx.scene.stmt? site).bind Stmt.call?

end Context

end WidgetFlow
