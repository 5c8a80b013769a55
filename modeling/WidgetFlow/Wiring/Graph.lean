import WidgetFlow.Wiring.Flow
import WidgetFlow.Wiring.ListViews
import WidgetFlow.Wiring.TabHosts

/-!
# The graph of a program

`wireProgram` makes the flow graph of a program: first the identifiers of all resources, then the
activities, then all statements, and last what the noted calls mean together.
-/

namespace WidgetFlow.Wiring

open Analysis

/-- The nodes of all declared identifiers. -/
def wireIds (resources : ResourceTable) : Wiring Unit := do
  (resources.idsOf .layout).forM fun value => do let _ ← idNode .layout value
  (resources.idsOf .menu).forM fun value => do let _ ← idNode .menu value
  (resources.idsOf .id).forM fun value => do let _ ← idNode .widget value
  resources.stringIds.forM fun value => do let _ ← idNode .string value

/-- Notes a call whose meaning depends on other calls. -/
def noteCalls (ctx : Context) (here : CallSite) : Wiring Unit := do
  let noted ← firstThatTakes
    [noteListViewCall ctx here, noteDialogCall ctx here, noteBuilderCall ctx here,
      noteMenuCall ctx here]
  if !noted then
    noteTabCall ctx here

def wireCall (ctx : Context) (here : CallSite) : Wiring Unit := do
  if !(← takeOperation ctx here) then
    noteCalls ctx here
    (ctx.callTargets here).forM (bindCall ctx here)

def wireStmt (ctx : Context) (site : StmtId) (stmt : Stmt) : Wiring Unit :=
  match stmt.call?, stmt with
  | some call, _ => wireCall ctx { site, stmt, call }
  | none, .assign target value => wireAssign ctx site target value
  | none, _ => pure ()

/-- The methods of application classes that have a body, class by class. -/
def walkedMethods (ctx : Context) : List MethodId :=
  (ctx.hierarchy.applicationClasses.flatMap fun info => ctx.scene.methodsOf info.name).filter
    fun method => (ctx.scene.method method).isConcrete

def wireStmts (ctx : Context) : Wiring Unit :=
  (walkedMethods ctx).forM fun method =>
    (ctx.scene.stmts method).forM fun (site, stmt) => wireStmt ctx site stmt

/-- Makes the flow graph of a program. -/
def wireProgram (ctx : Context) : Wiring Unit := do
  wireIds ctx.resources
  wireActivities ctx
  wireStmts ctx
  wireArrays ctx
  if ctx.options.dialogs then
    wireDialogs ctx
  if ctx.options.lists then
    wireLists ctx
  if ctx.options.tabHosts then
    wireTabHosts ctx
  wireContextMenus ctx

end WidgetFlow.Wiring
