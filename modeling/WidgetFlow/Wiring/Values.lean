import WidgetFlow.Wiring.Notes

/-!
# Nodes of values

The values that the analysis follows are locals, fields, strings, integers that name resources,
and new objects. A cast is followed to its operand. Every other value has no node.
-/

namespace WidgetFlow

/-- What an integer constant names: the first of layout, menu, widget and string that declares it. -/
def ResourceTable.idKind? (table : ResourceTable) (value : ResId) : Option IdKind :=
  if table.isDeclared .layout value then some .layout
  else if table.isDeclared .menu value then some .menu
  else if table.isDeclared .id value then some .widget
  else if table.isStringId value then some .string
  else none

def Hierarchy.allocRole (hierarchy : Hierarchy) (owner : String) : AllocRole :=
  if hierarchy.isView owner then .view
  else if hierarchy.isListener owner then .listener
  else .plain

namespace Wiring

open Analysis

/-- Lets a dialog flow to the methods of the program that the platform calls on it. -/
def wireDialogLifecycle (ctx : Context) (dialog : NodeId) (owner : String) : Wiring Unit :=
  Platform.Method.dialogLifecycle.forM fun subsig => do
    let some method := ctx.hierarchy.dispatchToApp? subsig owner | return
    connect? dialog (← ctx.thisNode? method) none
    modifyFacts fun facts =>
      { facts with dialogLifecycle := facts.dialogLifecycle.add dialog method }

def dialogAt (ctx : Context) (owner : String) (site : StmtId) : Wiring NodeId := do
  let (dialog, created) ← onGraph (FlowGraph.dialogNode owner site)
  if created then
    wireDialogLifecycle ctx dialog owner
  pure dialog

/-- A view whose class fills a context menu by itself owns that menu. -/
def wireOwnContextMenu (ctx : Context) (alloc : NodeId) (owner : String) : Wiring Unit := do
  let subsig := Platform.Method.viewOnCreateContextMenu
  match ctx.hierarchy.dispatch? subsig owner with
  | none => throw (.dispatch subsig owner)
  | some (.library _ _) => pure ()
  | some (.app method) =>
    let this ← ctx.thisNode? method
    let formal ← ctx.paramNode? method 0
    match this, formal with
    | some this, some formal =>
      connect alloc this none
      modifyGraph fun graph => (graph.contextMenuNode method formal this).2
    | _, _ => pure ()

def newNode (ctx : Context) (site : StmtId) (owner : String) : Wiring NodeId := do
  if ctx.hierarchy.isDialog owner then
    dialogAt ctx owner site
  else if ctx.hierarchy.isSubclassOf owner Platform.ClassName.tabSpec then
    onGraph (FlowGraph.tabSpecNode owner site)
  else
    match (← getGraph).find? (.alloc site) with
    | some existing => pure existing
    | none =>
      let role := ctx.hierarchy.allocRole owner
      let alloc ← onGraph (FlowGraph.allocNode (.ref owner) site role)
      if role = .view then
        wireOwnContextMenu ctx alloc owner
      pure alloc

/-- The node of an integer constant that names a resource. -/
def resourceNode? (ctx : Context) (value : ResId) : Wiring (Option NodeId) :=
  match ctx.resources.idKind? value with
  | some kind => some <$> idNode kind value
  | none => pure none

def valueNode? (ctx : Context) (site : StmtId) : Value → Wiring (Option NodeId)
  | .staticField member => some <$> onGraph (FlowGraph.fieldNode member)
  | .field _ member => some <$> onGraph (FlowGraph.fieldNode member)
  | .var name => some <$> ctx.varNode site.method name
  | .int value => resourceNode? ctx value
  | .str text => some <$> onGraph (FlowGraph.stringNode text)
  | .new owner => some <$> newNode ctx site owner
  | .newArray item _ => some <$> onGraph (FlowGraph.allocNode (.array item) site .plain)
  | .cast _ operand => valueNode? ctx site operand
  | _ => pure none

def argNode? (ctx : Context) (site : StmtId) : Option Value → Wiring (Option NodeId)
  | some value => valueNode? ctx site value
  | none => pure none

def definedNode? (ctx : Context) (site : StmtId) : Wiring (Option NodeId) :=
  ctx.varNode? site.method ((ctx.scene.stmt? site).bind Stmt.definedVar?)

end Wiring

/-- Whether a value cannot be the identifier of a layout: the constant zero, or something that is
not an integer. -/
def Context.isNoLayoutId (ctx : Context) (method : MethodId) : Value → Bool
  | .int value => value = 0
  | value => !(ctx.scene.valueTy? method value).any Ty.isInt

end WidgetFlow
