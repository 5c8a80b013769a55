import WidgetFlow.Program.Stmt.Outline
import WidgetFlow.Wiring.Dialogs

/-!
# Lists and their adapters

A list shows what its adapter makes: the views that a method of the program returns, or copies of
the layout that an array adapter was made with. A list activity has a list of its own, and its
layout if it sets no content.
-/

namespace WidgetFlow.Wiring

open Analysis Platform ClassName

/-- Notes a call on a list or an adapter, and says whether it is one. -/
def noteListViewCall (ctx : Context) (here : CallSite) : Wiring Bool := do
  let some owner := here.receiverClass? ctx | return false
  if here.subsig = Method.setAdapter &&
      (ctx.hierarchy.isSubclassOf owner listView ||
        ctx.hierarchy.isSubclassOf owner gridView) then
    noteListCall .setAdapter here.site
    return true
  if !ctx.hierarchy.isSubclassOf owner listAdapter then
    return false
  if here.subsig = Method.getView then
    noteListCall .getView here.site
    return true
  if here.call.name = Method.init then
    noteListCall .adapterInit here.site
    return true
  return false

/-! ## List activities -/

/-- The activities whose content nothing sets, ascending. -/
def rootlessActivities (graph : FlowGraph) : List NodeId :=
  let content := graph.opsWhere fun
    | .inflateContent => true
    | .setContent => true
    | _ => false
  let rooted := content.flatMap fun op =>
    match (graph.op? op).bind Op.receiver with
    | some receiver => (graph.backwardReachable receiver).toList
    | none => []
  (Std.TreeSet.ofList (graph.activities.map (·.2))).toList.filter fun activity =>
    !rooted.contains activity

def isPlainListActivity (ctx : Context) (kind : NodeKind) : Bool :=
  kind.owner?.any fun owner =>
    ctx.hierarchy.isSubclassOf owner listActivity &&
      !ctx.hierarchy.isSubclassOf owner preferenceActivity

/-- The platform's layout of a list activity. -/
def listLayoutName (options : Options) : String :=
  if 14 ≤ options.apiLevel then "list_content_simple" else "list_content"

/-- Gives the list activities whose content nothing sets the layout of the platform. -/
def wireRootlessLists (ctx : Context) : Wiring Unit := do
  let graph ← getGraph
  let rootless := (rootlessActivities graph).filter fun activity =>
    isPlainListActivity ctx (graph.kind activity)
  if rootless.isEmpty then
    return
  let name := listLayoutName ctx.options
  let some layout := ctx.resources.sysLayout? name
    | gap ("Platform resources lack layout " ++ name)
  rootless.forM fun activity => do
    let layout ← idNode .layout layout
    let receiver ← makeVar listActivity
    connect activity receiver none
    let _ ← addOp
      { kind := .inflateContent, parameter := layout, receiver, artificial := true
        idiom := some .listActivity }

/-- The platform listens to clicks on the items of the list of an activity and forwards them to a
method of the activity. -/
def wireListItemClick (ctx : Context) (activity : NodeId) (handler : MethodId) (list : ResId) :
    Wiring Unit := do
  let receiver ← makeVar listActivity
  connect activity receiver none
  let id ← idNode .widget list
  let listView ← makeVar listView
  let _ ← addOp
    { kind := .findInWindow, parameter := id, receiver, result := listView, artificial := true
      idiom := some .listActivity }
  let item ← makeVar view
  let _ ← addOp
    { kind := .findByPlace .children, receiver := listView, result := item, artificial := true
      idiom := some .listActivity }
  let (glue, index) ← onGraph (FlowGraph.addSynthetic
    { interface := onItemClickListener, subsig := Method.onItemClick
      target := .app handler, paramMap := [(0, 0), (1, 1), (2, 2), (3, 3)] })
  connect? activity (← ctx.thisNode? handler) none
  connect? listView (← ctx.paramNode? handler 0) none
  connect? item (← ctx.paramNode? handler 1) none
  let listener ← makeVar onItemClickListener
  connect glue listener none
  let op ← addOp
    { kind := .setListener .itemClick false, receiver := listView, parameter := listener
      artificial := true, idiom := some .listActivity }
  modifyGraph (FlowGraph.markPrebound op)
  let _ ← onGraph (FlowGraph.bindHandler op (.synthetic index))

/-- Wires the clicks on list items of all list activities that handle them. -/
def wireListActivities (ctx : Context) : Wiring Unit := do
  let handled := (← getGraph).activities.filterMap fun (owner, activity) =>
    if ctx.hierarchy.isSubclassOf owner listActivity then
      (ctx.hierarchy.dispatchToApp? Method.onListItemClick owner).map (activity, ·)
    else none
  if handled.isEmpty then
    return
  let some list := ctx.resources.sysId? "list" | gap "Platform resources lack the list id"
  handled.forM fun (activity, handler) => wireListItemClick ctx activity handler list

/-! ## Array adapters -/

/-- The argument that is the layout, in a call of a constructor of array adapters or of one that
leads to it by calls of other constructors. `seen` holds the constructors on the way. -/
def layoutInConstructor? (ctx : Context) : Nat → List MethodId → MethodId → Option (StmtId × Value)
  | 0, _, _ => none
  | bound + 1, seen, constructor =>
    if seen.contains constructor then none
    else
      let owner := (ctx.scene.method constructor).owner
      let superclass := ctx.hierarchy.superclass? owner
      let inner := (ctx.scene.stmts constructor).findSome? fun (site, stmt) => do
        let call ← stmt.call?
        if call.name = Method.init &&
            (call.method.owner = owner || some call.method.owner = superclass) then
          some (site, call)
        else none
      match inner with
      | none => none
      | some (site, call) =>
        if call.method.owner = arrayAdapter then
          (call.arg? 1).map (site, ·)
        else if ctx.hierarchy.isSubclassOf call.method.owner arrayAdapter then
          match ctx.scene.findMethod? call.method.owner call.subsig with
          | some next => layoutInConstructor? ctx bound (constructor :: seen) next
          | none => none
        else none

/-- The argument that is the layout for a call of a constructor of an adapter. No constructor is
looked at twice, so the number of methods bounds the search. -/
def adapterLayout? (ctx : Context) (site : StmtId) (call : CallExpr) : Option (StmtId × Value) :=
  if call.method.owner = arrayAdapter then
    (call.arg? 1).map (site, ·)
  else
    match ctx.scene.findMethod? call.method.owner call.subsig with
    | some constructor => layoutInConstructor? ctx (ctx.scene.methods.size + 1) [] constructor
    | none => none

/-- Adds the layout that a call of a constructor gives an array adapter. -/
def addAdapterLayout (ctx : Context) (layouts : Relation NodeId NodeId) (site : StmtId) :
    Wiring (Relation NodeId NodeId) := do
  let some call := ctx.call? site | return layouts
  if !ctx.hierarchy.isSubclassOf call.method.owner arrayAdapter then
    return layouts
  let some (valueSite, value) := adapterLayout? ctx site call
    | do
      gap ("Cannot find resource id for " ++ ctx.placeText site)
      return layouts
  let some layout ← valueNode? ctx valueSite value | return layouts
  let some adapter := call.base | return layouts
  let adapter ← ctx.varNode site.method adapter
  let graph ← getGraph
  let allocs := (← objectsOf adapter).filter fun id => isAlloc (graph.kind id)
  if allocs.isEmpty then
    gap ("Cannot find value for adapter variable at " ++ ctx.scene.stmtText site)
  return allocs.foldl (fun layouts alloc => layouts.add alloc layout) layouts

/-- The layouts of the items of array adapters, by the allocation of the adapter. -/
def adapterLayouts (ctx : Context) : Wiring (Relation NodeId NodeId) := do
  ((← getNotes).listCallsOf .adapterInit).foldlM (addAdapterLayout ctx) {}

def inflateItem (layout result : NodeId) (site : StmtId) : Wiring Unit := do
  let _ ← addOp
    { kind := .inflate, parameter := layout, result, site, artificial := true
      idiom := some .listAdapter }

def addItem (listView item : NodeId) (site : StmtId) : Wiring Unit := do
  let _ ← addOp
    { kind := .addChild, receiver := listView, parameter := item, site, artificial := true
      idiom := some .listAdapter }

def targetOwner (ctx : Context) : Target → String
  | .app method => (ctx.scene.method method).owner
  | .library owner _ => owner

def addReturnedItems (ctx : Context) (listView : NodeId) (site : StmtId) (method : MethodId) :
    Wiring Unit := do
  (ctx.scene.method method).returnValues.forM fun
    | .var name => do addItem listView (← ctx.varNode method name) site
    | .null => pure ()
    | value => gap ("Unexpected return value " ++ value.outline ++ " of " ++
        ctx.scene.methodText method)
  connect? listView (← ctx.paramNode? method 2) (some site)

/-- Adds copies of the layouts of an array adapter to a list. -/
def addInflatedItems (ctx : Context) (layouts : List NodeId) (listView : NodeId) (site : StmtId) :
    Wiring Unit := do
  if layouts.isEmpty then
    gap ("Missing layout id for adapter at " ++ ctx.placeText site)
  layouts.forM fun layout => do
    let item ← makeVar view
    inflateItem layout item site
    addItem listView item site

def connectAdapter (ctx : Context) (layouts : Relation NodeId NodeId) (listView : NodeId)
    (site : StmtId) (adapter : NodeId) : Wiring Unit := do
  let graph ← getGraph
  let some owner := (graph.kind adapter).owner? | return
  let some target := ctx.hierarchy.dispatch? Method.getView owner | return
  if !ctx.hierarchy.isSubclassOf (targetOwner ctx target) baseAdapter then
    return
  match target with
  | .app method => addReturnedItems ctx listView site method
  | .library _ _ =>
    if isAlloc (graph.kind adapter) then
      addInflatedItems ctx (layouts.image adapter) listView site
    else
      gap ("Unexpected adapter object " ++ graph.describe adapter)

/-- Connects the list of a call that sets its adapter with the adapters. -/
def wireSetAdapter (ctx : Context) (layouts : Relation NodeId NodeId) (site : StmtId) :
    Wiring Unit := do
  let some call := ctx.call? site | return
  let some receiver := call.base | return
  let some (.var adapter) := call.arg? 0 | return
  let listView ← ctx.varNode site.method receiver
  let adapter ← ctx.varNode site.method adapter
  (← objectsOf adapter).forM (connectAdapter ctx layouts listView site)

/-- A call that asks an array adapter of the platform for a view inflates its layout. -/
def wireGetView (ctx : Context) (layouts : Relation NodeId NodeId) (site : StmtId) :
    Wiring Unit := do
  let some receiver := (ctx.call? site).bind Call.base | return
  let receiver ← ctx.varNode site.method receiver
  (← objectsOf receiver).forM fun adapter => do
    let .alloc ty _ _ := (← getGraph).kind adapter | return
    let some owner := ty.className? | return
    if !ctx.hierarchy.isSubclassOf owner arrayAdapter ||
        (ctx.hierarchy.dispatchToApp? Method.getView owner).isSome then
      return
    let some result ← definedNode? ctx site | return
    let found := layouts.image adapter
    if found.isEmpty then
      gap ("Cannot find layout for " ++ ctx.placeText site)
    found.forM fun layout => inflateItem layout result site

def wireListCalls (ctx : Context) : Wiring Unit := do
  let layouts ← adapterLayouts ctx
  let notes ← getNotes
  (notes.listCallsOf .setAdapter).forM (wireSetAdapter ctx layouts)
  (notes.listCallsOf .getView).forM (wireGetView ctx layouts)

def wireLists (ctx : Context) : Wiring Unit := do
  wireRootlessLists ctx
  wireListActivities ctx
  wireListCalls ctx

end WidgetFlow.Wiring
