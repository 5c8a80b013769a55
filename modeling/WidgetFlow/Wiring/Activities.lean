import WidgetFlow.Wiring.Operations

/-!
# Activities and their menus

The platform creates activities and calls their methods without a call in the program. A menu that
an activity creates flows to the methods that fill it, and its items to the methods that are told
which item was selected.
-/

namespace WidgetFlow.Wiring

open Analysis Platform Method

/-- The callbacks for selected items of an options menu, with the position of the item. -/
def optionsItemSelected : List (String × Nat) :=
  [(onOptionsItemSelected, 0), (onMenuItemSelected, 1)]

/-- The callbacks for selected items of a context menu, with the position of the item. -/
def contextItemSelected : List (String × Nat) :=
  [(onContextItemSelected, 0), (onMenuItemSelected, 1)]

/-- The methods of the program that run for some subsignatures on a class, in order. -/
def callbacks (ctx : Context) (owner : String) (subsigs : List String) : List MethodId :=
  subsigs.filterMap fun subsig => ctx.hierarchy.dispatchToApp? subsig owner

/-- The dialogs that an activity creates are those that it is asked to prepare. -/
def wirePrepareDialog (ctx : Context) (owner : String) : Wiring Unit := do
  let created :=
    (callbacks ctx owner [onCreateDialog, onCreateDialogBundle]).flatMap fun method =>
      ((ctx.scene.method method).returnValues.filterMap Value.var?).map (method, ·)
  if created.isEmpty then
    return
  let prepared ←
    (callbacks ctx owner [onPrepareDialog, onPrepareDialogBundle]).filterMapM
      fun method => ctx.paramNode? method 1
  created.forM fun (method, name) => do
    let source ← ctx.varNode method name
    prepared.forM fun target => connect source target none

/-- The variable that stands for the context menus whose items a callback gets. -/
def itemSelectedVar (callback : MethodId) : Wiring NodeId := do
  match (← getFacts).itemSelectedVars[callback]? with
  | some var => pure var
  | none =>
    let var ← makeVar ClassName.contextMenu
    modifyFacts fun facts =>
      { facts with itemSelectedVars := facts.itemSelectedVars.insert callback var }
    pure var

/-- Lets the children of a menu flow to the parameter of a callback that gets a selected item. -/
def wireItem (menu item : NodeId) (menuClass : String) : Wiring Unit := do
  let receiver ← makeVar menuClass
  connect menu receiver none
  let result ← makeVar ClassName.menuItem
  let _ ← addOp
    { kind := .findByPlace .children, receiver, result, artificial := true
      idiom := some .optionsMenu }
  connect result item none

/-- Lets the items of a menu, which a method fills, flow to a callback for selected items. Without a
given menu they are those of all context menus that the method fills. -/
def wireItemSelected (ctx : Context) (menu : Option NodeId) (menuClass owner : String)
    (filler : MethodId) (callback : String × Nat) : Wiring Unit := do
  let some method := ctx.hierarchy.dispatchToApp? callback.1 owner | return
  let menu ← match menu with
    | some menu => pure menu
    | none => itemSelectedVar method
  modifyFacts fun facts =>
    { facts with menuItemMethods := facts.menuItemMethods.add filler method }
  let some item ← ctx.paramNode? method callback.2 | return
  wireItem menu item menuClass

def wireOptionsMenu (ctx : Context) (owner : String) : Wiring Unit := do
  let fillers := callbacks ctx owner [onCreateOptionsMenu, onPrepareOptionsMenu]
  if fillers.isEmpty then
    return
  let (menu, _) ← onGraph (FlowGraph.optionsMenuNode owner)
  fillers.forM fun filler => do
    connect? menu (← ctx.paramNode? filler 0) none
    optionsItemSelected.forM (wireItemSelected ctx (some menu) ClassName.menu owner filler)

/-- The callbacks for selected items of the context menus of an activity. -/
def wireContextItems (ctx : Context) (owner : String) : Wiring Unit := do
  let some filler := ctx.hierarchy.dispatchToApp? onCreateContextMenu owner | return
  contextItemSelected.forM (wireItemSelected ctx none ClassName.contextMenu owner filler)

def wireActivity (ctx : Context) (owner : String) : Wiring Unit := do
  let activity ← onGraph (FlowGraph.activityNode owner)
  wirePrepareDialog ctx owner
  wireOptionsMenu ctx owner
  wireContextItems ctx owner
  (ctx.hierarchy.activityCallbacks owner).forM fun method => do
    connect? activity (← ctx.thisNode? method) none

def wireActivities (ctx : Context) : Wiring Unit :=
  (ctx.hierarchy.applicationClasses.filter fun info =>
    info.isConcrete && ctx.hierarchy.isActivity info.name).forM fun info =>
      wireActivity ctx info.name

/-! ## Context menus -/

/-- Lets the items of a context menu, which a method fills, flow to the callbacks for them. -/
def wireContextMenuItems (menu : NodeId) (filler : MethodId) : Wiring Unit := do
  let facts ← getFacts
  ((facts.menuItemMethods.image filler).filterMap fun method =>
    facts.itemSelectedVars[method]?).forM fun var => connect menu var none

/-- The position of the view among the parameters of a handler of a registration for the creation
of context menus; a handler that fills one gets the menu first. -/
def contextMenuView? (ctx : Context) (registration : ContextRegistration) (handler : MethodId) :
    Wiring (Option Nat) := do
  let subsig := (ctx.scene.method handler).subsig
  if registration.interface ≠ ClassName.onCreateContextMenuListener then
    return Platform.viewPosition? registration.interface subsig
  if subsig ≠ onCreateContextMenu then
    return none
  let some formal ← ctx.paramNode? handler 0 | return none
  let (menu, _) ← onGraph (FlowGraph.contextMenuNode handler formal registration.view)
  wireContextMenuItems menu handler
  return some 1

/-- Lets a registration for the creation of context menus flow to one of its handlers. -/
def wireContextHandler (ctx : Context) (registration : ContextRegistration) (handler : MethodId) :
    Wiring Unit := do
  let _ ← onGraph (FlowGraph.bindHandler registration.op (.method handler))
  connect? registration.listener (← ctx.thisNode? handler) (some registration.site)
  let some position ← contextMenuView? ctx registration handler | return
  connect? registration.view (← ctx.viewParamNode? handler position) (some registration.site)

/-- Gives the noted registrations their handlers. The listener may be a view that is inflated later,
so every application class below its declared class counts. -/
def wireContextMenus (ctx : Context) : Wiring Unit := do
  (← getNotes).registrations.forM fun registration =>
    (ctx.handlersFor registration.interface
      (ctx.hierarchy.appSubtypes registration.listenerClass)).forM
        (wireContextHandler ctx registration)

def noteContextMenuCall (site : StmtId) : Option NodeId → Wiring Unit
  | some view => modifyFacts fun facts =>
    { facts with showContextMenuCalls := facts.showContextMenuCalls ++ [(site, view)] }
  | none => pure ()

def noteOptionsMenuCall (site : StmtId) : Option NodeId → Wiring Unit
  | some activity => modifyFacts fun facts =>
    { facts with showOptionsMenuCalls := facts.showOptionsMenuCalls ++ [(site, activity)] }
  | none => pure ()

/-- Notes a call that shows a menu, and says whether it is one. -/
def noteMenuCall (ctx : Context) (here : CallSite) : Wiring Bool := do
  let some owner := here.receiverClass? ctx | return false
  if here.subsig = showContextMenu && ctx.hierarchy.isView owner then
    noteContextMenuCall here.site (← here.receiverNode? ctx)
    return true
  if !ctx.hierarchy.isActivity owner then
    return false
  if here.subsig = openContextMenu then
    noteContextMenuCall here.site (← ctx.varNode? here.method (here.argVar? 0))
    return true
  if here.subsig = openOptionsMenu then
    noteOptionsMenuCall here.site (← here.receiverNode? ctx)
    return true
  return false

end WidgetFlow.Wiring
