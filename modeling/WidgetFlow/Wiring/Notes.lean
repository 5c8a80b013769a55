import WidgetFlow.Listening
import WidgetFlow.Relation

/-!
# Notes of the wiring

The wiring makes the flow graph of a program in one walk over its statements. A call whose meaning
depends on other calls is only noted in the walk, and dealt with when the walk is over. What the
wiring learns besides the graph are its facts.
-/

namespace WidgetFlow

/-- What the wiring learns besides the graph. -/
structure Facts where
  /-- The variable that stands for the menus whose items a callback gets, by the callback. -/
  itemSelectedVars : Std.TreeMap MethodId NodeId := {}
  /-- The callbacks that get the items of a menu, by the callback that fills it. -/
  menuItemMethods : Relation MethodId MethodId := {}
  /-- The menu items that calls add. -/
  menuItems : NodeSet := {}
  dialogShows : Relation NodeId StmtId := {}
  dialogDismisses : Relation NodeId StmtId := {}
  /-- The methods of the program that the platform calls on a dialog. -/
  dialogLifecycle : Relation NodeId MethodId := {}
  /-- The handlers of a dialog's own listeners. -/
  dialogHandlers : Relation NodeId MethodId := {}
  /-- The calls that show a context menu, with the variable of the view. -/
  showContextMenuCalls : List (StmtId × NodeId) := []
  /-- The calls that show an options menu, with the variable of the activity. -/
  showOptionsMenuCalls : List (StmtId × NodeId) := []
  deriving Inhabited

namespace Wiring

/-- The part that a noted call plays for its receiver. -/
inductive CallRole where
  | dialogSetter
  | dialogShow
  | dialogDismiss
  | activityShow
  | activityDismiss
  | builderSetter
  | builderCreate
  | addTab
  | labelIndicator
  | viewIndicator
  | layoutContent
  | factoryContent
  deriving DecidableEq, Repr, Inhabited

/-- A noted call with the node of its receiver. -/
structure NotedCall where
  role : CallRole
  receiver : NodeId
  site : StmtId
  deriving DecidableEq, Repr, Inhabited

/-- The part that a noted call plays for lists. -/
inductive ListRole where
  | setAdapter
  | adapterInit
  | getView
  deriving DecidableEq, Repr, Inhabited

/-- A noted registration for the creation of context menus. -/
structure ContextRegistration where
  op : NodeId
  site : StmtId
  interface : String
  listenerClass : String
  view : NodeId
  listener : NodeId
  deriving DecidableEq, Repr, Inhabited

/-- The notes of the wiring. -/
structure Notes where
  facts : Facts := {}
  /-- The statements that read an element, by the variable of the array. -/
  arrayReads : Relation NodeId StmtId := {}
  /-- The statements that write an element, by the variable of the array. -/
  arrayWrites : Relation NodeId StmtId := {}
  calls : List NotedCall := []
  /-- The noted calls for lists, oldest first. -/
  listCalls : List (ListRole × StmtId) := []
  /-- The noted registrations, oldest first. -/
  registrations : List ContextRegistration := []
  /-- The alert dialogs that have got their content. -/
  alerts : NodeSet := {}
  deriving Inhabited

def Notes.callsOf (notes : Notes) (role : CallRole) : Relation NodeId StmtId :=
  .ofPairs ((notes.calls.filter fun call => call.role = role).map fun call =>
    (call.receiver, call.site))

def Notes.listCallsOf (notes : Notes) (role : ListRole) : List StmtId :=
  (notes.listCalls.filter fun call => call.1 = role).map (·.2)

end Wiring

abbrev Wiring := Analysis Wiring.Notes

namespace Wiring

open Analysis

def modifyFacts (change : Facts → Facts) : Wiring Unit :=
  modifyNotes fun notes => { notes with facts := change notes.facts }

def getFacts : Wiring Facts := do return (← getNotes).facts

def noteCall (role : CallRole) (receiver : NodeId) (site : StmtId) : Wiring Unit :=
  modifyNotes fun notes => { notes with calls := notes.calls ++ [{ role, receiver, site }] }

def noteListCall (role : ListRole) (site : StmtId) : Wiring Unit :=
  modifyNotes fun notes => { notes with listCalls := notes.listCalls ++ [(role, site)] }

def objectsOf (var : NodeId) : Wiring (List NodeId) := do
  let graph ← getGraph
  pure ((graph.backwardReachable var).toList.filter fun id => (graph.kind id).isObject)

/-- The noted calls of a role by the objects that their receivers may be. A receiver that may be
none is a gap. -/
def callsOn (ctx : Context) (role : CallRole) (accept : NodeKind → Bool) :
    Wiring (Relation NodeId StmtId) := do
  ((← getNotes).callsOf role).rows.foldlM (fun found (receiver, sites) => do
    let graph ← getGraph
    match (← objectsOf receiver).filter fun id => accept (graph.kind id) with
    | [] =>
      sites.head?.forM fun site => gap ("Receiver object unknown for " ++ ctx.placeText site)
      pure found
    | objects => pure (objects.foldl (fun found object => found.addAll object sites) found)) {}

end Wiring

end WidgetFlow
