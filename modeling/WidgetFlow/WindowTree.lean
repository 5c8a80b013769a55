import WidgetFlow.Outcome

/-!
# Window trees

The windows of an application with the trees of their views, as reports show them. The tree of a
view unfolds containment; a node is left out below itself, so the tree is finite even where
containment goes round in a circle.
-/

namespace WidgetFlow

/-- An event on a view with one of its handlers. -/
structure HandledEvent where
  event : String
  handler : String
  /-- The method that a synthetic handler forwards to. -/
  realHandler : Option String := none
  deriving DecidableEq, Repr, Inhabited

/-- A view with what it contains. -/
structure ViewTree where
  owner : String
  id : ResId
  idName : String
  views : List ViewTree
  events : List HandledEvent
  deriving Repr, Inhabited

/-- The statement that creates a dialog. -/
structure Creation where
  method : String
  stmt : String
  index : Nat
  deriving DecidableEq, Repr, Inhabited

/-- A window with its views. -/
structure WindowTree where
  name : String
  /-- Where the window is created, for a dialog. -/
  creation : Option Creation := none
  views : List ViewTree
  deriving Repr, Inhabited

/-- The windows of an application. -/
structure AppTree where
  app : String
  activities : List WindowTree
  dialogs : List WindowTree
  deriving Repr, Inhabited

/-! ## Counting -/

mutual

def ViewTree.viewCount : ViewTree → Nat
  | ⟨_, _, _, views, _⟩ => 1 + ViewTree.viewCountAll views

def ViewTree.viewCountAll : List ViewTree → Nat
  | [] => 0
  | view :: rest => view.viewCount + ViewTree.viewCountAll rest

end

mutual

def ViewTree.handlerCount : ViewTree → Nat
  | ⟨_, _, _, views, events⟩ => events.length + ViewTree.handlerCountAll views

/-- The number of handled events in some trees. -/
def ViewTree.handlerCountAll : List ViewTree → Nat
  | [] => 0
  | view :: rest => view.handlerCount + ViewTree.handlerCountAll rest

end

namespace AppTree

def windows (tree : AppTree) : List WindowTree := tree.activities ++ tree.dialogs

def viewCount (tree : AppTree) : Nat :=
  tree.windows.foldr (fun window count => ViewTree.viewCountAll window.views + count) 0

/-- The number of handled events in all windows. -/
def handlerCount (tree : AppTree) : Nat :=
  tree.windows.foldr (fun window count => ViewTree.handlerCountAll window.views + count) 0

end AppTree

/-! ## Unfolding -/

namespace Outcome

open Platform

def handledEvent (outcome : Outcome) (event : Event) (handler : Handler) : HandledEvent where
  event := event.text
  handler := outcome.handlerName handler
  realHandler := match handler with
    | .method _ => none
    | .synthetic _ => (outcome.realHandler? handler).map outcome.ctx.scene.methodText

/-- The events on a view: those that are listened to, and the creation of its context menus. -/
def handledEvents (outcome : Outcome) (node : NodeId) : List HandledEvent :=
  ((outcome.eventsOn node fun event => !event.isImplicit).flatMap fun (event, handlers) =>
    handlers.map (outcome.handledEvent event)) ++
  ((outcome.contextMenus node).filterMap outcome.filler?).map fun filler =>
    outcome.handledEvent .implicitCreateContextMenu (.method filler)

def withItemHandlers (outcome : Outcome) (handlers : List MethodId) (menu : ViewTree) : ViewTree :=
  let selected := handlers.map fun method => outcome.handledEvent .itemSelected (.method method)
  { menu with views := menu.views.map fun item => { item with events := item.events ++ selected } }

/-- The identifier of a view with its name; a view without a name counts as one without an
identifier. -/
def shownId (outcome : Outcome) (node : NodeId) : ResId × String :=
  match outcome.idValue? node, outcome.idName? node with
  | some value, some name => (value, name)
  | _, _ => (-1, "NO_ID")

/-- Whether a node is a menu item; these are shown as leaves. -/
def isItem (outcome : Outcome) (node : NodeId) : Bool :=
  match outcome.graph.kind node with
  | .menuItem _ _ => true
  | _ => false

/-- The tree of a node below the nodes of `path`, in a window of an activity if one is given. What
is on the path is left out. A path holds no node twice, so the number of nodes bounds its length. -/
def viewTree? (outcome : Outcome) (activity : Option String) :
    Nat → List NodeId → NodeId → Option ViewTree
  | 0, _, _ => none
  | bound + 1, path, node =>
    let kind := outcome.graph.kind node
    if !kind.isObject || path.contains node then none
    else
      let unfold := viewTree? outcome activity bound (node :: path)
      let selected := match activity with
        | some owner =>
          outcome.methodsFor owner [Method.onMenuItemSelected, Method.onContextItemSelected]
        | none => []
      let views := if outcome.isItem node then [] else
        (outcome.graph.children node).filterMap unfold ++
          ((outcome.contextMenus node).filterMap unfold).map (outcome.withItemHandlers selected)
      let (id, idName) := outcome.shownId node
      some
        { owner := kind.owner?.getD "?", id, idName, views
          events := if outcome.isItem node || id ≠ -1 then outcome.handledEvents node else [] }

def viewTree (outcome : Outcome) (activity : Option String) (node : NodeId) : Option ViewTree :=
  outcome.viewTree? activity (outcome.graph.nodes.size + 1) [] node

/-- The tree of an activity: its roots, and its options menu. -/
def activityTree (outcome : Outcome) (owner : String) : WindowTree where
  name := owner
  views :=
    (outcome.activityRoots owner).filterMap (outcome.viewTree (some owner)) ++
      ((outcome.optionsMenu? owner).bind (outcome.viewTree (some owner))).toList.map
        (outcome.withItemHandlers
          (outcome.methodsFor owner [Method.onMenuItemSelected, Method.onOptionsItemSelected]))

def dialogTree (outcome : Outcome) (dialog : NodeId) : WindowTree where
  name := match outcome.graph.kind dialog with
    | .dialog owner _ _ => owner
    | _ => outcome.graph.describe dialog
  creation := match outcome.graph.kind dialog with
    | .dialog _ site _ => some
      { method := outcome.ctx.scene.methodText site.method
        stmt := outcome.ctx.scene.stmtText site
        index := site.index }
    | _ => none
  views := (outcome.solution.dialogRoots.image dialog).filterMap (outcome.viewTree none)

/-- The windows of an analysed application. -/
def appTree (outcome : Outcome) : AppTree where
  app := outcome.ctx.resources.manifest.package.getD "unknown"
  activities := outcome.graph.activities.map fun (owner, _) => outcome.activityTree owner
  dialogs := outcome.graph.dialogs.map outcome.dialogTree

end Outcome

end WidgetFlow
