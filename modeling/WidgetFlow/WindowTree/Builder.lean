import Std.Data.ExtTreeSet
import WidgetFlow.WindowTree

/-!
# Building window trees

One builder builds the trees of all windows of a report, one after the other. It notes the nodes on
the way from the window to the view that it is at, so that it does not go into them again, and the
activity whose window it builds.
-/

namespace WidgetFlow

/-- What is noted while window trees are built. -/
structure TreeBuilder where
  /-- The nodes on the way to the view that is being built. -/
  visiting : Std.ExtTreeSet NodeId := {}
  /-- The activity whose window is being built, if it is the window of one. -/
  activity : Option String := none

namespace TreeBuilder

def enter (builder : TreeBuilder) (node : NodeId) : TreeBuilder :=
  { builder with visiting := builder.visiting.insert node }

def leave (builder : TreeBuilder) (node : NodeId) : TreeBuilder :=
  { builder with visiting := builder.visiting.erase node }

end TreeBuilder

abbrev TreeBuilding := StateM TreeBuilder

/-- What is built by a builder that has built nothing before. -/
def TreeBuilding.alone {α : Type} (part : TreeBuilding α) : α := (part.run {}).1

namespace Outcome

open Platform

def contextHandlers (outcome : Outcome) : Option String → List MethodId
  | some owner => outcome.methodsFor owner [Method.onMenuItemSelected, Method.onContextItemSelected]
  | none => []

/-- The methods that are told which items of the options menu of an activity are selected. -/
def optionsHandlers (outcome : Outcome) (owner : String) : List MethodId :=
  outcome.methodsFor owner [Method.onMenuItemSelected, Method.onOptionsItemSelected]

/-- The tree of a node with the given trees below it. -/
def viewOf (outcome : Outcome) (node : NodeId) (views : List ViewTree) : ViewTree :=
  let (id, idName) := outcome.shownId node
  { owner := (outcome.graph.kind node).owner?.getD "?", id, idName, views
    events := if outcome.isItem node || id ≠ -1 then outcome.handledEvents node else [] }

/-- Builds the views below a node: what it contains, and its context menus. -/
def buildBelow (outcome : Outcome) (build : NodeId → TreeBuilding (Option ViewTree))
    (node : NodeId) : TreeBuilding (List ViewTree) := do
  if outcome.isItem node then return []
  let inside ← (outcome.graph.children node).filterMapM build
  let menus ← (outcome.contextMenus node).filterMapM build
  let selected := outcome.contextHandlers (← get).activity
  return inside ++ menus.map (outcome.withItemHandlers selected)

/-- Builds the tree of a node, unless the builder is inside it already. Every node that is gone into
is one that the builder was not inside, so the number of nodes bounds the depth. -/
def buildView (outcome : Outcome) : Nat → NodeId → TreeBuilding (Option ViewTree)
  | 0, _ => pure none
  | bound + 1, node => do
    if !(outcome.graph.kind node).isObject || (← get).visiting.contains node then return none
    modify (·.enter node)
    let views ← outcome.buildBelow (buildView outcome bound) node
    modify (·.leave node)
    return some (outcome.viewOf node views)

def buildTree (outcome : Outcome) (node : NodeId) : TreeBuilding (Option ViewTree) :=
  outcome.buildView (outcome.graph.nodes.size + 1) node

def buildActivity (outcome : Outcome) (owner : String) : TreeBuilding WindowTree := do
  modify fun builder => { builder with activity := some owner }
  let roots ← (outcome.activityRoots owner).filterMapM outcome.buildTree
  let menus ← (outcome.optionsMenu? owner).toList.filterMapM outcome.buildTree
  let selected := outcome.optionsHandlers owner
  return { name := owner, views := roots ++ menus.map (outcome.withItemHandlers selected) }

def buildDialog (outcome : Outcome) (dialog : NodeId) : TreeBuilding WindowTree := do
  let views ← (outcome.solution.dialogRoots.image dialog).filterMapM outcome.buildTree
  match outcome.graph.kind dialog with
  | .dialog owner site _ =>
    let creation : Creation :=
      { method := outcome.ctx.scene.methodText site.method
        stmt := outcome.ctx.scene.stmtText site
        index := site.index }
    return { name := owner, creation := some creation, views }
  | _ => return { name := outcome.graph.describe dialog, views }

/-- Builds the windows of an application: those of activities, and then those of dialogs. -/
def buildApp (outcome : Outcome) : TreeBuilding AppTree := do
  let activities ← outcome.graph.activities.mapM fun (owner, _) => outcome.buildActivity owner
  modify fun builder => { builder with activity := none }
  let dialogs ← outcome.graph.dialogs.mapM outcome.buildDialog
  return { app := outcome.ctx.resources.manifest.package.getD "unknown", activities, dialogs }

/-- The windows of an analysed application, as one builder builds them. -/
def builtApp (outcome : Outcome) : AppTree := outcome.buildApp.alone

end Outcome

end WidgetFlow
