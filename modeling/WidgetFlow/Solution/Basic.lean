import WidgetFlow.Listening
import WidgetFlow.Relation
import WidgetFlow.Solution.Slots

/-!
# Solutions

The solution of a flow graph says which identifiers, windows, views, menus and listeners flow into
the slots of each operation, what each operation gives, and which views are the roots of each
window.
-/

namespace WidgetFlow

abbrev NodeRelation := Relation NodeId NodeId

/-- The solution of a flow graph. -/
structure Solution where
  /-- The layout identifiers that reach an operation. -/
  layoutIds : NodeRelation := {}
  /-- The menu identifiers that reach an operation. -/
  menuIds : NodeRelation := {}
  /-- The identifiers of views and menu items that reach an operation. -/
  viewIds : NodeRelation := {}
  /-- The windows that an operation works on. -/
  windows : NodeRelation := {}
  /-- The options menus that an operation works on. -/
  optionsMenus : NodeRelation := {}
  /-- The context menus that an operation works on. -/
  contextMenus : NodeRelation := {}
  parameters : NodeRelation := {}
  receivers : NodeRelation := {}
  results : NodeRelation := {}
  listeners : NodeRelation := {}
  activityRoots : NodeRelation := {}
  dialogRoots : NodeRelation := {}
  /-- The operations that give a view. -/
  viewProducers : NodeRelation := {}
  /-- The layouts that are inflated as the content of a window. -/
  windowLayouts : NodeRelation := {}
  /-- The number of passes over the operations. -/
  iterations : Nat := 0
  deriving Inhabited

def Solution.rootsOf (solution : Solution) (graph : FlowGraph) (window : NodeId) : List NodeId :=
  match graph.kind window with
  | .dialog _ _ _ => solution.dialogRoots.image window
  | _ => solution.activityRoots.image window

namespace Solving

/-- The sources of the flow into the slots of operations, by the operation. A source is an object or
an operation whose results flow on. -/
structure Paths where
  parameters : NodeRelation := {}
  receivers : NodeRelation := {}
  listeners : NodeRelation := {}
  deriving Inhabited

/-- The notes of the solving. -/
structure Notes where
  solution : Solution := {}
  paths : Paths := {}
  /-- The registrations, views and listeners that have been bound. -/
  bound : List (NodeId × NodeId × NodeId) := []
  /-- The operations and objects that have been reported. -/
  flagged : NodeRelation := {}
  deriving Inhabited

end Solving

abbrev Solving := Analysis Solving.Notes

namespace Solving

open Analysis

def getSolution : Solving Solution := do return (← getNotes).solution

def modifySolution (change : Solution → Solution) : Solving Unit :=
  modifyNotes fun notes => { notes with solution := change notes.solution }

/-- Marks an object as reported for an operation, and says whether it was not. -/
def flag (op object : NodeId) : Solving Bool := do
  let known := (← getNotes).flagged.holds op object
  modifyNotes fun notes => { notes with flagged := notes.flagged.add op object }
  pure !known

/-- The operations that a node flows to, other than itself, ascending. -/
def reachedOps (graph : FlowGraph) (source : NodeId) (reach : NodeSet) : List NodeId :=
  reach.toList.filter fun id => id != source && graph.isOp id

def addWindowRoot (window root : NodeId) : Solving Unit := do
  let graph ← getGraph
  match graph.kind window with
  | .activity _ => modifySolution fun solution =>
    { solution with activityRoots := solution.activityRoots.add window root }
  | .dialog _ _ _ => modifySolution fun solution =>
    { solution with dialogRoots := solution.dialogRoots.add window root }
  | _ => violation ("Unknown window " ++ graph.describe window)

end Solving

end WidgetFlow
