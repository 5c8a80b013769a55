import WidgetFlow.Solution.Basic

/-!
# Identifiers, windows and menus at operations

Which operations the identifiers, the windows and the menus of a graph reach. A constant that
reaches an operation that has no use for it is a violation.
-/

namespace WidgetFlow

namespace OpKind

/-- Whether the operation looks something up by an identifier or gives one. -/
def takesViewId : OpKind → Bool
  | findInView _ => true
  | findInWindow => true
  | setId => true
  | _ => false

/-- Whether the operation looks something up by an identifier below a view or a menu. -/
def isFindInView : OpKind → Bool
  | findInView _ => true
  | _ => false

/-- Whether the operation works on a menu. -/
def takesMenu : OpKind → Bool
  | findInView _ => true
  | findByPlace _ => true
  | addChild => true
  | inflateMenu => true
  | _ => false

/-- Whether the operation works on a window. -/
def takesWindow : OpKind → Bool
  | inflateContent => true
  | setContent => true
  | findInWindow => true
  | _ => false

end OpKind

namespace Solving

open Analysis

/-- Whether an operation is of certain kinds. -/
def opIs (graph : FlowGraph) (select : OpKind → Bool) (op : NodeId) : Bool :=
  (graph.op? op).any fun found => select found.kind

def opsReached (graph : FlowGraph) (source : NodeId) : List NodeId :=
  reachedOps graph source (graph.forwardReachable source)

/-- Reports that something reaches an operation that has no use for it. -/
def misplaced (what : String) (source op : NodeId) : Solving Unit := do
  let graph ← getGraph
  violation (what ++ " " ++ graph.describe source ++ " reaches " ++ graph.describe op)

/-- Records the operations that the nodes of a kind of identifier reach. -/
def arriveIds (kind : IdKind) (accept : OpKind → Bool)
    (record : NodeId → NodeId → Solution → Solution) (otherwise : NodeId → NodeId → Solving Unit) :
    Solving Unit := do
  let graph ← getGraph
  (graph.idNodes kind).forM fun (_, id) =>
    (opsReached graph id).forM fun op =>
      if opIs graph accept op then modifySolution (record op id) else otherwise id op

def recordLayoutId (op id : NodeId) (solution : Solution) : Solution :=
  { solution with layoutIds := solution.layoutIds.add op id }

def recordMenuId (op id : NodeId) (solution : Solution) : Solution :=
  { solution with menuIds := solution.menuIds.add op id }

def recordViewId (op id : NodeId) (solution : Solution) : Solution :=
  { solution with viewIds := solution.viewIds.add op id }

/-- Records which operations the identifiers reach. -/
def arriveConstants : Solving Unit := do
  arriveIds .layout OpKind.takesLayoutId recordLayoutId (misplaced "Layout id")
  arriveIds .menu (· = .inflateMenu) recordMenuId (misplaced "Menu id")
  arriveIds .widget OpKind.takesViewId recordViewId fun _ _ => pure ()
  arriveIds .anonymous OpKind.isFindInView recordViewId (misplaced "Anonymous id")

/-- The windows of a graph: activities by class, then dialogs by statement. -/
def windowsOf (graph : FlowGraph) : List NodeId := graph.activities.map (·.2) ++ graph.dialogs

def arriveWindow (graph : FlowGraph) (window : NodeId) (reach : NodeSet) (op : NodeId)
    (notes : Notes) : Notes :=
  match graph.op? op with
  | none => notes
  | some found =>
    if found.kind.takesWindow && found.receiver.any reach.contains then
      { notes with
        solution := { notes.solution with windows := notes.solution.windows.add op window } }
    else if found.kind.isSetListener && found.parameter.any reach.contains then
      { notes with paths := { notes.paths with listeners := notes.paths.listeners.add op window } }
    else notes

/-- Records which operations the windows reach, as what they work on or as listeners. -/
def arriveWindows : Solving Unit := do
  let graph ← getGraph
  (windowsOf graph).forM fun window =>
    let reach := graph.forwardReachable window
    (reachedOps graph window reach).forM fun op =>
      modifyNotes (arriveWindow graph window reach op)

/-- Records which operations an options menu reaches. -/
def arriveOptionsMenu (graph : FlowGraph) (menu : NodeId) : Solving Unit :=
  ((opsReached graph menu).filter (opIs graph OpKind.takesMenu)).forM fun op =>
    modifySolution fun solution =>
      { solution with optionsMenus := solution.optionsMenus.add op menu }

/-- Records which operations a context menu reaches, and gives them. -/
def arriveContextMenu (menu : NodeId) : Solving (List NodeId) := do
  let graph ← getGraph
  (opsReached graph menu).filterM fun op => do
    if opIs graph OpKind.takesMenu op then
      modifySolution fun solution =>
        { solution with contextMenus := solution.contextMenus.add op menu }
      pure true
    else
      misplaced "Context menu" menu op
      pure false

/-- Records which operations the menus reach. -/
def arriveMenus : Solving Unit := do
  let graph ← getGraph
  graph.optionsMenus.forM fun (_, menu) => arriveOptionsMenu graph menu
  graph.contextMenus.forM fun menu => do let _ ← arriveContextMenu menu

end Solving

end WidgetFlow
