import WidgetFlow.Solution.Arrivals

/-!
# Flow into slots

Views, menus and listeners flow into the slots of operations from the objects themselves and from
the operations that give them. What an operation gives is pushed along these paths whenever it is
resolved.
-/

namespace WidgetFlow

namespace OpKind

/-- Whether the operation gives views or menu items. -/
def producesViews : OpKind → Bool
  | findInView _ => true
  | findInWindow => true
  | findByPlace _ => true
  | inflate => true
  | _ => false

/-- Whether the parameter of the operation is a view. -/
def takesView : OpKind → Bool
  | setContent => true
  | addChild => true
  | _ => false

/-- Whether the receiver of the operation is a view or a menu. -/
def takesReceiver : OpKind → Bool
  | findInView _ => true
  | findByPlace _ => true
  | setId => true
  | setListener _ _ => true
  | addChild => true
  | _ => false

end OpKind

/-- Whether a node is a view or a menu item. -/
def NodeKind.isShown (kind : NodeKind) : Bool := kind.isViewAlloc || kind.isInflated

def NodeKind.isMenu : NodeKind → Bool
  | .optionsMenu _ => true
  | .contextMenu _ _ _ => true
  | _ => false

/-- Whether views, menus or menu items flow from a node. -/
def NodeKind.isProducer (kind : NodeKind) : Bool :=
  match kind with
  | .op found => found.kind.producesViews
  | _ => kind.isMenu || kind.isShown

/-- Whether an object may be registered at an operation: its class has to implement some listener,
and to fit the declared type of the parameter. -/
def Hierarchy.admitsListener (hierarchy : Hierarchy) (graph : FlowGraph) (object op : NodeId) :
    Bool :=
  ((graph.kind object).owner?.any hierarchy.isListener) &&
    hierarchy.admits graph object op .parameter

namespace Solving

open Analysis

/-! ## Tracing -/

def Paths.arrive (kind : NodeKind) (source : NodeId) (reach : NodeSet) (paths : Paths)
    (op : NodeId) (found : Op) : Paths :=
  let atParameter := found.parameter.any reach.contains
  let atReceiver := found.receiver.any reach.contains
  { parameters :=
      if kind.isProducer && found.kind.takesView && atParameter then
        paths.parameters.add op source
      else paths.parameters
    receivers :=
      if kind.isProducer && found.kind.takesReceiver && atReceiver then
        paths.receivers.add op source
      else paths.receivers
    listeners :=
      if found.kind.isSetListener && atParameter then
        paths.listeners.add op source
      else paths.listeners }

def Paths.traceFrom (graph : FlowGraph) (paths : Paths) (source : NodeId) : Paths :=
  let kind := graph.kind source
  if kind.isProducer || kind.isObject then
    let reach := graph.forwardReachable source
    (reachedOps graph source reach).foldl (fun paths op =>
      match graph.op? op with
      | some found => paths.arrive kind source reach op found
      | none => paths) paths
  else paths

/-- Adds the menus that operations work on as their receivers. -/
def Paths.addMenus (graph : FlowGraph) (solution : Solution) (paths : Paths) : Paths :=
  let pairs := (solution.optionsMenus.pairs ++ solution.contextMenus.pairs).filter fun (op, _) =>
    !opIs graph (· = .inflateMenu) op
  { paths with
    receivers := pairs.foldl (fun receivers (op, menu) => receivers.add op menu) paths.receivers }

def Paths.trace (graph : FlowGraph) (solution : Solution) (paths : Paths) : Paths :=
  (graph.nodeIds.foldl (Paths.traceFrom graph) paths).addMenus graph solution

/-! ## Filling slots -/

def objectPairs (graph : FlowGraph) (paths : NodeRelation) : List (NodeId × NodeId) :=
  paths.pairs.filter fun (_, source) => (graph.kind source).isObject

/-- Reports that a slot gets an object that has no place there. -/
def misfit (slot : String) (op object : NodeId) : Solving Unit := do
  if ← flag op object then
    let graph ← getGraph
    violation (slot ++ " of " ++ graph.describe op ++ " is " ++ graph.describe object)

def seedParameter (ctx : Context) (op object : NodeId) : Solving Unit := do
  let graph ← getGraph
  if ctx.hierarchy.admits graph object op .parameter then
    if (graph.kind object).isShown then
      modifySolution fun solution =>
        { solution with parameters := solution.parameters.add op object }
    else misfit "Parameter" op object

def seedReceiver (ctx : Context) (op object : NodeId) : Solving Unit := do
  let graph ← getGraph
  if ctx.hierarchy.admits graph object op .receiver then
    if (graph.kind object).isShown || (graph.kind object).isMenu then
      modifySolution fun solution =>
        { solution with receivers := solution.receivers.add op object }
    else misfit "Receiver" op object

/-- Puts an object among the listeners of a registration. -/
def seedListener (ctx : Context) (op object : NodeId) : Solving Unit := do
  if ctx.hierarchy.admitsListener (← getGraph) object op then
    modifySolution fun solution =>
      { solution with listeners := solution.listeners.add op object }

/-- Traces the paths of the graph as it is now, and puts the objects at their ends into the
slots. -/
def tracePaths (ctx : Context) : Solving Unit := do
  let graph ← getGraph
  modifyNotes fun notes => { notes with paths := notes.paths.trace graph notes.solution }
  let paths := (← getNotes).paths
  (objectPairs graph paths.parameters).forM fun (op, object) => seedParameter ctx op object
  (objectPairs graph paths.receivers).forM fun (op, object) => seedReceiver ctx op object
  (objectPairs graph paths.listeners).forM fun (op, object) => seedListener ctx op object

/-! ## Pushing results -/

/-- The operations that a source flows to along some paths, ascending. -/
def targetsOf (paths : NodeRelation) (source : NodeId) : List NodeId :=
  (paths.rows.filter fun (_, sources) => sources.contains source).map (·.1)

/-- A relation with more values for some keys, each key getting those that it admits. -/
def extend (relation : NodeRelation) (targets values : List NodeId)
    (admits : NodeId → NodeId → Bool) : NodeRelation :=
  targets.foldl (fun relation op => relation.addAll op (values.filter fun value => admits value op))
    relation

def lacks (relation : NodeRelation) (targets values : List NodeId)
    (admits : NodeId → NodeId → Bool) : Bool :=
  targets.any fun op => values.any fun value => admits value op && !relation.holds op value

/-- Pushes results of an operation to the slots that it flows into, and says whether any of them
has grown. -/
def push (ctx : Context) (source : NodeId) (results : List NodeId) : Solving Bool := do
  let graph ← getGraph
  let notes ← getNotes
  let solution := notes.solution
  let atParameter value op := ctx.hierarchy.admits graph value op .parameter
  let atReceiver value op := ctx.hierarchy.admits graph value op .receiver
  let asListener value op := ctx.hierarchy.admitsListener graph value op
  let parameters := targetsOf notes.paths.parameters source
  let receivers := targetsOf notes.paths.receivers source
  let listeners := targetsOf notes.paths.listeners source
  modifySolution fun solution =>
    { solution with
      parameters := extend solution.parameters parameters results atParameter
      receivers := extend solution.receivers receivers results atReceiver
      listeners := extend solution.listeners listeners results asListener }
  pure (lacks solution.parameters parameters results atParameter ||
    lacks solution.receivers receivers results atReceiver ||
    lacks solution.listeners listeners results asListener)

end Solving

end WidgetFlow
