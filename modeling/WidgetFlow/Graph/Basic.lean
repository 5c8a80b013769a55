import WidgetFlow.Graph.Node
import WidgetFlow.Ordered
import WidgetFlow.Policy

/-!
# Flow graphs

A flow graph has nodes, flow edges between them, containment links from views to the windows,
views and menus that hold them, and the handlers that registrations have got. Nodes are never
removed, so a node keeps its number.

Everything that can be derived is derived: the shared node of a key is searched among the nodes,
the successors of a node among the edges, its children among the links. So there is nothing that
could disagree.
-/

namespace WidgetFlow

/-- A node of the graph. -/
structure Node where
  kind : NodeKind
  /-- The node of the identifier that names this view or menu item. -/
  idNode : Option NodeId := none
  deriving Repr, Inhabited

/-- A flow edge, with the statement that it comes from. -/
structure FlowEdge where
  source : NodeId
  target : NodeId
  site : Option StmtId := none
  deriving DecidableEq, Repr, Inhabited

/-- A containment link. -/
structure Link where
  child : NodeId
  parent : NodeId
  deriving DecidableEq, Repr, Inhabited

/-- A flow graph. -/
structure FlowGraph where
  nodes : Array Node := #[]
  /-- The flow edges, in order of creation. -/
  edges : Array FlowEdge := #[]
  links : Array Link := #[]
  synthetics : Array SyntheticHandler := #[]
  bindings : Array (NodeId × Handler) := #[]
  /-- The registrations that have all their handlers already. -/
  prebound : Array NodeId := #[]
  /-- The number of variables made so far. -/
  made : Nat := 0
  deriving Inhabited

/-- Handlers in order: methods first, each kind by number. -/
def Handler.sort (handlers : List Handler) : List Handler :=
  Ordered.sort (fun handler : Handler => handler.rank.1)
    (Ordered.sort (fun handler : Handler => handler.rank.2) handlers)

namespace FlowGraph

/-! ## Looking at a graph -/

/-- A node; an unnamed variable if there is none with the number. -/
def node (graph : FlowGraph) (id : NodeId) : Node := graph.nodes.getD id default

def kind (graph : FlowGraph) (id : NodeId) : NodeKind := (graph.node id).kind

def op? (graph : FlowGraph) (id : NodeId) : Option Op := (graph.kind id).op?

def isOp (graph : FlowGraph) (id : NodeId) : Bool := (graph.kind id).isOp

/-- All nodes, in order of creation. -/
def nodeIds (graph : FlowGraph) : List NodeId := List.range graph.nodes.size

def describe (graph : FlowGraph) (id : NodeId) : String :=
  (graph.kind id).label ++ "#" ++ toString id

def find? (graph : FlowGraph) (key : NodeKey) : Option NodeId :=
  graph.nodes.findIdx? fun node => node.kind.key? = some key

/-- The declared type of a variable. -/
def varTy? (graph : FlowGraph) (id : NodeId) : Option Ty := (graph.kind id).varTy?

/-- The nodes of a certain kind with what was picked from them, in order of creation. -/
def pick {α : Type} (graph : FlowGraph) (select : NodeKind → Option α) : List (α × NodeId) :=
  graph.nodeIds.filterMap fun id => (select (graph.kind id)).map (·, id)

/-- The allocation nodes, in order of creation. -/
def allocs (graph : FlowGraph) : List NodeId :=
  (graph.pick fun
    | .alloc _ site _ => some site
    | _ => none).map (·.2)

/-- The identifier nodes of a kind, ascending by value. -/
def idNodes (graph : FlowGraph) (kind : IdKind) : List (ResId × NodeId) :=
  Ordered.sort (·.1) (graph.pick fun
    | .id found value => if found = kind then some value else none
    | _ => none)

def activities (graph : FlowGraph) : List (String × NodeId) :=
  Ordered.sort (·.1) (graph.pick fun
    | .activity owner => some owner
    | _ => none)

def optionsMenus (graph : FlowGraph) : List (String × NodeId) :=
  Ordered.sort (·.1) (graph.pick fun
    | .optionsMenu activity => some activity
    | _ => none)

def dialogs (graph : FlowGraph) : List NodeId :=
  (Ordered.sort (·.1) (graph.pick fun
    | .dialog _ site _ => some site
    | _ => none)).map (·.2)

def contextMenus (graph : FlowGraph) : List NodeId :=
  (graph.pick fun
    | .contextMenu filler _ _ => some filler
    | _ => none).map (·.2)

/-- The tab specifications, in order of creation. -/
def tabSpecs (graph : FlowGraph) : List NodeId :=
  (graph.pick fun
    | .tabSpec _ site => some site
    | _ => none).map (·.2)

/-- The operations, in order of creation. -/
def ops (graph : FlowGraph) : List NodeId := graph.nodeIds.filter graph.isOp

/-- The operations of certain kinds, in order of creation. -/
def opsWhere (graph : FlowGraph) (select : OpKind → Bool) : List NodeId :=
  graph.nodeIds.filter fun id => (graph.op? id).any fun op => select op.kind

def hasEdge (graph : FlowGraph) (source target : NodeId) : Bool :=
  graph.edges.any fun edge => edge.source = source && edge.target = target

def successors (graph : FlowGraph) (id : NodeId) : List NodeId :=
  (graph.edges.toList.filter fun edge => edge.source = id).map FlowEdge.target

def predecessors (graph : FlowGraph) (id : NodeId) : List NodeId :=
  (graph.edges.toList.filter fun edge => edge.target = id).map FlowEdge.source

/-- The nodes that a node directly contains, ascending. -/
def children (graph : FlowGraph) (id : NodeId) : List NodeId :=
  Ordered.sort (fun child : NodeId => child)
    ((graph.links.toList.filter fun link => link.parent = id).map Link.child)

/-- The nodes that directly contain a node, ascending. -/
def parents (graph : FlowGraph) (id : NodeId) : List NodeId :=
  Ordered.sort (fun parent : NodeId => parent)
    ((graph.links.toList.filter fun link => link.child = id).map Link.parent)

def idOf? (graph : FlowGraph) (id : NodeId) : Option NodeId := (graph.node id).idNode

/-- The handlers of a registration: methods first, each kind by number. -/
def handlersOf (graph : FlowGraph) (op : NodeId) : List Handler :=
  Handler.sort ((graph.bindings.toList.filter fun binding => binding.1 = op).map (·.2))

/-- Whether a registration has all its handlers already. -/
def isPrebound (graph : FlowGraph) (op : NodeId) : Bool := graph.prebound.contains op

/-! ## Adding nodes -/

def add (kind : NodeKind) (graph : FlowGraph) : NodeId × FlowGraph :=
  (graph.nodes.size, { graph with nodes := graph.nodes.push { kind } })

/-- The shared node of a kind, made if it is not there. The flag says whether it is new. What the
node records beside its key is never changed. -/
def share (kind : NodeKind) (graph : FlowGraph) : (NodeId × Bool) × FlowGraph :=
  match kind.key?.bind graph.find? with
  | some id => ((id, false), graph)
  | none => (((add kind graph).1, true), (add kind graph).2)

def obtain (kind : NodeKind) (graph : FlowGraph) : NodeId × FlowGraph :=
  ((share kind graph).1.1, (share kind graph).2)

/-- The node of a variable; its type is recorded when the node is made. -/
def varNode (var : Var) (ty : Option Ty) : FlowGraph → NodeId × FlowGraph := obtain (.var var ty)

/-- A new variable of a type. -/
def makeVar (ty : Ty) (graph : FlowGraph) : NodeId × FlowGraph :=
  varNode (.made (graph.made + 1)) (some ty) { graph with made := graph.made + 1 }

def fieldNode (field : FieldRef) : FlowGraph → NodeId × FlowGraph := obtain (.field field)

def allocNode (ty : Ty) (site : StmtId) (role : AllocRole) : FlowGraph → NodeId × FlowGraph :=
  obtain (.alloc ty site role)

def idNode (kind : IdKind) (value : ResId) : FlowGraph → NodeId × FlowGraph :=
  obtain (.id kind value)

def stringNode (text : String) : FlowGraph → NodeId × FlowGraph := obtain (.string text)

def viewNode (owner : String) : FlowGraph → NodeId × FlowGraph := add (.view owner)

def menuItemNode (owner : String) (attrs : List (String × String)) :
    FlowGraph → NodeId × FlowGraph :=
  add (.menuItem owner attrs)

def activityNode (owner : String) : FlowGraph → NodeId × FlowGraph := obtain (.activity owner)

def dialogNode (owner : String) (site : StmtId) : FlowGraph → (NodeId × Bool) × FlowGraph :=
  share (.dialog owner site true)

def optionsMenuNode (activity : String) : FlowGraph → (NodeId × Bool) × FlowGraph :=
  share (.optionsMenu activity)

def tabSpecNode (owner : String) (site : StmtId) : FlowGraph → NodeId × FlowGraph :=
  obtain (.tabSpec owner site)

/-! ## Edges, links and the rest -/

def modifyKind (id : NodeId) (change : NodeKind → NodeKind) (graph : FlowGraph) : FlowGraph :=
  { graph with nodes := graph.nodes.modify id fun node => { node with kind := change node.kind } }

/-- Adds a flow edge; the flag says whether it is new. -/
def addEdge (source target : NodeId) (site : Option StmtId) (graph : FlowGraph) :
    Bool × FlowGraph :=
  if graph.hasEdge source target then (false, graph)
  else (true, { graph with edges := graph.edges.push { source, target, site } })

def addEdge? (source target : Option NodeId) (site : Option StmtId) (graph : FlowGraph) :
    FlowGraph :=
  match source, target with
  | some source, some target => (graph.addEdge source target site).2
  | _, _ => graph

/-- Adds an operation with the edges from its receiver and its parameter and to its result. -/
def addOp (op : Op) (graph : FlowGraph) : NodeId × FlowGraph :=
  let (id, graph) := add (.op op) graph
  let graph := graph.addEdge? op.receiver (some id) op.site
  let graph := graph.addEdge? op.parameter (some id) op.site
  (id, graph.addEdge? (some id) op.result op.site)

/-- Adds a containment link; the flag says whether it is new. Nothing contains itself. -/
def addLink (child parent : NodeId) (graph : FlowGraph) : Except AnalysisError (Bool × FlowGraph) :=
  if child = parent then .error (.selfContainment (graph.describe child))
  else if graph.links.any fun link => link.child = child && link.parent = parent then
    .ok (false, graph)
  else .ok (true, { graph with links := graph.links.push { child, parent } })

def setId (id idNode : NodeId) (graph : FlowGraph) : FlowGraph :=
  { graph with nodes := graph.nodes.modify id fun node => { node with idNode := some idNode } }

def setCancelable (dialog : NodeId) (value : Bool) (graph : FlowGraph) : FlowGraph :=
  graph.modifyKind dialog fun
    | .dialog owner site _ => .dialog owner site value
    | kind => kind

/-- Adds a view to those that show a context menu, which are kept ascending. -/
def registerView (view : NodeId) : NodeKind → NodeKind
  | .contextMenu filler menuParam views =>
    if views.contains view then .contextMenu filler menuParam views
    else .contextMenu filler menuParam (Ordered.insert (fun id : NodeId => id) view views)
  | kind => kind

/-- The context menu that a method fills through its menu parameter, with one more view that shows
it. A new menu flows to the parameter. The flag says whether it is new. -/
def contextMenuNode (filler : MethodId) (menuParam view : NodeId) (graph : FlowGraph) :
    (NodeId × Bool) × FlowGraph :=
  let ((menu, created), graph) := share (.contextMenu filler menuParam []) graph
  let graph := if created then (graph.addEdge menu menuParam none).2 else graph
  ((menu, created), graph.modifyKind menu (registerView view))

/-- Adds a synthetic handler and the listener that has it: gives the listener's node and the
handler's number. -/
def addSynthetic (handler : SyntheticHandler) (graph : FlowGraph) : (NodeId × Nat) × FlowGraph :=
  let index := graph.synthetics.size
  let (id, graph) := add (.syntheticListener index handler.interface)
    { graph with synthetics := graph.synthetics.push handler }
  ((id, index), graph)

/-- Gives a registration a handler; the flag says whether it is new. -/
def bindHandler (op : NodeId) (handler : Handler) (graph : FlowGraph) : Bool × FlowGraph :=
  if graph.bindings.contains (op, handler) then (false, graph)
  else (true, { graph with bindings := graph.bindings.push (op, handler) })

def markPrebound (op : NodeId) (graph : FlowGraph) : FlowGraph :=
  if graph.prebound.contains op then graph else { graph with prebound := graph.prebound.push op }

end FlowGraph

end WidgetFlow
