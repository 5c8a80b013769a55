import WidgetFlow.Graph.Basic

/-!
# Graphs with tables

A flow graph derives what can be derived. A stored graph keeps it: tables by which shared nodes are
looked up, the list of operations, the number of edges, and on every node both ends of its links.
So each operation has to keep them in step, and a look-up costs no search.
-/

namespace WidgetFlow

/-- A node with the ends of its containment links. -/
structure StoredNode extends Node where
  /-- The nodes that directly contain it. -/
  parents : NodeSet := {}
  /-- The nodes that it directly contains. -/
  children : NodeSet := {}
  deriving Inhabited

/-- The tables of shared nodes. Tab specifications have no table: their list is searched. -/
structure NodeTables where
  vars : List (Var × NodeId) := []
  fields : List (FieldRef × NodeId) := []
  allocs : List (StmtId × NodeId) := []
  ids : List ((IdKind × ResId) × NodeId) := []
  strings : List (String × NodeId) := []
  activities : List (String × NodeId) := []
  dialogs : List (StmtId × NodeId) := []
  optionsMenus : List (String × NodeId) := []
  /-- The context menus by the parameters through which they are filled. -/
  contextMenus : List (NodeId × NodeId) := []
  tabSpecs : List NodeId := []
  deriving Inhabited

/-- The tables with a node for a key. -/
def NodeTables.enter (tables : NodeTables) (id : NodeId) : NodeKey → NodeTables
  | .var name => { tables with vars := (name, id) :: tables.vars }
  | .field ref => { tables with fields := (ref, id) :: tables.fields }
  | .alloc site => { tables with allocs := (site, id) :: tables.allocs }
  | .id kind value => { tables with ids := ((kind, value), id) :: tables.ids }
  | .string text => { tables with strings := (text, id) :: tables.strings }
  | .activity owner => { tables with activities := (owner, id) :: tables.activities }
  | .dialog site => { tables with dialogs := (site, id) :: tables.dialogs }
  | .optionsMenu owner => { tables with optionsMenus := (owner, id) :: tables.optionsMenus }
  | .contextMenu menuParam => { tables with contextMenus := (menuParam, id) :: tables.contextMenus }
  | .tabSpec _ => { tables with tabSpecs := tables.tabSpecs ++ [id] }

/-- A flow graph that keeps what could be derived. -/
structure StoredGraph where
  nodes : Array StoredNode := #[]
  edges : Array FlowEdge := #[]
  tables : NodeTables := {}
  /-- The operations, in order of creation. -/
  ops : List NodeId := []
  synthetics : Array SyntheticHandler := #[]
  bindings : Array (NodeId × Handler) := #[]
  prebound : Array NodeId := #[]
  /-- The number of variables made so far. -/
  made : Nat := 0
  /-- The number of edges. -/
  edgeCount : Nat := 0
  deriving Inhabited

/-- A set of nodes with one that may be in it already. -/
def NodeSet.with (set : NodeSet) (id : NodeId) : NodeSet :=
  if set.contains id then set else set.insert id

namespace StoredGraph

/-! ## Looking at a graph -/

def node (graph : StoredGraph) (id : NodeId) : StoredNode := graph.nodes.getD id default

def kind (graph : StoredGraph) (id : NodeId) : NodeKind := (graph.node id).kind

def isOp (graph : StoredGraph) (id : NodeId) : Bool := (graph.kind id).isOp

def parents (graph : StoredGraph) (id : NodeId) : NodeSet := (graph.node id).parents

def children (graph : StoredGraph) (id : NodeId) : NodeSet := (graph.node id).children

def hasEdge (graph : StoredGraph) (source target : NodeId) : Bool :=
  graph.edges.any fun edge => edge.source = source && edge.target = target

def describe (graph : StoredGraph) (id : NodeId) : String :=
  (graph.kind id).label ++ "#" ++ toString id

/-- The shared node of a key, as the tables have it. -/
def find? (graph : StoredGraph) : NodeKey → Option NodeId
  | .var name => graph.tables.vars.lookup name
  | .field ref => graph.tables.fields.lookup ref
  | .alloc site => graph.tables.allocs.lookup site
  | .id kind value => graph.tables.ids.lookup (kind, value)
  | .string text => graph.tables.strings.lookup text
  | .activity owner => graph.tables.activities.lookup owner
  | .dialog site => graph.tables.dialogs.lookup site
  | .optionsMenu owner => graph.tables.optionsMenus.lookup owner
  | .contextMenu menuParam => graph.tables.contextMenus.lookup menuParam
  | .tabSpec site =>
    graph.tables.tabSpecs.find? fun id => (graph.kind id).key? = some (.tabSpec site)

/-! ## Adding nodes -/

def add (kind : NodeKind) (graph : StoredGraph) : NodeId × StoredGraph :=
  (graph.nodes.size, { graph with nodes := graph.nodes.push { kind } })

/-- The shared node of a kind. If the tables do not have it, it is made and entered. The flag says
whether it is new. -/
def share (kind : NodeKind) (graph : StoredGraph) : (NodeId × Bool) × StoredGraph :=
  match kind.key?.bind graph.find? with
  | some id => ((id, false), graph)
  | none =>
    let (id, graph) := add kind graph
    ((id, true), { graph with tables := kind.key?.elim graph.tables (graph.tables.enter id) })

def obtain (kind : NodeKind) (graph : StoredGraph) : NodeId × StoredGraph :=
  ((share kind graph).1.1, (share kind graph).2)

/-- A new variable of a type. -/
def makeVar (ty : Ty) (graph : StoredGraph) : NodeId × StoredGraph :=
  obtain (.var (.made (graph.made + 1)) (some ty)) { graph with made := graph.made + 1 }

/-! ## Edges, links and the rest -/

def modify (id : NodeId) (change : StoredNode → StoredNode) (graph : StoredGraph) : StoredGraph :=
  { graph with nodes := graph.nodes.modify id change }

def modifyKind (id : NodeId) (change : NodeKind → NodeKind) (graph : StoredGraph) : StoredGraph :=
  graph.modify id fun node => { node with kind := change node.kind }

/-- Adds a flow edge and counts it; the flag says whether it is new. -/
def addEdge (source target : NodeId) (site : Option StmtId) (graph : StoredGraph) :
    Bool × StoredGraph :=
  if graph.hasEdge source target then (false, graph)
  else
    (true, { graph with
      edges := graph.edges.push { source, target, site }
      edgeCount := graph.edgeCount + 1 })

def addEdge? (source target : Option NodeId) (site : Option StmtId) (graph : StoredGraph) :
    StoredGraph :=
  match source, target with
  | some source, some target => (graph.addEdge source target site).2
  | _, _ => graph

/-- Adds an operation, lists it, and adds its edges. -/
def addOp (op : Op) (graph : StoredGraph) : NodeId × StoredGraph :=
  let (id, graph) := add (.op op) graph
  let graph := { graph with ops := graph.ops ++ [id] }
  let graph := graph.addEdge? op.receiver (some id) op.site
  let graph := graph.addEdge? op.parameter (some id) op.site
  (id, graph.addEdge? (some id) op.result op.site)

/-- Records a containment link at both of its ends. -/
def tie (child parent : NodeId) (graph : StoredGraph) : StoredGraph :=
  (graph.modify child fun node => { node with parents := node.parents.with parent }).modify parent
    fun node => { node with children := node.children.with child }

/-- Adds a containment link; the flag says whether it is new. Nothing contains itself. -/
def addLink (child parent : NodeId) (graph : StoredGraph) :
    Except AnalysisError (Bool × StoredGraph) :=
  if child = parent then .error (.selfContainment (graph.describe child))
  else .ok (!(graph.parents child).contains parent, graph.tie child parent)

def setId (id idNode : NodeId) (graph : StoredGraph) : StoredGraph :=
  graph.modify id fun node => { node with idNode := some idNode }

def setCancelable (dialog : NodeId) (value : Bool) (graph : StoredGraph) : StoredGraph :=
  graph.modifyKind dialog fun
    | .dialog owner site _ => .dialog owner site value
    | kind => kind

/-- The context menu that a method fills through its menu parameter, with one more view that shows
it. A new menu flows to the parameter. The flag says whether it is new. -/
def contextMenuNode (filler : MethodId) (menuParam view : NodeId) (graph : StoredGraph) :
    (NodeId × Bool) × StoredGraph :=
  let ((menu, created), graph) := share (.contextMenu filler menuParam []) graph
  let graph := if created then (graph.addEdge menu menuParam none).2 else graph
  ((menu, created), graph.modifyKind menu (FlowGraph.registerView view))

/-- Adds a synthetic handler and the listener that has it. -/
def addSynthetic (handler : SyntheticHandler) (graph : StoredGraph) :
    (NodeId × Nat) × StoredGraph :=
  let index := graph.synthetics.size
  let (id, graph) := add (.syntheticListener index handler.interface)
    { graph with synthetics := graph.synthetics.push handler }
  ((id, index), graph)

/-- Gives a registration a handler; the flag says whether it is new. -/
def bindHandler (op : NodeId) (handler : Handler) (graph : StoredGraph) : Bool × StoredGraph :=
  if graph.bindings.contains (op, handler) then (false, graph)
  else (true, { graph with bindings := graph.bindings.push (op, handler) })

def markPrebound (op : NodeId) (graph : StoredGraph) : StoredGraph :=
  if graph.prebound.contains op then graph else { graph with prebound := graph.prebound.push op }

end StoredGraph

end WidgetFlow
