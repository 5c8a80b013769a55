import WidgetFlow.Graph.Stored
import WidgetFlow.Proofs.Graph.Requests

/-!
# Stored graphs stand for flow graphs

A stored graph represents a flow graph if its tables find the same nodes, its list of operations is
the same, it counts the same edges, and both ends of every link are recorded (`Represents`). Each
request keeps this and gives the same answer to both graphs (`Request.represents_store`).
-/

namespace WidgetFlow

/-- The node that a request to a stored graph gives, if it asks for one, and the graph after it. -/
def Request.store (g : StoredGraph) : Request → Option NodeId × StoredGraph
  | .var name ty => gives (StoredGraph.obtain (.var name ty) g)
  | .makeVar ty => gives (StoredGraph.makeVar ty g)
  | .field ref => gives (StoredGraph.obtain (.field ref) g)
  | .alloc ty site role => gives (StoredGraph.obtain (.alloc ty site role) g)
  | .id kind v => gives (StoredGraph.obtain (.id kind v) g)
  | .string text => gives (StoredGraph.obtain (.string text) g)
  | .view owner => gives (StoredGraph.add (.view owner) g)
  | .menuItem owner attrs => gives (StoredGraph.add (.menuItem owner attrs) g)
  | .activity owner => gives (StoredGraph.obtain (.activity owner) g)
  | .dialog owner site => shares (StoredGraph.share (.dialog owner site true) g)
  | .optionsMenu owner => shares (StoredGraph.share (.optionsMenu owner) g)
  | .contextMenu filler menuParam shown =>
    shares (StoredGraph.contextMenuNode filler menuParam shown g)
  | .tabSpec owner site => gives (StoredGraph.obtain (.tabSpec owner site) g)
  | .synthetic handler => shares (StoredGraph.addSynthetic handler g)
  | .op added => gives (StoredGraph.addOp added g)
  | .edge src dst site => (none, (StoredGraph.addEdge src dst site g).2)
  | .link c p =>
    (none, ((StoredGraph.addLink c p g).toOption.map (·.2)).getD g)
  | .setId n name => (none, StoredGraph.setId n name g)
  | .setCancelable n v => (none, StoredGraph.setCancelable n v g)
  | .bindHandler n handler => (none, (StoredGraph.bindHandler n handler g).2)
  | .markPrebound n => (none, StoredGraph.markPrebound n g)

/-! ## Nodes and tables -/

theorem NodeSet.mem_with {set : NodeSet} {id other : NodeId} :
    other ∈ set.with id ↔ other ∈ set ∨ other = id := by
  unfold NodeSet.with
  split
  next hmem => exact (or_iff_left_of_imp fun heq => heq ▸ Std.TreeSet.mem_iff_contains.mpr hmem).symm
  next => rw [Std.TreeSet.mem_insert, Std.compare_eq_iff_eq, or_comm, eq_comm]

/-- A new node is found by its key and changes nothing for other keys. -/
theorem FlowGraph.find?_add {g : FlowGraph} (kind : NodeKind) (key : NodeKey) :
    (add kind g).2.find? key = (g.find? key).or
      (if kind.key? = some key then some g.nodes.size else none) := by
  simp only [find?, add, Array.findIdx?_push, decide_eq_true_iff]

namespace StoredGraph

variable {store : StoredGraph} {id : NodeId} {kind : NodeKind}

theorem node_push (n : StoredNode) :
    ({ store with nodes := store.nodes.push n } : StoredGraph).node id =
      if id = store.nodes.size then n else store.node id := by
  simp only [StoredGraph.node, Array.getD_eq_getD_getElem?, Array.getElem?_push]
  split <;> rfl

theorem node_modify (dst : NodeId) (change : StoredNode → StoredNode) :
    (store.modify dst change).node id =
      if dst = id ∧ id < store.nodes.size then change (store.node id) else store.node id := by
  simp only [StoredGraph.node, modify, Array.getD_eq_getD_getElem?, Array.getElem?_modify]
  by_cases hsize : id < store.nodes.size <;> by_cases hid : dst = id <;> simp [hsize, hid]

/-- Among some nodes of the same kinds the same one is found. -/
theorem find?_specs {new : StoredGraph} {ids : List NodeId} (site : StmtId)
    (hkind : ∀ id ∈ ids, (new.kind id).key? = (store.kind id).key?) :
    (ids.find? fun id => (new.kind id).key? = some (.tabSpec site)) =
      ids.find? fun id => (store.kind id).key? = some (.tabSpec site) := by
  rw [← List.head?_filter, ← List.head?_filter]
  exact congrArg List.head? (List.filter_congr fun id hid => by rw [hkind id hid])

/-- A change of what is stored beside the keys does not change what is found. -/
theorem find?_congr (store new : StoredGraph) (htables : new.tables = store.tables)
    (hkind : ∀ id ∈ store.tables.tabSpecs, (new.kind id).key? = (store.kind id).key?)
    (key : NodeKey) : new.find? key = store.find? key := by
  cases key <;> simp only [find?, htables]
  case tabSpec site => exact find?_specs site hkind

/-- A node that is entered is found by its key, and nothing else is found in another way. -/
theorem find?_enter {new : StoredGraph} {key : NodeKey}
    (htables : new.tables = store.tables.enter id key) (hfree : store.find? key = none)
    (hkey : (new.kind id).key? = some key)
    (hkind : ∀ id ∈ store.tables.tabSpecs, (new.kind id).key? = (store.kind id).key?)
    (other : NodeKey) :
    new.find? other = (store.find? other).or (if key = other then some id else none) := by
  by_cases hother : key = other
  · subst hother
    rw [hfree, Option.none_or, if_pos rfl]
    cases key <;> simp only [find?, htables, NodeTables.enter, List.lookup_cons_self]
    case tabSpec site =>
      rw [List.find?_append, find?_specs site hkind]
      change (store.find? (.tabSpec site)).or _ = _
      rw [hfree, Option.none_or, List.find?_singleton, hkey]
      simp
  · rw [if_neg hother, Option.or_none]
    -- another table is as it was, and in the same table the key is another one
    cases other <;> cases key <;> simp only [find?, htables, NodeTables.enter]
    case tabSpec.tabSpec site _ =>
      rw [List.find?_append, find?_specs site hkind, List.find?_singleton, hkey]
      simp [hother]
    case tabSpec.var | tabSpec.field | tabSpec.alloc | tabSpec.id | tabSpec.string |
        tabSpec.activity | tabSpec.dialog | tabSpec.optionsMenu | tabSpec.contextMenu =>
      exact find?_specs _ hkind
    all_goals
      rw [List.lookup_cons]
      split
      next heq => exact absurd (by simp_all) hother
      next => rfl

theorem toNode_tie (c p : NodeId) :
    ((store.tie c p).node id).toNode = (store.node id).toNode := by
  unfold tie
  rw [node_modify, node_modify]
  split <;> split <;> rfl

theorem children_tie (c p : NodeId) :
    (store.tie c p).children id =
      if p = id ∧ id < store.nodes.size then (store.children id).with c
      else store.children id := by
  unfold tie children
  rw [node_modify, node_modify, show (store.modify c _).nodes.size = store.nodes.size from
    Array.size_modify]
  split <;> split <;> rfl

theorem parents_tie (c p : NodeId) :
    (store.tie c p).parents id =
      if c = id ∧ id < store.nodes.size then (store.parents id).with p
      else store.parents id := by
  unfold tie parents
  rw [node_modify, node_modify]
  split <;> split <;> rfl

theorem modify_eq_self {change : StoredNode → StoredNode}
    (h : change (store.node id) = store.node id) : store.modify id change = store := by
  have hnodes : store.nodes.modify id change = store.nodes := by
    refine Array.ext (by simp) fun index hnew hold => ?_
    rw [Array.getElem_modify]
    split
    next heq =>
      subst heq
      simpa [node, Array.getD, hold] using h
    next => rfl
  rw [modify, hnodes]

/-- A link that is recorded at both ends is not recorded again. -/
theorem tie_eq_self {c p : NodeId} (hparent : p ∈ store.parents c)
    (hchild : c ∈ store.children p) : store.tie c p = store := by
  have hparents : (store.node c).parents.with p = (store.node c).parents :=
    if_pos (Std.TreeSet.mem_iff_contains.mp hparent)
  have hchildren : (store.node p).children.with c = (store.node p).children :=
    if_pos (Std.TreeSet.mem_iff_contains.mp hchild)
  have hfirst : store.modify c (fun n =>
      { n with parents := n.parents.with p }) = store :=
    modify_eq_self (by rw [hparents])
  rw [tie, hfirst]
  exact modify_eq_self (by rw [hchildren])

/-! ## The graph that is represented -/

/-- A stored graph represents a flow graph. -/
structure Represents (store : StoredGraph) (g : FlowGraph) : Prop where
  size_eq : store.nodes.size = g.nodes.size
  node_eq : ∀ id, (store.node id).toNode = g.node id
  /-- The tables find what a search finds. -/
  find?_eq : ∀ key, store.find? key = g.find? key
  specs_lt : ∀ id ∈ store.tables.tabSpecs, id < store.nodes.size
  ops_eq : store.ops = g.ops
  edges_eq : store.edges = g.edges
  count_eq : store.edgeCount = store.edges.size
  mem_children : ∀ c p, c ∈ store.children p ↔ ⟨c, p⟩ ∈ g.links
  mem_parents : ∀ c p, p ∈ store.parents c ↔ ⟨c, p⟩ ∈ g.links
  synthetics_eq : store.synthetics = g.synthetics
  bindings_eq : store.bindings = g.bindings
  prebound_eq : store.prebound = g.prebound
  made_eq : store.made = g.made

theorem represents_empty : Represents {} {} where
  size_eq := rfl
  node_eq _ := rfl
  find?_eq key := by
    have hnone : FlowGraph.find? {} key = none := by simp [FlowGraph.find?]
    rw [hnone]
    cases key <;> rfl
  specs_lt := nofun
  ops_eq := rfl
  edges_eq := rfl
  count_eq := rfl
  mem_children _ _ := by simp [children, node, default, instInhabitedStoredNode.default]
  mem_parents _ _ := by simp [parents, node, default, instInhabitedStoredNode.default]
  synthetics_eq := rfl
  bindings_eq := rfl
  prebound_eq := rfl
  made_eq := rfl

namespace Represents

variable {g : FlowGraph} (h : Represents store g)
include h

theorem kind_eq (id : NodeId) : store.kind id = g.kind id :=
  congrArg Node.kind (h.node_eq id)

theorem hasEdge_eq (src dst : NodeId) :
    store.hasEdge src dst = g.hasEdge src dst := by
  rw [hasEdge, h.edges_eq]
  rfl

/-- A node is added to both graphs, and to the tables and the operations where it belongs. -/
theorem push {tables : NodeTables} {ops : List NodeId}
    (hfind : ∀ key, StoredGraph.find?
        { store with nodes := store.nodes.push { kind }, tables, ops } key =
      (store.find? key).or (if kind.key? = some key then some store.nodes.size else none))
    (hspecs : ∀ id ∈ tables.tabSpecs, id < store.nodes.size + 1)
    (hops : ops = store.ops ++ if kind.isOp then [store.nodes.size] else []) :
    Represents { store with nodes := store.nodes.push { kind }, tables, ops }
      (FlowGraph.add kind g).2 := by
  have hnode : ∀ id, StoredGraph.node
      { store with nodes := store.nodes.push { kind }, tables, ops } id =
        if id = store.nodes.size then { kind } else store.node id := fun id => node_push { kind }
  have hnew : store.node store.nodes.size = default := by simp [node, Array.getD]
  exact {
    size_eq := by simp [FlowGraph.add, h.size_eq]
    node_eq := fun id => by
      rw [hnode, FlowGraph.add, FlowGraph.node_push, ← h.size_eq]
      split
      · rfl
      · exact h.node_eq id
    find?_eq := fun key => by rw [hfind, FlowGraph.find?_add, h.find?_eq, h.size_eq]
    specs_lt := by simpa using hspecs
    ops_eq := by rw [FlowGraph.ops_add, ← h.ops_eq, ← h.size_eq]; exact hops
    edges_eq := h.edges_eq
    count_eq := h.count_eq
    mem_children := fun c p => by
      rw [children, hnode]
      split
      next hid =>
        have hold := h.mem_children c p
        rw [children, hid, hnew] at hold
        exact hid ▸ hold
      next => exact h.mem_children c p
    mem_parents := fun c p => by
      rw [parents, hnode]
      split
      next hid =>
        have hold := h.mem_parents c p
        rw [parents, hid, hnew] at hold
        exact hid ▸ hold
      next => exact h.mem_parents c p
    synthetics_eq := h.synthetics_eq
    bindings_eq := h.bindings_eq
    prebound_eq := h.prebound_eq
    made_eq := h.made_eq }

/-- A node without a key is entered nowhere. -/
theorem find?_push (hkey : kind.key? = none) (ops : List NodeId) (key : NodeKey) :
    StoredGraph.find? { store with nodes := store.nodes.push { kind }, ops } key =
      (store.find? key).or (if kind.key? = some key then some store.nodes.size else none) := by
  have hkinds : ∀ id ∈ store.tables.tabSpecs, (StoredGraph.kind
      { store with nodes := store.nodes.push { kind }, ops } id).key? = (store.kind id).key? :=
    fun id hid => congrArg (NodeKind.key? ·.kind)
      ((node_push _).trans (if_neg (Nat.ne_of_lt (h.specs_lt id hid))))
  rw [hkey, if_neg nofun, Option.or_none]
  exact find?_congr store { store with nodes := store.nodes.push { kind }, ops } rfl hkinds key

theorem add (hkey : kind.key? = none) (hop : kind.isOp = false) :
    Represents (store.add kind).2 (g.add kind).2 :=
  h.push (h.find?_push hkey _) (fun id hid => Nat.lt_succ_of_lt (h.specs_lt id hid)) (by simp [hop])

/-- The tables give the shared node of a kind, and get it if they do not have it. -/
theorem share (hop : kind.isOp = false) :
    (store.share kind).1 = (g.share kind).1 ∧
      Represents (store.share kind).2 (g.share kind).2 := by
  unfold StoredGraph.share FlowGraph.share
  have hfound : kind.key?.bind store.find? = kind.key?.bind g.find? := by
    cases kind.key? with
    | none => rfl
    | some key => exact h.find?_eq key
  rw [← hfound]
  cases hfind : kind.key?.bind store.find? with
  | some id => exact ⟨rfl, h⟩
  | none =>
    refine ⟨by simp [StoredGraph.add, h.size_eq], ?_⟩
    cases hkey : kind.key? with
    | none => exact h.add hkey hop
    | some key =>
      rw [hkey, Option.bind_some] at hfind
      let new : StoredGraph := { store with
        nodes := store.nodes.push { kind }
        tables := store.tables.enter store.nodes.size key }
      have hkinds : ∀ id ∈ store.tables.tabSpecs, (new.kind id).key? = (store.kind id).key? :=
        fun id hid => congrArg (NodeKind.key? ·.kind)
          ((node_push _).trans (if_neg (Nat.ne_of_lt (h.specs_lt id hid))))
      have hown : (new.kind store.nodes.size).key? = some key :=
        (congrArg (NodeKind.key? ·.kind) ((node_push _).trans (if_pos rfl))).trans hkey
      have hspecs : ∀ id ∈ new.tables.tabSpecs, id < store.nodes.size + 1 := by
        intro id hid
        have hcases : id ∈ store.tables.tabSpecs ∨ id = store.nodes.size := by
          change id ∈ (store.tables.enter store.nodes.size key).tabSpecs at hid
          cases key <;> simp_all [NodeTables.enter]
        rcases hcases with hmem | rfl
        · exact Nat.lt_succ_of_lt (h.specs_lt id hmem)
        · exact Nat.lt_succ_self _
      have hentered : ∀ other, new.find? other = (store.find? other).or
          (if kind.key? = some other then some store.nodes.size else none) := by
        simp only [hkey, Option.some.injEq]
        exact find?_enter rfl hfind hown hkinds
      exact h.push hentered hspecs (by rw [hop]; exact (List.append_nil _).symm)

theorem addEdge (src dst : NodeId) (site : Option StmtId) :
    (store.addEdge src dst site).1 = (g.addEdge src dst site).1 ∧
      Represents (store.addEdge src dst site).2 (g.addEdge src dst site).2 := by
  unfold StoredGraph.addEdge FlowGraph.addEdge
  rw [h.hasEdge_eq]
  split
  · exact ⟨rfl, h⟩
  · exact ⟨rfl, { h with
      edges_eq := congrArg (Array.push · _) h.edges_eq
      count_eq := by simp [h.count_eq] }⟩

theorem addEdge? (src dst : Option NodeId) (site : Option StmtId) :
    Represents (store.addEdge? src dst site) (g.addEdge? src dst site) := by
  cases src with
  | none => exact h
  | some src =>
    cases dst with
    | none => exact h
    | some dst => exact (h.addEdge src dst site).2

theorem addOp (op : Op) :
    (store.addOp op).1 = (g.addOp op).1 ∧
      Represents (store.addOp op).2 (g.addOp op).2 := by
  have hkey : (NodeKind.op op).key? = none := rfl
  have hpush := h.push (h.find?_push hkey (store.ops ++ [store.nodes.size])) (fun id hid => Nat.lt_succ_of_lt (h.specs_lt id hid)) rfl
  have hedges := ((hpush.addEdge? op.receiver (some store.nodes.size) op.site).addEdge? op.parameter
    (some store.nodes.size) op.site).addEdge? (some store.nodes.size) op.result op.site
  unfold FlowGraph.addOp
  simp only [FlowGraph.add_fst, ← h.size_eq]
  exact ⟨rfl, hedges⟩

/-- A change that leaves keys, operations and links alone is made to both graphs. -/
theorem modify {change : StoredNode → StoredNode} {change' : Node → Node} (dst : NodeId)
    (hnode : ∀ n, (change n).toNode = change' n.toNode)
    (hparents : ∀ n, (change n).parents = n.parents)
    (hchildren : ∀ n, (change n).children = n.children)
    (hcore : ∀ n, (change' n).kind.core = n.kind.core) :
    Represents (store.modify dst change)
      { g with nodes := g.nodes.modify dst change' } := by
  have hsame : FlowGraph.SameNodes g
      { g with nodes := g.nodes.modify dst change' } := by
    refine ⟨by simp, fun id => ?_⟩
    rw [FlowGraph.kind, FlowGraph.node_modify]
    split
    · exact hcore _
    · rfl
  have hnodes : ∀ id, ((store.modify dst change).node id).toNode =
      FlowGraph.node { g with nodes := g.nodes.modify dst change' } id := by
    intro id
    rw [node_modify, FlowGraph.node_modify, h.size_eq]
    split
    · rw [hnode, h.node_eq]
    · exact h.node_eq id
  have hkind : ∀ id, ((store.modify dst change).kind id).key? = (store.kind id).key? := by
    intro id
    rw [h.kind_eq, ← hsame.keeps NodeKind.key? NodeKind.key?_core]
    exact congrArg (NodeKind.key? ·.kind) (hnodes id)
  exact {
    size_eq := by simp [StoredGraph.modify, h.size_eq]
    node_eq := hnodes
    find?_eq := fun key => by
      rw [hsame.find?_eq, ← h.find?_eq]
      exact find?_congr store (store.modify dst change) rfl (fun id _ => hkind id) key
    specs_lt := by simpa [StoredGraph.modify] using h.specs_lt
    ops_eq := h.ops_eq.trans hsame.ops_eq.symm
    edges_eq := h.edges_eq
    count_eq := h.count_eq
    mem_children := fun c p => by
      rw [← h.mem_children, children, node_modify, children]
      split
      · rw [hchildren]
      · rfl
    mem_parents := fun c p => by
      rw [← h.mem_parents, parents, node_modify, parents]
      split
      · rw [hparents]
      · rfl
    synthetics_eq := h.synthetics_eq
    bindings_eq := h.bindings_eq
    prebound_eq := h.prebound_eq
    made_eq := h.made_eq }

theorem modifyKind {change : NodeKind → NodeKind} (dst : NodeId)
    (hcore : ∀ kind, (change kind).core = kind.core) :
    Represents (store.modifyKind dst change) (g.modifyKind dst change) :=
  h.modify dst (fun _ => rfl) (fun _ => rfl) (fun _ => rfl) fun _ => hcore _

theorem setCancelable (dialog : NodeId) (v : Bool) :
    Represents (store.setCancelable dialog v) (g.setCancelable dialog v) := by
  unfold StoredGraph.setCancelable FlowGraph.setCancelable
  exact h.modifyKind dialog fun kind => by cases kind <;> rfl

/-- A link is recorded at both ends. -/
theorem tie {c p : NodeId} {links : Array Link} (hchild : c < g.nodes.size)
    (hparent : p < g.nodes.size)
    (hlinks : ∀ link, link ∈ links ↔ link ∈ g.links ∨ link = ⟨c, p⟩) :
    Represents (store.tie c p) { g with links } := by
  have hkind : ∀ id, (store.tie c p).kind id = store.kind id := fun id =>
    congrArg Node.kind (toNode_tie c p)
  have hsize : (store.tie c p).nodes.size = store.nodes.size := by
    simp [StoredGraph.tie, StoredGraph.modify]
  rw [← h.size_eq] at hchild hparent
  exact { h with
    size_eq := hsize.trans h.size_eq
    node_eq := fun id => (toNode_tie c p).trans (h.node_eq id)
    find?_eq := fun key => by
      rw [find?_congr store (store.tie c p) rfl (fun id _ => by rw [hkind]), h.find?_eq]
      rfl
    specs_lt := by
      rw [hsize]
      exact h.specs_lt
    mem_children := fun other holder => by
      rw [children_tie, hlinks]
      split
      next heq => rw [NodeSet.mem_with, h.mem_children]; simp [heq.1]
      next hne => rw [h.mem_children]; grind
    mem_parents := fun other holder => by
      rw [parents_tie, hlinks]
      split
      next heq => rw [NodeSet.mem_with, h.mem_parents]; simp [heq.1]
      next hne => rw [h.mem_parents]; grind }

theorem addLink {c p : NodeId} (hchild : c < g.nodes.size)
    (hparent : p < g.nodes.size) :
    (store.addLink c p).map (·.1) = (g.addLink c p).map (·.1) ∧
      Represents (((store.addLink c p).toOption.map (·.2)).getD store)
        (((g.addLink c p).toOption.map (·.2)).getD g) := by
  have hparents : (store.parents c).contains p ↔ ⟨c, p⟩ ∈ g.links := by
    rw [← h.mem_parents, Std.TreeSet.mem_iff_contains]
  unfold StoredGraph.addLink FlowGraph.addLink
  by_cases hself : c = p
  · have hdescribe : store.describe c = g.describe c := by
      rw [StoredGraph.describe, h.kind_eq]
      rfl
    rw [if_pos hself, if_pos hself, hdescribe]
    exact ⟨rfl, h⟩
  · rw [if_neg hself, if_neg hself]
    by_cases hlink : ⟨c, p⟩ ∈ g.links
    · rw [if_pos (FlowGraph.any_link_iff.mpr hlink), hparents.mpr hlink]
      exact ⟨rfl, h.tie hchild hparent fun link => (or_iff_left_of_imp fun heq => heq ▸ hlink).symm⟩
    · rw [if_neg (mt FlowGraph.any_link_iff.mp hlink), Bool.eq_false_iff.mpr (mt hparents.mp hlink)]
      exact ⟨rfl, h.tie hchild hparent fun link => Array.mem_push⟩

theorem obtain (hop : kind.isOp = false) :
    (store.obtain kind).1 = (g.obtain kind).1 ∧
      Represents (store.obtain kind).2 (g.obtain kind).2 :=
  ⟨congrArg Prod.fst (h.share hop).1, (h.share hop).2⟩

/-- What is found depends on the nodes and the tables only. -/
theorem find?_same {new : StoredGraph} (hnodes : new.nodes = store.nodes)
    (htables : new.tables = store.tables) (key : NodeKey) : new.find? key = g.find? key := by
  have hkind : ∀ id, new.kind id = store.kind id := fun id => by
    rw [StoredGraph.kind, StoredGraph.node, hnodes]
    rfl
  rw [find?_congr store new htables (fun id _ => by rw [hkind]), h.find?_eq]

theorem makeVar (ty : Ty) :
    (store.makeVar ty).1 = (g.makeVar ty).1 ∧
      Represents (store.makeVar ty).2 (g.makeVar ty).2 := by
  have hcounted : Represents { store with made := store.made + 1 }
      { g with made := g.made + 1 } :=
    { h with
      find?_eq := h.find?_same rfl rfl
      made_eq := congrArg (· + 1) h.made_eq }
  unfold StoredGraph.makeVar FlowGraph.makeVar
  rw [h.made_eq] at hcounted ⊢
  exact hcounted.obtain rfl

theorem contextMenuNode (filler : MethodId) (menuParam view : NodeId) :
    (store.contextMenuNode filler menuParam view).1.1 =
      (g.contextMenuNode filler menuParam view).1.1 ∧
      Represents (store.contextMenuNode filler menuParam view).2
        (g.contextMenuNode filler menuParam view).2 := by
  have hop : (NodeKind.contextMenu filler menuParam []).isOp = false := rfl
  obtain ⟨hfound, hshare⟩ := h.share hop
  have hmenu := congrArg Prod.fst hfound
  have hcreated := congrArg Prod.snd hfound
  unfold StoredGraph.contextMenuNode FlowGraph.contextMenuNode
  refine ⟨hmenu, ?_⟩
  simp only [hmenu, hcreated]
  refine .modifyKind ?_ _ (FlowGraph.core_registerView view)
  split
  · exact (hshare.addEdge ..).2
  · exact hshare

theorem addSynthetic (handler : SyntheticHandler) :
    (store.addSynthetic handler).1.1 = (g.addSynthetic handler).1.1 ∧
      Represents (store.addSynthetic handler).2 (g.addSynthetic handler).2 := by
  have hpushed : Represents { store with synthetics := store.synthetics.push handler }
      { g with synthetics := g.synthetics.push handler } :=
    { h with
      find?_eq := h.find?_same rfl rfl
      synthetics_eq := congrArg (Array.push · handler) h.synthetics_eq }
  refine ⟨h.size_eq, ?_⟩
  have hkey : (NodeKind.syntheticListener store.synthetics.size handler.interface).key? = none := rfl
  have hadd := hpushed.add hkey rfl
  rw [h.synthetics_eq] at hadd
  unfold StoredGraph.addSynthetic
  rw [h.synthetics_eq]
  exact hadd

theorem bindHandler (op : NodeId) (handler : Handler) :
    Represents (store.bindHandler op handler).2 (g.bindHandler op handler).2 := by
  unfold StoredGraph.bindHandler FlowGraph.bindHandler
  rw [h.bindings_eq]
  split
  · exact h
  · exact { h with
      find?_eq := h.find?_same rfl rfl
      bindings_eq := rfl }

theorem markPrebound (op : NodeId) :
    Represents (store.markPrebound op) (g.markPrebound op) := by
  unfold StoredGraph.markPrebound FlowGraph.markPrebound
  rw [h.prebound_eq]
  split
  · exact h
  · exact { h with
      find?_eq := h.find?_same rfl rfl
      prebound_eq := rfl }

end Represents

end StoredGraph

/-- A request to a stored graph gives the same answer as to the flow graph that it represents, and
afterwards the one represents the other again. -/
theorem Request.represents_store {store : StoredGraph} {g : FlowGraph} {request : Request}
    (h : store.Represents g) (hfits : request.Fits g) :
    (request.store store).1 = (request.run g).1 ∧
      (request.store store).2.Represents (request.run g).2 := by
  have hgives : ∀ {found : NodeId × StoredGraph} {found' : NodeId × FlowGraph},
      found.1 = found'.1 ∧ found.2.Represents found'.2 →
        (gives found).1 = (gives found').1 ∧ (gives found).2.Represents (gives found').2 :=
    fun hfound => ⟨congrArg some hfound.1, hfound.2⟩
  cases request with
  | var | field | alloc | id | string | activity | tabSpec => exact hgives (h.obtain rfl)
  | makeVar ty => exact hgives (h.makeVar ty)
  | view | menuItem => exact hgives ⟨h.size_eq, h.add rfl rfl⟩
  | dialog owner site =>
    have hop : (NodeKind.dialog owner site true).isOp = false := rfl
    obtain ⟨hfound, hshare⟩ := h.share hop
    exact ⟨congrArg some (congrArg Prod.fst hfound), hshare⟩
  | optionsMenu owner =>
    have hop : (NodeKind.optionsMenu owner).isOp = false := rfl
    obtain ⟨hfound, hshare⟩ := h.share hop
    exact ⟨congrArg some (congrArg Prod.fst hfound), hshare⟩
  | contextMenu filler menuParam shown =>
    obtain ⟨hfound, hmenu⟩ := h.contextMenuNode filler menuParam shown
    exact ⟨congrArg some hfound, hmenu⟩
  | synthetic handler =>
    obtain ⟨hfound, hadded⟩ := h.addSynthetic handler
    exact ⟨congrArg some hfound, hadded⟩
  | op added => exact hgives (h.addOp added)
  | edge src dst site => exact ⟨rfl, (h.addEdge src dst site).2⟩
  | link c p =>
    exact ⟨rfl, (h.addLink (hfits c (by simp [nodes])) (hfits p (by simp [nodes]))).2⟩
  | setId n name =>
    exact ⟨rfl, h.modify n (fun _ => rfl) (fun _ => rfl) (fun _ => rfl) fun _ => rfl⟩
  | setCancelable dialog v => exact ⟨rfl, h.setCancelable dialog v⟩
  | bindHandler op handler => exact ⟨rfl, h.bindHandler op handler⟩
  | markPrebound op => exact ⟨rfl, h.markPrebound op⟩

end WidgetFlow
