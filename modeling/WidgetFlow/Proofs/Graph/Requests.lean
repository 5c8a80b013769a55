import Mathlib.Data.List.Nodup
import WidgetFlow.Proofs.Graph.WellFormed

/-!
# Requests to graphs

A graph is made by requests: for the node of a variable, for an edge, for a link and so on. This
file says what one request does.

To the nodes every request does the same: it shares the node of a kind, where a kind without a key
is always new, and changes details at most (`Request.run_nodes`). Edges and links are noted if they
are not there (`Request.run_notes`).
-/

namespace WidgetFlow

variable {c p : NodeId}

/-! ## Requests -/

/-- A request to a graph. -/
inductive Request where
  | var (var : Var) (ty : Option Ty)
  | makeVar (ty : Ty)
  | field (field : FieldRef)
  | alloc (ty : Ty) (site : StmtId) (role : AllocRole)
  | id (kind : IdKind) (v : ResId)
  | string (text : String)
  | view (owner : String)
  | menuItem (owner : String) (attrs : List (String × String))
  | activity (owner : String)
  | dialog (owner : String) (site : StmtId)
  | optionsMenu (activity : String)
  | contextMenu (filler : MethodId) (menuParam view : NodeId)
  | tabSpec (owner : String) (site : StmtId)
  | synthetic (handler : SyntheticHandler)
  | op (op : Op)
  | edge (src dst : NodeId) (site : Option StmtId)
  | link (c p : NodeId)
  | setId (n idNode : NodeId)
  | setCancelable (dialog : NodeId) (v : Bool)
  | bindHandler (op : NodeId) (handler : Handler)
  | markPrebound (op : NodeId)
  deriving DecidableEq, Repr

namespace Request

open FlowGraph

/-- A request for a node gives it. -/
def gives {γ : Type} (found : NodeId × γ) : Option NodeId × γ := (some found.1, found.2)

/-- A request for a node that may be new gives it. -/
def shares {α γ : Type} (found : (NodeId × α) × γ) : Option NodeId × γ := (some found.1.1, found.2)

/-- The node that a request gives, if it asks for one, and the graph after it. A link that is
refused leaves the graph as it is. -/
def run (g : FlowGraph) : Request → Option NodeId × FlowGraph
  | .var name ty => gives (varNode name ty g)
  | .makeVar ty => gives (FlowGraph.makeVar ty g)
  | .field ref => gives (fieldNode ref g)
  | .alloc ty site role => gives (allocNode ty site role g)
  | .id kind v => gives (idNode kind v g)
  | .string text => gives (stringNode text g)
  | .view owner => gives (viewNode owner g)
  | .menuItem owner attrs => gives (menuItemNode owner attrs g)
  | .activity owner => gives (activityNode owner g)
  | .dialog owner site => shares (dialogNode owner site g)
  | .optionsMenu owner => shares (optionsMenuNode owner g)
  | .contextMenu filler menuParam shown => shares (contextMenuNode filler menuParam shown g)
  | .tabSpec owner site => gives (tabSpecNode owner site g)
  | .synthetic handler => shares (addSynthetic handler g)
  | .op added => gives (addOp added g)
  | .edge src dst site => (none, (addEdge src dst site g).2)
  | .link c p => (none, ((addLink c p g).toOption.map (·.2)).getD g)
  | .setId n name => (none, FlowGraph.setId n name g)
  | .setCancelable n v => (none, FlowGraph.setCancelable n v g)
  | .bindHandler n handler => (none, (FlowGraph.bindHandler n handler g).2)
  | .markPrebound n => (none, FlowGraph.markPrebound n g)

def kind? (g : FlowGraph) : Request → Option NodeKind
  | .var name ty => some (.var name ty)
  | .makeVar ty => some (.var (.made (g.made + 1)) (some ty))
  | .field ref => some (.field ref)
  | .alloc ty site role => some (.alloc ty site role)
  | .id kind v => some (.id kind v)
  | .string text => some (.string text)
  | .view owner => some (.view owner)
  | .menuItem owner attrs => some (.menuItem owner attrs)
  | .activity owner => some (.activity owner)
  | .dialog owner site => some (.dialog owner site true)
  | .optionsMenu owner => some (.optionsMenu owner)
  | .contextMenu filler menuParam _ => some (.contextMenu filler menuParam [])
  | .tabSpec owner site => some (.tabSpec owner site)
  | .synthetic handler => some (.syntheticListener g.synthetics.size handler.interface)
  | .op added => some (.op added)
  | _ => none

/-- The pairs of nodes that a request asks to connect by an edge. Beside a plain edge these are
those between an operation and its slots, and the one from a new context menu to the parameter
through which it is filled. -/
def pairs (g : FlowGraph) : Request → List (NodeId × NodeId)
  | .edge src dst _ => [(src, dst)]
  | .op added =>
    added.receiver.toList.map (·, g.nodes.size) ++
      added.parameter.toList.map (·, g.nodes.size) ++
      added.result.toList.map (g.nodes.size, ·)
  | .contextMenu _ menuParam _ =>
    if (g.find? (.contextMenu menuParam)).isNone then [(g.nodes.size, menuParam)] else []
  | _ => []

def nodes : Request → List NodeId
  | .contextMenu _ menuParam shown => [menuParam, shown]
  | .op added => added.receiver.toList ++ added.parameter.toList ++ added.result.toList
  | .edge src dst _ => [src, dst]
  | .link c p => [c, p]
  | .setId n name => [n, name]
  | .setCancelable n _ => [n]
  | .bindHandler n _ => [n]
  | .markPrebound n => [n]
  | _ => []

/-- Whether the nodes that a request names are there. -/
def Fits (g : FlowGraph) (request : Request) : Prop :=
  ∀ n ∈ request.nodes, n < g.nodes.size

instance (g : FlowGraph) (request : Request) : Decidable (request.Fits g) :=
  inferInstanceAs (Decidable (∀ n ∈ request.nodes, n < g.nodes.size))

end Request

/-! ## What a request does to the nodes -/

namespace FlowGraph

variable {g old new : FlowGraph} {id : NodeId} {key : NodeKey}

/-- Two graphs have the same nodes, up to details that may change. -/
structure SameNodes (old new : FlowGraph) : Prop where
  size_eq : new.nodes.size = old.nodes.size
  core_eq : ∀ id, (new.kind id).core = (old.kind id).core

namespace SameNodes

theorem refl (g : FlowGraph) : SameNodes g g := ⟨rfl, fun _ => rfl⟩

theorem trans {middle : FlowGraph} (h : SameNodes old middle) (h' : SameNodes middle new) :
    SameNodes old new :=
  ⟨h'.size_eq.trans h.size_eq, fun id => (h'.core_eq id).trans (h.core_eq id)⟩

theorem keeps {α : Type} (h : SameNodes old new) (f : NodeKind → α)
    (hf : ∀ kind, f kind.core = f kind) (id : NodeId) : f (new.kind id) = f (old.kind id) :=
  NodeKind.eq_of_core_eq f hf (h.core_eq id)

theorem find?_eq (h : SameNodes old new) (key : NodeKey) : new.find? key = old.find? key := by
  ext id
  simp only [find?_eq_some_iff, h.size_eq, h.keeps NodeKind.key? NodeKind.key?_core]

theorem ops_eq (h : SameNodes old new) : new.ops = old.ops := by
  unfold ops nodeIds
  rw [h.size_eq]
  exact List.filter_congr fun id _ => h.keeps NodeKind.isOp NodeKind.isOp_core id

theorem of_nodes_eq (h : new.nodes = old.nodes) : SameNodes old new :=
  ⟨by rw [h], fun id => by rw [kind, node, h]; rfl⟩

theorem addEdge (src dst : NodeId) (site : Option StmtId) :
    SameNodes g (g.addEdge src dst site).2 := by
  rw [addEdge_eq]
  exact .of_nodes_eq rfl

theorem modifyKind {change : NodeKind → NodeKind} (n : NodeId)
    (hchange : ∀ kind, (change kind).core = kind.core) :
    SameNodes g (g.modifyKind n change) := by
  refine ⟨by simp [FlowGraph.modifyKind], fun id => ?_⟩
  rw [kind, FlowGraph.modifyKind, node_modify]
  split
  · exact hchange _
  · rfl

theorem setCancelable (dialog : NodeId) (v : Bool) :
    SameNodes g (g.setCancelable dialog v) :=
  .modifyKind dialog fun kind => by cases kind <;> rfl

theorem addLink {added : Bool}
    (h : g.addLink c p = .ok (added, new)) : SameNodes g new := by
  rcases addLink_ok h with ⟨_, rfl, _⟩ | ⟨_, rfl, _⟩ <;> exact .of_nodes_eq rfl

/-- The shared node of a kind depends on the nodes alone. -/
theorem share (hnodes : new.nodes = old.nodes) (kind : NodeKind) :
    (share kind new).1 = (share kind old).1 ∧
      SameNodes (FlowGraph.share kind old).2 (FlowGraph.share kind new).2 := by
  have hfind : new.find? = old.find? := by
    funext key
    rw [find?, hnodes]
    rfl
  unfold FlowGraph.share
  rw [hfind]
  cases kind.key?.bind old.find? with
  | some id => exact ⟨rfl, .of_nodes_eq hnodes⟩
  | none => exact ⟨by rw [add_fst, add_fst, hnodes], .of_nodes_eq (by rw [add, add, hnodes])⟩

end SameNodes

theorem share_of_find?_eq_none {kind : NodeKind} (h : kind.key?.bind g.find? = none) :
    share kind g = ((g.nodes.size, true), (add kind g).2) := by
  unfold share
  rw [h]
  rfl

end FlowGraph

namespace Request

open FlowGraph

variable {g : FlowGraph} {request : Request} {kind : NodeKind}

/-- What is asked for shows no details that may change. -/
theorem core_kind? (h : request.kind? g = some kind) : kind.core = kind := by
  cases request <;> cases h <;> rfl

/-- A request for a node gives the shared node of its kind and changes no other. -/
theorem run_nodes (h : request.kind? g = some kind) :
    (request.run g).1 = some (share kind g).1.1 ∧
      SameNodes (share kind g).2 (request.run g).2 := by
  cases request <;> cases h
  case makeVar ty =>
    have hnodes : ({ g with made := g.made + 1 } : FlowGraph).nodes = g.nodes := rfl
    obtain ⟨hnode, hsame⟩ := SameNodes.share hnodes (.var (.made (g.made + 1)) (some ty))
    exact ⟨congrArg some (congrArg Prod.fst hnode), hsame⟩
  case view | menuItem => exact ⟨rfl, .refl _⟩
  case synthetic => exact ⟨rfl, .of_nodes_eq rfl⟩
  case op added =>
    have hadds := g.addsOp_addOp added
    rw [share_of_find?_eq_none rfl]
    refine ⟨rfl, by rw [add_size]; exact hadds.size_eq, fun id => ?_⟩
    rw [kind_add]
    exact congrArg NodeKind.core (hadds.kind_eq id)
  case contextMenu filler menuParam shown =>
    refine ⟨rfl, ?_⟩
    simp only [run, shares, contextMenuNode]
    refine SameNodes.trans ?_ (.modifyKind _ (core_registerView shown))
    split
    · exact .addEdge ..
    · exact .refl _
  all_goals exact ⟨rfl, .refl _⟩

theorem run_nodes_of_none (h : request.kind? g = none) :
    (request.run g).1 = none ∧ SameNodes g (request.run g).2 := by
  cases request <;> cases h
  case edge => exact ⟨rfl, .addEdge ..⟩
  case link c p =>
    refine ⟨rfl, ?_⟩
    simp only [run]
    cases hadd : g.addLink c p with
    | error => exact .refl g
    | ok found => exact .addLink hadd
  case setId =>
    exact ⟨rfl, by simp [run, FlowGraph.setId], fun id => congrArg NodeKind.core (kind_setId ..)⟩
  case setCancelable => exact ⟨rfl, .setCancelable ..⟩
  case bindHandler =>
    refine ⟨rfl, ?_⟩
    simp only [run, FlowGraph.bindHandler]
    split <;> exact .of_nodes_eq rfl
  case markPrebound =>
    refine ⟨rfl, ?_⟩
    simp only [run, FlowGraph.markPrebound]
    split <;> exact .of_nodes_eq rfl

end Request

/-! ## What a request does to edges and links -/

section Note

variable {α : Type} [DecidableEq α] {noted elements : List α} {e : α}

def note (noted : List α) (e : α) : List α :=
  if e ∈ noted then noted else noted ++ [e]

theorem mem_note {other : α} : other ∈ note noted e ↔ other ∈ noted ∨ other = e := by
  unfold note
  split
  next hmem => exact (or_iff_left_of_imp fun heq => heq ▸ hmem).symm
  next => simp

theorem nodup_note (h : noted.Nodup) : (note noted e).Nodup := by
  unfold note
  split
  next => exact h
  next hmem => exact List.concat_eq_append ▸ h.concat hmem

theorem mem_foldl_note :
    e ∈ elements.foldl note noted ↔ e ∈ noted ∨ e ∈ elements := by
  induction elements generalizing noted with
  | nil => simp
  | cons head rest ih => rw [List.foldl_cons, ih, mem_note, List.mem_cons, or_assoc]

theorem nodup_foldl_note (h : noted.Nodup) : (elements.foldl note noted).Nodup := by
  induction elements generalizing noted with
  | nil => exact h
  | cons head rest ih => exact ih (nodup_note h)

end Note

namespace FlowGraph

variable {g : FlowGraph} {src dst : NodeId} {found : Bool × FlowGraph}

/-- The ends of the edges, in order of creation. -/
def edgeEnds (g : FlowGraph) : List (NodeId × NodeId) :=
  g.edges.toList.map fun edge => (edge.source, edge.target)

theorem edgeEnds_congr {new : FlowGraph} (h : new.edges = g.edges) :
    new.edgeEnds = g.edgeEnds := by
  rw [edgeEnds, h]
  rfl

theorem mem_edgeEnds : (src, dst) ∈ g.edgeEnds ↔ g.hasEdge src dst := by
  simp [hasEdge_iff, edgeEnds]

theorem edgeEnds_addEdge (src dst : NodeId) (site : Option StmtId) :
    (g.addEdge src dst site).2.edgeEnds = note g.edgeEnds (src, dst) := by
  unfold addEdge note
  simp only [mem_edgeEnds]
  split
  · rfl
  · simp [edgeEnds]

theorem edgeEnds_addEdge? (src dst : Option NodeId) (site : Option StmtId) :
    (g.addEdge? src dst site).edgeEnds =
      (src.toList.flatMap fun src => dst.toList.map (src, ·)).foldl note
        g.edgeEnds := by
  cases src with
  | none => rfl
  | some src =>
    cases dst with
    | none => rfl
    | some dst => exact edgeEnds_addEdge src dst site

@[simp] theorem share_links (kind : NodeKind) : (share kind g).2.links = g.links := by
  rcases g.share_cases kind with ⟨_, _, _, _, h⟩ | h <;> rw [h]
  rfl

theorem addLink_of_ne (h : c ≠ p) : ∃ found, g.addLink c p = .ok found := by
  rw [addLink, if_neg h]
  split <;> exact ⟨_, rfl⟩

theorem links_addLink (h : g.addLink c p = .ok found) :
    found.2.links.toList = note g.links.toList ⟨c, p⟩ := by
  unfold note
  rcases addLink_ok h with ⟨_, hnew, hmem⟩ | ⟨_, hnew, hmem⟩
  · rw [hnew, if_pos (Array.mem_toList_iff.mpr hmem)]
  · rw [hnew, if_neg (mt Array.mem_toList_iff.mp hmem), Array.toList_push]

end FlowGraph

namespace Request

open FlowGraph

variable {g : FlowGraph}

/-- The links that a request asks for. Nothing is put into itself. -/
def links : Request → List Link
  | .link c p => if c = p then [] else [⟨c, p⟩]
  | _ => []

theorem mem_links {link : Link} {request : Request} :
    link ∈ request.links ↔
      link.child ≠ link.parent ∧ request = .link link.child link.parent := by
  cases request <;> simp only [links, List.not_mem_nil, reduceCtorEq, and_false]
  case link c p =>
    obtain ⟨found, holder⟩ := link
    split <;> grind

/-- A request notes the pairs that it asks to connect, and the links that it asks for. -/
theorem run_notes (request : Request) :
    (request.run g).2.edgeEnds = (request.pairs g).foldl note g.edgeEnds ∧
      (request.run g).2.links.toList = request.links.foldl note g.links.toList := by
  cases request
  case op added =>
    refine ⟨?_, congrArg Array.toList (g.addsOp_addOp added).links_eq⟩
    simp only [run, gives, addOp, edgeEnds_addEdge?, pairs, List.foldl_append]
    cases added.receiver <;> cases added.parameter <;> cases added.result <;> rfl
  case contextMenu filler menuParam shown =>
    simp only [run, shares, contextMenuNode, pairs, links]
    cases hfind : g.find? (.contextMenu menuParam) with
    | some menu => simp [share, NodeKind.key?, hfind, modifyKind, edgeEnds]
    | none =>
      have hnew : (NodeKind.contextMenu filler menuParam []).key?.bind g.find? = none := hfind
      rw [share_of_find?_eq_none hnew]
      exact ⟨edgeEnds_addEdge .., congrArg Array.toList (links_addEdge ..)⟩
  case edge => exact ⟨edgeEnds_addEdge .., congrArg Array.toList (links_addEdge ..)⟩
  case link c p =>
    simp only [run, links]
    split
    next hself =>
      rw [addLink, if_pos hself]
      exact ⟨rfl, rfl⟩
    next hne =>
      obtain ⟨found, hadd⟩ := g.addLink_of_ne hne
      rw [hadd]
      have hedges : found.2.edges = g.edges := by
        rcases addLink_ok hadd with ⟨_, hnew, _⟩ | ⟨_, hnew, _⟩ <;> rw [hnew]
      exact ⟨edgeEnds_congr hedges, links_addLink hadd⟩
  case bindHandler =>
    simp only [run, FlowGraph.bindHandler]
    split <;> exact ⟨rfl, rfl⟩
  case markPrebound =>
    simp only [run, FlowGraph.markPrebound]
    split <;> exact ⟨rfl, rfl⟩
  case view | menuItem | synthetic | setId | setCancelable => exact ⟨rfl, rfl⟩
  all_goals exact ⟨edgeEnds_congr (share_edges _), congrArg Array.toList (share_links _)⟩

end Request

/-! ## What is kept -/

namespace FlowGraph

variable {g old new : FlowGraph} {id : NodeId} {key : NodeKey}

def Keyed (g : FlowGraph) : Prop :=
  ∀ id < g.nodes.size, ∀ key, (g.kind id).key? = some key → g.find? key = some id

def core? (g : FlowGraph) (key : NodeKey) : Option NodeKind :=
  (g.find? key).map fun id => (g.kind id).core

theorem SameNodes.keyed (hsame : SameNodes old new) (h : old.Keyed) : new.Keyed := by
  intro id hid key hkey
  rw [hsame.size_eq] at hid
  rw [hsame.keeps NodeKind.key? NodeKind.key?_core] at hkey
  exact (hsame.find?_eq key).trans (h id hid key hkey)

theorem SameNodes.core?_eq (hsame : SameNodes old new) (key : NodeKey) :
    new.core? key = old.core? key := by
  simp only [core?, hsame.find?_eq, hsame.core_eq]

theorem Keyed.share (h : g.Keyed) (kind : NodeKind) : (share kind g).2.Keyed := by
  cases hfind : kind.key?.bind g.find? with
  | some found =>
    unfold FlowGraph.share
    rw [hfind]
    exact h
  | none =>
    rw [share_of_find?_eq_none hfind]
    intro id hid key hkey
    rw [add_size] at hid
    rw [kind_add] at hkey
    split at hkey
    next hlast =>
      have hnew := g.find?_share kind hkey
      rwa [share_of_find?_eq_none hfind, ← hlast] at hnew
    next hlast =>
      have hsize := Nat.lt_of_le_of_ne (Nat.le_of_lt_succ hid) hlast
      exact (extends_add kind).find?_eq (h id hsize key hkey)

theorem core?_share (kind : NodeKind) (key : NodeKey) :
    (share kind g).2.core? key =
      (g.core? key).or (if kind.key? = some key then some kind.core else none) := by
  have hg := g.extends_share kind
  cases hold : g.find? key with
  | some id =>
    simp only [core?, hg.find?_eq hold, hold, Option.map_some, Option.some_or,
      hg.core_eq id (find?_some hold).1]
  | none =>
    simp only [core?, hold, Option.map_none, Option.none_or]
    split
    next hkey =>
      have hnew : kind.key?.bind g.find? = none := by rw [hkey]; exact hold
      rw [g.find?_share kind hkey, share_of_find?_eq_none hnew, Option.map_some, kind_add,
        if_pos rfl]
    next hkey =>
      rw [Option.map_eq_none_iff, Option.eq_none_iff_forall_ne_some]
      intro id hid
      rcases g.share_cases kind with ⟨_, _, _, _, h⟩ | h <;> rw [h] at hid
      · simp [hold] at hid
      · obtain ⟨hsize, hfound⟩ := find?_some hid
        rw [kind_add] at hfound
        rw [add_size] at hsize
        split at hfound
        next => exact hkey hfound
        next hlast =>
          have hsize := Nat.lt_of_le_of_ne (Nat.le_of_lt_succ hsize) hlast
          exact key?_ne_of_find?_eq_none hold hsize hfound

theorem ops_add (kind : NodeKind) :
    (add kind g).2.ops = g.ops ++ if kind.isOp then [g.nodes.size] else [] := by
  unfold ops nodeIds
  rw [add_size, List.range_succ, List.filter_append]
  congr 1
  · refine List.filter_congr fun id hid => ?_
    rw [isOp, kind_add, if_neg (Nat.ne_of_lt (List.mem_range.mp hid))]
    rfl
  · simp [isOp, kind_add, List.filter_cons]

theorem ops_share (kind : NodeKind) :
    (share kind g).2.ops =
      g.ops ++ if kind.isOp then [(share kind g).1.1] else [] := by
  rcases g.share_cases kind with ⟨id, key, hkey, _, h⟩ | h <;> rw [h]
  · have hop : kind.isOp = false := by
      cases kind <;> simp_all [NodeKind.key?, NodeKind.isOp, NodeKind.op?]
    simp [hop]
  · exact ops_add kind

end FlowGraph

/-- A request with the graph that it met. -/
structure Turn where
  before : FlowGraph
  request : Request

namespace Turn

def kind? (turn : Turn) : Option NodeKind := turn.request.kind? turn.before

def key? (turn : Turn) : Option NodeKey := turn.kind?.bind NodeKind.key?

def node? (turn : Turn) : Option NodeId := (turn.request.run turn.before).1

def op? (turn : Turn) : Option NodeId := if turn.kind?.any NodeKind.isOp then turn.node? else none

/-- The pairs of nodes that were to be connected by an edge. -/
def pairs (turn : Turn) : List (NodeId × NodeId) := turn.request.pairs turn.before

theorem exists_node? {turn : Turn} {key : NodeKey} (h : turn.key? = some key) :
    ∃ id, turn.node? = some id := by
  obtain ⟨kind, hkind, _⟩ := Option.bind_eq_some_iff.mp h
  exact ⟨_, (Request.run_nodes hkind).1⟩

end Turn

namespace Request

open FlowGraph

variable {g : FlowGraph} {request : Request} {key : NodeKey} {id : NodeId}

theorem keyed_run (h : g.Keyed) : (request.run g).2.Keyed := by
  cases hkind : request.kind? g with
  | none => exact (run_nodes_of_none hkind).2.keyed h
  | some kind => exact (run_nodes hkind).2.keyed (h.share kind)

theorem core?_run :
    (request.run g).2.core? key =
      (g.core? key).or ((request.kind? g).filter fun kind => kind.key? = some key) := by
  cases hkind : request.kind? g with
  | none => rw [(run_nodes_of_none hkind).2.core?_eq, Option.filter_none, Option.or_none]
  | some kind =>
    rw [(run_nodes hkind).2.core?_eq, core?_share, core_kind? hkind]
    simp [Option.filter]

theorem find?_run (h : g.find? key = some id) : (request.run g).2.find? key = some id := by
  cases hkind : request.kind? g with
  | none => rw [(run_nodes_of_none hkind).2.find?_eq, h]
  | some kind => rw [(run_nodes hkind).2.find?_eq, (g.extends_share kind).find?_eq h]

theorem size_le_run : g.nodes.size ≤ (request.run g).2.nodes.size := by
  cases hkind : request.kind? g with
  | none => exact Nat.le_of_eq (run_nodes_of_none hkind).2.size_eq.symm
  | some kind =>
    rw [(run_nodes hkind).2.size_eq]
    exact (g.extends_share kind).size_le

theorem ops_run : (request.run g).2.ops = g.ops ++ (Turn.op? ⟨g, request⟩).toList := by
  cases hkind : request.kind? g with
  | none => simp [(run_nodes_of_none hkind).2.ops_eq, Turn.op?, Turn.kind?, hkind]
  | some kind =>
    rw [(run_nodes hkind).2.ops_eq, ops_share, Turn.op?, Turn.kind?, hkind, Turn.node?,
      (run_nodes hkind).1, Option.any_some]
    split <;> rfl

/-- A request that is asked of the right graph gives the node of its key. -/
theorem node?_eq (hkey : Turn.key? ⟨g, request⟩ = some key) :
    Turn.node? ⟨g, request⟩ = (request.run g).2.find? key := by
  obtain ⟨kind, hkind, hkey⟩ := Option.bind_eq_some_iff.mp hkey
  rw [(run_nodes hkind).2.find?_eq, g.find?_share kind hkey]
  exact (run_nodes hkind).1

theorem pairs_lt (hfits : request.Fits g) {pair : NodeId × NodeId}
    (h : pair ∈ request.pairs g) :
    pair.1 < (request.run g).2.nodes.size ∧ pair.2 < (request.run g).2.nodes.size := by
  have hold : ∀ n ∈ request.nodes, n < (request.run g).2.nodes.size :=
    fun n hnode => Nat.lt_of_lt_of_le (hfits n hnode) size_le_run
  cases request <;> simp only [pairs, List.not_mem_nil] at h
  case edge src dst site =>
    rw [List.mem_singleton.mp h]
    exact ⟨hold src (by simp [nodes]), hold dst (by simp [nodes])⟩
  case op added =>
    have hnew : g.nodes.size < (run g (.op added)).2.nodes.size := by
      have hsize := (g.addsOp_addOp added).size_eq
      simp only [run, gives]
      omega
    simp only [List.mem_append, List.mem_map, Option.mem_toList] at h
    rcases h with (⟨n, hnode, rfl⟩ | ⟨n, hnode, rfl⟩) | ⟨n, hnode, rfl⟩
    · exact ⟨hold n (by simp [nodes, hnode]), hnew⟩
    · exact ⟨hold n (by simp [nodes, hnode]), hnew⟩
    · exact ⟨hnew, hold n (by simp [nodes, hnode])⟩
  case contextMenu filler menuParam shown =>
    split at h
    next hnone =>
      have hfind : (NodeKind.contextMenu filler menuParam []).key?.bind g.find? = none :=
        Option.isNone_iff_eq_none.mp hnone
      rw [List.mem_singleton.mp h]
      refine ⟨?_, hold menuParam (by simp [nodes])⟩
      rw [(run_nodes rfl).2.size_eq, share_of_find?_eq_none hfind, add_size]
      exact Nat.lt_succ_self _
    next => simp at h

end Request

end WidgetFlow
