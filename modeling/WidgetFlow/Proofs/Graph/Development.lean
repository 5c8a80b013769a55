import Mathlib.Order.Defs.Unbundled
import WidgetFlow.Proofs.Graph.WellFormed
import WidgetFlow.Solution.Paths

/-!
# Graphs while they are solved

Solving a graph adds neither operations nor windows nor identifiers to it: `FlowGraph.Develops` says
so. There are
two special ways to develop. While one inflated node is wired, edges come only from it and from new
nodes, and no other view appears (`FlowGraph.Sows`). While operations are resolved, no objects
appear at all, and what has got an identifier keeps it (`FlowGraph.Enriches`).
-/

namespace WidgetFlow

variable {kind : NodeKind}

def NodeKind.isContextMenu : NodeKind → Bool
  | .contextMenu _ _ _ => true
  | _ => false

theorem NodeKind.isShown_core (kind : NodeKind) : kind.core.isShown = kind.isShown := by
  cases kind <;> rfl

theorem NodeKind.isContextMenu_core (kind : NodeKind) :
    kind.core.isContextMenu = kind.isContextMenu := by
  cases kind <;> rfl

theorem NodeKind.isMenu_core (kind : NodeKind) : kind.core.isMenu = kind.isMenu := by
  cases kind <;> rfl

theorem NodeKind.isMenu_of_isContextMenu (h : kind.isContextMenu) : kind.isMenu := by
  cases kind <;> simp_all [NodeKind.isContextMenu, NodeKind.isMenu]

namespace FlowGraph

variable {g old middle new : FlowGraph} {id c p n : NodeId} {added : Bool}

/-! ## New nodes -/

section Fresh

variable {α : Type} {f : NodeKind → α} {v : α}

/-- Numbers without a node show unnamed variables. -/
theorem fresh_of_size_le (hdefault : f (.var default none) = v)
    (hsize : new.nodes.size ≤ old.nodes.size) (hid : old.nodes.size ≤ id) :
    f (new.kind id) = v := by
  rw [kind_of_size_le (Nat.le_trans hsize hid), hdefault]

/-- What the new nodes of a graph have, its new nodes after more growth have as well. -/
theorem fresh_trans (hf : ∀ kind, f kind.core = f kind) (hg : Extends middle new)
    (h : ∀ id, old.nodes.size ≤ id → f (middle.kind id) = v)
    (h' : ∀ id, middle.nodes.size ≤ id → f (new.kind id) = v) (hid : old.nodes.size ≤ id) :
    f (new.kind id) = v := by
  by_cases hmiddle : id < middle.nodes.size
  · exact (hg.keeps f hf hmiddle).trans (h id hid)
  · exact h' id (Nat.not_lt.mp hmiddle)

theorem fresh_add (hdefault : f (.var default none) = v) (hkind : f kind = v)
    (hid : g.nodes.size ≤ id) : f ((add kind g).2.kind id) = v := by
  rw [kind_add]
  split
  · exact hkind
  · rw [kind_of_size_le hid, hdefault]

end Fresh

/-! ## Development -/

/-- One graph comes from the other without new operations, new windows, new identifiers and new
registrations that have all their handlers. -/
structure Develops (old new : FlowGraph) : Prop extends Extends old new where
  fresh_op : ∀ id, old.nodes.size ≤ id → new.op? id = none
  fresh_window : ∀ id, old.nodes.size ≤ id → (new.kind id).isWindow = false
  fresh_id : ∀ id, old.nodes.size ≤ id → (new.kind id).idValue? = none
  prebound_eq : new.prebound = old.prebound

namespace Develops

theorem of_size_eq (hg : Extends old new) (hsize : new.nodes.size = old.nodes.size)
    (hprebound : new.prebound = old.prebound) : Develops old new where
  toExtends := hg
  fresh_op _ hid := fresh_of_size_le (f := NodeKind.op?) rfl (Nat.le_of_eq hsize) hid
  fresh_window _ hid := fresh_of_size_le rfl (Nat.le_of_eq hsize) hid
  fresh_id _ hid := fresh_of_size_le rfl (Nat.le_of_eq hsize) hid
  prebound_eq := hprebound

instance : IsPreorder FlowGraph Develops where
  refl g := of_size_eq (.refl g) rfl rfl
  trans _ _ _ h h' := {
    toExtends := h.toExtends.trans h'.toExtends
    fresh_op := fun _ => fresh_trans NodeKind.op?_core h'.toExtends h.fresh_op h'.fresh_op
    fresh_window := fun _ =>
      fresh_trans NodeKind.isWindow_core h'.toExtends h.fresh_window h'.fresh_window
    fresh_id := fun _ => fresh_trans NodeKind.idValue?_core h'.toExtends h.fresh_id h'.fresh_id
    prebound_eq := h'.prebound_eq.trans h.prebound_eq }

theorem op?_eq (h : Develops old new) (id : NodeId) : new.op? id = old.op? id := by
  by_cases hid : id < old.nodes.size
  · exact h.toExtends.op?_eq hid
  · rw [h.fresh_op id (Nat.not_lt.mp hid), op?, kind_of_size_le (Nat.not_lt.mp hid)]
    rfl

theorem isOp_eq (h : Develops old new) (id : NodeId) : new.isOp id = old.isOp id :=
  congrArg Option.isSome (h.op?_eq id)

theorem isWindow_eq (h : Develops old new) (id : NodeId) :
    (new.kind id).isWindow = (old.kind id).isWindow := by
  by_cases hid : id < old.nodes.size
  · exact h.keeps NodeKind.isWindow NodeKind.isWindow_core hid
  · rw [h.fresh_window id (Nat.not_lt.mp hid), kind_of_size_le (Nat.not_lt.mp hid)]
    rfl

theorem idValue?_eq (h : Develops old new) (id : NodeId) :
    (new.kind id).idValue? = (old.kind id).idValue? := by
  by_cases hid : id < old.nodes.size
  · exact h.keeps NodeKind.idValue? NodeKind.idValue?_core hid
  · rw [h.fresh_id id (Nat.not_lt.mp hid), kind_of_size_le (Nat.not_lt.mp hid)]
    rfl

end Develops

/-- The nodes of identifiers are found as before. -/
theorem Develops.find?_id (h : Develops old new) (kind : IdKind) (v : ResId) :
    new.find? (.id kind v) = old.find? (.id kind v) := by
  have hnew : ∀ id, (new.kind id).key? = some (.id kind v) → id < old.nodes.size := by
    intro id hkey
    by_contra hid
    have hfresh := h.fresh_id id (Nat.not_lt.mp hid)
    cases hkind : new.kind id <;> simp_all [NodeKind.key?, NodeKind.idValue?]
  cases hfind : new.find? (.id kind v) with
  | none =>
    cases hold : old.find? (.id kind v) with
    | none => rfl
    | some id => exact hfind.symm.trans (h.find?_eq hold)
  | some id => exact (h.find?_eq_of_lt hfind (hnew id (find?_some hfind).2)).symm

theorem develops_add (hop : kind.op? = none) (hwindow : kind.isWindow = false)
    (hid : kind.idValue? = none) : Develops g (add kind g).2 where
  toExtends := extends_add kind
  fresh_op _ := fresh_add (f := NodeKind.op?) rfl hop
  fresh_window _ := fresh_add rfl hwindow
  fresh_id _ := fresh_add rfl hid
  prebound_eq := rfl

theorem develops_add_object (hobject : kind.isObject)
    (hwindow : kind.isWindow = false) : Develops g (add kind g).2 := by
  have hop : kind.op? = none := by
    cases kind <;> simp_all [NodeKind.isObject, NodeKind.op?]
  have hid : kind.idValue? = none := by
    cases kind <;> simp_all [NodeKind.isObject, NodeKind.idValue?]
  exact develops_add hop hwindow hid

/-- Sharing a node that is neither an operation nor a window nor an identifier. -/
theorem develops_share (hop : kind.op? = none) (hwindow : kind.isWindow = false)
    (hid : kind.idValue? = none) : Develops g (share kind g).2 := by
  rcases g.share_cases kind with ⟨_, _, _, _, h⟩ | h <;> rw [h]
  · exact refl_of Develops g
  · exact develops_add hop hwindow hid

theorem develops_addEdge (src dst : NodeId) (site : Option StmtId) :
    Develops g (addEdge src dst site g).2 := by
  refine .of_size_eq (extends_addEdge ..) ?_ ?_ <;> rw [addEdge_eq]

theorem develops_modifyKind {change : NodeKind → NodeKind} (n : NodeId)
    (hchange : ∀ kind, (change kind).core = kind.core) :
    Develops g (modifyKind n change g) :=
  .of_size_eq (grafts_modifyKind n hchange).toExtends (by simp [modifyKind]) rfl

theorem develops_setId (n idNode : NodeId) : Develops g (setId n idNode g) :=
  .of_size_eq (grafts_setId n idNode).toExtends (by simp [setId]) rfl

theorem develops_addLink (h : g.addLink c p = .ok (added, new)) :
    Develops g new := by
  refine .of_size_eq (extends_addLink h) ?_ ?_ <;>
    rcases addLink_ok h with ⟨_, rfl, _⟩ | ⟨_, rfl, _⟩ <;> rfl

/-- One graph comes from the other without new nodes, new edges and new handlers. -/
structure Steady (old new : FlowGraph) : Prop extends Develops old new where
  size_eq : new.nodes.size = old.nodes.size
  edges_eq : new.edges = old.edges
  bindings_eq : new.bindings = old.bindings

instance : IsPreorder FlowGraph Steady where
  refl g := ⟨refl_of Develops g, rfl, rfl, rfl⟩
  trans _ _ _ h h' :=
    ⟨trans_of Develops h.toDevelops h'.toDevelops, h'.size_eq.trans h.size_eq,
      h'.edges_eq.trans h.edges_eq, h'.bindings_eq.trans h.bindings_eq⟩

theorem steady_setId (n idNode : NodeId) : Steady g (setId n idNode g) :=
  ⟨develops_setId n idNode, by simp [setId], rfl, rfl⟩

theorem steady_addLink (h : g.addLink c p = .ok (added, new)) : Steady g new := by
  refine ⟨develops_addLink h, ?_, ?_, ?_⟩ <;>
    rcases addLink_ok h with ⟨_, rfl, _⟩ | ⟨_, rfl, _⟩ <;> rfl

/-! ## Names -/

theorem idOf?_add (kind : NodeKind) (id : NodeId) :
    (add kind g).2.idOf? id = g.idOf? id := by
  rw [idOf?, add, node_push]
  split
  next hid =>
    rw [idOf?, hid, node_of_size_le (Nat.le_refl _)]
    rfl
  next => rfl

theorem idOf?_share (kind : NodeKind) (id : NodeId) :
    (share kind g).2.idOf? id = g.idOf? id := by
  rcases g.share_cases kind with ⟨_, _, _, _, h⟩ | h <;> rw [h]
  exact idOf?_add kind id

theorem idOf?_addEdge (src dst : NodeId) (site : Option StmtId) (id : NodeId) :
    (addEdge src dst site g).2.idOf? id = g.idOf? id := by
  rw [addEdge_eq]
  rfl

theorem idOf?_modifyKind (n : NodeId) (change : NodeKind → NodeKind) (id : NodeId) :
    (modifyKind n change g).idOf? id = g.idOf? id := by
  rw [idOf?, modifyKind, node_modify]
  split <;> rfl

/-! ## Wiring of an inflated node -/

/-- One graph comes from the other by edges from a node and from new nodes, which are no views.
Containment, handlers and names stay as they are. -/
structure Sows (n : NodeId) (old new : FlowGraph) : Prop extends Develops old new where
  fresh_shown : ∀ id, old.nodes.size ≤ id → (new.kind id).isShown = false
  edges_from : ∀ edge ∈ new.edges,
    edge ∈ old.edges ∨ edge.source = n ∨ old.nodes.size ≤ edge.source
  links_eq : new.links = old.links
  bindings_eq : new.bindings = old.bindings
  names_eq : ∀ id, new.idOf? id = old.idOf? id

namespace Sows

variable {n : NodeId}

/-- Changes that make neither nodes nor edges nor links and name nothing. -/
theorem of_develops (h : Develops old new) (hsize : new.nodes.size = old.nodes.size)
    (hedges : new.edges = old.edges) (hlinks : new.links = old.links)
    (hbindings : new.bindings = old.bindings) (hnames : ∀ id, new.idOf? id = old.idOf? id) :
    Sows n old new where
  toDevelops := h
  fresh_shown _ hid := fresh_of_size_le rfl (Nat.le_of_eq hsize) hid
  edges_from _ hedge := .inl (hedges ▸ hedge)
  links_eq := hlinks
  bindings_eq := hbindings
  names_eq := hnames

instance : IsPreorder FlowGraph (Sows n) where
  refl g := of_develops (refl_of Develops g) rfl rfl rfl rfl fun _ => rfl
  trans old middle new h h' := {
    toDevelops := trans_of Develops h.toDevelops h'.toDevelops
    fresh_shown := fun _ =>
      fresh_trans NodeKind.isShown_core h'.toExtends h.fresh_shown h'.fresh_shown
    edges_from := by
      intro edge hedge
      rcases h'.edges_from edge hedge with hmiddle | hnode | hsource
      · exact h.edges_from edge hmiddle
      · exact .inr (.inl hnode)
      · exact .inr (.inr (Nat.le_trans h.size_le hsource))
    links_eq := h'.links_eq.trans h.links_eq
    bindings_eq := h'.bindings_eq.trans h.bindings_eq
    names_eq := fun id => (h'.names_eq id).trans (h.names_eq id) }

end Sows

theorem sows_share (hop : kind.op? = none)
    (hwindow : kind.isWindow = false) (hid : kind.idValue? = none) (hshown : kind.isShown = false) :
    Sows n g (share kind g).2 where
  toDevelops := develops_share hop hwindow hid
  fresh_shown id hid := by
    rcases g.share_cases kind with ⟨_, _, _, _, h⟩ | h <;> rw [h]
    · exact fresh_of_size_le rfl (Nat.le_refl _) hid
    · exact fresh_add rfl hshown hid
  edges_from edge hedge := .inl (share_edges kind ▸ hedge)
  links_eq := by
    rcases g.share_cases kind with ⟨_, _, _, _, h⟩ | h <;> rw [h]
    rfl
  bindings_eq := share_bindings kind
  names_eq := idOf?_share kind

theorem sows_addEdge {src : NodeId} (dst : NodeId) (site : Option StmtId)
    (hsource : src = n ∨ g.nodes.size ≤ src) :
    Sows n g (addEdge src dst site g).2 where
  toDevelops := develops_addEdge src dst site
  fresh_shown id hid := by
    rw [addEdge_eq]
    exact fresh_of_size_le rfl (Nat.le_refl _) hid
  edges_from edge hedge := by
    rcases mem_edges_addEdge.mp hedge with hold | ⟨_, rfl⟩
    · exact .inl hold
    · exact .inr hsource
  links_eq := by rw [addEdge_eq]
  bindings_eq := by rw [addEdge_eq]
  names_eq := idOf?_addEdge src dst site

/-- A context menu gets an edge only when it is new. -/
theorem sows_contextMenuNode (filler : MethodId) (menuParam view : NodeId) :
    Sows n g (contextMenuNode filler menuParam view g).2 := by
  have hmark : ∀ menu (g : FlowGraph),
      Sows n g (modifyKind menu (registerView view) g) := fun menu g =>
    .of_develops (develops_modifyKind menu (core_registerView view)) (by simp [modifyKind]) rfl rfl
      rfl (idOf?_modifyKind menu (registerView view))
  unfold contextMenuNode
  rcases g.share_cases (.contextMenu filler menuParam []) with ⟨menu, _, _, _, h⟩ | h <;> rw [h]
  · exact hmark menu g
  · refine trans_of (Sows n) ?_ (hmark _ _)
    have hadd : Sows n g (add (.contextMenu filler menuParam []) g).2 := {
      toDevelops := develops_add rfl rfl rfl
      fresh_shown := fun _ => fresh_add rfl rfl
      edges_from := fun _ hedge => .inl hedge
      links_eq := rfl
      bindings_eq := rfl
      names_eq := idOf?_add _ }
    refine ⟨trans_of Develops hadd.toDevelops (develops_addEdge ..), fun id hid => ?_, ?_, ?_, ?_,
      ?_⟩
    · rw [if_pos rfl, addEdge_eq]
      exact hadd.fresh_shown id hid
    · intro edge hedge
      rcases mem_edges_addEdge.mp hedge with hold | ⟨_, rfl⟩
      · exact hadd.edges_from edge hold
      · exact .inr (.inr (Nat.le_refl _))
    · rw [if_pos rfl, addEdge_eq]
      rfl
    · rw [if_pos rfl, addEdge_eq]
      rfl
    · exact fun id => (idOf?_addEdge _ _ none id).trans (hadd.names_eq id)

theorem isContextMenu_contextMenuNode (filler : MethodId) (menuParam view : NodeId) :
    ((contextMenuNode filler menuParam view g).2.kind
      (contextMenuNode filler menuParam view g).1.1).isContextMenu := by
  have hkey := g.share_key (.contextMenu filler menuParam []) rfl
  unfold contextMenuNode
  generalize share (.contextMenu filler menuParam []) g = shared at hkey ⊢
  obtain ⟨⟨menu, created⟩, shared⟩ := shared
  obtain ⟨hsize, hkey⟩ := hkey
  have hmenu : (shared.kind menu).isContextMenu := by
    cases hkind : shared.kind menu <;> simp_all [NodeKind.key?, NodeKind.isContextMenu]
  have hg : Extends shared
      (if created then (shared.addEdge menu menuParam none).2 else shared) := by
    cases created with
    | false => exact .refl shared
    | true => exact extends_addEdge ..
  have hmark := hg.trans (grafts_modifyKind menu (core_registerView view)).toExtends
  exact (hmark.keeps NodeKind.isContextMenu NodeKind.isContextMenu_core hsize).trans hmenu

/-! ## Resolving of operations -/

/-- One graph develops from the other, and nodes keep their identifiers. -/
structure Retains (old new : FlowGraph) : Prop extends Develops old new where
  idOf?_eq : ∀ id name, old.idOf? id = some name → new.idOf? id = some name

instance : IsPreorder FlowGraph Retains where
  refl g := ⟨refl_of Develops g, fun _ _ hname => hname⟩
  trans _ _ _ h h' := ⟨trans_of Develops h.toDevelops h'.toDevelops,
    fun id name hname => h'.idOf?_eq id name (h.idOf?_eq id name hname)⟩

/-- One graph comes from the other without new objects, and nodes keep their identifiers. -/
structure Enriches (old new : FlowGraph) : Prop extends Retains old new where
  fresh_object : ∀ id, old.nodes.size ≤ id → (new.kind id).isObject = false

namespace Enriches

/-- Changes that make no nodes and name none. -/
theorem of_develops (h : Develops old new) (hsize : new.nodes.size = old.nodes.size)
    (hnames : ∀ id, new.idOf? id = old.idOf? id) : Enriches old new where
  toDevelops := h
  fresh_object _ hid := fresh_of_size_le rfl (Nat.le_of_eq hsize) hid
  idOf?_eq id _ hname := (hnames id).trans hname

instance : IsPreorder FlowGraph Enriches where
  refl g := of_develops (refl_of Develops g) rfl fun _ => rfl
  trans _ _ _ h h' := {
    toRetains := trans_of Retains h.toRetains h'.toRetains
    fresh_object := fun _ =>
      fresh_trans NodeKind.isObject_core h'.toExtends h.fresh_object h'.fresh_object }

theorem hasObject_iff (h : Enriches old new) : new.HasObject id ↔ old.HasObject id := by
  refine ⟨fun hobject => ?_, fun hobject => hobject.mono h.toExtends⟩
  by_cases hid : id < old.nodes.size
  · exact (h.keeps NodeKind.isObject NodeKind.isObject_core hid).symm.trans hobject
  · rw [HasObject, h.fresh_object id (Nat.not_lt.mp hid)] at hobject
    exact absurd hobject Bool.false_ne_true

end Enriches

theorem enriches_varNode (var : Var) (ty : Option Ty) :
    Enriches g (varNode var ty g).2 where
  toDevelops := develops_share rfl rfl rfl
  fresh_object id hid := by
    rw [varNode, obtain]
    rcases g.share_cases (.var var ty) with ⟨_, _, _, _, h⟩ | h <;> rw [h]
    · exact fresh_of_size_le rfl (Nat.le_refl _) hid
    · exact fresh_add rfl rfl hid
  idOf?_eq id _ hname := (idOf?_share _ id).trans hname

theorem enriches_bindHandler (op : NodeId) (handler : Handler) :
    Enriches g (bindHandler op handler g).2 := by
  refine .of_develops (.of_size_eq (grafts_bindHandler op handler).toExtends ?_ ?_) ?_
    fun _ => ?_ <;> (unfold bindHandler; split <;> rfl)

theorem enriches_addLink (h : g.addLink c p = .ok (added, new)) :
    Enriches g new := by
  refine .of_develops (develops_addLink h) ?_ fun _ => ?_ <;>
    rcases addLink_ok h with ⟨_, rfl, _⟩ | ⟨_, rfl, _⟩ <;> rfl

theorem idOf?_setId {idNode : NodeId} (hnode : n < g.nodes.size) :
    (setId n idNode g).idOf? n = some idNode := by
  rw [idOf?, setId, node_modify, if_pos ⟨rfl, hnode⟩]

/-- Naming a node that has no identifier yet. -/
theorem enriches_setId {idNode : NodeId} (hnode : g.idOf? n = none) :
    Enriches g (setId n idNode g) where
  toDevelops := develops_setId n idNode
  fresh_object _ hid := fresh_of_size_le rfl (Nat.le_of_eq (by simp [setId])) hid
  idOf?_eq id name hname := by
    have hid : n ≠ id := by
      rintro rfl
      cases hname.symm.trans hnode
    rw [idOf?, setId, node_modify, if_neg fun h => hid h.1]
    exact hname

end FlowGraph

end WidgetFlow
