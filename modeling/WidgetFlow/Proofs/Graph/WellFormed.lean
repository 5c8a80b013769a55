import WidgetFlow.Proofs.Graph.Frames

/-!
# Well-formed graphs

In a well-formed graph all edges and links have ends, and an operation stands between its slots:
edges lead to it from its receiver and its parameter, which stand for values, and from it to its
result, which is a variable. It has no other edges.

`FlowGraph.Grafts` says that a graph comes from another one by additions that keep it well-formed,
let values flow only to where they may (`FlowGraph.Aimed`), put none into frames (`FlowGraph.Framed`) and
leave containment alone. Every operation on graphs but `addLink` is one.
-/

namespace WidgetFlow.FlowGraph

variable {g old new : FlowGraph} {id child parent : NodeId} {n : Option NodeId} {op : Op}
  {kind : NodeKind} {site : Option StmtId} {added : Bool}

/-! ## Well-formedness -/

/-- A node that stands for values, or none. -/
def HasValue? (g : FlowGraph) (n : Option NodeId) : Prop :=
  ∀ id, n = some id → g.HasValue id

def HasVar? (g : FlowGraph) (n : Option NodeId) : Prop :=
  ∀ id, n = some id → g.HasVar id

/-- A node that stands for values and is no frame, or none. -/
def HasOpen? (g : FlowGraph) (n : Option NodeId) : Prop :=
  ∀ id, n = some id → g.HasOpen id

/-- A variable that values may be put into, or none. -/
def HasHolder? (g : FlowGraph) (n : Option NodeId) : Prop :=
  ∀ id, n = some id → g.HasHolder id

/-- A node that values may be put into, or none. -/
def HasGoal? (g : FlowGraph) (n : Option NodeId) : Prop :=
  ∀ id, n = some id → g.HasGoal id

theorem HasValue?.some (h : g.HasValue id) : g.HasValue? (some id) := by
  rintro _ ⟨⟩
  exact h

theorem HasVar?.some (h : g.HasVar id) : g.HasVar? (some id) := by
  rintro _ ⟨⟩
  exact h

theorem HasOpen?.some (h : g.HasOpen id) : g.HasOpen? (some id) := by
  rintro _ ⟨⟩
  exact h

theorem HasHolder?.some (h : g.HasHolder id) : g.HasHolder? (some id) := by
  rintro _ ⟨⟩
  exact h

theorem HasHolder?.hasVar? (h : g.HasHolder? n) : g.HasVar? n :=
  fun id hid => (h id hid).hasVar

theorem HasHolder?.hasValue? (h : g.HasHolder? n) : g.HasValue? n :=
  fun id hid => (h id hid).hasValue

theorem HasGoal?.some (h : g.HasGoal id) : g.HasGoal? (some id) := by
  rintro _ ⟨⟩
  exact h

theorem HasValue?.mono (hg : Extends old new) (h : old.HasValue? n) : new.HasValue? n :=
  fun id hid => (h id hid).mono hg

theorem HasVar?.mono (hg : Extends old new) (h : old.HasVar? n) : new.HasVar? n :=
  fun id hid => (h id hid).mono hg

theorem HasHolder?.mono (hg : Extends old new) (h : old.HasHolder? n) : new.HasHolder? n :=
  fun id hid => (h id hid).mono hg

/-- The slots of an operation hold nodes of the graph: values as the receiver and the parameter,
and a variable as the result. -/
structure HasSlots (g : FlowGraph) (op : Op) : Prop where
  receiver : g.HasValue? op.receiver
  parameter : g.HasValue? op.parameter
  result : g.HasVar? op.result

/-- The edges of an operation that stands at a node are there. -/
structure HasSlotEdges (g : FlowGraph) (id : NodeId) (op : Op) : Prop where
  receiver : ∀ n, op.receiver = some n → g.hasEdge n id
  parameter : ∀ n, op.parameter = some n → g.hasEdge n id
  result : ∀ n, op.result = some n → g.hasEdge id n

/-- A graph in which all edges and links have ends and operations stand between their slots. -/
structure WellFormed (g : FlowGraph) : Prop where
  edge_ends : ∀ edge ∈ g.edges, edge.source < g.nodes.size ∧ edge.target < g.nodes.size
  link_ends : ∀ link ∈ g.links, g.HasObject link.child ∧ g.HasObject link.parent
  links_nodup : g.links.toList.Nodup
  slots : ∀ id op, g.op? id = some op → g.HasSlots op
  slot_edges : ∀ id op, g.op? id = some op → g.HasSlotEdges id op
  edge_into_op : ∀ edge ∈ g.edges, ∀ op, g.op? edge.target = some op →
    op.receiver = some edge.source ∨ op.parameter = some edge.source
  edge_from_op : ∀ edge ∈ g.edges, ∀ op, g.op? edge.source = some op →
    op.result = some edge.target

theorem HasSlots.mono (hg : Extends old new) (h : old.HasSlots op) : new.HasSlots op where
  receiver := h.receiver.mono hg
  parameter := h.parameter.mono hg
  result := h.result.mono hg

theorem HasSlots.hasValue (h : g.HasSlots op)
    (hnode : op.receiver = some id ∨ op.parameter = some id) : g.HasValue id :=
  hnode.elim (h.receiver id) (h.parameter id)

theorem HasSlotEdges.mono (hg : Extends old new) (h : old.HasSlotEdges id op) :
    new.HasSlotEdges id op where
  receiver n hnode := hg.hasEdge (h.receiver n hnode)
  parameter n hnode := hg.hasEdge (h.parameter n hnode)
  result n hnode := hg.hasEdge (h.result n hnode)

theorem wellFormed_empty : WellFormed {} where
  edge_ends edge h := by simp at h
  link_ends link h := by simp at h
  links_nodup := List.nodup_nil
  slots id op h := by simpa using lt_size_of_op? h
  slot_edges id op h := by simpa using lt_size_of_op? h
  edge_into_op edge h := by simp at h
  edge_from_op edge h := by simp at h

/-- What stands for values has no operation. -/
theorem HasValue.op?_eq_none (h : g.HasValue id) : g.op? id = none := by
  have hop := h.2
  rwa [isOp, NodeKind.isOp, Option.isSome_eq_false_iff, Option.isNone_iff_eq_none] at hop

namespace WellFormed

theorem lt_size_of_hasEdge (h : g.WellFormed) {src dst : NodeId}
    (hedge : g.hasEdge src dst) :
    src < g.nodes.size ∧ dst < g.nodes.size := by
  obtain ⟨edge, hmem, rfl, rfl⟩ := hasEdge_iff.mp hedge
  exact h.edge_ends edge hmem

/-- A graph stays well-formed when it gets neither links nor operations, and edges only between
values. -/
theorem of_extends (h : old.WellFormed) (hg : Extends old new) (hlinks : new.links = old.links)
    (hops : ∀ id op, new.op? id = some op → old.op? id = some op)
    (hedges : ∀ edge ∈ new.edges, edge ∈ old.edges ∨
      new.HasValue edge.source ∧ new.HasValue edge.target) : new.WellFormed where
  edge_ends edge hedge := by
    rcases hedges edge hedge with hold | ⟨hsource, htarget⟩
    · obtain ⟨hsource, htarget⟩ := h.edge_ends edge hold
      exact ⟨Nat.lt_of_lt_of_le hsource hg.size_le, Nat.lt_of_lt_of_le htarget hg.size_le⟩
    · exact ⟨hsource.1, htarget.1⟩
  link_ends link hlink := by
    obtain ⟨hchild, hparent⟩ := h.link_ends link (hlinks ▸ hlink)
    exact ⟨hchild.mono hg, hparent.mono hg⟩
  links_nodup := hlinks ▸ h.links_nodup
  slots id op hop := (h.slots id op (hops id op hop)).mono hg
  slot_edges id op hop := (h.slot_edges id op (hops id op hop)).mono hg
  edge_into_op edge hedge op hop := by
    rcases hedges edge hedge with hold | ⟨_, htarget⟩
    · exact h.edge_into_op edge hold op (hops _ op hop)
    · simp [htarget.op?_eq_none] at hop
  edge_from_op edge hedge op hop := by
    rcases hedges edge hedge with hold | ⟨hsource, _⟩
    · exact h.edge_from_op edge hold op (hops _ op hop)
    · simp [hsource.op?_eq_none] at hop

end WellFormed

/-- All edges but those of another graph lead to where values may flow. -/
def Aimed (origin g : FlowGraph) : Prop :=
  ∀ edge ∈ g.edges, edge ∈ origin.edges ∨ (g.kind edge.target).takesFlow = true

theorem Aimed.refl (g : FlowGraph) : Aimed g g := fun _ hedge => .inl hedge

/-- A graph may get edges that lead to where values may flow. -/
theorem Aimed.of_extends {origin : FlowGraph} (h : Aimed origin old) (hold : old.WellFormed)
    (hg : Extends old new)
    (hedges : ∀ edge ∈ new.edges, edge ∈ old.edges ∨ (new.kind edge.target).takesFlow = true) :
    Aimed origin new := by
  intro edge hedge
  rcases hedges edge hedge with hedge | htakes
  · refine (h edge hedge).imp_right fun htakes => ?_
    have hsize := (hold.edge_ends edge hedge).2
    exact (hg.keeps NodeKind.takesFlow NodeKind.takesFlow_core hsize).trans htakes
  · exact .inr htakes

/-- A graph may get edges that lead to no frames or start at operations. -/
theorem Framed.of_extends (h : old.Framed) (hold : old.WellFormed) (hg : Extends old new)
    (hnumbers : new.Numbered)
    (hedges : ∀ edge ∈ new.edges, edge ∈ old.edges ∨ (new.kind edge.target).isFrame = false ∨
      new.isOp edge.source) : new.Framed := by
  refine ⟨hnumbers, fun edge hedge hframe => ?_⟩
  rcases hedges edge hedge with hedge | hother | hop
  · obtain ⟨hsource, htarget⟩ := hold.edge_ends edge hedge
    rw [hg.keeps NodeKind.isFrame NodeKind.isFrame_core htarget] at hframe
    exact (hg.isOp_eq hsource).trans (h.fed edge hedge hframe)
  · rw [hother] at hframe
    cases hframe
  · exact hop

/-! ## Additions -/

/-- One graph comes from the other by additions that keep it well-formed, let values flow only to
where they may but not into frames, and leave containment alone. -/
structure Grafts (old new : FlowGraph) : Prop extends Extends old new where
  links_eq : new.links = old.links
  wellFormed : old.WellFormed → new.WellFormed
  aimed : ∀ {origin : FlowGraph}, old.WellFormed → Aimed origin old → Aimed origin new
  framed : old.WellFormed → old.Framed → new.Framed

namespace Grafts

theorem refl (g : FlowGraph) : Grafts g g :=
  ⟨.refl g, rfl, fun h => h, fun _ h => h, fun _ h => h⟩

theorem trans {middle : FlowGraph} (h : Grafts old middle) (h' : Grafts middle new) :
    Grafts old new :=
  ⟨h.toExtends.trans h'.toExtends, h'.links_eq.trans h.links_eq,
    fun hold => h'.wellFormed (h.wellFormed hold),
    fun hold haimed => h'.aimed (h.wellFormed hold) (h.aimed hold haimed),
    fun hold hframed => h'.framed (h.wellFormed hold) (h.framed hold hframed)⟩

theorem of_extends (hg : Extends old new) (hedges : new.edges = old.edges)
    (hlinks : new.links = old.links) (hops : ∀ id op, new.op? id = some op → old.op? id = some op)
    (hnumbers : old.Numbered → new.Numbered) : Grafts old new where
  toExtends := hg
  links_eq := hlinks
  wellFormed hold := hold.of_extends hg hlinks hops fun _ hedge => .inl (hedges ▸ hedge)
  aimed hold haimed := haimed.of_extends hold hg fun _ hedge => .inl (hedges ▸ hedge)
  framed hold hframed := hframed.of_extends hold hg (hnumbers hframed.numbered)
    fun _ hedge => .inl (hedges ▸ hedge)

/-- Changes that only concern the details of nodes, the handlers and the synthetic handlers. -/
theorem of_nodes (hsize : new.nodes.size = old.nodes.size)
    (hcore : ∀ id, (new.kind id).core = (old.kind id).core) (hedges : new.edges = old.edges)
    (hlinks : new.links = old.links) (hbindings : ∀ binding ∈ old.bindings, binding ∈ new.bindings)
    (hmade : old.made ≤ new.made) : Grafts old new := by
  have hg : Extends old new := ⟨Nat.le_of_eq hsize.symm, fun id _ => hcore id,
    fun edge hedge => hedges ▸ hedge, fun link hlink => hlinks ▸ hlink, hbindings⟩
  refine of_extends hg hedges hlinks (fun id op hop => ?_) fun hnumbers => ?_
  · rwa [op?, NodeKind.eq_of_core_eq NodeKind.op? NodeKind.op?_core (hcore id)] at hop
  · refine hnumbers.of_extends hg hmade fun id hid => ?_
    rw [kind_of_size_le (hsize ▸ hid)]
    rfl

end Grafts

/-- Adding a node that is no operation makes none. -/
theorem op?_of_op?_add (hkind : kind.isOp = false)
    (hop : (add kind g).2.op? id = some op) : g.op? id = some op := by
  rw [op?, kind_add] at hop
  split at hop
  · simp [NodeKind.isOp, hop] at hkind
  · exact hop

theorem grafts_add (hkind : kind.isOp = false)
    (hmade : kind.madeNumber? = none) : Grafts g (add kind g).2 := by
  refine .of_extends (extends_add kind) rfl rfl (fun id op => op?_of_op?_add hkind) fun hnumbers =>
    hnumbers.of_extends (extends_add kind) (Nat.le_refl _) fun id hid => ?_
  rw [kind_add]
  split
  · exact hmade
  · rw [kind_of_size_le hid]
    rfl

theorem grafts_share (hkind : kind.isOp = false)
    (hmade : kind.madeNumber? = none) : Grafts g (share kind g).2 := by
  rcases g.share_cases kind with ⟨_, _, _, _, h⟩ | h <;> rw [h]
  · exact .refl g
  · exact grafts_add hkind hmade

theorem grafts_makeVar (ty : Ty) : Grafts g (makeVar ty g).2 := by
  have hcount : Grafts g { g with made := g.made + 1 } :=
    .of_nodes rfl (fun _ => rfl) rfl rfl (fun _ h => h) (Nat.le_succ _)
  have hnumbers : g.Numbered → (makeVar ty g).2.Numbered := fun h => numbered_makeVar h ty
  unfold makeVar varNode obtain at hnumbers ⊢
  rcases share_cases (.var (.made (g.made + 1)) (some ty)) with ⟨_, _, _, _, h⟩ | h <;>
    rw [h] at hnumbers ⊢
  · exact hcount
  · exact .of_extends (hcount.toExtends.trans (extends_add _)) rfl rfl
      (fun id op hop => op?_of_op?_add rfl hop) hnumbers

/-! ### Edges and operations -/

theorem addEdge_eq (src dst : NodeId) (site : Option StmtId) :
    (addEdge src dst site g).2 =
      { g with edges := (addEdge src dst site g).2.edges } := by
  unfold addEdge
  split <;> rfl

theorem mem_edges_addEdge {src dst : NodeId} {edge : FlowEdge} :
    edge ∈ (addEdge src dst site g).2.edges ↔
      edge ∈ g.edges ∨
        g.hasEdge src dst = false ∧ edge = { source := src, target := dst, site } := by
  unfold addEdge
  split <;> simp_all

theorem hasEdge_addEdge (src dst : NodeId) (site : Option StmtId) :
    (addEdge src dst site g).2.hasEdge src dst := by
  rw [hasEdge_iff]
  by_cases hedge : g.hasEdge src dst
  · obtain ⟨edge, hmem, hends⟩ := hasEdge_iff.mp hedge
    exact ⟨edge, mem_edges_addEdge.mpr (.inl hmem), hends⟩
  · exact ⟨_, mem_edges_addEdge.mpr (.inr ⟨by simpa using hedge, rfl⟩), rfl, rfl⟩

theorem extends_addEdge (src dst : NodeId) (site : Option StmtId) :
    Extends g (addEdge src dst site g).2 := by
  rw [addEdge_eq]
  exact ⟨Nat.le_refl _, fun _ _ => rfl, fun _ h => mem_edges_addEdge.mpr (.inl h), fun _ h => h,
    fun _ h => h⟩

theorem links_addEdge (src dst : NodeId) (site : Option StmtId) :
    (addEdge src dst site g).2.links = g.links := by
  rw [addEdge_eq]

/-- A graph stays well-formed when it gets an edge between values. -/
theorem WellFormed.addEdge {src dst : NodeId} (site : Option StmtId)
    (hsource : g.HasValue src) (htarget : g.HasValue dst) (h : g.WellFormed) :
    (addEdge src dst site g).2.WellFormed := by
  have hg := g.extends_addEdge src dst site
  refine h.of_extends hg (links_addEdge src dst site) (fun id op hop => ?_) ?_
  · rw [addEdge_eq] at hop
    exact hop
  · intro edge hedge
    rcases mem_edges_addEdge.mp hedge with hold | ⟨_, rfl⟩
    · exact .inl hold
    · exact .inr ⟨hsource.mono hg, htarget.mono hg⟩

theorem numbered_addEdge {src dst : NodeId} (site : Option StmtId) (h : g.Numbered) :
    (addEdge src dst site g).2.Numbered := by
  rw [addEdge_eq]
  exact h

/-- Frames stay as they are when a graph gets an edge that leads to none. -/
theorem Framed.addEdge {src dst : NodeId} (site : Option StmtId) (hold : g.WellFormed)
    (h : g.Framed) (hsize : dst < g.nodes.size)
    (htarget : (g.kind dst).isFrame = false) :
    (addEdge src dst site g).2.Framed := by
  have hg := g.extends_addEdge src dst site
  refine h.of_extends hold hg (numbered_addEdge site h.numbered) fun edge hedge => ?_
  rcases mem_edges_addEdge.mp hedge with hedge | ⟨_, rfl⟩
  · exact .inl hedge
  · exact .inr (.inl ((hg.keeps NodeKind.isFrame NodeKind.isFrame_core hsize).trans htarget))

/-- Adding an edge that leads to a place for values that is no frame. -/
theorem grafts_addEdge_of_place {src dst : NodeId} (site : Option StmtId)
    (hsource : g.HasValue src) (htarget : g.HasPlace dst)
    (hframe : (g.kind dst).isFrame = false) :
    Grafts g (addEdge src dst site g).2 where
  toExtends := g.extends_addEdge src dst site
  links_eq := links_addEdge src dst site
  wellFormed hold := hold.addEdge site hsource htarget.1
  aimed hold haimed := by
    have hg := g.extends_addEdge src dst site
    refine haimed.of_extends hold hg fun edge hedge => ?_
    rcases mem_edges_addEdge.mp hedge with hedge | ⟨_, rfl⟩
    · exact .inl hedge
    · exact .inr (htarget.mono hg).2
  framed hold hframed := hframed.addEdge site hold htarget.1.1 hframe

theorem grafts_addEdge {src dst : NodeId} (site : Option StmtId)
    (hsource : g.HasValue src) (htarget : g.HasGoal dst) :
    Grafts g (addEdge src dst site g).2 :=
  grafts_addEdge_of_place site hsource htarget.1 (NodeKind.isFrame_eq_false htarget.2)

/-- Adding an edge whose ends may be missing leaves all but the edges alone. -/
theorem addEdge?_eq (src dst : Option NodeId) (site : Option StmtId) :
    addEdge? src dst site g =
      { g with edges := (addEdge? src dst site g).edges } := by
  unfold addEdge?
  split
  · exact addEdge_eq ..
  · rfl

theorem extends_addEdge? (src dst : Option NodeId) (site : Option StmtId) :
    Extends g (addEdge? src dst site g) := by
  unfold addEdge?
  split
  · exact extends_addEdge ..
  · exact .refl g

theorem mem_edges_addEdge? {src dst : Option NodeId} {edge : FlowEdge}
    (h : edge ∈ (addEdge? src dst site g).edges) :
    edge ∈ g.edges ∨ src = some edge.source ∧ dst = some edge.target := by
  unfold addEdge? at h
  split at h
  · rcases mem_edges_addEdge.mp h with hold | ⟨_, rfl⟩
    · exact .inl hold
    · exact .inr ⟨rfl, rfl⟩
  · exact .inl h

/-- An operation with its edges. -/
structure AddsOp (op : Op) (old new : FlowGraph) : Prop extends Extends old new where
  size_eq : new.nodes.size = old.nodes.size + 1
  kind_eq : ∀ id, new.kind id = if id = old.nodes.size then .op op else old.kind id
  links_eq : new.links = old.links
  made_eq : new.made = old.made
  slot_edges : new.HasSlotEdges old.nodes.size op
  edge_cases : ∀ edge ∈ new.edges, edge ∈ old.edges ∨
    (op.receiver = some edge.source ∨ op.parameter = some edge.source) ∧
      edge.target = old.nodes.size ∨
    edge.source = old.nodes.size ∧ op.result = some edge.target

theorem addsOp_addOp (op : Op) : AddsOp op g (addOp op g).2 := by
  let afterNode := (add (.op op) g).2
  let afterReceiver := afterNode.addEdge? op.receiver (some g.nodes.size) op.site
  let afterParameter := afterReceiver.addEdge? op.parameter (some g.nodes.size) op.site
  let afterResult := afterParameter.addEdge? (some g.nodes.size) op.result op.site
  have hreceiver : Extends afterNode afterReceiver := extends_addEdge? ..
  have hparameter : Extends afterReceiver afterParameter := extends_addEdge? ..
  have hresult : Extends afterParameter afterResult := extends_addEdge? ..
  have hall : afterResult = { afterNode with edges := afterResult.edges } := by
    simp only [afterResult, afterParameter, afterReceiver]
    rw [addEdge?_eq, addEdge?_eq, addEdge?_eq]
  change AddsOp op g afterResult
  have hg := (extends_add _).trans (hreceiver.trans (hparameter.trans hresult))
  refine ⟨hg, ?_, ?_, by rw [hall]; rfl, by rw [hall]; rfl, ?_, ?_⟩
  · rw [hall, add_size]
  · intro id
    rw [hall]
    exact kind_add _
  · refine ⟨fun n hnode => ?_, fun n hnode => ?_, fun n hnode => ?_⟩
    · refine (hparameter.trans hresult).hasEdge ?_
      simpa [afterReceiver, hnode, addEdge?] using hasEdge_addEdge ..
    · refine hresult.hasEdge ?_
      simpa [afterParameter, hnode, addEdge?] using hasEdge_addEdge ..
    · simpa [afterResult, hnode, addEdge?] using hasEdge_addEdge ..
  · intro edge hedge
    rcases mem_edges_addEdge? hedge with hedge | ⟨hsource, htarget⟩
    · rcases mem_edges_addEdge? hedge with hedge | ⟨hsource, htarget⟩
      · rcases mem_edges_addEdge? hedge with hedge | ⟨hsource, htarget⟩
        · exact .inl hedge
        · exact .inr (.inl ⟨.inl hsource, (Option.some.inj htarget).symm⟩)
      · exact .inr (.inl ⟨.inr hsource, (Option.some.inj htarget).symm⟩)
    · exact .inr (.inr ⟨(Option.some.inj hsource).symm, htarget⟩)

namespace AddsOp

variable {op found : Op} {edge : FlowEdge}

/-- The operation of an old node is the old one, and the new node has the new one. -/
theorem op?_cases (hadds : AddsOp op g new) (hfound : new.op? id = some found) :
    id = g.nodes.size ∧ found = op ∨ g.op? id = some found := by
  rw [op?, hadds.kind_eq] at hfound
  split at hfound
  next hid => exact .inl ⟨hid, (Option.some.inj hfound).symm⟩
  next => exact .inr hfound

theorem op?_new (hadds : AddsOp op g new) : new.op? g.nodes.size = some op := by
  rw [FlowGraph.op?, hadds.kind_eq, if_pos rfl]
  rfl

variable (hadds : AddsOp op g new) (h : g.WellFormed) (hslots : g.HasSlots op)
  (hedge : edge ∈ new.edges)
include hadds h hslots hedge

theorem edge_ends : edge.source < new.nodes.size ∧ edge.target < new.nodes.size := by
  rw [hadds.size_eq]
  rcases hadds.edge_cases edge hedge with hold | ⟨hnode, htarget⟩ | ⟨hsource, hnode⟩
  · obtain ⟨hsource, htarget⟩ := h.edge_ends edge hold
    exact ⟨Nat.lt_succ_of_lt hsource, Nat.lt_succ_of_lt htarget⟩
  · exact ⟨Nat.lt_succ_of_lt (hslots.hasValue hnode).1, htarget ▸ Nat.lt_succ_self _⟩
  · exact ⟨hsource ▸ Nat.lt_succ_self _, Nat.lt_succ_of_lt (hslots.result _ hnode).1⟩

omit h in
/-- The new edges lead to the operation and to its result, which is a variable. -/
theorem edge_aimed : edge ∈ g.edges ∨ (new.kind edge.target).takesFlow = true := by
  refine (hadds.edge_cases edge hedge).imp_right ?_
  rintro (⟨_, htarget⟩ | ⟨_, hnode⟩)
  · rw [hadds.kind_eq, if_pos htarget]
    rfl
  · exact ((hslots.result _ hnode).hasPlace.mono hadds.toExtends).2

theorem edge_into_op (hfound : new.op? edge.target = some found) :
    found.receiver = some edge.source ∨ found.parameter = some edge.source := by
  rcases hadds.op?_cases hfound with ⟨htarget, rfl⟩ | hold
  · rcases hadds.edge_cases edge hedge with hedge | ⟨hnode, _⟩ | ⟨_, hnode⟩
    · exact absurd htarget (Nat.ne_of_lt (h.edge_ends edge hedge).2)
    · exact hnode
    · exact absurd htarget (Nat.ne_of_lt (hslots.result _ hnode).1)
  · have hlt := lt_size_of_op? hold
    rcases hadds.edge_cases edge hedge with hedge | ⟨_, hlast⟩ | ⟨_, hnode⟩
    · exact h.edge_into_op edge hedge found hold
    · exact absurd hlast (Nat.ne_of_lt hlt)
    -- the result of the new operation is a variable, so an old operation gets no edge from it
    · simp [(hslots.result _ hnode).hasValue.op?_eq_none] at hold

theorem edge_from_op (hfound : new.op? edge.source = some found) :
    found.result = some edge.target := by
  rcases hadds.op?_cases hfound with ⟨hsource, rfl⟩ | hold
  · rcases hadds.edge_cases edge hedge with hedge | ⟨hnode, _⟩ | ⟨_, hnode⟩
    · exact absurd hsource (Nat.ne_of_lt (h.edge_ends edge hedge).1)
    · exact absurd hsource (Nat.ne_of_lt (hslots.hasValue hnode).1)
    · exact hnode
  · have hlt := lt_size_of_op? hold
    rcases hadds.edge_cases edge hedge with hedge | ⟨hnode, _⟩ | ⟨hlast, _⟩
    · exact h.edge_from_op edge hedge found hold
    · simp [(hslots.hasValue hnode).op?_eq_none] at hold
    · exact absurd hlast (Nat.ne_of_lt hlt)

omit h hslots hedge in
theorem numbered (hnumbers : g.Numbered) : new.Numbered := by
  intro id number hnumber
  rw [hadds.kind_eq] at hnumber
  rw [hadds.made_eq]
  split at hnumber
  · cases hnumber
  · exact hnumbers id number hnumber

omit hslots hedge in
/-- The new edges lead to the operation or start there. -/
theorem framed (hframed : g.Framed) : new.Framed := by
  refine hframed.of_extends h hadds.toExtends (hadds.numbered hframed.numbered) ?_
  intro edge hedge
  refine (hadds.edge_cases edge hedge).imp_right ?_
  rintro (⟨_, htarget⟩ | ⟨hsource, _⟩)
  · exact .inl (by rw [hadds.kind_eq, if_pos htarget]; rfl)
  · exact .inr (by rw [isOp, hadds.kind_eq, if_pos hsource]; rfl)

end AddsOp

/-- Adding an operation whose slots hold nodes of the graph. -/
theorem grafts_addOp (hslots : g.HasSlots op) : Grafts g (addOp op g).2 := by
  have hadds := g.addsOp_addOp op
  refine ⟨hadds.toExtends, hadds.links_eq, fun h => ?_,
    fun h haimed => haimed.of_extends h hadds.toExtends fun _ hedge => hadds.edge_aimed hslots hedge,
    fun h hframed => hadds.framed h hframed⟩
  generalize (addOp op g).2 = new at hadds
  have hg := hadds.toExtends
  refine { edge_ends edge hedge := hadds.edge_ends h hslots hedge
           link_ends link hlink := ?_
           links_nodup := hadds.links_eq ▸ h.links_nodup
           slots id found hfound := ?_
           slot_edges id found hfound := ?_
           edge_into_op edge hedge found hfound := hadds.edge_into_op h hslots hedge hfound
           edge_from_op edge hedge found hfound := hadds.edge_from_op h hslots hedge hfound }
  · obtain ⟨hchild, hparent⟩ := h.link_ends link (hadds.links_eq ▸ hlink)
    exact ⟨hchild.mono hg, hparent.mono hg⟩
  · rcases hadds.op?_cases hfound with ⟨_, rfl⟩ | hold
    · exact hslots.mono hg
    · exact (h.slots id found hold).mono hg
  · rcases hadds.op?_cases hfound with ⟨rfl, rfl⟩ | hold
    · exact hadds.slot_edges
    · exact (h.slot_edges id found hold).mono hg

/-! ### Details of nodes, menus and handlers -/

theorem node_modify (dst : NodeId) (change : Node → Node) :
    ({ g with nodes := g.nodes.modify dst change } : FlowGraph).node id =
      if dst = id ∧ id < g.nodes.size then change (g.node id) else g.node id := by
  simp only [FlowGraph.node, Array.getD_eq_getD_getElem?, Array.getElem?_modify]
  by_cases hsize : id < g.nodes.size <;> by_cases hid : dst = id <;> simp [hsize, hid]

theorem grafts_modifyKind {change : NodeKind → NodeKind} (n : NodeId)
    (hchange : ∀ kind, (change kind).core = kind.core) :
    Grafts g (modifyKind n change g) := by
  refine .of_nodes (by simp [modifyKind]) (fun id => ?_) rfl rfl (fun _ h => h) (Nat.le_refl _)
  rw [kind, modifyKind, node_modify]
  split
  · exact hchange _
  · rfl

/-- Naming a node does not change what it stands for. -/
theorem kind_setId (n idNode : NodeId) : (setId n idNode g).kind id = g.kind id := by
  rw [kind, setId, node_modify]
  split <;> rfl

theorem grafts_setId (n idNode : NodeId) : Grafts g (setId n idNode g) :=
  .of_nodes (by simp [setId]) (fun id => by rw [kind_setId]) rfl rfl (fun _ h => h) (Nat.le_refl _)

theorem grafts_setCancelable (dialog : NodeId) (v : Bool) :
    Grafts g (setCancelable dialog v g) :=
  grafts_modifyKind dialog fun kind => by cases kind <;> rfl

/-- Registering a view at a context menu only changes a detail. -/
theorem core_registerView (view : NodeId) (kind : NodeKind) :
    (registerView view kind).core = kind.core := by
  unfold registerView
  split
  · split <;> rfl
  · rfl

theorem grafts_contextMenuNode (filler : MethodId) {menuParam : NodeId} (view : NodeId)
    (hparam : g.HasHolder menuParam) :
    Grafts g (contextMenuNode filler menuParam view g).2 := by
  have hshare : Grafts g (share (.contextMenu filler menuParam []) g).2 :=
    grafts_share rfl rfl
  have hmenu : (share (.contextMenu filler menuParam []) g).2.HasValue
      (share (.contextMenu filler menuParam []) g).1.1 := hasValue_share rfl
  unfold contextMenuNode
  generalize share (.contextMenu filler menuParam []) g = shared at hshare hmenu ⊢
  obtain ⟨⟨menu, created⟩, shared⟩ := shared
  refine hshare.trans (.trans ?_ (grafts_modifyKind _ (core_registerView view)))
  cases created with
  | false => exact .refl shared
  | true => exact grafts_addEdge none hmenu (hparam.mono hshare.toExtends).hasGoal

theorem hasObject_contextMenuNode (filler : MethodId) (menuParam view : NodeId) :
    (contextMenuNode filler menuParam view g).2.HasObject
      (contextMenuNode filler menuParam view g).1.1 := by
  have hkey := (g.share_key (.contextMenu filler menuParam []) rfl).2
  unfold contextMenuNode
  generalize share (.contextMenu filler menuParam []) g = shared at hkey ⊢
  obtain ⟨⟨menu, created⟩, shared⟩ := shared
  have hmenu : shared.HasObject menu := by
    dsimp only at hkey
    unfold HasObject
    cases hkind : shared.kind menu <;> simp_all [NodeKind.key?, NodeKind.isObject]
  dsimp only
  refine HasObject.mono (grafts_modifyKind _ (core_registerView view)).toExtends ?_
  cases created with
  | false => exact hmenu
  | true => exact hmenu.mono (extends_addEdge ..)

theorem grafts_bindHandler (op : NodeId) (handler : Handler) :
    Grafts g (bindHandler op handler g).2 := by
  unfold bindHandler
  split
  · exact .refl g
  · exact .of_nodes rfl (fun _ => rfl) rfl rfl (fun _ h => Array.mem_push_of_mem _ h)
      (Nat.le_refl _)

theorem grafts_markPrebound (op : NodeId) : Grafts g (markPrebound op g) := by
  unfold markPrebound
  split
  · exact .refl g
  · exact .of_nodes rfl (fun _ => rfl) rfl rfl (fun _ h => h) (Nat.le_refl _)

theorem grafts_addSynthetic (handler : SyntheticHandler) :
    Grafts g (addSynthetic handler g).2 := by
  have hnoted : Grafts g { g with synthetics := g.synthetics.push handler } :=
    .of_nodes rfl (fun _ => rfl) rfl rfl (fun _ h => h) (Nat.le_refl _)
  exact hnoted.trans (grafts_add rfl rfl)

/-! ### Links -/

theorem any_link_iff :
    (g.links.any fun link => link.child = child && link.parent = parent) ↔
      { child, parent } ∈ g.links := by
  rw [Array.any_eq_true']
  constructor
  · rintro ⟨⟨c, p⟩, hmem, hlink⟩
    simp only [Bool.and_eq_true, decide_eq_true_iff] at hlink
    rwa [← hlink.1, ← hlink.2]
  · exact fun hmem => ⟨_, hmem, by simp⟩

theorem addLink_ok (h : g.addLink child parent = .ok (added, new)) :
    added = false ∧ new = g ∧ { child, parent } ∈ g.links ∨
      added = true ∧ new = { g with links := g.links.push { child, parent } } ∧
        { child, parent } ∉ g.links := by
  unfold addLink at h
  simp only [any_link_iff] at h
  split at h
  · simp at h
  · split at h
    next hmem =>
      obtain ⟨rfl, rfl⟩ := by simpa using h
      exact .inl ⟨rfl, rfl, hmem⟩
    next hmem =>
      obtain ⟨rfl, rfl⟩ := by simpa using h
      exact .inr ⟨rfl, rfl, hmem⟩

theorem kind_addLink (h : g.addLink child parent = .ok (added, new)) (id : NodeId) :
    new.kind id = g.kind id := by
  rcases addLink_ok h with ⟨_, rfl, _⟩ | ⟨_, rfl, _⟩ <;> rfl

theorem addLink_of_mem (hne : child ≠ parent)
    (h : { child, parent } ∈ g.links) : g.addLink child parent = .ok (false, g) := by
  rw [addLink, if_neg hne, if_pos (any_link_iff.mpr h)]

theorem extends_addLink (h : g.addLink child parent = .ok (added, new)) :
    Extends g new := by
  rcases addLink_ok h with ⟨_, rfl, _⟩ | ⟨_, rfl, _⟩
  · exact .refl _
  · exact ⟨Nat.le_refl _, fun _ _ => rfl, fun _ h => h, fun _ h => Array.mem_push_of_mem _ h,
      fun _ h => h⟩

theorem WellFormed.addLink (hold : g.WellFormed)
    (hchild : g.HasObject child) (hparent : g.HasObject parent)
    (h : g.addLink child parent = .ok (added, new)) : new.WellFormed := by
  rcases addLink_ok h with ⟨_, rfl, _⟩ | ⟨_, rfl, hnew⟩
  · exact hold
  · exact {
      edge_ends := hold.edge_ends
      link_ends := by
        intro link hlink
        rcases Array.mem_push.mp hlink with hlink | rfl
        · exact hold.link_ends link hlink
        · exact ⟨hchild, hparent⟩
      links_nodup := by
        rw [Array.toList_push, List.nodup_append]
        refine ⟨hold.links_nodup, List.pairwise_singleton _ _, fun link hlink other hother => ?_⟩
        rw [List.mem_singleton] at hother
        exact fun heq => hnew (Array.mem_def.mpr (hother ▸ heq ▸ hlink))
      slots id op hop := (hold.slots id op hop).mono (extends_addLink h)
      slot_edges id op hop := (hold.slot_edges id op hop).mono (extends_addLink h)
      edge_into_op := hold.edge_into_op
      edge_from_op := hold.edge_from_op }

end WidgetFlow.FlowGraph
