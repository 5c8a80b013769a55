import Mathlib.Order.Defs.Unbundled
import Mathlib.Tactic.ByContra
import WidgetFlow.Graph.Reach

/-!
# Growing graphs

A graph only grows. `FlowGraph.Extends` says so: nodes keep their numbers and what they stand for,
and edges, links and handlers stay. What a node stands for may change in two details, whether a
dialog can be cancelled and which views show a context menu, and `NodeKind.core` leaves these out.

Every operation on graphs is shown to extend the graph, beside the lemmas that say what it does.
-/

namespace WidgetFlow

variable {v : ResId}

namespace Ordered

variable {α β : Type} [Ord β] {key : α → β} {other : α} {elements : List α}

theorem insert_perm (e : α) (elements : List α) :
    (insert key e elements).Perm (e :: elements) := by
  induction elements with
  | nil => exact .refl _
  | cons head rest ih =>
    unfold insert
    split
    · exact (ih.cons head).trans (.swap ..)
    · exact .refl _

theorem sort_perm (elements : List α) : (sort key elements).Perm elements := by
  induction elements with
  | nil => exact .refl _
  | cons head rest ih => exact (insert_perm head _).trans (ih.cons head)

theorem mem_sort : other ∈ sort key elements ↔ other ∈ elements := (sort_perm elements).mem_iff

section Pairwise

variable {rel : α → α → Prop} [IsTrans α rel]
  (hle : ∀ first second, compare (key first) (key second) ≠ .gt → rel first second)
  (hgt : ∀ first second, compare (key first) (key second) = .gt → rel second first)
include hle hgt

theorem pairwise_insert (e : α) (h : elements.Pairwise rel) :
    (insert key e elements).Pairwise rel := by
  induction elements with
  | nil => exact List.pairwise_singleton _ _
  | cons head rest ih =>
    obtain ⟨hhead, hrest⟩ := List.pairwise_cons.mp h
    unfold insert
    split
    next hcompare =>
      refine List.pairwise_cons.mpr ⟨fun other hother => ?_, ih hrest⟩
      rw [(insert_perm e rest).mem_iff, List.mem_cons] at hother
      rcases hother with rfl | hother
      · exact hgt _ _ hcompare
      · exact hhead other hother
    next hcompare =>
      have hfirst : rel e head := hle _ _ hcompare
      refine List.pairwise_cons.mpr ⟨fun other hother => ?_, h⟩
      rcases List.mem_cons.mp hother with rfl | hother
      · exact hfirst
      · exact trans_of rel hfirst (hhead other hother)

theorem pairwise_sort (elements : List α) : (sort key elements).Pairwise rel := by
  induction elements with
  | nil => exact List.Pairwise.nil
  | cons head rest ih => exact pairwise_insert hle hgt head ih

end Pairwise

end Ordered

/-! ## What a node keeps -/

namespace NodeKind

/-- What a node stands for without the details that may change. -/
def core : NodeKind → NodeKind
  | .dialog owner site _ => .dialog owner site true
  | .contextMenu filler menuParam _ => .contextMenu filler menuParam []
  | kind => kind

theorem eq_of_core_eq {α : Type} {first second : NodeKind} (f : NodeKind → α)
    (hf : ∀ kind, f kind.core = f kind) (h : first.core = second.core) : f first = f second := by
  rw [← hf first, h, hf second]

theorem op?_core (kind : NodeKind) : kind.core.op? = kind.op? := by cases kind <;> rfl

theorem isOp_core (kind : NodeKind) : kind.core.isOp = kind.isOp := by cases kind <;> rfl

theorem key?_core (kind : NodeKind) : kind.core.key? = kind.key? := by cases kind <;> rfl

theorem isVar_core (kind : NodeKind) : kind.core.isVar = kind.isVar := by cases kind <;> rfl

/-- Whether values may flow to a node. -/
def takesFlow : NodeKind → Bool
  | .var _ _ => true
  | .field _ => true
  | .op _ => true
  | _ => false

theorem takesFlow_core (kind : NodeKind) : kind.core.takesFlow = kind.takesFlow := by
  cases kind <;> rfl

theorem isObject_of_takesFlow {kind : NodeKind} (h : kind.takesFlow) : kind.isObject = false := by
  cases kind <;> first | rfl | cases h

theorem isObject_core (kind : NodeKind) : kind.core.isObject = kind.isObject := by
  cases kind <;> rfl

theorem isWindow_core (kind : NodeKind) : kind.core.isWindow = kind.isWindow := by
  cases kind <;> rfl

theorem owner?_core (kind : NodeKind) : kind.core.owner? = kind.owner? := by cases kind <;> rfl

theorem varTy?_core (kind : NodeKind) : kind.core.varTy? = kind.varTy? := by cases kind <;> rfl

theorem idValue?_core (kind : NodeKind) : kind.core.idValue? = kind.idValue? := by
  cases kind <;> rfl

theorem idValue?_eq_some {n : NodeKind} {kind : IdKind} :
    n.idValue? = some (kind, v) ↔ n = .id kind v := by
  cases n <;> simp [idValue?]

end NodeKind

namespace FlowGraph

variable {g old new : FlowGraph} {id : NodeId}

/-! ## Nodes that are there -/

/-- A number without a node shows an unnamed variable. -/
theorem node_of_size_le (h : g.nodes.size ≤ id) : g.node id = default := by
  simp [node, Array.getD, Nat.not_lt.mpr h]

/-- A number without a node shows an unnamed variable. -/
theorem kind_of_size_le (h : g.nodes.size ≤ id) : g.kind id = .var default none := by
  rw [kind, node_of_size_le h]
  rfl

/-- Only nodes that are there have a property that unnamed variables lack. -/
theorem lt_size_of_kind (property : NodeKind → Bool)
    (hdefault : property (.var default none) = false) (h : property (g.kind id)) :
    id < g.nodes.size := by
  by_contra hsize
  rw [kind_of_size_le (Nat.not_lt.mp hsize), hdefault] at h
  exact Bool.false_ne_true h

theorem lt_size_of_isObject (h : (g.kind id).isObject) : id < g.nodes.size :=
  lt_size_of_kind NodeKind.isObject rfl h

theorem lt_size_of_isOp (h : g.isOp id) : id < g.nodes.size :=
  lt_size_of_kind NodeKind.isOp rfl h

/-- A node shows an operation if and only if it is one. -/
theorem isOp_iff : g.isOp id ↔ ∃ op, g.op? id = some op := by
  rw [isOp, NodeKind.isOp, Option.isSome_iff_exists]
  rfl

theorem lt_size_of_op? {op : Op} (h : g.op? id = some op) : id < g.nodes.size :=
  lt_size_of_isOp (isOp_iff.mpr ⟨op, h⟩)

theorem mem_ops : id ∈ g.ops ↔ g.isOp id := by
  simp only [ops, nodeIds, List.mem_filter, List.mem_range, and_iff_right_iff_imp]
  exact lt_size_of_isOp

theorem mem_pick {α : Type} {select : NodeKind → Option α} {picked : α}
    (hdefault : select (.var default none) = none) :
    (picked, id) ∈ g.pick select ↔ select (g.kind id) = some picked := by
  have hsize : select (g.kind id) = some picked → id < g.nodes.size := fun hselect =>
    lt_size_of_kind (fun kind => (select kind).isSome) (by simp [hdefault]) (by simp [hselect])
  simp only [pick, nodeIds, List.mem_filterMap, List.mem_range, Option.map_eq_some_iff,
    Prod.mk.injEq]
  constructor
  · rintro ⟨_, _, _, hselect, rfl, rfl⟩
    exact hselect
  · intro hselect
    exact ⟨id, hsize hselect, picked, hselect, rfl, rfl⟩

theorem mem_dialogs :
    id ∈ g.dialogs ↔
      ∃ owner site cancelable, g.kind id = .dialog owner site cancelable := by
  simp only [dialogs, List.mem_map, Ordered.mem_sort, Prod.exists, mem_pick, exists_eq_right]
  cases g.kind id <;> simp

theorem mem_allocs : id ∈ g.allocs ↔ ∃ ty site role, g.kind id = .alloc ty site role := by
  simp only [allocs, List.mem_map, Prod.exists, mem_pick, exists_eq_right]
  cases g.kind id <;> simp

theorem mem_activities {owner : String} :
    (owner, id) ∈ g.activities ↔ g.kind id = .activity owner := by
  rw [activities, Ordered.mem_sort, mem_pick rfl]
  cases g.kind id <;> simp

/-- The identifiers of a kind are listed with their values. -/
theorem mem_idNodes {kind : IdKind} :
    (v, id) ∈ g.idNodes kind ↔ g.kind id = .id kind v := by
  rw [idNodes, Ordered.mem_sort, mem_pick rfl]
  cases g.kind id <;> simp

theorem hasEdge_iff {src dst : NodeId} :
    g.hasEdge src dst ↔
      ∃ edge ∈ g.edges, edge.source = src ∧ edge.target = dst := by
  rw [hasEdge, Array.any_eq_true']
  simp

/-! ## Growth -/

/-- One graph has all that the other has, and nodes keep what they stand for. -/
structure Extends (old new : FlowGraph) : Prop where
  size_le : old.nodes.size ≤ new.nodes.size
  core_eq : ∀ id < old.nodes.size, (new.kind id).core = (old.kind id).core
  edges : ∀ edge ∈ old.edges, edge ∈ new.edges
  links : ∀ link ∈ old.links, link ∈ new.links
  bindings : ∀ binding ∈ old.bindings, binding ∈ new.bindings

namespace Extends

theorem refl (g : FlowGraph) : Extends g g :=
  ⟨Nat.le_refl _, fun _ _ => rfl, fun _ h => h, fun _ h => h, fun _ h => h⟩

theorem trans {middle : FlowGraph} (h : Extends old middle) (h' : Extends middle new) :
    Extends old new where
  size_le := Nat.le_trans h.size_le h'.size_le
  core_eq id hid := (h'.core_eq id (Nat.lt_of_lt_of_le hid h.size_le)).trans (h.core_eq id hid)
  edges edge hedge := h'.edges edge (h.edges edge hedge)
  links link hlink := h'.links link (h.links link hlink)
  bindings binding hbinding := h'.bindings binding (h.bindings binding hbinding)

/-- Nodes keep what does not depend on the details that may change. -/
theorem keeps {α : Type} (h : Extends old new) (f : NodeKind → α)
    (hf : ∀ kind, f kind.core = f kind) (hid : id < old.nodes.size) :
    f (new.kind id) = f (old.kind id) :=
  NodeKind.eq_of_core_eq f hf (h.core_eq id hid)

theorem op?_eq (h : Extends old new) (hid : id < old.nodes.size) : new.op? id = old.op? id :=
  h.keeps NodeKind.op? NodeKind.op?_core hid

theorem op?_some (h : Extends old new) {op : Op} (hop : old.op? id = some op) :
    new.op? id = some op :=
  (h.op?_eq (lt_size_of_op? hop)).trans hop

theorem isOp_eq (h : Extends old new) (hid : id < old.nodes.size) : new.isOp id = old.isOp id :=
  h.keeps NodeKind.isOp NodeKind.isOp_core hid

theorem hasEdge (h : Extends old new) {src dst : NodeId} (hedge : old.hasEdge src dst) :
    new.hasEdge src dst := by
  rw [hasEdge_iff] at hedge ⊢
  obtain ⟨edge, hmem, hends⟩ := hedge
  exact ⟨edge, h.edges edge hmem, hends⟩

end Extends

/-- A node of the graph that stands for values, and not for an operation. -/
def HasValue (g : FlowGraph) (id : NodeId) : Prop :=
  id < g.nodes.size ∧ g.isOp id = false

def HasVar (g : FlowGraph) (id : NodeId) : Prop :=
  id < g.nodes.size ∧ (g.kind id).isVar = true

theorem HasVar.hasValue (h : g.HasVar id) : g.HasValue id := by
  refine ⟨h.1, ?_⟩
  have hvar := h.2
  unfold isOp
  cases hkind : g.kind id <;> simp_all [NodeKind.isVar, NodeKind.isOp, NodeKind.op?]

theorem HasValue.of_isObject (h : (g.kind id).isObject) : g.HasValue id := by
  refine ⟨lt_size_of_isObject h, ?_⟩
  unfold isOp
  cases hkind : g.kind id <;> simp_all [NodeKind.isObject, NodeKind.isOp, NodeKind.op?]

theorem HasValue.mono (hg : Extends old new) (h : old.HasValue id) : new.HasValue id :=
  ⟨Nat.lt_of_lt_of_le h.1 hg.size_le, (hg.isOp_eq h.1).trans h.2⟩

theorem HasVar.mono (hg : Extends old new) (h : old.HasVar id) : new.HasVar id :=
  ⟨Nat.lt_of_lt_of_le h.1 hg.size_le,
    (hg.keeps NodeKind.isVar NodeKind.isVar_core h.1).trans h.2⟩

def HasObject (g : FlowGraph) (id : NodeId) : Prop := (g.kind id).isObject = true

theorem HasObject.hasValue (h : g.HasObject id) : g.HasValue id := .of_isObject h

theorem HasObject.mono (hg : Extends old new) (h : old.HasObject id) : new.HasObject id :=
  (hg.keeps NodeKind.isObject NodeKind.isObject_core (lt_size_of_isObject h)).trans h

/-- A node of the graph that stands for values and that they may flow to. -/
def HasPlace (g : FlowGraph) (id : NodeId) : Prop :=
  g.HasValue id ∧ (g.kind id).takesFlow = true

theorem HasVar.hasPlace (h : g.HasVar id) : g.HasPlace id := by
  refine ⟨h.hasValue, ?_⟩
  have hvar := h.2
  cases hkind : g.kind id <;> simp_all [NodeKind.isVar, NodeKind.takesFlow]

theorem HasPlace.mono (hg : Extends old new) (h : old.HasPlace id) : new.HasPlace id :=
  ⟨h.1.mono hg, (hg.keeps NodeKind.takesFlow NodeKind.takesFlow_core h.1.1).trans h.2⟩

/-! ## Adding nodes -/

theorem node_push (n : Node) :
    ({ g with nodes := g.nodes.push n } : FlowGraph).node id =
      if id = g.nodes.size then n else g.node id := by
  simp only [FlowGraph.node, Array.getD_eq_getD_getElem?, Array.getElem?_push]
  split <;> rfl

@[simp] theorem add_fst (kind : NodeKind) : (add kind g).1 = g.nodes.size := rfl

@[simp] theorem add_size (kind : NodeKind) :
    (add kind g).2.nodes.size = g.nodes.size + 1 := by simp [add]

/-- The new node stands for what it was made for. -/
theorem kind_add (kind : NodeKind) :
    (add kind g).2.kind id = if id = g.nodes.size then kind else g.kind id := by
  simp only [FlowGraph.kind, add, node_push]
  split <;> rfl

theorem extends_add (kind : NodeKind) : Extends g (add kind g).2 where
  size_le := by simp
  core_eq id hid := by rw [kind_add, if_neg (Nat.ne_of_lt hid)]
  edges _ h := h
  links _ h := h
  bindings _ h := h

theorem find?_some {key : NodeKey} (h : g.find? key = some id) :
    id < g.nodes.size ∧ (g.kind id).key? = some key := by
  obtain ⟨hsize, hkey, _⟩ := Array.findIdx?_eq_some_iff_getElem.mp h
  refine ⟨hsize, ?_⟩
  simpa [kind, node, Array.getD, hsize] using hkey

/-- The node of an identifier is found by it. -/
theorem kind_of_find?_id {kind : IdKind}
    (h : g.find? (.id kind v) = some id) : g.kind id = .id kind v := by
  have hkey := (find?_some h).2
  cases hkind : g.kind id with
  | id kind v =>
    rw [hkind] at hkey
    cases hkey
    rfl
  | _ =>
    rw [hkind] at hkey
    cases hkey

theorem find?_eq_some_iff {key : NodeKey} :
    g.find? key = some id ↔ id < g.nodes.size ∧ (g.kind id).key? = some key ∧
      ∀ other < id, (g.kind other).key? ≠ some key := by
  have hkind : ∀ other (h : other < g.nodes.size), g.kind other = g.nodes[other].kind :=
    fun other h => by simp [kind, node, Array.getD, h]
  rw [find?, Array.findIdx?_eq_some_iff_getElem]
  constructor
  · rintro ⟨hsize, hkey, hfirst⟩
    refine ⟨hsize, by simpa [hkind id hsize] using hkey, fun other hother => ?_⟩
    rw [hkind other (Nat.lt_trans hother hsize)]
    simpa using hfirst other hother
  · rintro ⟨hsize, hkey, hfirst⟩
    refine ⟨hsize, by simpa [hkind id hsize] using hkey, fun other hother => ?_⟩
    have hne := hfirst other hother
    rw [hkind other (Nat.lt_trans hother hsize)] at hne
    simpa using hne

/-- An old node is found exactly if it was. -/
theorem Extends.find?_eq_iff (hg : Extends old new) {key : NodeKey} (hid : id < old.nodes.size) :
    new.find? key = some id ↔ old.find? key = some id := by
  have hkeep : ∀ other < old.nodes.size, (new.kind other).key? = (old.kind other).key? :=
    fun other => hg.keeps NodeKind.key? NodeKind.key?_core
  rw [find?_eq_some_iff, find?_eq_some_iff, hkeep id hid]
  refine and_congr (iff_of_true (Nat.lt_of_lt_of_le hid hg.size_le) hid)
    (and_congr_right fun _ => forall₂_congr fun other hother => ?_)
  rw [hkeep other (Nat.lt_trans hother hid)]

theorem Extends.find?_eq (hg : Extends old new) {key : NodeKey} (h : old.find? key = some id) :
    new.find? key = some id :=
  (hg.find?_eq_iff (find?_some h).1).mpr h

theorem Extends.find?_eq_of_lt (hg : Extends old new) {key : NodeKey}
    (h : new.find? key = some id) (hid : id < old.nodes.size) : old.find? key = some id :=
  (hg.find?_eq_iff hid).mp h

/-- A shared node is found, or it is the new last one. -/
theorem share_cases (kind : NodeKind) :
    (∃ id key, kind.key? = some key ∧ g.find? key = some id ∧
      share kind g = ((id, false), g)) ∨
    share kind g = ((g.nodes.size, true), (add kind g).2) := by
  unfold share
  cases hkey : kind.key? with
  | none => exact Or.inr rfl
  | some key =>
    rw [Option.bind_some]
    cases hfind : g.find? key with
    | none => exact Or.inr rfl
    | some id => exact Or.inl ⟨id, key, rfl, hfind, rfl⟩

@[simp] theorem share_edges (kind : NodeKind) : (share kind g).2.edges = g.edges := by
  rcases g.share_cases kind with ⟨_, _, _, _, h⟩ | h <;> rw [h]
  rfl

theorem share_bindings (kind : NodeKind) : (share kind g).2.bindings = g.bindings := by
  rcases g.share_cases kind with ⟨_, _, _, _, h⟩ | h <;> rw [h]
  rfl

theorem extends_share (kind : NodeKind) : Extends g (share kind g).2 := by
  rcases g.share_cases kind with ⟨_, _, _, _, h⟩ | h <;> rw [h]
  · exact .refl g
  · exact extends_add kind

theorem share_key (kind : NodeKind) {key : NodeKey} (hkey : kind.key? = some key) :
    (share kind g).1.1 < (share kind g).2.nodes.size ∧
      ((share kind g).2.kind (share kind g).1.1).key? = some key := by
  rcases g.share_cases kind with ⟨id, found, hfound, hfind, h⟩ | h <;> rw [h]
  · rw [hkey, Option.some.injEq] at hfound
    exact find?_some (hfound ▸ hfind)
  · simpa [kind_add] using hkey

theorem key?_ne_of_find?_eq_none {key : NodeKey} (h : g.find? key = none)
    (hid : id < g.nodes.size) : (g.kind id).key? ≠ some key := by
  have hnone := Array.findIdx?_eq_none_iff.mp h g.nodes[id] (Array.getElem_mem hid)
  simpa [kind, node, Array.getD, hid] using hnone

theorem find?_share (kind : NodeKind) {key : NodeKey} (hkey : kind.key? = some key) :
    (share kind g).2.find? key = some (share kind g).1.1 := by
  unfold share
  rw [hkey, Option.bind_some]
  cases hfind : g.find? key with
  | some id => exact hfind
  | none =>
    refine find?_eq_some_iff.mpr ⟨by simp, by simpa [kind_add] using hkey, fun other hother => ?_⟩
    have hother : other < g.nodes.size := hother
    rw [kind_add, if_neg (Nat.ne_of_lt hother)]
    exact key?_ne_of_find?_eq_none hfind hother

theorem HasValue.of_key {key : NodeKey} (hsize : id < g.nodes.size)
    (hkey : (g.kind id).key? = some key) : g.HasValue id := by
  refine ⟨hsize, ?_⟩
  unfold isOp
  cases hkind : g.kind id <;> simp_all [NodeKind.key?, NodeKind.isOp, NodeKind.op?]

theorem HasValue.of_find? {key : NodeKey} (h : g.find? key = some id) : g.HasValue id :=
  .of_key (find?_some h).1 (find?_some h).2

theorem hasValue_share {kind : NodeKind} (hkey : kind.key?.isSome) :
    (share kind g).2.HasValue (share kind g).1.1 := by
  obtain ⟨key, hkey⟩ := Option.isSome_iff_exists.mp hkey
  exact .of_key (g.share_key kind hkey).1 (g.share_key kind hkey).2

end FlowGraph

end WidgetFlow
