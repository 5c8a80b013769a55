import Mathlib.Data.Finset.Range
import Mathlib.Order.Defs.Unbundled
import WidgetFlow.Proofs.Closure
import WidgetFlow.Proofs.Graph.WellFormed

/-!
# What flows where

The searches of `FlowGraph` find exactly what can be reached: `mem_forwardReachable` says so of
flow, whose paths pass no operation but the one they start at, and `mem_descendants` and
`mem_ancestors` of containment. A `FlowPath` lists the nodes that a path passes:
`mem_forwardReachable_iff_flowPath` and `mem_backwardReachable_iff_flowPath` tell the two ends of
such paths apart.

A path that starts at an old node never meets an edge that starts at a new one. So a graph that only
gets edges from new nodes, as inflation adds them, leaves what old nodes flow to as it was
(`Sprouts.mem_forwardReachable`). If nothing flows to objects, what constants flow to stays the same
even when objects get edges (`Aimed.mem_forwardReachable`).
-/

namespace WidgetFlow

namespace FlowGraph

variable {g old new : FlowGraph} {s src dst : NodeId}

/-! ## Paths -/

/-- A step of flow on a path from a start: an operation is passed only if the path starts at it. -/
def FlowsTo (g : FlowGraph) (s src dst : NodeId) : Prop :=
  (g.isOp src = false ∨ src = s) ∧ g.hasEdge src dst

def Contains (g : FlowGraph) (p c : NodeId) : Prop := ⟨c, p⟩ ∈ g.links

theorem mem_successors : dst ∈ g.successors src ↔ g.hasEdge src dst := by
  rw [hasEdge_iff]
  simp [successors, and_assoc]

theorem mem_children : dst ∈ g.children src ↔ g.Contains src dst := by
  simp only [children, Ordered.mem_sort, List.mem_map, List.mem_filter, decide_eq_true_eq, Contains,
    Array.mem_toList_iff]
  constructor
  · rintro ⟨link, ⟨hmem, rfl⟩, rfl⟩
    exact hmem
  · exact fun hmem => ⟨_, ⟨hmem, rfl⟩, rfl⟩

/-- No child is listed twice if no link is recorded twice. -/
theorem nodup_children (h : g.links.toList.Nodup) (id : NodeId) : (g.children id).Nodup := by
  refine (Ordered.sort_perm _).nodup_iff.mpr (List.Nodup.map_on ?_ (h.filter _))
  rintro ⟨c, _⟩ hlink ⟨other, _⟩ hother rfl
  simp only [List.mem_filter, decide_eq_true_iff] at hlink hother
  rw [hlink.2, hother.2]

theorem ascending_children (h : g.links.toList.Nodup) (id : NodeId) :
    (g.children id).Pairwise (· < ·) := by
  have hle : (g.children id).Pairwise (· ≤ ·) :=
    Ordered.pairwise_sort (fun _ _ => Nat.compare_ne_gt.mp)
      (fun _ _ hgt => Nat.le_of_lt (Nat.compare_eq_gt.mp hgt)) _
  exact hle.imp₂ (fun _ _ => Nat.lt_of_le_of_ne) (nodup_children h id)

theorem ascending_contextMenus (g : FlowGraph) : g.contextMenus.Pairwise (· < ·) := by
  rw [contextMenus, List.pairwise_map, pick, List.pairwise_filterMap]
  refine List.pairwise_lt_range.imp fun hlt first hfirst second hsecond => ?_
  obtain ⟨_, _, rfl⟩ := Option.map_eq_some_iff.mp hfirst
  obtain ⟨_, _, rfl⟩ := Option.map_eq_some_iff.mp hsecond
  exact hlt

theorem mem_parents : dst ∈ g.parents src ↔ g.Contains dst src := by
  simp only [parents, Ordered.mem_sort, List.mem_map, List.mem_filter, decide_eq_true_eq, Contains,
    Array.mem_toList_iff]
  constructor
  · rintro ⟨link, ⟨hmem, rfl⟩, rfl⟩
    exact hmem
  · exact fun hmem => ⟨_, ⟨hmem, rfl⟩, rfl⟩

theorem mem_forwardStep :
    dst ∈ g.forwardStep s src ↔ g.FlowsTo s src dst := by
  unfold forwardStep FlowsTo
  rw [← mem_successors]
  by_cases hop : g.isOp src <;> by_cases hs : src = s <;> simp [hop, hs]

/-- A node flows to exactly those that paths lead to. -/
theorem mem_forwardReachable :
    dst ∈ g.forwardReachable s ↔
      Relation.ReflTransGen (g.FlowsTo s) s dst := by
  have hstep : StepsTo (g.forwardStep s) = g.FlowsTo s := by
    funext src dst
    exact propext mem_forwardStep
  have hsources : ∀ src dst, StepsTo (g.forwardStep s) src dst →
      src ∈ g.edges.toList.map FlowEdge.source := by
    intro src dst htarget
    obtain ⟨edge, hedge, rfl, _⟩ := hasEdge_iff.mp (mem_forwardStep.mp htarget).2
    exact List.mem_map_of_mem (Array.mem_toList_iff.mpr hedge)
  rw [forwardReachable, mem_closure_singleton hsources (by simp), hstep]

/-- A path that leaves its start passes no operation after it has left it for the last time. -/
theorem exists_path_from_next
    (h : Relation.ReflTransGen (g.FlowsTo s) s dst) (hne : dst ≠ s) :
    ∃ next, g.hasEdge s next ∧ Relation.ReflTransGen
      (fun src dst => g.isOp src = false ∧ g.hasEdge src dst)
      next dst := by
  induction h with
  | refl => exact absurd rfl hne
  | @tail src dst _ hstep ih =>
    by_cases hsource : src = s
    · exact ⟨dst, hsource ▸ hstep.2, .refl⟩
    · obtain ⟨next, hedge, hpath⟩ := ih hsource
      exact ⟨next, hedge, hpath.tail ⟨hstep.1.resolve_right hsource, hstep.2⟩⟩

/-- A path of flow through some nodes in between, none of which is an operation. -/
def FlowPath (g : FlowGraph) (src : NodeId) (between : List NodeId) (dst : NodeId) :
    Prop :=
  (src :: (between ++ [dst])).IsChain (fun first second => g.hasEdge first second) ∧
    ∀ n ∈ between, g.isOp n = false

@[simp] theorem flowPath_nil : g.FlowPath src [] dst ↔ g.hasEdge src dst := by
  simp [FlowPath]

@[simp] theorem flowPath_cons {next : NodeId} {rest : List NodeId} :
    g.FlowPath src (next :: rest) dst ↔
      g.hasEdge src next ∧ g.isOp next = false ∧ g.FlowPath next rest dst := by
  simp only [FlowPath, List.cons_append, List.isChain_cons_cons, List.forall_mem_cons]
  tauto

/-- A node flows to itself and to what it leads to. -/
theorem mem_forwardReachable_iff_flowPath :
    dst ∈ g.forwardReachable src ↔
      dst = src ∨ ∃ between, g.FlowPath src between dst := by
  rw [mem_forwardReachable]
  constructor
  · intro hpath
    by_cases hne : dst = src
    · exact .inl hne
    · obtain ⟨next, hedge, hrest⟩ := exists_path_from_next hpath hne
      refine .inr ?_
      clear hpath hne
      induction hrest using Relation.ReflTransGen.head_induction_on generalizing src with
      | refl => exact ⟨[], flowPath_nil.mpr hedge⟩
      | @head first second hstep _ ih =>
        obtain ⟨between, hleads⟩ := ih hstep.2
        exact ⟨first :: between, flowPath_cons.mpr ⟨hedge, hstep.1, hleads⟩⟩
  · rintro (rfl | ⟨between, hleads⟩)
    · exact .refl
    · -- all nodes of the path but its start are passed because they are no operations
      suffices hpath : ∀ {first}, (g.isOp first = false ∨ first = src) →
          g.FlowPath first between dst →
            Relation.ReflTransGen (g.FlowsTo src) first dst from
        hpath (.inr rfl) hleads
      clear hleads
      induction between with
      | nil => exact fun hfirst hleads => .single ⟨hfirst, flowPath_nil.mp hleads⟩
      | cons next rest ih =>
        intro first hfirst hleads
        obtain ⟨hedge, hnext, hrest⟩ := flowPath_cons.mp hleads
        exact .head ⟨hfirst, hedge⟩ (ih (.inl hnext) hrest)

/-! ## Backward -/

theorem mem_predecessors : src ∈ g.predecessors dst ↔ g.hasEdge src dst := by
  rw [hasEdge_iff]
  simp only [predecessors, List.mem_map, List.mem_filter, decide_eq_true_eq, Array.mem_toList_iff]
  exact exists_congr fun edge => by rw [and_assoc, and_comm (a := edge.target = dst)]

/-- The steps of a search backward go against the flow, and from an operation they lead to none. -/
theorem mem_backwardStep :
    src ∈ g.backwardStep s dst ↔
      (g.isOp dst = false ∨ dst = s) ∧
        ¬ (g.isOp src ∧ g.isOp s) ∧ g.hasEdge src dst := by
  unfold backwardStep
  rw [← mem_predecessors]
  by_cases hop : g.isOp dst <;> by_cases htarget : dst = s <;>
    by_cases hs : g.isOp s <;> by_cases hsource : g.isOp src <;>
      simp_all

/-- A node is reached backward by itself and by those that lead to it, but by no operation if it is
one. -/
theorem mem_backwardReachable_iff_flowPath :
    src ∈ g.backwardReachable dst ↔
      src = dst ∨ (∃ between, g.FlowPath src between dst) ∧
        ¬ (g.isOp src ∧ g.isOp dst) := by
  have hsources : ∀ src next, StepsTo (g.backwardStep dst) src next →
      src ∈ g.edges.toList.map FlowEdge.target := by
    intro src next hnext
    obtain ⟨edge, hedge, _, rfl⟩ := hasEdge_iff.mp (mem_backwardStep.mp hnext).2.2
    exact List.mem_map_of_mem (Array.mem_toList_iff.mpr hedge)
  rw [backwardReachable, mem_closure_singleton hsources (by simp)]
  constructor
  · intro hpath
    induction hpath with
    | refl => exact .inl rfl
    | @tail next src _ hstep ih =>
      obtain ⟨hnext, hops, hedge⟩ := mem_backwardStep.mp hstep
      by_cases heq : next = dst
      · exact .inr ⟨⟨[], flowPath_nil.mpr (heq ▸ hedge)⟩, hops⟩
      · obtain ⟨⟨between, hleads⟩, _⟩ := ih.resolve_left heq
        exact .inr ⟨⟨next :: between, flowPath_cons.mpr ⟨hedge, hnext.resolve_right heq, hleads⟩⟩,
          hops⟩
  · rintro (rfl | ⟨⟨between, hleads⟩, hops⟩)
    · exact .refl
    · induction between generalizing src with
      | nil =>
        exact .single (mem_backwardStep.mpr ⟨.inr rfl, hops, flowPath_nil.mp hleads⟩)
      | cons next rest ih =>
        obtain ⟨hedge, hnext, hrest⟩ := flowPath_cons.mp hleads
        have hback := ih (fun hboth => by simp [hnext] at hboth) hrest
        exact hback.tail (mem_backwardStep.mpr ⟨.inl hnext, hops, hedge⟩)

theorem mem_backwardReachable (hs : g.isOp s = false) :
    src ∈ g.backwardReachable s ↔
      Relation.ReflTransGen (g.FlowsTo src) src s := by
  rw [← mem_forwardReachable, mem_forwardReachable_iff_flowPath, mem_backwardReachable_iff_flowPath,
    eq_comm (a := src)]
  simp [hs]

/-! ## Containment -/

/-- Below a node are exactly those that chains of containment lead to. -/
theorem mem_descendants :
    dst ∈ g.descendants s ↔ Relation.ReflTransGen g.Contains s dst := by
  have hstep : StepsTo g.children = g.Contains := by
    funext src dst
    exact propext mem_children
  have hsources : ∀ src dst, StepsTo g.children src dst →
      src ∈ g.links.toList.map Link.parent := by
    intro src dst htarget
    exact List.mem_map.mpr ⟨_, Array.mem_toList_iff.mpr (mem_children.mp htarget), rfl⟩
  rw [descendants, mem_closure_singleton hsources (by simp), hstep]

/-- Above a node are exactly those that chains of containment lead from. -/
theorem mem_ancestors :
    dst ∈ g.ancestors s ↔ Relation.ReflTransGen g.Contains dst s := by
  have hstep : StepsTo g.parents = Function.swap g.Contains := by
    funext src dst
    exact propext mem_parents
  have hsources : ∀ src dst, StepsTo g.parents src dst →
      src ∈ g.links.toList.map Link.child := by
    intro src dst htarget
    exact List.mem_map.mpr ⟨_, Array.mem_toList_iff.mpr (mem_parents.mp htarget), rfl⟩
  rw [ancestors, mem_closure_singleton hsources (by simp), hstep, Relation.reflTransGen_swap]

/-! ## Growth -/

theorem Extends.contains (hg : Extends old new) (h : old.Contains src dst) :
    new.Contains src dst :=
  hg.links _ h

theorem contains_addLink_iff {c p : NodeId} {added : Bool}
    (h : g.addLink c p = .ok (added, new)) :
    new.Contains src dst ↔
      src = p ∧ dst = c ∨ g.Contains src dst := by
  have hlink : (⟨dst, src⟩ : Link) = ⟨c, p⟩ ↔ src = p ∧ dst = c := by
    rw [Link.mk.injEq, and_comm]
  rcases addLink_ok h with ⟨_, rfl, hmem⟩ | ⟨_, rfl, _⟩
  · refine ⟨.inr, fun hor => hor.elim ?_ id⟩
    rintro ⟨rfl, rfl⟩
    exact hmem
  · unfold Contains
    rw [Array.mem_push, hlink, or_comm]

theorem contains_addLink {c p : NodeId} {added : Bool}
    (h : g.addLink c p = .ok (added, new)) : new.Contains p c :=
  (contains_addLink_iff h).mpr (.inl ⟨rfl, rfl⟩)

/-- A node that flows into a slot of an operation flows to the operation. -/
theorem mem_forwardReachable_of_slot (h : g.WellFormed) {op : Op} {id n : NodeId}
    (hop : g.op? id = some op) (hslot : op.receiver = some n ∨ op.parameter = some n)
    (hnode : n ∈ g.forwardReachable s) : id ∈ g.forwardReachable s := by
  rw [mem_forwardReachable] at hnode ⊢
  refine hnode.tail ?_
  rcases hslot with hslot | hslot
  · exact ⟨.inl ((h.slots id op hop).receiver n hslot).2,
      (h.slot_edges id op hop).receiver n hslot⟩
  · exact ⟨.inl ((h.slots id op hop).parameter n hslot).2,
      (h.slot_edges id op hop).parameter n hslot⟩

/-- A node flows to what it flowed to, if it is one of some nodes that get no edges and that no edge
leads away from. -/
theorem mem_forwardReachable_of_closed (inside : NodeId → Prop) (hold : old.WellFormed)
    (hg : Extends old new) (hinside : ∀ id, inside id → id < old.nodes.size)
    (hclosed : ∀ src dst, inside src → new.hasEdge src dst →
      old.hasEdge src dst ∧ inside dst) (hs : inside s) :
    dst ∈ new.forwardReachable s ↔ dst ∈ old.forwardReachable s := by
  rw [mem_forwardReachable, mem_forwardReachable]
  constructor
  · intro hpath
    -- every node of the path is inside, so its edges are old
    suffices hpath' : Relation.ReflTransGen (old.FlowsTo s) s dst ∧ inside dst from
      hpath'.1
    induction hpath with
    | refl => exact ⟨.refl, hs⟩
    | tail _ hstep ih =>
      obtain ⟨hpath, hsource⟩ := ih
      obtain ⟨hedge, htarget⟩ := hclosed _ _ hsource hstep.2
      rw [FlowsTo, hg.isOp_eq (hinside _ hsource)] at hstep
      exact ⟨hpath.tail ⟨hstep.1, hedge⟩, htarget⟩
  · intro hpath
    refine Relation.ReflTransGen.mono (fun src dst hstep => ?_) _ _ hpath
    have hsource := (hold.lt_size_of_hasEdge hstep.2).1
    rw [FlowsTo, hg.isOp_eq hsource]
    exact ⟨hstep.1, hg.hasEdge hstep.2⟩

/-- One graph has more edges than the other only from nodes that the other does not have, and the
same handlers. -/
structure Sprouts (old new : FlowGraph) : Prop extends Extends old new where
  fresh : ∀ edge ∈ new.edges, edge ∈ old.edges ∨ old.nodes.size ≤ edge.source
  bindings_eq : new.bindings = old.bindings

namespace Sprouts

instance : IsPreorder FlowGraph Sprouts where
  refl g := ⟨.refl g, fun _ hedge => .inl hedge, rfl⟩
  trans old middle new h h' := by
    refine ⟨h.toExtends.trans h'.toExtends, fun edge hedge => ?_,
      h'.bindings_eq.trans h.bindings_eq⟩
    rcases h'.fresh edge hedge with hmiddle | hsource
    · exact h.fresh edge hmiddle
    · exact .inr (Nat.le_trans h.size_le hsource)

theorem hasEdge_iff (h : Sprouts old new) (hsource : src < old.nodes.size) :
    new.hasEdge src dst ↔ old.hasEdge src dst := by
  refine ⟨fun hedge => ?_, h.hasEdge⟩
  obtain ⟨edge, hmem, rfl, rfl⟩ := FlowGraph.hasEdge_iff.mp hedge
  rcases h.fresh edge hmem with hold | hnew
  · exact FlowGraph.hasEdge_iff.mpr ⟨edge, hold, rfl, rfl⟩
  · exact absurd hsource (Nat.not_lt.mpr hnew)

theorem mem_forwardReachable (h : Sprouts old new) (hold : old.WellFormed)
    (hs : s < old.nodes.size) :
    dst ∈ new.forwardReachable s ↔ dst ∈ old.forwardReachable s := by
  refine mem_forwardReachable_of_closed (· < old.nodes.size) hold h.toExtends
    (fun _ hinside => hinside) ?_ hs
  intro src dst hsource hedge
  have hedge := (h.hasEdge_iff hsource).mp hedge
  exact ⟨hedge, (hold.lt_size_of_hasEdge hedge).2⟩

end Sprouts

/-- If nothing flows to objects, a node that is no object flows to what it flowed to, even when
objects and new nodes get edges. -/
theorem Aimed.mem_forwardReachable (haimed : Aimed {} old) (hold : old.WellFormed)
    (hg : Extends old new)
    (hedges : ∀ src dst, new.hasEdge src dst →
      old.hasEdge src dst ∨ old.nodes.size ≤ src ∨ new.HasObject src)
    (hs : s < old.nodes.size) (hobject : (old.kind s).isObject = false) :
    dst ∈ new.forwardReachable s ↔ dst ∈ old.forwardReachable s := by
  refine mem_forwardReachable_of_closed
    (fun id => id < old.nodes.size ∧ (old.kind id).isObject = false) hold hg
    (fun _ hinside => hinside.1) ?_ ⟨hs, hobject⟩
  rintro src dst ⟨hsource, hobject⟩ hedge
  have hedge : old.hasEdge src dst := by
    refine (hedges src dst hedge).resolve_right ?_
    rintro (hfresh | hnewObject)
    · exact Nat.not_lt.mpr hfresh hsource
    · rw [HasObject, hg.keeps NodeKind.isObject NodeKind.isObject_core hsource, hobject]
        at hnewObject
      exact Bool.false_ne_true hnewObject
  refine ⟨hedge, (hold.lt_size_of_hasEdge hedge).2, ?_⟩
  obtain ⟨edge, hmem, _, rfl⟩ := FlowGraph.hasEdge_iff.mp hedge
  exact NodeKind.isObject_of_takesFlow ((haimed edge hmem).resolve_left (by simp))

end FlowGraph

/-! ## Both ways -/

open FlowGraph

/-- A node flows to itself and to the ends of all paths that pass no operation in between. Seen from
the other end it is the same, except that no operation is reached from another one. What a node
contains is the closure of the children, what contains it that of the parents, and one is the other
seen from its end. No cycle changes any of this. -/
theorem FlowGraph.reachability_exact (g : FlowGraph) (src dst : NodeId) :
    (dst ∈ g.forwardReachable src ↔
      dst = src ∨ ∃ between, g.FlowPath src between dst) ∧
    (src ∈ g.backwardReachable dst ↔
      src = dst ∨ (∃ between, g.FlowPath src between dst) ∧
        ¬ (g.isOp src ∧ g.isOp dst)) ∧
    (¬ (g.isOp src ∧ g.isOp dst) →
      (dst ∈ g.forwardReachable src ↔ src ∈ g.backwardReachable dst)) ∧
    (dst ∈ g.descendants src ↔ Relation.ReflTransGen
      (fun p c => c ∈ g.children p) src dst) ∧
    (src ∈ g.ancestors dst ↔ Relation.ReflTransGen
      (fun c p => p ∈ g.parents c) dst src) ∧
    (dst ∈ g.descendants src ↔ src ∈ g.ancestors dst) := by
  refine ⟨mem_forwardReachable_iff_flowPath, mem_backwardReachable_iff_flowPath, fun hops => ?_, ?_,
    ?_, mem_descendants.trans mem_ancestors.symm⟩
  · rw [mem_forwardReachable_iff_flowPath, mem_backwardReachable_iff_flowPath,
      and_iff_left hops, eq_comm]
  · simp only [mem_descendants, mem_children]
  · rw [mem_ancestors, ← Relation.reflTransGen_swap]
    simp only [mem_parents]

/-- A graph full of cycles: a variable that takes the children of what it holds and passes them to
another one and back, an operation on that one, and two views that contain each other. -/
def Sample.knot : FlowGraph :=
  let g := (varNode (.named 0 "v") none {}).2
  let g := (varNode (.named 0 "w") none g).2
  let g := (addOp { kind := .findByPlace .children, receiver := some 0, result := some 0 }
    g).2
  let g := (addOp { kind := .setId, receiver := some 1 } g).2
  let g := (addEdge 0 1 none g).2
  let g := (addEdge 1 0 none g).2
  let g := (viewNode "android.widget.FrameLayout" g).2
  let g := (viewNode "android.widget.FrameLayout" g).2
  { g with links := #[{ child := 4, parent := 5 }, { child := 5, parent := 4 }] }

/-- In the knot, the first operation flows to the second variable and is reached from there, but not
from the second operation, which it flows to as well. -/
theorem FlowGraph.reachability_exact_knot :
    1 ∈ Sample.knot.forwardReachable 2 ∧ 2 ∈ Sample.knot.backwardReachable 1 ∧
      3 ∈ Sample.knot.forwardReachable 2 ∧ 2 ∉ Sample.knot.backwardReachable 3 ∧
        4 ∈ Sample.knot.ancestors 4 := by
  have hforward : 1 ∈ Sample.knot.forwardReachable 2 := by decide +kernel
  obtain ⟨_, _, hdual, _⟩ := reachability_exact Sample.knot 2 1
  obtain ⟨_, hback, _⟩ := reachability_exact Sample.knot 2 3
  obtain ⟨_, _, _, _, hancestors, _⟩ := reachability_exact Sample.knot 4 4
  refine ⟨hforward, (hdual (by decide +kernel)).mp hforward, by decide +kernel, ?_,
    hancestors.mpr .refl⟩
  rw [hback]
  rintro (heq | ⟨_, hops⟩)
  · exact absurd heq (by decide)
  · exact hops (by decide +kernel)

end WidgetFlow
