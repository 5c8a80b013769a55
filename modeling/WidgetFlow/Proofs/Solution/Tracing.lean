import WidgetFlow.Proofs.Solution.Bonds

/-!
# Paths are traced in time

`Traced` says that all paths of a graph are known and that whatever is at their ends has arrived.
Between the visits of operations, the paths are traced whenever the graph has got an edge or a
handler that it did not have at the origin (`Fresh`). Paths that are known stay so if flow is kept
(`Channels.leads`).
-/

namespace WidgetFlow

theorem NodeKind.isProducer_core (kind : NodeKind) : kind.core.isProducer = kind.isProducer := by
  cases kind <;> rfl

theorem Inlet.suits_core (i : Inlet) (kind : NodeKind) :
    i.suits kind.core = i.suits kind := by
  cases i <;> cases kind <;> rfl

namespace Solving

open Analysis FlowGraph

variable {ctx : Context} {i : Inlet} {src dst : NodeId}

theorem Leads.congr {old new : FlowGraph} (h : Leads old i src dst)
    (hproducer : (new.kind src).isProducer = (old.kind src).isProducer)
    (hobject : (new.kind src).isObject = (old.kind src).isObject)
    (hflows : FlowsInto old i src dst → FlowsInto new i src dst) :
    Leads new i src dst := by
  refine ⟨by rw [hproducer, hobject]; exact h.1, ?_, h.2.2.1, hflows h.2.2.2⟩
  cases i with
  | parameter => exact hproducer.trans h.2.1
  | receiver => exact hproducer.trans h.2.1
  | listener => rfl

/-! ## Flow that is kept -/

section Channels

variable {size : Nat} {old new : FlowGraph}

/-- One graph has all flow between the nodes below a number that the other has, and all edges of the
other come from these nodes. -/
structure Channels (size : Nat) (old new : FlowGraph) : Prop where
  op?_eq : ∀ id, new.op? id = old.op? id
  isProducer_eq : ∀ id, (new.kind id).isProducer = (old.kind id).isProducer
  isObject_eq : ∀ id, (new.kind id).isObject = (old.kind id).isObject
  slots : ∀ id op, old.op? id = some op →
    ∀ n, op.receiver = some n ∨ op.parameter = some n → n < size
  sources : ∀ src dst, old.hasEdge src dst → src < size
  edges : ∀ src dst, dst < size → old.hasEdge src dst → new.hasEdge src dst

namespace Channels

theorem isOp_eq (h : Channels size old new) (id : NodeId) : new.isOp id = old.isOp id := by
  rw [Bool.eq_iff_iff, isOp_iff, isOp_iff, h.op?_eq]

theorem flowsTo (h : Channels size old new) (htarget : dst < size) {s : NodeId}
    (hpath : Relation.ReflTransGen (old.FlowsTo s) s dst) :
    Relation.ReflTransGen (new.FlowsTo s) s dst := by
  induction hpath with
  | refl => exact .refl
  | tail _ hstep ih =>
    refine (ih (h.sources _ _ hstep.2)).tail ⟨?_, h.edges _ _ htarget hstep.2⟩
    rw [h.isOp_eq]
    exact hstep.1

theorem flowsInto (h : Channels size old new)
    (hflows : FlowsInto old i src dst) : FlowsInto new i src dst := by
  obtain ⟨op, n, hop, htakes, hnode, hreach⟩ := hflows
  refine ⟨op, n, (h.op?_eq dst).trans hop, htakes, hnode, ?_⟩
  rw [mem_forwardReachable] at hreach ⊢
  exact h.flowsTo (h.slots dst op hop n (Inlet.slot_of_node? hnode)) hreach

theorem leads (h : Channels size old new) (hleads : Leads old i src dst) :
    Leads new i src dst :=
  hleads.congr (h.isProducer_eq src) (h.isObject_eq src) h.flowsInto

end Channels

end Channels

/-! ## Traced paths -/

section Traced

variable {old new : Progress Notes}

/-- There are no other paths in a graph that gets neither nodes nor edges. -/
theorem Leads.of_steady {old new : FlowGraph} (h : Leads new i src dst)
    (hsteady : Steady old new) (hold : old.WellFormed) : Leads old i src dst := by
  have hsource : src < old.nodes.size := hsteady.size_eq ▸ h.lt_size
  refine h.congr ?_ ?_ fun hflows => hflows.of_sprouts hsteady.toDevelops
    (sprouts_of_steady hsteady) hold hsource
  · exact (hsteady.keeps NodeKind.isProducer NodeKind.isProducer_core hsource).symm
  · exact (hsteady.keeps NodeKind.isObject NodeKind.isObject_core hsource).symm

/-- All paths of the graph are known, and the objects at their ends have arrived. -/
structure Traced (ctx : Context) (st : Progress Notes) : Prop where
  sources : ∀ (i : Inlet) src dst, Leads st.graph i src dst →
    (i.sources st.notes.paths).holds dst src
  menus : ∀ op menu, ShowsMenu st.graph st.notes.solution op menu →
    (Inlet.receiver.sources st.notes.paths).holds op menu
  values : ∀ (i : Inlet) op o, (i.sources st.notes.paths).holds op o →
    st.graph.HasObject o → i.admits ctx.hierarchy st.graph o op →
      i.suits (st.graph.kind o) → (i.values st.notes.solution).holds op o

theorem Retraced.traced (h : Retraced ctx old new) (hwell : old.graph.WellFormed) :
    Traced ctx new where
  sources i src dst hleads := by
    rw [h.graph_eq] at hleads
    exact (h.sources_iff hwell).mpr (.inr (.inl hleads))
  menus op menu hshows := by
    rw [h.graph_eq, h.notes_eq] at hshows
    exact (h.sources_iff hwell).mpr (.inl ⟨rfl, hshows⟩)
  values i op o hsource hobject hadmits hsuits := by
    rw [h.graph_eq] at hobject hadmits hsuits
    exact (h.holds_iff i op o).mpr (.inl ⟨hsource, hobject, hadmits, hsuits⟩)

/-- Paths stay traced as long as there is no new flow. -/
theorem Traced.calm (h : Traced ctx old) (hcalm : Calm old new) (hadvances : Advances old new)
    (hold : old.graph.WellFormed) : Traced ctx new where
  sources i src dst hleads := by
    rw [hcalm.paths_eq]
    exact h.sources i src dst (hleads.of_steady hcalm.steady hold)
  menus op menu hshows := by
    rw [hcalm.paths_eq]
    refine h.menus op menu ?_
    rwa [ShowsMenu, hcalm.optionsMenus_eq, hcalm.contextMenus_eq, opIs,
      hcalm.steady.op?_eq] at hshows
  values i op o hsource hobject hadmits hsuits := by
    have hobject := hadvances.1.hasObject_iff.mp hobject
    have hsize := lt_size_of_isObject hobject
    rw [hcalm.paths_eq] at hsource
    rw [Inlet.admits_eq hcalm.steady.toDevelops hold hsize] at hadmits
    rw [hcalm.steady.keeps _ i.suits_core hsize] at hsuits
    exact hadvances.2.values i op o
      (h.values i op o hsource hobject hadmits hsuits)

end Traced

/-! ## Moves -/

/-- If the paths are stale, there is something new in the graph, and if they are not, then they
have been traced since there was. -/
structure Fresh (ctx : Context) (origin : FlowGraph) (stage : Stage) : Prop where
  grew : stage.stale = true → Grew origin stage.state.graph
  traced : stage.stale = false → Grew origin stage.state.graph → Traced ctx stage.state

theorem Step.fresh {origin : FlowGraph} {old new : Stage} (h : Step ctx old new)
    (hold : old.state.graph.WellFormed) (horigin : Extends origin old.state.graph)
    (hfresh : Fresh ctx origin old) : Fresh ctx origin new := by
  have hadvances := h.advances
  have hg : Extends old.state.graph new.state.graph := hadvances.1.toExtends
  obtain ⟨old, stale⟩ := old
  obtain ⟨new, stale'⟩ := new
  cases h.move with
  | change hchange =>
    have hcalm : Calm old new := hchange.calm
    refine ⟨fun hstale => (hfresh.grew hstale).after hg, fun hstale hgrew => ?_⟩
    refine (hfresh.traced hstale ?_).calm hcalm hadvances hold
    simpa only [Grew, hasEdge, hcalm.steady.edges_eq, hcalm.steady.bindings_eq] using hgrew
  | bind hop hkind hprebound hview hlistener htied =>
    refine ⟨fun hstale => ?_, fun hstale hgrew => ?_⟩
    · rcases Bool.or_eq_true_iff.mp hstale with hstale | hchanged
      · exact (hfresh.grew hstale).after hg
      · exact (htied.grew hchanged).before horigin
    -- nothing new has been bound, so the graph is as it was
    · obtain ⟨hstale, hchanged⟩ := Bool.or_eq_false_iff.mp hstale
      have hgraph : new.graph = old.graph := htied.quiet hold hchanged
      dsimp only at hgrew ⊢
      rw [hgraph] at hgrew
      obtain ⟨hsources, hmenus, hvalues⟩ := hfresh.traced hstale hgrew
      constructor <;> rw [hgraph, htied.notes_eq] <;> assumption
  | trace htraced =>
    exact ⟨fun hstale => absurd hstale Bool.false_ne_true, fun _ _ =>
      htraced.traced hold⟩

theorem Moves.fresh {s : Progress Notes} {last : Stage} (h : Moves ctx ⟨s, false⟩ last)
    (hs : Tidy ctx s) : Fresh ctx s.graph last := by
  refine Moves.keeps hs (fun _ _ htidy hadvances hstep hfresh =>
    hstep.fresh htidy.sound.wellFormed hadvances.1.toExtends hfresh) h ⟨nofun, fun _ hgrew => ?_⟩
  rcases hgrew with ⟨_, _, hedge, hnew⟩ | ⟨_, hbinding, hnew⟩
  · exact absurd hedge hnew
  · exact absurd hbinding hnew

end Solving

end WidgetFlow
