import WidgetFlow.Proofs.Identifiers
import WidgetFlow.Proofs.Solution.Pauses

/-!
# The shape of the flow

An operation stands between its slots: values flow to it from its receiver and its parameter only,
and from it to its result only. Beside operations, values flow to variables and fields, and never to
what they start from (`FlowGraph.Shaped`).

The graph of a program that has been read is so, and no pause of the solving changes it
(`Solving.flow_shaped`). Inflation and the binding of listeners let new values flow only to
variables (`Resumes.aimed`), and nothing else makes edges while a graph is solved.
-/

namespace WidgetFlow

namespace FlowGraph

variable {g : FlowGraph}

/-- Operations stand between their slots, and values flow to variables, fields and operations. -/
structure Shaped (g : FlowGraph) : Prop where
  into_op : ∀ id op, g.op? id = some op → ∀ src,
    src ∈ g.predecessors id ↔ op.receiver = some src ∨ op.parameter = some src
  from_op : ∀ id op, g.op? id = some op → ∀ dst,
    dst ∈ g.successors id ↔ op.result = some dst
  result_isVar : ∀ id op, g.op? id = some op → ∀ res, op.result = some res →
    (g.kind res).isVar
  slot_notOp : ∀ id op, g.op? id = some op → ∀ slot,
    op.receiver = some slot ∨ op.parameter = some slot ∨ op.result = some slot → ¬ g.isOp slot
  takesFlow : ∀ id, g.predecessors id ≠ [] → (g.kind id).takesFlow

theorem WellFormed.shaped (h : g.WellFormed) (haimed : Aimed {} g) : g.Shaped where
  into_op id op hop src := by
    rw [mem_predecessors]
    constructor
    · intro hedge
      obtain ⟨edge, hmem, rfl, rfl⟩ := hasEdge_iff.mp hedge
      exact h.edge_into_op edge hmem op hop
    · rintro (hreceiver | hparameter)
      · exact (h.slot_edges id op hop).receiver src hreceiver
      · exact (h.slot_edges id op hop).parameter src hparameter
  from_op id op hop dst := by
    rw [mem_successors]
    refine ⟨fun hedge => ?_, (h.slot_edges id op hop).result dst⟩
    obtain ⟨edge, hmem, rfl, rfl⟩ := hasEdge_iff.mp hedge
    exact h.edge_from_op edge hmem op hop
  result_isVar id op hop res hresult := ((h.slots id op hop).result res hresult).2
  slot_notOp id op hop slot hslot := by
    have hvalue : g.HasValue slot := by
      rcases hslot with hreceiver | hparameter | hresult
      · exact (h.slots id op hop).receiver slot hreceiver
      · exact (h.slots id op hop).parameter slot hparameter
      · exact ((h.slots id op hop).result slot hresult).hasValue
    rw [hvalue.2]
    exact Bool.false_ne_true
  takesFlow id hsome := by
    obtain ⟨src, hsource⟩ := List.exists_mem_of_ne_nil _ hsome
    obtain ⟨edge, hmem, _, rfl⟩ := hasEdge_iff.mp (mem_predecessors.mp hsource)
    exact (haimed edge hmem).resolve_left (by simp)

end FlowGraph

namespace Solving

open Analysis FlowGraph

variable {ctx : Context} {g : FlowGraph} {s t : Progress Notes}

/-! ## New edges while a graph is solved -/

/-- Only the binding of listeners makes edges in a pass, and these lead to variables. -/
theorem Move.aimed {stale stale' : Bool} (h : Move ctx s t stale stale')
    (hs : s.graph.WellFormed) (haimed : Aimed {} s.graph) : Aimed {} t.graph := by
  cases h with
  | change hchange =>
    have hsteady := hchange.calm.steady
    exact haimed.of_extends hs hsteady.toExtends fun _ hedge => .inl (hsteady.edges_eq ▸ hedge)
  | bind hop hkind hprebound hview hlistener htied =>
    have hg : Extends s.graph t.graph := htied.ties.toExtends
    intro edge hedge
    rcases htied.ties.edges_from _ _ (hasEdge_iff.mpr ⟨edge, hedge, rfl, rfl⟩) with
      hold | ⟨var, _, hfind⟩
    · obtain ⟨other, hother, _, htarget⟩ := hasEdge_iff.mp hold
      have hsize := (hs.edge_ends other hother).2
      have htakes := (haimed other hother).resolve_left (by simp)
      rw [← htarget]
      exact .inr ((hg.keeps NodeKind.takesFlow NodeKind.takesFlow_core hsize).trans htakes)
    · have hkey := (find?_some hfind).2
      refine .inr ?_
      cases hkind : t.graph.kind edge.target <;> rw [hkind] at hkey <;> cases hkey
      rfl
  | trace hretraced => exact hretraced.graph_eq ▸ haimed

theorem Resumes.aimed {first last : Pause} (h : Resumes ctx first last)
    (hsober : Sober ctx g first) (haimed : Aimed {} first.state.graph) :
    Aimed {} last.state.graph := by
  have hwell : first.state.graph.WellFormed := hsober.tidy.sound.wellFormed
  -- what is inflated starts from the state of the pause
  have hinflated : ∀ {last : Progress Notes}, Extends first.state.graph last.graph →
      Inflated ctx first.state last → Aimed {} last.graph := fun hg hlast =>
    haimed.of_extends hwell hg hlast.aimed
  cases h with
  | constants houtcome => exact ((arrives_constants hsober.1).gives _ _ houtcome).graph_eq ▸ haimed
  | windows houtcome => exact ((arrives_windows hsober.1).gives _ _ houtcome).graph_eq ▸ haimed
  | menus houtcome => exact ((arrives_menus hsober.1).gives _ _ houtcome).graph_eq ▸ haimed
  | trace houtcome => exact ((runs_tracePaths ctx _).gives _ _ houtcome).graph_eq ▸ haimed
  | layout houtcome =>
    obtain ⟨origin, hs⟩ := hsober
    have hlast := (ensures_inflateAt _).gives (.refl _) hs.restart _ _ houtcome
    exact hinflated hlast.1 hlast.2.1
  | item houtcome =>
    obtain ⟨origin, hs⟩ := hsober
    have hlast := (ensures_inflateRow _).gives (.refl _) hs.restart _ _ houtcome
    exact hinflated hlast.1 hlast.2.1
  | visit houtcome =>
    have hstep : ∀ old new, Tidy ctx old.state → Step ctx old new → Aimed {} old.state.graph →
        Aimed {} new.state.graph := fun _ _ htidy hstep =>
      hstep.move.aimed htidy.sound.wellFormed
    exact Moves.keeps hsober.tidy (fun old new htidy _ => hstep old new htidy)
      (((runs_visit hsober _).gives _ _ houtcome).moves false) haimed
  | _ => exact haimed

/-! ## Every graph has the shape -/

/-- The graph of a program that has been read has its operations between their slots and lets values
flow to variables, fields and operations only, and so has the graph in every pause of the solving. -/
theorem flow_shaped {program : Program} (hread : Scene.ofProgram program = .ok ctx.scene)
    {wired : Progress Wiring.Notes} (h : ctx.wire = (.ok (), wired)) :
    wired.graph.Shaped ∧
      ∀ pause, Paused ctx wired.graph wired.policy pause → pause.state.graph.Shaped := by
  have hgraph := Context.wellFormed_wire h
  have haimed := Context.aimed_wire (Scene.assignable_ofProgram hread) h
  refine ⟨hgraph.1.shaped haimed, fun pause hpause => ?_⟩
  obtain ⟨hsober, hlast⟩ := Paused.keeps (fun pause => Aimed {} pause.state.graph) hgraph haimed
    (fun _ _ hsober hresumes => hresumes.aimed hsober) hpause
  exact hsober.tidy.sound.wellFormed.shaped hlast

theorem flow_shaped_shop :
    ∃ wired, Sample.shop.wire = (.ok (), wired) ∧ wired.graph.Shaped ∧
      ∀ pause, Paused Sample.shop wired.graph wired.policy pause → pause.state.graph.Shaped := by
  obtain ⟨out, h, _⟩ := Sample.shop_analyzed
  obtain ⟨wired, solved, hwire, _⟩ := Context.analyze_ok h
  exact ⟨wired, hwire, flow_shaped Sample.shopScene_read hwire⟩

end Solving

end WidgetFlow
