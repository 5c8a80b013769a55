import WidgetFlow.Proofs.Solution.Passes
import WidgetFlow.Proofs.Wiring.Graph

/-!
# Before the passes

What the constants, windows and menus reach is recorded and all resources are inflated before the
first pass over the operations. The passes then start from a proper state, whose windows and
identifiers are exactly those that flow to operations in the graph of the program (`runs_prepare`).
Where violations are recorded, a graph is solved to the end (`runs_solve`).
-/

namespace WidgetFlow.Solving

open Analysis FlowGraph

variable {ctx : Context} {g : FlowGraph}

def WindowsFrom (g : FlowGraph) (sol : Solution) : Prop :=
  ∀ op win, sol.windows.holds op win ↔
    (g.kind win).isWindow ∧ Receives g (g.forwardReachable win) op

/-! ## Arrivals -/

/-- What operations have done: what they have given, the roots that windows have got, and what has
been bound. -/
def effects (ns : Notes) :
    NodeRelation × NodeRelation × NodeRelation × List (NodeId × NodeId × NodeId) :=
  (ns.solution.results, ns.solution.activityRoots, ns.solution.dialogRoots, ns.bound)

/-- What an arrival does, whatever it is that arrives: operations have done nothing by it. -/
structure Arrives (ctx : Context) (s t : Progress Notes) : Prop where
  tidy : Tidy ctx t
  graph_eq : t.graph = s.graph
  effects_eq : effects t.notes = effects s.notes

section Arrives

variable {s : Progress Notes} {part : Solving Unit} (hs : Tidy ctx s)
include hs

theorem arrives_of_tidy
    (htidy : Runs part s fun _ t =>
      Evolves Eq (Notes.StaysTidy ctx s.graph) s t)
    (hkept : Keeps (Evolves Eq (Notes.Same effects)) part) :
    Runs part s fun _ t => Arrives ctx s t :=
  (htidy.and (hkept s).gives).weaken fun _ _ ht =>
    ⟨hs.evolve ht.1, ht.1.1.symm, ht.2.2⟩

theorem arrives_constants : Runs arriveConstants s fun _ t => Arrives ctx s t :=
  arrives_of_tidy hs
    (keeps_arriveConstants (fun _ _ _ _ hfits hfiltered => ⟨{ hfits with }, { hfiltered with }⟩)
      s)
    (keeps_arriveConstants fun _ _ _ _ => rfl)

theorem arrives_windows : Runs arriveWindows s fun _ t => Arrives ctx s t :=
  arrives_of_tidy hs (runs_arriveWindows fun _ _ _ => tidy_arriveWindow)
    (keeps_arriveWindows fun _ _ _ => rfl)

theorem arrives_menus : Runs arriveMenus s fun _ t => Arrives ctx s t :=
  arrives_of_tidy hs
    (runs_arriveMenus (fun _ _ _ => tidy_addOptionsMenu) fun _ _ _ => tidy_addContextMenu)
    (keeps_arriveMenus fun _ _ _ => rfl)

end Arrives

/-- Nothing is known of a graph without containment. -/
theorem tidy_empty (ctx : Context) (hgraph : g.WellFormed ∧ g.links = #[])
    (policy : Policy) : Tidy ctx { graph := g, policy, notes := {} } :=
  ⟨⟨hgraph.1, fits_empty g⟩, .empty ctx hgraph.2⟩

/-- What has been recorded before any path is traced. -/
structure Arrived (ctx : Context) (g : FlowGraph) (st : Progress Notes) : Prop where
  tidy : Tidy ctx st
  graph_eq : st.graph = g
  windows : WindowsFrom g st.notes.solution
  ids : IdsFrom g st.notes.solution
  effects_eq : effects st.notes = ({}, {}, {}, [])

def identifiers (sol : Solution) : NodeRelation × NodeRelation × NodeRelation :=
  (sol.layoutIds, sol.menuIds, sol.viewIds)

theorem IdsFrom.congr {old new : Solution} (h : IdsFrom g old)
    (hsame : identifiers new = identifiers old) : IdsFrom g new := by
  obtain ⟨hlayouts, hrest⟩ := Prod.mk.inj hsame
  obtain ⟨hmenus, hviews⟩ := Prod.mk.inj hrest
  exact ⟨hlayouts ▸ h.layouts, hmenus ▸ h.menus, hviews ▸ h.views⟩

/-- What comes before resources are inflated. -/
def arrive (ctx : Context) : Solving Unit := do
  arriveConstants
  arriveWindows
  arriveMenus
  tracePaths ctx

theorem prepare_eq (ctx : Context) :
    prepare ctx = (do arrive ctx; inflateLayouts ctx; inflateMenus ctx) := by
  simp only [prepare, arrive, bind_assoc]

theorem runs_arrive (ctx : Context) (hgraph : g.WellFormed ∧ g.links = #[])
    (policy : Policy) : Runs (arrive ctx) { graph := g, policy, notes := {} } fun _ traced => ∃ arrived,
      Arrived ctx g arrived ∧ Retraced ctx arrived traced := by
  have hwindowed : Keeps (Evolves Eq (Notes.Same fun ns => ns.solution.windows))
      arriveConstants :=
    keeps_arriveConstants fun _ _ _ _ => rfl
  refine (((arrives_constants (tidy_empty ctx hgraph policy)).and (hwindowed _).gives).and
    (gives_arriveConstants g policy)).bind ?_
  rintro _ first ⟨⟨hfirst, _, hwindows⟩, hids⟩
  have hnamed : Keeps (Evolves Eq (Notes.Same fun ns => identifiers ns.solution))
      arriveWindows :=
    keeps_arriveWindows fun _ _ _ => rfl
  refine (((arrives_windows hfirst.tidy).and (hnamed first).gives).and
    (gives_arriveWindows hfirst.tidy.sound.wellFormed)).bind ?_
  rintro _ second ⟨⟨hsecond, _, hids'⟩, hwindows'⟩
  have hkept : Keeps (Evolves Eq (Notes.Same fun ns =>
      (ns.solution.windows, identifiers ns.solution))) arriveMenus :=
    keeps_arriveMenus fun _ _ _ => rfl
  refine ((arrives_menus hsecond.tidy).and (hkept second).gives).bind ?_
  rintro _ third ⟨hthird, _, hsame⟩
  obtain ⟨hwindows'', hids''⟩ := Prod.mk.inj hsame
  have hgraph' : first.graph = g := hfirst.graph_eq
  refine (runs_tracePaths ctx third).weaken fun _ traced htraced => ⟨third, ⟨hthird.tidy, hthird.graph_eq.trans (hsecond.graph_eq.trans hgraph'), ?_,
    (hids.congr hids').congr hids'',
    hthird.effects_eq.trans (hsecond.effects_eq.trans hfirst.effects_eq)⟩, htraced⟩
  -- only the second part records windows
  intro op win
  have hempty : first.notes.solution.windows = {} := hwindows
  rw [hwindows'', hwindows', hempty, hgraph']
  simp

/-! ## Inflation -/

/-- A state in which the passes over the operations may begin. -/
structure Prepared (ctx : Context) (g : FlowGraph) (st : Progress Notes) : Prop
    extends Proper ctx st where
  develops : Develops g st.graph
  windows : WindowsFrom g st.notes.solution
  ids : IdsFrom g st.notes.solution
  given : ∀ op found, st.graph.op? op = some found →
    ∀ v, st.notes.solution.results.holds op v → found.kind = .inflate
  sprouts : Sprouts g st.graph
  unbound : st.notes.bound = []

theorem Retraced.inflated {arrived traced : Progress Notes} (h : Retraced ctx arrived traced)
    (harrived : Tidy ctx arrived) (heffects : effects arrived.notes = ({}, {}, {}, [])) :
    Inflated ctx traced traced := by
  have hwell := harrived.sound.wellFormed
  refine ⟨h.tidy harrived, h.complete hwell, refl_of Develops _, refl_of Sprouts _, .refl _,
    refl_of Notes.Grows _, rfl, ?_⟩
  intro op _ _ o
  have hresults : arrived.notes.solution.results = {} := congrArg Prod.fst heffects
  rw [(h.gathers hwell).2.results_eq, hresults]
  simp

theorem runs_prepare (ctx : Context) (hgraph : g.WellFormed ∧ g.links = #[])
    (policy : Policy) :
    Runs (prepare ctx) { graph := g, policy, notes := {} } fun _ t => Prepared ctx g t := by
  rw [prepare_eq]
  refine (runs_arrive ctx hgraph policy).bind ?_
  rintro _ traced ⟨arrived, harrived, htraced⟩
  obtain ⟨hgraph, hgathers⟩ := htraced.gathers harrived.tidy.sound.wellFormed
  have hgraph : g = traced.graph := harrived.graph_eq.symm.trans hgraph
  have hinflates : Upholds (Inflating ctx traced) traced.graph
      (do inflateLayouts ctx; inflateMenus ctx) :=
    ensures_inflateLayouts.andThen fun _ => ensures_inflateMenus
  refine (hinflates traced (.refl _)
    (htraced.inflated harrived.tidy harrived.effects_eq)).weaken ?_
  rintro _ t ⟨_, ht, _⟩
  have hgrows : arrived.notes.Grows t.notes :=
    trans_of Notes.Grows hgathers.toGrows ht.notes
  refine ⟨⟨ht.tidy, ht.complete, ?_⟩, ?_, ?_, ?_, ht.given, ?_, ?_⟩
  -- look-ups have not given anything that would have to be justified
  · intro op found hop hfind _ o hresult
    rw [ht.given op found hop o hresult] at hfind
    exact absurd hfind Bool.false_ne_true
  · exact hgraph ▸ ht.graph
  · intro op win
    rw [hgrows.windows_eq]
    exact harrived.windows op win
  · refine harrived.ids.congr ?_
    rw [identifiers, hgrows.layoutIds_eq, hgrows.menuIds_eq, hgrows.viewIds_eq]
    rfl
  · exact hgraph ▸ ht.sprouts
  · rw [ht.bound_eq, hgathers.bound_eq]
    exact congrArg (·.2.2.2) harrived.effects_eq

/-- The graph of a program is prepared, and then solved by moves. -/
theorem runs_solve (ctx : Context) (hgraph : g.WellFormed ∧ g.links = #[])
    (policy : Policy) :
    Runs (solve ctx) { graph := g, policy, notes := {} } fun _ t => ∃ s,
      Prepared ctx g s ∧ Moves ctx ⟨s, false⟩ ⟨t, false⟩ :=
  (runs_prepare ctx hgraph policy).bind fun _ s hs => .getGraph
    ((runs_settle _ hs.tidy).weaken fun _ _ hmoves => ⟨s, hs, hmoves⟩)

end WidgetFlow.Solving
