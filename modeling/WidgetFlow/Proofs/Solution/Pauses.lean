import WidgetFlow.Proofs.Outcome

/-!
# The pauses of the solving

Solving a graph goes on operation by operation: first the resources that reach operations are
inflated, then the operations are resolved in passes. A `Pause` is a point before, after or between
these, with what is left to do, and `Resumes` says how the solving goes on from there.

Every run that ends well ends in a pause (`paused_solve`). In every pause the state is tidy
(`Sober.tidy`).
-/

namespace WidgetFlow.Solving

open Analysis FlowGraph

/-! ## From pause to pause -/

/-- How far the solving has come, and what is left to do. -/
inductive Phase where
  | wired
  | constants
  | windows
  | menus
  | layouts (left : List (NodeId × NodeId))
  /-- The menu resources that reach operations are inflated. -/
  | items (left : List (NodeId × List NodeId))
  /-- The operations are resolved, and a pass may have changed something already. -/
  | pass (left : List NodeId) (changed : Bool)

/-- A point between two operations. -/
structure Pause where
  phase : Phase
  state : Progress Notes

variable {ctx : Context} {g : FlowGraph} {s : Progress Notes} {first last : Pause}

/-- The solving goes on from a pause to the next one. -/
inductive Resumes (ctx : Context) : Pause → Pause → Prop
  | constants {s t : Progress Notes}
      (h : arriveConstants.outcome s = (.ok (), t)) :
      Resumes ctx ⟨.wired, s⟩ ⟨.constants, t⟩
  | windows {s t : Progress Notes} (h : arriveWindows.outcome s = (.ok (), t)) :
      Resumes ctx ⟨.constants, s⟩ ⟨.windows, t⟩
  | menus {s t : Progress Notes} (h : arriveMenus.outcome s = (.ok (), t)) :
      Resumes ctx ⟨.windows, s⟩ ⟨.menus, t⟩
  | trace {s t : Progress Notes} (h : (tracePaths ctx).outcome s = (.ok (), t)) :
      Resumes ctx ⟨.menus, s⟩ ⟨.layouts t.notes.solution.layoutIds.pairs, t⟩
  | layout {s t : Progress Notes} {entry : NodeId × NodeId} {left : List (NodeId × NodeId)}
      (h : (inflateAt ctx entry).outcome s = (.ok (), t)) :
      Resumes ctx ⟨.layouts (entry :: left), s⟩ ⟨.layouts left, t⟩
  | items {s : Progress Notes} :
      Resumes ctx ⟨.layouts [], s⟩ ⟨.items s.notes.solution.menuIds.rows, s⟩
  | item {s t : Progress Notes} {row : NodeId × List NodeId}
      {left : List (NodeId × List NodeId)}
      (h : (inflateRow ctx row).outcome s = (.ok (), t)) :
      Resumes ctx ⟨.items (row :: left), s⟩ ⟨.items left, t⟩
  | settle {s : Progress Notes} :
      Resumes ctx ⟨.items [], s⟩ ⟨.pass s.graph.ops false, counted s⟩
  | visit {s t : Progress Notes} {op : NodeId} {left : List NodeId} {changed more : Bool}
      (h : (visit ctx op).outcome s = (.ok more, t)) :
      Resumes ctx ⟨.pass (op :: left) changed, s⟩ ⟨.pass left (changed || more), t⟩
  | again {s : Progress Notes} :
      Resumes ctx ⟨.pass [] true, s⟩ ⟨.pass s.graph.ops false, counted s⟩

def Paused (ctx : Context) (g : FlowGraph) (policy : Policy) : Pause → Prop :=
  Relation.ReflTransGen (Resumes ctx) ⟨.wired, { graph := g, policy, notes := {} }⟩

/-! ## Runs -/

/-- A loop goes from pause to pause if its rounds do. -/
theorem resumes_forM {α : Type} {step : α → Solving Unit} {phase : List α → Phase}
    (hstep : ∀ e left s t, (step e).outcome s = (.ok (), t) →
      Resumes ctx ⟨phase (e :: left), s⟩ ⟨phase left, t⟩)
    (elements : List α) (s : Progress Notes) :
    (elements.forM step).Gives s fun _ t =>
      Relation.ReflTransGen (Resumes ctx) ⟨phase elements, s⟩ ⟨phase [], t⟩ := by
  induction elements generalizing s with
  | nil => exact gives_pure.mpr .refl
  | cons e left ih =>
    refine gives_bind.mpr fun _ middle hmiddle => ?_
    exact (ih middle).weaken fun _ _ => .head (hstep e left s middle hmiddle)

theorem resumes_sweep (ops : List NodeId) (changed : Bool) (s : Progress Notes) :
    (ops.foldlM (fun changed op => do
      let more ← visit ctx op
      pure (changed || more)) changed).Gives s fun changed' t =>
        Relation.ReflTransGen (Resumes ctx) ⟨.pass ops changed, s⟩
          ⟨.pass [] changed', t⟩ := by
  induction ops generalizing changed s with
  | nil => exact gives_pure.mpr .refl
  | cons op left ih =>
    rw [List.foldlM_cons, gives_bind, gives_bind]
    refine fun more middle hmiddle => gives_pure.mpr ?_
    exact (ih (changed || more) middle).weaken fun _ _ => .head (.visit hmiddle)

theorem resumes_pass (s : Progress Notes) :
    (pass ctx).Gives s fun changed t =>
      Relation.ReflTransGen (Resumes ctx) ⟨.pass s.graph.ops false, counted s⟩
        ⟨.pass [] changed, t⟩ :=
  resumes_sweep s.graph.ops false (counted s)

/-- The passes of a settling go from pause to pause. -/
theorem resumes_settle (passes : Nat) (s : Progress Notes) :
    (settle ctx (passes + 1)).Gives s fun _ t => ∃ changed,
      Relation.ReflTransGen (Resumes ctx) ⟨.pass s.graph.ops false, counted s⟩
        ⟨.pass [] changed, t⟩ := by
  induction passes generalizing s with
  | zero =>
    refine gives_bind.mpr ((resumes_pass s).weaken fun changed middle hpass => ?_)
    split
    · exact gives_pure.mpr ⟨changed, hpass⟩
    · exact gives_pure.mpr ⟨changed, hpass⟩
  | succ passes ih =>
    refine gives_bind.mpr ((resumes_pass s).weaken fun changed middle hpass => ?_)
    split
    next hchanged =>
      subst hchanged
      refine (ih middle).weaken ?_
      rintro _ t ⟨changed', hpass'⟩
      exact ⟨changed', (hpass.tail .again).trans hpass'⟩
    next => exact gives_pure.mpr ⟨changed, hpass⟩

/-- A run of the solving that ends well ends in a pause. -/
theorem paused_solve (g : FlowGraph) (policy : Policy) :
    (solve ctx).Gives { graph := g, policy, notes := {} } fun _ t => ∃ changed,
      Paused ctx g policy ⟨.pass [] changed, t⟩ := by
  unfold solve prepare
  simp only [gives_bind]
  intro _ first hfirst _ second hsecond _ third hthird _ traced htraced
  have hpaused : Paused ctx g policy
      ⟨.layouts traced.notes.solution.layoutIds.pairs, traced⟩ :=
    .tail (.tail (.tail (.tail .refl (.constants hfirst)) (.windows hsecond)) (.menus hthird))
      (.trace htraced)
  rw [inflateLayouts_eq, gives_bind, gives_getSolution]
  refine (resumes_forM (fun _ _ _ _ => .layout) _ traced).weaken fun _ inflated hinflated => ?_
  rw [inflateMenus_eq, gives_bind, gives_getSolution]
  refine (resumes_forM (fun _ _ _ _ => .item) _ inflated).weaken fun _ prepared hprepared => ?_
  rw [gives_getGraph]
  refine (resumes_settle _ prepared).weaken ?_
  rintro _ t ⟨changed, ht⟩
  exact ⟨changed, (((hpaused.trans hinflated).tail .items).trans hprepared |>.tail .settle).trans
    ht⟩

/-! ## What holds in every pause -/

/-- The state of a pause is tidy. Before resources are inflated, operations have done nothing, and
while they are inflated the state is one during inflation. -/
def Sober (ctx : Context) (g : FlowGraph) : Pause → Prop
  | ⟨.layouts _, st⟩ => ∃ origin, Inflated ctx origin st
  | ⟨.items _, st⟩ => ∃ origin, Inflated ctx origin st
  | ⟨.pass _ _, st⟩ => Tidy ctx st
  | ⟨_, st⟩ =>
    Tidy ctx st ∧ st.graph = g ∧ effects st.notes = ({}, {}, {}, [])

theorem Sober.tidy (h : Sober ctx g first) : Tidy ctx first.state := by
  obtain ⟨phase, st⟩ := first
  cases phase with
  | layouts left => exact h.elim fun _ hinflated => hinflated.tidy
  | items left => exact h.elim fun _ hinflated => hinflated.tidy
  | pass left changed => exact h
  | _ => exact h.1

theorem Resumes.sober (h : Resumes ctx first last) (hfirst : Sober ctx g first) :
    Sober ctx g last := by
  have harrives : ∀ {s t : Progress Notes}, Arrives ctx s t →
      s.graph = g → effects s.notes = ({}, {}, {}, []) →
        Tidy ctx t ∧ t.graph = g ∧ effects t.notes = ({}, {}, {}, []) :=
    fun harrives hgraph heffects => ⟨harrives.tidy, harrives.graph_eq.trans hgraph,
      harrives.effects_eq.trans heffects⟩
  cases h with
  | constants houtcome =>
    obtain ⟨htidy, hgraph, heffects⟩ := hfirst
    exact harrives ((arrives_constants htidy).gives _ _ houtcome) hgraph heffects
  | windows houtcome =>
    obtain ⟨htidy, hgraph, heffects⟩ := hfirst
    exact harrives ((arrives_windows htidy).gives _ _ houtcome) hgraph heffects
  | menus houtcome =>
    obtain ⟨htidy, hgraph, heffects⟩ := hfirst
    exact harrives ((arrives_menus htidy).gives _ _ houtcome) hgraph heffects
  | trace houtcome =>
    obtain ⟨htidy, _, heffects⟩ := hfirst
    exact ⟨_, ((runs_tracePaths ctx _).gives _ _ houtcome).inflated htidy heffects⟩
  | layout houtcome =>
    obtain ⟨origin, hinflated⟩ := hfirst
    exact ⟨origin, ((ensures_inflateAt _).gives (.refl _) hinflated _ _ houtcome).2.1⟩
  | items => exact hfirst
  | item houtcome =>
    obtain ⟨origin, hinflated⟩ := hfirst
    exact ⟨origin, ((ensures_inflateRow _).gives (.refl _) hinflated _ _ houtcome).2.1⟩
  | settle =>
    obtain ⟨origin, hinflated⟩ := hfirst
    exact (change_counted _).tidy hinflated.tidy
  | visit houtcome => exact ((runs_visit hfirst _).gives _ _ houtcome).tidy hfirst
  | again => exact (change_counted _).tidy hfirst

/-- What holds at first and is kept from pause to pause holds in every pause. -/
theorem Paused.keeps {policy : Policy} (property : Pause → Prop)
    (hgraph : g.WellFormed ∧ g.links = #[])
    (hs : property ⟨.wired, { graph := g, policy, notes := {} }⟩)
    (hstep : ∀ first last, Sober ctx g first → Resumes ctx first last → property first →
      property last)
    (h : Paused ctx g policy last) : Sober ctx g last ∧ property last := by
  induction h with
  | refl => exact ⟨⟨tidy_empty ctx hgraph policy, rfl, rfl⟩, hs⟩
  | tail _ hresumes ih => exact ⟨hresumes.sober ih.1, hstep _ _ ih.1 hresumes ih.2⟩

end WidgetFlow.Solving
