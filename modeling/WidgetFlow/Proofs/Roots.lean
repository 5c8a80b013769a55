import WidgetFlow.Proofs.Solution.Pauses
import WidgetFlow.Proofs.Solution.Planting

/-!
# The roots of windows

The roots of a window are recorded apart from what it contains. They are the same in every pause of
the solving (`roots_are_children`). A window gets content in two ways only: a layout is inflated into
it, or a view is set as its content, and both record a root. Everything else is put into views and
menus, because no window gets anywhere where views are expected.
-/

namespace WidgetFlow.Solving

open Analysis FlowGraph NodeKind

variable {ctx : Context} {g old new : FlowGraph} {s t : Progress Notes}
variable {sol sol' : Solution}

/-- The roots of every window are what it contains. -/
structure RootsMatch (g : FlowGraph) (sol : Solution) : Prop where
  activities : ∀ win owner, g.kind win = .activity owner → ∀ view,
    sol.activityRoots.holds win view ↔ g.Contains win view
  dialogs : ∀ win owner site cancelable, g.kind win = .dialog owner site cancelable →
    ∀ view, sol.dialogRoots.holds win view ↔ g.Contains win view

def windowRoots (sol : Solution) : NodeRelation × NodeRelation :=
  (sol.activityRoots, sol.dialogRoots)

theorem kind_dialog_of_core {kind : NodeKind} {owner : String} {site : StmtId}
    (h : kind.core = .dialog owner site true) : ∃ cancelable, kind = .dialog owner site cancelable := by
  cases kind <;> simp_all [core]

namespace RootsMatch

/-- Nothing is contained anywhere, and there are no roots. -/
theorem empty (hlinks : g.links = #[]) (hroots : windowRoots sol = ({}, {})) :
    RootsMatch g sol := by
  obtain ⟨hactivities, hdialogs⟩ := Prod.mk.inj hroots
  constructor
  · intro win owner _ view
    simp [hactivities, Contains, hlinks]
  · intro win owner site cancelable _ view
    simp [hdialogs, Contains, hlinks]

theorem next (added : NodeId → NodeId → Prop) (h : RootsMatch old sol)
    (hg : Develops old new)
    (hcontains : ∀ win view, (old.kind win).isWindow →
      (new.Contains win view ↔ added win view ∨ old.Contains win view))
    (hactivities : ∀ win view owner, new.kind win = .activity owner →
      (sol'.activityRoots.holds win view ↔
        added win view ∨ sol.activityRoots.holds win view))
    (hdialogs : ∀ win view owner site cancelable,
      new.kind win = .dialog owner site cancelable →
        (sol'.dialogRoots.holds win view ↔
          added win view ∨ sol.dialogRoots.holds win view)) :
    RootsMatch new sol' := by
  -- a window of the new graph is the same window of the old one
  have hold : ∀ win, (new.kind win).isWindow →
      (old.kind win).isWindow ∧ (old.kind win).core = (new.kind win).core := by
    intro win hwindow
    rw [hg.isWindow_eq] at hwindow
    exact ⟨hwindow, (hg.core_eq win (lt_size_of_kind isWindow rfl hwindow)).symm⟩
  constructor
  · intro win owner hkind view
    obtain ⟨hwindow, hcore⟩ := hold win (by rw [hkind]; rfl)
    rw [hkind] at hcore
    rw [hactivities win view owner hkind, hcontains win view hwindow,
      h.activities win owner (kind_activity_of_core hcore)]
  · intro win owner site cancelable hkind view
    obtain ⟨hwindow, hcore⟩ := hold win (by rw [hkind]; rfl)
    rw [hkind] at hcore
    obtain ⟨cancelable', hkind'⟩ := kind_dialog_of_core hcore
    rw [hdialogs win view owner site cancelable hkind, hcontains win view hwindow,
      h.dialogs win owner site cancelable' hkind']

theorem still (h : RootsMatch old sol) (hg : Develops old new)
    (hcontains : ∀ win view, (old.kind win).isWindow →
      (new.Contains win view ↔ old.Contains win view))
    (hroots : windowRoots sol' = windowRoots sol) : RootsMatch new sol' := by
  obtain ⟨hactivities, hdialogs⟩ := Prod.mk.inj hroots
  refine h.next (fun _ _ => False) hg (fun win view hwindow => ?_)
    (fun win view _ _ => ?_) fun win view _ _ _ _ => ?_
  · rw [hcontains win view hwindow, false_or]
  · rw [hactivities, false_or]
  · rw [hdialogs, false_or]

theorem congr (h : RootsMatch g sol) (hroots : windowRoots sol' = windowRoots sol) :
    RootsMatch g sol' :=
  h.still (refl_of Develops g) (fun _ _ _ => Iff.rfl) hroots

theorem record {win view : NodeId} {ns ns' : Notes} (h : RootsMatch old ns.solution)
    (hg : Develops old new) (hrecorded : Recorded (new.kind win) win view ns ns')
    (hcontains : ∀ outer inner, (old.kind outer).isWindow → (new.Contains outer inner ↔
      outer = win ∧ inner = view ∨ old.Contains outer inner)) :
    RootsMatch new ns'.solution := by
  refine h.next _ hg hcontains (fun key root owner hkind => ?_)
    fun key root owner site cancelable hkind => ?_
  · rw [hrecorded.roots_iff]
    refine or_congr_left (and_congr_right ?_)
    rintro rfl
    simp [hkind]
  · rw [hrecorded.dialogs_iff]
    refine or_congr_left (and_congr_right ?_)
    rintro rfl
    simp [hkind]

end RootsMatch

/-! ## Inflation -/

/-- What inflating a layout in a window means for nodes that are there already: the window gets the
root of the layout, and nothing else gets anything. -/
structure Hung (win root : Option NodeId) (s t : Progress Notes) : Prop where
  retains : Retains s.graph t.graph
  notes : s.notes.Collects t.notes
  contains_iff : ∀ outer < s.graph.nodes.size, ∀ inner, t.graph.Contains outer inner ↔
    win = some outer ∧ root = some inner ∨ s.graph.Contains outer inner

theorem gives_inflateLayout (v : ResId) {win : Option NodeId}
    (hwindow : InGraph? s.graph win) :
    (inflateLayout ctx v win).Gives s fun root => Hung win root s := by
  cases htree : ctx.resources.layout? v with
  | none =>
    unfold inflateLayout
    rw [htree]
    refine gives_bind.mpr (gives_fail fun policy => gives_pure.mpr ?_)
    exact ⟨refl_of Retains _, refl_of Notes.Collects _, fun _ _ _ => by simp⟩
  | some tree =>
    refine (runs_inflateLayout htree hwindow).gives.weaken ?_
    rintro _ t ⟨⟨nodes, hplanted, rfl⟩, hnotes⟩
    refine ⟨hplanted.retains, hnotes, fun outer houter inner => ?_⟩
    rw [hplanted.contains_iff_of_lt houter, or_comm]
    refine or_congr_left ⟨?_, ?_⟩
    · rintro ⟨index, shown, hshown, haround, rfl⟩
      cases index with
      | zero =>
        obtain ⟨owner, howner, _⟩ := Option.map_eq_some_iff.mp hshown
        exact ⟨haround, by rw [howner]; rfl⟩
      | succ index => exact absurd hshown (by simp [Pending.at?])
    · rintro ⟨houter, hroot⟩
      obtain ⟨owner, howner, hinner⟩ := Option.map_eq_some_iff.mp hroot
      exact ⟨0, (owner, tree), by simp [Pending.at?, Element.shownAt?, howner], houter, hinner⟩

/-- Inflating a menu puts nothing into the other nodes that are there already. -/
theorem gives_inflateMenu (v : ResId) {self : NodeId} (hself : self < s.graph.nodes.size) :
    (inflateMenu ctx v self).Gives s fun _ t =>
      Retains s.graph t.graph ∧ s.notes.Collects t.notes ∧
        ∀ outer < s.graph.nodes.size, outer ≠ self → ∀ inner,
          (t.graph.Contains outer inner ↔ s.graph.Contains outer inner) := by
  cases htree : ctx.resources.menu? v with
  | none =>
    unfold inflateMenu
    rw [htree]
    exact gives_fail fun policy =>
      ⟨refl_of Retains _, refl_of Notes.Collects _, fun _ _ _ _ => Iff.rfl⟩
  | some tree =>
    refine (runs_inflateMenu htree hself).gives.weaken ?_
    rintro _ t ⟨⟨nodes, hplanted⟩, hnotes⟩
    refine ⟨hplanted.retains, hnotes, fun outer houter hne inner => ?_⟩
    rw [hplanted.contains_iff_of_lt houter]
    refine or_iff_left ?_
    rintro ⟨index, shown, hshown, haround, _⟩
    rw [Pending.around?_next_nil ((Pending.at?_next_nil (by simp)).symm.trans hshown) (by simp),
      Option.some.injEq] at haround
    exact hne haround.symm

theorem windowRoots_collects {old new : Notes} (h : old.Collects new) :
    windowRoots new.solution = windowRoots old.solution :=
  Prod.ext h.activityRoots_eq h.dialogRoots_eq

theorem lt_size_of_isWindow {win : NodeId} (h : (g.kind win).isWindow) :
    win < g.nodes.size :=
  lt_size_of_kind isWindow rfl h

/-- What a part of the inflation leaves: a graph with all that was there, and roots that match. -/
def Matching (s t : Progress Notes) : Prop :=
  Retains s.graph t.graph ∧ RootsMatch t.graph t.notes.solution

section Inflation

variable (hmatch : RootsMatch s.graph s.notes.solution)
include hmatch

/-- A loop leaves matching roots if its rounds do. -/
theorem matching_forM {α : Type} {step : α → Solving Unit} {elements : List α}
    (hstep : ∀ st, Matching s st → ∀ e ∈ elements,
      (step e).Gives st fun _ => Matching st) :
    (elements.forM step).Gives s fun _ => Matching s := by
  refine gives_forM ⟨refl_of Retains _, hmatch⟩ fun st hstate e helement => ?_
  exact (hstep st hstate e helement).weaken fun _ _ ht =>
    ⟨trans_of Retains hstate.1 ht.1, ht.2⟩

theorem matching_inflateResult (op : NodeId) (v : ResId) :
    (inflateResult ctx op v).Gives s fun _ => Matching s := by
  refine gives_bind.mpr ((gives_inflateLayout v (by rintro _ ⟨⟩)).weaken ?_)
  intro root middle hhung
  have hmiddle : RootsMatch middle.graph middle.notes.solution := by
    refine hmatch.still hhung.retains.toDevelops (fun win view hwindow => ?_)
      (windowRoots_collects hhung.notes)
    rw [hhung.contains_iff win (lt_size_of_isWindow hwindow)]
    simp
  split
  case h_2 => exact gives_pure.mpr ⟨hhung.retains, hmiddle⟩
  rename_i root
  rw [gives_bind, gives_getGraph]
  split
  next =>
    rw [gives_bind, modifySolution, gives_modifyNotes, gives_bind]
    refine (runs_push ctx op [root] _).gives.weaken fun _ t hpushed => gives_pure.mpr ?_
    rw [Matching, hpushed.graph_eq, hpushed.notes_eq]
    exact ⟨hhung.retains, hmiddle.congr rfl⟩
  next => exact gives_pure.mpr ⟨hhung.retains, hmiddle⟩

theorem matching_inflateInto {win : NodeId} (hwindow : win < s.graph.nodes.size)
    (layout : NodeId) (v : ResId) :
    (do
      let some root ← inflateLayout ctx v (some win) | return
      addWindowRoot win root
      modifySolution fun sol => { sol with
        windowLayouts := sol.windowLayouts.add win layout }).Gives s fun _ =>
      Matching s := by
  refine gives_bind.mpr ((gives_inflateLayout v (by rintro _ ⟨⟩; exact hwindow)).weaken ?_)
  intro root middle hhung
  have hroots := windowRoots_collects hhung.notes
  cases root with
  | none =>
    refine gives_pure.mpr ⟨hhung.retains, hmatch.still hhung.retains.toDevelops ?_ hroots⟩
    intro outer inner houter
    rw [hhung.contains_iff outer (lt_size_of_isWindow houter)]
    simp
  | some root =>
    refine gives_bind.mpr ((runs_addWindowRoot win root middle).gives.weaken ?_)
    rintro _ t ⟨hgraph, hrecorded⟩
    refine gives_modifyNotes.mpr ⟨hgraph ▸ hhung.retains, ?_⟩
    have ht : RootsMatch middle.graph t.notes.solution := by
      refine (hmatch.congr hroots).record hhung.retains.toDevelops hrecorded fun outer inner houter => ?_
      rw [hhung.contains_iff outer (lt_size_of_isWindow houter)]
      simp [eq_comm]
    exact hgraph.symm ▸ ht.congr rfl

theorem matching_inflateContent (hs : Tidy ctx s) (op layout : NodeId) (v : ResId) :
    (inflateContent ctx op layout v).Gives s fun _ => Matching s := by
  unfold inflateContent
  rw [gives_bind, gives_getSolution]
  refine matching_forM hmatch fun st hstate win hwindow => ?_
  have hwindow := hs.filtered.windows op win (Relation.mem_image.mp hwindow)
  exact matching_inflateInto hstate.2
    (Nat.lt_of_lt_of_le (lt_size_of_isWindow hwindow) hstate.1.size_le) layout v

theorem matching_inflateAt (hs : Tidy ctx s) (entry : NodeId × NodeId) :
    (inflateAt ctx entry).Gives s fun _ => Matching s := by
  unfold inflateAt
  rw [gives_bind, gives_getGraph]
  split
  next => exact matching_inflateResult hmatch entry.1 _
  next => exact matching_inflateContent hmatch hs entry.1 entry.2 _
  next => exact gives_pure.mpr ⟨refl_of Retains _, hmatch⟩

/-- Items go into a menu, which is no window. -/
theorem matching_inflateMenu (v : ResId) {menu : NodeId}
    (hmenu : (s.graph.kind menu).isMenu) :
    (inflateMenu ctx v menu).Gives s fun _ => Matching s := by
  refine (gives_inflateMenu v (lt_size_of_kind isMenu rfl hmenu)).weaken ?_
  rintro _ t ⟨hg, hnotes, hcontains⟩
  refine ⟨hg, hmatch.still hg.toDevelops (fun win view hwindow => ?_) (windowRoots_collects hnotes)⟩
  refine hcontains win (lt_size_of_isWindow hwindow) ?_ view
  rintro rfl
  cases hkind : s.graph.kind win <;> simp_all [isWindow, isMenu]

theorem matching_inflateRow (hs : Tidy ctx s) (row : NodeId × List NodeId) :
    (inflateRow ctx row).Gives s fun _ => Matching s := by
  unfold inflateRow
  rw [gives_bind, gives_getSolution]
  refine matching_forM hmatch fun st hstate id _ => ?_
  rw [gives_bind, gives_getGraph]
  split
  case h_2 => exact gives_pure.mpr ⟨refl_of Retains _, hstate.2⟩
  refine matching_forM hstate.2 fun st' hstate' menu hmenu => ?_
  have hg := trans_of Retains hstate.1 hstate'.1
  obtain ⟨hmenu, _⟩ := hs.filtered.reached row.1 menu (mem_menusOf.mp hmenu)
  refine matching_inflateMenu hstate'.2 _ ?_
  exact (hg.keeps isMenu isMenu_core
    (lt_size_of_kind isMenu rfl hmenu)).trans hmenu

end Inflation

/-! ## Passes -/

/-- Views get views as children, and windows get content together with its root. -/
theorem Change.rootsMatch (h : Change ctx s t) (hg : Develops s.graph t.graph)
    (hs : Tidy ctx s) (hmatch : RootsMatch s.graph s.notes.solution) :
    RootsMatch t.graph t.notes.solution := by
  cases h with
  | note hgraph hnotes =>
    rw [hgraph, hnotes]
    exact hmatch.congr rfl
  | find hop hlooked =>
    rw [hlooked.graph_eq, hlooked.notes_eq]
    exact hmatch.congr rfl
  | root hop hkind hwindow hview hrooted =>
    obtain ⟨added, hlink⟩ := hrooted.linked
    have hrecorded := hrooted.toRecorded
    rw [← kind_addLink hlink] at hrecorded
    exact hmatch.record hg hrecorded fun outer inner _ => contains_addLink_iff hlink
  | child hop hkind hparent hchild hne hlink ht =>
    subst ht
    refine hmatch.still hg (fun win view hwindow => ?_) rfl
    rw [contains_addLink_iff hlink]
    refine or_iff_right ?_
    -- the parent is a receiver, and no window is one
    rintro ⟨rfl, _⟩
    exact Bool.eq_false_iff.mp (hs.filtered.values .receiver nofun _ _ hparent) hwindow
  | name hop hkind hview hnone ht =>
    subst ht
    exact hmatch.still hg (fun _ _ _ => Iff.rfl) rfl
  | push hpushed =>
    rw [hpushed.graph_eq, hpushed.notes_eq]
    exact hmatch.congr rfl

theorem Step.rootsMatch {old new : Stage} (h : Step ctx old new) (hold : Tidy ctx old.state)
    (hmatch : RootsMatch old.state.graph old.state.notes.solution) :
    RootsMatch new.state.graph new.state.notes.solution := by
  have hg := h.advances.1.toDevelops
  obtain ⟨old, stale⟩ := old
  obtain ⟨new, stale'⟩ := new
  cases h.move with
  | change hchange => exact hchange.rootsMatch hg hold hmatch
  | bind hop hkind hprebound hview hlistener htied =>
    rw [htied.notes_eq]
    refine hmatch.still hg (fun win view _ => ?_) rfl
    rw [Contains, htied.ties.links_eq]
    rfl
  | trace hretraced =>
    rw [hretraced.graph_eq, hretraced.notes_eq]
    exact hmatch.congr rfl

theorem Moves.rootsMatch {first last : Stage} (h : Moves ctx first last)
    (hfirst : Tidy ctx first.state)
    (hmatch : RootsMatch first.state.graph first.state.notes.solution) :
    RootsMatch last.state.graph last.state.notes.solution := by
  exact Moves.keeps hfirst (fun _ _ hold _ hstep => hstep.rootsMatch hold) h hmatch

/-! ## Pauses -/

theorem Resumes.rootsMatch {first last : Pause} (h : Resumes ctx first last)
    (hgraph : g.links = #[]) (hfirst : Sober ctx g first)
    (hmatch : RootsMatch first.state.graph first.state.notes.solution) :
    RootsMatch last.state.graph last.state.notes.solution := by
  have hlast := h.sober hfirst
  -- before resources are inflated, there is no content and there are no roots
  have hidle : ∀ {st : Progress Notes},
      Tidy ctx st ∧ st.graph = g ∧ effects st.notes = ({}, {}, {}, []) →
        RootsMatch st.graph st.notes.solution := by
    rintro st ⟨_, rfl, heffects⟩
    exact .empty hgraph (congrArg (fun effects => (effects.2.1, effects.2.2.1)) heffects)
  cases h with
  | constants => exact hidle hlast
  | windows => exact hidle hlast
  | menus => exact hidle hlast
  | trace houtcome =>
    have hretraced := (runs_tracePaths ctx _).gives _ _ houtcome
    rw [hretraced.graph_eq, hretraced.notes_eq]
    exact hmatch.congr rfl
  | layout houtcome => exact (matching_inflateAt hmatch hfirst.tidy _ _ _ houtcome).2
  | items => exact hmatch
  | item houtcome => exact (matching_inflateRow hmatch hfirst.tidy _ _ _ houtcome).2
  | settle => exact hmatch.congr rfl
  | visit houtcome =>
    have hvisited := (runs_visit hfirst _).gives _ _ houtcome
    exact (hvisited.moves false).rootsMatch hfirst hmatch
  | again => exact hmatch.congr rfl

/-- Solving comes from pause to pause until it ends. In every pause, the roots of a window are its
children, and no window is a child, a parameter, a receiver or a result of anything. -/
theorem roots_are_children {wired : Progress Wiring.Notes} (hwire : ctx.wire = (.ok (), wired)) :
    (∀ solved, ctx.solve wired.graph wired.policy = (.ok (), solved) →
      ∃ changed, Paused ctx wired.graph wired.policy ⟨.pass [] changed, solved⟩) ∧
    ∀ phase st, Paused ctx wired.graph wired.policy ⟨phase, st⟩ →
      (∀ win owner, st.graph.kind win = .activity owner → ∀ view,
        view ∈ st.notes.solution.activityRoots.image win ↔
          view ∈ st.graph.children win) ∧
      (∀ win owner site cancelable, st.graph.kind win = .dialog owner site cancelable →
        ∀ view, view ∈ st.notes.solution.dialogRoots.image win ↔
          view ∈ st.graph.children win) ∧
      ∀ win, (st.graph.kind win).isWindow → ∀ other,
        win ∉ st.graph.children other ∧
          win ∉ st.notes.solution.parameters.image other ∧
          win ∉ st.notes.solution.receivers.image other ∧
          win ∉ st.notes.solution.results.image other := by
  have hgraph := Context.wellFormed_wire hwire
  refine ⟨fun solved hsolved => paused_solve _ _ _ _ hsolved, fun phase st hpaused => ?_⟩
  obtain ⟨hsober, hmatch⟩ := hpaused.keeps
    (fun pause => RootsMatch pause.state.graph pause.state.notes.solution) hgraph
    (.empty hgraph.2 rfl) fun first last hfirst hresumes => hresumes.rootsMatch hgraph.2 hfirst
  have hfiltered := hsober.tidy.filtered
  refine ⟨fun win owner hkind view => ?_, fun win owner site cancelable hkind view => ?_,
    fun win hwindow other => ⟨fun hchild => ?_, fun hholds => ?_, fun hholds => ?_,
      fun hholds => ?_⟩⟩
  · rw [Relation.mem_image, mem_children]
    exact hmatch.activities win owner hkind view
  · rw [Relation.mem_image, mem_children]
    exact hmatch.dialogs win owner site cancelable hkind view
  · exact Bool.eq_false_iff.mp (hfiltered.children other win (mem_children.mp hchild)) hwindow
  · exact Bool.eq_false_iff.mp
      (hfiltered.values .parameter nofun other win (Relation.mem_image.mp hholds)) hwindow
  · exact Bool.eq_false_iff.mp
      (hfiltered.values .receiver nofun other win (Relation.mem_image.mp hholds)) hwindow
  · exact Bool.eq_false_iff.mp
      (hfiltered.results other win (Relation.mem_image.mp hholds)) hwindow

/-- When the sample screen is solved, the outer view of the layout is a root of the activity, and the
activity is no receiver of the look-up in it. -/
theorem roots_are_children_screen :
    ∃ wired solved changed, Sample.screen.wire = (.ok (), wired) ∧
      Paused Sample.screen wired.graph wired.policy ⟨.pass [] changed, solved⟩ ∧
      12 ∈ solved.notes.solution.activityRoots.image 2 ∧
      2 ∉ solved.notes.solution.receivers.image 6 := by
  obtain ⟨out, h, _, hkind, hchild⟩ := Sample.screen_evaluated
  obtain ⟨wired, solved, hwire, hsolve, rfl⟩ := Context.analyze_ok h
  obtain ⟨hends, hholds⟩ := roots_are_children hwire
  obtain ⟨changed, hpaused⟩ := hends solved hsolve
  obtain ⟨hactivities, _, hwindows⟩ := hholds _ _ hpaused
  have hwindow : (solved.graph.kind 2).isWindow := by
    rw [show solved.graph.kind 2 = _ from hkind]
    rfl
  exact ⟨wired, solved, changed, hwire, hpaused, (hactivities 2 _ hkind 12).mpr hchild,
    (hwindows 2 hwindow 6).2.2.1⟩

end WidgetFlow.Solving
