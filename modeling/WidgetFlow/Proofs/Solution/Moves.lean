import Mathlib.Logic.Relation
import WidgetFlow.Proofs.Listening
import WidgetFlow.Proofs.Solution.Lookups

/-!
# The moves of a pass

A pass over the operations is made of few kinds of moves, and `Move` says once what each of them
does and what it needs: look-ups give what they find, views are put into windows and into each
other, views get identifiers, listeners are bound, and so on. Binding may make the paths stale, and
exactly then they are traced again.

States stay tidy from move to move, and what they have they keep (`Step`). Look-ups give nothing
that they do not find, and where the paths are not stale, the state is complete: this is what is
`Proper` (`Moves.proper`).
-/

namespace WidgetFlow.Solving

open Analysis FlowGraph

variable {ctx : Context} {op : NodeId} {s t : Progress Notes}

/-! ## Single changes -/

/-- What recording a root of a window of a certain kind does. -/
structure Recorded (kind : NodeKind) (win view : NodeId) (old new : Notes) : Prop where
  notes_eq : new = { old with
    solution := { old.solution with
      activityRoots := new.solution.activityRoots
      dialogRoots := new.solution.dialogRoots } }
  roots_iff : ∀ key root, new.solution.activityRoots.holds key root ↔
    (key = win ∧ root = view ∧ ∃ owner, kind = .activity owner) ∨
      old.solution.activityRoots.holds key root
  dialogs_iff : ∀ key root, new.solution.dialogRoots.holds key root ↔
    (key = win ∧ root = view ∧ ∃ owner site cancelable, kind = .dialog owner site cancelable) ∨
      old.solution.dialogRoots.holds key root

/-- What making a view the content of a window does if it was not. -/
structure Rooted (win view : NodeId) (s t : Progress Notes) : Prop
    extends Recorded (s.graph.kind win) win view s.notes t.notes where
  fresh : ¬ s.graph.Contains win view
  linked : ∃ added, s.graph.addLink view win = .ok (added, t.graph)

/-- The state with one more view and listener noted as bound. -/
def noted (entry : NodeId × NodeId × NodeId) (st : Progress Notes) : Progress Notes :=
  { st with notes := { st.notes with bound := entry :: st.notes.bound } }

/-! ## Moves -/

/-- A state between two moves. -/
structure Stage where
  state : Progress Notes
  /-- The graph has got an edge or a handler since the paths were traced. -/
  stale : Bool

/-- A change that an operation makes to a state, other than binding listeners. -/
inductive Change (ctx : Context) (s t : Progress Notes) : Prop
  /-- A pass is counted, or something is reported. -/
  | note (hgraph : t.graph = s.graph)
      (hnotes : t.notes = { s.notes with
        solution := { s.notes.solution with
          iterations := t.notes.solution.iterations }
        flagged := t.notes.flagged })
  | find {op : NodeId} {found : Op} {changed : Bool} (hop : s.graph.op? op = some found)
      (h : LookedUp ctx op found.kind s changed t)
  | root {op win view : NodeId} {found : Op} (hop : s.graph.op? op = some found)
      (hkind : found.kind = .setContent) (hwindow : s.notes.solution.windows.holds op win)
      (hview : s.notes.solution.parameters.holds op view) (h : Rooted win view s t)
  /-- A view is put into another one. -/
  | child {op p c : NodeId} {found : Op} {added : Bool} {g : FlowGraph}
      (hop : s.graph.op? op = some found) (hkind : found.kind = .addChild)
      (hparent : s.notes.solution.receivers.holds op p)
      (hchild : s.notes.solution.parameters.holds op c) (hne : p ≠ c)
      (hlink : s.graph.addLink c p = .ok (added, g))
      (h : t = { s with graph := g })
  /-- A view gets an identifier. -/
  | name {op id view : NodeId} {found : Op} (hop : s.graph.op? op = some found)
      (hkind : found.kind = .setId) (hview : s.notes.solution.receivers.holds op view)
      (hnone : s.graph.idOf? view = none)
      (h : t = { s with graph := setId view id s.graph })
  /-- What an operation gives is pushed on. -/
  | push {op : NodeId} {changed : Bool}
      (h : Pushed ctx op (s.notes.solution.results.image op) s changed t)

/-- One move of a pass. -/
inductive Move (ctx : Context) (s t : Progress Notes) : Bool → Bool → Prop
  | change {stale : Bool} (h : Change ctx s t) : Move ctx s t stale stale
  | bind {stale : Bool} {op view lis : NodeId} {found : Op} {changed : Bool}
      (hop : s.graph.op? op = some found) (hkind : found.kind.isSetListener)
      (hprebound : ¬ s.graph.isPrebound op)
      (hview : s.notes.solution.receivers.holds op view)
      (hlistener : s.notes.solution.listeners.holds op lis)
      (h : Context.Tied (ctx.Feeds s.graph op view lis)
        (ctx.Bestows s.graph op view lis) (noted (op, view, lis) s) changed
        t) :
      Move ctx s t stale (stale || changed)
  /-- The paths are traced again. -/
  | trace (h : Retraced ctx s t) : Move ctx s t true false

/-- Nothing is bound, no path gets known, and there is no new flow. -/
structure Calm (old new : Progress Notes) : Prop where
  steady : Steady old.graph new.graph
  bound_eq : new.notes.bound = old.notes.bound
  paths_eq : new.notes.paths = old.notes.paths
  optionsMenus_eq : new.notes.solution.optionsMenus = old.notes.solution.optionsMenus
  contextMenus_eq : new.notes.solution.contextMenus = old.notes.solution.contextMenus

theorem Change.calm (h : Change ctx s t) : Calm s t := by
  have hsame : t.graph = s.graph → Steady s.graph t.graph :=
    fun hgraph => hgraph ▸ refl_of Steady _
  cases h with
  | note hgraph hnotes =>
    refine ⟨hsame hgraph, ?_, ?_, ?_, ?_⟩ <;> rw [hnotes]
  | find hop hlooked =>
    refine ⟨hsame hlooked.graph_eq, ?_, ?_, ?_, ?_⟩ <;> rw [hlooked.notes_eq]
  | root hop hkind hwindow hview hrooted =>
    obtain ⟨added, hlink⟩ := hrooted.linked
    refine ⟨steady_addLink hlink, ?_, ?_, ?_, ?_⟩ <;> rw [hrooted.notes_eq]
  | child hop hkind hparent hchild hne hlink ht =>
    subst ht
    exact ⟨steady_addLink hlink, rfl, rfl, rfl, rfl⟩
  | name hop hkind hview hnone ht =>
    subst ht
    exact ⟨steady_setId _ _, rfl, rfl, rfl, rfl⟩
  | push hpushed =>
    refine ⟨hsame hpushed.graph_eq, ?_, ?_, ?_, ?_⟩ <;> rw [hpushed.notes_eq]

theorem Change.advances (h : Change ctx s t) : Advances s t := by
  cases h with
  | note hgraph hnotes =>
    refine ⟨hgraph ▸ refl_of Enriches _, ?_⟩
    rw [hnotes]
    exact { refl_of Notes.Grows s.notes with }
  | find hop hlooked => exact hlooked.advances
  | root hop hkind hwindow hview hrooted =>
    obtain ⟨added, hlink⟩ := hrooted.linked
    have hroots : s.notes.solution.activityRoots.Within t.notes.solution.activityRoots :=
      fun key root hholds => (hrooted.roots_iff key root).mpr (.inr hholds)
    refine ⟨enriches_addLink hlink, ?_⟩
    rw [hrooted.notes_eq]
    exact { refl_of Notes.Grows s.notes with activityRoots := hroots }
  | child hop hkind hparent hchild hne hlink ht =>
    subst ht
    exact ⟨enriches_addLink hlink, refl_of Notes.Grows _⟩
  | name hop hkind hview hnone ht =>
    subst ht
    exact ⟨enriches_setId hnone, refl_of Notes.Grows _⟩
  | push hpushed => exact ⟨hpushed.graph_eq ▸ refl_of Enriches _, hpushed.collects.toGrows⟩

/-! ## Objects stay where they belong -/

section Tidy

variable {g : FlowGraph} {ns : Notes} {n receiver : NodeId}

theorem Filtered.isWindow_of_mem_foundBy (h : Filtered ctx g ns) {kind : OpKind}
    (hnode : n ∈ foundBy ctx g ns.solution op kind) :
    (g.kind n).isWindow = false :=
  of_mem_foundBy (h.values .receiver nofun op) h.roots h.children hnode

/-- A look-up gives what its result admits. -/
theorem LookedUp.tidy {kind : OpKind} {changed : Bool}
    (h : LookedUp ctx op kind s changed t) (hop : s.graph.isOp op)
    (hs : Tidy ctx s) : Tidy ctx t := by
  refine ⟨h.sound hs.sound hop, ?_⟩
  rw [h.graph_eq, h.notes_eq]
  refine hs.filtered.give (fun key o hholds => (h.results_iff key o).mpr (.inr hholds))
    fun key o hholds => ?_
  rcases (h.results_iff key o).mp hholds with ⟨rfl, hfound, hadmits⟩ | hold
  · exact .inr ⟨hadmits, hs.filtered.isWindow_of_mem_foundBy hfound⟩
  · exact .inl hold

theorem Rooted.tidy {win view : NodeId} (h : Rooted win view s t)
    (hs : Tidy ctx s) (hwindow : s.graph.HasObject win)
    (hview : HasPart s.graph view) : Tidy ctx t := by
  obtain ⟨added, hlink⟩ := h.linked
  obtain ⟨⟨hwell, hfits⟩, hfiltered⟩ := hs.addLink hview hwindow hlink
  have hview := hview.mono (extends_addLink hlink)
  refine ⟨⟨hwell, ?_⟩, ?_⟩
  all_goals rw [h.notes_eq]
  · refine { hfits with activityRoots := fun key root hholds => ?_ }
    rcases (h.roots_iff key root).mp hholds with ⟨_, rfl, _⟩ | hold
    · exact hview.1
    · exact hfits.activityRoots key root hold
  · refine { hfiltered with roots := fun key root hholds => ?_ }
    rcases (h.roots_iff key root).mp hholds with ⟨_, rfl, _⟩ | hold
    · exact hview.2
    · exact hfiltered.roots key root hold

/-- What has arrived at an operation is a view or a menu item, unless it listens. -/
theorem Tidy.hasPart (h : Tidy ctx s) (i : Inlet) {o : NodeId}
    (hinlet : i ≠ .listener) (hholds : (i.values s.notes.solution).holds op o) :
    HasPart s.graph o :=
  ⟨(h.sound.fits.values i op o hholds).2, h.filtered.values i hinlet op o hholds⟩

theorem Change.tidy (h : Change ctx s t) (hs : Tidy ctx s) : Tidy ctx t := by
  cases h with
  | note hgraph hnotes =>
    refine hs.evolve ⟨hgraph.symm, fun hfits hfiltered => ?_⟩
    rw [hnotes]
    exact ⟨{ hfits with }, { hfiltered with }⟩
  | find hop hlooked => exact hlooked.tidy (isOp_iff.mpr ⟨_, hop⟩) hs
  | root hop hkind hwindow hview hrooted =>
    exact hrooted.tidy hs (hs.sound.fits.windows _ _ hwindow).2
      (hs.hasPart .parameter nofun hview)
  | child hop hkind hparent hchild hne hlink ht =>
    subst ht
    exact hs.addLink (hs.hasPart .parameter nofun hchild)
      (hs.hasPart .receiver nofun hparent).1 hlink
  | name hop hkind hview hnone ht =>
    subst ht
    exact hs.setId _ _
  | push hpushed => exact hpushed.tidy hs fun _ hobject => Relation.mem_image.mp hobject

end Tidy

/-- One move, with what all moves keep. -/
structure Step (ctx : Context) (s t : Stage) : Prop where
  move : Move ctx s.state t.state s.stale t.stale
  advances : Advances s.state t.state
  tidy : Tidy ctx t.state

theorem Change.step (h : Change ctx s t) (hs : Tidy ctx s) (stale : Bool) :
    Step ctx ⟨s, stale⟩ ⟨t, stale⟩ :=
  ⟨.change h, h.advances, h.tidy hs⟩

abbrev Moves (ctx : Context) : Stage → Stage → Prop := Relation.ReflTransGen (Step ctx)

namespace Moves

variable {first last : Stage}

theorem advances (h : Moves ctx first last) : Advances first.state last.state := by
  induction h with
  | refl => exact refl_of Advances first.state
  | tail _ hstep ih => exact trans_of Advances ih hstep.advances

theorem tidy (h : Moves ctx first last) (hfirst : Tidy ctx first.state) : Tidy ctx last.state := by
  cases h with
  | refl => exact hfirst
  | tail _ hstep => exact hstep.tidy

theorem keeps {property : Stage → Prop} (hfirst : Tidy ctx first.state)
    (hstep : ∀ old new, Tidy ctx old.state → Advances first.state old.state → Step ctx old new →
      property old → property new)
    (h : Moves ctx first last) (hproperty : property first) : property last := by
  induction h with
  | refl => exact hproperty
  | tail hmoves hmove ih =>
    exact hstep _ _ (Moves.tidy hmoves hfirst) (Moves.advances hmoves) hmove ih

end Moves

/-! ## What is given -/

section Results

variable {old new : Stage} {o : NodeId}

/-- Only look-ups give anything during a pass. -/
theorem Change.results (h : Change ctx s t)
    (hresult : t.notes.solution.results.holds op o) :
    s.notes.solution.results.holds op o ∨
      ∃ found, s.graph.op? op = some found ∧ Offers ctx op found.kind s o := by
  have hkept (h : t.notes.solution.results = s.notes.solution.results) :
      s.notes.solution.results.holds op o := h ▸ hresult
  cases h with
  | note _ hnotes => exact .inl (hkept (by rw [hnotes]))
  | find hop hlooked =>
    rcases (hlooked.results_iff op o).mp hresult with ⟨rfl, hoffers⟩ | hold
    · exact .inr ⟨_, hop, hoffers⟩
    · exact .inl hold
  | root _ _ _ _ hrooted => exact .inl (hkept (by rw [hrooted.notes_eq]))
  | child _ _ _ _ _ _ ht => exact .inl (hkept (by rw [ht]))
  | name _ _ _ _ ht => exact .inl (hkept (by rw [ht]))
  | push hpushed => exact .inl (hkept hpushed.collects.results_eq)

theorem Step.results (h : Step ctx old new)
    (hresult : new.state.notes.solution.results.holds op o) :
    old.state.notes.solution.results.holds op o ∨
      ∃ found, old.state.graph.op? op = some found ∧ Offers ctx op found.kind old.state o := by
  obtain ⟨old, stale⟩ := old
  obtain ⟨new, stale'⟩ := new
  cases h.move with
  | change hchange => exact hchange.results hresult
  | bind _ _ _ _ _ htied =>
    rw [htied.notes_eq] at hresult
    exact .inl hresult
  | trace htraced =>
    rw [htraced.notes_eq] at hresult
    exact .inl hresult

theorem producesViews_of_mem_foundBy {g : FlowGraph} {sol : Solution} {kind : OpKind}
    (h : o ∈ foundBy ctx g sol op kind) : kind.producesViews := by
  cases kind with
  | findInView => rfl
  | findInWindow => rfl
  | findByPlace => rfl
  | _ => exact absurd h List.not_mem_nil

/-- What has been given was given by operations that give views. -/
def Produced (stage : Stage) : Prop :=
  ∀ op found, stage.state.graph.op? op = some found → ∀ o,
    stage.state.notes.solution.results.holds op o → found.kind.producesViews

theorem Step.produced (h : Step ctx old new) (hold : Produced old) : Produced new := by
  intro op found hop o hresult
  rw [h.advances.1.op?_eq] at hop
  rcases h.results hresult with hresult | ⟨_, hop', hoffers, _⟩
  · exact hold op found hop o hresult
  · cases hop.symm.trans hop'
    exact producesViews_of_mem_foundBy hoffers

end Results

/-! ## Proper states -/

/-- Look-ups have given nothing but what they find and their results admit. -/
def Justified (ctx : Context) (st : Progress Notes) : Prop :=
  ∀ op found, st.graph.op? op = some found → found.kind.isFind →
    found.kind ≠ .findInView .menuItem → ∀ o, st.notes.solution.results.holds op o →
      Finds ctx st.graph st.notes.solution op o found.kind ∧
        ctx.hierarchy.admits st.graph o op .result

/-- What holds while operations are resolved. -/
structure Proper (ctx : Context) (st : Progress Notes) : Prop where
  tidy : Tidy ctx st
  complete : Complete ctx st
  justified : Justified ctx st

theorem Proper.sound (h : Proper ctx s) : s.Sound :=
  h.tidy.sound

section Proper

variable {old new : Stage}

/-- Look-ups stay justified, because they give no more than what they find. -/
theorem Step.justified (h : Step ctx old new) (hold : Tidy ctx old.state)
    (hjustified : Justified ctx old.state) : Justified ctx new.state := by
  intro op found hop hfind hkind o hresult
  rw [h.advances.1.op?_eq] at hop
  have hgiven : old.state.graph.HasObject o ∧
      Finds ctx old.state.graph old.state.notes.solution op o found.kind ∧
        ctx.hierarchy.admits old.state.graph o op .result := by
    rcases h.results hresult with hresult | ⟨found', hop', hfound, hadmits⟩
    · exact ⟨(hold.sound.fits.results op o hresult).2,
        hjustified op found hop hfind hkind o hresult⟩
    · cases hop.symm.trans hop'
      exact ⟨hasObject_of_mem_foundBy hold.sound.wellFormed hold.sound.fits hfound,
        (mem_foundBy_iff hkind).mp hfound, hadmits⟩
  -- what was found is found from then on, and what was admitted is admitted
  obtain ⟨hobject, hfinds, hadmits⟩ := hgiven
  refine ⟨hfinds.mono h.advances.reveals, ?_⟩
  rwa [Hierarchy.admits_eq h.advances.1.toDevelops hold.sound.wellFormed
    (lt_size_of_isObject hobject)]

/-- Where the paths are not stale, the state is complete. -/
theorem Step.complete (h : Step ctx old new) (hold : old.state.graph.WellFormed)
    (hcomplete : old.stale = false → Complete ctx old.state) (hfresh : new.stale = false) :
    Complete ctx new.state := by
  obtain ⟨old, stale⟩ := old
  obtain ⟨new, stale'⟩ := new
  have hgrows : old.notes.Grows new.notes := h.advances.2
  cases h.move with
  | change hchange => exact (hcomplete hfresh).steady hold hchange.calm.steady hgrows
  | bind hop hkind hprebound hview hlistener htied =>
    -- the graph is as it was, so the paths are still all there
    obtain ⟨hstale, hchanged⟩ := Bool.or_eq_false_iff.mp hfresh
    have hgraph : new.graph = old.graph := htied.quiet hold hchanged
    exact (hcomplete hstale).steady hold (hgraph ▸ refl_of Steady _) hgrows
  | trace htraced => exact htraced.complete hold

/-- What is proper stays so. -/
theorem Moves.proper (h : Moves ctx ⟨s, false⟩ ⟨t, false⟩) (hs : Proper ctx s) :
    Proper ctx t := by
  let kept (stage : Stage) : Prop :=
    Justified ctx stage.state ∧ (stage.stale = false → Complete ctx stage.state)
  have hkept : kept ⟨t, false⟩ :=
    Moves.keeps hs.tidy (fun old new hold _ hstep (hkept : kept old) =>
      ⟨hstep.justified hold hkept.1, hstep.complete hold.sound.wellFormed hkept.2⟩)
      h ⟨hs.justified, fun _ => hs.complete⟩
  exact ⟨h.tidy hs.tidy, hkept.2 rfl, hkept.1⟩

end Proper

end WidgetFlow.Solving
