import WidgetFlow.Outcome
import WidgetFlow.Proofs.Solution.Preparation
import WidgetFlow.Proofs.Solution.Termination

/-!
# What an outcome tells

An analysis that ends well has come to a state in which no operation has anything left to do
(`analyzed`). So its outcome has all flow between different operations (`flow_complete`), look-ups
have given exactly what they find (`resolution_exact`), and the passes have come to a fixed point
(`passes_reach_fixpoint`). The producers of a node are the operations that have given it
(`producers_exact`), and the windows of operations are those of the graph before any listener was
bound (`windows_exact`).

A sample screen shows what is missing: results that flow back into the look-up that gives them
(`flow_into_itself_incomplete`), and the windows in handlers of listeners that are windows
(`windows_of_listener_incomplete`). It also has a look-up among the producers of a view
(`producers_beyond_inflations`).
-/

namespace WidgetFlow

open Analysis FlowGraph Solving

variable {ctx : Context} {out : Outcome} {op o : NodeId} {s : Progress Notes}

/-- An analysis ends well if both of its parts do. -/
theorem Context.analyze_ok (h : ctx.analyze = .ok out) :
    ∃ wired solved, ctx.wire = (.ok (), wired) ∧
      ctx.solve wired.graph wired.policy = (.ok (), solved) ∧ out = .of ctx wired solved := by
  unfold analyze at h
  rcases hwire : ctx.wire with ⟨_ | _, wired⟩
  · rw [hwire] at h
    exact absurd h nofun
  · rw [hwire] at h
    rcases hsolve : ctx.solve wired.graph wired.policy with ⟨_ | _, solved⟩
    · simp only [hsolve] at h
      exact absurd h nofun
    · simp only [hsolve] at h
      cases h
      exact ⟨wired, solved, rfl, hsolve, rfl⟩

theorem Context.solve_ok {g : FlowGraph} {policy : Policy} {solved : Progress Notes}
    (h : ctx.solve g policy = (.ok (), solved)) :
    ∃ s, (prepare ctx).outcome { graph := g, policy, notes := {} } = (.ok (), s) ∧
      (settle ctx (passBound s.graph)).outcome s = (.ok (), solved) := by
  obtain ⟨_, s, hprepare, hsettle⟩ := outcome_bind_ok h
  exact ⟨s, hprepare, hsettle⟩

/-- How an outcome has come about: by moves from one state to another. -/
structure Solving.Ran (ctx : Context) (out : Outcome) (s t : Progress Notes) :
    Prop where
  graph_eq : out.graph = t.graph
  solution_eq : out.solution = t.notes.solution
  wired : ctx.wire.1 = .ok ()
  prepare_eq : (prepare ctx).outcome
    { graph := ctx.wire.2.graph, policy := ctx.wire.2.policy, notes := {} } = (.ok (), s)
  prepared : Prepared ctx ctx.wire.2.graph s
  moves : Moves ctx ⟨s, false⟩ ⟨t, false⟩
  settled : Settled ctx t

theorem Solving.ran (h : ctx.analyze = .ok out) : ∃ s t, Ran ctx out s t := by
  obtain ⟨wired, solved, hwire, hsolve, rfl⟩ := ctx.analyze_ok h
  obtain ⟨s, hprepare, hsettle⟩ := ctx.solve_ok hsolve
  have hs := (runs_prepare ctx (Context.wellFormed_wire hwire) wired.policy).gives _ _ hprepare
  refine ⟨s, solved, rfl, rfl, by rw [hwire], by rw [hwire]; exact hprepare,
    by rw [hwire]; exact hs, ?_, (settled_of_settle hs.toProper hsettle).2.2⟩
  exact (runs_settle _ hs.tidy).gives _ _ hsettle

namespace Solving.Ran

variable {s t : Progress Notes} (h : Ran ctx out s t)
include h

theorem proper : Proper ctx t :=
  h.moves.proper h.prepared.toProper

theorem tidy : Tidy ctx t :=
  h.proper.tidy

theorem develops : Develops ctx.wire.2.graph t.graph :=
  trans_of Develops h.prepared.develops h.moves.advances.1.toDevelops

/-- In an outcome, only operations that give views have given anything. -/
theorem producesViews {found : Op} (hop : out.graph.op? op = some found)
    (hresult : out.solution.results.holds op o) : found.kind.producesViews := by
  rw [h.graph_eq] at hop
  rw [h.solution_eq] at hresult
  have hproduced : Produced ⟨t, false⟩ := by
    refine Moves.keeps h.prepared.tidy (fun _ _ _ _ => Step.produced) h.moves ?_
    intro op found hop o hresult
    rw [h.prepared.given op found hop o hresult]
    rfl
  exact hproduced op found hop o hresult

end Solving.Ran

/-- What is known of the state that an analysis ends in. -/
structure Analyzed (ctx : Context) (out : Outcome) (st : Progress Notes) : Prop
    extends Proper ctx st where
  graph_eq : out.graph = st.graph
  solution_eq : out.solution = st.notes.solution
  settled : Settled ctx st
  develops : Develops ctx.wire.2.graph st.graph
  windows : WindowsFrom ctx.wire.2.graph st.notes.solution

theorem Solving.Ran.analyzed {t : Progress Notes} (h : Ran ctx out s t) :
    Analyzed ctx out t := by
  refine ⟨h.proper, h.graph_eq, h.solution_eq, h.settled, h.develops, ?_⟩
  rw [WindowsFrom, h.moves.advances.2.windows_eq]
  exact h.prepared.windows

theorem analyzed (h : ctx.analyze = .ok out) : ∃ st, Analyzed ctx out st := by
  obtain ⟨_, t, hran⟩ := ran h
  exact ⟨t, hran.analyzed⟩

theorem Context.exists_outcome {ctx : Context} {shows : Outcome → Prop} [DecidablePred shows]
    (h : ctx.analyze.toOption.any (fun out => decide (shows out)) = true) :
    ∃ out, ctx.analyze = .ok out ∧ shows out := by
  cases houtcome : ctx.analyze with
  | error error => simp [houtcome, Except.toOption] at h
  | ok out => exact ⟨out, rfl, by simpa [houtcome, Except.toOption] using h⟩

/-! ## A sample screen -/

namespace Sample

def view : Ty := .ref "android.view.View"

def call (base owner name : String) (res : Ty) (params : List Ty) (args : List Value) :
    CallExpr where
  kind := .virtual
  method := { owner, result := res, name, params }
  base := some base
  args

/-- A method of the screen that works on one view. -/
def method (name : String) (params : List Ty) (var : String) (body : List Stmt) : Method where
  sig := { owner := "app.Main", result := .void, name, params }
  locals := .ofList [("this", .ref "app.Main"), (var, view)]
  body := .identity "this" .this :: body

/-- A program with one activity. It looks a view up in its content, goes on to a child of that view,
and listens to clicks itself. When a click comes, it looks a view up again. -/
def scene : Scene where
  classes := [{
    name := "app.Main"
    superclass := some "android.app.Activity"
    interfaces := ["android.view.View$OnClickListener"] }]
  methods := #[
    method "onCreate" [.ref "android.os.Bundle"] "v" [
      .call (call "this" "app.Main" "setContentView" .void [.int] [.int 7]),
      .assign (.var "v") (.call (call "this" "app.Main" "findViewById" view [.int] [.int 42])),
      .assign (.var "v")
        (.call (call "v" "android.view.ViewGroup" "getChildAt" view [.int] [.int 0])),
      .call (call "v" "android.view.View" "setOnClickListener" .void
        [.ref "android.view.View$OnClickListener"] [.var "this"])],
    method "onClick" [view] "w" [
      .assign (.var "w") (.call (call "this" "app.Main" "findViewById" view [.int] [.int 42]))]]

/-- A layout of three views inside each other. -/
def resources : ResourceTable :=
  (ResourceTable.addId { sys := {}, sysLayouts := {} } .id "box" 42).addLayout "main" 7 {
    owner := some "android.widget.LinearLayout"
    id := some 42
    children := [{
      owner := some "android.widget.FrameLayout"
      children := [{ owner := some "android.widget.Button" }] }] }

/-- The classes that the program and its layout name. -/
def hierarchy : Hierarchy where
  classes := Hierarchy.enter
    (Hierarchy.enter {} [
      { name := "android.app.Activity" },
      { name := "android.view.View$OnClickListener", isInterface := true },
      { name := "android.view.View" },
      { name := "android.view.ViewGroup", superclass := some "android.view.View" },
      { name := "android.widget.LinearLayout", superclass := some "android.view.ViewGroup" },
      { name := "android.widget.FrameLayout", superclass := some "android.view.ViewGroup" },
      { name := "android.widget.Button", superclass := some "android.view.View" }])
    (scene.classes.map (.ofDecl scene))
  application := ["app.Main"]

def screen : Context where
  scene
  hierarchy
  resources

/-- What the analysis of the screen finds. Node 2 is the activity; 6, 7 and 11 are the look-ups in
the order of the program; 5 and 10 are the variable of the views and the activity in the second
method; 12 and 13 are the outer and the middle view. -/
def Seen (out : Outcome) : Prop :=
  ((out.graph.op? 6).map Op.kind = some .findInWindow ∧
    (out.graph.op? 7).map Op.kind = some (.findByPlace .children)) ∧
  (out.solution.results.holds 6 12 ∧ FlowsInto out.graph .receiver 6 7 ∧
    Inlet.receiver.admits screen.hierarchy out.graph 12 7) ∧
  (out.solution.results.holds 7 13 ∧ FlowsInto out.graph .receiver 7 7 ∧
    Inlet.receiver.admits screen.hierarchy out.graph 13 7 ∧
      ¬ (Inlet.receiver.values out.solution).holds 7 13) ∧
  ((out.graph.kind 2).isWindow ∧ out.solution.windows.holds 6 2) ∧
  ((out.graph.op? 11).map (fun op => (op.kind, op.receiver)) = some (.findInWindow, some 10) ∧
    10 ∈ out.graph.forwardReachable 2 ∧ ¬ out.solution.windows.holds 11 2)

instance (out : Outcome) : Decidable (Seen out) :=
  inferInstanceAs (Decidable (_ ∧ _))

/-- Beside this, the activity of the screen contains the outer view. -/
def Shown (out : Outcome) : Prop :=
  Seen out ∧ out.graph.kind 2 = .activity "app.Main" ∧ 12 ∈ out.graph.children 2

instance (out : Outcome) : Decidable (Shown out) :=
  inferInstanceAs (Decidable (_ ∧ _))

theorem screen_evaluated : ∃ out, screen.analyze = .ok out ∧ Shown out :=
  Context.exists_outcome (by decide +kernel)

theorem screen_analyzed : ∃ out, screen.analyze = .ok out ∧ Seen out := by
  obtain ⟨out, h, hseen, _⟩ := screen_evaluated
  exact ⟨out, h, hseen⟩

end Sample

namespace Outcome

/-! ## Flow -/

/-- Whatever an operation gives arrives at all other operations that it flows into, and every view
at all operations, where the slots admit them. -/
theorem flow_complete (h : ctx.analyze = .ok out) :
    (∀ src found, out.graph.op? src = some found → found.kind.producesViews →
      ∀ o, out.solution.results.holds src o → ∀ i dst, dst ≠ src →
        FlowsInto out.graph i src dst →
          i.admits ctx.hierarchy out.graph o dst →
            (i.values out.solution).holds dst o) ∧
    ∀ o, (out.graph.kind o).isShown → ∀ i dst,
      FlowsInto out.graph i o dst →
        i.admits ctx.hierarchy out.graph o dst →
          (i.values out.solution).holds dst o := by
  obtain ⟨st, hstate⟩ := analyzed h
  rw [hstate.graph_eq, hstate.solution_eq]
  refine ⟨fun src found hop hproduces o hresult i dst hne hflows hadmits => ?_,
    hstate.complete.values⟩
  -- the path is known, and the results of its source have been pushed along it
  have hsource := hstate.complete.sources src found hop hproduces i dst hne hflows
  exact (hstate.settled src found hop).2 i dst o hsource hresult hadmits

/-- On the sample screen, what the first look-up gives arrives at the second one. -/
theorem flow_complete_screen :
    ∃ out, Sample.screen.analyze = .ok out ∧ out.solution.results.holds 6 12 ∧
      FlowsInto out.graph .receiver 6 7 ∧
        (Inlet.receiver.values out.solution).holds 7 12 := by
  obtain ⟨out, h, ⟨hkind, _⟩, ⟨hresult, hflows, hadmits⟩, _⟩ := Sample.screen_analyzed
  obtain ⟨found, hop, hkind⟩ := Option.map_eq_some_iff.mp hkind
  refine ⟨out, h, hresult, hflows, ?_⟩
  exact (flow_complete h).1 6 found hop (by rw [hkind]; rfl) 12 hresult .receiver 7 (by decide)
    hflows hadmits

/-- What a look-up gives need not arrive at the same look-up when it flows back there: on the sample
screen, the child of the outer view flows to the variable whose children are looked up. -/
theorem flow_into_itself_incomplete :
    ¬ ∀ (ctx : Context) (out : Outcome), ctx.analyze = .ok out →
      ∀ src found, out.graph.op? src = some found → found.kind.producesViews →
        ∀ o, out.solution.results.holds src o → ∀ i dst,
          FlowsInto out.graph i src dst →
            i.admits ctx.hierarchy out.graph o dst →
              (i.values out.solution).holds dst o := by
  intro hall
  obtain ⟨out, h, ⟨_, hkind⟩, _, ⟨hresult, hflows, hadmits, hmissing⟩, _⟩ :=
    Sample.screen_analyzed
  obtain ⟨found, hop, hkind⟩ := Option.map_eq_some_iff.mp hkind
  have hproduces : found.kind.producesViews := by rw [hkind]; rfl
  exact hmissing (hall Sample.screen out h 7 found hop hproduces 13 hresult .receiver 7 hflows
    hadmits)

/-! ## Resolution -/

section Resolution

variable {st : Progress Notes} {op : NodeId} {found : Op}

/-- Look-ups have given exactly what they find and their results admit. -/
theorem results_iff (hstate : Analyzed ctx out st) (hop : st.graph.op? op = some found)
    (hfind : found.kind.isFind) (hkind : found.kind ≠ .findInView .menuItem) :
    st.notes.solution.results.holds op o ↔
      Finds ctx st.graph st.notes.solution op o found.kind ∧
        ctx.hierarchy.admits st.graph o op .result := by
  refine ⟨hstate.justified op found hop hfind hkind o, fun hfound => ?_⟩
  have hgiven := (hstate.settled op found hop).1.given
  exact (hgiven o ⟨(mem_foundBy_iff hkind).mpr hfound.1, hfound.2⟩).1

/-- A look-up in a window finds nothing without an identifier. -/
theorem exists_viewId {g : FlowGraph} {sol : Solution}
    (h : Finds ctx g sol op o .findInWindow) :
    ∃ id, sol.viewIds.holds op id := by
  obtain ⟨_, _, ⟨⟨_, id, _, _, hid, _⟩, _⟩ | ⟨_, _, _, id, hid, _⟩⟩ := h
  · exact ⟨id, hid⟩
  · exact ⟨id, hid⟩

theorem isSome_idOf? (hstate : Analyzed ctx out st) (hop : st.graph.op? op = some found)
    (hkind : found.kind = .setId) {id view : NodeId}
    (hid : st.notes.solution.viewIds.holds op id ∨ st.notes.solution.layoutIds.holds op id)
    (hview : st.notes.solution.receivers.holds op view) : (st.graph.idOf? view).isSome := by
  have hnamed : Named op st := by
    have hresolved := (hstate.settled op found hop).1
    rwa [hkind] at hresolved
  refine hnamed (fun hnone => ?_) view hview
  unfold givenIds at hnone
  rw [← Relation.mem_image, ← Relation.mem_image] at hid
  split at hnone
  next hempty => simp [hempty, hnone] at hid
  next hne => exact hne hnone

/-- At the end, look-ups have given exactly what they find and their results admit, and those in a
window nothing without an identifier; views are inside the views and the windows that they have been
added to; and views that have been named have identifiers. -/
theorem resolution_exact (h : ctx.analyze = .ok out)
    (hop : out.graph.op? op = some found) :
    (found.kind.isFind → found.kind ≠ .findInView .menuItem → ∀ o,
      out.solution.results.holds op o ↔
        Finds ctx out.graph out.solution op o found.kind ∧
          ctx.hierarchy.admits out.graph o op .result) ∧
    (found.kind = .findInWindow → (∀ id, ¬ out.solution.viewIds.holds op id) → ∀ o,
      ¬ out.solution.results.holds op o) ∧
    (found.kind = .addChild → ∀ p c, out.solution.receivers.holds op p →
      out.solution.parameters.holds op c → p ≠ c →
        out.graph.Contains p c) ∧
    (found.kind = .setContent → ∀ win view, out.solution.windows.holds op win →
      out.solution.parameters.holds op view → out.graph.Contains win view) ∧
    (found.kind = .setId → ∀ id,
      out.solution.viewIds.holds op id ∨ out.solution.layoutIds.holds op id →
        ∀ view, out.solution.receivers.holds op view → (out.graph.idOf? view).isSome) := by
  obtain ⟨st, hstate⟩ := analyzed h
  rw [hstate.graph_eq] at hop
  rw [hstate.graph_eq, hstate.solution_eq]
  have hresolved := (hstate.settled op found hop).1
  refine ⟨fun hfind hkind _ => results_iff hstate hop hfind hkind, ?_, ?_, ?_, ?_⟩
  · intro hkind hnone o hresult
    rw [results_iff hstate hop (by rw [hkind]; rfl) (by rw [hkind]; nofun), hkind] at hresult
    obtain ⟨id, hid⟩ := exists_viewId hresult.1
    exact hnone id hid
  · intro hkind p c hparent hchild hne
    rw [hkind] at hresolved
    exact hresolved p c hparent hchild hne
  · intro hkind win view hwindow hview
    rw [hkind] at hresolved
    exact hresolved win view hwindow hview
  · exact fun hkind _ hid _ => isSome_idOf? hstate hop hkind hid

/-- On the sample screen, the look-up of children has given the children of its receivers. -/
theorem resolution_exact_screen :
    ∃ out, Sample.screen.analyze = .ok out ∧ ∃ found, out.graph.op? 7 = some found ∧
      found.kind = .findByPlace .children ∧ ∀ o, out.solution.results.holds 7 o ↔
        Finds Sample.screen out.graph out.solution 7 o (.findByPlace .children) ∧
          Sample.screen.hierarchy.admits out.graph o 7 .result := by
  obtain ⟨out, h, ⟨_, hkind⟩, _⟩ := Sample.screen_analyzed
  obtain ⟨found, hop, hkind⟩ := Option.map_eq_some_iff.mp hkind
  refine ⟨out, h, found, hop, hkind, ?_⟩
  have hexact := (resolution_exact h hop).1
  rw [hkind] at hexact
  exact hexact rfl nofun

end Resolution

/-! ## The passes -/

/-- A state has all that another one has, and nodes keep their identifiers. -/
structure OnlyAdds (old new : Progress Notes) : Prop where
  edges : ∀ edge ∈ old.graph.edges, edge ∈ new.graph.edges
  links : ∀ link ∈ old.graph.links, link ∈ new.graph.links
  handlers : ∀ op, ∀ handler ∈ old.graph.handlersOf op, handler ∈ new.graph.handlersOf op
  ids : ∀ n id, old.graph.idOf? n = some id → new.graph.idOf? n = some id
  parameters : old.notes.solution.parameters.Within new.notes.solution.parameters
  receivers : old.notes.solution.receivers.Within new.notes.solution.receivers
  results : old.notes.solution.results.Within new.notes.solution.results
  listeners : old.notes.solution.listeners.Within new.notes.solution.listeners

theorem onlyAdds_of_advances {old new : Progress Notes} (h : Advances old new) :
    OnlyAdds old new where
  edges := h.1.edges
  links := h.1.links
  handlers op handler hhandler := by
    simp only [handlersOf, Handler.sort, Ordered.mem_sort, List.mem_map, List.mem_filter,
      Array.mem_toList_iff] at hhandler ⊢
    obtain ⟨binding, ⟨hbinding, hop⟩, rfl⟩ := hhandler
    exact ⟨binding, ⟨h.1.bindings binding hbinding, hop⟩, rfl⟩
  ids := h.1.idOf?_eq
  parameters := h.2.values .parameter
  receivers := h.2.values .receiver
  results := h.2.results
  listeners := h.2.values .listener

/-- From the state after all resources have been inflated, there are only so many passes that change
anything, and the bound on their number never cuts them off: they end with a pass that fails or
reports no change. Every pass only adds to the state. If all ends well, another pass would change
neither the graph nor the solution. -/
theorem passes_reach_fixpoint {wired : Progress Wiring.Notes} {policy : Policy}
    {s : Progress Notes} (hwire : ctx.wire = (.ok (), wired))
    (hs : (prepare ctx).outcome { graph := wired.graph, policy, notes := {} } =
      (.ok (), s)) :
    (∀ count last, Rounds ctx s count last → count < passBound s.graph ∧
      ∀ changed next, (pass ctx).outcome last = (.ok changed, next) → OnlyAdds last next) ∧
    (∀ res t, (settle ctx (passBound s.graph)).outcome s = (res, t) →
      ∃ count last, Rounds ctx s count last ∧
        (pass ctx).outcome last = (res.map fun _ => false, t)) ∧
    (∀ t, (settle ctx (passBound s.graph)).outcome s = (.ok (), t) →
      ∃ again, (pass ctx).outcome t = (.ok false, again) ∧ again.graph = t.graph ∧
        t.notes.solution.Same again.notes.solution) := by
  have hproper : Proper ctx s :=
    ((runs_prepare ctx (Context.wellFormed_wire hwire) policy).gives _ _ hs).toProper
  refine ⟨fun count last hrounds => ⟨hrounds.lt_passBound hproper, fun changed next hpass => ?_⟩,
    fun res t => settle_ends hproper, fun t hsettle => ?_⟩
  · have hlast := (hrounds.reached hproper).1
    exact onlyAdds_of_advances ((runs_pass hlast.tidy).gives _ _ hpass).advances
  · obtain ⟨_, _, hsettled⟩ := settled_of_settle hproper hsettle
    obtain ⟨again, houtcome, hstill⟩ := rests_pass hsettled
    exact ⟨again, houtcome, hstill.graph_eq, hstill.same⟩

/-- On the sample screen, the passes end well, and another one would change nothing. -/
theorem passes_reach_fixpoint_screen :
    ∃ wired s t, Sample.screen.wire = (.ok (), wired) ∧
      (prepare Sample.screen).outcome
        { graph := wired.graph, policy := wired.policy, notes := {} } = (.ok (), s) ∧
      (settle Sample.screen (passBound s.graph)).outcome s = (.ok (), t) ∧
      ∃ again, (pass Sample.screen).outcome t = (.ok false, again) ∧ again.graph = t.graph ∧
        t.notes.solution.Same again.notes.solution := by
  obtain ⟨out, h, _⟩ := Sample.screen_analyzed
  obtain ⟨wired, solved, hwire, hsolve, _⟩ := Context.analyze_ok h
  obtain ⟨s, hprepare, hsettle⟩ := Context.solve_ok hsolve
  have hfixpoint := (passes_reach_fixpoint hwire hprepare).2.2 solved hsettle
  exact ⟨wired, s, solved, hwire, hprepare, hsettle, hfixpoint⟩

/-! ## Producers -/

theorem inflate_or_isFind {kind : OpKind} (h : kind.producesViews) :
    kind = .inflate ∨ kind.isFind := by
  cases kind with
  | inflate => exact .inl rfl
  | findInView _ | findInWindow | findByPlace _ => exact .inr rfl
  | _ => cases h

/-- The producers of a node are the operations that have given it. -/
theorem producers_iff (h : ctx.analyze = .ok out) {n : NodeId} :
    out.solution.viewProducers.holds n op ↔ out.solution.results.holds op n := by
  obtain ⟨st, hstate⟩ := analyzed h
  rw [hstate.solution_eq]
  exact (hstate.tidy.sound.fits.producers op n).symm

/-- The producers of a node are the operations that have given it, which inflate it or find it. So
they are its inflations just if no look-up has found it. -/
theorem producers_exact (h : ctx.analyze = .ok out) (n : NodeId) :
    (∀ op, out.solution.viewProducers.holds n op ↔
      out.solution.results.holds op n ∧
        ∃ found, out.graph.op? op = some found ∧
          (found.kind = .inflate ∨ found.kind.isFind)) ∧
    ((∀ op, out.solution.viewProducers.holds n op ↔
      out.solution.results.holds op n ∧
        ∃ found, out.graph.op? op = some found ∧ found.kind = .inflate) ↔
      ∀ op found, out.graph.op? op = some found → found.kind.isFind →
        ¬ out.solution.results.holds op n) := by
  obtain ⟨s, t, hran⟩ := ran h
  have hgiven : ∀ op, out.solution.results.holds op n →
      ∃ found, out.graph.op? op = some found ∧
        (found.kind = .inflate ∨ found.kind.isFind) := by
    intro op hresult
    have hisOp : out.graph.isOp op := by
      rw [hran.graph_eq]
      exact (hran.tidy.sound.fits.results op n (hran.solution_eq ▸ hresult)).1
    obtain ⟨found, hop⟩ := isOp_iff.mp hisOp
    exact ⟨found, hop, inflate_or_isFind (hran.producesViews hop hresult)⟩
  refine ⟨fun op => ⟨fun hproducer => ?_, fun hresult => (producers_iff h).mpr hresult.1⟩, ?_, ?_⟩
  · have hresult := (producers_iff h).mp hproducer
    exact ⟨hresult, hgiven op hresult⟩
  · intro hinflations op found hop hfind hresult
    obtain ⟨_, other, hother, hkind⟩ := (hinflations op).mp ((producers_iff h).mpr hresult)
    cases hop.symm.trans hother
    rw [hkind] at hfind
    cases hfind
  · intro hnone op
    rw [producers_iff h]
    refine ⟨fun hresult => ⟨hresult, ?_⟩, fun hresult => hresult.1⟩
    obtain ⟨found, hop, hkind⟩ := hgiven op hresult
    exact ⟨found, hop, hkind.resolve_right fun hfind => hnone op found hop hfind hresult⟩

theorem producers_exact_screen :
    ∃ out, Sample.screen.analyze = .ok out ∧ out.solution.results.holds 6 12 ∧
      ∃ found, out.graph.op? 6 = some found ∧ (found.kind = .inflate ∨ found.kind.isFind) := by
  obtain ⟨out, h, _, ⟨hresult, _⟩, _⟩ := Sample.screen_analyzed
  refine ⟨out, h, hresult, ?_⟩
  exact (((producers_exact h 12).1 6).mp ((producers_iff h).mpr hresult)).2

/-- A producer need not be an inflation: on the sample screen, the look-up that finds the outer view
is one of its producers. -/
theorem producers_beyond_inflations :
    ¬ ∀ (ctx : Context) (out : Outcome), ctx.analyze = .ok out → ∀ n op,
      out.solution.viewProducers.holds n op →
        (out.graph.op? op).map Op.kind = some .inflate := by
  intro hall
  obtain ⟨out, h, ⟨hkind, _⟩, ⟨hresult, _⟩, _⟩ := Sample.screen_analyzed
  have hinflate := hall Sample.screen out h 12 6 ((producers_iff h).mpr hresult)
  rw [hkind] at hinflate
  cases hinflate

/-! ## Windows -/

/-- The windows of an operation are those that flow to its receiver in the graph of the program as
it was wired, before any listener was bound. -/
theorem windows_exact (h : ctx.analyze = .ok out) {op : NodeId} {found : Op}
    (hop : out.graph.op? op = some found) (htakes : found.kind.takesWindow) (win : NodeId) :
    out.solution.windows.holds op win ↔
      (out.graph.kind win).isWindow ∧
        ∃ receiver, found.receiver = some receiver ∧
          receiver ∈ ctx.wire.2.graph.forwardReachable win := by
  obtain ⟨st, hstate⟩ := analyzed h
  -- solving makes no operations and no windows, so both are those of the wired graph
  rw [hstate.graph_eq, hstate.develops.op?_eq] at hop
  rw [hstate.graph_eq, hstate.solution_eq, hstate.windows op win, hstate.develops.isWindow_eq]
  refine and_congr_right fun _ => ?_
  constructor
  · rintro ⟨found', receiver, hop', _, hreceiver, hreach⟩
    cases hop.symm.trans hop'
    exact ⟨receiver, hreceiver, hreach⟩
  · rintro ⟨receiver, hreceiver, hreach⟩
    exact ⟨found, receiver, hop, htakes, hreceiver, hreach⟩

theorem windows_exact_screen :
    ∃ out, Sample.screen.analyze = .ok out ∧ out.solution.windows.holds 6 2 ∧
      ∃ found receiver, out.graph.op? 6 = some found ∧ found.receiver = some receiver ∧
        receiver ∈ Sample.screen.wire.2.graph.forwardReachable 2 := by
  obtain ⟨out, h, ⟨hkind, _⟩, _, _, ⟨_, hwindow⟩, _⟩ := Sample.screen_analyzed
  obtain ⟨found, hop, hkind⟩ := Option.map_eq_some_iff.mp hkind
  obtain ⟨_, receiver, hreceiver, hreach⟩ :=
    (windows_exact h hop (by rw [hkind]; rfl) 2).mp hwindow
  exact ⟨out, h, hwindow, found, receiver, hop, hreceiver, hreach⟩

/-- A window that flows to the receiver of an operation in the final graph need not be a window of
it: on the sample screen, the activity flows to its own handler because it listens to itself. -/
theorem windows_of_listener_incomplete :
    ¬ ∀ (ctx : Context) (out : Outcome), ctx.analyze = .ok out →
      ∀ win op found receiver, (out.graph.kind win).isWindow →
        out.graph.op? op = some found →
          found.kind = .findInWindow ∨ found.kind = .setContent →
            found.receiver = some receiver → receiver ∈ out.graph.forwardReachable win →
              out.solution.windows.holds op win := by
  intro hall
  obtain ⟨out, h, _, _, _, ⟨hwindow, _⟩, ⟨hop, hreach, hmissing⟩⟩ := Sample.screen_analyzed
  obtain ⟨found, hop, hfound⟩ := Option.map_eq_some_iff.mp hop
  obtain ⟨hkind, hreceiver⟩ := Prod.mk.inj hfound
  exact hmissing (hall Sample.screen out h 2 11 found 10 hwindow hop (.inl hkind) hreceiver
    hreach)

end Outcome

end WidgetFlow
