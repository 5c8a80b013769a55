import WidgetFlow.Proofs.Dispatch
import WidgetFlow.Proofs.Solution.Bonds
import WidgetFlow.Proofs.Outcome
import WidgetFlow.Proofs.Wiring.Registrations

/-!
# The handlers of registrations

Solving gives a registration exactly the handlers that dispatch finds for its views and listeners,
and lets the views and listeners flow into them (`Outcome.handlers_exact`). Only registrations that
the wiring has left open get handlers.
-/

namespace WidgetFlow

open Analysis FlowGraph Solving

variable {ctx : Context} {out : Outcome}

theorem FlowGraph.mem_handlersOf {g : FlowGraph} {op : NodeId} {handler : Handler} :
    handler ∈ g.handlersOf op ↔ (op, handler) ∈ g.bindings := by
  simp only [handlersOf, Handler.sort, Ordered.mem_sort, List.mem_map, List.mem_filter,
    Array.mem_toList_iff, decide_eq_true_eq]
  constructor
  · rintro ⟨⟨_, _⟩, ⟨hbinding, rfl⟩, rfl⟩
    exact hbinding
  · exact fun hbinding => ⟨_, ⟨hbinding, rfl⟩, rfl⟩

/-- A view and a listener of a registration have a method run: when the event comes to the view, the
method answers it on the listener. -/
structure Outcome.Runs (ctx : Context) (out : Outcome) (op : NodeId) (interface : String)
    (view lis : NodeId) (prototype : Platform.Prototype) (m : MethodId) : Prop where
  received : out.solution.receivers.holds op view
  shown : (out.graph.kind view).isContextMenu = false
  registered : out.solution.listeners.holds op lis
  answers : ∃ owner, (out.graph.kind lis).owner? = some owner ∧
    ctx.Answers owner interface prototype m

namespace Solving

variable {s t : Progress Notes} {op view lis : NodeId}

theorem Ran.bonds (h : Ran ctx out s t) : Bonds ctx s.graph t :=
  h.moves.bonds h.prepared.tidy h.prepared.unbound

/-- What handles the events of a view and a listener at the end is what did so before the passes. -/
theorem Ran.handles_eq (h : Ran ctx out s t)
    (hview : t.notes.solution.receivers.holds op view)
    (hlistener : t.notes.solution.listeners.holds op lis) :
    ctx.Handles s.graph op view lis = ctx.Handles out.graph op view lis := by
  have hg := h.moves.advances.1
  have hfits := h.proper.sound.fits
  have hobject := (hfits.values .receiver op view hview).2
  have hobject' := (hfits.values .listener op lis hlistener).2
  rw [h.graph_eq]
  exact (handles_congr hg.toDevelops (lt_size_of_isObject (hg.hasObject_iff.mp hobject))
    (lt_size_of_isObject (hg.hasObject_iff.mp hobject'))).symm

theorem Ran.mem_bound (h : Ran ctx out s t) (hopen : OpenAt out.graph op)
    (hview : out.solution.receivers.holds op view)
    (hlistener : out.solution.listeners.holds op lis) :
    (op, view, lis) ∈ t.notes.bound := by
  rw [h.graph_eq] at hopen
  rw [h.solution_eq] at hview hlistener
  exact h.settled.mem_bound hopen hview hlistener

theorem handles_iff_runs {registration : Platform.Registration}
    (hregistered : ctx.registered? out.graph op = some registration) {m : MethodId}
    (hview : out.solution.receivers.holds op view)
    (hlistener : out.solution.listeners.holds op lis) :
    ctx.Handles out.graph op view lis registration.interface m ↔
      ∃ prototype,
        out.Runs ctx op registration.interface view lis prototype m := by
  constructor
  · rintro ⟨hshown, _, owner, _, _, howner, hmethod⟩
    obtain ⟨prototype, hanswers⟩ := Context.mem_handlersFor.mp hmethod
    exact ⟨prototype, hview, hshown, hlistener, owner, howner, hanswers⟩
  · rintro ⟨prototype, hruns⟩
    obtain ⟨owner, howner, hanswers⟩ := hruns.answers
    exact ⟨hruns.shown, registration, owner, hregistered, rfl, howner,
      Context.mem_handlersFor.mpr ⟨prototype, hanswers⟩⟩

/-- An open registration comes from a call that registers a listener, and has no handlers yet. -/
theorem Ran.registered (h : Ran ctx out s t) (hopen : OpenAt out.graph op) :
    (∃ registration, ctx.registered? out.graph op = some registration) ∧
      ∀ handler, (op, handler) ∉ s.graph.bindings := by
  have hwired := ctx.registered_wire h.wired
  have hg := h.develops
  rw [h.graph_eq] at hopen ⊢
  obtain ⟨⟨found, hop, hkind⟩, hprebound⟩ := (openAt_congr hg op).mp hopen
  constructor
  · have hregistered := (hwired.matched op found hop hkind).resolve_left hprebound
    rw [Context.registered?, hg.op?_eq]
    exact Option.isSome_iff_exists.mp hregistered
  · intro handler hbinding
    rw [h.prepared.sprouts.bindings_eq] at hbinding
    exact hprebound (hwired.bound (op, handler) hbinding)

variable {registration : Platform.Registration} {prototype : Platform.Prototype} {m : MethodId}

theorem Ran.mem_bound_of_runs (h : Ran ctx out s t) (hopen : OpenAt out.graph op)
    (hregistered : ctx.registered? out.graph op = some registration)
    (hruns : out.Runs ctx op registration.interface view lis prototype m) :
    (op, view, lis) ∈ t.notes.bound ∧
      ctx.Handles s.graph op view lis registration.interface m := by
  have hbound := h.mem_bound hopen hruns.received hruns.registered
  obtain ⟨_, hview, hlistener⟩ := h.bonds.opened op view lis hbound
  rw [h.handles_eq hview hlistener]
  exact ⟨hbound, (handles_iff_runs hregistered hruns.received hruns.registered).mpr ⟨_, hruns⟩⟩

theorem Ran.mem_handlersOf_iff (h : Ran ctx out s t) (hopen : OpenAt out.graph op)
    (hregistered : ctx.registered? out.graph op = some registration) (handler : Handler) :
    handler ∈ out.graph.handlersOf op ↔
      ∃ m view lis prototype, handler = .method m ∧
        out.Runs ctx op registration.interface view lis prototype m := by
  rw [mem_handlersOf]
  constructor
  · intro hbinding
    rw [h.graph_eq] at hbinding
    rcases h.bonds.bindings _ hbinding with hold | ⟨op', view, lis, hbound, hbestows⟩
    · exact absurd hold ((h.registered hopen).2 handler)
    obtain ⟨interface, m, hhandles, heq⟩ := hbestows
    cases heq
    obtain ⟨_, hview, hlistener⟩ := h.bonds.opened op view lis hbound
    rw [h.handles_eq hview hlistener] at hhandles
    rw [← h.solution_eq] at hview hlistener
    obtain rfl : registration.interface = interface := by
      obtain ⟨_, found, _, hfound, hinterface, _⟩ := hhandles
      cases hregistered.symm.trans hfound
      exact hinterface
    obtain ⟨prototype, hruns⟩ := (handles_iff_runs hregistered hview hlistener).mp hhandles
    exact ⟨m, view, lis, prototype, rfl, hruns⟩
  · rintro ⟨m, view, lis, prototype, rfl, hruns⟩
    obtain ⟨hbound, hhandles⟩ := h.mem_bound_of_runs hopen hregistered hruns
    rw [h.graph_eq]
    exact h.bonds.bestowed op view lis hbound _ ⟨_, m, hhandles, rfl⟩

theorem Ran.hasEdge (h : Ran ctx out s t) (hopen : OpenAt out.graph op)
    (hregistered : ctx.registered? out.graph op = some registration)
    (hruns : out.Runs ctx op registration.interface view lis prototype m)
    {src : NodeId} {var : Var}
    (hfeeds : ctx.FeedsHandler registration.interface view lis m src var) :
    ∃ dst, out.graph.find? (.var var) = some dst ∧
      out.graph.hasEdge src dst := by
  obtain ⟨hbound, hhandles⟩ := h.mem_bound_of_runs hopen hregistered hruns
  rw [h.graph_eq]
  exact h.bonds.fed op view lis hbound src var ⟨_, m, hhandles, hfeeds⟩

/-- Operations that are no open registrations keep their handlers. -/
theorem Ran.mem_handlersOf_closed (h : Ran ctx out s t)
    (hclosed : ¬ OpenAt out.graph op) (handler : Handler) :
    handler ∈ out.graph.handlersOf op ↔ handler ∈ ctx.wire.2.graph.handlersOf op := by
  rw [mem_handlersOf, mem_handlersOf, ← h.prepared.sprouts.bindings_eq, h.graph_eq]
  refine ⟨fun hbinding => ?_, h.moves.advances.1.bindings _⟩
  refine (h.bonds.bindings _ hbinding).resolve_right ?_
  rintro ⟨op', view, lis, hbound, _, _, _, heq⟩
  cases heq
  rw [h.graph_eq, openAt_congr h.moves.advances.1.toDevelops] at hclosed
  exact hclosed (h.bonds.opened op view lis hbound).1

end Solving

/-- The variable of a handler that gets the view. -/
theorem Context.Answers.viewVar?_eq (hctx : ctx.Coherent) {owner interface : String}
    {prototype : Platform.Prototype} {m : MethodId}
    (h : ctx.Answers owner interface prototype m) {position : Nat} {name : String}
    (hposition : prototype.viewAt = some position)
    (hname : (ctx.scene.method m).paramVar? position = some name)
    (htyped : (ctx.varClass? m name).any fun owner =>
      ctx.hierarchy.isView owner || ctx.hierarchy.isMenuItem owner) :
    ctx.viewVar? interface m = some (.named m name) := by
  rw [viewVar?, h.viewPosition?_eq hctx, hposition, Option.bind_some, viewParam, hname]
  dsimp only
  rw [if_pos htyped]

/-! ## A sample form -/

namespace Sample

/-- An activity looks a button up and listens to its clicks itself. -/
def formScene : Scene where
  classes := [{
    name := "app.Main"
    superclass := some "android.app.Activity"
    interfaces := ["android.view.View$OnClickListener"] }]
  methods := #[
    method "onCreate" [.ref "android.os.Bundle"] "v" [
      .call (call "this" "app.Main" "setContentView" .void [.int] [.int 7]),
      .assign (.var "v") (.call (call "this" "app.Main" "findViewById" view [.int] [.int 42])),
      .call (call "v" "android.view.View" "setOnClickListener" .void
        [.ref "android.view.View$OnClickListener"] [.var "this"])],
    method "onClick" [view] "c" [.identity "c" (.parameter 0)]]

def formResources : ResourceTable :=
  (ResourceTable.addId { sys := {}, sysLayouts := {} } .id "box" 42).addLayout "main" 7 {
    owner := some "android.widget.Button"
    id := some 42 }

def formHierarchy : Hierarchy where
  classes := Hierarchy.enter
    (Hierarchy.enter {} [
      { name := "android.app.Activity" },
      { name := "android.view.View$OnClickListener", isInterface := true },
      { name := "android.view.View" },
      { name := "android.widget.Button", superclass := some "android.view.View" }])
    (formScene.classes.map (.ofDecl formScene))
  application := ["app.Main"]

def form : Context where
  scene := formScene
  hierarchy := formHierarchy
  resources := formResources

theorem form_coherent : form.Coherent := by
  refine Hierarchy.coherent_enter (Hierarchy.coherent_enter Hierarchy.coherent_empty ?_) ?_
  · intro info hinfo subsig m id hmethod
    have hempty : info.methods = {} := by
      simp only [List.mem_cons, List.not_mem_nil, or_false] at hinfo
      rcases hinfo with rfl | rfl | rfl | rfl <;> rfl
    simp [hempty] at hmethod
  · intro info hinfo
    obtain ⟨decl, _, rfl⟩ := List.mem_map.mp hinfo
    exact ClassInfo.coherent_ofDecl formScene decl

theorem form_answers :
    form.Answers "app.Main" Platform.ClassName.onClickListener
      ⟨Platform.Method.viewOnClick, some 0⟩ 1 where
  subclass := by decide +kernel
  declared := by decide +kernel
  dispatched := by decide +kernel
  concrete := by decide +kernel
  listener := by decide +kernel

/-- What the analysis of the form finds. Node 7 is the registration, 2 the activity and 8 the
button. -/
def Listens (out : Outcome) : Prop :=
  ((out.graph.op? 7).map (fun op => op.kind.isSetListener) = some true ∧
    out.graph.isPrebound 7 = false ∧
    (form.registered? out.graph 7).map Platform.Registration.interface =
      some Platform.ClassName.onClickListener) ∧
  out.solution.receivers.holds 7 8 ∧ (out.graph.kind 8).isContextMenu = false ∧
    out.solution.listeners.holds 7 2 ∧ (out.graph.kind 2).owner? = some "app.Main"

instance (out : Outcome) : Decidable (Listens out) :=
  inferInstanceAs (Decidable (_ ∧ _))

theorem form_analyzed : ∃ out, form.analyze = .ok out ∧ Listens out :=
  Context.exists_outcome (by decide +kernel)

end Sample

namespace Outcome

/-- An open registration comes from a call that registers a listener. Its handlers are exactly the
methods that its views and listeners have run, and both flow into them: listeners into the receivers
of these methods, and views into the parameters for the view, where these are typed as views or menu
items. All other operations have the handlers that they have in the graph of the program. -/
theorem handlers_exact (hctx : ctx.Coherent) (h : ctx.analyze = .ok out) :
    (∀ op found, out.graph.op? op = some found → found.kind.isSetListener →
      ¬ out.graph.isPrebound op →
      ∃ registration, ctx.registered? out.graph op = some registration ∧
        (∀ handler, handler ∈ out.graph.handlersOf op ↔
          ∃ m view lis prototype, handler = .method m ∧
            out.Runs ctx op registration.interface view lis prototype m) ∧
        ∀ view lis prototype m,
          out.Runs ctx op registration.interface view lis prototype m →
          (∀ this, (ctx.scene.method m).thisVar? = some this →
            ∃ dst, out.graph.find? (.var (.named m this)) = some dst ∧
              out.graph.hasEdge lis dst) ∧
          (∀ position formal, prototype.viewAt = some position →
            (ctx.scene.method m).paramVar? position = some formal →
              ((ctx.varClass? m formal).any fun owner =>
                ctx.hierarchy.isView owner || ctx.hierarchy.isMenuItem owner) →
                ∃ dst, out.graph.find? (.var (.named m formal)) = some dst ∧
                  out.graph.hasEdge view dst)) ∧
    ∀ op, (∀ found, out.graph.op? op = some found → found.kind.isSetListener →
        out.graph.isPrebound op) →
      ∀ handler, handler ∈ out.graph.handlersOf op ↔
        handler ∈ ctx.wire.2.graph.handlersOf op := by
  obtain ⟨s, t, hran⟩ := ran h
  refine ⟨fun op found hop hkind hprebound => ?_, fun op hclosed handler => ?_⟩
  · have hopen : OpenAt out.graph op := ⟨⟨found, hop, hkind⟩, hprebound⟩
    obtain ⟨⟨registration, hregistered⟩, _⟩ := hran.registered hopen
    refine ⟨registration, hregistered, hran.mem_handlersOf_iff hopen hregistered, ?_⟩
    intro view lis prototype m hruns
    refine ⟨fun this hthis => ?_, fun position formal hposition hformal htyped => ?_⟩
    · refine hran.hasEdge hopen hregistered hruns (.inl ⟨rfl, ?_⟩)
      rw [Context.thisVar?, hthis]
      rfl
    · obtain ⟨owner, _, hanswers⟩ := hruns.answers
      exact hran.hasEdge hopen hregistered hruns
        (.inr ⟨rfl, hanswers.viewVar?_eq hctx hposition hformal htyped⟩)
  · refine hran.mem_handlersOf_closed ?_ handler
    rintro ⟨⟨found, hop, hkind⟩, hprebound⟩
    exact hprebound (hclosed found hop hkind)

/-- In the sample form, the second method handles the clicks on the button, and both the activity
and the button flow into it. -/
theorem handlers_exact_form :
    ∃ out, Sample.form.analyze = .ok out ∧ .method 1 ∈ out.graph.handlersOf 7 ∧
      (∃ dst, out.graph.find? (.var (.named 1 "this")) = some dst ∧
        out.graph.hasEdge 2 dst) ∧
      ∃ dst, out.graph.find? (.var (.named 1 "c")) = some dst ∧
        out.graph.hasEdge 8 dst := by
  obtain ⟨out, h, ⟨hkind, hprebound, hinterface⟩, hview, hshown, hlistener, howner⟩ :=
    Sample.form_analyzed
  obtain ⟨found, hop, hkind⟩ := Option.map_eq_some_iff.mp hkind
  obtain ⟨registration, hregistered, hhandlers, hedges⟩ :=
    (handlers_exact Sample.form_coherent h).1 7 found hop hkind (by simp [hprebound])
  rw [hregistered] at hinterface
  have hruns : out.Runs Sample.form 7 registration.interface 8 2
      ⟨Platform.Method.viewOnClick, some 0⟩ 1 :=
    ⟨hview, hshown, hlistener, "app.Main", howner, Option.some.inj hinterface ▸ Sample.form_answers⟩
  obtain ⟨hthis, hformal⟩ := hedges 8 2 _ 1 hruns
  refine ⟨out, h, (hhandlers _).mpr ⟨1, 8, 2, _, rfl, hruns⟩, hthis "this" rfl, ?_⟩
  exact hformal 0 "c" rfl rfl (by decide +kernel)

end Outcome

end WidgetFlow
