import WidgetFlow.Proofs.Agreement
import WidgetFlow.Proofs.Dispatch
import WidgetFlow.Proofs.Solution.Planting
import WidgetFlow.Proofs.Solution.Preparation
import WidgetFlow.Proofs.Solution.Schedules

/-!
# How an analysis ends

Where violations are recorded, nothing that is missing or misplaced stops an analysis. What is left
are the errors of the actions themselves: a node cannot be put into itself, and a method may have no
target. Solving never comes to either (`Solving.runs_solve`): inflation puts only new nodes into old
ones, and the passes put nothing into itself. The wiring puts nothing into anything, and it looks for
the target of one method only, the one by which views fill their context menus. So an analysis gives
an outcome or stops because a class of views has no such method (`Context.ends_or_undispatched`).
-/

namespace WidgetFlow

open FlowGraph

/-! ## Analyses -/

namespace Context

variable {ctx : Context}

/-- Where violations are recorded, an analysis stops only if a class of views that is allocated
cannot fill a context menu. -/
theorem unfillable_of_error (hwarn : ctx.options.severity = .warn) {error : AnalysisError}
    (h : ctx.analyze = .error error) : Wiring.Unfillable ctx error := by
  rw [analyze_eq] at h
  split at h
  next hwire =>
    cases h
    exact ctx.fair_wire.can_of_error hwarn hwire
  next wired hwire =>
    have hwarn := ctx.fair_wire.warn hwarn hwire
    obtain ⟨_, solved, hsolve, _⟩ :=
      (Solving.runs_solve ctx (wellFormed_wire hwire) wired.policy).outcome hwarn
    rw [show ctx.solve wired.graph wired.policy = _ from hsolve] at h
    cases h

/-- Where violations are recorded, an analysis gives an outcome or stops because a method has no
target. If every class of views has a method that fills its context menus, with a body, in the class
itself or above it, then the analysis gives an outcome. -/
theorem ends_or_undispatched (hwarn : ctx.options.severity = .warn) :
    ((∃ out, ctx.analyze = .ok out) ∨
      ∃ subsig owner, ctx.analyze = .error (.dispatch subsig owner)) ∧
    ((∀ owner, ctx.hierarchy.isSubclassOf owner "android.view.View" →
        ctx.hierarchy.Provides "void onCreateContextMenu(android.view.ContextMenu)" owner) →
      ∃ out, ctx.analyze = .ok out) := by
  cases hanalyze : ctx.analyze with
  | ok out => exact ⟨.inl ⟨out, rfl⟩, fun _ => ⟨out, rfl⟩⟩
  | error error =>
      obtain ⟨owner, rfl, hview, hnone⟩ := unfillable_of_error hwarn hanalyze
      refine ⟨.inr ⟨_, owner, rfl⟩, fun hprovides => ?_⟩
      have hsome := Hierarchy.isSome_dispatch? (hprovides owner hview)
      exact absurd hsome (Option.not_isSome_iff_eq_none.mpr hnone)

end Context

/-! ## A sample program with a view -/

namespace Sample

/-- A program with one activity that makes a view of its own class. -/
def sketch : Scene where
  classes := [
    { name := "app.Main", superclass := some "android.app.Activity" },
    { name := "app.Panel", superclass := some "android.view.View" }]
  methods := #[method "onCreate" [.ref "android.os.Bundle"] "v" [
    .assign (.var "v") (.new "app.Panel")]]

/-- The sample program on a platform whose views declare some methods. -/
def sketchOn (methods : List String) : Context where
  scene := sketch
  hierarchy := {
    classes := Hierarchy.enter
      (Hierarchy.enter {} [
        { name := "android.app.Activity" },
        .ofPlatform { name := "android.view.View", methods }])
      (sketch.classes.map (.ofDecl sketch))
    application := ["app.Main", "app.Panel"] }
  resources := { sys := {}, sysLayouts := {} }

/-- The sample program on a platform whose views fill context menus. -/
def painted : Context := sketchOn Platform.viewMethods

/-- On a platform whose views fill context menus, so do all classes of views. -/
theorem painted_provides (owner : String)
    (hview : painted.hierarchy.isSubclassOf owner "android.view.View") :
    painted.hierarchy.Provides "void onCreateContextMenu(android.view.ContextMenu)" owner := by
  have hmethod : (painted.hierarchy.class? "android.view.View").bind
      (·.methods["void onCreateContextMenu(android.view.ContextMenu)"]?) =
        some ⟨.library "android.view.View" "void onCreateContextMenu(android.view.ContextMenu)",
          false⟩ := by
    decide +kernel
  obtain ⟨info, hinfo, hmethod⟩ := Option.bind_eq_some_iff.mp hmethod
  refine ⟨"android.view.View", ?_, info, _, hinfo, hmethod, rfl⟩
  -- the view class itself or one of the classes of the table
  rcases Hierarchy.eq_or_mem_of_isSubclassOf hview with rfl | hmem
  · exact .refl
  · have hkeys : painted.hierarchy.classes.keys =
        ["android.app.Activity", "android.view.View", "app.Main", "app.Panel"] := by
      decide +kernel
    rw [← Std.TreeMap.mem_keys, hkeys] at hmem
    have hall : ∀ owner ∈ ["android.app.Activity", "android.view.View", "app.Main", "app.Panel"],
        painted.hierarchy.isSubclassOf owner "android.view.View" →
          owner = "android.view.View" ∨
            painted.hierarchy.superclass? owner = some "android.view.View" := by
      decide +kernel
    rcases hall owner hmem hview with rfl | hsuper
    · exact .refl
    · exact .single hsuper

end Sample

namespace Context

/-- On a platform whose views fill context menus, the sample program is analysed to the end. -/
theorem ends_or_undispatched_painted :
    Sample.painted.options.severity = .warn ∧
      (∀ owner, Sample.painted.hierarchy.isSubclassOf owner "android.view.View" →
        Sample.painted.hierarchy.Provides
          "void onCreateContextMenu(android.view.ContextMenu)" owner) ∧
      ∃ out, Sample.painted.analyze = .ok out :=
  ⟨rfl, Sample.painted_provides, (ends_or_undispatched rfl).2 Sample.painted_provides⟩

/-- On a platform whose views declare no methods, the same program has no outcome. -/
example : (match (Sample.sketchOn []).analyze with
    | .ok _ => none
    | .error error => some error) =
      some (.dispatch "void onCreateContextMenu(android.view.ContextMenu)" "app.Panel") := by
  decide +kernel

end Context

end WidgetFlow
