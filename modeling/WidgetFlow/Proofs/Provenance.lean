import WidgetFlow.Proofs.Typing

/-!
# Where the objects of operations come from

The objects that a variable may hold are those that flow to it, and those that operations give whose
results flow to it (`Outcome.mem_valuesOf`). What an operation has got as a parameter or a listener
is held by its parameter, and what it has got as a receiver is held by its receiver, with one
exception (`Outcome.slots_hold_values`). A menu that flows to an operation is taken as its receiver
even if it only flows to the parameter: a panel that adds its context menu to itself has got the
menu as a receiver (`Outcome.misplaced_context_menu`).
-/

namespace WidgetFlow

open Analysis FlowGraph Solving

variable {ctx : Context} {out : Outcome}

/-! ## Values of variables -/

theorem NodeKind.isVar_of_isObject {kind : NodeKind} (h : kind.isObject) : kind.isVar = false := by
  cases kind <;> simp_all [NodeKind.isObject, NodeKind.isVar]

/-- A node may hold the objects that flow to it, and those that operations give whose results flow
to it. -/
theorem Outcome.mem_valuesOf {n o : NodeId} (hwell : out.graph.WellFormed)
    (hnode : out.graph.isOp n = false) :
    o ∈ out.valuesOf n ↔
      (out.graph.HasObject o ∧
        Relation.ReflTransGen (out.graph.FlowsTo o) o n) ∨
      ∃ producer op res, out.graph.op? producer = some op ∧ op.result = some res ∧
        out.solution.results.holds producer o ∧
          Relation.ReflTransGen (out.graph.FlowsTo res) res n := by
  have hreach : ∀ src, src ∈ (out.graph.backwardReachable n).toList ↔
      Relation.ReflTransGen (out.graph.FlowsTo src) src n := fun src =>
    Std.TreeSet.mem_toList.trans (mem_backwardReachable hnode)
  rw [valuesOf, Std.TreeSet.mem_ofList, List.contains_iff_mem, List.mem_append]
  refine or_congr ?_ ?_
  · simp only [List.mem_filter, hreach, Bool.and_eq_true, Bool.not_eq_true']
    refine ⟨fun h => ⟨h.2.2, h.1⟩, fun h => ⟨h.2, NodeKind.isVar_of_isObject h.1, h.1⟩⟩
  · simp only [List.mem_flatMap, List.mem_filter, Option.any_eq_true, Option.bind_eq_some_iff,
      List.contains_iff_mem, List.mem_cons, hreach]
    constructor
    · rintro ⟨⟨producer, given⟩, ⟨hrow, res, ⟨op, hop, hresult⟩, hholder⟩, hobject⟩
      refine ⟨producer, op, res, hop, hresult, (Relation.mem_rows hrow).mp hobject, ?_⟩
      rcases hholder with rfl | hpath
      · exact .refl
      · exact hpath.1
    · rintro ⟨producer, op, res, hop, hresult, hgiven, hpath⟩
      obtain ⟨given, hrow, hobject⟩ := Relation.exists_mem_rows hgiven
      have hvar := ((hwell.slots producer op hop).result res hresult).2
      exact ⟨(producer, given), ⟨hrow, res, ⟨op, hop, hresult⟩, .inr ⟨hpath, hvar⟩⟩, hobject⟩

/-- What flows to where an operation takes objects, or is given by an operation that flows there, is
held there. -/
theorem Outcome.mem_valuesOf_of_pours {i : Inlet} {op src o : NodeId}
    (hwell : out.graph.WellFormed) (hpours : Pours out.graph i src op)
    (hsource : src = o ∧ out.graph.HasObject o ∨
      out.graph.isOp src ∧ out.solution.results.holds src o) :
    ∃ found n, out.graph.op? op = some found ∧ i.node? found = some n ∧
      o ∈ out.valuesOf n := by
  obtain ⟨found, n, hop, hslot, hpath⟩ := hpours
  have hnode : out.graph.isOp n = false := by
    rcases Inlet.slot_of_node? hslot with hslot | hslot
    · exact ((hwell.slots op found hop).receiver n hslot).2
    · exact ((hwell.slots op found hop).parameter n hslot).2
  refine ⟨found, n, hop, hslot, (mem_valuesOf hwell hnode).mpr ?_⟩
  rcases hsource with ⟨rfl, hobject⟩ | ⟨hisOp, hgiven⟩
  · exact .inl ⟨hobject, hpath⟩
  -- the path goes through the result of the operation
  · obtain ⟨producer, hproducer⟩ := isOp_iff.mp hisOp
    have hne : n ≠ src := by
      rintro rfl
      rw [hnode] at hisOp
      exact Bool.false_ne_true hisOp
    obtain ⟨next, hedge, hrest⟩ := exists_path_from_next hpath hne
    obtain ⟨edge, hmem, rfl, rfl⟩ := hasEdge_iff.mp hedge
    have hresult := hwell.edge_from_op edge hmem producer hproducer
    refine .inr ⟨edge.source, producer, edge.target, hproducer, hresult, hgiven, ?_⟩
    exact Relation.ReflTransGen.mono (fun _ _ hstep => ⟨.inl hstep.1, hstep.2⟩) _ _ hrest

theorem FlowGraph.slot_of_path {g : FlowGraph} {op src : NodeId} {found : Op}
    (hwell : g.WellFormed) (hop : g.op? op = some found) (hne : op ≠ src)
    (hpath : Relation.ReflTransGen (g.FlowsTo src) src op) :
    ∃ n, (found.receiver = some n ∨ found.parameter = some n) ∧
      Relation.ReflTransGen (g.FlowsTo src) src n := by
  rcases Relation.ReflTransGen.cases_tail hpath with heq | ⟨n, hbefore, hstep⟩
  · exact absurd heq hne
  · obtain ⟨edge, hmem, rfl, rfl⟩ := hasEdge_iff.mp hstep.2
    exact ⟨edge.source, hwell.edge_into_op edge hmem found hop, hbefore⟩

namespace Outcome

def HeldBy (out : Outcome) (slot : Op → Option NodeId) (op o : NodeId) : Prop :=
  ∃ found n, out.graph.op? op = some found ∧ slot found = some n ∧
    o ∈ out.valuesOf n

instance (out : Outcome) (slot : Op → Option NodeId) (op o : NodeId) :
    Decidable (out.HeldBy slot op o) :=
  decidable_of_iff (∃ found ∈ out.graph.op? op, ∃ n ∈ slot found,
    o ∈ out.valuesOf n) (by simp [HeldBy])

section Ran

variable {s t : Progress Notes} {op o : NodeId}

/-- What has arrived at an operation is held by the slot, unless it is a menu that the operation
works on. -/
theorem heldBy_of_values (hran : Ran ctx out s t) (i : Inlet)
    (h : (i.values out.solution).holds op o) :
    out.HeldBy i.node? op o ∨
      i = .receiver ∧ WorksOn out.solution op o := by
  obtain ⟨hsound, hfiltered⟩ := hran.tidy
  have hfits : t.notes.Fits t.graph := hsound.fits
  have hwell := hsound.wellFormed
  rw [hran.solution_eq] at h ⊢
  have hobject := (hfits.values i op o h).2
  have hcarried := hfiltered.carried i op o h
  rw [← hran.graph_eq] at hwell hobject hcarried
  rcases hcarried with hpours | ⟨producer, hgiven, hpours⟩ | hmenu
  · exact .inl (mem_valuesOf_of_pours hwell hpours (.inl ⟨rfl, hobject⟩))
  · have hisOp := (hfits.results producer o hgiven).1
    rw [← hran.graph_eq] at hisOp
    rw [← hran.solution_eq] at hgiven
    exact .inl (mem_valuesOf_of_pours hwell hpours (.inr ⟨hisOp, hgiven⟩))
  · exact .inr hmenu

theorem heldBy_of_worksOn (hran : Ran ctx out s t)
    (h : WorksOn out.solution op o) : (out.graph.kind o).isMenu ∧
      (out.HeldBy Op.receiver op o ∨ out.HeldBy Op.parameter op o) := by
  obtain ⟨hsound, hfiltered⟩ := hran.tidy
  have hfits : t.notes.Fits t.graph := hsound.fits
  have hwell := hsound.wellFormed
  rw [hran.solution_eq] at h
  obtain ⟨hmenu, hpath⟩ := hfiltered.reached op o h
  have hpair : t.graph.isOp op ∧ t.graph.HasObject o :=
    h.elim (hfits.optionsMenus op o) (hfits.contextMenus op o)
  rw [← hran.graph_eq] at hwell hmenu hpath hpair
  obtain ⟨found, hop⟩ := isOp_iff.mp hpair.1
  have hne : op ≠ o := by
    rintro rfl
    exact absurd (hpair.2.hasValue.op?_eq_none.symm.trans hop) nofun
  refine ⟨hmenu, ?_⟩
  obtain ⟨n, hslot, hpath⟩ := slot_of_path hwell hop hne hpath
  rcases hslot with hslot | hslot
  · have hpours : Pours out.graph .receiver o op := ⟨found, n, hop, hslot, hpath⟩
    exact .inl (mem_valuesOf_of_pours hwell hpours (.inl ⟨rfl, hpair.2⟩))
  · have hpours : Pours out.graph .parameter o op := ⟨found, n, hop, hslot, hpath⟩
    exact .inr (mem_valuesOf_of_pours hwell hpours (.inl ⟨rfl, hpair.2⟩))

end Ran

end Outcome

/-! ## A sample panel -/

namespace Sample

/-- An activity shows a panel. The panel takes its context menu for a view and adds it to itself. -/
def nestScene : Scene where
  classes := panelScene.classes
  methods := #[
    method "onCreate" [.ref "android.os.Bundle"] "v" [
      .call (call "this" "app.Main" "setContentView" .void [.int] [.int 7])],
    { sig := {
        owner := "app.Panel"
        result := .void
        name := "onCreateContextMenu"
        params := [.ref "android.view.ContextMenu"] }
      locals := .ofList [("this", .ref "app.Panel"), ("m", .ref "android.view.ContextMenu"),
        ("v", view)]
      body := [
        .identity "this" .this,
        .identity "m" (.parameter 0),
        .assign (.var "v") (.cast view (.var "m")),
        .call (call "this" "app.Panel" "addView" .void [view] [.var "v"])] }]

def nestHierarchy : Hierarchy where
  classes := Hierarchy.enter
    (Hierarchy.enter {} [
      { name := "android.app.Activity" },
      { name := "android.view.View" },
      { name := "android.view.Menu", isInterface := true },
      { name := "android.view.ContextMenu", interfaces := ["android.view.Menu"],
        isInterface := true }])
    (nestScene.classes.map (.ofDecl nestScene))
  application := ["app.Main", "app.Panel"]

def nest : Context where
  scene := nestScene
  hierarchy := nestHierarchy
  resources := panelResources

/-- What the analysis of the panel finds. Node 8 is the operation that adds to the panel, 9 the panel
and 10 its context menu. -/
def Misplaced (out : Outcome) : Prop :=
  (out.solution.receivers.holds 8 9 ∧ (out.graph.kind 9).isMenu = false) ∧
    out.solution.receivers.holds 8 10 ∧ ¬ out.HeldBy Op.receiver 8 10

instance (out : Outcome) : Decidable (Misplaced out) :=
  inferInstanceAs (Decidable (_ ∧ _ ∧ _))

theorem nest_analyzed : ∃ out, nest.analyze = .ok out ∧ Misplaced out :=
  Context.exists_outcome (by decide +kernel)

end Sample

namespace Outcome

/-- What an operation has got as a parameter or a listener is held by its parameter, and what it has
got as a receiver by its receiver. Only a menu that the operation works on may be a receiver
otherwise, and then it is held by the parameter. -/
theorem slots_hold_values (h : ctx.analyze = .ok out) (op o : NodeId) :
    (out.solution.parameters.holds op o → out.HeldBy Op.parameter op o) ∧
    (out.solution.listeners.holds op o → out.HeldBy Op.parameter op o) ∧
    (out.solution.receivers.holds op o → out.HeldBy Op.receiver op o ∨
      (out.graph.kind o).isMenu ∧ WorksOn out.solution op o ∧
        out.HeldBy Op.parameter op o) := by
  obtain ⟨s, t, hran⟩ := ran h
  refine ⟨fun hparameter => ?_, fun hlistener => ?_, fun hreceiver => ?_⟩
  · exact (heldBy_of_values hran .parameter hparameter).resolve_right nofun
  · exact (heldBy_of_values hran .listener hlistener).resolve_right nofun
  · rcases heldBy_of_values hran .receiver hreceiver with hheld | ⟨_, hworks⟩
    · exact .inl hheld
    · obtain ⟨hmenu, hheld⟩ := heldBy_of_worksOn hran hworks
      exact hheld.imp_right fun hparameter => ⟨hmenu, hworks, hparameter⟩

/-- In the sample panel, the operation works on the context menu that only its parameter holds, and
the panel is held by the receiver. -/
theorem slots_hold_values_nest :
    ∃ out, Sample.nest.analyze = .ok out ∧ out.HeldBy Op.receiver 8 9 ∧
      out.solution.receivers.holds 8 10 ∧ ¬ out.HeldBy Op.receiver 8 10 ∧
        out.HeldBy Op.parameter 8 10 := by
  obtain ⟨out, h, ⟨hpanel, hview⟩, hmenu, hmisplaced⟩ := Sample.nest_analyzed
  have hnest := ((slots_hold_values h 8 9).2.2 hpanel).resolve_right fun hor => by
    rw [hview] at hor
    exact Bool.false_ne_true hor.1
  have hheld := ((slots_hold_values h 8 10).2.2 hmenu).resolve_left hmisplaced
  exact ⟨out, h, hnest, hmenu, hmisplaced, hheld.2.2⟩

/-- Operations may have got as receivers what their receivers do not hold: in the sample panel, the
context menu is added to the panel. -/
theorem misplaced_context_menu :
    ¬ ∀ (ctx : Context) (out : Outcome), ctx.analyze = .ok out →
      ∀ op o, out.solution.receivers.holds op o →
        out.HeldBy Op.receiver op o := by
  intro hall
  obtain ⟨out, h, _, hmenu, hmisplaced⟩ := Sample.nest_analyzed
  exact hmisplaced (hall Sample.nest out h 8 10 hmenu)

end Outcome

end WidgetFlow
