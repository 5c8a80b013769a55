import WidgetFlow.Proofs.Provenance
import WidgetFlow.Proofs.Solution.Copies
import WidgetFlow.Proofs.Wiring.CustomViews

/-!
# Custom views of dialogs

The frame of an alert dialog gets the views that are set by a local, so it gets a copy of a layout
that is inflated into the local before (`Outcome.custom_views_framed`). A layout that is set by a
constant is not inflated at all (`Outcome.custom_layout_dropped`): its inflation works on the
variable that holds the frame, and inflations only put views into windows.
-/

namespace WidgetFlow

open Analysis FlowGraph Platform Solving

variable {ctx : Context} {out : Outcome}

namespace Outcome

section Ran

variable {s t : Progress Notes} {op n o : NodeId} {found : Op}

/-! ## Arrivals -/

/-- What an operation has given arrives at the other operations that its result flows to. -/
theorem holds_of_given (hran : Ran ctx out s t) (i : Inlet)
    {producer res : NodeId} {giver : Op} (hgiver : out.graph.op? producer = some giver)
    (hresult : giver.result = some res) (hgiven : out.solution.results.holds producer o)
    (hpath : Relation.ReflTransGen (out.graph.FlowsTo res) res n)
    (hop : out.graph.op? op = some found) (htakes : i.takes found.kind)
    (hnode : i.node? found = some n) (hne : op ≠ producer)
    (hadmits : i.admits ctx.hierarchy out.graph o op) :
    (i.values out.solution).holds op o := by
  have hproduces := hran.producesViews hgiver hgiven
  have hwell := hran.proper.sound.wellFormed
  rw [hran.graph_eq] at hgiver hpath hop hadmits
  rw [hran.solution_eq] at hgiven ⊢
  have hvar := (hwell.slots producer giver hgiver).result res hresult
  have hstep : t.graph.FlowsTo producer producer res :=
    ⟨.inr rfl, (hwell.slot_edges producer giver hgiver).result res hresult⟩
  have hrest : Relation.ReflTransGen (t.graph.FlowsTo producer) res n := by
    refine Relation.ReflTransGen.mono (fun first second hnext => ⟨.inl ?_, hnext.2⟩) _ _ hpath
    exact hnext.1.elim id fun heq => heq ▸ hvar.hasValue.2
  have hflows : FlowsInto t.graph i producer op :=
    ⟨found, n, hop, htakes, hnode, mem_forwardReachable.mpr (.head hstep hrest)⟩
  have hsource := hran.proper.complete.sources producer giver hgiver hproduces i op hne hflows
  exact (hran.settled producer giver hgiver).2 i op o hsource hgiven hadmits

/-- The views that a slot may hold arrive at its operation if that gives no views itself. -/
theorem holds_of_mem_valuesOf (hran : Ran ctx out s t) (i : Inlet)
    (hop : out.graph.op? op = some found) (htakes : i.takes found.kind)
    (hnode : i.node? found = some n) (hgives : found.kind.producesViews = false)
    (hshown : (out.graph.kind o).isShown)
    (hadmits : i.admits ctx.hierarchy out.graph o op)
    (hvalue : o ∈ out.valuesOf n) : (i.values out.solution).holds op o := by
  have hwell : out.graph.WellFormed := hran.graph_eq ▸ hran.proper.sound.wellFormed
  have hplace : out.graph.isOp n = false := by
    rcases Inlet.slot_of_node? hnode with hslot | hslot
    · exact ((hwell.slots op found hop).receiver n hslot).2
    · exact ((hwell.slots op found hop).parameter n hslot).2
  rcases (mem_valuesOf hwell hplace).mp hvalue with ⟨_, hpath⟩ | ⟨producer, giver, res, hgiver,
    hresult, hgiven, hpath⟩
  · have hflows : FlowsInto out.graph i o op :=
      ⟨found, n, hop, htakes, hnode, mem_forwardReachable.mpr hpath⟩
    rw [hran.graph_eq] at hshown hadmits hflows
    rw [hran.solution_eq]
    exact hran.proper.complete.values o hshown i op hflows hadmits
  · have hne : op ≠ producer := by
      rintro rfl
      have hproduces := hran.producesViews hgiver hgiven
      rw [hop] at hgiver
      cases hgiver
      exact absurd (hgives.symm.trans hproduces) Bool.false_ne_true
    exact holds_of_given hran i hgiver hresult hgiven hpath hop htakes hnode hne hadmits

/-! ## Frames -/

/-- A view inside a dialog carries an identifier and is admitted as a frame. -/
structure HasFrame (ctx : Context) (out : Outcome) (dialog : NodeId) (id : ResId)
    (frame : NodeId) : Prop where
  inside : ∃ c, out.graph.Contains dialog c ∧ frame ∈ out.graph.descendants c
  named : ∃ name, out.graph.find? (.id .widget id) = some name ∧
    out.graph.idOf? frame = some name
  admitted : ctx.hierarchy.admitsAs (some (.ref ClassName.frameLayout)) (out.graph.kind frame)

variable {dialog frame var parameter : NodeId} {id : ResId} {kind : OpKind}

theorem holds_of_seeks (hran : Ran ctx out s t)
    (hseeks : Wiring.Seeks ctx.wire.2.graph dialog id ClassName.frameLayout var op)
    (hwindow : (out.graph.kind dialog).isWindow) (hframe : HasFrame ctx out dialog id frame) :
    out.solution.results.holds op frame := by
  have hstate := hran.analyzed
  have hwired : ctx.wire.2.graph.WellFormed :=
    (Context.wellFormed_wire (Prod.ext hran.wired rfl)).1
  obtain ⟨⟨c, hchild, hbelow⟩, ⟨name, hfind, hname⟩, hadmitted⟩ := hframe
  rw [hran.graph_eq] at hwindow hchild hbelow hfind hname hadmitted
  rw [hran.solution_eq]
  obtain ⟨hmade, found, receiver, name', hop, hkind, ⟨hreceiver, hedge⟩, ⟨hparameter, hfind'⟩,
    hresult⟩ := hseeks
  have hop' : t.graph.op? op = some found := (hstate.develops.op?_eq op).trans hop
  cases hfind.symm.trans (hstate.develops.toExtends.find?_eq hfind')
  -- the dialog flows to the receiver of the look-up, and the identifier to its parameter
  have hdialog : t.notes.solution.windows.holds op dialog := by
    refine (hstate.windows op dialog).mpr ⟨hstate.develops.isWindow_eq dialog ▸ hwindow, found,
      receiver, hop, by rw [hkind]; rfl, hreceiver, ?_⟩
    exact mem_forwardReachable.mpr (.single ⟨.inr rfl, hedge⟩)
  have hcarries : Carries t.graph t.notes.solution op frame := by
    have hself : name ∈ ctx.wire.2.graph.forwardReachable name := mem_forwardReachable.mpr .refl
    refine ⟨name, ?_, hname⟩
    rw [hran.moves.advances.2.viewIds_eq, hran.prepared.ids.views]
    refine .inl ⟨⟨id, kind_of_find?_id hfind'⟩, ?_,
      mem_forwardReachable_of_slot hwired hop (.inr hparameter) hself⟩
    simp [opIs, hop, hkind, OpKind.takesViewId]
  refine (results_iff hstate hop' (by rw [hkind]; rfl) (by rw [hkind]; nofun)).mpr ⟨?_, ?_⟩
  · rw [hkind]
    exact ⟨dialog, hdialog, .inr ⟨c, hchild, hbelow, hcarries⟩⟩
  · have htype := (hmade.mono hstate.develops.toExtends).varTy?_eq
    simp only [Hierarchy.admits, hop', Op.slot, hresult, htype, hadmitted]

/-- The variable that the look-up gives its results to may hold the frame. -/
theorem mem_valuesOf_of_seeks (hran : Ran ctx out s t)
    (hseeks : Wiring.Seeks ctx.wire.2.graph dialog id ClassName.frameLayout var op)
    (hwindow : (out.graph.kind dialog).isWindow) (hframe : HasFrame ctx out dialog id frame) :
    frame ∈ out.valuesOf var := by
  have hgiven := holds_of_seeks hran hseeks hwindow hframe
  have hwell : out.graph.WellFormed := hran.graph_eq ▸ hran.proper.sound.wellFormed
  obtain ⟨_, found, _, _, hop, _, _, _, hresult⟩ := hseeks
  rw [← hran.analyzed.develops.op?_eq, ← hran.graph_eq] at hop
  have hvar := ((hwell.slots op found hop).result var hresult).hasValue.2
  exact (mem_valuesOf hwell hvar).mpr (.inr ⟨op, found, var, hop, hresult, hgiven, .refl⟩)

/-- The views that the parameter of an operation may hold are put into the frame that it works
on. -/
theorem contains_of_worksOnFrame (hran : Ran ctx out s t)
    (hworks : Wiring.WorksOnFrame ctx.wire.2.graph dialog id .addChild parameter)
    (hwindow : (out.graph.kind dialog).isWindow) (hframe : HasFrame ctx out dialog id frame)
    {view : NodeId} (hview : view ∈ out.valuesOf parameter)
    (hshown : (out.graph.kind view).isShown)
    (hadmits : ctx.hierarchy.admitsAs (out.graph.varTy? parameter) (out.graph.kind view))
    (hne : view ≠ frame) : out.graph.Contains frame view := by
  obtain ⟨var, lookup, op, found, hseeks, hop, hkind, hreceiver, hparameter⟩ := hworks
  have hg : Develops ctx.wire.2.graph out.graph :=
    hran.graph_eq ▸ hran.analyzed.develops
  have hgiven := holds_of_seeks hran hseeks hwindow hframe
  obtain ⟨hmade, giver, _, _, hgiver, hfinds, _, _, hresult⟩ := hseeks
  rw [← hg.op?_eq] at hop hgiver
  have hreceivers : out.solution.receivers.holds op frame := by
    have hother : op ≠ lookup := by
      rintro rfl
      cases hop.symm.trans hgiver
      exact absurd (hkind.symm.trans hfinds) nofun
    have htype := (hmade.mono hg.toExtends).varTy?_eq
    refine holds_of_given hran .receiver hgiver hresult hgiven .refl hop
      (by rw [hkind]; rfl) hreceiver hother ?_
    simp only [Inlet.admits, Hierarchy.admits, hop, Op.slot, hreceiver, htype, hframe.admitted]
  have hparameters : out.solution.parameters.holds op view := by
    refine holds_of_mem_valuesOf hran .parameter hop (by rw [hkind]; rfl) hparameter
      (by rw [hkind]; rfl) hshown ?_ hview
    simp only [Inlet.admits, Hierarchy.admits, hop, Op.slot, hparameter, hadmits]
  rw [hran.graph_eq] at hop ⊢
  rw [hran.solution_eq] at hreceivers hparameters
  have hresolved := (hran.settled op found hop).1
  rw [hkind] at hresolved
  exact hresolved frame view hreceivers hparameters hne.symm

/-- No window flows to a variable that is made for frames. -/
theorem windows_of_frame (hran : Ran ctx out s t)
    (hmade : ctx.wire.2.graph.HasMade ClassName.frameLayout var)
    (hop : out.graph.op? op = some found) (hreceiver : found.receiver = some var) :
    out.solution.windows.image op = [] := by
  have hframed := Context.framed_wire (Prod.ext hran.wired rfl)
  refine List.eq_nil_iff_forall_not_mem.mpr fun win hmem => ?_
  rw [Relation.mem_image, hran.solution_eq, hran.analyzed.windows] at hmem
  obtain ⟨hwindow, found', receiver, hop', _, hreceiver', hreach⟩ := hmem
  rw [hran.graph_eq, hran.analyzed.develops.op?_eq] at hop
  cases hop.symm.trans hop'
  cases hreceiver.symm.trans hreceiver'
  obtain ⟨_, number, hkind⟩ := hmade
  -- a path to the variable would end with an edge from an operation, where no path goes through
  rcases Relation.ReflTransGen.cases_tail (mem_forwardReachable.mp hreach) with
    heq | ⟨src, _, hsource, hedge⟩
  · rw [← heq, hkind] at hwindow
    exact absurd hwindow Bool.false_ne_true
  · obtain ⟨edge, hmem, rfl, rfl⟩ := hasEdge_iff.mp hedge
    have hisOp := hframed.fed edge hmem (by rw [hkind]; rfl)
    rcases hsource with hsource | heq
    · exact absurd (hsource.symm.trans hisOp) Bool.false_ne_true
    · rw [heq, (hasObject_of_isWindow hwindow).hasValue.2] at hisOp
      exact absurd hisOp Bool.false_ne_true

end Ran

/-! ## Setting views -/

def LocalAdmits (ctx : Context) (out : Outcome) (m : MethodId) (name : String)
    (kind : NodeKind) : Prop :=
  ∀ var, out.graph.find? (.var (.named m name)) = some var →
    ctx.hierarchy.admitsAs (out.graph.varTy? var) kind

/-- What is in a frame because of a local: the views that the local may hold, and so a copy of every
layout that is inflated into it. -/
structure FramesLocal (ctx : Context) (out : Outcome) (frame : NodeId) (m : MethodId)
    (name : String) : Prop where
  views : ∀ view ∈ out.localValues m name, (out.graph.kind view).isShown →
    LocalAdmits ctx out m name (out.graph.kind view) → view ≠ frame →
      out.graph.Contains frame view
  copies : ∀ op found res layout tree, out.graph.op? op = some found →
    found.result = some res → out.graph.MayBe m name res →
      out.solution.layoutIds.holds op layout → Inflates ctx out.graph op layout tree →
        (∀ owner, tree.owner = some owner → LocalAdmits ctx out m name (.view owner)) →
          ∃ nodes, out.graph.HasCopy tree nodes ∧
            (nodes [] ≠ frame → out.graph.Contains frame (nodes []))

/-- An operation with a layout changes nothing in any state in which it has the windows and results
of the outcome, neither when layouts are inflated nor in a pass. -/
def Idle (ctx : Context) (out : Outcome) (op layout : NodeId) : Prop :=
  ∀ st : Progress Notes, st.graph.op? op = out.graph.op? op →
    st.notes.solution.windows.image op = out.solution.windows.image op →
      st.notes.solution.results.image op = out.solution.results.image op →
        (inflateAt ctx (op, layout)).outcome st = (.ok (), st) ∧
          (visit ctx op).outcome st = (.ok false, st)

/-- A layout is to be inflated into a frame, but the operation for it changes nothing. -/
def DropsLayout (ctx : Context) (out : Outcome) (frame : NodeId) (v : ResId) : Prop :=
  ∃ op found var layout, out.graph.op? op = some found ∧ found.kind = .inflateContent ∧
    found.receiver = some var ∧ frame ∈ out.valuesOf var ∧
      out.graph.kind layout = .id .layout v ∧ out.solution.layoutIds.holds op layout ∧
        Idle ctx out op layout

section Ran

variable {s t : Progress Notes} {dialog frame op layout var : NodeId} {id v : ResId}
variable {found : Op} {m : MethodId} {name : String}

theorem framesLocal_of_worksOnFrame (hran : Ran ctx out s t)
    (hvar : ctx.wire.2.graph.find? (.var (.named m name)) = some var)
    (hworks : Wiring.WorksOnFrame ctx.wire.2.graph dialog id .addChild var)
    (hwindow : (out.graph.kind dialog).isWindow)
    (hframe : HasFrame ctx out dialog id frame) : FramesLocal ctx out frame m name := by
  have hg : Develops ctx.wire.2.graph out.graph := hran.graph_eq ▸ hran.analyzed.develops
  have hwell : out.graph.WellFormed := hran.graph_eq ▸ hran.proper.sound.wellFormed
  have hfind := hg.toExtends.find?_eq hvar
  have hvalues : out.localValues m name = out.valuesOf var := by
    rw [localValues, hfind]
  have hviews : ∀ view ∈ out.localValues m name, (out.graph.kind view).isShown →
      LocalAdmits ctx out m name (out.graph.kind view) → view ≠ frame →
        out.graph.Contains frame view := by
    intro view hview hshown hadmits
    exact contains_of_worksOnFrame hran hworks hwindow hframe (hvalues ▸ hview) hshown
      (hadmits var hfind)
  refine ⟨hviews, ?_⟩
  rintro op found res layout tree hop hresult ⟨var', hfind', hpath⟩ hlayout hinflates hadmits
  cases hfind.symm.trans hfind'
  obtain ⟨nodes, hcopy, hgiven⟩ := hran.givesCopy hlayout hinflates
  obtain ⟨_, owner, _, _, howner, _⟩ := hinflates.admits
  have hkind := hcopy.kind_eq [] (owner, tree) (by simp [Element.shownAt?, howner])
  have hplace : out.graph.isOp var = false :=
    (HasValue.of_key (find?_some hfind).1 (find?_some hfind).2).2
  have hroot : nodes [] ∈ out.localValues m name := by
    rw [hvalues, mem_valuesOf hwell hplace]
    exact .inr ⟨op, found, res, hop, hresult, hgiven, (mem_backwardReachable hplace).mp hpath⟩
  exact ⟨nodes, hcopy, hviews _ hroot (by rw [hkind]; rfl) (hkind ▸ hadmits owner howner)⟩

theorem idle_of_inflateContent (hop : out.graph.op? op = some found)
    (hkind : found.kind = .inflateContent) (hwindows : out.solution.windows.image op = [])
    (hresults : out.solution.results.image op = []) : Idle ctx out op layout := by
  intro st hsame hwindows' hresults'
  rw [hop] at hsame
  rw [hwindows] at hwindows'
  rw [hresults] at hresults'
  have hgraph : (getGraph : Solving FlowGraph).outcome st = (.ok st.graph, st) := rfl
  have hsolution : getSolution.outcome st = (.ok st.notes.solution, st) := rfl
  constructor
  · rw [inflateAt, outcome_bind, hgraph]
    simp only [hsame, Option.map_some, hkind]
    split
    next => contradiction
    next =>
      rw [inflateContent_eq, outcome_bind, hsolution]
      simp only [hwindows']
      rfl
    next => rfl
  · rw [visit, outcome_bind, hgraph]
    simp only [hsame, hkind]
    have hresolve : (resolve ctx op .inflateContent).outcome st = (.ok false, st) := rfl
    rw [outcome_bind, hresolve]
    dsimp only
    rw [outcome_bind, hsolution]
    simp only [hresults']
    rfl

theorem dropsLayout_of_worksOnFrame (hran : Ran ctx out s t)
    (hfind : ctx.wire.2.graph.find? (.id .layout v) = some layout)
    (hworks : Wiring.WorksOnFrame ctx.wire.2.graph dialog id .inflateContent layout)
    (hwindow : (out.graph.kind dialog).isWindow)
    (hframe : HasFrame ctx out dialog id frame) : DropsLayout ctx out frame v := by
  have hg : Develops ctx.wire.2.graph out.graph := hran.graph_eq ▸ hran.analyzed.develops
  have hwired : ctx.wire.2.graph.WellFormed :=
    (Context.wellFormed_wire (Prod.ext hran.wired rfl)).1
  obtain ⟨var, lookup, op, found, hseeks, hop, hkind, hreceiver, hparameter⟩ := hworks
  have hop' : out.graph.op? op = some found := (hg.op?_eq op).trans hop
  have hvalue := mem_valuesOf_of_seeks hran hseeks hwindow hframe
  have hlayout : out.solution.layoutIds.holds op layout := by
    have hself : layout ∈ ctx.wire.2.graph.forwardReachable layout :=
      mem_forwardReachable.mpr .refl
    rw [hran.solution_eq, hran.moves.advances.2.layoutIds_eq, hran.prepared.ids.layouts]
    refine ⟨⟨v, kind_of_find?_id hfind⟩, ?_,
      mem_forwardReachable_of_slot hwired hop (.inr hparameter) hself⟩
    simp [opIs, hop, hkind, OpKind.takesLayoutId]
  have hresults : out.solution.results.image op = [] := by
    refine List.eq_nil_iff_forall_not_mem.mpr fun o hobject => ?_
    have hproduces := hran.producesViews hop' (Relation.mem_image.mp hobject)
    rw [hkind] at hproduces
    exact absurd hproduces Bool.false_ne_true
  refine ⟨op, found, var, layout, hop', hkind, hreceiver, hvalue,
    kind_of_find?_id (hg.toExtends.find?_eq hfind), hlayout, ?_⟩
  exact idle_of_inflateContent hop' hkind (windows_of_frame hran hseeks.1 hop' hreceiver) hresults

end Ran

/-- The frame of an alert dialog gets the views that are set by a local, so that a layout which is
inflated into the local is copied into the frame. A layout that is set by a constant reaches an
inflation into the frame that never does anything. -/
theorem custom_views_framed {here : CallSite} {dialog frame : NodeId} {id : ResId}
    (h : ctx.analyze = .ok out) (hdialogs : ctx.options.dialogs)
    (hid : ctx.resources.sysId? "custom" = some id) (hname : here.call.name = "setView")
    (hcalls : ctx.CallsOn here dialog) (halert : Wiring.isAlert ctx (out.graph.kind dialog))
    (hframe : HasFrame ctx out dialog id frame) :
    (∀ name, here.arg? 0 = some (.var name) →
      FramesLocal ctx out frame here.method name) ∧
    ∀ v, here.arg? 0 = some (.int v) → ctx.resources.idKind? v = some .layout →
      DropsLayout ctx out frame v := by
  obtain ⟨s, t, hran⟩ := ran h
  have hwire : ctx.wire = (.ok (), ctx.wire.2) := Prod.ext hran.wired rfl
  have hg : Develops ctx.wire.2.graph out.graph := hran.graph_eq ▸ hran.analyzed.develops
  have hwindow := hcalls.isWindow hdialogs hwire
  have hsize : dialog < ctx.wire.2.graph.nodes.size :=
    (hasObject_of_isWindow hwindow).hasValue.1
  have hkept := hg.keeps (Wiring.isAlert ctx) Wiring.isAlert_core hsize
  have hsets := Context.setsView_wire hdialogs hid hname hcalls (hkept.symm.trans halert) hwire
  rw [← hg.isWindow_eq] at hwindow
  refine ⟨fun name hname => ?_, fun v hvalue hkind => ?_⟩
  · obtain ⟨var, hvar, hworks⟩ := hsets.of_var name hname
    exact framesLocal_of_worksOnFrame hran hvar hworks hwindow hframe
  · obtain ⟨layout, hlayout, hworks⟩ := hsets.of_int v .layout hvalue hkind
    exact dropsLayout_of_worksOnFrame hran hlayout hworks hwindow hframe

end Outcome

/-! ## A sample dialog -/

namespace Sample

def noticeScene : Scene where
  classes := [{ name := "app.Main", superclass := some "android.app.Activity" }]
  methods := #[{
    sig := {
      owner := "app.Main"
      result := .void
      name := "onCreate"
      params := [.ref "android.os.Bundle"] }
    locals := .ofList [("this", .ref "app.Main"), ("d", .ref "android.app.AlertDialog"),
      ("i", .ref "android.view.LayoutInflater"), ("v", view)]
    body := [
      .identity "this" .this,
      .assign (.var "d") (.new "android.app.AlertDialog"),
      .assign (.var "v") (.call (call "i" "android.view.LayoutInflater" "inflate" view
        [.int, .ref "android.view.ViewGroup"] [.int 9, .null])),
      .call (call "d" "android.app.AlertDialog" "setView" .void [view] [.var "v"]),
      .call (call "d" "android.app.AlertDialog" "setView" .void [.int] [.int 8]),
      .call (call "d" "android.app.AlertDialog" "show" .void [] [])] }]

/-- The resources of the platform, with a layout of one check box and one of one button. -/
def noticeResources : ResourceTable :=
  (ResourceTable.builtin.addLayout "late" 8 { owner := some "android.widget.CheckBox" }).addLayout
    "ready" 9 { owner := some "android.widget.Button" }

def noticeHierarchy : Hierarchy where
  classes := Hierarchy.enter
    (Hierarchy.enter {} [
      { name := "android.app.Activity" },
      { name := "android.app.Dialog" },
      { name := "android.app.AlertDialog", superclass := some "android.app.Dialog" },
      { name := "android.view.LayoutInflater" },
      { name := "android.view.View" },
      { name := "android.widget.FrameLayout", superclass := some "android.view.View" },
      { name := "android.widget.Button", superclass := some "android.view.View" }])
    (noticeScene.classes.map (.ofDecl noticeScene))
  application := ["app.Main"]

/-- An activity shows an alert dialog with two views: a button that it has inflated itself, and a
check box that it sets by its layout. -/
def notice : Context where
  scene := noticeScene
  hierarchy := noticeHierarchy
  resources := noticeResources

/-- What the analysis of the dialog finds. Node 33 is the dialog, 47 its root and 50 its frame; 25 is
the identifier of frames, 35 the inflation, which gives 46, and 34 is the local for the button. -/
def Framed (out : Outcome) : Prop :=
  (out.facts.dialogShows.image 33 ≠ [] ∧
    Wiring.isAlert notice (out.graph.kind 33)) ∧
  ((47 ∈ out.graph.children 33 ∧ 50 ∈ out.graph.descendants 47) ∧
    (out.graph.find? (.id .widget 0x0102002b) = some 25 ∧ out.graph.idOf? 50 = some 25) ∧
    notice.hierarchy.admitsAs (some (.ref Platform.ClassName.frameLayout)) (out.graph.kind 50)) ∧
  (out.graph.find? (.var (.named 0 "v")) = some 34 ∧ 46 ∈ out.localValues 0 "v" ∧
    out.graph.kind 46 = .view "android.widget.Button" ∧
    notice.hierarchy.admitsAs (out.graph.varTy? 34) (.view "android.widget.Button")) ∧
  (out.graph.children 50).map out.graph.kind = [.view "android.widget.Button"]

instance (out : Outcome) : Decidable (Framed out) :=
  inferInstanceAs (Decidable (_ ∧ _))

/-- A call that sets the view of the dialog. -/
def setter (index : Nat) (param : Ty) (arg : Value) : CallSite :=
  let call := call "d" "android.app.AlertDialog" "setView" .void [param] [arg]
  { site := { method := 0, index }, stmt := .call call, call }

/-- The dialog flows to the local that its view is set on. -/
def Furnished (st : Progress Wiring.Notes) : Prop :=
  Wiring.isDialogNode (st.graph.kind 33) ∧
    st.graph.find? (.var (.named 0 "d")) = some 32 ∧ 33 ∈ st.graph.backwardReachable 32

instance (st : Progress Wiring.Notes) : Decidable (Furnished st) :=
  inferInstanceAs (Decidable (_ ∧ _))

-- Together, so that nothing else is elaborated while the sample is evaluated.
mutual

theorem notice_analyzed : ∃ out, notice.analyze = .ok out ∧ Framed out :=
  Context.exists_outcome (by decide +kernel)

theorem notice_furnished : Furnished notice.furnished := by decide +kernel

end

theorem notice_callsOn (index : Nat) (param : Ty) (arg : Value)
    (hstmt : notice.scene.stmt? (setter index param arg).site =
      some (setter index param arg).stmt) : notice.CallsOn (setter index param arg) 33 := by
  obtain ⟨hdialog, hfind, hflows⟩ := notice_furnished
  refine .direct "d" ⟨⟨?_, hstmt, rfl⟩, rfl, rfl, ?_, "android.app.AlertDialog", ?_⟩ hdialog
    ⟨32, hfind, hflows⟩
  · show 0 ∈ Wiring.walkedMethods notice
    decide +kernel
  · show notice.hierarchy.isApplication "android.app.AlertDialog" = false
    decide +kernel
  · show notice.varClass? 0 "d" = _ ∧ _
    decide +kernel

theorem notice_custom : notice.resources.sysId? "custom" = some 0x0102002b := by decide +kernel

theorem notice_layout : notice.resources.layout? 8 =
    some { owner := some "android.widget.CheckBox" } := by
  have hlayouts : noticeResources.layouts[(8 : ResId)]? =
      some { owner := some "android.widget.CheckBox" } := by
    simp [noticeResources, ResourceTable.addLayout, Std.TreeMap.getElem_insert]
  show noticeResources.layout? 8 = _
  rw [ResourceTable.layout?, hlayouts]

theorem Framed.hasFrame {out : Outcome} (h : Framed out) :
    Outcome.HasFrame notice out 33 0x0102002b 50 := by
  obtain ⟨_, ⟨⟨hroot, hinside⟩, hnamed, hadmitted⟩, _⟩ := h
  exact ⟨⟨47, mem_children.mp hroot, hinside⟩, ⟨25, hnamed⟩, hadmitted⟩

end Sample

namespace Outcome

/-- The frame of the sample dialog contains the button, and drops the layout of the check box. -/
theorem custom_views_framed_notice :
    ∃ out, Sample.notice.analyze = .ok out ∧ HasFrame Sample.notice out 33 0x0102002b 50 ∧
      out.graph.Contains 50 46 ∧ DropsLayout Sample.notice out 50 8 := by
  obtain ⟨out, h, hframed⟩ := Sample.notice_analyzed
  obtain ⟨⟨_, halert⟩, _, ⟨hfind, hvalue, hkind, hadmits⟩, _⟩ := id hframed
  have hlocal : FramesLocal Sample.notice out 50 0 "v" :=
    (custom_views_framed h rfl Sample.notice_custom rfl
      (Sample.notice_callsOn 3 Sample.view (.var "v") rfl) halert
      hframed.hasFrame).1 "v" rfl
  have hdrops : DropsLayout Sample.notice out 50 8 :=
    (custom_views_framed h rfl Sample.notice_custom rfl
      (Sample.notice_callsOn 4 .int (.int 8) rfl) halert
      hframed.hasFrame).2 8 rfl (by decide +kernel)
  refine ⟨out, h, hframed.hasFrame, ?_, hdrops⟩
  refine hlocal.views 46 hvalue (by rw [hkind]; rfl) (fun var hvar => ?_) (by decide)
  cases hfind.symm.trans hvar
  rw [hkind]
  exact hadmits

/-- A layout that is set by a constant is not copied into the frame: the frame of the sample dialog
contains no check box. -/
theorem custom_layout_dropped :
    ¬ ∀ (ctx : Context) (out : Outcome), ctx.analyze = .ok out → ctx.options.dialogs →
      ctx.resources.sys = Platform.idTable →
      ctx.resources.sysLayouts = .ofList Platform.layoutTrees →
      ∀ here dialog id v tree, ctx.resources.sysId? "custom" = some id →
        here.call.name = "setView" → ctx.CallsOn here dialog →
        Wiring.isAlert ctx (out.graph.kind dialog) →
        out.facts.dialogShows.image dialog ≠ [] → here.arg? 0 = some (.int v) →
        ctx.resources.idKind? v = some .layout → ctx.resources.layout? v = some tree →
        (∀ e ∈ tree.walk, e.owner ≠ none) →
        ∀ frame, HasFrame ctx out dialog id frame →
          ∃ nodes, out.graph.HasCopy tree nodes ∧ out.graph.Contains frame (nodes []) := by
  intro hall
  obtain ⟨out, h, hframed⟩ := Sample.notice_analyzed
  obtain ⟨⟨hshown, halert⟩, _, _, hchildren⟩ := id hframed
  obtain ⟨nodes, hcopy, hinside⟩ := hall Sample.notice out h rfl rfl rfl _ 33 _ 8 _
    Sample.notice_custom rfl
    (Sample.notice_callsOn 4 .int (.int 8) rfl) halert hshown rfl
    (by decide +kernel) Sample.notice_layout (by simp [Element.walk, Element.walkAll]) 50 hframed.hasFrame
  have hkind := hcopy.kind_eq [] ("android.widget.CheckBox", _) rfl
  have hmem := List.mem_map_of_mem (f := out.graph.kind) (mem_children.mpr hinside)
  rw [hchildren, hkind, List.mem_singleton] at hmem
  exact absurd hmem (by decide)

end Outcome

end WidgetFlow
