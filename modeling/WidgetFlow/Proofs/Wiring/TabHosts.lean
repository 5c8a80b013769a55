import WidgetFlow.Proofs.Wiring.Dialogs

/-!
# Building tab hosts

The indicators and contents of a tab are variables of the graph when the tab is added.
-/

namespace WidgetFlow.Wiring

open FlowGraph Analysis

variable {base g : FlowGraph} {ctx : Context} {permit : Permit} {law : Law Notes}
  {here : CallSite} {site : StmtId}

/-! ## Noting calls -/

def HasHolders (g : FlowGraph) (nodes : List NodeId) : Prop := ∀ n ∈ nodes, g.HasHolder n

theorem HasHolders.mono {old new : FlowGraph} {nodes : List NodeId} (hg : Extends old new)
    (h : HasHolders old nodes) : HasHolders new nodes :=
  fun n hnode => (h n hnode).mono hg

theorem HasHolders.nil : HasHolders g [] := by
  simp [HasHolders]

theorem HasHolders.singleton {n : NodeId} (h : g.HasHolder n) :
    HasHolders g [n] := by
  simpa [HasHolders] using h

theorem HasHolders.append {first second : List NodeId} (h : HasHolders g first)
    (h' : HasHolders g second) : HasHolders g (first ++ second) := by
  intro n hnode
  rcases List.mem_append.mp hnode with hnode | hnode
  · exact h n hnode
  · exact h' n hnode

/-- A part that gives one variable, as a list. -/
theorem builds_singleton {part : Wiring NodeId} (h : Ensures law base part HasHolder) :
    Ensures law base (do return [← part]) HasHolders :=
  h.bind fun _ _ _ hvar => .pure fun _ hg => .singleton (hvar.mono hg)

variable [Walks ctx permit law]

include permit

theorem builds_noteHostCall (hhere : here.Stands ctx) {owner : String}
    (hsubsig : here.subsig = Platform.Method.addTab ∨ here.subsig = Platform.Method.newTabSpec) :
    Upholds law base (noteHostCall ctx here owner) := by
  unfold noteHostCall
  split
  · exact .gap _
  split
  · split
    · exact .violation _
    · exact builds_varNode.andThen fun _ => builds_noteCall _ _ _
  rename_i hadd
  split
  · have hspec : ctx.MakesSpec here.site := ⟨here.call, hhere, hsubsig.resolve_left hadd⟩
    refine (locates_obtain (.spec hspec rfl) rfl rfl rfl).bind fun spec g _ hspec => ?_
    refine builds_resultNode?.bind fun res g hg hresult => ?_
    exact builds_connect? _ (.of_find? (hg.find?_eq hspec)) hresult
  · exact .done _

theorem builds_noteSpecCall : Upholds law base (noteSpecCall ctx here) := by
  unfold noteSpecCall
  refine builds_receiverNode?.bind fun receiver g _ hreceiver => ?_
  split
  case h_2 => exact .done _
  split
  case h_2 => exact .done _
  refine (builds_noteCall _ _ _).andThen fun _ => ?_
  refine builds_resultNode?.bind fun res g hg hresult => ?_
  exact builds_connect? _ ((hreceiver _ rfl).mono hg).hasValue hresult

theorem builds_noteTabCall (hhere : here.Stands ctx) : Upholds law base (noteTabCall ctx here) := by
  unfold noteTabCall
  split
  case isTrue => exact .done _
  split
  case h_2 => exact .done _
  split
  · split
    next hsubsig => exact builds_noteHostCall hhere (by simpa using hsubsig)
    next => exact .done _
  split
  · exact builds_noteSpecCall
  · exact .done _

/-! ## Indicators and contents -/

include ctx in
theorem builds_inflatePart {layout : NodeId} (hlayout : base.HasValue layout) :
    Ensures law base (inflatePart layout site) HasHolder := by
  unfold inflatePart
  refine (builds_makeHolder (by decide)).bind fun view g hg hview => ?_
  refine .andThen (builds_addOp ⟨nofun, .some (hlayout.mono hg), .some hview.hasVar⟩ rfl rfl) fun _ => ?_
  exact .pure fun _ hg => hview.mono hg

theorem builds_labelIndicator : Ensures law base (labelIndicator ctx site) HasHolders := by
  unfold labelIndicator
  split
  · exact (Ensures.gap _).andThen fun _ => .pure fun _ _ => .nil
  · refine (builds_idNode _ _).bind fun layout g _ hlayout => ?_
    exact builds_singleton (builds_inflatePart hlayout)

theorem builds_viewIndicator : Ensures law base (viewIndicator ctx site) HasHolders := by
  unfold viewIndicator
  split
  case h_2 => exact .pure fun _ _ => .nil
  split
  · exact builds_singleton builds_varNode
  · exact (Ensures.gap _).andThen fun _ => .pure fun _ _ => .nil

theorem builds_layoutContent : Ensures law base (layoutContent ctx site) HasHolders := by
  unfold layoutContent
  split
  case h_2 => exact .pure fun _ _ => .nil
  rename_i hvalue
  obtain ⟨call, hcall, harg⟩ := Option.bind_eq_some_iff.mp hvalue
  split
  · exact .pure fun _ _ => .nil
  refine (builds_valueNode? (.of_arg hcall harg)).bind fun layout g _ hlayout => ?_
  split
  · exact (Ensures.gap _).andThen fun _ => .pure fun _ _ => .nil
  · exact builds_singleton (builds_inflatePart (hlayout _ rfl))

theorem builds_contentCreators {factory : NodeId} :
    Upholds law base (contentCreators ctx factory) := by
  unfold contentCreators
  refine Ensures.getGraph.andThen fun _ => ?_
  exact builds_objectsOf.andThen fun _ => .done _

theorem builds_factoryContent : Ensures law base (factoryContent ctx site) HasHolders := by
  unfold factoryContent
  split
  case h_2 => exact .pure fun _ _ => .nil
  refine builds_varNode.andThen fun factory => ?_
  refine builds_contentCreators.andThen fun creators => ?_
  extract_lets proceed
  have hproceed : Ensures law base (proceed ()) HasHolders :=
    .flatMapM HasHolder HasHolder.mono fun m _ =>
      .mapM HasHolder HasHolder.mono fun name _ => builds_varNode
  split
  · exact (Ensures.gap _).andThen fun _ => hproceed
  · exact hproceed

/-! ## Tabs -/

include ctx in
theorem builds_placeUnder {host : NodeId} {id : ResId} {owner : String} {views : List NodeId}
    (howner : owner ≠ Platform.ClassName.alertDialog) (hhost : base.HasValue host)
    (hviews : HasHolders base views) : Upholds law base (placeUnder host id owner views site) := by
  unfold placeUnder
  refine (builds_idNode _ _).bind fun id g hg hid => ?_
  refine (builds_makeVar owner howner).bind fun p g hg' hparent => ?_
  have hhost := hhost.mono (hg.trans hg')
  have hid := hid.mono hg'
  refine .andThen (builds_addOp ⟨.some hhost, .some hid, .some hparent.hasVar⟩ rfl rfl) fun _ => ?_
  refine .forM fun view hview => ?_
  have hview : base.HasHolder view := by
    rw [Std.TreeSet.mem_toList, Std.TreeSet.mem_ofList] at hview
    exact hviews view (by simpa using hview)
  have hview := (hview.mono (hg.trans hg')).hasValue
  exact .andThen (builds_addOp ⟨.some hparent.hasVar.hasValue, .some hview, nofun⟩ rfl rfl) fun _ => .done _

theorem builds_addTab {parts : TabParts} (hindicators : HasHolders base parts.indicators)
    (hcontents : HasHolders base parts.contents) : Upholds law base (addTab ctx parts site) := by
  unfold addTab
  split
  case h_2 => exact .gap _
  split
  case h_2 => exact .done _
  refine builds_varNode.bind fun host g hg hhost => ?_
  refine .andThen (builds_placeUnder (by decide) hhost.hasValue (hindicators.mono hg)) fun _ => ?_
  exact builds_placeUnder (by decide) hhost.hasValue (hcontents.mono hg)

theorem builds_tabParts {calls : SpecCalls} {spec : NodeId} :
    Ensures law base (tabParts ctx calls spec) fun g parts =>
      HasHolders g parts.indicators ∧ HasHolders g parts.contents := by
  unfold tabParts
  refine Ensures.bind (.flatMapM HasHolder HasHolder.mono fun site _ => builds_labelIndicator)
    fun labels g _ hlabels => ?_
  refine Ensures.bind (.flatMapM HasHolder HasHolder.mono fun site _ => builds_viewIndicator)
    fun views g hg hviews => ?_
  refine Ensures.bind (.flatMapM HasHolder HasHolder.mono fun site _ => builds_layoutContent)
    fun layouts g hg' hlayouts => ?_
  refine Ensures.bind (.flatMapM HasHolder HasHolder.mono fun site _ => builds_factoryContent)
    fun factories g hg'' hfactories => .pure fun g hlast => ⟨?_, ?_⟩
  · have hlate := hg'.trans (hg''.trans hlast)
    exact .append (HasHolders.mono (hg.trans hlate) hlabels) (HasHolders.mono hlate hviews)
  · exact .append (HasHolders.mono (hg''.trans hlast) hlayouts) (HasHolders.mono hlast hfactories)

theorem builds_wireTabHosts : Upholds law base (wireTabHosts ctx) := by
  unfold wireTabHosts
  refine builds_callsOn.andThen fun tabs => ?_
  split
  case isTrue => exact .done _
  refine builds_callsOn.andThen fun labels => ?_
  refine builds_callsOn.andThen fun views => ?_
  refine builds_callsOn.andThen fun layouts => ?_
  refine builds_callsOn.andThen fun factories => ?_
  refine .forM ?_
  rintro ⟨spec, sites⟩ _
  refine builds_tabParts.bind ?_
  rintro parts g _ ⟨hindicators, hcontents⟩
  exact .forM fun site _ => builds_addTab hindicators hcontents

end WidgetFlow.Wiring
