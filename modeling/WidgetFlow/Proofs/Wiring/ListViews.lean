import WidgetFlow.Proofs.Wiring.Dialogs

/-!
# Building lists and their adapters

The layouts of array adapters are collected before lists are connected; they stay nodes of the graph
while it grows.
-/

namespace WidgetFlow.Wiring

open FlowGraph Analysis

variable {base : FlowGraph} {ctx : Context} {permit : Permit} {law : Law Notes} {here : CallSite}
  {site : StmtId} {listView : NodeId}

theorem hasValue_of_mem_activities {g : FlowGraph} {owner : String} {activity : NodeId}
    (h : (owner, activity) ∈ g.activities) : g.HasValue activity := by
  exact .of_isObject (by rw [mem_activities.mp h]; rfl)

/-- The layout of an array adapter is an argument of the statement where it is found. -/
theorem places_layoutInConstructor? {bound : Nat} {seen : List MethodId} {constructor : MethodId}
    {v : Value} (h : layoutInConstructor? ctx bound seen constructor = some (site, v)) :
    ctx.Places site v := by
  induction bound generalizing seen constructor with
  | zero => exact absurd h nofun
  | succ bound ih =>
    unfold layoutInConstructor? at h
    split at h
    next => cases h
    next =>
      dsimp only at h
      split at h
      next => cases h
      next place call hinner =>
        obtain ⟨⟨place', stmt⟩, hmem, hfound⟩ := List.exists_of_findSome?_eq_some hinner
        obtain ⟨call', hcall, hselect⟩ := Option.bind_eq_some_iff.mp hfound
        obtain ⟨_, heq⟩ := Option.ite_none_right_eq_some.mp hselect
        cases heq
        have hstands : ctx.call? place' = some call := by
          rw [Context.call?, Context.stmt?_of_mem_stmts hmem]
          exact hcall
        split at h
        next =>
          obtain ⟨_, harg, heq⟩ := Option.map_eq_some_iff.mp h
          cases heq
          exact .of_arg hstands harg
        next =>
          split at h
          next =>
            split at h
            next => exact ih h
            next => cases h
          next => cases h

theorem places_adapterLayout? {call : CallExpr} {place : StmtId} {v : Value}
    (hcall : ctx.call? site = some call) (h : adapterLayout? ctx site call = some (place, v)) :
    ctx.Places place v := by
  unfold adapterLayout? at h
  split at h
  next =>
    obtain ⟨_, harg, heq⟩ := Option.map_eq_some_iff.mp h
    cases heq
    exact .of_arg hcall harg
  next =>
    split at h
    next => exact places_layoutInConstructor? h
    next => cases h

def FitLayouts (g : FlowGraph) (layouts : Relation NodeId NodeId) : Prop :=
  ∀ adapter layout, layouts.holds adapter layout → g.HasValue layout

theorem FitLayouts.mono {old new : FlowGraph} {layouts : Relation NodeId NodeId}
    (hg : Extends old new) (h : FitLayouts old layouts) : FitLayouts new layouts :=
  fun adapter layout hholds => (h adapter layout hholds).mono hg

variable [Walks ctx permit law]

include permit

theorem builds_noteListViewCall : Upholds law base (noteListViewCall ctx here) := by
  unfold noteListViewCall
  split
  case h_2 => exact .done _
  split
  · exact (builds_noteListCall _ _).andThen fun _ => .done _
  split
  · exact .done _
  split
  · exact (builds_noteListCall _ _).andThen fun _ => .done _
  split
  · exact (builds_noteListCall _ _).andThen fun _ => .done _
  · exact .done _

/-! ## List activities -/

theorem builds_wireRootlessLists : Upholds law base (wireRootlessLists ctx) := by
  unfold wireRootlessLists
  refine Ensures.getGraph.bind ?_
  rintro g _ _ ⟨rfl, _⟩
  extract_lets rootless name
  split
  case isTrue => exact .done _
  split
  case h_2 => exact .gap _
  refine .forM fun activity hactivity => ?_
  have hactivity : g.HasValue activity := by
    have hmem := (List.mem_filter.mp (List.mem_filter.mp hactivity).1).1
    simp only [Std.TreeSet.mem_toList, Std.TreeSet.mem_ofList, List.contains_eq_mem, List.mem_map,
      Prod.exists, exists_eq_right, decide_eq_true_eq] at hmem
    obtain ⟨owner, hmem⟩ := hmem
    exact hasValue_of_mem_activities hmem
  refine (builds_idNode _ _).bind fun layout g hg hlayout => ?_
  refine (builds_makeHolder (by decide)).bind fun receiver g hg' hreceiver => ?_
  have hactivity := hactivity.mono (hg.trans hg')
  refine .andThen (builds_connect _ hactivity hreceiver.hasGoal) fun _ => ?_
  have hlayout := hlayout.mono hg'
  exact .andThen (builds_addOp ⟨.some hreceiver.hasValue, .some hlayout, nofun⟩ rfl rfl) fun _ => .done _

theorem builds_wireListItemClick {activity : NodeId} {handler : MethodId} {list : ResId}
    (hactivity : base.HasValue activity) :
    Upholds law base (wireListItemClick ctx activity handler list) := by
  unfold wireListItemClick
  refine (builds_makeHolder (by decide)).bind fun receiver g hg hreceiver => ?_
  have hactivity := hactivity.mono hg
  refine .andThen (builds_connect _ hactivity hreceiver.hasGoal) fun _ => ?_
  refine (builds_idNode _ _).bind fun id g hg hid => ?_
  refine (builds_makeHolder (by decide)).bind fun listView g hg' hlist => ?_
  have hreceiver := hreceiver.mono (hg.trans hg')
  have hactivity := hactivity.mono (hg.trans hg')
  have hid := hid.mono hg'
  refine .andThen (builds_addOp ⟨.some hreceiver.hasValue, .some hid, .some hlist.hasVar⟩ rfl rfl)
    fun _ => ?_
  refine (builds_makeHolder (by decide)).bind fun item g hg hitem => ?_
  have hactivity := hactivity.mono hg
  have hlist := hlist.mono hg
  refine .andThen (builds_addOp ⟨.some hlist.hasValue, nofun, .some hitem.hasVar⟩ rfl rfl) fun _ => ?_
  -- the list and its item are there: the handler is wired as if it were their listener
  refine (builds_addSynthetic _).bind fun pair g hg hglue => ?_
  split
  rename_i glue index
  have hactivity := hactivity.mono hg
  have hlist := hlist.mono hg
  have hitem := hitem.mono hg
  refine builds_thisNode?.bind fun this g hg hthis => ?_
  have hactivity := hactivity.mono hg
  refine .andThen (builds_connect? _ hactivity hthis) fun _ => ?_
  refine builds_paramNode?.bind fun first g hg' hfirst => ?_
  have hlist := hlist.mono (hg.trans hg')
  refine .andThen (builds_connect? _ hlist.hasValue hfirst) fun _ => ?_
  refine builds_paramNode?.bind fun second g hg'' hsecond => ?_
  have hitem := hitem.mono (hg.trans (hg'.trans hg''))
  refine .andThen (builds_connect? _ hitem.hasValue hsecond) fun _ => ?_
  have hglue := HasValue.mono (hg.trans (hg'.trans hg'')) hglue
  have hlist := hlist.mono hg''
  refine (builds_makeHolder (by decide)).bind fun lis g hg hlistener => ?_
  refine .andThen (builds_connect _ (hglue.mono hg) hlistener.hasGoal) fun _ => ?_
  have hlist := hlist.mono hg
  have hlist := HasValue?.some hlist.hasValue
  exact builds_install ⟨hlist, .some hlistener.hasValue, nofun⟩ rfl (.done _)

theorem builds_wireListActivities : Upholds law base (wireListActivities ctx) := by
  unfold wireListActivities
  refine Ensures.getGraph.bind ?_
  rintro g _ _ ⟨rfl, _⟩
  extract_lets handled
  split
  case isTrue => exact .done _
  split
  case h_2 => exact .gap _
  refine .forM ?_
  rintro ⟨activity, handler⟩ hhandled
  obtain ⟨⟨owner, found⟩, hfound, hselect⟩ := List.mem_filterMap.mp hhandled
  have hsame : found = activity := by
    dsimp only at hselect
    split at hselect
    · obtain ⟨_, _, hpair⟩ := Option.map_eq_some_iff.mp hselect
      exact (Prod.mk.inj hpair).1
    · simp at hselect
  exact builds_wireListItemClick (hsame ▸ hasValue_of_mem_activities hfound)

/-! ## Array adapters -/

theorem builds_addAdapterLayout {layouts : Relation NodeId NodeId}
    (hlayouts : FitLayouts base layouts) :
    Ensures law base (addAdapterLayout ctx layouts site) FitLayouts := by
  unfold addAdapterLayout
  have hsame : Ensures law base (pure layouts : Wiring (Relation NodeId NodeId)) FitLayouts :=
    .pure fun _ hg => hlayouts.mono hg
  split
  case h_2 => exact hsame
  rename_i hcall
  split
  · exact hsame
  split
  case h_2 => exact (Ensures.gap _).andThen fun _ => hsame
  rename_i hlayout
  refine (builds_valueNode? (places_adapterLayout? hcall hlayout)).bind fun layout g hg hlayout => ?_
  split
  case h_2 => exact hsame.mono hg
  rename_i layout
  split
  case h_2 => exact hsame.mono hg
  refine builds_varNode.bind fun adapter g hg' _ => ?_
  refine Ensures.getGraph.andThen fun _ => ?_
  refine builds_objectsOf.andThen fun objects => ?_
  extract_lets allocs proceed
  have hproceed : Ensures law g (proceed ()) FitLayouts := by
    refine .pure fun g hg'' key v hholds => ?_
    have hfold := Relation.holds_foldl_add layouts allocs (fun alloc => (alloc, layout)) key v
    rcases hfold.mp hholds with ⟨alloc, _, hpair⟩ | hholds
    · rw [← (Prod.mk.inj hpair).2]
      exact (hlayout layout rfl).mono (hg'.trans hg'')
    · exact (hlayouts key v hholds).mono (hg.trans (hg'.trans hg''))
  split
  · exact (Ensures.gap _).andThen fun _ => hproceed
  · exact hproceed

theorem builds_adapterLayouts : Ensures law base (adapterLayouts ctx) FitLayouts := by
  unfold adapterLayouts
  refine Ensures.getNotes.andThen fun ns => ?_
  refine .foldlM (fun _ _ key v hholds => by simp at hholds) ?_
  exact fun layouts g _ hlayouts site _ => builds_addAdapterLayout hlayouts

include ctx in
theorem builds_inflateItem {layout res : NodeId} (hlayout : base.HasValue layout)
    (hresult : base.HasHolder res) : Upholds law base (inflateItem layout res site) :=
  .andThen (builds_addOp ⟨nofun, .some hlayout, .some hresult.hasVar⟩ rfl rfl) fun _ => .done _

include ctx in
theorem builds_addItem {item : NodeId} (hlist : base.HasValue listView)
    (hitem : base.HasValue item) : Upholds law base (addItem listView item site) :=
  .andThen (builds_addOp ⟨.some hlist, .some hitem, nofun⟩ rfl rfl) fun _ => .done _

theorem builds_addReturnedItems {m : MethodId} (hlist : base.HasValue listView) :
    Upholds law base (addReturnedItems ctx listView site m) := by
  unfold addReturnedItems
  refine .andThen (.forM fun v _ => ?_) fun _ => ?_
  · split
    · refine builds_varNode.bind fun item g hg hitem => ?_
      exact builds_addItem (hlist.mono hg) hitem.hasValue
    · exact .done _
    · exact .gap _
  · refine builds_paramNode?.bind fun param g hg hparam => ?_
    exact builds_connect? _ (hlist.mono hg) hparam

theorem builds_addInflatedItems {layouts : List NodeId}
    (hlayouts : ∀ layout ∈ layouts, base.HasValue layout) (hlist : base.HasValue listView) :
    Upholds law base (addInflatedItems ctx layouts listView site) := by
  unfold addInflatedItems
  extract_lets proceed
  have hproceed : Upholds law base (proceed ()) := by
    refine .forM fun layout hlayout => ?_
    refine (builds_makeHolder (by decide)).bind fun item g hg hitem => ?_
    have hlayout := (hlayouts layout hlayout).mono hg
    refine (builds_inflateItem hlayout hitem).andThen fun _ => ?_
    exact builds_addItem (hlist.mono hg) hitem.hasValue
  split
  · exact (Ensures.gap _).andThen fun _ => hproceed
  · exact hproceed

theorem builds_connectAdapter {layouts : Relation NodeId NodeId} {adapter : NodeId}
    (hlayouts : FitLayouts base layouts) (hlist : base.HasValue listView) :
    Upholds law base (connectAdapter ctx layouts listView site adapter) := by
  unfold connectAdapter
  refine Ensures.getGraph.andThen fun g => ?_
  split
  case h_2 => exact .done _
  split
  case h_2 => exact .done _
  split
  · exact .done _
  split
  · exact builds_addReturnedItems hlist
  split
  · exact builds_addInflatedItems
      (fun layout hlayout => hlayouts adapter layout (Relation.mem_image.mp hlayout)) hlist
  · exact .gap _

theorem builds_wireSetAdapter {layouts : Relation NodeId NodeId}
    (hlayouts : FitLayouts base layouts) : Upholds law base (wireSetAdapter ctx layouts site) := by
  unfold wireSetAdapter
  split
  case h_2 => exact .done _
  split
  case h_2 => exact .done _
  split
  case h_2 => exact .done _
  refine builds_varNode.bind fun listView g hg hlist => ?_
  refine builds_varNode.bind fun adapter g hg' _ => ?_
  refine builds_objectsOf.andThen fun objects => ?_
  have hlayouts := hlayouts.mono (hg.trans hg')
  have hlist := (hlist.mono hg').hasValue
  exact .forM fun o _ => builds_connectAdapter hlayouts hlist

theorem builds_wireGetView {layouts : Relation NodeId NodeId}
    (hlayouts : FitLayouts base layouts) : Upholds law base (wireGetView ctx layouts site) := by
  unfold wireGetView
  split
  case h_2 => exact .done _
  refine builds_varNode.bind fun receiver g hg _ => ?_
  refine builds_objectsOf.andThen fun objects => ?_
  refine .forM fun adapter _ => ?_
  refine Ensures.getGraph.andThen fun _ => ?_
  split
  case h_2 => exact .done _
  split
  case h_2 => exact .done _
  split
  · exact .done _
  refine builds_definedNode?.bind fun res g hg' hresult => ?_
  split
  case h_2 => exact .done _
  rename_i res
  extract_lets found proceed
  -- an adapter without a known layout is a gap, and then there is nothing to inflate
  have hproceed : Upholds law g (proceed ()) := by
    refine .forM fun layout hlayout => ?_
    have hlayout := hlayouts adapter layout (Relation.mem_image.mp hlayout)
    exact builds_inflateItem (hlayout.mono (hg.trans hg')) (hresult res rfl)
  split
  · exact (Ensures.gap _).andThen fun _ => hproceed
  · exact hproceed

theorem builds_wireListCalls : Upholds law base (wireListCalls ctx) := by
  unfold wireListCalls
  refine builds_adapterLayouts.bind fun layouts g _ hlayouts => ?_
  refine Ensures.getNotes.andThen fun ns => ?_
  refine .andThen (.forM fun site _ => builds_wireSetAdapter hlayouts) fun _ => ?_
  exact .forM fun site _ => builds_wireGetView hlayouts

theorem builds_wireLists : Upholds law base (wireLists ctx) := by
  unfold wireLists
  refine builds_wireRootlessLists.andThen fun _ => ?_
  refine builds_wireListActivities.andThen fun _ => ?_
  exact builds_wireListCalls

end WidgetFlow.Wiring
