import WidgetFlow.Proofs.Wiring.Operations

/-!
# Building activities and their menus

The variables that stand for menus are kept in the notes, which therefore name variables of the
graph at any time.
-/

namespace WidgetFlow.Wiring

open FlowGraph Analysis Platform

variable {base : FlowGraph} {ctx : Context} {permit : Permit} {law : Law Notes}
  [Walks ctx permit law] {owner : String} {registration : ContextRegistration}

include permit

theorem builds_wirePrepareDialog : Upholds law base (wirePrepareDialog ctx owner) := by
  unfold wirePrepareDialog
  extract_lets created
  split
  case isTrue => exact .done _
  refine Ensures.bind (.filterMapM HasHolder HasHolder.mono fun m _ => builds_paramNode?)
    fun prepared g _ hprepared => ?_
  refine .forM ?_
  rintro ⟨m, name⟩ _
  refine builds_varNode.bind fun src g hg hsource => .forM fun dst htarget => ?_
  exact (builds_connect _ hsource.hasValue ((hprepared dst htarget).mono hg).hasGoal).upholds

section Menus

include ctx

theorem builds_nameMenuVar {callback : MethodId} {var : NodeId} (hvar : base.HasHolder var) :
    Upholds law base (modifyFacts fun facts =>
      { facts with itemSelectedVars := facts.itemSelectedVars.insert callback var }) := by
  change Upholds law base (act fun g ns => ((), g, { ns with
    facts.itemSelectedVars := ns.facts.itemSelectedVars.insert callback var }))
  refine ensures_step fun s hbase hs =>
    ⟨.note ⟨rfl, List.prefix_rfl, rfl, rfl, rfl⟩ ?_ rfl, trivial⟩
  refine Notes.Fits.mk hs.fits.links (fun other found hfound => ?_) hs.fits.registrations
  rw [Std.TreeMap.getElem?_insert] at hfound
  split at hfound
  · rw [← Option.some.inj hfound]
    exact hvar.mono hbase
  · exact hs.fits.itemSelectedVars other found hfound

theorem builds_itemSelectedVar {callback : MethodId} :
    Ensures law base (itemSelectedVar callback) HasHolder := by
  unfold itemSelectedVar
  refine builds_getFacts.bind fun facts g _ hfacts => ?_
  split
  next var hvar => exact .pure fun _ hg => (hfacts callback var hvar).mono hg
  next =>
    refine (builds_makeHolder (by decide)).bind fun var g _ hvar => ?_
    refine .andThen (builds_nameMenuVar hvar) fun _ => ?_
    exact .pure fun _ hg => hvar.mono hg

theorem builds_wireItem {menu item : NodeId} {menuClass : String}
    (hclass : menuClass ∉ NodeKind.reservedClasses) (hmenu : base.HasValue menu)
    (hitem : base.HasHolder item) : Upholds law base (wireItem menu item menuClass) := by
  unfold wireItem
  refine (builds_makeHolder hclass).bind fun receiver g hg hreceiver => ?_
  refine .andThen (builds_connect _ (hmenu.mono hg) hreceiver.hasGoal) fun _ => ?_
  refine (builds_makeHolder (by decide)).bind fun res g hg' hresult => ?_
  have hreceiver := hreceiver.mono hg'
  refine .andThen (builds_addOp ⟨.some hreceiver.hasValue, nofun, .some hresult.hasVar⟩ rfl rfl) fun _ => ?_
  have hitem := hitem.mono (hg.trans hg')
  exact (builds_connect _ hresult.hasValue hitem.hasGoal).upholds

theorem builds_wireContextMenuItems {menu : NodeId} {filler : MethodId}
    (hmenu : base.HasValue menu) : Upholds law base (wireContextMenuItems menu filler) := by
  unfold wireContextMenuItems
  refine builds_getFacts.bind fun facts g hg hfacts => .forM fun var hvar => ?_
  obtain ⟨m, _, hvar⟩ := List.mem_filterMap.mp hvar
  exact (builds_connect _ (hmenu.mono hg) (hfacts m var hvar).hasGoal).upholds

theorem builds_noteContextMenuCall {site : StmtId} {view : Option NodeId} :
    Upholds law base (noteContextMenuCall site view) := by
  unfold noteContextMenuCall
  split
  · exact builds_modifyFacts
  · exact .done _

theorem builds_noteOptionsMenuCall {site : StmtId} {activity : Option NodeId} :
    Upholds law base (noteOptionsMenuCall site activity) := by
  unfold noteOptionsMenuCall
  split
  · exact builds_modifyFacts
  · exact .done _

end Menus

theorem builds_wireItemSelected {menu : Option NodeId} {menuClass : String}
    (hclass : menuClass ∉ NodeKind.reservedClasses) {filler : MethodId} {callback : String × Nat}
    (hmenu : base.HasValue? menu) :
    Upholds law base (wireItemSelected ctx menu menuClass owner filler callback) := by
  unfold wireItemSelected
  split
  case h_2 => exact .done _
  extract_lets proceed
  have hproceed : ∀ menu g, Extends base g → g.HasValue menu →
      Upholds law g (proceed menu) := by
    intro menu g _ hmenu
    refine .andThen builds_modifyFacts fun _ => ?_
    refine builds_paramNode?.bind fun item g hg hitem => ?_
    split
    case h_2 => exact .done _
    exact builds_wireItem hclass (hmenu.mono hg) (hitem _ rfl)
  split
  next menu =>
    rw [pure_bind]
    exact hproceed menu base (.refl _) (hmenu menu rfl)
  next =>
    exact builds_itemSelectedVar.bind fun menu g hg hmenu =>
      hproceed menu g hg hmenu.hasValue

theorem builds_wireOptionsMenu : Upholds law base (wireOptionsMenu ctx owner) := by
  unfold wireOptionsMenu
  extract_lets fillers
  split
  case isTrue => exact .done _
  refine (locates_share (.plain rfl) rfl rfl rfl).bind ?_
  rintro ⟨menu, created⟩ g _ hmenu
  refine .forM fun filler _ => builds_paramNode?.bind fun formal g hg hformal => ?_
  have hmenu : g.HasValue menu := .of_find? (hg.find?_eq hmenu)
  refine .andThen (builds_connect? _ hmenu hformal) fun _ => ?_
  exact .forM fun callback _ => builds_wireItemSelected (by decide) (.some hmenu)

theorem builds_wireContextItems : Upholds law base (wireContextItems ctx owner) := by
  unfold wireContextItems
  split
  case h_2 => exact .done _
  exact .forM fun callback _ => builds_wireItemSelected (by decide) nofun

theorem builds_wireActivity : Upholds law base (wireActivity ctx owner) := by
  unfold wireActivity
  refine (locates_obtain (.plain rfl) rfl rfl rfl).bind fun activity g _ hactivity => ?_
  refine builds_wirePrepareDialog.andThen fun _ => ?_
  refine builds_wireOptionsMenu.andThen fun _ => ?_
  refine builds_wireContextItems.andThen fun _ => ?_
  refine .forM fun m _ => builds_thisNode?.bind fun this g hg hthis => ?_
  exact builds_connect? _ (.of_find? (hg.find?_eq hactivity)) hthis

theorem builds_wireActivities : Upholds law base (wireActivities ctx) :=
  .forM fun _ _ => builds_wireActivity

/-! ## Context menus -/

theorem builds_contextMenuView? {handler : MethodId} :
    Upholds law base (contextMenuView? ctx registration handler) := by
  unfold contextMenuView?
  extract_lets subsig
  split
  case isTrue => exact .done _
  split
  case isTrue => exact .done _
  refine builds_paramNode?.bind fun formal g _ hformal => ?_
  split
  case h_2 => exact .done _
  rename_i formal
  refine (builds_contextMenuNode handler registration.view (hformal formal rfl)).bind ?_
  rintro ⟨menu, created⟩ g _ hmenu
  exact (builds_wireContextMenuItems hmenu.hasValue).andThen fun _ => .done _

theorem builds_wireContextHandler {handler : MethodId} (h : permit.binds registration.op)
    (hview : base.HasHolder registration.view) (hlistener : base.HasHolder registration.listener) :
    Upholds law base (wireContextHandler ctx registration handler) := by
  unfold wireContextHandler
  have hbind : Upholds law base
      (onGraph (FlowGraph.bindHandler registration.op (.method handler)) : Wiring Bool) :=
    ensures_graphStep fun _ _ _ => ⟨.bind h handler _ _, trivial⟩
  refine hbind.andThen fun _ => ?_
  refine builds_thisNode?.bind fun this g hg hthis => ?_
  have hlistener := hlistener.mono hg
  refine .andThen (builds_connect? _ hlistener.hasValue hthis) fun _ => ?_
  refine builds_contextMenuView?.andThen fun position => ?_
  split
  case h_2 => exact .done _
  refine builds_viewParamNode?.bind fun param g hg' hparam => ?_
  exact builds_connect? _ (hview.mono (hg.trans hg')).hasValue hparam

theorem builds_wireRegistrations {registrations : List ContextRegistration}
    (h : ∀ registration ∈ registrations, permit.binds registration.op ∧
      base.HasHolder registration.view ∧ base.HasHolder registration.listener) :
    Upholds law base (registrations.forM fun registration =>
      (ctx.handlersFor registration.interface
        (ctx.hierarchy.appSubtypes registration.listenerClass)).forM
          (wireContextHandler ctx registration)) := by
  refine .forM fun registration hregistration => .forM fun handler _ => ?_
  obtain ⟨hbinds, hview, hlistener⟩ := h registration hregistration
  exact builds_wireContextHandler hbinds hview hlistener

theorem builds_wireContextMenus (h : ∀ op, permit.binds op) :
    Upholds law base (wireContextMenus ctx) := by
  refine Ensures.getNotes.bind fun ns g _ hnotes => ?_
  exact builds_wireRegistrations fun registration hregistration =>
    ⟨h registration.op, hnotes.registrations registration hregistration⟩

theorem builds_noteMenuCall {here : CallSite} : Upholds law base (noteMenuCall ctx here) := by
  unfold noteMenuCall
  split
  case h_2 => exact .done _
  split
  · exact builds_receiverNode?.andThen fun _ => builds_noteContextMenuCall.andThen fun _ => .done _
  split
  · exact .done _
  split
  · exact builds_varNode?.andThen fun _ => builds_noteContextMenuCall.andThen fun _ => .done _
  split
  · exact builds_receiverNode?.andThen fun _ => builds_noteOptionsMenuCall.andThen fun _ => .done _
  · exact .done _

end WidgetFlow.Wiring
