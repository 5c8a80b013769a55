import WidgetFlow.Proofs.Wiring.Activities

/-!
# Building dialogs

The parts of a dialog are looked up in variables that the wiring makes, and its listeners and views
are objects and variables of the graph. A dialog gets its content in one step with the note that it
has got it (`installAlert_of_layout`), and so does the frame for its custom view (`builds_fill`).

A call that sets the view of a dialog becomes two operations. The first looks up the frame for
custom views in the dialog and puts it into a variable that is made for it (`Seeks`). The second
works on that variable: it adds a view that the call gets in a local, and inflates a layout that it
gets by a constant (`SetsView`).
-/

namespace WidgetFlow.Wiring

open FlowGraph Analysis Platform

variable {base : FlowGraph} {ctx : Context} {permit : Permit} {law : Law Notes} {here : CallSite}
  {call : CallExpr} {dialog : NodeId} {site : StmtId} {built : Built}

/-! ## Placing the content of an alert dialog -/

/-- A dialog is noted as one that has got its content, and the graph changes, unless the dialog has
been noted before. -/
def placing (dialog : NodeId) (change : FlowGraph → FlowGraph) (g : FlowGraph) (ns : Notes) :
    Bool × FlowGraph × Notes :=
  if ns.alerts.contains dialog then (true, g, ns)
  else (false, change g, { ns with alerts := ns.alerts.insert dialog })

theorem act_placing (dialog : NodeId) (change : FlowGraph → FlowGraph) (next : Wiring Unit) :
    (do
      if (← getNotes).alerts.contains dialog then
        return
      modifyNotes fun ns => { ns with alerts := ns.alerts.insert dialog }
      modifyGraph change
      next) =
    (do if ← act (placing dialog change) then pure () else next : Wiring Unit) := by
  funext st
  obtain ⟨g, policy, ns⟩ := st
  change (do
      if ns.alerts.contains dialog then
        return
      modifyNotes fun ns => { ns with alerts := ns.alerts.insert dialog }
      modifyGraph change
      next : Wiring Unit) ⟨g, policy, ns⟩ =
    (if (placing dialog change g ns).1 then pure () else next : Wiring Unit)
      ⟨(placing dialog change g ns).2.1, policy, (placing dialog change g ns).2.2⟩
  unfold placing
  split
  · rfl
  · rfl

/-- What comes after the content of an alert dialog has been added: pickers get more. -/
def installMore (ctx : Context) (dialog : NodeId) (site : StmtId) : Wiring Unit := do
  if let some owner := ((← getGraph).kind dialog).owner? then
    if owner = Platform.ClassName.timePickerDialog then
      installPicker ctx dialog owner site "time_picker_dialog"
    else if owner = Platform.ClassName.datePickerDialog then
      installPicker ctx dialog owner site "date_picker_dialog"

theorem installAlert_of_layout {layout : ResId}
    (hlayout : ctx.resources.sysLayout? "alert_dialog" = some layout) :
    installAlert ctx dialog site = (do
      if ← act (placing dialog (placeAlert dialog layout site)) then pure ()
      else installMore ctx dialog site) := by
  -- the actions on the graph are one
  have hfuse : ∀ (first second : FlowGraph → NodeId × FlowGraph)
      (third : NodeId → FlowGraph → FlowGraph)
      (fourth : NodeId → NodeId → FlowGraph → NodeId × FlowGraph) (next : Wiring Unit),
      (onGraph first >>= fun id => onGraph second >>= fun made =>
        modifyGraph (third made) >>= fun _ => onGraph (fourth id made) >>= fun _ => next) =
      (modifyGraph (fun g => (fourth (first g).1 (second (first g).2).1
        (third (second (first g).2).1 (second (first g).2).2)).2) >>= fun _ => next) :=
    fun _ _ _ _ _ => rfl
  rw [← act_placing]
  unfold installAlert Analysis.idNode Analysis.makeVar connect Analysis.addOp
  simp only [hlayout]
  rw [hfuse]
  rfl

theorem installAlert_of_none (hlayout : ctx.resources.sysLayout? "alert_dialog" = none) :
    installAlert ctx dialog site = (do
      if ← act (placing dialog id) then pure ()
      else gap "Platform resources lack layout alert_dialog") := by
  rw [← act_placing]
  unfold installAlert
  simp only [hlayout]
  rfl

/-! ## The operations on a custom view -/

section Views

variable {old new : FlowGraph} {var op parameter : NodeId} {id : ResId} {m : MethodId}

/-- An operation looks up the views of a dialog with an identifier, and puts them into a variable
that is made for views of a class. -/
def Seeks (g : FlowGraph) (dialog : NodeId) (id : ResId) (viewClass : String)
    (var op : NodeId) : Prop :=
  g.HasMade viewClass var ∧ ∃ found receiver n, g.op? op = some found ∧
    found.kind = .findInWindow ∧ (found.receiver = some receiver ∧ g.hasEdge dialog receiver) ∧
      (found.parameter = some n ∧ g.find? (.id .widget id) = some n) ∧
        found.result = some var

def WorksOnFrame (g : FlowGraph) (dialog : NodeId) (id : ResId) (kind : OpKind)
    (parameter : NodeId) : Prop :=
  ∃ frame lookup op found, Seeks g dialog id ClassName.frameLayout frame lookup ∧
    g.op? op = some found ∧ found.kind = kind ∧ found.receiver = some frame ∧
      found.parameter = some parameter

/-- What becomes of a call that sets the view of a dialog. -/
structure SetsView (ctx : Context) (call : CallExpr) (m : MethodId) (dialog : NodeId)
    (id : ResId) (g : FlowGraph) : Prop where
  of_var : ∀ name, call.arg? 0 = some (.var name) →
    ∃ var, g.find? (.var (.named m name)) = some var ∧
      WorksOnFrame g dialog id .addChild var
  of_int : ∀ v kind, call.arg? 0 = some (.int v) →
    ctx.resources.idKind? v = some kind →
      ∃ layout, g.find? (.id kind v) = some layout ∧
        WorksOnFrame g dialog id .inflateContent layout

theorem Seeks.mono {viewClass : String} (hg : Extends old new)
    (h : Seeks old dialog id viewClass var op) : Seeks new dialog id viewClass var op := by
  obtain ⟨hmade, found, receiver, n, hop, hkind, hreceiver, hnode, hresult⟩ := h
  exact ⟨hmade.mono hg, found, receiver, n, hg.op?_some hop, hkind,
    ⟨hreceiver.1, hg.hasEdge hreceiver.2⟩, ⟨hnode.1, hg.find?_eq hnode.2⟩, hresult⟩

theorem WorksOnFrame.mono {kind : OpKind} (hg : Extends old new)
    (h : WorksOnFrame old dialog id kind parameter) :
    WorksOnFrame new dialog id kind parameter := by
  obtain ⟨frame, lookup, op, found, hseeks, hop, hslots⟩ := h
  exact ⟨frame, lookup, op, found, hseeks.mono hg, hg.op?_some hop, hslots⟩

theorem SetsView.mono (hg : Extends old new) (h : SetsView ctx call m dialog id old) :
    SetsView ctx call m dialog id new := by
  refine ⟨fun name hname => ?_, fun v kind hvalue hkind => ?_⟩
  · obtain ⟨var, hvar, hworks⟩ := h.of_var name hname
    exact ⟨var, hg.find?_eq hvar, hworks.mono hg⟩
  · obtain ⟨layout, hlayout, hworks⟩ := h.of_int v kind hvalue hkind
    exact ⟨layout, hg.find?_eq hlayout, hworks.mono hg⟩

/-- The view of a dialog is set, if the statement is a call that sets it. -/
def Viewed (ctx : Context) (dialog : NodeId) (g : FlowGraph) (site : StmtId) : Prop :=
  ∀ call id, ctx.call? site = some call → call.name = "setView" →
    ctx.resources.sysId? "custom" = some id → SetsView ctx call site.method dialog id g

theorem Viewed.mono (hg : Extends old new) (h : Viewed ctx dialog old site) :
    Viewed ctx dialog new site :=
  fun call id hcall hname hid => (h call id hcall hname hid).mono hg

end Views

/-! ## Noting calls -/

variable [Walks ctx permit law]

include permit

theorem builds_noteOn {receiver : String} {role : Option CallRole} :
    Upholds law base (noteOn ctx here receiver role) := by
  unfold noteOn
  split
  · exact builds_varNode.andThen fun _ => builds_noteCall _ _ _
  · exact builds_varNode.andThen fun _ => .done _

theorem builds_noteDialogCall : Upholds law base (noteDialogCall ctx here) := by
  unfold noteDialogCall
  split
  case h_2 => exact .done _
  split
  case h_2 => exact .done _
  split
  case isTrue => exact .done _
  split
  · split
    · exact builds_noteOn.andThen fun _ => .done _
    · exact .done _
  split
  · exact .done _
  split
  · exact .done _
  · exact builds_noteOn.andThen fun _ => .done _

/-- A setter of a builder passes it on. -/
theorem builds_passBuilder {receiver : String} :
    Upholds law base (do
      let receiver ← ctx.varNode here.method receiver
      connect? receiver (← here.resultNode? ctx) (some here.site)
      pure true) := by
  refine builds_varNode.bind fun receiver g _ hreceiver => ?_
  refine builds_resultNode?.bind fun res g hg hresult => ?_
  have hreceiver := hreceiver.mono hg
  exact .andThen (builds_connect? _ hreceiver.hasValue hresult) fun _ => .done _

theorem builds_noteBuilderCall : Upholds law base (noteBuilderCall ctx here) := by
  unfold noteBuilderCall
  split
  case isTrue => exact .done _
  split
  case h_2 => exact .done _
  split
  case h_2 => exact .done _
  split
  case isTrue => exact .done _
  split
  case isTrue => exact .done _
  extract_lets role
  refine builds_noteOn.andThen fun _ => ?_
  split
  · exact builds_passBuilder
  · exact .done _

/-! ## Parts of a dialog -/

section Parts

include ctx

theorem builds_findPart {id : ResId} {viewClass : String}
    (hclass : viewClass ≠ ClassName.alertDialog) (hdialog : base.HasValue dialog) :
    Ensures law base (findPart dialog id viewClass site) fun g var =>
      ∃ op, Seeks g dialog id viewClass var op := by
  unfold findPart
  refine (locates_idNode _ _).bind fun n g hg hnode => ?_
  refine builds_windowVar site (hdialog.mono hg) fun receiver g hg' hreceiver hedge => ?_
  refine (builds_makeVar viewClass hclass).bind fun res g hg'' hresult => ?_
  have hnode := (hg'.trans hg'').find?_eq hnode
  have hreceiver := (hreceiver.mono hg'').hasValue
  refine (builds_addOp ⟨.some hreceiver, .some (.of_find? hnode), .some hresult.hasVar⟩ rfl rfl).bind
    fun op g hlast hop => .pure fun g hrest => ?_
  have hlast := hlast.trans hrest
  exact ⟨op, hresult.mono hlast, _, receiver, n, hrest.op?_some hop, rfl,
    ⟨rfl, (hg''.trans hlast).hasEdge hedge⟩, ⟨rfl, hlast.find?_eq hnode⟩, rfl⟩

/-- A frame for custom views is looked up and filled. -/
theorem builds_fill {win n layout : NodeId} (hwindow : base.HasValue win)
    (hnode : base.HasValue n) (hlayout : base.HasValue layout) :
    Ensures law base (do
      let frame ← makeVar ClassName.frameLayout
      let _ ← addOp (frameOp win n frame site)
      let _ ← addOp (contentOp frame layout site)
      pure () : Wiring Unit) fun g _ => ∃ frame lookup op,
        g.HasMade ClassName.frameLayout frame ∧
          g.op? lookup = some (frameOp win n frame site) ∧
          g.op? op = some (contentOp frame layout site) := by
  -- the actions on the graph are one
  have hfuse : ∀ (first : FlowGraph → NodeId × FlowGraph)
      (second third : NodeId → FlowGraph → NodeId × FlowGraph),
      (onGraph first >>= fun made => onGraph (second made) >>= fun _ =>
        onGraph (third made) >>= fun _ => pure () : Wiring Unit) =
      onGraph fun g =>
        ((), (third (first g).1 (second (first g).1 (first g).2).2).2) :=
    fun _ _ _ => rfl
  unfold Analysis.makeVar Analysis.addOp
  rw [hfuse]
  change Ensures law base (onGraph fun g => ((), g.fillFrame win n layout site)) _
  refine ensures_graphStep fun s hbase hs => ?_
  dsimp only
  exact ⟨.fill site (hwindow.mono hbase) (hnode.mono hbase) (hlayout.mono hbase) _,
    ops_fillFrame site hs.framed.numbered⟩

theorem builds_setCancelable : Upholds law base (setCancelable call dialog) := by
  unfold setCancelable
  split
  case h_2 => exact .done _
  split
  · exact ensures_modifyGraph fun _ _ => .cancelable dialog false _ _
  · exact .done _

end Parts

theorem builds_customFrame? (hdialog : base.HasValue dialog) :
    Ensures law base (customFrame? ctx dialog site) fun g res =>
      res = none ∧ ctx.resources.sysId? "custom" = none ∨ ∃ id frame op,
        ctx.resources.sysId? "custom" = some id ∧ res = some frame ∧
          Seeks g dialog id ClassName.frameLayout frame op := by
  unfold customFrame?
  split
  next id hid =>
    refine .map ((builds_findPart (by decide) hdialog).weaken ?_)
    rintro g frame _ ⟨op, hseeks⟩
    exact .inr ⟨id, frame, op, hid, rfl, hseeks⟩
  next hnone => exact (Ensures.gap _).andThen fun _ => .pure fun _ _ => .inl ⟨rfl, hnone⟩

theorem builds_addCustomView {view : NodeId} (hdialog : base.HasValue dialog)
    (hview : base.HasValue view) :
    Ensures law base (addCustomView ctx dialog view site) fun g _ => ∀ id,
      ctx.resources.sysId? "custom" = some id → WorksOnFrame g dialog id .addChild view := by
  unfold addCustomView
  refine (builds_customFrame? hdialog).bind ?_
  rintro _ g hg (⟨rfl, hnone⟩ | ⟨id, frame, lookup, hid, rfl, hseeks⟩)
  · exact .pure fun _ _ id hid => absurd (hnone.symm.trans hid) nofun
  · refine (builds_addOp ⟨.some hseeks.1.hasVar.hasValue, .some (hview.mono hg), by nofun⟩ rfl
      rfl).bind fun op g hg' hop => .pure fun g hrest other hother => ?_
    cases hid.symm.trans hother
    exact ⟨frame, lookup, op, _, hseeks.mono (hg'.trans hrest), hrest.op?_some hop, rfl, rfl,
      rfl⟩

theorem builds_inflateCustomView {layout : NodeId} (hdialog : base.HasValue dialog)
    (hlayout : base.HasValue layout) :
    Ensures law base (do
      let some frame ← customFrame? ctx dialog site | return
      let _ ← addOp (contentOp frame layout site)) fun g _ => ∀ id,
        ctx.resources.sysId? "custom" = some id →
          WorksOnFrame g dialog id .inflateContent layout := by
  unfold customFrame?
  split
  next id hid =>
    simp only [bind_map_left, findPart, bind_assoc]
    refine (locates_idNode _ _).bind fun n g hg hnode => ?_
    refine builds_windowVar site (hdialog.mono hg) fun win g hg' hwindow hedge => ?_
    have hnode := hg'.find?_eq hnode
    refine (builds_fill hwindow.hasValue (.of_find? hnode)
      (hlayout.mono (hg.trans hg'))).weaken ?_
    rintro g _ hlast ⟨frame, lookup, op, hframe, hlookup, hop⟩ other hother
    cases hid.symm.trans hother
    exact ⟨frame, lookup, op, _, ⟨hframe, _, win, n, hlookup, rfl,
      ⟨rfl, hlast.hasEdge hedge⟩, ⟨rfl, hlast.find?_eq hnode⟩, rfl⟩, hop, rfl, rfl, rfl⟩
  next hnone =>
    simp only [bind_assoc, pure_bind]
    exact (Ensures.gap _).andThen fun _ => .pure fun _ _ id hid => absurd (hnone.symm.trans hid) nofun

theorem builds_setCustomView (hdialog : base.HasValue dialog) :
    Ensures law base (setCustomView ctx call dialog site) fun g _ => ∀ id,
      ctx.resources.sysId? "custom" = some id →
        SetsView ctx call site.method dialog id g := by
  unfold setCustomView
  split
  next harg => exact .pure fun _ _ _ _ => ⟨by simp [harg], by simp [harg]⟩
  next harg => exact .pure fun _ _ _ _ => ⟨by simp [harg], by simp [harg]⟩
  next name harg =>
    refine locates_varNode.bind fun view g hg hview => ?_
    refine (builds_addCustomView (hdialog.mono hg) (.of_find? hview)).weaken
      fun g _ hg' hworks id hid => ⟨fun other hother => ?_, by simp [harg]⟩
    cases harg.symm.trans hother
    exact ⟨view, hg'.find?_eq hview, hworks id hid⟩
  next v harg =>
    refine locates_resourceNode?.bind fun layout g hg hlayout => ?_
    rcases hlayout.eq_or_exists with ⟨hkey, rfl⟩ | ⟨_, layout, hkey, rfl, hfind⟩
    · refine (Ensures.gap _).weaken fun _ _ _ _ _ _ => ⟨by simp [harg], fun other kind hother => ?_⟩
      cases harg.symm.trans hother
      simp [Option.map_eq_none_iff.mp hkey]
    · obtain ⟨kind, hkind, rfl⟩ := Option.map_eq_some_iff.mp hkey
      refine (builds_inflateCustomView (hdialog.mono hg) (.of_find? hfind)).weaken
        fun g _ hg' hworks id hid => ⟨by simp [harg], fun other kind' hother hkind' => ?_⟩
      cases harg.symm.trans hother
      cases hkind.symm.trans hkind'
      exact ⟨layout, hg'.find?_eq hfind, hworks id hid⟩
  next _ _ hvar hint harg =>
    refine (Ensures.violation _).weaken fun _ _ _ _ _ _ => ⟨fun name hname => ?_,
      fun v _ hvalue => ?_⟩
    · exact absurd (Option.some.inj (harg.symm.trans hname)) (hvar name)
    · exact absurd (Option.some.inj (harg.symm.trans hvalue)) (hint v)

theorem builds_wireButton {buttonId : ResId} {o : NodeId} {dst : Target}
    (hdialog : base.HasValue dialog) (hobject : base.HasValue o) :
    Upholds law base (wireButton ctx dialog buttonId site o dst) := by
  unfold wireButton
  refine (builds_findPart (by decide) hdialog).bind ?_
  rintro button g hg ⟨_, hbutton, _⟩
  refine (builds_addSynthetic _).bind fun pair g' hg' hglue => ?_
  split
  rename_i glue index
  have hdialog := hdialog.mono (hg.trans hg')
  have hobject := hobject.mono (hg.trans hg')
  extract_lets proceed
  -- the button listens in both cases, also where the target is not a method of the program
  have hproceed : Upholds law g' (proceed ()) := by
    refine (builds_makeHolder (by decide)).bind fun lis g hg'' hlistener => ?_
    have hbutton := (hbutton.mono (hg'.trans hg'')).hasVar.hasValue
    refine .andThen (builds_connect _ (HasValue.mono hg'' hglue) hlistener.hasGoal) fun _ => ?_
    exact builds_install ⟨.some hbutton, .some hlistener.hasValue, nofun⟩ rfl builds_modifyFacts
  split
  · refine builds_thisNode?.bind fun this g hg hthis => ?_
    refine .andThen (builds_connect? _ (hobject.mono hg) hthis) fun _ => ?_
    refine builds_paramNode?.bind fun param g hg' hparam => ?_
    have hdialog := hdialog.mono (hg.trans hg')
    refine .andThen (builds_connect? _ hdialog hparam) fun _ => ?_
    exact hproceed.mono (hg.trans hg')
  · exact hproceed

theorem builds_setButton {lis : NodeId} {button : DialogButton}
    (hdialog : base.HasValue dialog) :
    Upholds law base (setButton ctx lis dialog button site) := by
  unfold setButton
  refine Ensures.getGraph.andThen fun g => ?_
  refine builds_objectsOf.bind fun objects g' hg hobjects => ?_
  extract_lets targets
  split
  case isTrue => exact .done _
  split
  · exact .gap _
  refine .forM ?_
  rintro ⟨o, dst⟩ htarget
  obtain ⟨found, hfound, htarget⟩ := List.mem_filterMap.mp htarget
  have hsame : found = o := by
    simp only [Option.bind_eq_bind, Option.bind_eq_some_iff, Option.pure_def, Option.some.injEq,
      Prod.mk.injEq] at htarget
    obtain ⟨_, _, _, _, hsame, _⟩ := htarget
    exact hsame
  have hobject := (hobjects found hfound).hasValue
  exact builds_wireButton (hdialog.mono hg) (hsame ▸ hobject)

/-! ## Setters -/

theorem builds_wireDialogHandler {o : NodeId} {handler : MethodId}
    (hobject : base.HasValue o) (hdialog : base.HasValue dialog) :
    Upholds law base (wireDialogHandler ctx o dialog handler) := by
  unfold wireDialogHandler
  refine builds_thisNode?.bind fun this g hg hthis => ?_
  refine .andThen (builds_connect? _ (hobject.mono hg) hthis) fun _ => ?_
  refine builds_paramNode?.bind fun param g hg' hparam => ?_
  have hdialog := hdialog.mono (hg.trans hg')
  exact .andThen (builds_connect? _ hdialog hparam) fun _ => builds_modifyFacts

theorem builds_setDialogListener {subsig : String} (hdialog : base.HasValue dialog) :
    Upholds law base (setDialogListener ctx call dialog site subsig) := by
  unfold setDialogListener
  split
  case h_2 => exact .done _
  refine builds_varNode.bind fun lis g hg _ => ?_
  refine builds_objectsOf.bind fun objects g hg' hobjects => .forM fun o hobject => ?_
  have hdialog := hdialog.mono (hg.trans hg')
  refine Ensures.getGraph.andThen fun _ => ?_
  split
  case h_2 => exact .done _
  split
  · exact builds_wireDialogHandler (hobjects o hobject).hasValue hdialog
  · exact .done _

theorem builds_setDialogButton (hdialog : base.HasValue dialog) :
    Upholds law base (setDialogButton ctx call dialog site) := by
  unfold setDialogButton
  split
  · exact .gap _
  split
  · exact .gap _
  split
  · exact builds_varNode.bind fun _ _ hg _ => builds_setButton (hdialog.mono hg)
  · exact .done _
  · exact .gap _

theorem builds_wireDialogSetter (hdialog : base.HasValue dialog) :
    Ensures law base (wireDialogSetter ctx dialog site) fun g _ =>
      Viewed ctx dialog g site := by
  have hevent : dialogEventSetters.lookup "setView" = none := by decide
  have hignored : ignoredDialogSetters.contains "setView" = false := by decide
  have hbutton : "setButton".isPrefixOf "setView" = false := by decide
  unfold wireDialogSetter Viewed
  cases hcall : ctx.call? site with
  | none => exact .pure fun _ _ => nofun
  | some call =>
    dsimp only
    by_cases hname : call.name = "setView"
    · simp only [hname, hevent, hignored, hbutton, Bool.false_eq_true, if_false, if_true]
      exact (builds_setCustomView hdialog).weaken fun _ _ _ hsets _ id hother _ hid =>
        Option.some.inj hother ▸ hsets id hid
    · refine Ensures.weaken (?_ : Upholds law base _) fun _ _ _ _ _ id hother hsets =>
        absurd hsets (Option.some.inj hother ▸ hname)
      split
      · exact builds_setDialogListener hdialog
      split
      · exact .done _
      split
      · exact builds_setDialogButton hdialog
      split
      · exact builds_setCancelable
      · exact .gap _

theorem builds_wireBuilderSetter (hdialog : base.HasValue dialog) :
    Ensures law base (wireBuilderSetter ctx dialog site) fun g _ =>
      Viewed ctx dialog g site := by
  have hignored : ignoredBuilderSetters.contains "setView" = false := by decide
  unfold wireBuilderSetter Viewed
  cases hcall : ctx.call? site with
  | none => exact .pure fun _ _ => nofun
  | some call =>
    dsimp only
    by_cases hname : call.name = "setView"
    · simp only [hname, hignored, Bool.false_eq_true, if_false, if_true]
      exact (builds_setCustomView hdialog).weaken fun _ _ _ hsets _ id hother _ hid =>
        Option.some.inj hother ▸ hsets id hid
    · refine Ensures.weaken (?_ : Upholds law base _) fun _ _ _ _ _ id hother hsets =>
        absurd hsets (Option.some.inj hother ▸ hname)
      split
      · exact .done _
      split
      · exact builds_setDialogListener hdialog
      · split
        · exact builds_varNode.bind fun _ _ hg _ => builds_setButton (hdialog.mono hg)
        · exact .done _
      · split
        · exact builds_setCancelable
        · exact .gap _

/-! ## Content -/

theorem builds_installPicker {owner layoutName : String} (howner : owner ∉ NodeKind.reservedClasses)
    (hdialog : base.HasValue dialog) :
    Upholds law base (installPicker ctx dialog owner site layoutName) := by
  unfold installPicker
  refine (builds_makeHolder howner).bind fun lis g hg hlistener => ?_
  have hdialog := hdialog.mono hg
  refine .andThen (builds_connect _ hdialog hlistener.hasGoal) fun _ => ?_
  refine (builds_setButton hdialog).andThen fun _ => ?_
  split
  case h_2 => exact .gap _
  refine (builds_idNode _ _).bind fun layout g hg hlayout => ?_
  refine (builds_makeHolder (by decide)).bind fun view g hg' hview => ?_
  have hlayout := hlayout.mono hg'
  refine .andThen (builds_addOp ⟨nofun, .some hlayout, .some hview.hasVar⟩ rfl rfl) fun _ => ?_
  exact (builds_addCustomView (hdialog.mono (hg.trans hg')) hview.hasValue).upholds

theorem builds_installMore (hdialog : base.HasValue dialog) :
    Upholds law base (installMore ctx dialog site) := by
  unfold installMore
  refine Ensures.getGraph.andThen fun _ => ?_
  split
  case h_2 => exact .done _
  split
  next howner => exact builds_installPicker (howner ▸ by decide) hdialog
  split
  next howner => exact builds_installPicker (howner ▸ by decide) hdialog
  · exact .done _

include ctx in
theorem builds_placing {change : FlowGraph → FlowGraph}
    (h : ∀ (g : FlowGraph) (ns : Notes), Extends base g →
      ns.alerts.contains dialog = false → Step ctx permit (g, ns)
        (change g, { ns with alerts := ns.alerts.insert dialog })) :
    Upholds law base (act (placing dialog change)) := by
  refine .act _ fun s hbase hs => ?_
  have hframed : s.Framed := Walks.framed hs
  unfold placing
  split
  next => exact ⟨.refl _, hs, trivial⟩
  next hnew =>
    have hstep := h s.graph s.notes hbase (Bool.eq_false_iff.mpr hnew)
    exact ⟨(hstep.framed hframed).1, Walks.step hs hstep, trivial⟩

theorem builds_installAlert (hpermit : permit.shows) (hdialog : base.HasValue dialog) :
    Upholds law base (installAlert ctx dialog site) := by
  cases hlayout : ctx.resources.sysLayout? "alert_dialog" with
  | none =>
    rw [installAlert_of_none hlayout]
    refine (builds_placing fun g ns _ _ =>
      .bare hpermit dialog hlayout g ns).andThen fun done => ?_
    split
    · exact .done _
    · exact .gap _
  | some layout =>
    rw [installAlert_of_layout hlayout]
    refine (builds_placing fun g ns hg hnew =>
      .alert hpermit site hlayout (hdialog.mono hg) hnew).andThen fun done => ?_
    split
    · exact .done _
    · exact builds_installMore hdialog

theorem builds_installShown (hpermit : permit.shows) {sites : List StmtId}
    (hdialog : base.HasValue dialog) : Upholds law base (installShown ctx dialog sites) := by
  unfold installShown
  refine Ensures.getGraph.andThen fun _ => ?_
  split
  · exact .forM fun site _ => builds_installAlert hpermit hdialog
  · exact .done _

/-! ## Noted calls -/

omit permit [Walks ctx permit law] in
theorem hasObject_of_isDialogNode {g : FlowGraph} (h : isDialogNode (g.kind dialog)) :
    g.HasObject dialog := by
  unfold isDialogNode at h
  split at h
  next hkind => rw [HasObject, hkind]; rfl
  next => exact absurd h Bool.false_ne_true

omit permit [Walks ctx permit law] in
theorem mem_dialogs_iff {g : FlowGraph} :
    dialog ∈ g.dialogs ↔ isDialogNode (g.kind dialog) := by
  rw [mem_dialogs]
  cases g.kind dialog <;> simp [isDialogNode]

omit permit [Walks ctx permit law] in
theorem isDialogNode_core (kind : NodeKind) : isDialogNode kind.core = isDialogNode kind := by
  cases kind <;> rfl

omit permit [Walks ctx permit law] in
theorem isAlert_core (kind : NodeKind) : isAlert ctx kind.core = isAlert ctx kind := by
  rw [isAlert, isAlert, NodeKind.owner?_core]

/-- The dialogs that are built and shown are nodes of the graph. -/
def Built.Fits (g : FlowGraph) (built : Built) : Prop := ValueKeys g built.shows

/-- The dialog of a statement gets the setters of its builder. -/
theorem builds_buildDialog (hpermit : permit.builds) {setters : List StmtId}
    (hbuilt : built.Fits base) :
    Ensures law base (buildDialog ctx setters built site) fun g built' => built'.Fits g ∧
      (∀ dialog setter, built.setters.holds dialog setter → built'.setters.holds dialog setter) ∧
        ∃ dialog, g.find? (.dialog site) = some dialog ∧
          ∀ setter ∈ setters, built'.setters.holds dialog setter := by
  unfold buildDialog
  refine (locates_dialogAt (.built hpermit rfl)).bind fun dialog g hg hdialog => ?_
  refine builds_definedNode?.bind fun defined g hg' hdefined => ?_
  have hdialog := hg'.find?_eq hdialog
  refine .andThen (builds_connect? _ (.of_find? hdialog) hdefined) fun _ => ?_
  refine .pure fun g hg'' => ⟨?_, fun other setter hholds => ?_, dialog,
    hg''.find?_eq hdialog, fun setter hsetter => ?_⟩
  · have hshows := hbuilt.mono (hg.trans (hg'.trans hg''))
    intro key v hholds
    dsimp only at hholds
    split at hholds
    · exact hshows.addAll (.of_find? (hg''.find?_eq hdialog)) [site] key v hholds
    · exact hshows key v hholds
  · exact Relation.holds_add_all.mpr (.inr hholds)
  · exact Relation.holds_add_all.mpr (.inl ⟨rfl, hsetter⟩)

theorem builds_buildDialogs (hpermit : permit.builds) :
    Ensures law base (buildDialogs ctx) Built.Fits := by
  unfold buildDialogs
  refine builds_callsOn.andThen fun setters => builds_callsOn.andThen fun creates => ?_
  refine .foldlM (fun _ _ key v hholds => by simp at hholds) ?_
  rintro built g _ hbuilt ⟨builder, site⟩ _
  exact (builds_buildDialog hpermit hbuilt).weaken fun _ _ _ h => h.1

theorem builds_wireShows (hpermit : permit.shows) (hbuilt : built.Fits base) :
    Upholds law base (wireShows ctx built) := by
  unfold wireShows
  refine builds_callsOn.bind fun calls g hg hcalls => ?_
  extract_lets shows
  have hshows : ValueKeys g shows := by
    intro key v hholds
    rcases Relation.holds_union.mp hholds with hholds | hholds
    · exact (hbuilt key v hholds).mono hg
    · exact hcalls key v hholds
  refine builds_callsOn.andThen fun dismisses => .andThen builds_modifyFacts fun _ => ?_
  refine .andThen (.forM ?_) fun _ => builds_modifyShows hpermit fun _ => rfl
  rintro ⟨dialog, sites⟩ hrow
  obtain ⟨site, hsite⟩ := Relation.exists_of_mem_rows hrow
  exact builds_installShown hpermit (hshows dialog site hsite)

/-- A setter of a dialog is wired when its turn comes, and so is one of its builder. -/
theorem builds_wireSetters {setters : Relation NodeId StmtId} (hdialog : base.HasValue dialog) :
    Ensures law base (wireSetters ctx setters built dialog) fun g _ => ∀ site,
      setters.holds dialog site ∨ built.setters.holds dialog site ∧ isAlert ctx (base.kind dialog) →
        Viewed ctx dialog g site := by
  unfold wireSetters
  refine .bind (.forM_each (Viewed ctx dialog) Viewed.mono fun site _ => builds_wireDialogSetter hdialog)
    fun _ g hg hdirect => ?_
  refine Ensures.getGraph.bind ?_
  rintro g _ hg' ⟨rfl, _⟩
  have hg := hg.trans hg'
  have hkept := hg.keeps (isAlert ctx) isAlert_core hdialog.1
  split
  next =>
    refine .weaken (.forM_each (Viewed ctx dialog) Viewed.mono fun site _ =>
      builds_wireBuilderSetter (hdialog.mono hg)) fun g _ hmore hbuilt site hset => ?_
    rcases hset with hset | ⟨hset, _⟩
    · exact (hdirect site (Relation.mem_image.mpr hset)).mono (hg'.trans hmore)
    · exact hbuilt site (Relation.mem_image.mpr hset)
  next hother =>
    refine .pure fun g hmore site hset => ?_
    rcases hset with hset | ⟨_, halert⟩
    · exact (hdirect site (Relation.mem_image.mpr hset)).mono (hg'.trans hmore)
    · exact absurd (hkept.trans halert) hother

/-- The noted calls on dialogs, with the setters that have been found. -/
theorem builds_wireNotedSetters (hpermit : permit.shows) (setters : Relation NodeId StmtId)
    (hbuilt : built.Fits base) :
    Ensures law base (do
      wireShows ctx built
      (← getGraph).dialogs.forM (wireSetters ctx setters built)) fun g _ => ∀ dialog site,
        isDialogNode (base.kind dialog) → (setters.holds dialog site ∨
          built.setters.holds dialog site ∧ isAlert ctx (base.kind dialog)) →
            Viewed ctx dialog g site := by
  refine (builds_wireShows hpermit hbuilt).bind fun _ shown hg _ => Ensures.getGraph.bind ?_
  rintro g _ hg' ⟨rfl, _⟩
  have hg := hg.trans hg'
  let made (g' : FlowGraph) (dialog : NodeId) : Prop := ∀ site, setters.holds dialog site ∨
    built.setters.holds dialog site ∧ isAlert ctx (g.kind dialog) →
      Viewed ctx dialog g' site
  have hall : Ensures law g (g.dialogs.forM (wireSetters ctx setters built))
      fun g' _ => ∀ dialog ∈ g.dialogs, made g' dialog :=
    .forM_each made (fun hg h site hset => (h site hset).mono hg) fun dialog hdialog =>
      builds_wireSetters (hasObject_of_isDialogNode (mem_dialogs_iff.mp hdialog)).hasValue
  refine hall.weaken fun _ _ _ hviewed dialog site hdialog hset => ?_
  have hsize := (hasObject_of_isDialogNode hdialog).hasValue.1
  rw [← hg.keeps isDialogNode isDialogNode_core hsize] at hdialog
  rw [← hg.keeps (isAlert ctx) isAlert_core hsize] at hset
  exact hviewed dialog (mem_dialogs_iff.mpr hdialog) site hset

theorem builds_wireDialogCalls (hpermit : permit.shows) (hbuilt : built.Fits base) :
    Upholds law base (wireDialogCalls ctx built) :=
  builds_callsOn.bind fun _ _ hg _ =>
    (builds_wireNotedSetters hpermit _ (hbuilt.mono hg)).upholds

theorem builds_createdDialogs {owner : String} :
    Ensures law base (createdDialogs ctx owner) fun g found =>
      ∀ dialog ∈ found, g.HasValue dialog := by
  unfold createdDialogs
  refine Ensures.bind (.flatMapM HasValue HasValue.mono fun m _ => ?_)
    fun found g _ hfound => .pure fun g' hg dialog hdialog => ?_
  · refine .flatMapM HasValue HasValue.mono fun name _ => builds_varNode.andThen fun var => ?_
    refine Ensures.getGraph.bind ?_
    rintro g _ _ ⟨rfl, _⟩
    refine .pure fun g' hg dialog hdialog => ?_
    exact (hasObject_of_isDialogNode (List.mem_filter.mp hdialog).2).hasValue.mono hg
  · rw [Std.TreeSet.mem_toList, Std.TreeSet.mem_ofList] at hdialog
    exact (hfound dialog (by simpa using hdialog)).mono hg

theorem builds_recordActivityCalls {shown : Bool} (hpermit : shown → permit.shows)
    {sites : List StmtId} (hdialog : base.HasValue dialog) :
    Upholds law base (recordActivityCalls ctx shown sites dialog) := by
  unfold recordActivityCalls
  split
  next hshown =>
    exact .andThen (builds_modifyShows (hpermit hshown) fun _ => rfl) fun _ =>
      builds_installShown (hpermit hshown) hdialog
  next => exact builds_modifyFacts

theorem builds_wireActivityDialogs {role : CallRole}
    (hpermit : role = .activityShow → permit.shows) :
    Upholds law base (wireActivityDialogs ctx role) := by
  unfold wireActivityDialogs
  refine Ensures.getNotes.andThen fun ns => .forM ?_
  rintro ⟨receiver, sites⟩ _
  refine .andThen (Ensures.getGraph.andThen fun _ => .done _) fun owners => ?_
  refine .andThen (.flatMapM (fun _ _ => True) (fun _ _ => trivial) fun owner _ => ?_)
    fun dialogs => ?_
  · refine builds_createdDialogs.bind fun dialogs g _ hdialogs => ?_
    refine .andThen (.forM fun dialog hdialog => ?_) fun _ => .pure fun _ _ _ _ => trivial
    exact builds_recordActivityCalls (fun h => hpermit (of_decide_eq_true h))
      (hdialogs dialog hdialog)
  · refine .forM_option fun site _ => ?_
    split
    · exact .gap _
    split
    · exact .gap _
    · exact .done _

theorem builds_wireDialogs (hshows : permit.shows) (hbuilds : permit.builds) :
    Upholds law base (wireDialogs ctx) := by
  unfold wireDialogs
  refine (builds_buildDialogs hbuilds).bind fun built g _ hbuilt => ?_
  refine (builds_wireDialogCalls hshows hbuilt).andThen fun _ => ?_
  refine (builds_wireActivityDialogs fun _ => hshows).andThen fun _ => ?_
  exact builds_wireActivityDialogs fun _ => hshows

end WidgetFlow.Wiring
