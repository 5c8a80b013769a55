import WidgetFlow.Wiring.Activities

/-!
# Dialogs

A dialog is created by itself, by a builder or by an activity that is asked to show it. When an
alert dialog is shown, the platform installs its layout, into which the buttons, the custom view
and the listeners that were set before are wired.
-/

namespace WidgetFlow.Wiring

open Analysis Platform ClassName Method

/-! ## Noting calls -/

/-- Whether a method is named as a setter. -/
def isSetter (name : String) : Bool :=
  match name.toList with
  | 's' :: 'e' :: 't' :: _ :: _ => true
  | _ => false

def activityDialogRole? (subsig : String) : Option CallRole :=
  if subsig = showDialog || subsig = showDialogBundle then some .activityShow
  else if subsig = dismissDialog || subsig = removeDialog then some .activityDismiss
  else none

def dialogRole? (name : String) : Option CallRole :=
  if isSetter name then some .dialogSetter
  else if name = "show" then some .dialogShow
  else if name = "dismiss" || name = "cancel" then some .dialogDismiss
  else none

def builderRole? (name : String) : Option CallRole :=
  if isSetter name then some .builderSetter
  else if name = "create" || name = "show" then some .builderCreate
  else none

/-- Whether dialogs of a class are left alone: those of the platform that derive from alert dialogs
in ways of their own. -/
def isForeignAlert (hierarchy : Hierarchy) (owner : String) : Bool :=
  hierarchy.isSubclassOf owner alertDialog && owner ≠ alertDialog &&
    owner ≠ timePickerDialog && !hierarchy.isApplication owner

/-- Notes a call with a role for the local that is its receiver. -/
def noteOn (ctx : Context) (here : CallSite) (base : String) : Option CallRole → Wiring Unit
  | some role => do noteCall role (← ctx.varNode here.method base) here.site
  | none => do let _ ← ctx.varNode here.method base

/-- Notes a call on a dialog or about the dialogs of an activity, and says whether it is one. -/
def noteDialogCall (ctx : Context) (here : CallSite) : Wiring Bool := do
  let some base := here.call.base | return false
  let some owner := here.receiverClass? ctx | return false
  if !here.call.isInstance then
    return false
  if ctx.hierarchy.isApplication owner && ctx.hierarchy.isActivity owner then
    let some role := activityDialogRole? here.subsig | return false
    noteOn ctx here base (some role)
    return true
  if ctx.hierarchy.isApplication here.call.method.owner || !ctx.hierarchy.isDialog owner then
    return false
  if isForeignAlert ctx.hierarchy owner then
    return true
  noteOn ctx here base (dialogRole? here.call.name)
  return true

/-- Notes a call on a builder of dialogs, and says whether it is one. A setter gives the builder
back. -/
def noteBuilderCall (ctx : Context) (here : CallSite) : Wiring Bool := do
  if !here.call.isInstance then
    return false
  let some base := here.call.base | return false
  let some owner := here.receiverClass? ctx | return false
  if !ctx.hierarchy.isSubclassOf owner alertDialogBuilder then
    return false
  if owner ≠ alertDialogBuilder then
    return true
  let role := builderRole? here.call.name
  noteOn ctx here base role
  if role = some .builderSetter then
    let receiver ← ctx.varNode here.method base
    connect? receiver (← here.resultNode? ctx) (some here.site)
  return true

/-! ## Parts of a dialog -/

/-- Looks up a part of a dialog by an identifier of the platform: gives the variable that holds
it. -/
def findPart (dialog : NodeId) (id : ResId) (viewClass : String) (site : StmtId) :
    Wiring NodeId := do
  let id ← idNode .widget id
  let receiver ← makeVar alertDialog
  connect dialog receiver (some site)
  let result ← makeVar viewClass
  let _ ← addOp
    { kind := .findInWindow, parameter := id, receiver, result, site, artificial := true
      idiom := some .alertDialog }
  pure result

def customFrame? (ctx : Context) (dialog : NodeId) (site : StmtId) : Wiring (Option NodeId) := do
  match ctx.resources.sysId? "custom" with
  | some id => some <$> findPart dialog id frameLayout site
  | none =>
    gap "Platform resources lack id custom"
    pure none

def addCustomView (ctx : Context) (dialog view : NodeId) (site : StmtId) : Wiring Unit := do
  let some frame ← customFrame? ctx dialog site | return
  let _ ← addOp
    { kind := .addChild, receiver := frame, parameter := view, site, artificial := true
      idiom := some .alertDialog }

def setCustomView (ctx : Context) (call : CallExpr) (dialog : NodeId) (site : StmtId) :
    Wiring Unit := do
  match call.arg? 0 with
  | none => pure ()
  | some .null => pure ()
  | some (.var view) => addCustomView ctx dialog (← ctx.varNode site.method view) site
  | some (.int value) =>
    match ← resourceNode? ctx value with
    | none => gap ("Unknown layout for " ++ ctx.placeText site)
    | some layout =>
      let some frame ← customFrame? ctx dialog site | return
      let _ ← addOp
        { kind := .inflateContent, receiver := frame, parameter := layout, site
          artificial := true, idiom := some .alertDialog }
  | some _ => violation ("Unexpected argument for " ++ ctx.placeText site)

/-- A button of an alert dialog. -/
inductive DialogButton where
  | positive
  | negative
  | neutral
  deriving DecidableEq, Repr, Inhabited

/-- The name of the platform's identifier of a button. -/
def DialogButton.idName : DialogButton → String
  | .positive => "button1"
  | .negative => "button2"
  | .neutral => "button3"

/-- The button that a constant of the platform stands for. -/
def DialogButton.ofCode? (code : ResId) : Option DialogButton :=
  if code = -1 then some .positive
  else if code = -2 then some .negative
  else if code = -3 then some .neutral
  else none

/-- Lets one object listen to clicks on a button of a dialog, which also dismiss the dialog. -/
def wireButton (ctx : Context) (dialog : NodeId) (buttonId : ResId) (site : StmtId)
    (object : NodeId) (target : Target) : Wiring Unit := do
  let button ← findPart dialog buttonId button site
  let (glue, index) ← onGraph (FlowGraph.addSynthetic
    { interface := onClickListener, subsig := viewOnClick, target
      paramMap := [] })
  if let .app method := target then
    connect? object (← ctx.thisNode? method) (some site)
    connect? dialog (← ctx.paramNode? method 0) (some site)
  let listener ← makeVar onClickListener
  connect glue listener (some site)
  let op ← addOp
    { kind := .setListener .click false, receiver := button, parameter := listener, site
      artificial := true, idiom := some .alertDialog }
  modifyGraph (FlowGraph.markPrebound op)
  let _ ← onGraph (FlowGraph.bindHandler op (.synthetic index))
  modifyFacts fun facts => { facts with dialogDismisses := facts.dialogDismisses.add dialog site }

/-- Lets the objects that a node may be listen to clicks on a button of a dialog. -/
def setButton (ctx : Context) (listener dialog : NodeId) (button : DialogButton) (site : StmtId) :
    Wiring Unit := do
  let graph ← getGraph
  let targets := (← objectsOf listener).filterMap fun object => do
    let owner ← (graph.kind object).owner?
    let target ← ctx.hierarchy.dispatch? dialogOnClick owner
    pure (object, target)
  if targets.isEmpty then
    return
  match ctx.resources.sysId? button.idName with
  | none => gap ("Platform resources lack id " ++ button.idName)
  | some id => targets.forM fun (object, target) => wireButton ctx dialog id site object target

/-! ## Setters -/

/-- The setters of dialogs that do not change what is shown in a way that is followed. -/
def ignoredDialogSetters : List String :=
  ["setCancelMessage", "setCanceledOnTouchOutside", "setFeatureDrawable",
    "setFeatureDrawableAlpha", "setFeatureDrawableResource", "setFeatureDrawableUri",
    "setVolumeControlStream", "setDismissMessage", "setOwnerActivity", "setCustomTitle",
    "setMessage", "setTitle", "setIcon", "setIconAttribute", "setInverseBackgroundForced",
    "setProgressStyle", "setProgressDrawable", "setMax"]

/-- The setters of builders that do not change what is shown in a way that is followed. -/
def ignoredBuilderSetters : List String :=
  ["setIcon", "setIconAttribute", "setInverseBackgroundForced", "setCustomTitle", "setMessage",
    "setTitle", "setAdapter", "setCursor", "setItems", "setMultiChoiceItems",
    "setOnItemSelectedListener", "setSingleChoiceItems"]

/-- The setters of a dialog's own listeners, with the method that each listener runs. -/
def dialogEventSetters : List (String × String) :=
  [("setOnCancelListener", dialogOnCancel), ("setOnDismissListener", dialogOnDismiss),
    ("setOnKeyListener", dialogOnKey), ("setOnShowListener", dialogOnShow)]

/-- Lets an object listen to an event of a dialog. -/
def wireDialogHandler (ctx : Context) (object dialog : NodeId) (handler : MethodId) :
    Wiring Unit := do
  connect? object (← ctx.thisNode? handler) none
  connect? dialog (← ctx.paramNode? handler 0) none
  modifyFacts fun facts => { facts with dialogHandlers := facts.dialogHandlers.add dialog handler }

def setDialogListener (ctx : Context) (call : CallExpr) (dialog : NodeId) (site : StmtId)
    (subsig : String) : Wiring Unit := do
  let some (.var listener) := call.arg? 0 | return
  let listener ← ctx.varNode site.method listener
  (← objectsOf listener).forM fun object => do
    match (← getGraph).kind object with
    | .alloc ty _ _ =>
      match ty.className?.bind (ctx.hierarchy.dispatchToApp? subsig) with
      | some handler => wireDialogHandler ctx object dialog handler
      | none => pure ()
    | _ => pure ()

/-- Makes a dialog one that cannot be cancelled if the argument says so. -/
def setCancelable (call : CallExpr) (dialog : NodeId) : Wiring Unit := do
  if let some (.int value) := call.arg? 0 then
    if value = 0 then
      modifyGraph (FlowGraph.setCancelable dialog false)

def dialogButton (call : CallExpr) : Except String DialogButton :=
  if call.args.length = 3 then
    match call.arg? 0 with
    | some (.int code) =>
      match DialogButton.ofCode? code with
      | some button => .ok button
      | none => .error "Button specifier invalid for "
    | _ => .error "Non-constant button specifier for "
  else if call.name = "setButton2" then .ok .negative
  else if call.name = "setButton3" then .ok .neutral
  else .ok .positive

def setDialogButton (ctx : Context) (call : CallExpr) (dialog : NodeId) (site : StmtId) :
    Wiring Unit := do
  if call.method.params.any fun ty => ty.className? = some message then
    gap ("Posting message: " ++ ctx.placeText site)
  else
    match dialogButton call with
    | .error problem => gap (problem ++ ctx.placeText site)
    | .ok button =>
      match call.args.getLast? with
      | some (.var listener) =>
        setButton ctx (← ctx.varNode site.method listener) dialog button site
      | some .null => pure ()
      | _ => gap ("Unexpected listener argument for " ++ ctx.placeText site)

def wireDialogSetter (ctx : Context) (dialog : NodeId) (site : StmtId) : Wiring Unit := do
  let some call := ctx.call? site | return
  match dialogEventSetters.lookup call.name with
  | some subsig => setDialogListener ctx call dialog site subsig
  | none =>
    if ignoredDialogSetters.contains call.name then
      pure ()
    else if "setButton".isPrefixOf call.name then
      setDialogButton ctx call dialog site
    else if call.name = "setView" then
      setCustomView ctx call dialog site
    else if call.name = "setCancelable" then
      setCancelable call dialog
    else
      gap ("Unknown dialog setter " ++ ctx.placeText site)

def builderButton? (name : String) : Option DialogButton :=
  if name = "setPositiveButton" then some .positive
  else if name = "setNegativeButton" then some .negative
  else if name = "setNeutralButton" then some .neutral
  else none

def wireBuilderSetter (ctx : Context) (dialog : NodeId) (site : StmtId) : Wiring Unit := do
  let some call := ctx.call? site | return
  if ignoredBuilderSetters.contains call.name then
    return
  if call.name = "setView" then
    setCustomView ctx call dialog site
  else
    match dialogEventSetters.lookup call.name, builderButton? call.name with
    | some subsig, _ => setDialogListener ctx call dialog site subsig
    | none, some button =>
      if let some (.var listener) := call.arg? 1 then
        setButton ctx (← ctx.varNode site.method listener) dialog button site
    | none, none =>
      if call.name = "setCancelable" then
        setCancelable call dialog
      else
        gap ("Unknown builder setter " ++ ctx.placeText site)

/-! ## Content -/

/-- A picker is the listener of its own positive button, and shows a layout of the platform as its
custom view. -/
def installPicker (ctx : Context) (dialog : NodeId) (owner : String) (site : StmtId)
    (layoutName : String) : Wiring Unit := do
  let listener ← makeVar owner
  connect dialog listener (some site)
  setButton ctx listener dialog .positive site
  let some layout := ctx.resources.sysLayout? layoutName
    | gap ("Platform resources lack layout " ++ layoutName)
  let layout ← idNode .layout layout
  let view ← makeVar view
  let _ ← addOp
    { kind := .inflate, parameter := layout, result := view, site, artificial := true
      idiom := some .alertDialog }
  addCustomView ctx dialog view site

/-- Installs the content of an alert dialog that a call shows, unless it has been installed. -/
def installAlert (ctx : Context) (dialog : NodeId) (site : StmtId) : Wiring Unit := do
  if (← getNotes).alerts.contains dialog then
    return
  modifyNotes fun notes => { notes with alerts := notes.alerts.insert dialog }
  let some layout := ctx.resources.sysLayout? "alert_dialog"
    | gap "Platform resources lack layout alert_dialog"
  let layout ← idNode .layout layout
  let receiver ← makeVar alertDialog
  connect dialog receiver (some site)
  let _ ← addOp
    { kind := .inflateContent, parameter := layout, receiver, site, artificial := true
      idiom := some .alertDialog }
  if let some owner := ((← getGraph).kind dialog).owner? then
    if owner = timePickerDialog then
      installPicker ctx dialog owner site "time_picker_dialog"
    else if owner = datePickerDialog then
      installPicker ctx dialog owner site "date_picker_dialog"

def isAlert (ctx : Context) (kind : NodeKind) : Bool :=
  kind.owner?.any fun owner => ctx.hierarchy.isSubclassOf owner alertDialog

/-- Installs the content of a dialog at the calls that show it, if it is an alert dialog. -/
def installShown (ctx : Context) (dialog : NodeId) (sites : List StmtId) : Wiring Unit := do
  if isAlert ctx ((← getGraph).kind dialog) then
    sites.forM (installAlert ctx dialog)

/-! ## Noted calls -/

def isAlloc : NodeKind → Bool
  | .alloc _ _ _ => true
  | _ => false

def isDialogNode : NodeKind → Bool
  | .dialog _ _ _ => true
  | _ => false

/-- The dialogs that builders create: the setters that were called on their builders, and the calls
that also show them. -/
structure Built where
  setters : Relation NodeId StmtId := {}
  shows : Relation NodeId StmtId := {}

/-- The dialog that a call on a builder creates, with the setters that were called on the
builder. -/
def buildDialog (ctx : Context) (setters : List StmtId) (built : Built) (site : StmtId) :
    Wiring Built := do
  let dialog ← dialogAt ctx alertDialog site
  connect? dialog (← definedNode? ctx site) (some site)
  let shown := (ctx.call? site).any fun call => call.name = "show"
  pure
    { setters := built.setters.addAll dialog setters
      shows := if shown then built.shows.add dialog site else built.shows }

/-- The dialogs that the noted calls on builders create. -/
def buildDialogs (ctx : Context) : Wiring Built := do
  let setters ← callsOn ctx .builderSetter isAlloc
  let creates ← callsOn ctx .builderCreate isAlloc
  creates.pairs.foldlM (fun built (builder, site) =>
    buildDialog ctx (setters.image builder) built site) {}

/-- Wires the noted calls that show and dismiss dialogs. -/
def wireShows (ctx : Context) (built : Built) : Wiring Unit := do
  let shows := built.shows.union (← callsOn ctx .dialogShow isDialogNode)
  let dismisses ← callsOn ctx .dialogDismiss isDialogNode
  modifyFacts fun facts => { facts with dialogDismisses := facts.dialogDismisses.union dismisses }
  shows.rows.forM fun (dialog, sites) => installShown ctx dialog sites
  modifyFacts fun facts => { facts with dialogShows := facts.dialogShows.union shows }

/-- Wires the setters that were called on a dialog, and those of the builder that created it. -/
def wireSetters (ctx : Context) (setters : Relation NodeId StmtId) (built : Built)
    (dialog : NodeId) : Wiring Unit := do
  (setters.image dialog).forM (wireDialogSetter ctx dialog)
  if isAlert ctx ((← getGraph).kind dialog) then
    (built.setters.image dialog).forM (wireBuilderSetter ctx dialog)

/-- Wires the noted calls on dialogs, and the setters of the builders that created them. -/
def wireDialogCalls (ctx : Context) (built : Built) : Wiring Unit := do
  let setters ← callsOn ctx .dialogSetter isDialogNode
  wireShows ctx built
  (← getGraph).dialogs.forM (wireSetters ctx setters built)

/-- The dialogs that an activity creates when it is asked to, ascending. -/
def createdDialogs (ctx : Context) (owner : String) : Wiring (List NodeId) := do
  let found ← (callbacks ctx owner [onCreateDialog, onCreateDialogBundle]).flatMapM
    fun method => do
      ((ctx.scene.method method).returnValues.filterMap Value.var?).flatMapM fun name => do
        let var ← ctx.varNode method name
        let graph ← getGraph
        pure ((graph.backwardReachable var).toList.filter fun id => isDialogNode (graph.kind id))
  pure (Std.TreeSet.ofList found).toList

def recordActivityCalls (ctx : Context) (shown : Bool) (sites : List StmtId) (dialog : NodeId) :
    Wiring Unit := do
  if shown then
    modifyFacts fun facts =>
      { facts with dialogShows := facts.dialogShows.addAll dialog sites }
    installShown ctx dialog sites
  else
    modifyFacts fun facts =>
      { facts with dialogDismisses := facts.dialogDismisses.addAll dialog sites }

/-- The classes of the activities that flow to a node, ascending by node. -/
def activitiesOf (var : NodeId) : Wiring (List String) := do
  let graph ← getGraph
  pure ((graph.backwardReachable var).toList.filterMap fun id =>
    match graph.kind id with
    | .activity owner => some owner
    | _ => none)

/-- Wires the noted calls by which activities show or dismiss dialogs: they concern every dialog
that the activity may create. -/
def wireActivityDialogs (ctx : Context) (role : CallRole) : Wiring Unit := do
  ((← getNotes).callsOf role).rows.forM fun (receiver, sites) => do
    let owners ← activitiesOf receiver
    let dialogs ← owners.flatMapM fun owner => do
      let dialogs ← createdDialogs ctx owner
      dialogs.forM (recordActivityCalls ctx (role = .activityShow) sites)
      pure dialogs
    sites.head?.forM fun site =>
      if owners.isEmpty then gap ("Cannot find activity for " ++ ctx.placeText site)
      else if dialogs.isEmpty then gap ("Cannot find dialog for " ++ ctx.placeText site)
      else pure ()

def wireDialogs (ctx : Context) : Wiring Unit := do
  wireDialogCalls ctx (← buildDialogs ctx)
  wireActivityDialogs ctx .activityShow
  wireActivityDialogs ctx .activityDismiss

end WidgetFlow.Wiring
