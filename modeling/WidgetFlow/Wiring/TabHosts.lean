import WidgetFlow.Wiring.Dialogs

/-!
# Tab hosts

A tab specification says what a tab shows as its indicator and as its content. When it is added to
a tab host, the indicators become children of the host's row of tabs, and the contents children of
its content frame.
-/

namespace WidgetFlow.Wiring

open Analysis Platform

/-- The role of a call on a tab specification; `none` inside for a content that is not followed. -/
def tabSpecRole? (subsig : String) : Option (Option CallRole) :=
  if Method.setIndicatorLabel.contains subsig then some (some .labelIndicator)
  else if subsig = Method.setIndicatorView then some (some .viewIndicator)
  else if subsig = Method.setContentLayout then some (some .layoutContent)
  else if subsig = Method.setContentFactory then some (some .factoryContent)
  else if subsig = Method.setContentIntent then some none
  else none

/-- Notes a call that adds a tab or makes a specification. -/
def noteHostCall (ctx : Context) (here : CallSite) (owner : String) : Wiring Unit := do
  if owner ≠ ClassName.tabHost then
    gap ("Unmodeled TabHost subclass " ++ owner ++ " at " ++ ctx.scene.stmtText here.site)
  else if here.subsig = Method.addTab then
    match here.argVar? 0 with
    | none => violation ("Unexpected TabSpec argument in " ++ ctx.scene.stmtText here.site)
    | some spec => noteCall .addTab (← ctx.varNode here.method spec) here.site
  else if here.result?.isSome then
    let spec ← onGraph (FlowGraph.tabSpecNode ClassName.tabSpec here.site)
    connect? spec (← here.resultNode? ctx) (some here.site)

/-- Notes a call on a tab specification, which gives the specification back. -/
def noteSpecCall (ctx : Context) (here : CallSite) : Wiring Unit := do
  let receiver ← here.receiverNode? ctx
  let some (some role) := tabSpecRole? here.subsig | return
  let some receiver := receiver | return
  noteCall role receiver here.site
  connect? receiver (← here.resultNode? ctx) (some here.site)

/-- Notes a call on a tab host or a tab specification. -/
def noteTabCall (ctx : Context) (here : CallSite) : Wiring Unit := do
  if !here.call.isInstance then
    return
  let some owner := here.receiverClass? ctx | return
  if ctx.hierarchy.isSubclassOf owner ClassName.tabHost then
    if here.subsig = Method.addTab || here.subsig = Method.newTabSpec then
      noteHostCall ctx here owner
  else if ctx.hierarchy.isSubclassOf owner ClassName.tabSpec then
    noteSpecCall ctx here

/-! ## Indicators and contents -/

/-- Inflates a layout for a part of a tab: gives the variable that holds it. -/
def inflatePart (layout : NodeId) (site : StmtId) : Wiring NodeId := do
  let view ← makeVar ClassName.view
  let _ ← addOp
    { kind := .inflate, parameter := layout, result := view, site, artificial := true
      idiom := some .tabHost }
  pure view

/-- The platform layout that shows the text of a tab. -/
def indicatorLayout? (ctx : Context) : Option ResId :=
  ctx.resources.sysLayout? ctx.options.tabIndicatorLayout <|>
    ctx.resources.sysLayout? "tab_indicator_holo"

/-- The variables of the indicator that a call sets as a text. -/
def labelIndicator (ctx : Context) (site : StmtId) : Wiring (List NodeId) := do
  match indicatorLayout? ctx with
  | none =>
    gap ("Platform resources lack layout " ++ ctx.options.tabIndicatorLayout)
    pure []
  | some layout =>
    let layout ← idNode .layout layout
    return [← inflatePart layout site]

/-- The variables of the indicator that a call sets as a view. -/
def viewIndicator (ctx : Context) (site : StmtId) : Wiring (List NodeId) := do
  let some call := ctx.call? site | return []
  match call.arg? 0 with
  | some (.var view) => return [← ctx.varNode site.method view]
  | _ =>
    gap ("Unresolved tab indicator in " ++ ctx.scene.stmtText site)
    return []

/-- The variables of the content that a call sets as a layout. -/
def layoutContent (ctx : Context) (site : StmtId) : Wiring (List NodeId) := do
  let some value := (ctx.call? site).bind fun call => call.arg? 0 | return []
  if ctx.isNoLayoutId site.method value then
    return []
  match ← valueNode? ctx site value with
  | none =>
    gap ("Unknown tab content layout in " ++ ctx.scene.stmtText site)
    return []
  | some layout => return [← inflatePart layout site]

def contentCreators (ctx : Context) (factory : NodeId) : Wiring (List MethodId) := do
  let graph ← getGraph
  pure (Std.TreeSet.ofList ((← objectsOf factory).filterMap fun object =>
    (graph.kind object).owner?.bind
      (ctx.hierarchy.dispatchToApp? Method.createTabContent))).toList

/-- The variables of the content that a call sets by a factory. -/
def factoryContent (ctx : Context) (site : StmtId) : Wiring (List NodeId) := do
  let some factory := (ctx.call? site).bind fun call => (call.arg? 0).bind Value.var? | return []
  let creators ← contentCreators ctx (← ctx.varNode site.method factory)
  if creators.isEmpty then
    gap ("No createTabContent for " ++ ctx.scene.stmtText site)
  creators.flatMapM fun method =>
    ((ctx.scene.method method).returnValues.filterMap Value.var?).mapM fun name =>
      ctx.varNode method name

/-! ## Tabs -/

/-- The variables of the indicators and contents of a tab. -/
structure TabParts where
  indicators : List NodeId
  contents : List NodeId

/-- Puts views below a part of a tab host that the platform names. -/
def placeUnder (host : NodeId) (id : ResId) (owner : String) (views : List NodeId) (site : StmtId) :
    Wiring Unit := do
  let id ← idNode .widget id
  let parent ← makeVar owner
  let _ ← addOp
    { kind := .findInView .ordinary, receiver := host, parameter := id, result := parent, site
      artificial := true, idiom := some .tabHost }
  (Std.TreeSet.ofList views).toList.forM fun view => do
    let _ ← addOp
      { kind := .addChild, receiver := parent, parameter := view, site, artificial := true
        idiom := some .tabHost }

def addTab (ctx : Context) (parts : TabParts) (site : StmtId) : Wiring Unit := do
  match ctx.resources.sysId? "tabs", ctx.resources.sysId? "tabcontent" with
  | some tabs, some content =>
    let some host := (ctx.call? site).bind Call.base | return
    let host ← ctx.varNode site.method host
    placeUnder host tabs ClassName.tabWidget parts.indicators site
    placeUnder host content ClassName.frameLayout parts.contents site
  | _, _ => gap "Platform resources lack tabs or tabcontent"

def isTabSpec : NodeKind → Bool
  | .tabSpec _ _ => true
  | _ => false

/-- The calls that set the parts of tab specifications, by the specification. -/
structure SpecCalls where
  labels : Relation NodeId StmtId
  views : Relation NodeId StmtId
  layouts : Relation NodeId StmtId
  factories : Relation NodeId StmtId

def tabParts (ctx : Context) (calls : SpecCalls) (spec : NodeId) : Wiring TabParts := do
  let labels ← (calls.labels.image spec).flatMapM (labelIndicator ctx)
  let views ← (calls.views.image spec).flatMapM (viewIndicator ctx)
  let layouts ← (calls.layouts.image spec).flatMapM (layoutContent ctx)
  let factories ← (calls.factories.image spec).flatMapM (factoryContent ctx)
  pure { indicators := labels ++ views, contents := layouts ++ factories }

def wireTabHosts (ctx : Context) : Wiring Unit := do
  let tabs ← callsOn ctx .addTab isTabSpec
  if tabs.isEmpty then
    return
  let labels ← callsOn ctx .labelIndicator isTabSpec
  let views ← callsOn ctx .viewIndicator isTabSpec
  let layouts ← callsOn ctx .layoutContent isTabSpec
  let factories ← callsOn ctx .factoryContent isTabSpec
  tabs.rows.forM fun (spec, sites) => do
    let parts ← tabParts ctx { labels, views, layouts, factories } spec
    sites.forM (addTab ctx parts)

end WidgetFlow.Wiring
