import WidgetFlow.Wiring.Values

/-!
# Calls that are operations

A call of the platform that builds, searches or listens to the user interface becomes an operation
of the graph. `takeOperation` tries the forms of such calls in a fixed order, and a call that one
of them takes is done with.
-/

namespace WidgetFlow

/-- A call in its place in the program. -/
structure CallSite where
  site : StmtId
  stmt : Stmt
  call : CallExpr
  deriving Inhabited

namespace CallSite

def method (here : CallSite) : MethodId := here.site.method

def subsig (here : CallSite) : String := here.call.subsig

def result? (here : CallSite) : Option String := here.stmt.definedVar?

def arg? (here : CallSite) (index : Nat) : Option Value := here.call.arg? index

def argVar? (here : CallSite) (index : Nat) : Option String := (here.arg? index).bind Value.var?

def receiverClass? (ctx : Context) (here : CallSite) : Option String :=
  here.call.base.bind (ctx.varClass? here.method)

def receiverNode? {Notes : Type} (ctx : Context) (here : CallSite) :
    Analysis Notes (Option NodeId) :=
  ctx.varNode? here.method here.call.base

def resultNode? {Notes : Type} (ctx : Context) (here : CallSite) : Analysis Notes (Option NodeId) :=
  ctx.varNode? here.method here.result?

/-- The local that a call which inflates a layout adds the views to. The outer option tells whether
it is known if there is one. -/
def inflationRoot? (here : CallSite) (rootAt : Nat) : Option (Option String) :=
  if here.subsig = Platform.Method.inflateAttach then
    match here.arg? 2 with
    | some (.int value) => if value = 0 then some none else some (here.argVar? rootAt)
    | _ => none
  else some (here.argVar? rootAt)

/-- The local at a slot of a registration. The outer option tells whether the slot is understood,
the inner one whether it holds something. -/
def slotVar? (here : CallSite) : Platform.Slot → Option (Option String)
  | .receiver => here.call.base.map some
  | .arg index =>
    match here.arg? index with
    | some (.var name) => some (some name)
    | some .null => some none
    | _ => none

end CallSite

namespace Wiring

open Analysis Platform Method

/-- Adds an operation at a call, which is then done with. -/
def takeAs (op : Op) : Wiring Bool := do
  let _ ← addOp op
  pure true

/-- A layout is inflated to a new view, which may also be added to a group. -/
def takeInflate (ctx : Context) (here : CallSite) : Wiring Bool := do
  let owner := here.call.method.owner
  let fromInflater := (here.subsig = inflate || here.subsig = inflateAttach) &&
    ctx.hierarchy.isSubclassOf owner ClassName.layoutInflater
  let fromView := here.subsig = viewStaticInflate && here.call.kind = .static &&
    ctx.hierarchy.isView owner
  if !fromInflater && !fromView then
    return false
  let idAt := if fromView then 1 else 0
  let some idValue := here.arg? idAt | return false
  if ctx.isNoLayoutId here.method idValue then
    return false
  let some root := here.inflationRoot? (idAt + 1) | return false
  let some id ← valueNode? ctx here.site idValue
    | do
      gap ("Null layout id for " ++ ctx.scene.stmtText here.site)
      return false
  let result ← here.resultNode? ctx
  match root with
  | none =>
    if result.isNone then
      return false
    takeAs { kind := .inflate, parameter := id, result, site := here.site }
  | some root =>
    let view ← makeVar ClassName.view
    let root ← ctx.varNode here.method root
    let _ ← addOp { kind := .inflate, parameter := id, result := view, site := here.site }
    let _ ← addOp
      { kind := .addChild, receiver := root, parameter := view, site := here.site
        idiom := some .inflateWithRoot }
    connect? view result (some here.site)
    return true

def takeInflateContent (ctx : Context) (here : CallSite) : Wiring Bool := do
  if here.subsig ≠ setContentViewId || !ctx.isWindow here.call.method.owner then
    return false
  let some idValue := here.arg? 0 | return false
  if ctx.isNoLayoutId here.method idValue then
    return false
  let id ← valueNode? ctx here.site idValue
  let receiver ← here.receiverNode? ctx
  if id.isNone || receiver.isNone then
    gap ("Unresolved layout id for " ++ ctx.scene.stmtText here.site)
    return true
  takeAs { kind := .inflateContent, parameter := id, receiver, site := here.site }

/-- What a look-up by identifier below a view or a menu looks for. -/
def idLookup? (subsig : String) : Option IdLookup :=
  if subsig = findViewById then some .ordinary
  else if subsig = menuFindItem then some .menuItem
  else none

/-- Whether the receiver of a look-up by identifier has the right class. -/
def looksIn (hierarchy : Hierarchy) : IdLookup → String → Bool
  | .ordinary, owner => hierarchy.isView owner
  | .menuItem, owner => hierarchy.isMenu owner

/-- The node of the identifier that a look-up asks for. A menu item may be asked for by a literal
that names nothing. -/
def lookupIdNode? (ctx : Context) (site : StmtId) (lookup : IdLookup) (value : Value) :
    Wiring (Option NodeId) := do
  match ← valueNode? ctx site value, lookup, value with
  | some id, _, _ => pure (some id)
  | none, .menuItem, .int literal => some <$> idNode .anonymous literal
  | none, _, _ => pure none

/-- A view is looked up by its identifier below a view, or a menu item in a menu. -/
def takeFindInView (ctx : Context) (here : CallSite) : Wiring Bool := do
  let some lookup := idLookup? here.subsig | return false
  let some owner := here.receiverClass? ctx | return false
  if !looksIn ctx.hierarchy lookup owner then
    return false
  let some idValue := here.arg? 0 | return false
  let id ← lookupIdNode? ctx here.site lookup idValue
  let result ← here.resultNode? ctx
  if id.isNone || result.isNone then
    return false
  let receiver ← here.receiverNode? ctx
  takeAs { kind := .findInView lookup, parameter := id, receiver, result, site := here.site }

/-- A view is looked up by its identifier in a window. -/
def takeFindInWindow (ctx : Context) (here : CallSite) : Wiring Bool := do
  if here.subsig ≠ findViewById || !(here.receiverClass? ctx).any ctx.isWindow then
    return false
  let some result ← here.resultNode? ctx | return false
  let receiver ← here.receiverNode? ctx
  let id ← argNode? ctx here.site (here.arg? 0)
  if id.isNone || receiver.isNone then
    gap ("Null widget id for " ++ ctx.scene.stmtText here.site)
    return true
  takeAs { kind := .findInWindow, parameter := id, receiver, result, site := here.site }

/-- What a structural look-up gives. -/
def treeLookup? (subsig : String) : Option TreeLookup :=
  if findDescendantsAndSelf.contains subsig then some .descendantsAndSelf
  else if findChildren.contains subsig then some .children
  else if subsig = menuFindItem then some .descendants
  else none

/-- Views are looked up by their place. A menu item is looked up so if its identifier is not a
literal; a literal that got here names nothing, and the call is dropped. -/
def takeFindByPlace (ctx : Context) (here : CallSite) : Wiring Bool := do
  let owner := here.call.method.owner
  if !ctx.hierarchy.isView owner && !ctx.hierarchy.isMenu owner then
    return false
  let some lookup := treeLookup? here.subsig | return false
  if lookup = .descendants && ((here.arg? 0).bind Value.int?).isSome then
    return true
  let result ← here.resultNode? ctx
  let receiver ← here.receiverNode? ctx
  if result.isNone || receiver.isNone then
    return false
  takeAs { kind := .findByPlace lookup, receiver, result, site := here.site }

/-- A view becomes the content of a window. -/
def takeSetContent (ctx : Context) (here : CallSite) : Wiring Bool := do
  if here.subsig ≠ setContentView && here.subsig ≠ setContentViewParams then
    return false
  if !(here.receiverClass? ctx).any ctx.isWindow then
    return false
  let receiver ← here.receiverNode? ctx
  let some view := here.argVar? 0 | return true
  if receiver.isNone then
    return true
  let view ← ctx.varNode here.method view
  takeAs { kind := .setContent, parameter := view, receiver, site := here.site }

def takeAddChild (ctx : Context) (here : CallSite) : Wiring Bool := do
  if here.call.name ≠ addView || !ctx.hierarchy.isView here.call.method.owner then
    return false
  let receiver ← here.receiverNode? ctx
  let some child := here.argVar? 0 | return true
  if receiver.isNone then
    return true
  let child ← ctx.varNode here.method child
  takeAs { kind := .addChild, parameter := child, receiver, site := here.site }

/-- A view gets an identifier. -/
def takeSetId (ctx : Context) (here : CallSite) : Wiring Bool := do
  if here.subsig ≠ setId || !(here.receiverClass? ctx).any ctx.hierarchy.isView then
    return false
  let id ← argNode? ctx here.site (here.arg? 0)
  let receiver ← here.receiverNode? ctx
  if id.isNone || receiver.isNone then
    return false
  takeAs { kind := .setId, parameter := id, receiver, site := here.site }

/-- A listener is registered on a view. A registration for the creation of context menus gets its
handlers when the walk is over. -/
def takeSetListener (ctx : Context) (here : CallSite) : Wiring Bool := do
  let some registration := ctx.hierarchy.registration? here.call | return false
  match here.slotVar? registration.view, here.slotVar? registration.listener with
  | some (some view), some (some listener) =>
    if !(ctx.varClass? here.method view).any fun owner =>
        ctx.hierarchy.isView owner || ctx.hierarchy.isMenuItem owner then
      return false
    let some listenerClass := ctx.varClass? here.method listener | return false
    if !ctx.hierarchy.isListener listenerClass then
      return false
    let view ← ctx.varNode here.method view
    let listener ← ctx.varNode here.method listener
    let contextMenu := registration.isContextMenu
    let op ← addOp
      { kind := .setListener registration.event contextMenu, receiver := view
        parameter := listener, site := here.site }
    if contextMenu then
      modifyGraph (FlowGraph.markPrebound op)
      modifyNotes fun notes =>
        { notes with
          registrations := notes.registrations ++
            [{ op, site := here.site, interface := registration.interface, listenerClass, view
               listener }] }
    return true
  | some _, some _ => return false
  | _, _ =>
    gap ("Non-local listener registration " ++ ctx.scene.stmtText here.site)
    return true

def takeAddMenuItem (ctx : Context) (here : CallSite) : Wiring Bool := do
  let some position := menuAdd.findIdx? (· = here.subsig) | return false
  let some menu ← here.receiverNode? ctx | return false
  let item ← onGraph (FlowGraph.menuItemNode ClassName.menuItem [])
  modifyFacts fun facts => { facts with menuItems := facts.menuItems.insert item }
  let itemVar ← match ← here.resultNode? ctx with
    | some result => pure result
    | none => makeVar ClassName.menuItem
  connect item itemVar (some here.site)
  if 2 ≤ position then
    if let some (.int value) := here.arg? 1 then
      let id ← idNode .anonymous value
      modifyGraph (FlowGraph.setId item id)
  takeAs
    { kind := .addChild, receiver := menu, parameter := itemVar, site := here.site
      idiom := some .addMenuItem }

def takeInflateMenu (ctx : Context) (here : CallSite) : Wiring Bool := do
  if here.subsig ≠ menuInflate ||
      !ctx.hierarchy.isSubclassOf here.call.method.owner ClassName.menuInflater then
    return false
  let some idValue := here.arg? 0 | return false
  let some menuValue := here.arg? 1 | return false
  let id ← valueNode? ctx here.site idValue
  let menu ← valueNode? ctx here.site menuValue
  if id.isNone || menu.isNone then
    return true
  takeAs { kind := .inflateMenu, parameter := id, receiver := menu, site := here.site }

/-- The tab host of an activity: the platform's layout becomes the content of the activity, and the
host is looked up in it. -/
def takeGetTabHost (ctx : Context) (here : CallSite) : Wiring Bool := do
  if here.subsig ≠ getTabHost || !(here.receiverClass? ctx).any fun owner =>
      ctx.hierarchy.isApplication owner && ctx.hierarchy.isActivity owner then
    return false
  match ctx.resources.sysLayout? "tab_content", ctx.resources.sysId? "tabhost" with
  | some layout, some host =>
    let receiver ← here.receiverNode? ctx
    let layout ← idNode .layout layout
    let _ ← addOp
      { kind := .inflateContent, parameter := layout, receiver, site := here.site
        artificial := true, idiom := some .getTabHost }
    let host ← idNode .widget host
    let result ← here.resultNode? ctx
    takeAs
      { kind := .findInWindow, parameter := host, receiver, result, site := here.site
        idiom := some .getTabHost }
  | _, _ =>
    gap "Platform resources lack tab_content or tabhost"
    return true

/-- The list of a list activity is looked up by the platform's identifier. -/
def takeGetListView (ctx : Context) (here : CallSite) : Wiring Bool := do
  if here.subsig ≠ getListView || !(here.receiverClass? ctx).any fun owner =>
      ctx.hierarchy.isSubclassOf owner ClassName.listActivity then
    return false
  let some result ← here.resultNode? ctx
    | do
      gap "getListView() called but return value ignored"
      return true
  let some list := ctx.resources.sysId? "list"
    | do
      gap "Platform resources lack the list id"
      return true
  let receiver ← here.receiverNode? ctx
  let id ← idNode .widget list
  takeAs
    { kind := .findInWindow, parameter := id, receiver, result, site := here.site
      idiom := some .getListView }

/-- Makes the attempts in order until one takes the call. -/
def firstThatTakes : List (Wiring Bool) → Wiring Bool
  | [] => pure false
  | attempt :: rest => do
    if ← attempt then pure true else firstThatTakes rest

def operationForms : List (Context → CallSite → Wiring Bool) :=
  [takeInflate, takeInflateContent, takeFindInView, takeFindInWindow, takeFindByPlace,
    takeSetContent, takeAddChild, takeSetId, takeSetListener, takeAddMenuItem, takeInflateMenu,
    takeGetTabHost, takeGetListView]

/-- Makes the operations of a call, and says whether it is one. -/
def takeOperation (ctx : Context) (here : CallSite) : Wiring Bool :=
  firstThatTakes (operationForms.map fun form => form ctx here)

end Wiring

end WidgetFlow
