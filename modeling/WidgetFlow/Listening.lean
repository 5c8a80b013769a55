import WidgetFlow.Progress

/-!
# Listeners and their handlers

When a listener is registered on a view, the platform calls the methods of the listener's class
that implement the registered interface. Such a handler gets the listener as its receiver and the
view as one of its parameters.
-/

namespace WidgetFlow

/-- The parameter of a handler that gets the view. -/
inductive ViewParam where
  /-- The handler does not read the parameter. -/
  | absent
  /-- The parameter is not declared as a view or a menu item. -/
  | mistyped
  | found (name : String)
  deriving DecidableEq, Repr, Inhabited

namespace Context

variable {Notes : Type}

open Analysis

/-- The method that handles a call of one prototype on an object of a class. -/
def handler? (ctx : Context) (owner : String) (prototype : Platform.Prototype) : Option MethodId :=
  (ctx.hierarchy.dispatchToApp? prototype.subsig owner).filter fun id =>
    (ctx.scene.method id).isConcrete && ctx.hierarchy.isListener (ctx.scene.method id).owner

/-- The methods that handle the events of an interface on an object of a class. -/
def handlersOn (ctx : Context) (interface owner : String) : List MethodId :=
  if ctx.hierarchy.isSubclassOf owner interface then
    (Platform.prototypes interface).filterMap (ctx.handler? owner)
  else []

/-- The methods that handle the events of an interface on objects of some classes, ascending. -/
def handlersFor (ctx : Context) (interface : String) (owners : List String) : List MethodId :=
  (Std.TreeSet.ofList (owners.flatMap (ctx.handlersOn interface))).toList

def viewParam (ctx : Context) (handler : MethodId) (position : Nat) : ViewParam :=
  match (ctx.scene.method handler).paramVar? position with
  | none => .absent
  | some name =>
    if (ctx.varClass? handler name).any fun owner =>
        ctx.hierarchy.isView owner || ctx.hierarchy.isMenuItem owner then
      .found name
    else .mistyped

def viewParamNode? (ctx : Context) (handler : MethodId) (position : Nat) :
    Analysis Notes (Option NodeId) := do
  match ctx.viewParam handler position with
  | .absent => pure none
  | .mistyped =>
    gap ("Cannot find view parameter of " ++ ctx.scene.methodText handler)
    pure none
  | .found name => some <$> ctx.varNode handler name

/-- Lets an object flow into a variable that may be missing. Says whether the flow is new. -/
def feed (object : NodeId) (var : Analysis Notes (Option NodeId)) (site : StmtId) :
    Analysis Notes Bool := do
  match ← var with
  | some var => addEdge object var (some site)
  | none => pure false

/-- Lets a view flow into the parameter of a handler that gets the view. Says whether the flow is
new. -/
def feedView (ctx : Context) (interface : String) (view : NodeId) (site : StmtId)
    (handler : MethodId) : Analysis Notes Bool :=
  match Platform.viewPosition? interface (ctx.scene.method handler).subsig with
  | none => pure false
  | some position => feed view (ctx.viewParamNode? handler position) site

/-- Lets a listener and a view flow into one of the listener's handlers. Says whether anything is
new. -/
def bindHandler (ctx : Context) (interface : String) (op view listener : NodeId) (site : StmtId)
    (handler : MethodId) : Analysis Notes Bool := do
  let bound ← onGraph (FlowGraph.bindHandler op (.method handler))
  let received ← feed listener (ctx.thisNode? handler) site
  let seen ← ctx.feedView interface view site handler
  pure (bound || received || seen)

/-- Binds one view and one listener at a registration: every handler of the listener's class gets
both. Says whether anything is new. Context menus are bound when they are made. -/
def bindListener (ctx : Context) (op view listener : NodeId) : Analysis Notes Bool := do
  let graph ← getGraph
  match graph.kind view, (graph.op? op).bind Op.site with
  | .contextMenu _ _ _, _ => pure false
  | _, none => pure false
  | _, some site =>
    match (ctx.call? site).bind ctx.hierarchy.registration? with
    | none =>
      violation ("Unexpected SetListener statement " ++ ctx.scene.stmtText site)
      pure false
    | some registration =>
      match (graph.kind listener).owner? with
      | none => pure false
      | some owner =>
        (ctx.handlersFor registration.interface [owner]).foldlM (fun changed handler => do
          let more ← ctx.bindHandler registration.interface op view listener site handler
          pure (changed || more)) false

end Context

end WidgetFlow
