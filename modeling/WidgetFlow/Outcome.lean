import WidgetFlow.Solution.Fixpoint
import WidgetFlow.Wiring.Graph

/-!
# The outcome of an analysis

An analysis makes the flow graph of a program and solves it. The outcome holds both with what was
found meanwhile, and answers questions about windows, views, events and the values of variables.
-/

namespace WidgetFlow

/-- The outcome of an analysis. -/
structure Outcome where
  ctx : Context
  graph : FlowGraph
  facts : Facts
  solution : Solution
  findings : List Finding
  deriving Inhabited

/-- Makes the flow graph of a program, under a policy that has found nothing yet. -/
def Context.wire (ctx : Context) : Except AnalysisError Unit × Progress Wiring.Notes :=
  (Wiring.wireProgram ctx).outcome { policy := { severity := ctx.options.severity }, notes := {} }

def Context.solve (ctx : Context) (graph : FlowGraph) (policy : Policy) :
    Except AnalysisError Unit × Progress Solving.Notes :=
  (Solving.solve ctx).outcome { graph, policy, notes := {} }

/-- The outcome of an analysis whose two parts have come to their ends. -/
def Outcome.of (ctx : Context) (wired : Progress Wiring.Notes) (solved : Progress Solving.Notes) :
    Outcome where
  ctx
  graph := solved.graph
  facts := wired.notes.facts
  solution := solved.notes.solution
  findings := solved.policy.findings.toList

def Context.analyze (ctx : Context) : Except AnalysisError Outcome := do
  let (result, wired) := ctx.wire
  result
  let (result, solved) := ctx.solve wired.graph wired.policy
  result
  pure (.of ctx wired solved)

namespace Outcome

/-! ## Values -/

/-- The objects that a variable may hold: those that flow to it, and the results of operations
whose result flows to it. -/
def valuesOf (outcome : Outcome) (var : NodeId) : NodeSet :=
  let graph := outcome.graph
  let reach := (graph.backwardReachable var).toList
  let holders := var :: reach.filter fun id => (graph.kind id).isVar
  let results := outcome.solution.results.rows.filter fun (op, _) =>
    ((graph.op? op).bind Op.result).any holders.contains
  .ofList ((reach.filter fun id => !(graph.kind id).isVar && (graph.kind id).isObject) ++
    results.flatMap (·.2))

/-- The objects that a local may hold; none if it takes no part in the flow. -/
def localValues (outcome : Outcome) (method : MethodId) (name : String) : NodeSet :=
  match outcome.graph.find? (.var (.named method name)) with
  | some var => outcome.valuesOf var
  | none => {}

/-! ## Windows -/

def activityRoots (outcome : Outcome) (owner : String) : List NodeId :=
  match outcome.graph.find? (.activity owner) with
  | some activity => outcome.solution.activityRoots.image activity
  | none => []

def windowRoots (outcome : Outcome) (window : NodeId) : List NodeId :=
  if (outcome.graph.kind window).isWindow then outcome.solution.rootsOf outcome.graph window else []

/-- The identifiers of the layouts that are inflated as the content of a window. -/
def layoutsOf (outcome : Outcome) (window : NodeId) : List ResId :=
  (outcome.solution.windowLayouts.image window).filterMap fun id =>
    (outcome.graph.kind id).idValue?.map (·.2)

/-- The methods of the program that run for some subsignatures on a class, ascending. -/
def methodsFor (outcome : Outcome) (owner : String) (subsigs : List String) : List MethodId :=
  (Std.TreeSet.ofList (Wiring.callbacks outcome.ctx owner subsigs)).toList

def optionsMenu? (outcome : Outcome) (owner : String) : Option NodeId :=
  outcome.graph.find? (.optionsMenu owner)

def contextMenus (outcome : Outcome) (view : NodeId) : List NodeId :=
  outcome.graph.contextMenus.filter fun menu =>
    match outcome.graph.kind menu with
    | .contextMenu _ _ views => views.any fun var => (outcome.valuesOf var).contains view
    | _ => false

def filler? (outcome : Outcome) (menu : NodeId) : Option MethodId :=
  match outcome.graph.kind menu with
  | .contextMenu filler _ _ => some filler
  | _ => none

def menuItems (outcome : Outcome) : List NodeId :=
  outcome.graph.nodeIds.filter fun id =>
    match outcome.graph.kind id with
    | .menuItem _ _ => true
    | _ => false

/-! ## Events -/

/-- The registrations on an object for certain events, in order of creation. -/
def registrations (outcome : Outcome) (object : NodeId) (accept : Platform.Event → Bool) :
    List (NodeId × Platform.Event) :=
  outcome.graph.ops.filterMap fun op =>
    match (outcome.graph.op? op).map Op.kind with
    | some (.setListener event _) =>
      if accept event && outcome.solution.receivers.holds op object then some (op, event) else none
    | _ => none

def eventsOn (outcome : Outcome) (object : NodeId) (accept : Platform.Event → Bool) :
    List (Platform.Event × List Handler) :=
  let found := outcome.registrations object accept
  (Platform.Event.all.filter fun event => found.any (·.2 = event)).map fun event =>
    let handlers := (found.filter (·.2 = event)).flatMap fun (op, _) => outcome.graph.handlersOf op
    (event, Handler.sort handlers.eraseDups)

def realHandler? (outcome : Outcome) : Handler → Option MethodId
  | .method id => some id
  | .synthetic index => (outcome.graph.synthetics[index]?).bind fun handler => handler.target.app?

def handlerName (outcome : Outcome) : Handler → String
  | .method id => outcome.ctx.scene.methodText id
  | .synthetic index => SyntheticHandler.label index

/-! ## Identifiers -/

def idValue? (outcome : Outcome) (node : NodeId) : Option ResId :=
  (outcome.graph.idOf? node).bind fun id => (outcome.graph.kind id).idValue?.map (·.2)

def idName? (outcome : Outcome) (node : NodeId) : Option String :=
  (outcome.idValue? node).bind outcome.ctx.resources.idName?

end Outcome

end WidgetFlow
