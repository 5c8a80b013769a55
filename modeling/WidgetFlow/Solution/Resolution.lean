import WidgetFlow.Solution.Inflation

/-!
# Resolving operations

What an operation does to the graph and to the solution, given what has reached its slots so far.
A look-up gives the views that it finds among those, an addition puts views into each other, and a
registration binds its listeners.
-/

namespace WidgetFlow.Solving

open Analysis

/-! ## Look-ups -/

/-- The nodes below some roots, these included, that carry one of some identifiers. -/
def withIds (graph : FlowGraph) (ids roots : List NodeId) : List NodeId :=
  (roots.flatMap fun root => (graph.descendants root).toList).filter fun node =>
    (graph.idOf? node).any ids.contains

/-- The nodes below a node, itself not included. -/
def below (graph : FlowGraph) (node : NodeId) : List NodeId :=
  (graph.descendants node).toList.filter (· != node)

/-- What a look-up by identifier finds below a view or a menu. -/
def foundBelow (graph : FlowGraph) (ids : List NodeId) (lookup : IdLookup) (receiver : NodeId) :
    List NodeId :=
  match withIds graph ids [receiver], lookup with
  | [], .menuItem => below graph receiver
  | found, _ => found

/-- Whether some identifiers ask for the whole content of a window. -/
def asksContent (ctx : Context) (graph : FlowGraph) (ids : List NodeId) : Bool :=
  match ctx.resources.sysId? "content" with
  | none => false
  | some content => ids.any fun id => (graph.kind id).idValue?.any fun (_, value) => value = content

/-- What a look-up by identifier finds in a window. -/
def foundInWindow (ctx : Context) (graph : FlowGraph) (solution : Solution) (ids : List NodeId)
    (window : NodeId) : List NodeId :=
  let content := match graph.kind window with
    | .activity _ => if asksContent ctx graph ids then solution.activityRoots.image window else []
    | _ => []
  content ++ withIds graph ids (graph.children window)

/-- What a structural look-up finds at a view or a menu. -/
def foundByPlace (graph : FlowGraph) (receiver : NodeId) : TreeLookup → List NodeId
  | .children => graph.children receiver
  | .descendantsAndSelf => (graph.descendants receiver).toList
  | .descendants => below graph receiver

/-- What a look-up finds, whatever the declared type of its result. -/
def foundBy (ctx : Context) (graph : FlowGraph) (solution : Solution) (op : NodeId) :
    OpKind → List NodeId
  | .findInView lookup =>
    (solution.receivers.image op).flatMap (foundBelow graph (solution.viewIds.image op) lookup)
  | .findInWindow =>
    (solution.windows.image op).flatMap
      (foundInWindow ctx graph solution (solution.viewIds.image op))
  | .findByPlace lookup =>
    (solution.receivers.image op).flatMap fun receiver => foundByPlace graph receiver lookup
  | _ => []

/-- Resolves a look-up, and says whether it finds anything new. -/
def resolveFind (ctx : Context) (op : NodeId) (kind : OpKind) : Solving Bool := do
  let graph ← getGraph
  let solution ← getSolution
  let found := (foundBy ctx graph solution op kind).filter fun node =>
    ctx.hierarchy.admits graph node op .result
  modifySolution fun solution =>
    { solution with
      results := solution.results.addAll op found
      viewProducers := found.foldl (fun producers node => producers.add node op)
        solution.viewProducers }
  pure (found.any fun node => !solution.results.holds op node)

/-! ## Additions -/

/-- Makes a view the content of a window, and says whether it was not. -/
def setRoot (window view : NodeId) : Solving Bool := do
  if ((← getGraph).children window).contains view then
    return false
  let _ ← addLink view window
  addWindowRoot window view
  return true

/-- Puts a view into another one, and says whether it was not there. -/
def addChild (parent child : NodeId) : Solving Bool :=
  if parent = child then pure false else addLink child parent

/-- Does something for each pair of two lists, and says whether any of it changed anything. -/
def forPairs (firsts seconds : List NodeId) (step : NodeId → NodeId → Solving Bool) :
    Solving Bool :=
  (firsts.flatMap fun first => seconds.map (first, ·)).foldlM (fun changed (first, second) => do
    let more ← step first second
    pure (changed || more)) false

/-- Resolves the setting of a window's content. -/
def resolveSetContent (op : NodeId) : Solving Bool := do
  let solution ← getSolution
  forPairs (solution.windows.image op) (solution.parameters.image op) setRoot

/-- Resolves an addition of views to groups. -/
def resolveAddChild (op : NodeId) : Solving Bool := do
  let solution ← getSolution
  forPairs (solution.receivers.image op) (solution.parameters.image op) addChild

/-- Names a view by an identifier unless it has one, and says whether it had none. -/
def giveId (id view : NodeId) : Solving Bool := do
  if ((← getGraph).idOf? view).isSome then
    return false
  modifyGraph (FlowGraph.setId view id)
  return true

/-- The identifiers that an operation may give a view, ascending. -/
def givenIds (solution : Solution) (op : NodeId) : List NodeId :=
  match solution.viewIds.image op with
  | [] => solution.layoutIds.image op
  | ids => ids

/-- Reports once that an operation has got other identifiers than the one that counts. -/
def reportOthers (op id : NodeId) (others : List NodeId) : Solving Unit := do
  if !others.isEmpty then
    if ← flag op id then
      let graph ← getGraph
      gap (toString (others.length + 1) ++ " ids reach " ++ graph.describe op ++ ", using " ++
        graph.describe id)

/-- Resolves the setting of an identifier: the first of several counts. -/
def resolveSetId (op : NodeId) : Solving Bool := do
  let solution ← getSolution
  match givenIds solution op with
  | [] => pure false
  | id :: others =>
    reportOthers op id others
    (solution.receivers.image op).foldlM (fun changed view => do
      let more ← giveId id view
      pure (changed || more)) false

/-! ## Registrations -/

/-- Binds a view and a listener at a registration unless they have been bound, and says whether
anything is new. -/
def bindOnce (ctx : Context) (op view listener : NodeId) : Solving Bool := do
  if (← getNotes).bound.contains (op, view, listener) then
    return false
  modifyNotes fun notes => { notes with bound := (op, view, listener) :: notes.bound }
  ctx.bindListener op view listener

/-- Resolves a registration. New handlers mean new flow, so the paths are traced again. -/
def resolveSetListener (ctx : Context) (op : NodeId) : Solving Bool := do
  if (← getGraph).isPrebound op then
    return false
  let solution ← getSolution
  let changed ← forPairs (solution.receivers.image op) (solution.listeners.image op)
    (bindOnce ctx op)
  if changed then
    tracePaths ctx
  return changed

/-! ## Operations -/

/-- Resolves an operation, and says whether anything is new. What inflation does has been done
before. -/
def resolve (ctx : Context) (op : NodeId) (kind : OpKind) : Solving Bool :=
  match kind with
  | .findInView _ => resolveFind ctx op kind
  | .findInWindow => resolveFind ctx op kind
  | .findByPlace _ => resolveFind ctx op kind
  | .setContent => resolveSetContent op
  | .addChild => resolveAddChild op
  | .setId => resolveSetId op
  | .setListener _ _ => resolveSetListener ctx op
  | .inflate => pure false
  | .inflateContent => pure false
  | .inflateMenu => pure false

/-- Resolves an operation and pushes what it gives, and says whether anything is new. -/
def visit (ctx : Context) (op : NodeId) : Solving Bool := do
  let some found := (← getGraph).op? op | return false
  let resolved ← resolve ctx op found.kind
  match (← getSolution).results.image op with
  | [] => return resolved
  | results =>
    let pushed ← push ctx op results
    return resolved || pushed

end WidgetFlow.Solving
