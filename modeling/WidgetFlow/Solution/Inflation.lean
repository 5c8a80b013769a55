import WidgetFlow.Solution.Paths

/-!
# Inflation

Inflating a layout makes one new view for each element of its tree that has a class and whose
ancestors all have one, and puts the views into each other as the elements are. Inflating a menu
does the same with menu items, where the menu itself stands for the root. The elements are taken
level by level.
-/

namespace WidgetFlow.Solving

open Analysis Platform

/-! ## What a new node flows to -/

/-- Lets an inflated node flow to the methods of its class that the platform calls when it has been
inflated. -/
def finishInflation (ctx : Context) (node : NodeId) (owner : String) : Solving Unit := do
  let some method := ctx.hierarchy.dispatchToApp? Method.onFinishInflate owner | return
  connect? node (← ctx.thisNode? method) none

/-- Lets an inflated view of an application class flow to the constructors of the class. -/
def wireConstructors (ctx : Context) (node : NodeId) (owner : String) : Solving Unit :=
  ((ctx.scene.methodsOf owner).filter fun method =>
    (ctx.scene.method method).sig.name = Method.init).forM fun method => do
      connect? node (← ctx.thisNode? method) none

/-- An inflated view whose class fills a context menu by itself owns that menu. -/
def wireInflatedContextMenu (ctx : Context) (node : NodeId) (owner : String) : Solving Unit := do
  let some method := ctx.hierarchy.dispatchToApp? Method.viewOnCreateContextMenu owner | return
  let this ← ctx.thisNode? method
  let formal ← ctx.paramNode? method 0
  match this, formal with
  | some this, some formal =>
    connect node this none
    let (menu, _) ← onGraph (FlowGraph.contextMenuNode method formal this)
    (← arriveContextMenu menu).forM fun op =>
      modifySolution fun solution => { solution with receivers := solution.receivers.add op menu }
  | _, _ => pure ()

/-- Lets an inflated view flow to the methods of its class that the platform calls. -/
def wireInflatedView (ctx : Context) (node : NodeId) (owner : String) : Solving Unit := do
  if ctx.hierarchy.isApplication owner then
    wireConstructors ctx node owner
    wireInflatedContextMenu ctx node owner
  finishInflation ctx node owner

def fillSlots (ctx : Context) (graph : FlowGraph) (node : NodeId) (reach : NodeSet)
    (solution : Solution) (op : NodeId) : Solution :=
  match graph.op? op with
  | none => solution
  | some found =>
    let atParameter := found.parameter.any reach.contains
    let atReceiver := found.receiver.any reach.contains
    { solution with
      parameters :=
        if found.kind.takesView && atParameter && ctx.hierarchy.admits graph node op .parameter then
          solution.parameters.add op node
        else solution.parameters
      listeners :=
        if found.kind.isSetListener && atParameter && ctx.hierarchy.admitsListener graph node op then
          solution.listeners.add op node
        else solution.listeners
      receivers :=
        if found.kind.takesReceiver && atReceiver && ctx.hierarchy.admits graph node op .receiver then
          solution.receivers.add op node
        else solution.receivers }

/-- Puts an inflated node into the slots of the operations that it reaches. -/
def fillReachedSlots (ctx : Context) (node : NodeId) : Solving Unit := do
  let graph ← getGraph
  let reach := graph.forwardReachable node
  modifySolution fun solution =>
    (reachedOps graph node reach).foldl (fillSlots ctx graph node reach) solution

/-! ## Layouts -/

/-- The elements that are still to be inflated, with the nodes that will contain them. -/
abbrev Pending := List (Element × Option NodeId)

/-- Names an inflated view by the identifier of its element. -/
def nameView (node : NodeId) : Option ResId → Solving Unit
  | none => pure ()
  | some value => do
    match (← getGraph).find? (.id .widget value) with
    | some id => modifyGraph (FlowGraph.setId node id)
    | none => fail (.unknownWidget value)

def inflateView (ctx : Context) (element : Element) (owner : String) (parent : Option NodeId) :
    Solving NodeId := do
  let node ← onGraph (FlowGraph.viewNode owner)
  wireInflatedView ctx node owner
  fillReachedSlots ctx node
  nameView node element.id
  parent.forM fun parent => do let _ ← addLink node parent
  pure node

/-- Inflates the pending elements of a layout, and gives the node of the first one. An element
without a class is left out with all that it contains. -/
def inflateViews (ctx : Context) : Nat → Pending → Option NodeId → Solving (Option NodeId)
  | 0, _, root => pure root
  | _, [], root => pure root
  | bound + 1, (element, parent) :: rest, root =>
    match element.owner with
    | none => inflateViews ctx bound rest root
    | some owner => do
      let node ← inflateView ctx element owner parent
      inflateViews ctx bound (rest ++ element.children.map (·, some node)) (root <|> some node)

/-- Inflates a new copy of a layout, inside a window if one is given, and gives its root. Each
element is taken once, so their number bounds the work. -/
def inflateLayout (ctx : Context) (value : ResId) (window : Option NodeId) :
    Solving (Option NodeId) := do
  match ctx.resources.layout? value with
  | none =>
    fail (.missingResource "layout" value)
    pure none
  | some tree => inflateViews ctx tree.count [(tree, window)] none

def inflateResult (ctx : Context) (op : NodeId) (value : ResId) : Solving Unit := do
  let some root ← inflateLayout ctx value none | return
  if ctx.hierarchy.admits (← getGraph) root op .result then
    modifySolution fun solution =>
      { solution with
        results := solution.results.add op root
        viewProducers := solution.viewProducers.add root op }
    let _ ← push ctx op [root]

def inflateContent (ctx : Context) (op layout : NodeId) (value : ResId) : Solving Unit := do
  ((← getSolution).windows.image op).forM fun window => do
    let some root ← inflateLayout ctx value (some window) | return
    addWindowRoot window root
    modifySolution fun solution =>
      { solution with windowLayouts := solution.windowLayouts.add window layout }

def inflateLayouts (ctx : Context) : Solving Unit := do
  (← getSolution).layoutIds.pairs.forM fun (op, layout) => do
    let graph ← getGraph
    match (graph.op? op).map Op.kind, (graph.kind layout).idValue? with
    | some .inflate, some (_, value) => inflateResult ctx op value
    | some .inflateContent, some (_, value) => inflateContent ctx op layout value
    | _, _ => pure ()

/-! ## Menus -/

/-- Names an inflated menu item by the identifier of its element. -/
def nameItem (node : NodeId) (menu : ResId) : Option ResId → Solving Unit
  | none => pure ()
  | some value => do
    match (← getGraph).find? (.id .widget value) with
    | some id => modifyGraph (FlowGraph.setId node id)
    | none => gap ("Unknown id " ++ Text.hexWord value ++ " on a menu item of " ++ Text.hexWord menu)

/-- Inflates one element of a menu that has a class, inside the node of the element around it. -/
def inflateItem (ctx : Context) (menu : ResId) (element : Element) (owner : String)
    (parent : NodeId) : Solving NodeId := do
  let node ← onGraph (FlowGraph.menuItemNode owner element.attrs)
  finishInflation ctx node owner
  fillReachedSlots ctx node
  nameItem node menu element.id
  let _ ← addLink node parent
  pure node

/-- Inflates the pending elements of a menu. The one that nothing contains is the menu itself. -/
def inflateItems (ctx : Context) (menu : ResId) (self : NodeId) : Nat → Pending → Solving Unit
  | 0, _ => pure ()
  | _, [] => pure ()
  | bound + 1, (element, parent) :: rest =>
    match element.owner with
    | none => inflateItems ctx menu self bound rest
    | some owner => do
      let node ← match parent with
        | none => pure self
        | some parent => inflateItem ctx menu element owner parent
      inflateItems ctx menu self bound (rest ++ element.children.map (·, some node))

def inflateMenu (ctx : Context) (value : ResId) (self : NodeId) : Solving Unit :=
  match ctx.resources.menu? value with
  | none => fail (.missingResource "menu" value)
  | some tree => inflateItems ctx value self tree.count [(tree, none)]

/-- The menus that an operation works on, ascending. -/
def menusOf (solution : Solution) (op : NodeId) : List NodeId :=
  (Std.TreeSet.ofList (solution.optionsMenus.image op ++ solution.contextMenus.image op)).toList

/-- Inflates the menu resources that reach operations. -/
def inflateMenus (ctx : Context) : Solving Unit := do
  (← getSolution).menuIds.rows.forM fun (op, ids) => do
    let menus := menusOf (← getSolution) op
    ids.forM fun id => do
      let some (_, value) := ((← getGraph).kind id).idValue? | return
      menus.forM (inflateMenu ctx value)

end WidgetFlow.Solving
