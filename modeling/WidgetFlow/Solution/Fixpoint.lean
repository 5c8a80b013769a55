import WidgetFlow.Solution.Resolution

/-!
# Solving a graph

`solve` finds the solution of a flow graph: it records what the constants reach, inflates all
resources, and then passes over the operations until a pass changes nothing.
-/

namespace WidgetFlow.Solving

open Analysis

/-- One pass over some operations in order, and whether it changed anything. -/
def sweep (ctx : Context) (ops : List NodeId) : Solving Bool :=
  ops.foldlM (fun changed op => do
    let more ← visit ctx op
    pure (changed || more)) false

/-- One pass over all operations, and whether it changed anything. -/
def pass (ctx : Context) : Solving Bool := do
  modifySolution fun solution => { solution with iterations := solution.iterations + 1 }
  sweep ctx (← getGraph).ops

/-- Passes over all operations until one changes nothing, at most the given number. -/
def settle (ctx : Context) : Nat → Solving Unit
  | 0 => pure ()
  | passes + 1 => do
    if ← pass ctx then
      settle ctx passes

/-- A number of passes that is enough. Every pass but the last binds a view and a listener at a
registration, fills one of four slots of an operation with one more node, puts a node into another,
or names a node. All of this is about nodes that are already there. -/
def passBound (graph : FlowGraph) : Nat :=
  let size := graph.nodes.size
  size * size * size + 5 * (size * size) + size + 1

/-- Records what the constants, the windows and the menus reach, and inflates all resources. -/
def prepare (ctx : Context) : Solving Unit := do
  arriveConstants
  arriveWindows
  arriveMenus
  tracePaths ctx
  inflateLayouts ctx
  inflateMenus ctx

/-- Finds the solution of a graph. -/
def solve (ctx : Context) : Solving Unit := do
  prepare ctx
  settle ctx (passBound (← getGraph))

end WidgetFlow.Solving
