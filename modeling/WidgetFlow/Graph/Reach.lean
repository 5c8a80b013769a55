import WidgetFlow.Closure
import WidgetFlow.Graph.Basic

/-!
# Reachability

What flows where, and what contains what. An operation on the way is met but not passed: what it
gives is only known once it has been resolved. No more nodes have steps than there are edges or
links, so these bound the rounds of a search.
-/

namespace WidgetFlow.FlowGraph

/-- One step forward in a search from `start`: an operation is passed only if the search began at
it. -/
def forwardStep (graph : FlowGraph) (start id : NodeId) : List NodeId :=
  if graph.isOp id && id != start then [] else graph.successors id

/-- The nodes that a node flows to, itself included. -/
def forwardReachable (graph : FlowGraph) (start : NodeId) : NodeSet :=
  closure (graph.forwardStep start) (graph.edges.size + 1) [start]

/-- One step backward in a search from `start`: operations are met only if the search did not begin
at one, and are never passed unless it did. -/
def backwardStep (graph : FlowGraph) (start id : NodeId) : List NodeId :=
  if graph.isOp id && id != start then []
  else if graph.isOp start then (graph.predecessors id).filter fun source => !graph.isOp source
  else graph.predecessors id

/-- The nodes that flow to a node, itself included. -/
def backwardReachable (graph : FlowGraph) (start : NodeId) : NodeSet :=
  closure (graph.backwardStep start) (graph.edges.size + 1) [start]

/-- The nodes that a node contains at any depth, itself included. -/
def descendants (graph : FlowGraph) (start : NodeId) : NodeSet :=
  closure graph.children (graph.links.size + 1) [start]

/-- The nodes that contain a node at any depth, itself included. -/
def ancestors (graph : FlowGraph) (start : NodeId) : NodeSet :=
  closure graph.parents (graph.links.size + 1) [start]

end WidgetFlow.FlowGraph
