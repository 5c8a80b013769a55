import WidgetFlow.Context
import WidgetFlow.Graph.Reach

/-!
# The state of an analysis

An analysis builds up a graph, records findings under a policy and keeps notes of its own. If it
stops with an error, the state at that point is still there, with all that was found before.

Every step of an analysis is put together from the few actions of this module.
-/

namespace WidgetFlow

/-- The state of an analysis that keeps notes of a certain type. -/
structure Progress (Notes : Type) where
  graph : FlowGraph := {}
  policy : Policy := {}
  notes : Notes

/-- A part of an analysis, which changes the state and may stop with an error. -/
abbrev Analysis (Notes : Type) := ExceptT AnalysisError (StateM (Progress Notes))

namespace Analysis

variable {Notes α : Type}

/-- The outcome of a part of an analysis from a state, with the state that it ends in. -/
def outcome (part : Analysis Notes α) (start : Progress Notes) :
    Except AnalysisError α × Progress Notes :=
  part.run.run start

/-! ## The graph -/

def getGraph : Analysis Notes FlowGraph := do return (← get).graph

def onGraph (change : FlowGraph → α × FlowGraph) : Analysis Notes α :=
  modifyGet fun ⟨graph, policy, notes⟩ =>
    let (result, graph) := change graph
    (result, ⟨graph, policy, notes⟩)

def modifyGraph (change : FlowGraph → FlowGraph) : Analysis Notes Unit :=
  onGraph fun graph => ((), change graph)

/-- Adds a flow edge and says whether it is new. -/
def addEdge (source target : NodeId) (site : Option StmtId) : Analysis Notes Bool :=
  onGraph (FlowGraph.addEdge source target site)

/-- Makes sure that there is a flow edge. -/
def connect (source target : NodeId) (site : Option StmtId) : Analysis Notes Unit :=
  modifyGraph fun graph => (graph.addEdge source target site).2

/-- Makes sure that there is a flow edge to a node that may be missing. -/
def connect? (source : NodeId) (target : Option NodeId) (site : Option StmtId) :
    Analysis Notes Unit :=
  modifyGraph (FlowGraph.addEdge? (some source) target site)

def addOp (op : Op) : Analysis Notes NodeId := onGraph (FlowGraph.addOp op)

/-- A new variable of a class. -/
def makeVar (owner : String) : Analysis Notes NodeId := onGraph (FlowGraph.makeVar (.ref owner))

def idNode (kind : IdKind) (value : ResId) : Analysis Notes NodeId :=
  onGraph (FlowGraph.idNode kind value)

/-- Puts a node into another and says whether it was not there. -/
def addLink (child parent : NodeId) : Analysis Notes Bool := do
  match (← getGraph).addLink child parent with
  | .ok (added, graph) => onGraph fun _ => (added, graph)
  | .error error => throw error

/-! ## Findings and notes -/

def gap (message : String) : Analysis Notes Unit :=
  modify fun state => { state with policy := state.policy.gap message }

/-- Takes the policy that a report leaves, or stops with its error. -/
def report (result : Except AnalysisError Policy) : Analysis Notes Unit :=
  match result with
  | .ok policy => modify fun state => { state with policy }
  | .error error => throw error

/-- Reports an error, which stops the analysis if violations are fatal. -/
def fail (error : AnalysisError) : Analysis Notes Unit := do
  report ((← get).policy.fail error)

/-- Reports a violation, which stops the analysis if violations are fatal. -/
def violation (message : String) : Analysis Notes Unit := do
  report ((← get).policy.violation message)

def getNotes : Analysis Notes Notes := do return (← get).notes

def modifyNotes (change : Notes → Notes) : Analysis Notes Unit :=
  modify fun state => { state with notes := change state.notes }

end Analysis

/-! ## Nodes of locals -/

namespace Context

variable {Notes : Type}

open Analysis

def varNode (ctx : Context) (method : MethodId) (name : String) : Analysis Notes NodeId :=
  onGraph (FlowGraph.varNode (.named method name) (ctx.scene.varTy? method name))

def varNode? (ctx : Context) (method : MethodId) : Option String → Analysis Notes (Option NodeId)
  | some name => some <$> ctx.varNode method name
  | none => pure none

/-- The node of the local that holds the receiver of a method. -/
def thisNode? (ctx : Context) (method : MethodId) : Analysis Notes (Option NodeId) :=
  ctx.varNode? method (ctx.scene.method method).thisVar?

def paramNode? (ctx : Context) (method : MethodId) (index : Nat) : Analysis Notes (Option NodeId) :=
  ctx.varNode? method ((ctx.scene.method method).paramVar? index)

end Context

end WidgetFlow
