import WidgetFlow.Graph.Basic
import WidgetFlow.Hierarchy

/-!
# Slots of operations

An object reaches a slot of an operation only if the declared type of the variable in that slot
admits it.
-/

namespace WidgetFlow

/-- A slot of an operation. -/
inductive OpSlot where
  | parameter
  | receiver
  | result
  deriving DecidableEq, Repr, Inhabited

def Op.slot (op : Op) : OpSlot → Option NodeId
  | .parameter => op.parameter
  | .receiver => op.receiver
  | .result => op.result

/-- Whether an object may be held by something of a declared type. Without a declared type anything
may, and nothing may be held by a type that is not a class. -/
def Hierarchy.admitsAs (hierarchy : Hierarchy) (declared : Option Ty) (object : NodeKind) : Bool :=
  match declared with
  | none => true
  | some ty =>
    match ty.className?, object.owner? with
    | some declared, some owner => hierarchy.isCompatible declared owner
    | _, _ => false

/-- Whether an object may flow into a slot of an operation. A slot without a variable admits
everything. -/
def Hierarchy.admits (hierarchy : Hierarchy) (graph : FlowGraph) (object op : NodeId)
    (slot : OpSlot) : Bool :=
  match graph.op? op with
  | none => false
  | some found =>
    match found.slot slot with
    | none => true
    | some target => hierarchy.admitsAs (graph.varTy? target) (graph.kind object)

end WidgetFlow
