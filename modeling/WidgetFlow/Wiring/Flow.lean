import WidgetFlow.Wiring.Operations

/-!
# Flow through calls, assignments and arrays

A call that is not an operation binds its arguments to the parameters of every method of the
program that it may reach, and what these return to the local that gets its result. An assignment
is one flow edge. The elements of an array are not told apart: what is written to an array flows to
everything that is read from it.
-/

namespace WidgetFlow

/-- The methods of the program that a call may reach, ascending. -/
def Context.callTargets (ctx : Context) (here : CallSite) : List MethodId :=
  let owners := match here.call.kind with
    | .static | .special =>
      if ctx.hierarchy.isApplication here.call.method.owner then [here.call.method.owner] else []
    | .virtual | .interface =>
      match here.receiverClass? ctx with
      | some declared => ctx.hierarchy.concreteAppSubtypes declared
      | none => []
  (Std.TreeSet.ofList (owners.filterMap (ctx.hierarchy.dispatchToApp? here.subsig))).toList

namespace Wiring

open Analysis

def bindReceiver (ctx : Context) (here : CallSite) (callee : MethodId) : Wiring Unit := do
  if !here.call.isInstance then
    return
  let some base := here.call.base | return
  let some this := (ctx.scene.method callee).thisVar? | return
  if ctx.carriesFlow callee this then
    let actual ← ctx.varNode here.method base
    let formal ← ctx.varNode callee this
    connect actual formal (some here.site)

/-- Lets the arguments of a call, from a position on, flow to the parameters of a method. Says
whether the method reads all of them; arguments after the first that it does not read are left
out. -/
def bindArgs (ctx : Context) (here : CallSite) (callee : MethodId) :
    Nat → List Value → Wiring Bool
  | _, [] => pure true
  | position, actual :: rest => do
    let some formal := (ctx.scene.method callee).paramVar? position | return false
    if ctx.carriesFlow callee formal then
      let formal ← ctx.varNode callee formal
      if let some actual ← valueNode? ctx here.site actual then
        connect actual formal (some here.site)
    bindArgs ctx here callee (position + 1) rest

/-- Lets what a method returns flow to the local that gets the result of a call. -/
def bindResult (ctx : Context) (here : CallSite) (callee : MethodId) : Wiring Unit := do
  let some result := here.result? | return
  if ctx.carriesFlow here.method result then
    let result ← ctx.varNode here.method result
    (ctx.scene.method callee).returnValues.forM fun value => do
      if let some returned ← valueNode? ctx { method := callee, index := 0 } value then
        connect returned result (some here.site)

def bindCall (ctx : Context) (here : CallSite) (callee : MethodId) : Wiring Unit := do
  if (ctx.scene.method callee).isConcrete then
    bindReceiver ctx here callee
    if ← bindArgs ctx here callee 0 here.call.args then
      bindResult ctx here callee

/-- A new object whose class has a method to run in the background is the receiver of that
method. -/
def wireRun (ctx : Context) (site : StmtId) (object : NodeId) : Value → Wiring Unit
  | .new owner => do
    let some run := ctx.scene.findMethod? owner Platform.Method.run | return
    connect? object (← ctx.thisNode? run) (some site)
  | _ => pure ()

/-- Wires an assignment. An access to an array is noted. -/
def wireAssign (ctx : Context) (site : StmtId) (target value : Value) : Wiring Unit := do
  if !(ctx.scene.valueTy? site.method target).any Ty.carriesFlow then
    return
  match target, value with
  | .element base _, _ =>
    let base ← ctx.varNode site.method base
    modifyNotes fun notes => { notes with arrayWrites := notes.arrayWrites.add base site }
  | _, .element base _ =>
    let base ← ctx.varNode site.method base
    modifyNotes fun notes => { notes with arrayReads := notes.arrayReads.add base site }
  | _, _ =>
    let targetNode ← valueNode? ctx site target
    let sourceNode ← valueNode? ctx site value
    match targetNode, sourceNode with
    | some targetNode, some sourceNode =>
      connect sourceNode targetNode (some site)
      wireRun ctx site sourceNode value
    | _, _ => pure ()

/-! ## Arrays -/

def isFlatArray : NodeKind → Bool
  | .alloc (.array (.array _)) _ _ => false
  | .alloc (.array _) _ _ => true
  | _ => false

/-- The noted statements that access an array through one of some variables, ascending. -/
def accesses (noted : Relation NodeId StmtId) (vars : List NodeId) : List StmtId :=
  (Std.TreeSet.ofList (vars.flatMap noted.image)).toList

/-- Lets what is written to an array flow to what is read from it. -/
def wireArray (ctx : Context) (alloc : NodeId) : Wiring Unit := do
  let graph ← getGraph
  if !isFlatArray (graph.kind alloc) then
    return
  let notes ← getNotes
  let vars := (graph.forwardReachable alloc).toList.filter fun id => (graph.kind id).isVar
  let reads := accesses notes.arrayReads vars
  (accesses notes.arrayWrites vars).forM fun write => do
    let some (.assign _ value) := ctx.scene.stmt? write | return
    let some written ← valueNode? ctx write value | return
    reads.forM fun read => do
      connect? written (← definedNode? ctx read) none

/-- Lets what is written to arrays flow to what is read from them. -/
def wireArrays (ctx : Context) : Wiring Unit := do
  (← getGraph).allocs.forM (wireArray ctx)

end Wiring

end WidgetFlow
