import WidgetFlow.Proofs.Outcome
import WidgetFlow.Proofs.Wiring.Stages

/-!
# Calls that are bound

A call that no form of operation takes is bound to every method that it may reach
(`CallSite.Reaches`). The graph of the program has all the edges of that (`BindsCall`), as nothing
that comes later takes one away.
-/

namespace WidgetFlow

open Analysis FlowGraph Platform

/-! ## The methods that a call may reach -/

/-- No form of operation takes the call, whatever the graph is. -/
def CallSite.IsPlain (ctx : Context) (here : CallSite) : Prop :=
  ∀ s, (Wiring.takeOperation ctx here).Gives s fun taken _ => taken = false

/-- A call may reach a method. A call that is not dispatched reaches what the class that it names has
for the subsignature, if that is a class of the application; any other call what the classes have
that objects of the application in the receiver may be of. -/
inductive CallSite.Reaches (ctx : Context) (here : CallSite) (callee : MethodId) : Prop
  | named (hkind : here.call.kind = .static ∨ here.call.kind = .special)
      (happlication : ctx.hierarchy.isApplication here.call.method.owner)
      (hdispatch : ctx.hierarchy.dispatchToApp? here.subsig here.call.method.owner = some callee)
  | dispatched (hkind : here.call.kind = .virtual ∨ here.call.kind = .interface) {base : String}
      (hbase : here.call.base = some base) {declared : String}
      (hdeclared : ctx.varClass? here.method base = some declared) {info : ClassInfo}
      (hinfo : info ∈ ctx.hierarchy.applicationClasses) (hconcrete : info.isConcrete)
      (hsubclass : ctx.hierarchy.isSubclassOf info.name declared)
      (hdispatch : ctx.hierarchy.dispatchToApp? here.subsig info.name = some callee)

variable {ctx : Context} {here : CallSite} {callee : MethodId}

theorem Context.mem_callTargets : callee ∈ ctx.callTargets here ↔ here.Reaches ctx callee := by
  unfold callTargets
  simp only [Std.TreeSet.mem_toList, Std.TreeSet.mem_ofList, List.contains_iff_mem,
    List.mem_filterMap]
  constructor
  · rintro ⟨owner, howner, hdispatch⟩
    have hnamed : (here.call.kind = .static ∨ here.call.kind = .special) →
        owner ∈ (if ctx.hierarchy.isApplication here.call.method.owner then
          [here.call.method.owner] else []) → here.Reaches ctx callee := by
      intro hkind howner
      split at howner
      next happlication =>
        rw [List.mem_singleton] at howner
        exact .named hkind happlication (howner ▸ hdispatch)
      next => exact absurd howner List.not_mem_nil
    have hdispatched : (here.call.kind = .virtual ∨ here.call.kind = .interface) →
        ∀ declared, here.receiverClass? ctx = some declared →
          owner ∈ ctx.hierarchy.concreteAppSubtypes declared → here.Reaches ctx callee := by
      intro hkind declared hreceiver howner
      obtain ⟨base, hbase, hdeclared⟩ := Option.bind_eq_some_iff.mp hreceiver
      obtain ⟨info, hinfo, rfl⟩ := List.mem_map.mp howner
      obtain ⟨hinfo, hselect⟩ := List.mem_filter.mp hinfo
      obtain ⟨hconcrete, hsubclass⟩ := Bool.and_eq_true_iff.mp hselect
      exact .dispatched hkind hbase hdeclared hinfo hconcrete hsubclass hdispatch
    cases hkind : here.call.kind <;> simp only [hkind] at howner
    case static => exact hnamed (.inl hkind) howner
    case special => exact hnamed (.inr hkind) howner
    all_goals
      split at howner
      next declared hreceiver =>
        exact hdispatched (by simp [hkind]) declared hreceiver howner
      next => exact absurd howner List.not_mem_nil
  · intro h
    cases h with
    | named hkind happlication hdispatch =>
      refine ⟨here.call.method.owner, ?_, hdispatch⟩
      rcases hkind with hkind | hkind <;> simp [hkind, happlication]
    | @dispatched hkind base hbase declared hdeclared info hinfo hconcrete hsubclass hdispatch =>
      refine ⟨info.name, ?_, hdispatch⟩
      have hreceiver : here.receiverClass? ctx = some declared := by
        rw [CallSite.receiverClass?, hbase, Option.bind_some, hdeclared]
      have hmem : info.name ∈ ctx.hierarchy.concreteAppSubtypes declared := by
        refine List.mem_map_of_mem (List.mem_filter.mpr ⟨hinfo, ?_⟩)
        rw [hconcrete, hsubclass]
        rfl
      rcases hkind with hkind | hkind <;> simp [hkind, hreceiver, hmem]

/-! ## Bound calls -/

theorem Wiring.brings_wireCall_of_plain (hhere : here.Stands ctx) (hplain : here.IsPlain ctx)
    (hreaches : here.Reaches ctx callee) (hconcrete : (ctx.scene.method callee).isConcrete) :
    Brings (fun st => BindsCall ctx here callee st.graph) (wireCall ctx here) := by
  have htake : Wires ctx (takeOperation ctx here) := fun _ => builds_takeOperation hhere
  have hnote : Wires ctx (noteCalls ctx here) := fun _ => builds_noteCalls hhere
  intro s hs
  unfold wireCall
  refine gives_bind.mpr (((htake.gives_steps hs).and (hplain s)).weaken ?_)
  rintro _ middle ⟨⟨hmiddle, _⟩, rfl⟩
  rw [if_pos Bool.not_false]
  refine (Brings.after hnote fun _ => ?_) middle hmiddle
  refine .forM_of_mem (Context.mem_callTargets.mpr hreaches) (lasts_graph ctx BindsCall.mono)
    (fun _ _ _ => (builds_bindCall hhere).upholds) (.of_ensures ctx fun _ => ?_)
  exact (builds_bindCall hhere).weaken fun _ _ _ hbinds => hbinds hconcrete

/-- What a call that is bound to a method gives the graph stays in it. -/
theorem Context.Passes.bindsCall {wired : Progress Wiring.Notes} (h : ctx.Passes wired)
    (hwalked : here.Walked ctx) (hplain : here.IsPlain ctx) (hreaches : here.Reaches ctx callee)
    (hconcrete : (ctx.scene.method callee).isConcrete) :
    BindsCall ctx here callee ctx.walked.graph := by
  have hrecorded : BindsCall ctx here callee ctx.recorded.graph := by
    refine h.of_stmt (fun st => BindsCall ctx here callee st.graph) hwalked.method_mem
      hwalked.stmt_eq (Wiring.lasts_graph ctx BindsCall.mono) ?_
    unfold Wiring.wireStmt
    rw [hwalked.call_eq]
    exact Wiring.brings_wireCall_of_plain hwalked.stands hplain hreaches hconcrete
  exact hrecorded.mono h.extends_walked

/-! ## A sample program -/

namespace Sample

/-- An object passes a view through a method of its own. -/
def relayScene : Scene where
  classes := [{ name := "app.Relay" }]
  methods := #[
    { sig := {
        owner := "app.Relay"
        result := .void
        name := "run"
        params := [] }
      locals := .ofList [("this", .ref "app.Relay"), ("v", view), ("w", view)]
      body := [
        .identity "this" .this,
        .assign (.var "w") (.call (call "this" "app.Relay" "pass" view [view] [.var "v"]))] },
    { sig := {
        owner := "app.Relay"
        result := view
        name := "pass"
        params := [view] }
      locals := .ofList [("this", .ref "app.Relay"), ("p", view)]
      body := [.identity "this" .this, .identity "p" (.parameter 0), .ret (some (.var "p"))] }]

def relay : Context where
  scene := relayScene
  hierarchy := {
    classes := Hierarchy.enter {} (relayScene.classes.map (.ofDecl relayScene))
    application := ["app.Relay"] }
  resources := { sys := {}, sysLayouts := {} }

def relayed : CallSite where
  site := { method := 0, index := 1 }
  stmt := .assign (.var "w") (.call (call "this" "app.Relay" "pass" view [view] [.var "v"]))
  call := call "this" "app.Relay" "pass" view [view] [.var "v"]

theorem relayed_walked : relayed.Walked relay where
  method_mem := by decide +kernel
  stmt_eq := rfl
  call_eq := rfl

theorem relayed_isPlain : relayed.IsPlain relay := by
  have hplain : Wiring.takeOperation relay relayed = pure false :=
    Wiring.takeOperation_of_not_mem (by decide +kernel) (by decide +kernel)
  exact fun _ => hplain ▸ gives_pure.mpr rfl

theorem relayed_reaches : relayed.Reaches relay 1 := by
  rw [← Context.mem_callTargets]
  decide +kernel

end Sample

namespace Context

/-- Every call of the application that is no operation is bound to every method with a body that it
may reach. -/
theorem calls_bound (h : ctx.wire.1 = .ok ()) (hwalked : here.Walked ctx)
    (hplain : here.IsPlain ctx) (hreaches : here.Reaches ctx callee)
    (hconcrete : (ctx.scene.method callee).isConcrete) :
    BindsCall ctx here callee ctx.wire.2.graph := by
  have hpasses := passes h
  exact (hpasses.bindsCall hwalked hplain hreaches hconcrete).mono hpasses.extends_wired

/-- In the sample, the object and the view flow into the method, and its result flows back. -/
theorem calls_bound_relay :
    Sample.relay.wire.1 = .ok () ∧
      Sample.relay.wire.2.graph.Connects (.var (.named 0 "this")) (.var (.named 1 "this")) ∧
      Sample.relay.wire.2.graph.Connects (.var (.named 0 "v")) (.var (.named 1 "p")) ∧
      Sample.relay.wire.2.graph.Connects (.var (.named 1 "p")) (.var (.named 0 "w")) := by
  have hwire : Sample.relay.wire.1 = .ok () := by decide +kernel
  have hbinds : BindsCall Sample.relay Sample.relayed 1 Sample.relay.wire.2.graph :=
    calls_bound hwire Sample.relayed_walked Sample.relayed_isPlain Sample.relayed_reaches
      (by decide +kernel)
  refine ⟨hwire, ?_, ?_, ?_⟩
  · exact hbinds.receiver "this" "this" rfl rfl (by decide +kernel) (by decide +kernel)
  · exact hbinds.args 0 (.var "v") "p" _ rfl nofun (by decide +kernel) (by decide +kernel) rfl
  · refine hbinds.result "w" (.var "p") _ (fun position hposition => ?_) rfl (by decide +kernel)
      (List.mem_singleton.mpr rfl) rfl
    have hzero : position = 0 := Nat.lt_one_iff.mp hposition
    rw [hzero]
    decide +kernel

end Context

end WidgetFlow
