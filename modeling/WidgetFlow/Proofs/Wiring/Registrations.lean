import WidgetFlow.Proofs.Listening
import WidgetFlow.Proofs.Wiring.Noting

/-!
# Registrations in the graph of a program

The wiring gives handlers only to registrations that it marks as bound; all others come from calls
that register a listener and are still without handlers. `Registered` says so of a state of the
wiring. Every step of the wiring keeps it (`Step.registered`), hence the graph of a program has it
(`Context.registered_wire`).
-/

namespace WidgetFlow

open Analysis FlowGraph

/-! ## Changes that leave operations alone -/

namespace FlowGraph

/-- The operations, the handlers and the marks of registrations are the same. -/
structure SameOps (old new : FlowGraph) : Prop where
  op?_eq : ∀ id, new.op? id = old.op? id
  prebound_eq : new.prebound = old.prebound
  bindings_eq : new.bindings = old.bindings

variable {g old middle new : FlowGraph} {handler : Handler}

theorem SameOps.refl (g : FlowGraph) : SameOps g g := ⟨fun _ => rfl, rfl, rfl⟩

theorem SameOps.trans (h : SameOps old middle) (h' : SameOps middle new) : SameOps old new :=
  ⟨fun id => (h'.op?_eq id).trans (h.op?_eq id), h'.prebound_eq.trans h.prebound_eq,
    h'.bindings_eq.trans h.bindings_eq⟩

theorem sameOps_add {kind : NodeKind} (hop : kind.isOp = false) :
    SameOps g (add kind g).2 := by
  refine ⟨fun id => ?_, rfl, rfl⟩
  rw [op?, kind_add]
  split
  next hid =>
    have hnone : kind.op? = none := by cases kind <;> simp_all [NodeKind.isOp, NodeKind.op?]
    rw [hnone, hid, op?, kind_of_size_le (Nat.le_refl _)]
    rfl
  next => rfl

theorem sameOps_share {kind : NodeKind} (hop : kind.isOp = false) :
    SameOps g (share kind g).2 := by
  rcases g.share_cases kind with ⟨_, _, _, _, h⟩ | h <;> rw [h]
  · exact .refl g
  · exact sameOps_add hop

theorem sameOps_varNode {var : Var} {ty : Option Ty} {n : NodeId}
    (h : varNode var ty old = (n, new)) : SameOps old new := by
  have hshare : SameOps old (varNode var ty old).2 := sameOps_share rfl
  rwa [h] at hshare

theorem sameOps_makeVar {ty : Ty} : SameOps g (makeVar ty g).2 := by
  have hshare : SameOps { g with made := g.made + 1 } (makeVar ty g).2 :=
    sameOps_share rfl
  exact ⟨hshare.op?_eq, hshare.prebound_eq, hshare.bindings_eq⟩

theorem sameOps_addEdge (src dst : NodeId) (site : Option StmtId) :
    SameOps g (addEdge src dst site g).2 := by
  rw [addEdge_eq]
  exact ⟨fun _ => rfl, rfl, rfl⟩

theorem sameOps_modifyKind {change : NodeKind → NodeKind} (n : NodeId)
    (hchange : ∀ kind, (change kind).core = kind.core) :
    SameOps g (modifyKind n change g) :=
  ⟨(develops_modifyKind n hchange).op?_eq, rfl, rfl⟩

theorem sameOps_contextMenuNode (filler : MethodId) (menuParam view : NodeId) :
    SameOps g (contextMenuNode filler menuParam view g).2 := by
  have hshare : SameOps g (share (.contextMenu filler menuParam []) g).2 :=
    sameOps_share rfl
  unfold contextMenuNode
  refine hshare.trans (.trans ?_ (sameOps_modifyKind _ (core_registerView view)))
  split
  · exact sameOps_addEdge ..
  · exact .refl _

/-- Adding an operation leaves the others alone. -/
theorem op?_addOp (op : Op) (id : NodeId) :
    (addOp op g).2.op? id = if id = g.nodes.size then some op else g.op? id := by
  rw [op?, (addsOp_addOp op).kind_eq]
  split <;> rfl

theorem prebound_addOp (op : Op) :
    (addOp op g).2.prebound = g.prebound ∧
      (addOp op g).2.bindings = g.bindings := by
  unfold addOp
  dsimp only
  rw [addEdge?_eq, addEdge?_eq, addEdge?_eq]
  exact ⟨rfl, rfl⟩

theorem op?_markPrebound (op id : NodeId) : (markPrebound op g).op? id = g.op? id := by
  unfold markPrebound
  split <;> rfl

theorem bindings_markPrebound (op : NodeId) :
    (markPrebound op g).bindings = g.bindings := by
  unfold markPrebound
  split <;> rfl

theorem isPrebound_markPrebound {op id : NodeId} :
    (markPrebound op g).isPrebound id ↔ id = op ∨ g.isPrebound id := by
  unfold markPrebound isPrebound
  split
  next hop => simp_all
  next => simp [Array.mem_push, or_comm]

theorem isPrebound_install {op : Op} {id : NodeId} :
    (g.install op handler).isPrebound id ↔ id = g.nodes.size ∨ g.isPrebound id := by
  have hmark : (markPrebound g.nodes.size (addOp op g).2).isPrebound id ↔
      id = g.nodes.size ∨ (addOp op g).2.isPrebound id := isPrebound_markPrebound
  have hadd : (addOp op g).2.isPrebound id = g.isPrebound id := by
    rw [isPrebound, (prebound_addOp op).1, isPrebound]
  rw [← hadd, ← hmark]
  unfold install bindHandler
  dsimp only
  split <;> exact Iff.rfl

end FlowGraph

/-! ## The invariant -/

namespace Wiring

variable {ctx : Context} {permit : Permit} {bindable : NodeId → Prop} {old new : FlowGraph × Notes}

/-- Registrations that are not marked as bound come from calls that register a listener and have no
handlers; those that are noted for later, and those that may get handlers, are marked. -/
structure Registered (ctx : Context) (bindable : NodeId → Prop) (st : FlowGraph × Notes) :
    Prop where
  matched : ∀ op found, st.1.op? op = some found → found.kind.isSetListener →
    st.1.isPrebound op ∨ (ctx.registered? st.1 op).isSome
  deferred : ∀ registration ∈ st.2.registrations, st.1.isPrebound registration.op
  bound : ∀ binding ∈ st.1.bindings, st.1.isPrebound binding.1
  marked : ∀ op, bindable op → st.1.isPrebound op

namespace Registered

variable {g g' : FlowGraph} {ns ns' : Notes}

theorem empty (ctx : Context) : Registered ctx (fun _ => False) ({}, {}) where
  matched op found hop := by
    rw [op?, kind_of_size_le (Nat.zero_le op)] at hop
    exact absurd hop (Option.some_ne_none found).symm
  deferred := nofun
  bound binding h := by simp at h
  marked _ := nofun

/-- A graph may grow if it keeps all marks, marks new registrations or knows their calls, and gives
handlers only to registrations that are marked. -/
theorem grow (h : Registered ctx bindable (g, ns))
    (hmarks : ∀ id, g.isPrebound id → g'.isPrebound id)
    (hops : ∀ id found, g'.op? id = some found → found.kind.isSetListener →
      g.op? id = some found ∨ g'.isPrebound id ∨ (ctx.registered? g' id).isSome)
    (hbindings : ∀ binding ∈ g'.bindings,
      binding ∈ g.bindings ∨ g'.isPrebound binding.1)
    (hnotes : ∀ registration ∈ ns'.registrations,
      registration ∈ ns.registrations ∨ g'.isPrebound registration.op) :
    Registered ctx bindable (g', ns') where
  matched op found hop hkind := by
    rcases hops op found hop hkind with hold | hnew
    · refine (h.matched op found hold hkind).imp (hmarks op) fun hregistered => ?_
      rwa [Context.registered?, hop, ← hold]
    · exact hnew
  deferred registration hregistration :=
    (hnotes registration hregistration).elim
      (fun hold => hmarks _ (h.deferred registration hold)) id
  bound binding hbinding :=
    (hbindings binding hbinding).elim (fun hold => hmarks _ (h.bound binding hold)) id
  marked op hop := hmarks op (h.marked op hop)

theorem same (h : Registered ctx bindable (g, ns)) (hops : SameOps g g')
    (hnotes : ns'.registrations = ns.registrations) :
    Registered ctx bindable (g', ns') :=
  h.grow (fun id hmark => by rwa [isPrebound, hops.prebound_eq])
    (fun id _ hop _ => .inl ((hops.op?_eq id).symm.trans hop))
    (fun _ hbinding => .inl (hops.bindings_eq ▸ hbinding))
    fun _ hregistration => .inl (hnotes ▸ hregistration)

/-- A new operation, which is no registration or comes from a call that registers a listener. -/
theorem addOp (h : Registered ctx bindable (g, ns)) {op : Op}
    (hop : op.kind.isSetListener →
      ((op.site.bind ctx.call?).bind ctx.hierarchy.registration?).isSome) :
    Registered ctx bindable ((g.addOp op).2, ns) := by
  obtain ⟨hprebound, hbindings⟩ := g.prebound_addOp op
  refine h.grow (fun id hmark => ?_) (fun id found hfound hkind => ?_)
    (fun binding hbinding => .inl (hbindings ▸ hbinding)) fun _ => .inl
  · rwa [isPrebound, hprebound]
  · rw [Context.registered?, hfound]
    rw [op?_addOp] at hfound
    split at hfound
    next =>
      cases hfound
      have hcall := hop hkind
      rw [Option.bind_assoc] at hcall
      exact .inr (.inr hcall)
    next => exact .inl hfound

end Registered

theorem Step.registered (h : Step ctx permit old new) (hold : Registered ctx permit.binds old) :
    Registered ctx permit.binds new := by
  cases h with
  | share hop => exact hold.same (sameOps_share hop) rfl
  | item owner attrs => exact hold.same (sameOps_add rfl) rfl
  | synthetic handler g =>
    have hadd : SameOps { g with synthetics := g.synthetics.push handler }
        (g.addSynthetic handler).2 := sameOps_add rfl
    exact hold.same ⟨hadd.op?_eq, hadd.prebound_eq, hadd.bindings_eq⟩ rfl
  | makeVar => exact hold.same sameOps_makeVar rfl
  | window => exact hold.same (.trans sameOps_makeVar (sameOps_addEdge ..)) rfl
  | edge => exact hold.same (sameOps_addEdge ..) rfl
  | name n id => exact hold.same ⟨(develops_setId n id).op?_eq, rfl, rfl⟩ rfl
  | cancelable dialog v =>
    exact hold.same (sameOps_modifyKind dialog fun kind => by cases kind <;> rfl) rfl
  | contextMenu => exact hold.same (sameOps_contextMenuNode ..) rfl
  | note h | shown _ h => exact hold.same (.refl _) h.registrations
  | write _ hvar | read _ hvar => exact hold.same (sameOps_varNode hvar) rfl
  | alert =>
    refine (hold.same (.trans (sameOps_share rfl) (.trans sameOps_makeVar (sameOps_addEdge ..)))
      ?_).addOp ?_
    · rfl
    · nofun
  | bare => exact hold.same (.refl _) rfl
  | fill => refine ((hold.same sameOps_makeVar rfl).addOp ?_).addOp ?_ <;> nofun
  | operation hkind => exact hold.addOp fun hset => absurd hset (by simp [hkind])
  | register _ hsite hcall =>
    refine hold.addOp fun _ => ?_
    rw [hsite, Option.bind_some, hcall]
    rfl
  | defer =>
    refine hold.grow (fun id hmark => isPrebound_markPrebound.mpr (.inr hmark))
      (fun id found hop _ => .inl ?_) (fun binding hbinding => .inl ?_) fun noted hnoted => ?_
    · rwa [op?_markPrebound] at hop
    · rwa [bindings_markPrebound] at hbinding
    · rcases List.mem_append.mp hnoted with hold | hnew
      · exact .inl hold
      · rw [List.mem_singleton.mp hnew]
        exact .inr (isPrebound_markPrebound.mpr (.inl rfl))
  | install =>
    refine hold.grow (fun id hmark => isPrebound_install.mpr (.inr hmark))
      (fun id found hop _ => ?_) (fun binding hbinding => ?_) fun _ => .inl
    · rw [FlowGraph.install, (ties_bindHandler _ _).op?_eq, op?_markPrebound, op?_addOp] at hop
      split at hop
      next hid => exact .inr (.inl (isPrebound_install.mpr (.inl hid)))
      next => exact .inl hop
    · rw [FlowGraph.install, (ties_bindHandler _ _).bindings_iff, bindings_markPrebound,
        (prebound_addOp _).2] at hbinding
      rcases hbinding with rfl | hold
      · exact .inr (isPrebound_install.mpr (.inl rfl))
      · exact .inl hold
  | @bind op hop handler g ns =>
    have hties : Ties _ _ g (g.bindHandler op (.method handler)).2 :=
      ties_bindHandler op (.method handler)
    refine hold.grow (fun id hmark => ?_) (fun id found hfound _ => .inl ?_)
      (fun binding hbinding => ?_) fun _ => .inl
    · rwa [isPrebound, hties.prebound_eq]
    · rwa [hties.op?_eq] at hfound
    · rcases (hties.bindings_iff binding).mp hbinding with rfl | hbinding
      · rw [isPrebound, hties.prebound_eq]
        exact .inr (hold.marked op hop)
      · exact .inl hbinding

theorem Steps.registered {old new : Progress Notes} (h : Steps ctx permit old new)
    (hframed : old.Framed) (hold : Registered ctx permit.binds (old.graph, old.notes)) :
    Registered ctx permit.binds (new.graph, new.notes) :=
  h.keeps _ (fun _ hstep => hstep.registered) hframed hold

theorem gives_wireProgram (ctx : Context) (policy : Policy) :
    (wireProgram ctx).Gives ⟨{}, policy, {}⟩ fun _ t =>
      Registered ctx (fun _ => False) (t.graph, t.notes) := by
  have hframed : Progress.Framed (⟨{}, policy, {}⟩ : Progress Notes) := Context.framed_start policy
  rw [wireProgram_eq, gives_bind]
  have hparts : Upholds (Stepping ctx ⟨fun _ => False, True, True, True⟩ ⟨{}, policy, {}⟩) {}
      (wireParts ctx) := builds_wireParts trivial trivial (.inr trivial)
  refine (hparts.gives (.refl _) ⟨hframed, .refl⟩).weaken fun _ middle hsteps => ?_
  obtain ⟨_, ⟨hmiddle, hsteps⟩, _⟩ := hsteps
  have hregistered := hsteps.registered hframed (.empty ctx)
  unfold wireContextMenus
  rw [gives_bind, gives_getNotes]
  -- the noted registrations are all marked, so their handlers may be bound
  have hmenus : Upholds (Stepping ctx ⟨fun op => middle.graph.isPrebound op, True, True, True⟩
      middle) middle.graph _ := builds_wireRegistrations fun registration hmem =>
    ⟨hregistered.deferred registration hmem, hmiddle.fits.registrations registration hmem⟩
  refine (hmenus.gives (.refl _) ⟨hmiddle, .refl⟩).weaken fun _ t ht => ?_
  have ht := ht.2.1.2.registered hmiddle { hregistered with marked := fun _ => id }
  exact { ht with marked := nofun }

end Wiring

/-- In the graph of a program, registrations that are not marked as bound come from calls that
register a listener and have no handlers. -/
theorem Context.registered_wire (ctx : Context) (h : ctx.wire.1 = .ok ()) :
    Wiring.Registered ctx (fun _ => False) (ctx.wire.2.graph, ctx.wire.2.notes) := by
  refine Wiring.gives_wireProgram ctx { severity := ctx.options.severity } () ctx.wire.2 ?_
  rw [← h]
  rfl

end WidgetFlow
