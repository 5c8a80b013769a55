import WidgetFlow.Proofs.Wiring.Arrays
import WidgetFlow.Proofs.Wiring.Calls

/-!
# What nodes of new objects stand for

A new object flows to what it is assigned to, to the parameter that it is passed for, to the local
that gets it as a result, and to what is read from an array that it is written to (`Context.Flows`).
Its node has the place of the operand that creates it, so operands at different places have
different nodes, and it stands for what some operand at its place creates (`Originated`, which every
step of the wiring keeps). Where two operands at one place create objects of different classes, the
one that comes first decides for both. This happens to what a method returns, as all of it has the
first statement of the method as its place.
-/

namespace WidgetFlow

open Analysis FlowGraph Platform

theorem NodeKind.created?_core (kind : NodeKind) : kind.core.created? = kind.created? := by
  cases kind <;> rfl

/-- The place of what a node stands for, if that is created. -/
def NodeKind.madeAt? : NodeKind → Option StmtId
  | .alloc _ site _ | .dialog _ site _ | .tabSpec _ site => some site
  | _ => none

namespace Context

variable {ctx : Context} {builds : Prop} {site : StmtId} {v : Value} {ty : Ty}
variable {first second : NodeKind}

theorem valueKey?_of_created (h : v.created? = some ty) :
    ctx.valueKey? site v = some (ctx.createdKey site ty) := by
  fun_induction Value.created? v with
  | case1 owner =>
    cases h
    rfl
  | case2 item size =>
    cases h
    rfl
  | case3 _ operand ih => exact ih h
  | case4 => cases h

theorem createdKey_cases (ctx : Context) (site : StmtId) (ty : Ty) :
    ctx.createdKey site ty = .dialog site ∨ ctx.createdKey site ty = .tabSpec site ∨
      ctx.createdKey site ty = .alloc site := by
  unfold createdKey newKey
  split
  · split
    · exact .inl rfl
    · split
      · exact .inr (.inl rfl)
      · exact .inr (.inr rfl)
  · exact .inr (.inr rfl)

/-- The key of a new object tells its place. -/
theorem site_eq_of_createdKey {site' : StmtId} {ty' : Ty}
    (h : ctx.createdKey site ty = ctx.createdKey site' ty') : site = site' := by
  rcases ctx.createdKey_cases site ty with hkey | hkey | hkey <;>
    rcases ctx.createdKey_cases site' ty' with hkey' | hkey' | hkey' <;>
    · rw [hkey, hkey'] at h
      cases h
      try rfl

theorem madeAt?_of_key {kind : NodeKind} (h : kind.key? = some (ctx.createdKey site ty)) :
    kind.madeAt? = some site := by
  rcases ctx.createdKey_cases site ty with hkey | hkey | hkey <;> rw [hkey] at h <;>
    cases kind <;> cases h <;> rfl

theorem Originates.of_core (hcore : first.core = second.core) (h : ctx.Originates builds second) :
    ctx.Originates builds first := by
  have hcreated : first.created? = second.created? :=
    NodeKind.eq_of_core_eq NodeKind.created? NodeKind.created?_core hcore
  have hkey : first.key? = second.key? :=
    NodeKind.eq_of_core_eq NodeKind.key? NodeKind.key?_core hcore
  cases h with
  | plain hnone => exact .plain (hcreated.trans hnone)
  | created hcreates hty hfound => exact .created hcreates (hcreated.trans hty) (hkey.trans hfound)
  | spec hmakes hkind =>
    subst hkind
    refine .spec hmakes ?_
    cases first <;> cases hcore
    rfl
  | built hbuilds hkind =>
    subst hkind
    cases first <;> cases hcore
    exact .built hbuilds rfl

end Context

/-! ## The invariant -/

namespace FlowGraph

variable {ctx : Context} {builds : Prop} {g old new : FlowGraph} {kind : NodeKind}

/-- Every node that is created comes from what a statement creates. -/
def Originated (ctx : Context) (builds : Prop) (g : FlowGraph) : Prop :=
  ∀ id, ctx.Originates builds (g.kind id)

namespace Originated

theorem empty (ctx : Context) (builds : Prop) : Originated ctx builds {} := by
  intro id
  rw [kind_of_size_le (Nat.zero_le id)]
  exact .plain rfl

theorem same (h : Originated ctx builds old) (hg : Extends old new)
    (hsize : new.nodes.size = old.nodes.size) : Originated ctx builds new := by
  intro id
  rcases Nat.lt_or_ge id old.nodes.size with hid | hid
  · exact (h id).of_core (hg.core_eq id hid)
  · rw [kind_of_size_le (hsize ▸ hid)]
    exact .plain rfl

theorem add (h : Originated ctx builds g) (horigin : ctx.Originates builds kind) :
    Originated ctx builds (add kind g).2 := by
  intro id
  rw [kind_add]
  split
  · exact horigin
  · exact h id

theorem share (h : Originated ctx builds g) (horigin : ctx.Originates builds kind) :
    Originated ctx builds (share kind g).2 := by
  rcases g.share_cases kind with ⟨_, _, _, _, hshare⟩ | hshare <;> rw [hshare]
  · exact h
  · exact h.add horigin

theorem makeVar (h : Originated ctx builds g) (ty : Ty) :
    Originated ctx builds (makeVar ty g).2 := by
  have hmade : Originated ctx builds { g with made := g.made + 1 } := h
  exact hmade.share (.plain rfl)

theorem addEdge (h : Originated ctx builds g) (src dst : NodeId) (site : Option StmtId) :
    Originated ctx builds (addEdge src dst site g).2 := by
  rw [addEdge_eq]
  exact h

theorem addOp (h : Originated ctx builds g) (op : Op) :
    Originated ctx builds (addOp op g).2 := by
  intro id
  rw [(addsOp_addOp op).kind_eq]
  split
  · exact .plain rfl
  · exact h id

theorem contextMenuNode (h : Originated ctx builds g) (filler : MethodId)
    (menuParam view : NodeId) :
    Originated ctx builds (contextMenuNode filler menuParam view g).2 := by
  have hshare : Originated ctx builds (FlowGraph.share (.contextMenu filler menuParam []) g).2 :=
    h.share (.plain rfl)
  unfold FlowGraph.contextMenuNode
  refine same ?_ (develops_modifyKind _ (core_registerView view)).toExtends (by simp [modifyKind])
  split
  · exact hshare.addEdge _ _ _
  · exact hshare

theorem placeAlert (h : Originated ctx builds g) (dialog : NodeId) (layout : ResId)
    (site : StmtId) : Originated ctx builds (g.placeAlert dialog layout site) := by
  have hlayout : Originated ctx builds (g.idNode .layout layout).2 := h.share (.plain rfl)
  exact ((hlayout.makeVar _).addEdge _ _ _).addOp _

theorem fillFrame (h : Originated ctx builds g) (dialog id layout : NodeId) (site : StmtId) :
    Originated ctx builds (g.fillFrame dialog id layout site) :=
  ((h.makeVar _).addOp _).addOp _

theorem bindHandler (h : Originated ctx builds g) (op : NodeId) (handler : Handler) :
    Originated ctx builds (bindHandler op handler g).2 := by
  unfold FlowGraph.bindHandler
  split <;> exact h

theorem markPrebound (h : Originated ctx builds g) (op : NodeId) :
    Originated ctx builds (markPrebound op g) := by
  unfold FlowGraph.markPrebound
  split <;> exact h

end Originated

end FlowGraph

namespace Wiring

variable {ctx : Context} {permit : Permit} {old new : FlowGraph × Notes}

theorem Step.originated (h : Step ctx permit old new) (hold : Originated ctx permit.builds old.1) :
    Originated ctx permit.builds new.1 := by
  cases h with
  | share _ _ horigin => exact hold.share horigin
  | item => exact hold.add (.plain rfl)
  | synthetic handler g =>
    have hpushed : Originated ctx permit.builds
        { g with synthetics := g.synthetics.push handler } := hold
    exact hpushed.add (.plain rfl)
  | makeVar => exact hold.makeVar _
  | window => exact (hold.makeVar _).addEdge _ _ _
  | edge => exact hold.addEdge _ _ _
  | name n id =>
    exact hold.same (grafts_setId n id).toExtends (by simp [FlowGraph.setId])
  | cancelable dialog v =>
    exact hold.same (grafts_setCancelable dialog v).toExtends
      (by simp [FlowGraph.setCancelable, modifyKind])
  | contextMenu filler view => exact hold.contextMenuNode filler _ view
  | note | shown | bare => exact hold
  | write _ hvar | read _ hvar =>
    obtain rfl := congrArg Prod.snd hvar
    exact hold.share (.plain rfl)
  | alert _ site =>
    dsimp only
    exact hold.placeAlert _ _ site
  | fill site =>
    dsimp only
    exact hold.fillFrame _ _ _ site
  | operation | register => exact hold.addOp _
  | defer => exact hold.markPrebound _
  | install => exact ((hold.addOp _).markPrebound _).bindHandler _ _
  | bind => exact hold.bindHandler _ _

theorem Steps.originated {old new : Progress Notes} (h : Steps ctx permit old new)
    (hframed : old.Framed) (hold : Originated ctx permit.builds old.graph) :
    Originated ctx permit.builds new.graph :=
  h.keeps (fun st => Originated ctx permit.builds st.1) (fun _ hstep => hstep.originated)
    hframed hold

end Wiring

namespace Context

open Wiring

variable {ctx : Context} {wired : Progress Notes} {site : StmtId} {ty : Ty} {n : NodeId}

/-- No dialog is built while the program is walked. -/
theorem Passes.originated_walked (h : ctx.Passes wired) :
    Originated ctx False ctx.walked.graph := by
  have hread : Upholds (Stepping ctx .none ctx.initial) {} (readProgram ctx) :=
    builds_readProgram (.inr trivial)
  have harrays : Upholds (Stepping ctx .none ctx.recorded) ctx.recorded.graph (wireArrays ctx) :=
    builds_wireArrays
  have hrecorded := (hread.gives (.refl _) ⟨framed_start _, .refl⟩ _ _ h.read).2.1
  have hwalked := (harrays.gives (.refl _) ⟨hrecorded.1, .refl⟩ _ _ h.arrays).2.1
  exact hwalked.2.originated hrecorded.1
    (hrecorded.2.originated (framed_start _) (.empty ctx False))

theorem Passes.originated (h : ctx.Passes wired) : Originated ctx True wired.graph := by
  have hwalked : Originated ctx True ctx.walked.graph := by
    intro id
    cases h.originated_walked id with
    | plain hnone => exact .plain hnone
    | created hcreates hty hkey => exact .created hcreates hty hkey
    | spec hmakes hkind => exact .spec hmakes hkind
    | built hbuilds => exact hbuilds.elim
  have hframed := h.steps_walked.1
  exact (wires_wireNoted.gives_steps hframed _ _ h.finish).2.originated hframed hwalked

theorem creates_of_alloc {g : FlowGraph} {builds : Prop} {role : AllocRole}
    (h : Originated ctx builds g) (hkind : g.kind n = .alloc ty site role) :
    ctx.Creates site ty := by
  have horigin := h n
  rw [hkind] at horigin
  cases horigin with
  | plain hnone => cases hnone
  | created hcreates hty hkey =>
    cases hty
    rcases ctx.createdKey_cases _ ty with hfound | hfound | hfound <;> rw [hfound] at hkey <;>
      cases hkey
    exact hcreates
  | spec _ hspec => cases hspec
  | built _ hbuilt => cases hbuilt

/-- Nothing else is created at a place that has the same key. -/
structure Uncontested (ctx : Context) (site : StmtId) (ty : Ty) : Prop where
  operands : ∀ v other, ctx.Operand site v → v.created? = some other →
    ctx.createdKey site other = ctx.createdKey site ty → other = ty
  /-- Tab hosts make specifications of one class. -/
  specs : ctx.createdKey site ty = .tabSpec site → ctx.MakesSpec site → ty = .ref ClassName.tabSpec

/-- A node stands for an object of a type that is created at a place. The place is its own, so it
stands for nothing at another place. -/
structure StandsFor (ctx : Context) (g : FlowGraph) (n : NodeId) (site : StmtId) (ty : Ty) :
    Prop where
  madeAt : (g.kind n).madeAt? = some site
  created : ctx.Uncontested site ty → (g.kind n).created? = some ty

/-- What is found by the key of a new object stands for it. -/
theorem standsFor_of_find? {g : FlowGraph} (h : Originated ctx False g)
    (hfind : g.find? (ctx.createdKey site ty) = some n) :
    ctx.StandsFor g n site ty := by
  have hkey := (find?_some hfind).2
  refine ⟨madeAt?_of_key hkey, fun ⟨honly, hspec⟩ => ?_⟩
  cases h n with
  | plain hnone =>
    rcases ctx.createdKey_cases site ty with hfound | hfound | hfound <;>
      cases hkind : g.kind n <;>
        simp_all [NodeKind.key?, NodeKind.created?]
  | created hcreates hty hkey' =>
    have hsame := Option.some.inj (hkey'.symm.trans hkey)
    obtain rfl := site_eq_of_createdKey hsame
    obtain ⟨v, hoperand, hvalue⟩ := hcreates
    rw [hty, honly v _ hoperand hvalue hsame]
  | spec hmakes hkind =>
    rw [hkind] at hkey ⊢
    rcases ctx.createdKey_cases site ty with hfound | hfound | hfound
    · rw [hfound] at hkey
      cases hkey
    · rw [hfound] at hkey
      cases hkey
      rw [hspec hfound hmakes]
      rfl
    · rw [hfound] at hkey
      cases hkey
  | built hbuilds => exact hbuilds.elim

theorem StandsFor.mono {old new : FlowGraph} (h : ctx.StandsFor old n site ty)
    (hg : Extends old new) (hnode : n < old.nodes.size) : ctx.StandsFor new n site ty where
  madeAt := (hg.keeps NodeKind.madeAt? (fun kind => by cases kind <;> rfl) hnode).trans h.madeAt
  created hfree :=
    (hg.keeps NodeKind.created? NodeKind.created?_core hnode).trans (h.created hfree)

/-! ## Where values flow -/

end Context

/-- A call of the application that is no operation may reach a method with a body. -/
structure CallSite.Bound (ctx : Context) (here : CallSite) (callee : MethodId) : Prop where
  walked : here.Walked ctx
  isPlain : here.IsPlain ctx
  reaches : here.Reaches ctx callee
  isConcrete : (ctx.scene.method callee).isConcrete

namespace Context

open Wiring

variable {ctx : Context} {wired : Progress Notes} {site : StmtId} {v : Value}
variable {src dst : NodeKey}

/-- A value flows to the node that a key finds. The statement is what the wiring takes as the place
of the value. -/
inductive Flows (ctx : Context) : StmtId → Value → NodeKey → Prop
  | assigned {site : StmtId} {dst v : Value} {key : NodeKey}
      (hmethod : site.method ∈ walkedMethods ctx)
      (hstmt : ctx.scene.stmt? site = some (.assign dst v))
      (hcall : (Stmt.assign dst v).call? = none)
      (hflow : (ctx.scene.valueTy? site.method dst).any Ty.carriesFlow)
      (hkey : ctx.valueKey? site dst = some key) : Flows ctx site v key
  | passed {here : CallSite} {callee : MethodId} {position : Nat} {actual : Value}
      {formal : String} (hbound : here.Bound ctx callee)
      (hactual : here.call.args[position]? = some actual)
      (hread : ∀ earlier < position, ((ctx.scene.method callee).paramVar? earlier).isSome)
      (hformal : (ctx.scene.method callee).paramVar? position = some formal)
      (hflow : ctx.carriesFlow callee formal) :
      Flows ctx here.site actual (.var (.named callee formal))
  /-- What a method returns has its first statement as its place. -/
  | returned {here : CallSite} {callee : MethodId} {res : String} {v : Value}
      (hbound : here.Bound ctx callee)
      (hread : ∀ position < here.call.args.length,
        ((ctx.scene.method callee).paramVar? position).isSome)
      (hresult : here.result? = some res) (hflow : ctx.carriesFlow here.method res)
      (hvalue : v ∈ (ctx.scene.method callee).returnValues) :
      Flows ctx { method := callee, index := 0 } v (.var (.named here.method res))
  | written {array first second : NodeId} {write read : StmtId} {base base' name : String}
      {index index' v : Value} (hflat : isFlatArray (ctx.recorded.graph.kind array))
      (hwrite : ctx.WritesArray write base index v)
      (hread : ctx.ReadsArray read (.var name) base' index')
      (hfirst : ctx.recorded.graph.find? (.var (.named write.method base)) = some first)
      (hsecond : ctx.recorded.graph.find? (.var (.named read.method base')) = some second)
      (hflows : first ∈ ctx.recorded.graph.forwardReachable array)
      (hflows' : second ∈ ctx.recorded.graph.forwardReachable array) :
      Flows ctx write v (.var (.named read.method name))

/-- The walk over a program gives every flow its edge, from the node of the value at its place. -/
theorem Passes.connects (h : ctx.Passes wired) (hflows : ctx.Flows site v dst)
    (hsource : ctx.valueKey? site v = some src) :
    ctx.walked.graph.Connects src dst := by
  cases hflows with
  | @assigned _ assigned _ _ hmethod hstmt hcall hflow hkey =>
    have hrecorded : ctx.recorded.graph.Connects src dst := by
      refine h.of_stmt (fun st => st.graph.Connects src dst) hmethod hstmt
        (lasts_graph ctx Connects.mono) ?_
      have hassign (s : Progress Notes) : Ensures (Stepping ctx .all s) s.graph
          (wireAssign ctx site assigned v) fun g _ => g.Connects src dst :=
        (builds_wireAssign hmethod hstmt hcall (.inr trivial)).weaken
          fun _ _ _ hedge => hedge hflow src dst hsource hkey
      unfold wireStmt
      simp only [hcall]
      exact .of_ensures ctx hassign
    exact hrecorded.mono h.extends_walked
  | passed hbound hactual hread hformal hflow =>
    have hbinds := h.bindsCall hbound.walked hbound.isPlain hbound.reaches hbound.isConcrete
    exact hbinds.args _ _ _ src hactual hread hformal hflow hsource
  | returned hbound hread hresult hflow hvalue =>
    have hbinds := h.bindsCall hbound.walked hbound.isPlain hbound.reaches hbound.isConcrete
    exact hbinds.result _ _ src hread hresult hflow hvalue hsource
  | written hflat hwrite hread hfirst hsecond hflows hflows' =>
    exact gives_wireArrays h.framed_recorded h.noticed hflat
      (.intro hwrite hread hfirst hsecond hflows hflows' hsource) _ _ h.arrays

end Context

/-! ## A sample program -/

namespace Sample

/-- The first statement of the shelf creates nothing but an array. -/
theorem shelf_uncontested :
    shelf.Uncontested { method := 0, index := 0 } (.array view) where
  operands := by
    intro v other hoperand hother _
    cases hoperand with
    | operand hstmt hvalue =>
      cases hstmt
      simp only [Stmt.operands, Stmt.call?, Option.map_none, Option.getD_none, List.append_nil,
        List.mem_cons, List.not_mem_nil, or_false] at hvalue
      rcases hvalue with rfl | rfl <;> cases hother
      rfl
    | returned _ hvalue => exact absurd hvalue List.not_mem_nil
  specs := nofun

/-- The array of the shelf flows to the local that it is assigned to. -/
theorem shelf_flows : shelf.Flows { method := 0, index := 0 } (.newArray view (.int 2))
    (.var (.named 0 "s")) :=
  .assigned (by decide +kernel) rfl rfl (by decide +kernel) rfl

/-- The call of a method without arguments that returns an object. -/
def minting : CallExpr where
  kind := .static
  method := {
    owner := "app.Mint"
    result := .ref "java.lang.Object"
    name := "make"
    params := [] }
  base := none
  args := []

/-- A method creates an object in its first statement and returns another one. -/
def mintScene : Scene where
  classes := [{ name := "app.Mint" }]
  methods := #[
    { sig := minting.method
      isStatic := true
      locals := .ofList [("a", Ty.ref "app.A")]
      body := [.assign (.var "a") (.new "app.A"), .ret (some (.new "app.B"))] },
    { sig := {
        owner := "app.Mint"
        result := .void
        name := "run"
        params := [] }
      isStatic := true
      locals := .ofList [("b", Ty.ref "java.lang.Object")]
      body := [.assign (.var "b") (.call minting)] }]

def mint : Context where
  scene := mintScene
  hierarchy := {
    classes := Hierarchy.enter {} (mintScene.classes.map (.ofDecl mintScene))
    application := ["app.Mint"] }
  resources := { sys := {}, sysLayouts := {} }

/-- The object that the method returns flows to the local that gets the result. -/
theorem mint_flows : mint.Flows { method := 0, index := 0 } (.new "app.B") (.var (.named 1 "b")) := by
  let here : CallSite :=
    { site := { method := 1, index := 0 }, stmt := .assign (.var "b") (.call minting), call := minting }
  have hplain : Wiring.takeOperation mint here = pure false :=
    Wiring.takeOperation_of_not_mem (by decide +kernel) (by decide +kernel)
  have hbound : here.Bound mint 0 :=
    ⟨⟨by decide +kernel, rfl, rfl⟩, fun _ => hplain ▸ gives_pure.mpr rfl,
      Context.mem_callTargets.mp (by decide +kernel), by decide +kernel⟩
  exact .returned hbound nofun rfl (by decide +kernel) (List.mem_singleton.mpr rfl)

/-- All that flows to a local are objects of a class. -/
def OnlyGets (g : FlowGraph) (key : NodeKey) (owner : String) : Prop :=
  ∀ edge ∈ g.edges.toList, g.find? key = some edge.target →
    (g.kind edge.source).created? = some (.ref owner)

instance (g : FlowGraph) (key : NodeKey) (owner : String) :
    Decidable (OnlyGets g key owner) :=
  inferInstanceAs (Decidable (∀ _ ∈ _, _))

end Sample

namespace Context

open Wiring

variable {ctx : Context}

/-- Every allocation stands for what an operand creates whose place is the statement of the
allocation. In all states of the walk over a program, an operand that creates an object is given a
node that stands for it at its place. All flows of the object start at one node that stands for it.
As a node has one place, operands at different places never share a node. -/
theorem allocations_faithful (h : ctx.wire.1 = .ok ()) :
    (∀ n ty site role, ctx.wire.2.graph.kind n = .alloc ty site role → ctx.Creates site ty) ∧
    (∀ st, (Stepping ctx .none ctx.initial).inv st → ∀ site v ty,
      ctx.Operand site v → v.created? = some ty →
        (valueNode? ctx site v).Gives st fun n next =>
          ∃ found, n = some found ∧ ctx.StandsFor next.graph found site ty) ∧
    ∃ used : StmtId → Value → NodeId, ∀ site v ty dst,
      ctx.Flows site v dst → v.created? = some ty →
        ctx.StandsFor ctx.wire.2.graph (used site v) site ty ∧
          ∃ n, ctx.wire.2.graph.find? dst = some n ∧
            ctx.wire.2.graph.hasEdge (used site v) n := by
  have hpasses := passes h
  refine ⟨fun n ty site role hkind => creates_of_alloc hpasses.originated hkind,
    fun st hstate site v ty hoperand hty => ?_,
    fun site v => ((ctx.valueKey? site v).bind ctx.wire.2.graph.find?).getD 0,
    fun site v ty dst hflows hty => ?_⟩
  · have hplaces : ctx.Places site v := fun other hother => ⟨v, hoperand, hother⟩
    have hvalue : Ensures (Stepping ctx .none ctx.initial) st.graph (valueNode? ctx site v)
        fun g n => g.Located (ctx.valueKey? site v) n :=
      locates_valueNode? hplaces
    refine (hvalue.gives (.refl _) hstate).weaken ?_
    rintro n next ⟨_, hnext, hlocated⟩
    rw [valueKey?_of_created hty] at hlocated
    cases hlocated with
    | some hfind =>
      have horiginated : Originated ctx False next.graph :=
        hnext.2.originated (framed_start _) (.empty ctx False)
      exact ⟨_, rfl, standsFor_of_find? horiginated hfind⟩
  · obtain ⟨src, n, hsource, hnode, hedge⟩ :=
      hpasses.connects hflows (valueKey?_of_created hty)
    have hg := hpasses.extends_wired
    have hused : ((ctx.valueKey? site v).bind ctx.wire.2.graph.find?).getD 0 = src := by
      rw [valueKey?_of_created hty, Option.bind_some, hg.find?_eq hsource, Option.getD_some]
    beta_reduce
    rw [hused]
    exact ⟨(standsFor_of_find? hpasses.originated_walked hsource).mono hg (find?_some hsource).1,
      n, hg.find?_eq hnode, hg.hasEdge hedge⟩

/-- The array of the shelf flows to its local from a node that stands for it. -/
theorem allocations_faithful_shelf :
    Sample.shelf.wire.1 = .ok () ∧
      ∃ src dst, (Sample.shelf.wire.2.graph.kind src).created? = some (.array Sample.view) ∧
        Sample.shelf.wire.2.graph.find? (.var (.named 0 "s")) = some dst ∧
        Sample.shelf.wire.2.graph.hasEdge src dst := by
  have hwire : Sample.shelf.wire.1 = .ok () := by decide +kernel
  obtain ⟨_, _, used, hused⟩ := allocations_faithful hwire
  obtain ⟨hstands, dst, hfind, hedge⟩ := hused _ _ _ _ Sample.shelf_flows rfl
  exact ⟨hwire, _, dst, hstands.created Sample.shelf_uncontested, hfind, hedge⟩

/-- What flows to the local that gets the result of a method need not be of the class that the method
returns an object of: in the sample it is the object of the first statement. -/
theorem returned_object_mistaken :
    ¬ ∀ ctx : Context, ctx.wire.1 = .ok () → ∀ site v ty dst,
      ctx.Flows site v dst → v.created? = some ty →
        ∃ src n, (ctx.wire.2.graph.kind src).created? = some ty ∧
          ctx.wire.2.graph.find? dst = some n ∧ ctx.wire.2.graph.hasEdge src n := by
  intro hall
  have hmistaken : Sample.mint.wire.1 = .ok () ∧
      Sample.OnlyGets Sample.mint.wire.2.graph (.var (.named 1 "b")) "app.A" := by
    decide +kernel
  obtain ⟨src, n, hcreated, hfind, hedge⟩ :=
    hall Sample.mint hmistaken.1 _ _ _ _ Sample.mint_flows rfl
  obtain ⟨edge, hmem, rfl, rfl⟩ := hasEdge_iff.mp hedge
  have hgets := hmistaken.2 edge (Array.mem_toList_iff.mpr hmem) hfind
  rw [hcreated] at hgets
  exact absurd hgets (by decide)

end Context

end WidgetFlow
