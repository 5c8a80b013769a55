import WidgetFlow.Proofs.Handlers
import WidgetFlow.Proofs.Statements.Reading

/-!
# The identifiers of operations

The identifiers that reach operations are recorded once, before any resource is inflated and any
listener is bound. They need not be recorded again: whatever edges come later start at new nodes or
at objects, and an identifier flows to neither. So the identifiers of an operation are those that
flow to it in the end (`Outcome.identifiers_exact`).

This takes that nothing flows to objects in the graph of the program, which holds of programs that
have been read.
-/

namespace WidgetFlow

open Analysis FlowGraph Solving

variable {ctx : Context} {out : Outcome}

namespace Solving

variable {s t : Progress Notes}

/-- Binding lets only views and listeners flow somewhere. -/
theorem Ran.edges_from (h : Ran ctx out s t) {src dst : NodeId}
    (hedge : t.graph.hasEdge src dst) :
    ctx.wire.2.graph.hasEdge src dst ∨ ctx.wire.2.graph.nodes.size ≤ src ∨
      t.graph.HasObject src := by
  rcases h.bonds.edges src dst hedge with hold | ⟨op, view, lis, _, hbound, hfeeds, _⟩
  · obtain ⟨edge, hmem, rfl, rfl⟩ := hasEdge_iff.mp hold
    rcases h.prepared.sprouts.fresh edge hmem with hwired | hfresh
    · exact .inl (hasEdge_iff.mpr ⟨edge, hwired, rfl, rfl⟩)
    · exact .inr (.inl hfresh)
  · obtain ⟨_, hview, hlistener⟩ := h.bonds.opened op view lis hbound
    have hfits := h.proper.sound.fits
    obtain ⟨_, _, _, ⟨rfl, _⟩ | ⟨rfl, _⟩⟩ := hfeeds
    · exact .inr (.inr (hfits.values .listener op src hlistener).2)
    · exact .inr (.inr (hfits.values .receiver op src hview).2)

/-- An identifier reaches an operation in the graph of the program if it does so in the end. -/
theorem Ran.idArrives_iff (h : Ran ctx out s t) (hscene : ctx.scene.Assignable)
    (kind : IdKind) (accept : OpKind → Bool) (op id : NodeId) :
    IdArrives ctx.wire.2.graph kind accept op id ↔ IdArrives out.graph kind accept op id := by
  have hwire : ctx.wire = (.ok (), ctx.wire.2) := Prod.ext h.wired rfl
  have hg : Develops ctx.wire.2.graph out.graph := by
    rw [h.graph_eq]
    exact h.develops
  have hkind : ∀ v, out.graph.kind id = .id kind v ↔
      ctx.wire.2.graph.kind id = .id kind v := by
    intro v
    rw [← NodeKind.idValue?_eq_some, ← NodeKind.idValue?_eq_some, hg.idValue?_eq]
  have hreach : ∀ v, ctx.wire.2.graph.kind id = .id kind v →
      (op ∈ out.graph.forwardReachable id ↔ op ∈ ctx.wire.2.graph.forwardReachable id) := by
    intro v hid
    have hsize : id < ctx.wire.2.graph.nodes.size :=
      lt_size_of_kind (fun kind => kind.idValue?.isSome) rfl (by rw [hid]; rfl)
    rw [h.graph_eq] at hg ⊢
    refine (Context.aimed_wire hscene hwire).mem_forwardReachable (Context.wellFormed_wire hwire).1
      hg.toExtends (fun _ _ => h.edges_from) hsize ?_
    rw [hid]
    rfl
  simp only [IdArrives, opIs, hg.op?_eq, hkind]
  constructor
  · rintro ⟨⟨v, hid⟩, haccept, hmem⟩
    exact ⟨⟨v, hid⟩, haccept, (hreach v hid).mpr hmem⟩
  · rintro ⟨⟨v, hid⟩, haccept, hmem⟩
    exact ⟨⟨v, hid⟩, haccept, (hreach v hid).mp hmem⟩

theorem Ran.idsFrom (h : Ran ctx out s t) (hscene : ctx.scene.Assignable) :
    IdsFrom out.graph out.solution := by
  have hgrows := h.moves.advances.2
  have hids : IdsFrom ctx.wire.2.graph out.solution := by
    rw [h.solution_eq]
    refine h.prepared.ids.congr ?_
    rw [identifiers, hgrows.layoutIds_eq, hgrows.menuIds_eq, hgrows.viewIds_eq, identifiers]
  constructor
  · intro op id
    rw [hids.layouts, h.idArrives_iff hscene]
  · intro op id
    rw [hids.menus, h.idArrives_iff hscene]
  · intro op id
    rw [hids.views, h.idArrives_iff hscene, h.idArrives_iff hscene]

end Solving

/-! ## A sample shop -/

namespace Sample

/-- An activity shows a layout. -/
def shopClass : ClassDecl where
  name := "app.Shop"
  superclass := some "android.app.Activity"
  methods := [{
    name := "onCreate"
    params := [.ref "android.os.Bundle"]
    body := ["shop := @this", "virtualinvoke shop.<app.Shop: void setContentView(int)>(7)"] }]

/-- The layout is made of one view that has a constructor. -/
def wareClass : ClassDecl where
  name := "app.Ware"
  superclass := some "android.view.View"
  methods := [{ name := "<init>", body := ["ware := @this"] }]

def shopProgram : Program where
  classes := [shopClass, wareClass]

def showing : CallExpr := call "shop" "app.Shop" "setContentView" .void [.int] [.int 7]

def methodOf (owner : ClassDecl) (decl : MethodDecl) (body : List Stmt) : Method :=
  let sig : MethodSig :=
    { owner := owner.name, result := decl.result, name := decl.name, params := decl.params }
  { sig, isStatic := decl.isStatic, isAbstract := decl.isAbstract, application := owner.application
    body, source := decl.body, locals := decl.locals.infer sig body }

def shopMethods : List Method :=
  shopClass.methods.map fun decl =>
    methodOf shopClass decl [.identity "shop" .this, .call showing]

def wareMethods : List Method :=
  wareClass.methods.map fun decl => methodOf wareClass decl [.identity "ware" .this]

def shopScene : Scene where
  classes := [shopClass, wareClass]
  methods := shopMethods.toArray ++ wareMethods.toArray

theorem readMethod_eq {owner : ClassDecl} {decl : MethodDecl} {body : List Stmt}
    (hbody : Scene.readBody decl.body = .ok body)
    (hknown : unknownVar? body (methodOf owner decl body).locals = none) :
    Scene.readMethod owner decl = .ok (methodOf owner decl body) := by
  rw [methodOf] at hknown
  refine except_bind_eq_ok.mpr ⟨body, hbody, ?_⟩
  simp only [hknown]
  rfl

theorem parse_showing :
    Stmt.parse "virtualinvoke shop.<app.Shop: void setContentView(int)>(7)" =
      .ok (.call showing) := by
  have hcore : Stmt.core "virtualinvoke shop.<app.Shop: void setContentView(int)>(7)" =
      (Stmt.call showing).text.toList := by decide +kernel
  rw [Stmt.parse, hcore, Stmt.read_text (by decide)]

theorem shopScene_read : Scene.ofProgram shopProgram = .ok shopScene := by
  have hshop : Stmt.parse "shop := @this" = .ok (.identity "shop" .this) := rfl
  have hware : Stmt.parse "ware := @this" = .ok (.identity "ware" .this) := rfl
  have hopening : Scene.readBody
      ["shop := @this", "virtualinvoke shop.<app.Shop: void setContentView(int)>(7)"] =
        .ok [.identity "shop" .this, .call showing] := by
    simp only [Scene.readBody, List.mapM_cons, List.mapM_nil, hshop, parse_showing]
    rfl
  have hmaking : Scene.readBody ["ware := @this"] = .ok [.identity "ware" .this] := by
    simp only [Scene.readBody, List.mapM_cons, List.mapM_nil, hware]
    rfl
  have hshopMethods : shopClass.methods.mapM (Scene.readMethod shopClass) = .ok shopMethods :=
    except_bind_eq_ok.mpr ⟨_, readMethod_eq hopening (by decide +kernel), rfl⟩
  have hwareMethods : wareClass.methods.mapM (Scene.readMethod wareClass) = .ok wareMethods :=
    except_bind_eq_ok.mpr ⟨_, readMethod_eq hmaking (by decide +kernel), rfl⟩
  exact except_bind_eq_ok.mpr ⟨_, Scene.addClass_eq rfl hshopMethods,
    except_bind_eq_ok.mpr ⟨_, Scene.addClass_eq (by decide +kernel) hwareMethods, rfl⟩⟩

/-- The shop with the classes of the platform that it needs. -/
def shop : Context where
  scene := shopScene
  hierarchy := {
    classes := Hierarchy.enter
      (Hierarchy.enter {} [{ name := "android.app.Activity" }, { name := "android.view.View" }])
      (shopScene.classes.map (.ofDecl shopScene))
    application := ["app.Shop", "app.Ware"] }
  resources := ResourceTable.addLayout { sys := {}, sysLayouts := {} } "main" 7
    { owner := some "app.Ware" }

/-- What the analysis of the shop finds. Node 0 is the identifier of the layout, which reaches the
operation 3 that shows it. Node 4 is the view, which flows to the variable 5 of its constructor. -/
def Offered (out : Outcome) : Prop :=
  (out.graph.op? 3).map Op.kind = some .inflateContent ∧ out.graph.kind 0 = .id .layout 7 ∧
    3 ∈ out.graph.forwardReachable 0 ∧ out.graph.hasEdge 4 5

instance (out : Outcome) : Decidable (Offered out) :=
  inferInstanceAs (Decidable (_ ∧ _))

theorem shop_analyzed : ∃ out, shop.analyze = .ok out ∧ Offered out :=
  Context.exists_outcome (by decide +kernel)

end Sample

namespace Outcome

/-- A node is an identifier of a kind and flows to an operation. -/
def IdReaches (out : Outcome) (kind : IdKind) (id op : NodeId) : Prop :=
  (∃ v, out.graph.kind id = .id kind v) ∧ op ∈ out.graph.forwardReachable id

theorem idArrives_iff {kind : IdKind} {accept : OpKind → Bool} {op id : NodeId} {found : Op}
    (hop : out.graph.op? op = some found) :
    IdArrives out.graph kind accept op id ↔
      accept found.kind ∧ out.IdReaches kind id op := by
  rw [IdArrives, opIs, hop, IdReaches, and_left_comm]
  rfl

/-- In the graph of an outcome, the layouts, menus and identifiers of views of an operation are those
that flow to it, if it has a use for them, and otherwise there are none. -/
theorem identifiers_exact {program : Program} (hread : Scene.ofProgram program = .ok ctx.scene)
    (h : ctx.analyze = .ok out) {op : NodeId} {found : Op}
    (hop : out.graph.op? op = some found) (id : NodeId) :
    (id ∈ out.solution.layoutIds.image op ↔
      (found.kind = .inflate ∨ found.kind = .inflateContent ∨ found.kind = .setId) ∧
        out.IdReaches .layout id op) ∧
    (id ∈ out.solution.menuIds.image op ↔
      found.kind = .inflateMenu ∧ out.IdReaches .menu id op) ∧
    (id ∈ out.solution.viewIds.image op ↔
      ((∃ lookup, found.kind = .findInView lookup) ∨ found.kind = .findInWindow ∨
          found.kind = .setId) ∧ out.IdReaches .widget id op ∨
        (∃ lookup, found.kind = .findInView lookup) ∧ out.IdReaches .anonymous id op) := by
  obtain ⟨s, t, hran⟩ := ran h
  have hids := hran.idsFrom (Scene.assignable_ofProgram hread)
  simp only [Relation.mem_image, hids.layouts, hids.menus, hids.views, idArrives_iff hop]
  cases hkind : found.kind <;> simp [OpKind.takesLayoutId, OpKind.takesViewId, OpKind.isFindInView]

/-- In the sample shop, the operation that shows the layout has the layout and no view, although the
view has flowed somewhere since. -/
theorem identifiers_exact_shop :
    ∃ out, Sample.shop.analyze = .ok out ∧ out.graph.hasEdge 4 5 ∧
      0 ∈ out.solution.layoutIds.image 3 ∧ 0 ∉ out.solution.viewIds.image 3 := by
  obtain ⟨out, h, hshows, hlayout, hshown, hedge⟩ := Sample.shop_analyzed
  obtain ⟨shows, hop, hkind⟩ := Option.map_eq_some_iff.mp hshows
  obtain ⟨hlayouts, _, hviews⟩ := identifiers_exact Sample.shopScene_read h hop 0
  refine ⟨out, h, hedge, hlayouts.mpr ⟨.inr (.inl hkind), ⟨7, hlayout⟩, hshown⟩, ?_⟩
  rw [hviews, hkind]
  simp

end Outcome

end WidgetFlow
