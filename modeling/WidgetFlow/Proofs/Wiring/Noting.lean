import WidgetFlow.Proofs.Closure
import WidgetFlow.Proofs.Graph.Development
import WidgetFlow.Proofs.Wiring.Graph

/-!
# Noted calls

The wiring notes the calls on dialogs and on builders of dialogs when it comes to them, and what is
noted stays noted (`lasts_noted`). Calls that are named as no operation is are left to the notes
(`takeOperation_of_not_mem`), so wiring one of them notes it for the node of the local that it is
made on (`brings_wireCall`), and what wiring a statement makes hold lasts to the end of the walk
(`brings_wireStmts`).

When the walk is over, the noted calls are looked up by the objects that flow to their receivers
(`gives_callsOn`), and each call on a builder that creates a dialog gives that dialog the setters of
the builder (`gives_buildDialogs`).
-/

namespace WidgetFlow

open Analysis FlowGraph Platform Method

/-! ## Calls on dialogs and builders -/

namespace CallSite

/-- The call stands in a method that the wiring walks over. -/
structure Walked (ctx : Context) (here : CallSite) : Prop where
  method_mem : here.method ∈ Wiring.walkedMethods ctx
  stmt_eq : ctx.scene.stmt? here.site = some here.stmt
  call_eq : here.stmt.call? = some here.call

/-- A method of the platform is called on a local that is declared as a dialog, and neither as an
activity of the application nor as one of the platform's own alerts. -/
structure OnDialog (ctx : Context) (here : CallSite) (base : String) : Prop
    extends here.Walked ctx where
  isInstance : here.call.isInstance
  base_eq : here.call.base = some base
  platform : ctx.hierarchy.isApplication here.call.method.owner = false
  declared : ∃ owner, ctx.varClass? here.method base = some owner ∧
    ctx.hierarchy.isDialog owner ∧ Wiring.isForeignAlert ctx.hierarchy owner = false ∧
      (ctx.hierarchy.isApplication owner && ctx.hierarchy.isActivity owner) = false

/-- A method is called on a local that is declared as a builder of dialogs. -/
structure OnBuilder (ctx : Context) (here : CallSite) (base : String) : Prop
    extends here.Walked ctx where
  isInstance : here.call.isInstance
  base_eq : here.call.base = some base
  declared : ctx.varClass? here.method base = some ClassName.alertDialogBuilder
  no_dialog : ctx.hierarchy.isDialog ClassName.alertDialogBuilder = false

variable {ctx : Context} {here : CallSite} {base : String}

theorem Walked.stands (h : here.Walked ctx) : here.Stands ctx := by
  rw [Stands, Context.call?, h.stmt_eq]
  exact h.call_eq

/-- The name of a method stands in its subsignature between a blank and a bracket, so a text
without it is the subsignature of another method. -/
theorem subsig_ne_ofList {name text : List Char} (hname : here.call.name = .ofList name)
    (h : ¬ ' ' :: (name ++ ['(']) <:+: text) : here.subsig ≠ .ofList text := by
  intro heq
  refine h ⟨here.call.method.result.text.toList,
    (Text.joinWith "," (here.call.method.params.map Ty.text) ++ ")").toList, ?_⟩
  have hname : here.call.method.name = .ofList name := hname
  have htext := congrArg String.toList heq
  simpa [subsig, Call.subsig, MethodSig.subsig, subsignature, hname] using htext

end CallSite

theorem Hierarchy.isSubclassOf_self (hierarchy : Hierarchy) (name : String) :
    hierarchy.isSubclassOf name name := by
  unfold isSubclassOf ancestors closure
  rw [Std.TreeSet.contains_iff_mem]
  refine Search.subset_met_run _ ?_
  rw [Search.mem_met_meet_all]
  simp

def FlowGraph.MayBe (g : FlowGraph) (m : MethodId) (name : String) (o : NodeId) :
    Prop :=
  ∃ var, g.find? (.var (.named m name)) = some var ∧ o ∈ g.backwardReachable var

namespace Wiring

/-! ## What stays -/

section Steps

variable {ctx : Context} {permit : Permit} {α β : Type} {part : Wiring α} {next : α → Wiring β}
  {made : Progress Notes → Prop} {s : Progress Notes}

theorem Step.calls_prefix {old new : FlowGraph × Notes} (h : Step ctx permit old new) :
    old.2.calls <+: new.2.calls := by
  cases h with
  | note h => exact h.calls
  | shown _ h => exact h.calls
  | _ => exact List.prefix_rfl

def Noted (role : CallRole) (here : CallSite) (base : String) (st : Progress Notes) : Prop :=
  ∃ receiver, st.graph.find? (.var (.named here.method base)) = some receiver ∧
    (⟨role, receiver, here.site⟩ : NotedCall) ∈ st.notes.calls

theorem Steps.grows {old new : Progress Notes} (h : Steps ctx permit old new)
    (hframed : old.Framed) :
    Extends old.graph new.graph ∧ old.notes.calls <+: new.notes.calls :=
  h.keeps (fun st => Extends old.graph st.1 ∧ old.notes.calls <+: st.2.calls)
    (fun hold hstep hgrown =>
      ⟨hgrown.1.trans (hstep.framed hold).1, hgrown.2.trans hstep.calls_prefix⟩)
    hframed ⟨.refl _, List.prefix_rfl⟩

/-- What holds in a framed state stays while the wiring goes on. -/
def Lasts (ctx : Context) (made : Progress Notes → Prop) : Prop :=
  ∀ old new, old.Framed → Steps ctx .all old new → made old → made new

theorem lasts_graph (ctx : Context) {made : FlowGraph → Prop}
    (hmono : ∀ {old new : FlowGraph}, Extends old new → made old → made new) :
    Lasts ctx fun st => made st.graph :=
  fun _ _ hframed hsteps => hmono (hsteps.grows hframed).1

theorem lasts_noted (ctx : Context) {role : CallRole} {here : CallSite} {base : String} :
    Lasts ctx (Noted role here base) := by
  rintro old new hframed hsteps ⟨receiver, hfind, hcall⟩
  obtain ⟨hg, hcalls⟩ := hsteps.grows hframed
  exact ⟨receiver, hg.find?_eq hfind, hcalls.subset hcall⟩

theorem gives_framed {good : FlowGraph → α → Prop}
    (h : Ensures (Stepping ctx permit s) s.graph part good) (hs : s.Framed) :
    part.Gives s fun res t =>
      t.Framed ∧ Extends s.graph t.graph ∧ good t.graph res :=
  (h.gives (.refl _) ⟨hs, .refl⟩).weaken fun _ _ ht =>
    ⟨ht.2.1.1, ht.1, ht.2.2⟩

/-- The part goes on in steps of the wiring. -/
abbrev Wires (ctx : Context) (part : Wiring α) : Prop :=
  ∀ s : Progress Notes, Upholds (Stepping ctx .all s) s.graph part

theorem Wires.gives_steps (h : Wires ctx part) (hs : s.Framed) :
    part.Gives s fun _ t => t.Framed ∧ Steps ctx .all s t :=
  ((h s).gives (.refl _) ⟨hs, .refl⟩).weaken fun _ _ ht => ht.2.1

/-- What lasts is kept by every part. -/
theorem Lasts.gives (hlasts : Lasts ctx made) (h : Wires ctx part)
    (hs : s.Framed ∧ made s) :
    part.Gives s fun _ t => t.Framed ∧ made t :=
  (h.gives_steps hs.1).weaken fun _ t ht =>
    ⟨ht.1, hlasts s t hs.1 ht.2 hs.2⟩

/-- From framed states, the part makes something hold. -/
def Brings (made : Progress Notes → Prop) (part : Wiring α) : Prop :=
  ∀ s : Progress Notes, s.Framed → part.Gives s fun _ t => t.Framed ∧ made t

theorem Brings.of_gives (h : Wires ctx part)
    (hmade : ∀ s, part.Gives s fun _ t => made t) : Brings made part :=
  fun s hs => ((h.gives_steps hs).and (hmade s)).weaken fun _ _ ht =>
    ⟨ht.1.1, ht.2⟩

theorem Brings.of_ensures (ctx : Context) {made : FlowGraph → Prop}
    (h : ∀ s, Ensures (Stepping ctx .all s) s.graph part fun g _ => made g) :
    Brings (fun st => made st.graph) part :=
  fun s hs => (gives_framed (h s) hs).weaken fun _ _ ht =>
    ⟨ht.1, ht.2.2⟩

theorem Brings.bind (hpart : Brings made part) (hlasts : Lasts ctx made)
    (hnext : ∀ res, Wires ctx (next res)) : Brings made (part >>= next) :=
  fun s hs => gives_bind.mpr ((hpart s hs).weaken fun res _ hmiddle =>
    hlasts.gives (hnext res) hmiddle)

theorem Brings.after (hpart : Wires ctx part) (hnext : ∀ res, Brings made (next res)) :
    Brings made (part >>= next) :=
  fun _ hs => gives_bind.mpr ((hpart.gives_steps hs).weaken fun res middle hmiddle =>
    hnext res middle hmiddle.1)

theorem Brings.forM_of_mem {elements : List α} {step : α → Wiring Unit} {e : α}
    (helement : e ∈ elements) (hlasts : Lasts ctx made)
    (h : ∀ other ∈ elements, Wires ctx (step other)) (hmade : Brings made (step e)) :
    Brings made (elements.forM step) := by
  refine fun s hs => gives_forM_of_mem Progress.Framed helement hs
    (fun st hstate other hother => ?_)
    fun st hstate => (hmade st hstate).weaken fun _ _ => And.right
  exact ((h other hother).gives_steps hstate).weaken fun _ t ht =>
    ⟨ht.1, hlasts st t hstate ht.2⟩

end Steps

/-! ## Calls that are no operations -/

section Taking

variable {ctx : Context} {here : CallSite}

def operationSubsigs : List String :=
  [inflate, inflateAttach, viewStaticInflate, setContentViewId,
    findViewById, menuFindItem, setContentView, setContentViewParams,
    setId, menuInflate, getTabHost, getListView] ++
    findDescendantsAndSelf ++ findChildren ++ menuAdd ++
    registrations.map Registration.subsig

theorem firstThatTakes_of_forall {attempts : List (Wiring Bool)}
    (h : ∀ attempt ∈ attempts, attempt = pure false) : firstThatTakes attempts = pure false := by
  induction attempts with
  | nil => rfl
  | cons first rest ih =>
    rw [firstThatTakes, h first List.mem_cons_self, pure_bind]
    exact ih fun attempt hattempt => h attempt (List.mem_cons_of_mem _ hattempt)

theorem registration?_of_not_mem {hierarchy : Hierarchy}
    (h : here.subsig ∉ registrations.map Registration.subsig) :
    hierarchy.registration? here.call = none := by
  unfold Hierarchy.registration?
  split
  · refine List.find?_eq_none.mpr fun entry hentry hfound => h ?_
    simp only [Bool.and_eq_true, decide_eq_true_eq] at hfound
    exact List.mem_map.mpr ⟨entry, hentry, hfound.1⟩
  · rfl

/-- No form of operation takes a call by a subsignature that it does not know. -/
theorem takeOperation_of_not_mem (hsubsig : here.subsig ∉ operationSubsigs)
    (hname : here.call.name ≠ addView) : takeOperation ctx here = pure false := by
  simp only [operationSubsigs, List.mem_append, not_or] at hsubsig
  obtain ⟨⟨⟨⟨hsubsig, hfind⟩, hchildren⟩, hadd⟩, hregister⟩ := hsubsig
  simp only [List.mem_cons, List.not_mem_nil, or_false, not_or] at hsubsig
  refine firstThatTakes_of_forall fun attempt hattempt => ?_
  obtain ⟨form, hform, rfl⟩ := List.mem_map.mp hattempt
  simp only [operationForms, List.mem_cons, List.not_mem_nil, or_false] at hform
  rcases hform with rfl | rfl | rfl | rfl | rfl | rfl | rfl | rfl | rfl | rfl | rfl | rfl | rfl
  · simp [takeInflate, hsubsig]
  · simp [takeInflateContent, hsubsig]
  · simp [takeFindInView, idLookup?, hsubsig]
  · simp [takeFindInWindow, hsubsig]
  · simp [takeFindByPlace, treeLookup?, hsubsig, hfind, hchildren]
  · simp [takeSetContent, hsubsig]
  · simp [takeAddChild, hname]
  · simp [takeSetId, hsubsig]
  · simp [takeSetListener, registration?_of_not_mem hregister]
  · have hnone : menuAdd.findIdx? (· = here.subsig) = none := by
      rw [List.findIdx?_eq_none_iff]
      intro subsig hmem
      exact decide_eq_false fun heq => hadd (heq ▸ hmem)
    simp [takeAddMenuItem, hnone]
  · simp [takeInflateMenu, hsubsig]
  · simp [takeGetTabHost, hsubsig]
  · simp [takeGetListView, hsubsig]

/-- The names of the calls that give a dialog its view, create it and show it. -/
def setupNames : List String := ["setView", "create", "show"]

variable {base : String} {role : CallRole}

/-- The calls of these names have no subsignature that makes a call something else. -/
theorem subsig_of_setup (hname : here.call.name ∈ setupNames) :
    here.subsig ∉ operationSubsigs ++ [setAdapter, getView, showDialog,
      showDialogBundle, dismissDialog, removeDialog] := by
  refine List.forall_mem_ne.mp ?_
  simp only [setupNames, List.mem_cons, List.not_mem_nil, or_false] at hname
  rcases hname with hname | hname | hname
  all_goals
    simp only [operationSubsigs, registrations, findDescendantsAndSelf, findChildren,
      menuAdd, List.map_cons, List.map_nil, List.cons_append, List.nil_append,
      List.forall_mem_cons]
    and_intros
    on_goal -1 => exact nofun
    all_goals
      refine CallSite.subsig_ne_ofList hname ?_
      decide +kernel

theorem takeOperation_of_setup (hname : here.call.name ∈ setupNames) :
    takeOperation ctx here = pure false := by
  have hsubsig := subsig_of_setup hname
  rw [List.mem_append, not_or] at hsubsig
  have haddView : ∀ name ∈ setupNames, name ≠ addView := by decide
  exact takeOperation_of_not_mem hsubsig.1 (haddView _ hname)

theorem noteListViewCall_of_setup (hname : here.call.name ∈ setupNames) :
    noteListViewCall ctx here = pure false := by
  have hsubsig := subsig_of_setup hname
  have hinit : ∀ name ∈ setupNames, name ≠ init := by decide
  simp only [List.mem_append, List.mem_cons, List.not_mem_nil, or_false, not_or] at hsubsig
  obtain ⟨_, hadapter, hview, _⟩ := hsubsig
  unfold noteListViewCall
  cases here.receiverClass? ctx with
  | none => rfl
  | some owner => simp [hadapter, hview, hinit _ hname]

theorem noteDialogCall_of_onDialog (h : here.OnDialog ctx base) :
    noteDialogCall ctx here = (do
      noteOn ctx here base (dialogRole? here.call.name)
      pure true) := by
  obtain ⟨owner, howner, hdialog, hforeign, hactivity⟩ := h.declared
  unfold noteDialogCall
  rw [CallSite.receiverClass?, h.base_eq, Option.bind_some, howner]
  simp [h.isInstance, hactivity, h.platform, hdialog, hforeign]

theorem noteDialogCall_of_onBuilder (h : here.OnBuilder ctx base)
    (hname : here.call.name ∈ setupNames) : noteDialogCall ctx here = pure false := by
  have hsubsig := subsig_of_setup hname
  simp only [List.mem_append, List.mem_cons, List.not_mem_nil, or_false, not_or] at hsubsig
  obtain ⟨_, _, _, hshow, hbundle, hdismiss, hremove⟩ := hsubsig
  have hrole : activityDialogRole? here.subsig = none := by
    simp [activityDialogRole?, hshow, hbundle, hdismiss, hremove]
  unfold noteDialogCall
  rw [CallSite.receiverClass?, h.base_eq, Option.bind_some, h.declared]
  simp [h.isInstance, h.no_dialog, hrole]

/-- A call is noted for the node of its receiver. -/
theorem brings_noteOn : Brings (Noted role here base) (noteOn ctx here base (some role)) := by
  have hwires : Wires ctx (noteOn ctx here base (some role)) := fun _ => builds_noteOn
  refine .of_gives hwires fun s => ?_
  unfold noteOn Context.varNode noteCall
  rw [gives_bind, gives_onGraph, gives_modifyNotes]
  exact ⟨_, find?_share _ rfl, List.mem_append_right _ List.mem_cons_self⟩

theorem brings_noteBuilderCall (h : here.OnBuilder ctx base)
    (hrole : builderRole? here.call.name = some role) :
    Brings (Noted role here base) (noteBuilderCall ctx here) := by
  unfold noteBuilderCall
  rw [CallSite.receiverClass?, h.base_eq, Option.bind_some, h.declared]
  simp only [h.isInstance, Bool.not_true, Bool.false_eq_true, if_false, ne_eq, not_true_eq_false,
    Hierarchy.isSubclassOf_self, hrole]
  refine brings_noteOn.bind (lasts_noted ctx) fun _ _ => ?_
  split
  · exact builds_passBuilder
  · exact .done _

/-- The part that a call on a dialog or on a builder plays. -/
inductive Plays (ctx : Context) (here : CallSite) (base : String) (role : CallRole) : Prop
  | dialog (h : here.OnDialog ctx base) (hrole : dialogRole? here.call.name = some role)
  | builder (h : here.OnBuilder ctx base) (hrole : builderRole? here.call.name = some role)

theorem Plays.walked (h : Plays ctx here base role) : here.Walked ctx := by
  cases h with
  | dialog h => exact h.toWalked
  | builder h => exact h.toWalked

/-- What the first attempt notes stays noted, whoever takes the call. -/
theorem brings_firstThatTakes (ctx : Context) {attempt : Wiring Bool} {rest : List (Wiring Bool)}
    (hattempt : Brings (Noted role here base) attempt) (hrest : ∀ other ∈ rest, Wires ctx other) :
    Brings (Noted role here base) (firstThatTakes (attempt :: rest)) := by
  rw [firstThatTakes]
  refine hattempt.bind (lasts_noted ctx) fun taken s => ?_
  split
  · exact .done _
  · exact builds_firstThatTakes fun other hother => hrest other hother s

theorem brings_noteCalls (h : Plays ctx here base role) (hname : here.call.name ∈ setupNames) :
    Brings (Noted role here base) (noteCalls ctx here) := by
  unfold noteCalls
  rw [firstThatTakes, noteListViewCall_of_setup hname, pure_bind, if_neg Bool.false_ne_true]
  refine Brings.bind ?_ (lasts_noted ctx) fun taken s => ?_
  · cases h with
    | dialog h hrole =>
      rw [noteDialogCall_of_onDialog h, hrole]
      refine brings_firstThatTakes ctx (brings_noteOn.bind (lasts_noted ctx) fun _ _ => .done _) ?_
      exact List.forall_mem_cons.mpr ⟨fun _ => builds_noteBuilderCall,
        List.forall_mem_singleton.mpr fun _ => builds_noteMenuCall⟩
    | builder h hrole =>
      rw [firstThatTakes, noteDialogCall_of_onBuilder h hname, pure_bind,
        if_neg Bool.false_ne_true]
      exact brings_firstThatTakes ctx (brings_noteBuilderCall h hrole)
        (List.forall_mem_singleton.mpr fun _ => builds_noteMenuCall)
  · split
    · exact builds_noteTabCall h.walked.stands
    · exact .done _

theorem brings_wireCall (h : Plays ctx here base role) (hname : here.call.name ∈ setupNames) :
    Brings (Noted role here base) (wireCall ctx here) := by
  unfold wireCall
  rw [takeOperation_of_setup hname, pure_bind, if_pos (Bool.not_false)]
  exact (brings_noteCalls h hname).bind (lasts_noted ctx) fun _ _ =>
    .forM fun _ _ => (builds_bindCall h.walked.stands).upholds

/-- What wiring a statement makes hold, and the wiring keeps, holds after the walk. -/
theorem brings_wireStmts {site : StmtId} {stmt : Stmt} {made : Progress Notes → Prop}
    (hmethod : site.method ∈ walkedMethods ctx) (hstmt : ctx.scene.stmt? site = some stmt)
    (hlasts : Lasts ctx made) (hmade : Brings made (wireStmt ctx site stmt)) :
    Brings made (wireStmts ctx) := by
  have hmem : (site, stmt) ∈ ctx.scene.stmts site.method := by
    obtain ⟨hindex, heq⟩ := List.getElem?_eq_some_iff.mp hstmt
    exact List.mem_mapIdx.mpr ⟨site.index, hindex, congrArg (Prod.mk site) heq⟩
  refine .forM_of_mem hmethod hlasts (fun m hmethod s => ?_)
    (.forM_of_mem hmem hlasts (fun entry hentry s => ?_) hmade)
  · exact .forM fun entry hentry => builds_wireStmt_of_mem hmethod hentry (.inr trivial)
  · exact builds_wireStmt_of_mem hmethod hentry (.inr trivial)

end Taking

/-! ## When the walk is over -/

section Looking

variable {ctx : Context} {here : CallSite} {base : String} {role : CallRole} {o : NodeId}
  {accept : NodeKind → Bool}
variable {s : Progress Notes}

theorem holds_callsOf {ns : Notes} {receiver : NodeId} {site : StmtId}
    (h : (⟨role, receiver, site⟩ : NotedCall) ∈ ns.calls) :
    (ns.callsOf role).holds receiver site := by
  rw [Notes.callsOf, Relation.holds_ofPairs]
  exact List.mem_map.mpr ⟨_, List.mem_filter.mpr ⟨h, decide_eq_true rfl⟩, rfl⟩

/-- One receiver of noted calls is looked up. -/
def addCalls (ctx : Context) (accept : NodeKind → Bool) (found : Relation NodeId StmtId)
    (row : NodeId × List StmtId) : Wiring (Relation NodeId StmtId) := do
  let g ← getGraph
  match (← objectsOf row.1).filter fun id => accept (g.kind id) with
  | [] =>
    row.2.head?.forM fun site => gap ("Receiver object unknown for " ++ ctx.placeText site)
    pure found
  | objects => pure (objects.foldl (fun found o => found.addAll o row.2) found)

theorem callsOn_eq (ctx : Context) (role : CallRole) (accept : NodeKind → Bool) :
    callsOn ctx role accept =
      (do ((← getNotes).callsOf role).rows.foldlM (addCalls ctx accept) {}) :=
  rfl

theorem gives_addCalls {found : Relation NodeId StmtId} {row : NodeId × List StmtId} :
    (addCalls ctx accept found row).Gives s fun found' t =>
      (t.graph = s.graph ∧ t.notes = s.notes) ∧ ∀ o site,
        found'.holds o site ↔
          (o ∈ s.graph.backwardReachable row.1 ∧ s.graph.HasObject o ∧
            accept (s.graph.kind o)) ∧ site ∈ row.2 ∨ found.holds o site := by
  have hobjects : ∀ o, o ∈ ((s.graph.backwardReachable row.1).toList.filter fun id =>
      (s.graph.kind id).isObject).filter (fun id => accept (s.graph.kind id)) ↔
      o ∈ s.graph.backwardReachable row.1 ∧ s.graph.HasObject o ∧
        accept (s.graph.kind o) := by
    intro o
    simp only [List.mem_filter, Std.TreeSet.mem_toList, and_assoc]
    rfl
  unfold addCalls objectsOf
  simp only [gives_bind, gives_getGraph, gives_pure]
  split
  next hnone =>
    have hnobody : ∀ o, ¬ (o ∈ s.graph.backwardReachable row.1 ∧
        s.graph.HasObject o ∧ accept (s.graph.kind o)) := by
      intro o hobject
      rw [← hobjects, hnone] at hobject
      exact List.not_mem_nil hobject
    simp only [hnobody, false_and, false_or]
    cases row.2.head? with
    | none => exact gives_bind.mpr (gives_pure.mpr (gives_pure.mpr ⟨⟨rfl, rfl⟩, fun _ _ => .rfl⟩))
    | some site => exact gives_bind.mpr (gives_gap.mpr (gives_pure.mpr ⟨⟨rfl, rfl⟩, fun _ _ => .rfl⟩))
  next =>
    refine gives_pure.mpr ⟨⟨rfl, rfl⟩, fun o site => ?_⟩
    refine (Relation.holds_foldl id (fun other => o = other ∧ site ∈ row.2)
      (fun found other => Relation.holds_add_all) _ found).trans ?_
    rw [← hobjects]
    refine or_congr_left ⟨?_, fun h => ⟨o, h.1, rfl, h.2⟩⟩
    rintro ⟨_, hmem, rfl, hsite⟩
    exact ⟨hmem, hsite⟩

theorem gives_callsOn (hnoted : Noted role here base s)
    (hflows : s.graph.MayBe here.method base o)
    (hobject : s.graph.HasObject o) (haccept : accept (s.graph.kind o)) :
    (callsOn ctx role accept).Gives s fun found t =>
      (t.graph = s.graph ∧ t.notes = s.notes) ∧ found.holds o here.site := by
  obtain ⟨receiver, hfind, hcall⟩ := hnoted
  obtain ⟨var, hvar, hreach⟩ := hflows
  cases hfind.symm.trans hvar
  obtain ⟨sites, hrow, hsite⟩ := Relation.exists_mem_rows (holds_callsOf hcall)
  rw [callsOn_eq, gives_bind, gives_getNotes]
  refine gives_foldlM_of_mem (fun _ st => st.graph = s.graph ∧ st.notes = s.notes)
    hrow ⟨rfl, rfl⟩ ?_ ?_
  · rintro found st ⟨hgraph, hnotes⟩ other _
    refine gives_addCalls.weaken fun found' t ht => ?_
    exact ⟨⟨ht.1.1.trans hgraph, ht.1.2.trans hnotes⟩,
      fun hmade => (ht.2 o here.site).mpr (.inr hmade)⟩
  · rintro found st ⟨hgraph, _⟩
    refine gives_addCalls.weaken fun found' t ht => ?_
    rw [ht.2, hgraph]
    exact .inl ⟨⟨hreach, hobject, haccept⟩, hsite⟩

theorem gives_buildDialogs {create : CallSite} {base' : String} {builder : NodeId}
    (hs : s.Framed) (hsetter : Noted .builderSetter here base s)
    (hcreate : Noted .builderCreate create base' s)
    (hbuilder : isAlloc (s.graph.kind builder))
    (hflows : s.graph.MayBe here.method base builder)
    (hflows' : s.graph.MayBe create.method base' builder) :
    (buildDialogs ctx).Gives s fun built t => ∃ dialog,
      t.graph.find? (.dialog create.site) = some dialog ∧
        built.setters.holds dialog here.site := by
  have hobject : s.graph.HasObject builder := by
    unfold isAlloc at hbuilder
    split at hbuilder
    next hkind => rw [HasObject, hkind]; rfl
    next => exact absurd hbuilder Bool.false_ne_true
  have hcalls : ∀ {role : CallRole} {st : Progress Notes}, st.Framed →
      (callsOn ctx role isAlloc).Gives st fun _ t => t.Framed := fun {role st} hstate =>
    have hwires : Wires ctx (callsOn ctx role isAlloc) := fun _ => builds_callsOn.upholds
    (hwires.gives_steps hstate).weaken fun _ _ ht => ht.1
  have hbuild : ∀ {built : Built} {st : Progress Notes} (setters : List StmtId) (site : StmtId),
      built.Fits st.graph → Ensures (Stepping ctx .all st) st.graph
        (buildDialog ctx setters built site) _ := fun _ _ hbuilt => builds_buildDialog trivial hbuilt
  unfold buildDialogs
  refine gives_bind.mpr (((hcalls hs).and
    (gives_callsOn hsetter hflows hobject hbuilder)).weaken fun setters first hfirst => ?_)
  obtain ⟨hframed, ⟨hgraph, hnotes⟩, hholds⟩ := hfirst
  have hcreate : Noted .builderCreate create base' first := by
    rw [Noted, hgraph, hnotes]
    exact hcreate
  rw [← hgraph] at hflows' hobject hbuilder
  refine gives_bind.mpr (((hcalls hframed).and
    (gives_callsOn hcreate hflows' hobject hbuilder)).weaken fun creates second hsecond => ?_)
  refine (gives_foldlM_of_mem (fun built st => st.Framed ∧ built.Fits st.graph)
    (Relation.mem_pairs.mpr hsecond.2.2) ⟨hsecond.1, fun key v hholds => by simp at hholds⟩
    ?_ ?_).weaken fun _ _ => And.right
  · rintro built st ⟨hstate, hbuilt⟩ ⟨other, site⟩ _
    refine (gives_framed (hbuild (setters.image other) site hbuilt) hstate).weaken ?_
    rintro built' t ⟨ht, hg, hbuilt', hkept, _⟩
    refine ⟨⟨ht, hbuilt'⟩, ?_⟩
    rintro ⟨dialog, hfind, hset⟩
    exact ⟨dialog, hg.find?_eq hfind, hkept _ _ hset⟩
  · rintro built st ⟨hstate, hbuilt⟩
    refine (gives_framed (hbuild (setters.image builder) create.site hbuilt) hstate).weaken ?_
    rintro built' t ⟨_, _, _, _, dialog, hfind, hset⟩
    exact ⟨dialog, hfind, hset here.site (Relation.mem_image.mpr hholds)⟩

end Looking

end Wiring

end WidgetFlow
