import WidgetFlow.Proofs.Building
import WidgetFlow.Proofs.Graph.Ties

/-!
# Binding listeners

Binding a view and a listener at a registration lets them flow into the handlers. `Handles` says
which methods these are, and `Feeds` which of their variables the two flow into. Binding ties
exactly these (`gives_bindListener`). It tells truly whether anything is new: if it reports a
change, there is an edge or a handler that was not there, and if it reports none, the graph is as it
was.
-/

namespace WidgetFlow

namespace Context

open Analysis FlowGraph

variable {Notes : Type} {ctx : Context} {base : FlowGraph} {o op view lis : NodeId}
variable {var : Analysis Notes (Option NodeId)}

/-! ## Sound states -/

section Builds

variable [Grounded Notes] {origin : FlowGraph}

theorem builds_feed (site : StmtId) (hobject : base.HasValue o)
    (hvar : Builds origin base var HasHolder?) : Extending origin base (feed o var site) := by
  refine hvar.bind fun found g hg hfound => ?_
  split
  · exact (builds_addEdge _ (hobject.mono hg) (hfound _ rfl).hasGoal).upholds
  · exact .done _

theorem builds_feedView (ctx : Context) (interface : String) (site : StmtId) (handler : MethodId)
    (hview : base.HasValue view) :
    Extending origin base (ctx.feedView interface view site handler : Analysis Notes Bool) := by
  unfold feedView
  split
  · exact .done _
  · exact builds_feed site hview builds_viewParamNode?

theorem builds_bindHandler (ctx : Context) (interface : String) (site : StmtId) (handler : MethodId)
    (hview : base.HasValue view) (hlistener : base.HasValue lis) :
    Extending origin base
      (ctx.bindHandler interface op view lis site handler : Analysis Notes Bool) :=
  (Analysis.builds_bindHandler op _).andThen fun _ =>
    (builds_feed site hlistener builds_thisNode?).andThen fun _ =>
    (builds_feedView ctx interface site handler hview).andThen fun _ => .done _

theorem builds_bindListener (ctx : Context) (hview : base.HasValue view)
    (hlistener : base.HasValue lis) :
    Extending origin base (ctx.bindListener op view lis : Analysis Notes Bool) := by
  refine Ensures.getGraph.andThen fun g => ?_
  split
  · exact .done _
  · exact .done _
  · split
    · exact (Ensures.violation _).andThen fun _ => .done _
    · split
      · exact .done _
      · refine .foldlM (fun _ _ => trivial) fun changed g hg _ handler _ => ?_
        exact Ensures.andThen (Ensures.mono hg
          (builds_bindHandler ctx _ _ handler hview hlistener)) fun _ => .done _

end Builds

/-! ## Parts that tie -/

/-- What a part does that ties objects to handlers and says whether anything is new. -/
structure Tied (feeds : NodeId → Var → Prop) (handles : NodeId × Handler → Prop)
    (s : Progress Notes) (changed : Bool) (t : Progress Notes) : Prop where
  notes_eq : t.notes = s.notes
  ties : Ties feeds handles s.graph t.graph
  grew : changed = true → Grew s.graph t.graph
  quiet : s.graph.WellFormed → changed = false → t.graph = s.graph

section Tied

variable {feeds feeds' : NodeId → Var → Prop} {handles handles' : NodeId × Handler → Prop}
variable {s middle t : Progress Notes} {changed more : Bool}

theorem Tied.none (hfeeds : ∀ src var, ¬ feeds src var)
    (hhandles : ∀ binding, ¬ handles binding) (policy : Policy) :
    Tied feeds handles s false { s with policy } :=
  ⟨rfl, .none hfeeds hhandles s.graph, nofun, fun _ _ => rfl⟩

theorem Tied.congr (h : Tied feeds handles s changed t)
    (hfeeds : ∀ src var, feeds src var ↔ feeds' src var)
    (hhandles : ∀ binding, handles binding ↔ handles' binding) :
    Tied feeds' handles' s changed t :=
  { h with ties := h.ties.congr hfeeds hhandles }

theorem Tied.or (h : Tied feeds handles s changed middle)
    (h' : Tied feeds' handles' middle more t) :
    Tied (fun src var => feeds src var ∨ feeds' src var)
      (fun binding => handles binding ∨ handles' binding) s (changed || more) t where
  notes_eq := h'.notes_eq.trans h.notes_eq
  ties := h.ties.trans h'.ties
  grew hreports := by
    rcases Bool.or_eq_true_iff.mp hreports with hchanged | hmore
    · exact (h.grew hchanged).after h'.ties.toExtends
    · exact (h'.grew hmore).before h.ties.toExtends
  quiet hwell hreports := by
    obtain ⟨hchanged, hmore⟩ := Bool.or_eq_false_iff.mp hreports
    have hmiddle := h.quiet hwell hchanged
    exact (h'.quiet (hmiddle ▸ hwell) hmore).trans hmiddle

/-- A loop whose rounds tie something ties all of it. -/
theorem tied_foldlM {α : Type} {elements : List α} {step : α → Analysis Notes Bool}
    {feeds : α → NodeId → Var → Prop} {handles : α → NodeId × Handler → Prop}
    (hstep : ∀ e ∈ elements, ∀ st, (step e).Gives st
      (Tied (feeds e) (handles e) st)) (s : Progress Notes) :
    (elements.foldlM (fun changed e => do
      let more ← step e
      pure (changed || more)) false).Gives s
        (Tied (fun src var => ∃ e ∈ elements, feeds e src var)
          (fun binding => ∃ e ∈ elements, handles e binding) s) := by
  -- the report so far is carried along, so the claim is made for every first report
  suffices hloop : ∀ changed s, Gives (elements.foldlM (fun changed e => do
      let more ← step e
      pure (changed || more)) changed) s fun changed' t =>
        ∃ more, changed' = (changed || more) ∧
          Tied (fun src var => ∃ e ∈ elements, feeds e src var)
            (fun binding => ∃ e ∈ elements, handles e binding) s more t by
    refine (hloop false s).weaken ?_
    rintro _ t ⟨more, rfl, ht⟩
    exact ht
  induction elements with
  | nil =>
    intro changed s
    exact gives_pure.mpr ⟨false, (Bool.or_false changed).symm,
      .none (by simp) (by simp) s.policy⟩
  | cons first rest ih =>
    intro changed s
    rw [List.foldlM_cons, bind_assoc, gives_bind]
    refine (hstep first List.mem_cons_self s).weaken fun more middle hmiddle => ?_
    rw [pure_bind]
    have hrest := ih (fun e helement => hstep e (List.mem_cons_of_mem _ helement))
      (changed || more) middle
    refine hrest.weaken ?_
    rintro _ t ⟨others, rfl, ht⟩
    refine ⟨more || others, Bool.or_assoc .., ?_⟩
    exact (hmiddle.or ht).congr (by simp) (by simp)

end Tied

/-! ## Feeding handlers -/

/-- The variable of a handler that gets the listener. -/
def thisVar? (ctx : Context) (handler : MethodId) : Option Var :=
  (ctx.scene.method handler).thisVar?.map (.named handler)

def viewVar? (ctx : Context) (interface : String) (handler : MethodId) : Option Var :=
  (Platform.viewPosition? interface (ctx.scene.method handler).subsig).bind fun position =>
    match ctx.viewParam handler position with
    | .found name => some (.named handler name)
    | _ => none

/-- A variable that is new gets an edge that is new. -/
theorem eq_of_addEdge_eq_false {g : FlowGraph} (hwell : g.WellFormed) {fed : Var}
    {ty : Option Ty} {site : Option StmtId}
    (h : (FlowGraph.addEdge o (FlowGraph.varNode fed ty g).1 site
      (FlowGraph.varNode fed ty g).2).1 = false) :
    (FlowGraph.addEdge o (FlowGraph.varNode fed ty g).1 site
      (FlowGraph.varNode fed ty g).2).2 = g := by
  have hedge : (FlowGraph.varNode fed ty g).2.hasEdge o
      (FlowGraph.varNode fed ty g).1 := by
    by_contra hedge
    simp [FlowGraph.addEdge, hedge] at h
  rw [FlowGraph.addEdge, if_pos hedge]
  rw [FlowGraph.varNode, obtain] at hedge ⊢
  rcases g.share_cases (.var fed ty) with ⟨_, _, _, _, hshare⟩ | hshare <;>
    rw [hshare] at hedge ⊢
  -- a node that has just been made cannot have had the edge
  exact absurd (hwell.lt_size_of_hasEdge hedge).2 (Nat.lt_irrefl _)

/-- An object is fed into a variable that may be missing. -/
theorem tied_feed {name : Option Var}
    (hvar : ∀ s : Progress Notes, var.Gives s fun found t =>
      (found = none ∧ name = none ∧ ∃ policy, t = { s with policy }) ∨
      ∃ fed ty, name = some fed ∧ found = some (FlowGraph.varNode fed ty s.graph).1 ∧
        t = { s with graph := (FlowGraph.varNode fed ty s.graph).2 })
    (o : NodeId) (site : StmtId) (s : Progress Notes) :
    (feed o var site).Gives s
      (Tied (fun src fed => src = o ∧ name = some fed) (fun _ => False) s) := by
  refine gives_bind.mpr ((hvar s).weaken fun found middle hmiddle => ?_)
  rcases hmiddle with ⟨rfl, rfl, policy, rfl⟩ | ⟨fed, ty, rfl, rfl, rfl⟩
  · exact gives_pure.mpr (.none (fun _ _ h => absurd h.2 nofun) (fun _ h => h) policy)
  · refine gives_onGraph.mpr ⟨rfl, (ties_feed o fed ty (some site)).congr ?_ ?_, ?_,
      fun hwell hadded => eq_of_addEdge_eq_false hwell hadded⟩
    · exact fun src var => and_congr_right fun _ => by rw [Option.some.injEq, eq_comm]
    · exact fun _ => Iff.rfl
    · intro hadded
      refine .inl ⟨o, _, hasEdge_addEdge .., fun hold => ?_⟩
      have hg : Extends s.graph (FlowGraph.varNode fed ty s.graph).2 :=
        (enriches_varNode fed ty).toExtends
      simp [FlowGraph.addEdge, hg.hasEdge hold] at hadded

theorem tied_feedThis (ctx : Context) (o : NodeId) (handler : MethodId) (site : StmtId)
    (s : Progress Notes) :
    (feed o (ctx.thisNode? handler) site).Gives s
      (Tied (fun src fed => src = o ∧ ctx.thisVar? handler = some fed)
        (fun _ => False) s) := by
  refine tied_feed (fun s => ?_) o site s
  unfold thisNode? varNode? thisVar?
  cases (ctx.scene.method handler).thisVar? with
  | none => exact gives_pure.mpr (.inl ⟨rfl, rfl, s.policy, rfl⟩)
  | some name => exact gives_map.mpr (gives_onGraph.mpr (.inr ⟨_, _, rfl, rfl, rfl⟩))

theorem tied_feedView (ctx : Context) (interface : String) (view : NodeId) (handler : MethodId)
    (site : StmtId) (s : Progress Notes) :
    (ctx.feedView interface view site handler).Gives s
      (Tied (fun src fed => src = view ∧ ctx.viewVar? interface handler = some fed)
        (fun _ => False) s) := by
  unfold feedView viewVar?
  cases Platform.viewPosition? interface (ctx.scene.method handler).subsig with
  | none =>
    exact gives_pure.mpr (.none (fun _ _ h => absurd h.2 nofun) (fun _ h => h) s.policy)
  | some position =>
    rw [Option.bind_some]
    refine tied_feed (fun s => ?_) view site s
    unfold viewParamNode?
    cases ctx.viewParam handler position with
    | absent => exact gives_pure.mpr (.inl ⟨rfl, rfl, s.policy, rfl⟩)
    | mistyped => exact gives_bind.mpr (gives_gap.mpr (gives_pure.mpr (.inl ⟨rfl, rfl, _, rfl⟩)))
    | found name => exact gives_map.mpr (gives_onGraph.mpr (.inr ⟨_, _, rfl, rfl, rfl⟩))

/-- The objects that are fed into a handler, with the variables. -/
def FeedsHandler (ctx : Context) (interface : String) (view lis : NodeId) (handler : MethodId)
    (src : NodeId) (var : Var) : Prop :=
  src = lis ∧ ctx.thisVar? handler = some var ∨
    src = view ∧ ctx.viewVar? interface handler = some var

theorem tied_bindHandler (ctx : Context) (interface : String) (op view lis : NodeId)
    (site : StmtId) (handler : MethodId) (s : Progress Notes) :
    (ctx.bindHandler interface op view lis site handler).Gives s
      (Tied (ctx.FeedsHandler interface view lis handler) (· = (op, .method handler))
        s) := by
  unfold bindHandler
  rw [gives_bind, gives_onGraph, gives_bind]
  have hbound : Tied (fun _ _ => False) (· = (op, .method handler)) s
      (FlowGraph.bindHandler op (.method handler) s.graph).1
      { s with graph := (FlowGraph.bindHandler op (.method handler) s.graph).2 } := by
    refine ⟨rfl, ties_bindHandler op _, fun hadded => .inr ⟨(op, .method handler), ?_, ?_⟩, ?_⟩
    · exact ((ties_bindHandler op _).bindings_iff _).mpr (.inl rfl)
    · intro hold
      rw [FlowGraph.bindHandler, if_pos (Array.contains_iff_mem.mpr hold)] at hadded
      exact absurd hadded nofun
    · intro _ hadded
      unfold FlowGraph.bindHandler at hadded ⊢
      split at hadded
      next hmem => rw [if_pos hmem]
      next => exact absurd hadded nofun
  refine (tied_feedThis ctx lis handler site _).weaken fun received second hsecond => ?_
  rw [gives_bind]
  refine (tied_feedView ctx interface view handler site second).weaken fun seen third hthird => ?_
  refine gives_pure.mpr (((hbound.or hsecond).or hthird).congr (fun src var => ?_) (by simp))
  simp [FeedsHandler]

/-! ## Binding listeners -/

def registered? (ctx : Context) (g : FlowGraph) (op : NodeId) :
    Option Platform.Registration :=
  ((g.op? op).bind Op.site).bind fun site => (ctx.call? site).bind ctx.hierarchy.registration?

def Handles (ctx : Context) (g : FlowGraph) (op view lis : NodeId) (interface : String)
    (handler : MethodId) : Prop :=
  (g.kind view).isContextMenu = false ∧
    ∃ registration owner, ctx.registered? g op = some registration ∧
      registration.interface = interface ∧ (g.kind lis).owner? = some owner ∧
        handler ∈ ctx.handlersFor interface [owner]

/-- The objects that are fed into the handlers of a view and a listener, with the variables. -/
def Feeds (ctx : Context) (g : FlowGraph) (op view lis src : NodeId) (var : Var) :
    Prop :=
  ∃ interface handler, ctx.Handles g op view lis interface handler ∧
    ctx.FeedsHandler interface view lis handler src var

def Bestows (ctx : Context) (g : FlowGraph) (op view lis : NodeId)
    (binding : NodeId × Handler) : Prop :=
  ∃ interface handler, ctx.Handles g op view lis interface handler ∧
    binding = (op, .method handler)

/-- Nothing is tied if no method handles anything. -/
theorem tied_of_not_handles {s : Progress Notes} (policy : Policy)
    (h : ∀ interface handler, ¬ ctx.Handles s.graph op view lis interface handler) :
    Tied (ctx.Feeds s.graph op view lis) (ctx.Bestows s.graph op view lis) s
      false { s with policy } :=
  .none (fun _ _ ⟨interface, handler, hhandles, _⟩ => h interface handler hhandles)
    (fun _ ⟨interface, handler, hhandles, _⟩ => h interface handler hhandles) policy

theorem gives_bindListener (ctx : Context) (op view lis : NodeId) (s : Progress Notes) :
    (ctx.bindListener op view lis).Gives s
      (Tied (ctx.Feeds s.graph op view lis) (ctx.Bestows s.graph op view lis)
        s) := by
  unfold bindListener
  rw [gives_bind, gives_getGraph]
  split
  next hkind =>
    refine gives_pure.mpr (tied_of_not_handles s.policy fun interface handler h => ?_)
    simp [Handles, hkind, NodeKind.isContextMenu] at h
  next hsite _ =>
    refine gives_pure.mpr (tied_of_not_handles s.policy fun interface handler h => ?_)
    obtain ⟨_, _, _, hregistered, _⟩ := h
    simp [registered?, hsite] at hregistered
  next site hsite hview =>
    have hview : (s.graph.kind view).isContextMenu = false := by
      cases hkind : s.graph.kind view with
      | contextMenu filler menuParam views => exact (hview _ _ _ hkind).elim
      | _ => rfl
    split
    next hregistration =>
      refine gives_bind.mpr (gives_violation fun policy => gives_pure.mpr ?_)
      refine tied_of_not_handles policy fun interface handler h => ?_
      obtain ⟨_, _, _, hregistered, _⟩ := h
      simp [registered?, hsite, hregistration] at hregistered
    next registration hregistration =>
      have hregistered : ctx.registered? s.graph op = some registration := by
        rw [registered?, hsite, Option.bind_some, hregistration]
      split
      next howner =>
        refine gives_pure.mpr (tied_of_not_handles s.policy fun interface handler h => ?_)
        obtain ⟨_, _, _, _, _, howner', _⟩ := h
        rw [howner] at howner'
        exact absurd howner' (Option.some_ne_none _).symm
      next owner howner =>
        have hiff : ∀ interface handler,
            ctx.Handles s.graph op view lis interface handler ↔
              interface = registration.interface ∧
                handler ∈ ctx.handlersFor registration.interface [owner] := by
          intro interface handler
          simp only [Handles, hview, hregistered, howner, Option.some.injEq, true_and]
          constructor
          · rintro ⟨_, _, rfl, rfl, rfl, h⟩
            exact ⟨rfl, h⟩
          · rintro ⟨rfl, h⟩
            exact ⟨_, _, rfl, rfl, rfl, h⟩
        refine (tied_foldlM (fun handler _ st => tied_bindHandler ctx registration.interface op
          view lis site handler st) s).weaken fun changed t h => ?_
        refine h.congr (fun src var => ?_) fun binding => ?_
        · simp [Feeds, hiff, and_assoc]
        · simp [Bestows, hiff, and_assoc]

end Context

end WidgetFlow
