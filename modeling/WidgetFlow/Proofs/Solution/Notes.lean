import WidgetFlow.Proofs.Building
import WidgetFlow.Proofs.Graph.Development
import WidgetFlow.Proofs.Relation
import WidgetFlow.Solution.Fixpoint

/-!
# What the notes of the solving say

An `Inlet` is one of the three ways into an operation: objects arrive as its parameter, as its
receiver or as a listener. Each has the same parts, and what is said of one is said of all.

The notes of a sound state relate operations to objects (`Solving.Notes.Fits`). While a graph is
solved they only grow (`Solving.Notes.Grows`), and what the constants and the windows reach is fixed
before that.
-/

namespace WidgetFlow

open FlowGraph

/-! ## Relations -/

namespace Relation

variable {α β : Type} [Ord α] [Ord β]

def Within (first second : Relation α β) : Prop :=
  ∀ key v, first.holds key v → second.holds key v

instance : IsPreorder (Relation α β) Within where
  refl _ _ _ h := h
  trans _ _ _ h h' key v hholds := h' key v (h key v hholds)

variable [Std.TransOrd α] [Std.TransOrd β] [Std.LawfulEqOrd α] [Std.LawfulEqOrd β]

theorem within_add (relation : Relation α β) (key : α) (v : β) :
    relation.Within (relation.add key v) :=
  fun _ _ h => holds_add.mpr (.inr h)

end Relation

/-! ## Ways into operations -/

/-- A way for objects into an operation. -/
inductive Inlet where
  | parameter
  | receiver
  | listener
  deriving DecidableEq

namespace Inlet

/-- Whether operations of a kind take objects this way. -/
def takes : Inlet → OpKind → Bool
  | parameter => OpKind.takesView
  | receiver => OpKind.takesReceiver
  | listener => OpKind.isSetListener

def node? : Inlet → Op → Option NodeId
  | parameter, op => op.parameter
  | receiver, op => op.receiver
  | listener, op => op.parameter

def admits (hierarchy : Hierarchy) (g : FlowGraph) : Inlet → NodeId → NodeId → Bool
  | parameter, o, op => hierarchy.admits g o op .parameter
  | receiver, o, op => hierarchy.admits g o op .receiver
  | listener, o, op => hierarchy.admitsListener g o op

/-- Whether paths from a node are followed to operations. -/
def follows : Inlet → NodeKind → Bool
  | parameter, kind => kind.isProducer
  | receiver, kind => kind.isProducer
  | listener, _ => true

/-- Whether an object has a place where it arrives. -/
def suits : Inlet → NodeKind → Bool
  | parameter, kind => kind.isShown
  | receiver, kind => kind.isShown || kind.isMenu
  | listener, _ => true

/-- What belongs to a way among what belongs to the three. -/
def choose {α : Type} (i : Inlet) (atParameter atReceiver asListener : α) : α :=
  match i with
  | parameter => atParameter
  | receiver => atReceiver
  | listener => asListener

/-- The objects that have arrived at operations. -/
def values (i : Inlet) (sol : Solution) : NodeRelation :=
  i.choose sol.parameters sol.receivers sol.listeners

def sources (i : Inlet) (paths : Solving.Paths) : NodeRelation :=
  i.choose paths.parameters paths.receivers paths.listeners

/-- What an operation takes objects through is its receiver or its parameter. -/
theorem slot_of_node? {i : Inlet} {op : Op} {n : NodeId} (h : i.node? op = some n) :
    op.receiver = some n ∨ op.parameter = some n := by
  cases i with
  | parameter => exact .inr h
  | receiver => exact .inl h
  | listener => exact .inr h

end Inlet

section Admission

variable {hierarchy : Hierarchy} {old new : FlowGraph} {o : NodeId}

theorem Hierarchy.admits_eq (hg : Develops old new) (hold : old.WellFormed)
    (hobject : o < old.nodes.size) (op : NodeId) (slot : OpSlot) :
    hierarchy.admits new o op slot = hierarchy.admits old o op slot := by
  unfold Hierarchy.admits
  rw [hg.op?_eq]
  cases hop : old.op? op with
  | none => rfl
  | some found =>
    cases hslot : found.slot slot with
    | none => simp only [hslot]
    | some dst =>
      have htarget : dst < old.nodes.size := by
        cases slot with
        | parameter => exact ((hold.slots op found hop).parameter dst hslot).1
        | receiver => exact ((hold.slots op found hop).receiver dst hslot).1
        | result => exact ((hold.slots op found hop).result dst hslot).1
      simp only [hslot]
      rw [varTy?, hg.keeps NodeKind.varTy? NodeKind.varTy?_core htarget, ← varTy?]
      exact hg.keeps _ (fun kind => by
        simp only [Hierarchy.admitsAs, NodeKind.owner?_core]) hobject

/-- What an operation admits stays the same when a graph develops. -/
theorem Inlet.admits_eq (hg : Develops old new) (hold : old.WellFormed)
    (hobject : o < old.nodes.size) (i : Inlet) (op : NodeId) :
    i.admits hierarchy new o op = i.admits hierarchy old o op := by
  cases i with
  | parameter => exact Hierarchy.admits_eq hg hold hobject op .parameter
  | receiver => exact Hierarchy.admits_eq hg hold hobject op .receiver
  | listener =>
    have howner := hg.keeps NodeKind.owner? NodeKind.owner?_core hobject
    simp only [Inlet.admits, Hierarchy.admitsListener]
    rw [howner, Hierarchy.admits_eq hg hold hobject op .parameter]

end Admission

namespace Solving

open Analysis

/-! ## Sound notes -/

/-- Every pair of a relation is an operation with an object. -/
def Between (g : FlowGraph) (relation : NodeRelation) : Prop :=
  ∀ op o, relation.holds op o → g.isOp op ∧ g.HasObject o

section Between

variable {g old new : FlowGraph} {relation : NodeRelation} {op o : NodeId}

theorem between_empty : Between g {} := fun op o h => by
  rw [Relation.holds_empty] at h
  exact absurd h Bool.false_ne_true

theorem isOp_mono (hg : Extends old new) (h : old.isOp op) : new.isOp op :=
  (hg.isOp_eq (lt_size_of_isOp h)).trans h

theorem Between.mono (hg : Extends old new) (h : Between old relation) : Between new relation :=
  fun op o hholds =>
    ⟨isOp_mono hg (h op o hholds).1, (h op o hholds).2.mono hg⟩

theorem Between.add (h : Between g relation) (hop : g.isOp op)
    (hobject : g.HasObject o) : Between g (relation.add op o) :=
  Relation.forall_add ⟨hop, hobject⟩ h

end Between

/-- The notes speak about operations and objects of a graph. -/
structure Notes.Fits (ns : Notes) (g : FlowGraph) : Prop where
  values : ∀ i : Inlet, Between g (i.values ns.solution)
  sources : ∀ (i : Inlet) op src, (i.sources ns.paths).holds op src → g.isOp op
  results : Between g ns.solution.results
  windows : Between g ns.solution.windows
  optionsMenus : Between g ns.solution.optionsMenus
  contextMenus : Between g ns.solution.contextMenus
  activityRoots : ∀ win root, ns.solution.activityRoots.holds win root →
    g.HasObject root
  bound : ∀ op view lis, (op, view, lis) ∈ ns.bound →
    g.isOp op ∧ g.HasObject view ∧ g.HasObject lis
  producers : ∀ op o, ns.solution.results.holds op o ↔
    ns.solution.viewProducers.holds o op

theorem Notes.Fits.mono {old new : FlowGraph} {ns : Notes} (hg : Extends old new)
    (h : ns.Fits old) : ns.Fits new where
  values i := (h.values i).mono hg
  sources i op src hholds := isOp_mono hg (h.sources i op src hholds)
  results := h.results.mono hg
  windows := h.windows.mono hg
  optionsMenus := h.optionsMenus.mono hg
  contextMenus := h.contextMenus.mono hg
  activityRoots win root hholds := (h.activityRoots win root hholds).mono hg
  bound op view lis hmem := by
    obtain ⟨hop, hview, hlistener⟩ := h.bound op view lis hmem
    exact ⟨isOp_mono hg hop, hview.mono hg, hlistener.mono hg⟩
  producers := h.producers

instance : Grounded Notes where
  Fits g ns := ns.Fits g
  mono hg _ h := h.mono hg

theorem fits_empty (g : FlowGraph) : Notes.Fits {} g where
  values i := by cases i <;> exact between_empty
  sources i op src h := by
    have hempty : (i.sources {}).holds op src = false := by
      cases i <;> exact Relation.holds_empty
    rw [hempty] at h
    exact absurd h Bool.false_ne_true
  results := between_empty
  windows := between_empty
  optionsMenus := between_empty
  contextMenus := between_empty
  activityRoots win root h := by
    rw [Relation.holds_empty] at h
    exact absurd h Bool.false_ne_true
  bound op view lis h := by simp at h
  producers op o := by rw [Relation.holds_empty, Relation.holds_empty]

section Builds

variable {base : FlowGraph} {s : Progress Notes} {can : AnalysisError → Prop}

theorem gives_getSolution {post : Solution → Progress Notes → Prop} :
    getSolution.Gives s post ↔ post s.notes.solution s := by
  rw [getSolution, gives_bind, gives_getNotes, gives_pure]

theorem does_getSolution {α : Type} {next : Solution → Solving α} {post : α → Progress Notes → Prop}
    (h : Does can (next s.notes.solution) s post) :
    Does can (getSolution >>= next) s post :=
  ⟨h.gives, h.fair⟩

theorem does_flag {op o : NodeId} {post : Bool → Progress Notes → Prop}
    (h : post (!s.notes.flagged.holds op o) { s with notes := { s.notes with
      flagged := s.notes.flagged.add op o } }) : Does can (flag op o) s post :=
  Does.act (fun g (ns : Notes) => (!ns.flagged.holds op o, g,
    { ns with flagged := ns.flagged.add op o })) h

end Builds

/-! ## Growing notes -/

/-- One state of the notes has all that the other has. What the constants and the windows reach is
the same. -/
structure Notes.Grows (old new : Notes) : Prop where
  layoutIds_eq : new.solution.layoutIds = old.solution.layoutIds
  menuIds_eq : new.solution.menuIds = old.solution.menuIds
  viewIds_eq : new.solution.viewIds = old.solution.viewIds
  windows_eq : new.solution.windows = old.solution.windows
  values : ∀ i : Inlet, (i.values old.solution).Within (i.values new.solution)
  sources : ∀ i : Inlet, (i.sources old.paths).Within (i.sources new.paths)
  results : old.solution.results.Within new.solution.results
  activityRoots : old.solution.activityRoots.Within new.solution.activityRoots
  bound : ∀ entry ∈ old.bound, entry ∈ new.bound

instance : IsPreorder Notes Notes.Grows where
  refl _ := {
    layoutIds_eq := rfl
    menuIds_eq := rfl
    viewIds_eq := rfl
    windows_eq := rfl
    values := fun _ => refl_of Relation.Within _
    sources := fun _ => refl_of Relation.Within _
    results := refl_of Relation.Within _
    activityRoots := refl_of Relation.Within _
    bound := fun _ h => h }
  trans _ _ _ h h' := {
    layoutIds_eq := h'.layoutIds_eq.trans h.layoutIds_eq
    menuIds_eq := h'.menuIds_eq.trans h.menuIds_eq
    viewIds_eq := h'.viewIds_eq.trans h.viewIds_eq
    windows_eq := h'.windows_eq.trans h.windows_eq
    values := fun i => trans_of Relation.Within (h.values i) (h'.values i)
    sources := fun i => trans_of Relation.Within (h.sources i) (h'.sources i)
    results := trans_of Relation.Within h.results h'.results
    activityRoots := trans_of Relation.Within h.activityRoots h'.activityRoots
    bound := fun entry hentry => h'.bound entry (h.bound entry hentry) }

/-- The notes grow, no operation gives anything new, and no listener is bound. -/
structure Notes.Gathers (old new : Notes) : Prop extends Notes.Grows old new where
  results_eq : new.solution.results = old.solution.results
  bound_eq : new.bound = old.bound

instance : IsPreorder Notes Notes.Gathers where
  refl ns := ⟨refl_of Notes.Grows ns, rfl, rfl⟩
  trans _ _ _ h h' :=
    ⟨trans_of Notes.Grows h.toGrows h'.toGrows, h'.results_eq.trans h.results_eq,
      h'.bound_eq.trans h.bound_eq⟩

/-- The notes grow, no operation gives anything new, and no window gets a root. -/
structure Notes.Collects (old new : Notes) : Prop extends Notes.Gathers old new where
  activityRoots_eq : new.solution.activityRoots = old.solution.activityRoots
  dialogRoots_eq : new.solution.dialogRoots = old.solution.dialogRoots

instance : IsPreorder Notes Notes.Collects where
  refl ns := ⟨refl_of Notes.Gathers ns, rfl, rfl⟩
  trans _ _ _ h h' :=
    ⟨trans_of Notes.Gathers h.toGathers h'.toGathers,
      h'.activityRoots_eq.trans h.activityRoots_eq, h'.dialogRoots_eq.trans h.dialogRoots_eq⟩

end Solving

end WidgetFlow
