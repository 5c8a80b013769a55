import WidgetFlow.Proofs.Solution.Inflation

/-!
# States that go on

While operations are resolved, a state goes on in small ways: it gets more of the facts that a
solution is made of (`Fact`), and loses none of them (`Fact.Holds.mono`). `Still` says that a state
has gone on without any change that matters, and `Rests` that a part ends well, reports no change
and makes none. A loop rests if its rounds do (`Rests.foldlM`).
-/

namespace WidgetFlow

open FlowGraph

/-! ## States that are as they were -/

def Relation.Same {α β : Type} [Ord α] [Ord β] (first second : Relation α β) : Prop :=
  ∀ key v, first.holds key v ↔ second.holds key v

/-- Two solutions hold the same. -/
structure Solution.Same (first second : Solution) : Prop where
  layoutIds : first.layoutIds.Same second.layoutIds
  menuIds : first.menuIds.Same second.menuIds
  viewIds : first.viewIds.Same second.viewIds
  windows : first.windows.Same second.windows
  optionsMenus : first.optionsMenus.Same second.optionsMenus
  contextMenus : first.contextMenus.Same second.contextMenus
  parameters : first.parameters.Same second.parameters
  receivers : first.receivers.Same second.receivers
  results : first.results.Same second.results
  listeners : first.listeners.Same second.listeners
  activityRoots : first.activityRoots.Same second.activityRoots
  dialogRoots : first.dialogRoots.Same second.dialogRoots
  viewProducers : first.viewProducers.Same second.viewProducers
  windowLayouts : first.windowLayouts.Same second.windowLayouts

namespace Solution.Same

theorem refl (sol : Solution) : sol.Same sol := by
  constructor <;> exact fun _ _ => Iff.rfl

theorem trans {first second third : Solution} (h : first.Same second) (h' : second.Same third) :
    first.Same third where
  layoutIds key v := (h.layoutIds key v).trans (h'.layoutIds key v)
  menuIds key v := (h.menuIds key v).trans (h'.menuIds key v)
  viewIds key v := (h.viewIds key v).trans (h'.viewIds key v)
  windows key v := (h.windows key v).trans (h'.windows key v)
  optionsMenus key v := (h.optionsMenus key v).trans (h'.optionsMenus key v)
  contextMenus key v := (h.contextMenus key v).trans (h'.contextMenus key v)
  parameters key v := (h.parameters key v).trans (h'.parameters key v)
  receivers key v := (h.receivers key v).trans (h'.receivers key v)
  results key v := (h.results key v).trans (h'.results key v)
  listeners key v := (h.listeners key v).trans (h'.listeners key v)
  activityRoots key v := (h.activityRoots key v).trans (h'.activityRoots key v)
  dialogRoots key v := (h.dialogRoots key v).trans (h'.dialogRoots key v)
  viewProducers key v := (h.viewProducers key v).trans (h'.viewProducers key v)
  windowLayouts key v := (h.windowLayouts key v).trans (h'.windowLayouts key v)

/-- The same objects have arrived at operations. -/
theorem values {first second : Solution} (h : first.Same second) (i : Inlet) :
    (i.values first).Same (i.values second) := by
  cases i with
  | parameter => exact h.parameters
  | receiver => exact h.receivers
  | listener => exact h.listeners

end Solution.Same

namespace Solving

open Analysis

variable {old new : Progress Notes}

/-- A state has gone on without any change to the graph, the paths and the solution. -/
structure Still (old new : Progress Notes) : Prop where
  graph_eq : new.graph = old.graph
  paths_eq : new.notes.paths = old.notes.paths
  grows : old.notes.Grows new.notes
  same : old.notes.solution.Same new.notes.solution

instance : IsPreorder (Progress Notes) Still where
  refl _ := ⟨rfl, rfl, refl_of Notes.Grows _, .refl _⟩
  trans _ _ _ h h' := ⟨h'.graph_eq.trans h.graph_eq, h'.paths_eq.trans h.paths_eq,
    trans_of Notes.Grows h.grows h'.grows, h.same.trans h'.same⟩

/-! ## Facts -/

/-- What a solution is made of. -/
inductive Fact where
  | arrived (i : Inlet) (op o : NodeId)
  /-- An operation gives an object. -/
  | given (op o : NodeId)
  | inside (c p : NodeId)
  | named (o : NodeId)
  | bound (op view lis : NodeId)
  deriving DecidableEq

def Fact.Holds (st : Progress Notes) : Fact → Prop
  | .arrived i op o => (i.values st.notes.solution).holds op o
  | .given op o => st.notes.solution.results.holds op o
  | .inside c p => st.graph.Contains p c
  | .named o => st.graph.HasObject o ∧ (st.graph.idOf? o).isSome
  | .bound op view lis => (op, view, lis) ∈ st.notes.bound

/-- A state has gone on while operations were resolved. -/
abbrev Advances : Progress Notes → Progress Notes → Prop := Evolves Enriches Notes.Grows

theorem Fact.Holds.mono {fact : Fact} (hg : Advances old new)
    (h : fact.Holds old) : fact.Holds new := by
  cases fact with
  | arrived i op o => exact hg.2.values i op o h
  | given op o => exact hg.2.results op o h
  | inside c p => exact hg.1.toExtends.contains h
  | named o =>
    obtain ⟨hobject, hname⟩ := h
    obtain ⟨name, hname⟩ := Option.isSome_iff_exists.mp hname
    refine ⟨hobject.mono hg.1.toExtends, ?_⟩
    rw [hg.1.idOf?_eq o name hname]
    rfl
  | bound op view lis => exact hg.2.bound _ h

theorem Still.advances (h : Still old new) : Advances old new :=
  ⟨h.graph_eq ▸ refl_of Enriches _, h.grows⟩

/-- There is a fact in the new state that was none in the old one. -/
def Gains (old new : Progress Notes) : Prop := ∃ fact : Fact, ¬ fact.Holds old ∧ fact.Holds new

theorem Gains.before {first : Progress Notes} (hg : Advances first old)
    (h : Gains old new) : Gains first new := by
  obtain ⟨fact, hnew, hfact⟩ := h
  exact ⟨fact, fun hfirst => hnew (hfirst.mono hg), hfact⟩

theorem Gains.after {last : Progress Notes} (h : Gains old new)
    (hg : Advances new last) : Gains old last := by
  obtain ⟨fact, hnew, hfact⟩ := h
  exact ⟨fact, hnew, hfact.mono hg⟩

/-! ## Parts that rest -/

/-- The part ends well without changing anything. -/
def Rests (part : Solving Bool) (s : Progress Notes) : Prop :=
  ∃ t, part.outcome s = (.ok false, t) ∧ Still s t

section Rules

variable {s : Progress Notes}

theorem Rests.pure (s : Progress Notes) : Rests (pure false) s :=
  ⟨s, rfl, refl_of Still s⟩

theorem Rests.bind {part : Solving Bool} {next : Bool → Solving Bool}
    (h : Rests part s) (hnext : ∀ middle, Still s middle → Rests (next false) middle) :
    Rests (part >>= next) s := by
  obtain ⟨middle, houtcome, hmiddle⟩ := h
  obtain ⟨t, ht, hstill⟩ := hnext middle hmiddle
  refine ⟨t, ?_, trans_of Still hmiddle hstill⟩
  rw [outcome_bind, houtcome]
  exact ht

section Reading

variable {s : Progress Notes}

theorem Rests.getGraph {next : FlowGraph → Solving Bool} (h : Rests (next s.graph) s) :
    Rests (Analysis.getGraph >>= next) s :=
  h

theorem Rests.getNotes {next : Notes → Solving Bool} (h : Rests (next s.notes) s) :
    Rests (Analysis.getNotes >>= next) s :=
  h

theorem Rests.getSolution {next : Solution → Solving Bool}
    (h : Rests (next s.notes.solution) s) : Rests (Solving.getSolution >>= next) s :=
  h

end Reading

variable {α : Type} (elements : List α) (step : α → Solving Bool)

/-- A loop whose rounds rest from all states that are as the first one rests. -/
theorem Rests.foldlM
    (hstep : ∀ st, Still s st → ∀ e ∈ elements, Rests (step e) st) :
    Rests
      (elements.foldlM (fun changed e => do
        let more ← step e
        Pure.pure (changed || more)) false) s := by
  induction elements generalizing s with
  | nil => exact Rests.pure s
  | cons first rest ih =>
    have hfirst := hstep s (refl_of Still s) first List.mem_cons_self
    rw [List.foldlM_cons, bind_assoc]
    exact .bind hfirst fun middle hmiddle => ih fun st hstate e helement =>
      hstep st (trans_of Still hmiddle hstate) e (List.mem_cons_of_mem _ helement)

end Rules

end Solving

end WidgetFlow
