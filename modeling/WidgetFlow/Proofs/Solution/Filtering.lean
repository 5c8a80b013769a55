import WidgetFlow.Proofs.Graph.Reach
import WidgetFlow.Proofs.Solution.Notes

/-!
# Objects where they belong

The declared types of variables filter what flows through them. `Filtered` says that every object
that the notes have somewhere belongs there: operations have admitted what has arrived at them and
what they give, and windows are only among the windows and the listeners of operations. What has
arrived at an operation flows to where the operation takes it, or comes from another operation that
flows there (`Carried`). There is one exception. The context menu of an inflated view is taken as a
receiver wherever it flows to.

`Tidy` states are sound and filtered. Parts that only change the notes keep states tidy if they
keep the notes so (`tidies_noted`), and parts that wire a node as well (`tidying_graft`).
-/

namespace WidgetFlow.Solving

open Analysis FlowGraph

variable {ctx : Context} {g old new base : FlowGraph} {sol : Solution} {ns : Notes}
variable {i : Inlet} {op src o menu : NodeId}

/-! ## Where objects come from -/

theorem path_develops {dst : NodeId} (hg : Develops old new)
    (h : Relation.ReflTransGen (old.FlowsTo src) src dst) :
    Relation.ReflTransGen (new.FlowsTo src) src dst := by
  refine Relation.ReflTransGen.mono (fun first second hstep => ⟨?_, hg.hasEdge hstep.2⟩) _ _ h
  rw [hg.isOp_eq]
  exact hstep.1

/-- A node flows to the node that an operation takes objects through. -/
def Pours (g : FlowGraph) (i : Inlet) (src op : NodeId) : Prop :=
  ∃ found n, g.op? op = some found ∧ i.node? found = some n ∧
    Relation.ReflTransGen (g.FlowsTo src) src n

theorem Pours.develops (h : Pours old i src op) (hg : Develops old new) :
    Pours new i src op := by
  obtain ⟨found, n, hop, hnode, hpath⟩ := h
  exact ⟨found, n, (hg.op?_eq op).trans hop, hnode, path_develops hg hpath⟩

def WorksOn (sol : Solution) (op menu : NodeId) : Prop :=
  sol.optionsMenus.holds op menu ∨ sol.contextMenus.holds op menu

/-- An operation gives an object and flows to where another operation takes it. -/
def Passed (g : FlowGraph) (sol : Solution) (i : Inlet) (op o : NodeId) : Prop :=
  ∃ producer, sol.results.holds producer o ∧ Pours g i producer op

/-- An object comes to an operation by flow, from another operation, or as the menu that the
operation works on. -/
def Carried (g : FlowGraph) (sol : Solution) (i : Inlet) (op o : NodeId) : Prop :=
  Pours g i o op ∨ Passed g sol i op o ∨
    i = .receiver ∧ WorksOn sol op o

theorem Carried.develops (h : Carried old sol i op o) (hg : Develops old new) :
    Carried new sol i op o :=
  h.imp (·.develops hg) (Or.imp_left fun ⟨producer, hresult, hpours⟩ =>
    ⟨producer, hresult, hpours.develops hg⟩)

/-- What has come to an operation has still come to it when more is known. -/
theorem Carried.mono {sol' : Solution} (h : Carried g sol i op o)
    (hresults : sol.results.Within sol'.results)
    (hmenus : ∀ op menu, WorksOn sol op menu → WorksOn sol' op menu) :
    Carried g sol' i op o :=
  h.imp_right (Or.imp (fun ⟨producer, hresult, hpours⟩ =>
    ⟨producer, hresults producer o hresult, hpours⟩) (And.imp_right (hmenus op o)))

/-! ## Filtered notes -/

def Windowless (g : FlowGraph) (relation : NodeRelation) : Prop :=
  ∀ key o, relation.holds key o → (g.kind o).isWindow = false

theorem windowless_empty : Windowless g {} := fun key o h => by simp at h

theorem Windowless.develops {relation : NodeRelation} (h : Windowless old relation)
    (hg : Develops old new) : Windowless new relation :=
  fun key o hholds => (hg.isWindow_eq o).trans (h key o hholds)

/-- Every object belongs where it is. -/
structure Filtered (ctx : Context) (g : FlowGraph) (ns : Notes) : Prop where
  admitted : ∀ (i : Inlet) op o, (i.values ns.solution).holds op o →
    i.admits ctx.hierarchy g o op ∨
      i = .receiver ∧ ns.solution.contextMenus.holds op o
  given : ∀ op o, ns.solution.results.holds op o →
    ctx.hierarchy.admits g o op .result
  menus : ∀ op menu, ns.solution.contextMenus.holds op menu → (g.kind menu).isContextMenu
  windows : ∀ op win, ns.solution.windows.holds op win → (g.kind win).isWindow
  values : ∀ i : Inlet, i ≠ .listener → Windowless g (i.values ns.solution)
  results : Windowless g ns.solution.results
  roots : Windowless g ns.solution.activityRoots
  children : ∀ p c, g.Contains p c → (g.kind c).isWindow = false
  reached : ∀ op menu, WorksOn ns.solution op menu → (g.kind menu).isMenu ∧
    Relation.ReflTransGen (g.FlowsTo menu) menu op
  traced : ∀ (i : Inlet) op src, (i.sources ns.paths).holds op src →
    Pours g i src op ∨ i = .receiver ∧ WorksOn ns.solution op src
  carried : ∀ (i : Inlet) op o, (i.values ns.solution).holds op o →
    Carried g ns.solution i op o

namespace Filtered

theorem empty (ctx : Context) (hlinks : g.links = #[]) : Filtered ctx g {} := by
  have hvalues : ∀ (i : Inlet) op o, (i.values {}).holds op o = false :=
    fun i op o => by cases i <;> exact Relation.holds_empty
  have hsources : ∀ (i : Inlet) op src, (i.sources {}).holds op src = false :=
    fun i op src => by cases i <;> exact Relation.holds_empty
  exact {
    admitted := fun i op o h => by simp [hvalues] at h
    given := fun op o h => by simp at h
    menus := fun op menu h => by simp at h
    windows := fun op win h => by simp at h
    values := fun i _ => by cases i <;> exact windowless_empty
    results := windowless_empty
    roots := windowless_empty
    children := fun p c h => by simp [Contains, hlinks] at h
    reached := fun op menu h => by simp [WorksOn] at h
    traced := fun i op src h => by simp [hsources] at h
    carried := fun i op o h => by simp [hvalues] at h }

/-- A graph may develop if containment stays as it is. -/
theorem develops (h : Filtered ctx old ns) (hfits : ns.Fits old) (hold : old.WellFormed)
    (hg : Develops old new) (hlinks : new.links = old.links) : Filtered ctx new ns where
  admitted i op o hholds := by
    have hobject := lt_size_of_isObject (hfits.values i op o hholds).2
    rw [Inlet.admits_eq hg hold hobject]
    exact h.admitted i op o hholds
  given op o hholds := by
    have hobject := lt_size_of_isObject (hfits.results op o hholds).2
    rw [Hierarchy.admits_eq hg hold hobject]
    exact h.given op o hholds
  menus op menu hholds := by
    have hmenu := lt_size_of_isObject (hfits.contextMenus op menu hholds).2
    rw [hg.keeps NodeKind.isContextMenu NodeKind.isContextMenu_core hmenu]
    exact h.menus op menu hholds
  windows op win hholds := (hg.isWindow_eq win).trans (h.windows op win hholds)
  values i hinlet := (h.values i hinlet).develops hg
  results := h.results.develops hg
  roots := h.roots.develops hg
  children p c hlink := by
    rw [Contains, hlinks] at hlink
    exact (hg.isWindow_eq c).trans (h.children p c hlink)
  reached op menu hworks := by
    obtain ⟨hmenu, hpath⟩ := h.reached op menu hworks
    have hsize : menu < old.nodes.size := lt_size_of_kind NodeKind.isMenu rfl hmenu
    exact ⟨(hg.keeps NodeKind.isMenu NodeKind.isMenu_core hsize).trans hmenu,
      path_develops hg hpath⟩
  traced i op src hholds := (h.traced i op src hholds).imp_left (·.develops hg)
  carried i op o hholds := (h.carried i op o hholds).develops hg

/-- Operations may get objects that they admit and that come to them. -/
theorem fill (h : Filtered ctx g ns) {parameters receivers listeners : NodeRelation}
    (hvalues : ∀ (i : Inlet) op o,
      (i.choose parameters receivers listeners).holds op o →
        (i.values ns.solution).holds op o ∨
          (i.admits ctx.hierarchy g o op ∨
              i = .receiver ∧ ns.solution.contextMenus.holds op o) ∧
            Carried g ns.solution i op o ∧
              (i ≠ .listener → (g.kind o).isWindow = false)) :
    Filtered ctx g { ns with
      solution := { ns.solution with parameters, receivers, listeners } } :=
  { h with
    admitted := fun i op o hholds =>
      (hvalues i op o hholds).elim (h.admitted i op o) And.left
    values := fun i hinlet op o hholds =>
      (hvalues i op o hholds).elim (h.values i hinlet op o) fun hnew =>
        hnew.2.2 hinlet
    carried := fun i op o hholds =>
      (hvalues i op o hholds).elim (h.carried i op o) fun hnew => hnew.2.1 }

theorem addMenus (h : Filtered ctx g ns) {optionsMenus contextMenus : NodeRelation}
    (hoptions : ns.solution.optionsMenus.Within optionsMenus)
    (hcontext : ns.solution.contextMenus.Within contextMenus)
    (hmenus : ∀ op menu, contextMenus.holds op menu → (g.kind menu).isContextMenu)
    (hreached : ∀ op menu, optionsMenus.holds op menu ∨ contextMenus.holds op menu →
      (g.kind menu).isMenu ∧ Relation.ReflTransGen (g.FlowsTo menu) menu op) :
    Filtered ctx g { ns with
      solution := { ns.solution with optionsMenus, contextMenus } } := by
  have hworks : ∀ op menu, WorksOn ns.solution op menu →
      WorksOn { ns.solution with optionsMenus, contextMenus } op menu :=
    fun op menu => Or.imp (hoptions op menu) (hcontext op menu)
  exact { h with
    admitted := fun i op o hholds =>
      (h.admitted i op o hholds).imp_right (And.imp_right (hcontext op o))
    menus := hmenus
    reached := hreached
    traced := fun i op src hholds =>
      (h.traced i op src hholds).imp_right (And.imp_right (hworks op src))
    carried := fun i op o hholds =>
      (h.carried i op o hholds).mono (refl_of Relation.Within _) hworks }

theorem addContextMenu (h : Filtered ctx g ns) (hmenu : (g.kind menu).isContextMenu)
    (hpath : Relation.ReflTransGen (g.FlowsTo menu) menu op) :
    Filtered ctx g { ns with
      solution := { ns.solution with
        contextMenus := ns.solution.contextMenus.add op menu } } :=
  h.addMenus (refl_of Relation.Within _) (Relation.within_add _ _ _)
    (Relation.forall_add hmenu h.menus) fun op menu hworks =>
      hworks.elim (fun hholds => h.reached op menu (.inl hholds)) (Relation.forall_add
        ⟨NodeKind.isMenu_of_isContextMenu hmenu, hpath⟩ (fun op menu => h.reached op menu ∘ .inr) op menu)

theorem addOptionsMenu (h : Filtered ctx g ns) (hmenu : (g.kind menu).isMenu)
    (hpath : Relation.ReflTransGen (g.FlowsTo menu) menu op) :
    Filtered ctx g { ns with
      solution := { ns.solution with
        optionsMenus := ns.solution.optionsMenus.add op menu } } :=
  h.addMenus (Relation.within_add _ _ _) (refl_of Relation.Within _) h.menus fun op menu hworks =>
    hworks.elim (Relation.forall_add ⟨hmenu, hpath⟩ (fun op menu => h.reached op menu ∘ .inl) op menu)
      fun hholds => h.reached op menu (.inr hholds)

theorem isWindow_of_isContextMenu {kind : NodeKind} (h : kind.isContextMenu) :
    kind.isWindow = false := by
  cases kind <;> simp_all [NodeKind.isContextMenu, NodeKind.isWindow]

/-- An operation may receive a context menu that it works on, even if it does not admit it. -/
theorem receiveMenu (h : Filtered ctx g ns)
    (hmenu : ns.solution.contextMenus.holds op menu) :
    Filtered ctx g { ns with
      solution := { ns.solution with
        receivers := ns.solution.receivers.add op menu } } := by
  refine h.fill fun i op' o hholds => ?_
  cases i with
  | receiver =>
    rcases Relation.holds_add.mp hholds with ⟨rfl, rfl⟩ | hold
    · exact .inr ⟨.inr ⟨rfl, hmenu⟩, .inr (.inr ⟨rfl, .inr hmenu⟩),
        fun _ => isWindow_of_isContextMenu (h.menus _ _ hmenu)⟩
    · exact .inl hold
  | parameter => exact .inl hholds
  | listener => exact .inl hholds

theorem give (h : Filtered ctx g ns) {results viewProducers : NodeRelation}
    (hwithin : ns.solution.results.Within results)
    (hresults : ∀ op o, results.holds op o → ns.solution.results.holds op o ∨
      ctx.hierarchy.admits g o op .result ∧ (g.kind o).isWindow = false) :
    Filtered ctx g { ns with
      solution := { ns.solution with results, viewProducers } } :=
  { h with
    given := fun op o hholds =>
      (hresults op o hholds).elim (h.given op o) fun hnew => hnew.1
    results := fun op o hholds =>
      (hresults op o hholds).elim (h.results op o) fun hnew => hnew.2
    carried := fun i op o hholds =>
      (h.carried i op o hholds).mono hwithin fun _ _ => id }

theorem addLink (h : Filtered ctx g ns) {c p : NodeId} {added : Bool}
    (hlink : g.addLink c p = .ok (added, new))
    (hchild : (g.kind c).isWindow = false) : Filtered ctx new ns := by
  rcases addLink_ok hlink with ⟨_, rfl, _⟩ | ⟨_, rfl, _⟩
  · exact h
  · refine { h with children := fun p' c' hcontains => ?_ }
    rcases Array.mem_push.mp hcontains with hold | heq
    · exact h.children p' c' hold
    · cases heq
      exact hchild

end Filtered

/-! ## Tidy states -/

/-- A sound state in which every object belongs where it is. -/
structure Tidy (ctx : Context) (st : Progress Notes) : Prop where
  sound : st.Sound
  filtered : Filtered ctx st.graph st.notes

/-- States are tidy, new values flow only to where they may, and nothing stops by itself. -/
abbrev Tidying (ctx : Context) (origin : FlowGraph) : Law Notes :=
  ⟨fun st => Tidy ctx st ∧ Aimed origin st.graph, fun _ => False⟩

/-- Notes that fit a graph and have every object where it belongs go on to such notes. -/
def Notes.StaysTidy (ctx : Context) (g : FlowGraph) (old new : Notes) : Prop :=
  old.Fits g → Filtered ctx g old → new.Fits g ∧ Filtered ctx g new

instance : IsPreorder Notes (Notes.StaysTidy ctx g) where
  refl _ hfits hfiltered := ⟨hfits, hfiltered⟩
  trans _ _ _ h h' hfits hfiltered := (h hfits hfiltered).elim h'

theorem Tidy.evolve {s t : Progress Notes} (hs : Tidy ctx s)
    (h : Evolves Eq (Notes.StaysTidy ctx s.graph) s t) : Tidy ctx t := by
  obtain ⟨hgraph, hnotes⟩ := h
  obtain ⟨hfits, hfiltered⟩ := hnotes hs.sound.fits hs.filtered
  exact ⟨⟨hgraph ▸ hs.sound.wellFormed, hgraph ▸ hfits⟩, hgraph ▸ hfiltered⟩

section Ensures

variable {α : Type} {part : Solving α} {origin : FlowGraph}

/-- A part that only changes the notes keeps states tidy if it keeps the notes so. -/
theorem tidies_noted (h : ∀ s, Extends base s.graph →
      Runs part s fun _ t => Evolves Eq (Notes.StaysTidy ctx s.graph) s t) :
    Upholds (Tidying ctx origin) base part :=
  fun s hbase hs => (h s hbase).weaken fun _ _ ht =>
    ⟨ht.1 ▸ .refl _, ⟨hs.1.evolve ht, ht.1 ▸ hs.2⟩, trivial⟩

/-- States stay tidy when the graph gets more without new operations and windows. -/
theorem tidying_graft {st : Progress Notes} (h : (Tidying ctx origin).inv st)
    (hgrafts : Grafts st.graph g) (hg : Develops st.graph g) :
    (Tidying ctx origin).inv { st with graph := g } :=
  ⟨⟨⟨hgrafts.wellFormed h.1.sound.wellFormed, h.1.sound.fits.mono hgrafts.toExtends⟩,
    h.1.filtered.develops h.1.sound.fits h.1.sound.wellFormed hg hgrafts.links_eq⟩,
    hgrafts.aimed h.1.sound.wellFormed h.2⟩

instance : Stable (Tidying ctx origin) where
  sound h := h.1.sound
  report _ h := ⟨⟨⟨h.1.sound.wellFormed, h.1.sound.fits⟩, h.1.filtered⟩, h.2⟩
  varNode _ _ _ h := tidying_graft h (grafts_share rfl rfl) (develops_share rfl rfl rfl)
  addEdge site h hsource htarget :=
    tidying_graft h (grafts_addEdge site hsource htarget) (develops_addEdge ..)

end Ensures

end WidgetFlow.Solving
