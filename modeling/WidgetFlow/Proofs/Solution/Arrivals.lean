import WidgetFlow.Proofs.Solution.Filtering

/-!
# What arrives at operations before anything is resolved

Constants, windows and menus are followed through the graph as the wiring leaves it. None of this
changes the graph. The windows of an operation are exactly those that flow into its receiver
(`gives_arriveWindows`), and every object belongs where it arrives.
-/

namespace WidgetFlow.Solving

open Analysis FlowGraph

variable {g base : FlowGraph} {op src win menu : NodeId} {reach : NodeSet}
  {record : NodeId → NodeId → Solution → Solution} {otherwise : NodeId → NodeId → Solving Unit}

/-- The operations that a node reaches are listed without itself. -/
theorem mem_reachedOps :
    op ∈ reachedOps g src reach ↔ op ∈ reach ∧ op ≠ src ∧ g.isOp op := by
  simp [reachedOps, Std.TreeSet.mem_toList]

theorem any_contains_iff {slot : Option NodeId} :
    slot.any reach.contains ↔ ∃ n, slot = some n ∧ n ∈ reach := by
  cases slot <;> simp

theorem mem_windowsOf : win ∈ windowsOf g ↔ (g.kind win).isWindow := by
  simp only [windowsOf, List.mem_append, List.mem_map, Prod.exists, exists_eq_right, mem_activities,
    mem_dialogs]
  constructor
  · rintro (⟨owner, hkind⟩ | ⟨owner, site, cancelable, hkind⟩) <;> rw [hkind] <;> rfl
  · intro hwindow
    cases hkind : g.kind win with
    | activity owner => exact .inl ⟨owner, rfl⟩
    | dialog owner site cancelable => exact .inr ⟨owner, site, cancelable, rfl⟩
    | _ => simp [hkind, NodeKind.isWindow] at hwindow

theorem hasObject_of_isWindow (h : (g.kind win).isWindow) : g.HasObject win := by
  unfold HasObject
  cases hkind : g.kind win <;> simp_all [NodeKind.isWindow, NodeKind.isObject]

theorem hasObject_of_isMenu (h : (g.kind menu).isMenu) : g.HasObject menu := by
  unfold HasObject
  cases hkind : g.kind menu <;> simp_all [NodeKind.isMenu, NodeKind.isObject]

theorem mem_contextMenus (h : menu ∈ g.contextMenus) : (g.kind menu).isContextMenu := by
  obtain ⟨⟨filler, _⟩, hpicked, rfl⟩ := List.mem_map.mp h
  have hselect := (mem_pick rfl).mp hpicked
  cases hkind : g.kind _ <;> simp_all [NodeKind.isContextMenu]

theorem mem_optionsMenus {entry : String × NodeId} (h : entry ∈ g.optionsMenus) :
    (g.kind entry.2).isMenu := by
  have hselect := (mem_pick rfl).mp (Ordered.mem_sort.mp h)
  cases hkind : g.kind _ <;> simp_all [NodeKind.isMenu]

theorem isOp_of_mem_opsReached (h : op ∈ opsReached g src) : g.isOp op :=
  (mem_reachedOps.mp h).2.2

theorem path_of_mem_opsReached (h : op ∈ opsReached g src) :
    Relation.ReflTransGen (g.FlowsTo src) src op :=
  mem_forwardReachable.mp (mem_reachedOps.mp h).1

/-! ## What arrives -/

def Notes.Same {α : Type} (column : Notes → α) (old new : Notes) : Prop :=
  column new = column old

instance {α : Type} (column : Notes → α) : IsPreorder Notes (Notes.Same column) where
  refl _ := rfl
  trans _ _ _ h h' := h'.trans h

section Evolves

variable {rel : Notes → Notes → Prop} [IsPreorder Notes rel] {s : Progress Notes}

theorem keeps_misplaced (what : String) (src op : NodeId) :
    Keeps (Evolves Eq rel) (misplaced what src op) :=
  Keeps.getGraph.bind fun _ => .violation _

theorem keeps_arriveIds (kind : IdKind) (accept : OpKind → Bool)
        (hrecord : ∀ (ns : Notes) op id,
      rel ns { ns with solution := record op id ns.solution })
    (hotherwise : ∀ id op, Keeps (Evolves Eq rel) (otherwise id op)) :
    Keeps (Evolves Eq rel) (arriveIds kind accept record otherwise) := by
  refine Keeps.getGraph.bind fun g => .forM fun entry _ => .forM fun op _ => ?_
  split
  · exact .modifyNotes fun ns => hrecord ns op entry.2
  · exact hotherwise entry.2 op

/-- The constants change nothing but the identifiers that operations work with. -/
theorem keeps_arriveConstants
    (hrel : ∀ (ns : Notes) layoutIds menuIds viewIds,
      rel ns { ns with solution := { ns.solution with layoutIds, menuIds, viewIds } }) :
    Keeps (Evolves Eq rel) arriveConstants := by
  refine (keeps_arriveIds _ _ ?_ (keeps_misplaced "Layout id")).bind fun _ =>
    (keeps_arriveIds _ _ ?_ (keeps_misplaced "Menu id")).bind fun _ =>
    (keeps_arriveIds _ _ ?_ fun _ _ => .pure _).bind fun _ =>
    keeps_arriveIds _ _ ?_ (keeps_misplaced "Anonymous id")
  all_goals exact fun ns _ _ => hrel ns _ _ _

theorem runs_arriveWindows
    (hrel : ∀ (ns : Notes) win op, (s.graph.kind win).isWindow →
      rel ns (arriveWindow s.graph win (s.graph.forwardReachable win) op ns)) :
    Runs arriveWindows s fun _ t => Evolves Eq rel s t := by
  have hkeeps : Keeps (Evolves Eq rel) ((windowsOf s.graph).forM fun win =>
      (opsReached s.graph win).forM fun op =>
        modifyNotes (arriveWindow s.graph win (s.graph.forwardReachable win) op)) :=
    .forM fun win hwindow => .forM fun op _ => .modifyNotes fun ns =>
      hrel ns win op (mem_windowsOf.mp hwindow)
  exact .getGraph (hkeeps s)

/-- The windows change nothing but what operations work on and listen with. -/
theorem keeps_arriveWindows
    (hrel : ∀ (ns : Notes) windows listeners, rel ns { ns with
      solution := { ns.solution with windows }
      paths := { ns.paths with listeners } }) :
    Keeps (Evolves Eq rel) arriveWindows := by
  refine fun s => runs_arriveWindows fun ns win op _ => ?_
  unfold arriveWindow
  split
  · exact refl_of rel ns
  · split
    · exact hrel ns _ _
    · split
      · exact hrel ns _ _
      · exact refl_of rel ns

/-- A context menu is noted with the operations that it flows to and that work on menus. -/
theorem runs_arriveContextMenu
    (hrel : ∀ (ns : Notes) op, op ∈ opsReached s.graph menu → rel ns { ns with
      solution := { ns.solution with
        contextMenus := ns.solution.contextMenus.add op menu } }) :
    Runs (arriveContextMenu menu) s fun ops t => Evolves Eq rel s t ∧
      ∀ op ∈ ops, op ∈ opsReached s.graph menu ∧
        t.notes.solution.contextMenus.holds op menu := by
  let inv (chosen : List NodeId) (st : Progress Notes) : Prop := Evolves Eq rel s st ∧
    ∀ op ∈ chosen, op ∈ opsReached s.graph menu ∧ st.notes.solution.contextMenus.holds op menu
  have hinv : inv [] s := ⟨refl_of (Evolves Eq rel) s, by simp⟩
  refine .getGraph ((Does.filterM hinv fun chosen st hstate op hop => ?_).weaken ?_)
  · split
    · refine Does.bind (.modifyNotes ⟨⟨hstate.1.1, ?_⟩, ?_⟩) fun _ _ ht => .pure ht
      · exact trans_of rel hstate.1.2 (hrel st.notes op hop)
      · refine List.forall_mem_cons.mpr ⟨⟨hop, Relation.holds_add.mpr (.inl ⟨rfl, rfl⟩)⟩, ?_⟩
        exact fun other hother =>
          (hstate.2 other hother).imp_right fun h => Relation.holds_add.mpr (.inr h)
    · refine Does.bind (.getGraph (.violation (fun _ => ?_) _)) fun _ _ ht => .pure ht
      exact ⟨hstate.1, hstate.2⟩
  · exact fun found t ht =>
      ⟨ht.1, fun op hop => ht.2 op (List.mem_reverse.mpr hop)⟩

theorem runs_arriveMenus
    (hoptions : ∀ (ns : Notes) menu op, (s.graph.kind menu).isMenu →
      op ∈ opsReached s.graph menu → rel ns { ns with
        solution := { ns.solution with
          optionsMenus := ns.solution.optionsMenus.add op menu } })
    (hcontext : ∀ (ns : Notes) menu op, (s.graph.kind menu).isContextMenu →
      op ∈ opsReached s.graph menu → rel ns { ns with
        solution := { ns.solution with
          contextMenus := ns.solution.contextMenus.add op menu } }) :
    Runs arriveMenus s fun _ t => Evolves Eq rel s t := by
  have hmenus : Keeps (Evolves Eq rel)
      (s.graph.optionsMenus.forM fun entry => arriveOptionsMenu s.graph entry.2) :=
    .forM fun entry hentry => .forM fun op hop => .modifyNotes fun ns =>
      hoptions ns entry.2 op (mem_optionsMenus hentry) (List.mem_of_mem_filter hop)
  refine .getGraph ((hmenus s).bind fun _ middle hmiddle => ?_)
  rw [forM_eq_foldlM]
  -- the graph stays the same, so what is a context menu at first is one in every round
  refine .foldlM hmiddle fun _ st hstate menu hmenu => ?_
  refine (runs_arriveContextMenu fun ns op hop => ?_).bind fun _ _ ht =>
    .pure (trans_of (Evolves Eq rel) hstate ht.1)
  exact hcontext ns menu op (mem_contextMenus hmenu) (hstate.1 ▸ hop)

/-- The menus change nothing but which menus operations work on. -/
theorem keeps_arriveMenus
    (hrel : ∀ (ns : Notes) optionsMenus contextMenus,
      rel ns { ns with solution := { ns.solution with optionsMenus, contextMenus } }) :
    Keeps (Evolves Eq rel) arriveMenus :=
  fun _ => runs_arriveMenus (fun ns _ _ _ _ => hrel ns _ _) fun ns _ _ _ _ => hrel ns _ _

end Evolves

/-- The receiver of an operation that works on windows is reached. -/
def Receives (g : FlowGraph) (reach : NodeSet) (op : NodeId) : Prop :=
  ∃ found n, g.op? op = some found ∧ found.kind.takesWindow ∧
    found.receiver = some n ∧ n ∈ reach

theorem holds_arriveWindow {ns : Notes} {key v : NodeId} :
    (arriveWindow g win reach op ns).solution.windows.holds key v ↔
      (key = op ∧ v = win ∧ Receives g reach op) ∨
      ns.solution.windows.holds key v := by
  unfold arriveWindow Receives
  cases hop : g.op? op with
  | none => simp
  | some found =>
    simp only [Bool.and_eq_true, any_contains_iff]
    split
    next h => simp_all
    next h => split <;> simp_all

/-- What operations get when a window arrives at several of them. -/
theorem holds_arriveWindow_all {ops : List NodeId} {ns : Notes} {key v : NodeId} :
    (ops.foldl (fun ns op => arriveWindow g win reach op ns)
      ns).solution.windows.holds key v ↔
      (key ∈ ops ∧ v = win ∧ Receives g reach key) ∨
      ns.solution.windows.holds key v := by
  refine (Relation.holds_foldl (fun ns : Notes => ns.solution.windows)
    (fun op => key = op ∧ v = win ∧ Receives g reach op) (fun ns op => ?_)
    ops ns).trans ?_
  · exact holds_arriveWindow
  · refine or_congr_left ⟨?_, fun h => ⟨key, h.1, rfl, h.2⟩⟩
    rintro ⟨op, hop, rfl, hwindow⟩
    exact ⟨hop, hwindow⟩

theorem gives_arriveWindows {s : Progress Notes} (hwell : s.graph.WellFormed) :
    arriveWindows.Gives s fun _ t =>
      ∀ op win, t.notes.solution.windows.holds op win ↔
        ((s.graph.kind win).isWindow ∧
          Receives s.graph (s.graph.forwardReachable win) op) ∨
        s.notes.solution.windows.holds op win := by
  unfold arriveWindows
  simp only [gives_bind, gives_getGraph, forM_modifyNotes, gives_modifyNotes]
  intro op win
  refine (Relation.holds_foldl (fun ns : Notes => ns.solution.windows)
    (fun found => op ∈ reachedOps s.graph found (s.graph.forwardReachable found) ∧
      win = found ∧ Receives s.graph (s.graph.forwardReachable found) op)
    (fun ns win => ?_) _ s.notes).trans (or_congr_left ?_)
  · exact holds_arriveWindow_all
  · constructor
    · rintro ⟨_, hwindow, _, rfl, hreceives⟩
      exact ⟨mem_windowsOf.mp hwindow, hreceives⟩
    · rintro ⟨hwindow, hreceives⟩
      obtain ⟨found, n, hop, _, hreceiver, hnode⟩ := id hreceives
      have hreached := mem_forwardReachable_of_slot hwell hop (.inl hreceiver) hnode
      have hne : op ≠ win := by
        rintro rfl
        simp [(hasObject_of_isWindow hwindow).hasValue.op?_eq_none] at hop
      refine ⟨win, mem_windowsOf.mpr hwindow, ?_, rfl, hreceives⟩
      exact mem_reachedOps.mpr ⟨hreached, hne, isOp_iff.mpr ⟨found, hop⟩⟩

/-! ## Identifiers -/

/-- An identifier of a kind flows to an operation that has a use for it. -/
def IdArrives (g : FlowGraph) (kind : IdKind) (accept : OpKind → Bool) (op id : NodeId) :
    Prop :=
  (∃ v, g.kind id = .id kind v) ∧ opIs g accept op ∧ op ∈ g.forwardReachable id

/-- Identifiers that flow to an operation are recorded there, and no others. -/
theorem gives_arriveIds {kind : IdKind} {accept : OpKind → Bool}
        (column : Solution → NodeRelation)
    (hrecord : ∀ sol op id key v, (column (record op id sol)).holds key v ↔
      (key = op ∧ v = id) ∨ (column sol).holds key v)
    (hotherwise : ∀ id op, Keeps (Evolves Eq (Notes.Same (column ·.solution))) (otherwise id op))
    (s : Progress Notes) (op id : NodeId) :
    (arriveIds kind accept record otherwise).Gives s fun _ t =>
      ((column t.notes.solution).holds op id ↔
        IdArrives s.graph kind accept op id ∨ (column s.notes.solution).holds op id) := by
  rw [arriveIds, gives_bind, gives_getGraph]
  have hround : ∀ entry : ResId × NodeId, ∀ st,
      ((opsReached s.graph entry.2).forM fun reached =>
        if opIs s.graph accept reached then modifySolution (record reached entry.2)
        else otherwise entry.2 reached).Gives st fun _ t =>
          ((column t.notes.solution).holds op id ↔
            (∃ reached ∈ opsReached s.graph entry.2,
              (op = reached ∧ id = entry.2) ∧ opIs s.graph accept reached) ∨
              (column st.notes.solution).holds op id) := by
    refine fun entry st => gives_forM_iff fun reached _ st => ?_
    split
    next haccept => exact gives_modifyNotes.mpr (by simp [hrecord, haccept])
    next haccept =>
      refine (hotherwise entry.2 reached st).gives.weaken fun _ t ht => ?_
      have hcolumn : column t.notes.solution = column st.notes.solution := ht.2
      simp [hcolumn, haccept]
  refine (gives_forM_iff fun entry _ st => hround entry st).weaken fun _ t ht => ?_
  rw [ht]
  refine or_congr_left ⟨?_, ?_⟩
  · rintro ⟨⟨v, _⟩, hentry, _, hreached, ⟨rfl, rfl⟩, haccept⟩
    exact ⟨⟨v, mem_idNodes.mp hentry⟩, haccept, (mem_reachedOps.mp hreached).1⟩
  · rintro ⟨⟨v, hkind⟩, haccept, hreach⟩
    have hisOp : s.graph.isOp op := by
      obtain ⟨found, hop, _⟩ := (Option.any_eq_true _ _).mp haccept
      exact isOp_iff.mpr ⟨found, hop⟩
    have hne : op ≠ id := by
      rintro rfl
      rw [isOp, hkind] at hisOp
      exact absurd hisOp Bool.false_ne_true
    exact ⟨(v, id), mem_idNodes.mpr hkind, op, mem_reachedOps.mpr ⟨hreach, hne, hisOp⟩,
      ⟨rfl, rfl⟩, haccept⟩

/-- The identifiers of operations are those that flow to them in a graph. -/
structure IdsFrom (g : FlowGraph) (sol : Solution) : Prop where
  layouts : ∀ op id, sol.layoutIds.holds op id ↔
    IdArrives g .layout OpKind.takesLayoutId op id
  menus : ∀ op id, sol.menuIds.holds op id ↔ IdArrives g .menu (· = .inflateMenu) op id
  views : ∀ op id, sol.viewIds.holds op id ↔
    IdArrives g .widget OpKind.takesViewId op id ∨
      IdArrives g .anonymous OpKind.isFindInView op id

theorem gives_arriveConstants (g : FlowGraph) (policy : Policy) :
    arriveConstants.Gives { graph := g, policy, notes := {} } fun _ t =>
      IdsFrom g t.notes.solution := by
  intro _ t houtcome
  obtain ⟨_, first, hfirst, houtcome⟩ := outcome_bind_ok houtcome
  obtain ⟨_, second, hsecond, houtcome⟩ := outcome_bind_ok houtcome
  obtain ⟨_, third, hthird, hfourth⟩ := outcome_bind_ok houtcome
  -- each part records identifiers in one place and leaves the others as they are
  have hlayouts : Evolves Eq (Notes.Same fun ns => (ns.solution.menuIds, ns.solution.viewIds))
      { graph := g, policy, notes := {} } first :=
    keeps_arriveIds _ _ (fun _ _ _ => rfl) (keeps_misplaced "Layout id") _ |>.gives _ _ hfirst
  have hmenus : Evolves Eq (Notes.Same fun ns => (ns.solution.layoutIds, ns.solution.viewIds))
      first second :=
    keeps_arriveIds _ _ (fun _ _ _ => rfl) (keeps_misplaced "Menu id") _ |>.gives _ _ hsecond
  have hwidgets : Evolves Eq (Notes.Same fun ns => (ns.solution.layoutIds, ns.solution.menuIds))
      second third :=
    keeps_arriveIds _ _ (fun _ _ _ => rfl) (fun _ _ => .pure _) _ |>.gives _ _ hthird
  have hothers : Evolves Eq (Notes.Same fun ns => (ns.solution.layoutIds, ns.solution.menuIds))
      third t :=
    keeps_arriveIds _ _ (fun _ _ _ => rfl) (keeps_misplaced "Anonymous id") _ |>.gives _ _ hfourth
  have hgraph : g = second.graph := hlayouts.1.trans hmenus.1
  refine ⟨fun op id => ?_, fun op id => ?_, fun op id => ?_⟩
  · have hlayoutIds : t.notes.solution.layoutIds = first.notes.solution.layoutIds :=
      (congrArg Prod.fst hothers.2).trans
        ((congrArg Prod.fst hwidgets.2).trans (congrArg Prod.fst hmenus.2))
    rw [hlayoutIds]
    refine (gives_arriveIds Solution.layoutIds (fun _ _ _ _ _ => Relation.holds_add)
      (keeps_misplaced _) _ op id _ _ hfirst).trans ?_
    simp
  · have hmenuIds : t.notes.solution.menuIds = second.notes.solution.menuIds :=
      (congrArg Prod.snd hothers.2).trans (congrArg Prod.snd hwidgets.2)
    have hempty : first.notes.solution.menuIds = {} := congrArg Prod.fst hlayouts.2
    rw [hmenuIds]
    refine (gives_arriveIds Solution.menuIds (fun _ _ _ _ _ => Relation.holds_add)
      (keeps_misplaced _) _ op id _ _ hsecond).trans ?_
    rw [hempty, ← hlayouts.1]
    simp
  · have hempty : second.notes.solution.viewIds = {} :=
      (congrArg Prod.snd hmenus.2).trans (congrArg Prod.snd hlayouts.2)
    refine (gives_arriveIds Solution.viewIds (fun _ _ _ _ _ => Relation.holds_add)
      (keeps_misplaced _) _ op id _ _ hfourth).trans (or_comm.trans (or_congr ?_ ?_))
    · refine (gives_arriveIds Solution.viewIds (fun _ _ _ _ _ => Relation.holds_add)
        (fun _ _ => .pure _) _ op id _ _ hthird).trans ?_
      rw [hempty, ← hgraph]
      simp
    · rw [← hwidgets.1, ← hgraph]

/-! ## Tidy notes -/

section Tidy

variable {ctx : Context} {ns : Notes} {menu : NodeId}

/-- A window is a listener of operations whose parameter it flows to. -/
theorem tidy_arriveWindow (hwindow : (g.kind win).isWindow) :
    ns.StaysTidy ctx g
      (arriveWindow g win (g.forwardReachable win) op ns) := by
  intro hfits hfiltered
  have hobject := hasObject_of_isWindow hwindow
  unfold arriveWindow
  split
  · exact ⟨hfits, hfiltered⟩
  next found hop =>
    have hisOp : g.isOp op := isOp_iff.mpr ⟨found, hop⟩
    split
    · refine ⟨{ hfits with windows := hfits.windows.add hisOp hobject },
        { hfiltered with windows := ?_ }⟩
      exact Relation.forall_add hwindow hfiltered.windows
    · split
      next hlistens =>
        have hnew : ∀ (i : Inlet) (op' src : NodeId),
            (i.sources { ns.paths with
              listeners := ns.paths.listeners.add op win }).holds op' src →
            (i = .listener ∧ op' = op ∧ src = win) ∨
              (i.sources ns.paths).holds op' src := by
          intro i op' src hholds
          cases i with
          | parameter => exact .inr hholds
          | receiver => exact .inr hholds
          | listener => exact (Relation.holds_add.mp hholds).imp_left fun h => ⟨rfl, h⟩
        obtain ⟨n, hnode, hreach⟩ := any_contains_iff.mp (Bool.and_eq_true_iff.mp hlistens).2
        refine ⟨{ hfits with sources := fun i op' src hholds => ?_ },
          { hfiltered with traced := fun i op' src hholds => ?_ }⟩
        · rcases hnew i op' src hholds with ⟨_, rfl, _⟩ | hold
          · exact hisOp
          · exact hfits.sources i op' src hold
        · rcases hnew i op' src hholds with ⟨rfl, rfl, rfl⟩ | hold
          · exact .inl ⟨found, n, hop, hnode, mem_forwardReachable.mp hreach⟩
          · exact hfiltered.traced i op' src hold
      next => exact ⟨hfits, hfiltered⟩

theorem tidy_addOptionsMenu (hmenu : (g.kind menu).isMenu) (hop : op ∈ opsReached g menu) :
    ns.StaysTidy ctx g { ns with
      solution := { ns.solution with
        optionsMenus := ns.solution.optionsMenus.add op menu } } :=
  fun hfits hfiltered => ⟨{ hfits with
    optionsMenus :=
      hfits.optionsMenus.add (isOp_of_mem_opsReached hop) (hasObject_of_isMenu hmenu) },
    hfiltered.addOptionsMenu hmenu (path_of_mem_opsReached hop)⟩

theorem tidy_addContextMenu (hmenu : (g.kind menu).isContextMenu)
    (hop : op ∈ opsReached g menu) :
    ns.StaysTidy ctx g { ns with
      solution := { ns.solution with
        contextMenus := ns.solution.contextMenus.add op menu } } :=
  fun hfits hfiltered => ⟨{ hfits with
    contextMenus := hfits.contextMenus.add (isOp_of_mem_opsReached hop)
      (hasObject_of_isMenu (NodeKind.isMenu_of_isContextMenu hmenu)) },
    hfiltered.addContextMenu hmenu (path_of_mem_opsReached hop)⟩

end Tidy

end WidgetFlow.Solving
