import WidgetFlow.Proofs.Solution.Loops
import WidgetFlow.Proofs.Solution.Paths

/-!
# Inflation keeps states complete

Inflating a resource makes new nodes and lets them flow to where the platform calls methods on them.
Old nodes get no new edges, so all that was known about their flow stays true
(`Complete.sprouts`), and a new view is put at once into the operations that it flows into.

`Inflated` collects what holds throughout inflation, from the state in which the paths have been
traced: `ensures_inflateLayouts` and `ensures_inflateMenus`. States stay tidy as well. The only
objects that operations get without being asked are the context menus of inflated views
(`tidies_ownContextMenu`).
-/

namespace WidgetFlow

namespace Analysis

open FlowGraph

variable {Notes : Type} {rel : Notes → Notes → Prop} [IsPreorder Notes rel] {ctx : Context}
  {n : NodeId}

/-- A new node flows to receivers and to nothing else that matters here. -/
theorem keeps_sown_connect? {dst : Option NodeId} {site : Option StmtId} :
    Keeps (Evolves (Sows n) rel) (connect? n dst site : Analysis Notes Unit) :=
  .modifyGraph fun g => by
    cases dst with
    | none => exact refl_of (Sows n) g
    | some dst => exact sows_addEdge dst site (.inl rfl)

theorem keeps_sown_varNode? {m : MethodId} {name : Option String} :
    Keeps (Evolves (Sows n) rel) (ctx.varNode? m name : Analysis Notes _) :=
  .varNode? ctx m name fun _ _ _ => sows_share rfl rfl rfl rfl

end Analysis

namespace Solving

open Analysis FlowGraph

variable {ctx : Context} {g base origin : FlowGraph} {i : Inlet}
  {n src dst op : NodeId} {reach : NodeSet} {sol : Solution} {s : Progress Notes}

/-! ## Wiring a new node -/

section Wiring

variable {rel : Notes → Notes → Prop} [IsPreorder Notes rel] {law : Law Notes} [Stable law]

theorem builds_finishInflation (owner : String) (hnode : base.HasValue n) :
    Upholds law base (finishInflation ctx n owner) := by
  unfold finishInflation
  split
  · refine builds_thisNode?.bind fun this g hg hthis => ?_
    exact builds_connect? none (hnode.mono hg) hthis
  · exact .done _

theorem keeps_finishInflation (ctx : Context) (n : NodeId) (owner : String) :
    Keeps (Evolves (Sows n) rel) (finishInflation ctx n owner) := by
  unfold finishInflation
  split
  · exact keeps_sown_varNode?.bind fun _ => keeps_sown_connect?
  · exact .pure _

theorem builds_wireConstructors (owner : String) (hnode : base.HasValue n) :
    Upholds law base (wireConstructors ctx n owner) := by
  refine .forM fun m _ => ?_
  refine builds_thisNode?.bind fun this g hg hthis => ?_
  exact builds_connect? none (hnode.mono hg) hthis

theorem keeps_wireConstructors (ctx : Context) (n : NodeId) (owner : String) :
    Keeps (Evolves (Sows n) rel) (wireConstructors ctx n owner) :=
  .forM fun _ _ => keeps_sown_varNode?.bind fun _ => keeps_sown_connect?

end Wiring

/-! ## Context menus of inflated views -/

section ContextMenus

variable {s : Progress Notes} {menu : NodeId}

/-- A new context menu is noted with the operations that work on it, which then receive it. -/
theorem runs_ownContextMenu {rel : Notes → Notes → Prop} [IsPreorder Notes rel]
    (harrive : ∀ (ns : Notes) op, op ∈ opsReached s.graph menu → rel ns { ns with
      solution := { ns.solution with
        contextMenus := ns.solution.contextMenus.add op menu } })
    (hreceive : ∀ (ns : Notes) op, ns.solution.contextMenus.holds op menu →
      rel ns { ns with solution := { ns.solution with
        receivers := ns.solution.receivers.add op menu } }) :
    Runs (arriveContextMenu menu >>= fun ops => ops.forM fun op => modifySolution fun sol =>
        { sol with receivers := sol.receivers.add op menu }) s fun _ t =>
      Evolves Eq rel s t := by
  refine (runs_arriveContextMenu harrive).bind fun ops middle hmiddle => ?_
  -- the operations work on the menu while they receive it
  have hloop : Runs (ops.foldlM (fun _ op => modifySolution fun sol =>
      { sol with receivers := sol.receivers.add op menu }) ()) middle fun _ t =>
        Evolves Eq rel s t ∧
          ∀ op ∈ ops, t.notes.solution.contextMenus.holds op menu :=
    .foldlM ⟨hmiddle.1, fun op hop => (hmiddle.2 op hop).2⟩ fun _ st hstate op hop =>
      .modifyNotes ⟨⟨hstate.1.1, trans_of rel hstate.1.2
        (hreceive st.notes op (hstate.2 op hop))⟩, hstate.2⟩
  rw [forM_eq_foldlM]
  exact hloop.weaken fun _ _ ht => ht.1

theorem tidies_ownContextMenu (hmenu : (base.kind menu).isContextMenu) :
    Upholds (Tidying ctx origin) base (arriveContextMenu menu >>= fun ops => ops.forM fun op =>
      modifySolution fun sol =>
        { sol with receivers := sol.receivers.add op menu }) := by
  refine tidies_noted fun s hbase => ?_
  have hsize : menu < base.nodes.size := lt_size_of_kind NodeKind.isContextMenu rfl hmenu
  have hmenu := (hbase.keeps NodeKind.isContextMenu NodeKind.isContextMenu_core hsize).trans hmenu
  refine runs_ownContextMenu (fun _ _ hop => tidy_addContextMenu hmenu hop) ?_
  exact fun ns op hholds hfits hfiltered => ⟨hfits.fill (hfits.values .parameter)
    ((hfits.values .receiver).add (hfits.contextMenus op menu hholds).1
      (hfits.contextMenus op menu hholds).2) (hfits.values .listener),
    hfiltered.receiveMenu hholds⟩

theorem keeps_ownContextMenu (n menu : NodeId) :
    Keeps (Evolves (Sows n) Notes.Collects) (arriveContextMenu menu >>= fun ops =>
      ops.forM fun op => modifySolution fun sol =>
        { sol with receivers := sol.receivers.add op menu }) := by
  refine fun s => (runs_ownContextMenu (fun ns _ _ => ?_) fun ns _ _ => ?_).weaken
    fun _ _ ht => ⟨ht.1 ▸ refl_of (Sows n) _, ht.2⟩
  · exact { refl_of Notes.Collects ns with }
  · exact collects_fill (refl_of Relation.Within _) (Relation.within_add _ _ _)
      (refl_of Relation.Within _)

end ContextMenus

theorem tidies_wireInflatedContextMenu (owner : String) (hnode : base.HasValue n) :
    Upholds (Tidying ctx origin) base (wireInflatedContextMenu ctx n owner) := by
  unfold wireInflatedContextMenu
  split
  case h_2 => exact .done _
  rename_i m _
  refine builds_thisNode?.bind fun this g hg hthis => ?_
  refine builds_paramNode?.bind fun formal g' hg' hformal => ?_
  split
  case h_2 => exact .done _
  rename_i this formal
  have hnode := hnode.mono (hg.trans hg')
  have hthis := ((hthis this rfl).mono hg').hasGoal
  refine (builds_connect none hnode hthis).andThen fun _ => ?_
  have hmenu : Ensures (Tidying ctx origin) g' (onGraph (contextMenuNode m formal this))
      fun g menu => (g.kind menu.1).isContextMenu := by
    refine .of_graph fun s hbase hs => ?_
    have hgrafts := grafts_contextMenuNode m this ((hformal formal rfl).mono hbase)
    have hsows : Sows n s.graph _ := sows_contextMenuNode m formal this
    exact ⟨hgrafts.toExtends, tidying_graft hs hgrafts hsows.toDevelops,
      isContextMenu_contextMenuNode _ _ _⟩
  exact hmenu.bind fun menu _ _ hmenu => tidies_ownContextMenu hmenu

theorem keeps_wireInflatedContextMenu (ctx : Context) (n : NodeId) (owner : String) :
    Keeps (Evolves (Sows n) Notes.Collects) (wireInflatedContextMenu ctx n owner) := by
  unfold wireInflatedContextMenu
  split
  case h_2 => exact .pure _
  refine keeps_sown_varNode?.bind fun this => keeps_sown_varNode?.bind fun formal => ?_
  split
  case h_2 => exact .pure _
  rename_i this formal
  refine Keeps.bind (.modifyGraph fun _ => sows_addEdge this none (.inl rfl)) fun _ => ?_
  exact Keeps.bind (.onGraph fun _ => sows_contextMenuNode _ _ _) fun menu =>
    keeps_ownContextMenu n menu.1

theorem tidies_wireInflatedView (owner : String) (hnode : base.HasValue n) :
    Upholds (Tidying ctx origin) base (wireInflatedView ctx n owner) := by
  unfold wireInflatedView
  extract_lets finish
  have hfinish : Upholds (Tidying ctx origin) base (finish ()) := builds_finishInflation owner hnode
  split
  · exact (builds_wireConstructors owner hnode).andThen fun _ =>
      (tidies_wireInflatedContextMenu owner hnode).andThen fun _ => hfinish
  · exact hfinish

theorem keeps_wireInflatedView (ctx : Context) (n : NodeId) (owner : String) :
    Keeps (Evolves (Sows n) Notes.Collects) (wireInflatedView ctx n owner) := by
  unfold wireInflatedView
  extract_lets finish
  have hfinish : Keeps (Evolves (Sows n) Notes.Collects) (finish ()) :=
    keeps_finishInflation ctx n owner
  split
  · exact (keeps_wireConstructors ctx n owner).bind fun _ =>
      (keeps_wireInflatedContextMenu ctx n owner).bind fun _ => hfinish
  · exact hfinish

/-! ## Filling slots -/

/-- A node is admitted to a slot of an operation that it reaches. -/
def Enters (ctx : Context) (g : FlowGraph) (i : Inlet) (n : NodeId) (reach : NodeSet)
    (op : NodeId) : Prop :=
  ∃ found, g.op? op = some found ∧ i.takes found.kind ∧
    (i.node? found).any reach.contains ∧ i.admits ctx.hierarchy g n op

/-- What one operation gets from an inflated node. -/
theorem holds_fillSlots {key v : NodeId} :
    (i.values (fillSlots ctx g n reach sol op)).holds key v ↔
      (key = op ∧ v = n ∧ Enters ctx g i n reach op) ∨
        (i.values sol).holds key v := by
  unfold fillSlots Enters
  cases hop : g.op? op with
  | none => simp
  | some found =>
    cases i
    all_goals
      simp only [Inlet.values, Inlet.choose, Inlet.takes, Inlet.node?, Inlet.admits]
      split <;> simp_all

/-- What the operations that it reaches get from an inflated node. -/
theorem holds_fillSlots_all {ops : List NodeId} {key v : NodeId} :
    (i.values (ops.foldl (fillSlots ctx g n reach) sol)).holds key v ↔
      (key ∈ ops ∧ v = n ∧ Enters ctx g i n reach key) ∨
        (i.values sol).holds key v := by
  refine (Relation.holds_foldl i.values
    (fun op => key = op ∧ v = n ∧ Enters ctx g i n reach op)
    (fun sol op => holds_fillSlots) ops sol).trans (or_congr_left ?_)
  constructor
  · rintro ⟨_, hop, rfl, henters⟩
    exact ⟨hop, henters⟩
  · exact fun h => ⟨key, h.1, rfl, h.2⟩

/-- Filling slots changes nothing but what operations have got. -/
theorem fillSlots_all_eq (ops : List NodeId) :
    ops.foldl (fillSlots ctx g n reach) sol =
      { sol with
        parameters := (ops.foldl (fillSlots ctx g n reach) sol).parameters
        receivers := (ops.foldl (fillSlots ctx g n reach) sol).receivers
        listeners := (ops.foldl (fillSlots ctx g n reach) sol).listeners } := by
  refine List.foldlRecOn ops (motive := fun found : Solution => found = { sol with
    parameters := found.parameters, receivers := found.receivers, listeners := found.listeners })
    _ rfl fun found hfound op _ => ?_
  unfold fillSlots
  split
  · exact hfound
  · rw [hfound]

theorem runs_fillReachedSlots (ctx : Context) (n : NodeId) (s : Progress Notes) :
    Runs (fillReachedSlots ctx n) s fun _ t =>
      Fills (fun i op o => op ∈ opsReached s.graph n ∧ o = n ∧
        Enters ctx s.graph i n (s.graph.forwardReachable n) op) s t :=
  .getGraph (.modifyNotes ⟨rfl, by rw [← fillSlots_all_eq],
    fun _ _ _ => holds_fillSlots_all⟩)

/-- A view or a menu item, which is no window. -/
def HasPart (g : FlowGraph) (n : NodeId) : Prop :=
  g.HasObject n ∧ (g.kind n).isWindow = false

theorem HasPart.mono {old new : FlowGraph} (hg : Extends old new) (h : HasPart old n) :
    HasPart new n :=
  ⟨h.1.mono hg,
    (hg.keeps NodeKind.isWindow NodeKind.isWindow_core (lt_size_of_isObject h.1)).trans h.2⟩

theorem Tidy.addLink {c p : NodeId} {added : Bool} (h : Tidy ctx s)
    (hchild : HasPart s.graph c) (hparent : s.graph.HasObject p)
    (hlink : s.graph.addLink c p = .ok (added, g)) :
    Tidy ctx { s with graph := g } :=
  ⟨⟨h.sound.wellFormed.addLink hchild.1 hparent hlink,
    h.sound.fits.mono (extends_addLink hlink)⟩, h.filtered.addLink hlink hchild.2⟩

theorem Tidy.setId (h : Tidy ctx s) (n id : NodeId) :
    Tidy ctx { s with graph := s.graph.setId n id } := by
  have hgrafts : Grafts s.graph (s.graph.setId n id) := grafts_setId n id
  exact ⟨⟨hgrafts.wellFormed h.sound.wellFormed, h.sound.fits.mono hgrafts.toExtends⟩,
    h.filtered.develops h.sound.fits h.sound.wellFormed (develops_setId n id) rfl⟩

section Filled

variable {s t : Progress Notes}
  (h : Fills (fun i op o => op ∈ opsReached s.graph n ∧ o = n ∧
    Enters ctx s.graph i n (s.graph.forwardReachable n) op) s t)
include h

/-- An operation admits what fills its slots, and it flows there. -/
theorem Fills.tidy_entered (hs : Tidy ctx s) (hnode : HasPart s.graph n) :
    Tidy ctx t := by
  refine h.tidy hs ?_
  rintro i op o ⟨hreached, rfl, found, hop, _, hslots, hadmits⟩
  obtain ⟨slot, hslot, hreach⟩ := any_contains_iff.mp hslots
  have hpours : Pours s.graph i o op :=
    ⟨found, slot, hop, hslot, mem_forwardReachable.mp hreach⟩
  exact ⟨⟨isOp_of_mem_opsReached hreached, hnode.1⟩, hadmits, .inl hpours, fun _ => hnode.2⟩

/-- The node has arrived where it flows to. -/
theorem Fills.entered (hwell : s.graph.WellFormed) (hnode : s.graph.HasValue n)
    (i : Inlet) (dst : NodeId) (hflows : FlowsInto t.graph i n dst)
    (hadmits : i.admits ctx.hierarchy t.graph n dst) :
    (i.values t.notes.solution).holds dst n := by
  rw [h.graph_eq] at hflows hadmits
  have hne : dst ≠ n := by
    rintro rfl
    obtain ⟨op, _, hop, _⟩ := hflows
    simp [hnode.op?_eq_none] at hop
  refine (h.holds_iff i dst n).mpr (.inl ⟨hflows.mem_reachedOps hwell hne, rfl, ?_⟩)
  obtain ⟨op, slot, hop, htakes, hslot, hreach⟩ := hflows
  exact ⟨op, hop, htakes, any_contains_iff.mpr ⟨slot, hslot, hreach⟩, hadmits⟩

end Filled

/-! ## Complete states -/

section Sprouting

variable {old new : Progress Notes}

theorem FlowsInto.of_sprouts {old new : FlowGraph} (h : FlowsInto new i src dst)
    (hg : Develops old new) (hsprouts : Sprouts old new) (hold : old.WellFormed)
    (hsource : src < old.nodes.size) : FlowsInto old i src dst := by
  obtain ⟨op, n, hop, htakes, hslot, hnode⟩ := h
  rw [hg.op?_eq] at hop
  exact ⟨op, n, hop, htakes, hslot, (hsprouts.mem_forwardReachable hold hsource).mp hnode⟩

/-- A complete state stays complete when new nodes sprout, if new views arrive where they flow
to. -/
theorem Complete.sprouts (h : Complete ctx old) (hold : old.graph.WellFormed)
    (hg : Develops old.graph new.graph)
    (hsprouts : Sprouts old.graph new.graph) (hnotes : old.notes.Grows new.notes)
    (hfresh : ∀ o, old.graph.nodes.size ≤ o → (new.graph.kind o).isShown →
      ∀ (i : Inlet) dst, FlowsInto new.graph i o dst →
        i.admits ctx.hierarchy new.graph o dst →
          (i.values new.notes.solution).holds dst o) : Complete ctx new where
  sources src producer hop hproduces i dst hne hflows := by
    rw [hg.op?_eq] at hop
    have hflows := hflows.of_sprouts hg hsprouts hold (lt_size_of_op? hop)
    exact hnotes.sources i dst src
      (h.sources src producer hop hproduces i dst hne hflows)
  values o hshown i dst hflows hadmits := by
    by_cases hobject : o < old.graph.nodes.size
    · have hshown := (hg.keeps _ NodeKind.isShown_core hobject).symm.trans hshown
      have hflows := hflows.of_sprouts hg hsprouts hold hobject
      rw [Inlet.admits_eq hg hold hobject] at hadmits
      exact hnotes.values i dst o (h.values o hshown i dst hflows hadmits)
    · exact hfresh o (Nat.not_lt.mp hobject) hshown i dst hflows hadmits

/-- A graph that gets no edges gets none from old nodes. -/
theorem sprouts_of_steady {old new : FlowGraph} (h : Steady old new) : Sprouts old new :=
  ⟨h.toExtends, fun _ hedge => .inl (h.edges_eq ▸ hedge), h.bindings_eq⟩

/-- A complete state stays complete when its graph gets neither nodes nor edges. -/
theorem Complete.steady (h : Complete ctx old) (hold : old.graph.WellFormed)
    (hg : Steady old.graph new.graph) (hnotes : old.notes.Grows new.notes) :
    Complete ctx new := by
  refine h.sprouts hold hg.toDevelops (sprouts_of_steady hg) hnotes ?_
  intro o hsize hshown
  have hsize' : new.graph.nodes.size ≤ o := hg.size_eq ▸ hsize
  rw [kind_of_size_le hsize'] at hshown
  exact absurd hshown Bool.false_ne_true

end Sprouting

/-! ## States during inflation -/

/-- What holds while resources are inflated, with what was there when it began. -/
structure Inflated (ctx : Context) (origin st : Progress Notes) : Prop where
  tidy : Tidy ctx st
  complete : Complete ctx st
  graph : Develops origin.graph st.graph
  sprouts : Sprouts origin.graph st.graph
  aimed : Aimed origin.graph st.graph
  notes : origin.notes.Grows st.notes
  bound_eq : st.notes.bound = origin.notes.bound
  /-- Only inflations have given anything yet. -/
  given : ∀ op found, st.graph.op? op = some found →
    ∀ v, st.notes.solution.results.holds op v → found.kind = .inflate

abbrev Inflating (ctx : Context) (origin : Progress Notes) : Law Notes :=
  ⟨Inflated ctx origin, fun _ => False⟩

section Ensures

variable {origin st : Progress Notes} {α : Type} {part : Solving α} {good : FlowGraph → α → Prop}
  {ns : Notes}

theorem Inflated.sound (h : Inflated ctx origin st) : st.Sound :=
  h.tidy.sound

/-- Inflation may be taken to begin in any of its states. -/
theorem Inflated.restart (h : Inflated ctx origin st) : Inflated ctx st st :=
  ⟨h.tidy, h.complete, refl_of Develops _, refl_of Sprouts _, .refl _, refl_of Notes.Grows _, rfl,
    h.given⟩

/-- A state during inflation goes on to one that is tidy, complete and has the same results. -/
theorem Inflated.next {old new : Progress Notes} (h : Inflated ctx origin old)
    (htidy : Tidy ctx new) (hcomplete : Complete ctx new) (hg : Develops old.graph new.graph)
    (hsprouts : Sprouts old.graph new.graph) (haimed : Aimed origin.graph new.graph)
    (hnotes : old.notes.Gathers new.notes) : Inflated ctx origin new where
  tidy := htidy
  complete := hcomplete
  graph := trans_of Develops h.graph hg
  sprouts := trans_of Sprouts h.sprouts hsprouts
  aimed := haimed
  notes := trans_of Notes.Grows h.notes hnotes.toGrows
  bound_eq := hnotes.bound_eq.trans h.bound_eq
  given op found hop v := by
    rw [hg.op?_eq] at hop
    rw [hnotes.results_eq]
    exact h.given op found hop v

/-- A state that gets neither nodes nor edges nor results. -/
theorem Inflated.steady {old new : Progress Notes} (h : Inflated ctx origin old)
    (htidy : Tidy ctx new) (hg : Steady old.graph new.graph)
    (hnotes : old.notes.Gathers new.notes) : Inflated ctx origin new :=
  h.next htidy (h.complete.steady h.sound.wellFormed hg hnotes.toGrows) hg.toDevelops
    (sprouts_of_steady hg) (h.aimed.of_extends h.sound.wellFormed hg.toExtends
      fun _ hedge => .inl (hg.edges_eq ▸ hedge)) hnotes

theorem Inflated.report (h : Inflated ctx origin st)
    (policy : Policy) : Inflated ctx origin { st with policy } :=
  h.steady ⟨⟨h.sound.wellFormed, h.sound.fits⟩, h.tidy.filtered⟩ (refl_of Steady _)
    (refl_of Notes.Gathers _)

/-- A change of the notes that keeps them tidy and gives no results. -/
theorem ensures_note {change : Notes → Notes}
    (htidy : ∀ (g : FlowGraph) (ns : Notes), Extends base g →
      ns.StaysTidy ctx g (change ns))
    (hgathers : ∀ ns : Notes, ns.Gathers (change ns)) :
    Upholds (Inflating ctx origin) base (modifyNotes change) :=
  fun s hbase hs => .modifyNotes ⟨.refl _, hs.steady
    (hs.tidy.evolve ⟨rfl, htidy s.graph s.notes hbase⟩) (refl_of Steady _)
    (hgathers s.notes), trivial⟩

/-- The state is still one during inflation after a new node has been wired and put into the slots
that it flows into. -/
theorem Inflated.sprout {filled : Progress Notes} {kind : NodeKind}
    (hs : Inflated ctx origin s) (hobject : kind.isObject)
    (hwindow : kind.isWindow = false) (hfilled : Tidy ctx filled)
    (haimed : Aimed origin.graph filled.graph)
    (hsown : Sows s.graph.nodes.size (FlowGraph.add kind s.graph).2 filled.graph)
    (hgathers : s.notes.Gathers filled.notes)
    (harrived : ∀ i dst, FlowsInto filled.graph i s.graph.nodes.size dst →
      i.admits ctx.hierarchy filled.graph s.graph.nodes.size dst →
        (i.values filled.notes.solution).holds dst s.graph.nodes.size) :
    Inflated ctx origin filled := by
  have hadd : Develops s.graph (FlowGraph.add kind s.graph).2 :=
    develops_add_object hobject hwindow
  have hg : Develops s.graph filled.graph := trans_of Develops hadd hsown.toDevelops
  -- all new edges come from the new node or from nodes that are newer still
  have hsprouts : Sprouts s.graph filled.graph := by
    refine ⟨hg.toExtends, fun edge hedge => ?_, hsown.bindings_eq⟩
    rcases hsown.edges_from edge hedge with hold | hsource | hsource
    · exact .inl hold
    · exact .inr (Nat.le_of_eq hsource.symm)
    · exact .inr (Nat.le_trans hadd.size_le hsource)
  have hcomplete : Complete ctx filled := by
    refine hs.complete.sprouts hs.sound.wellFormed hg hsprouts hgathers.toGrows
      fun o hsize hshown => ?_
    -- of the nodes that the wiring has made, only the first one is a view
    rcases Nat.eq_or_lt_of_le hsize with rfl | hlater
    · exact harrived
    · rw [hsown.fresh_shown o (Nat.le_trans (Nat.le_of_eq (add_size kind)) hlater)] at hshown
      exact absurd hshown Bool.false_ne_true
  exact hs.next hfilled hcomplete hg hsprouts haimed hgathers

/-- A new node that is wired and put into the operations that it flows into, with what is done
next. -/
theorem ensures_sprout {kind : NodeKind} (hobject : kind.isObject) (hwindow : kind.isWindow = false)
    {wire : NodeId → Solving Unit} {next : NodeId → Solving α}
    (hwire : ∀ (g : FlowGraph) n, g.HasObject n →
      Upholds (Tidying ctx origin.graph) g (wire n))
    (hsows : ∀ n, Keeps (Evolves (Sows n) Notes.Collects) (wire n))
    (hnext : ∀ (g : FlowGraph) n, Extends base g → base.nodes.size ≤ n →
      HasPart g n → Ensures (Inflating ctx origin) g (next n) good) :
    Ensures (Inflating ctx origin) base
      (do
        let n ← onGraph (FlowGraph.add kind)
        wire n
        fillReachedSlots ctx n
        next n) good := by
  intro s hbase hs
  have hop : kind.isOp = false := by
    cases kind <;> simp_all [NodeKind.isObject, NodeKind.isOp, NodeKind.op?]
  have hmade : kind.madeNumber? = none := by
    cases kind <;> simp_all [NodeKind.isObject, NodeKind.madeNumber?]
  let n := s.graph.nodes.size
  let grown : Progress Notes := { s with graph := (FlowGraph.add kind s.graph).2 }
  have hgrafts : Grafts s.graph grown.graph := grafts_add hop hmade
  have hgrown : (Tidying ctx origin.graph).inv grown :=
    tidying_graft ⟨hs.tidy, hs.aimed⟩ hgrafts (develops_add_object hobject hwindow)
  have hnode : HasPart grown.graph n := by
    rw [HasPart, HasObject, kind_add, if_pos rfl]
    exact ⟨hobject, hwindow⟩
  have hadd : Runs (onGraph (FlowGraph.add kind)) s fun id st => id = n ∧ st = grown :=
    .of_graph ⟨rfl, rfl⟩
  refine hadd.bind ?_
  rintro _ _ ⟨rfl, rfl⟩
  refine ((hwire grown.graph n hnode.1 grown (.refl _) hgrown).and
    (hsows n grown).gives).bind ?_
  rintro _ wired ⟨⟨hextends, ⟨hwired, haimed⟩, _⟩, hsown, hcollects⟩
  have hnode := hnode.mono hextends
  refine (runs_fillReachedSlots ctx n wired).bind fun _ filled hfills => ?_
  rw [← hfills.graph_eq] at hsown hnode
  have hinflated : Inflated ctx origin filled := hs.sprout hobject hwindow
    (hfills.tidy_entered hwired (hfills.graph_eq ▸ hnode)) (hfills.graph_eq ▸ haimed) hsown
    (trans_of Notes.Collects hcollects hfills.collects).toGathers
    (hfills.entered hwired.sound.wellFormed (hfills.graph_eq ▸ hnode.1.hasValue))
  have hg : Extends s.graph filled.graph := hgrafts.toExtends.trans hsown.toExtends
  refine (hnext filled.graph n (hbase.trans hg) hbase.size_le hnode filled (.refl _)
    hinflated).weaken ?_
  rintro res t ⟨hg', ht, hgood⟩
  exact ⟨hg.trans hg', ht, hgood⟩

theorem ensures_addLink {c p : NodeId} (hne : c ≠ p) (hchild : HasPart base c)
    (hparent : base.HasObject p) :
    Upholds (Inflating ctx origin) base (addLink c p) := by
  refine fun s hbase hs => .of_addLink (fun h => absurd h hne) fun added g hlink => ?_
  have hsteady := steady_addLink hlink
  have htidy := hs.tidy.addLink (hchild.mono hbase) (hparent.mono hbase) hlink
  exact ⟨hsteady.toExtends, hs.steady htidy hsteady (refl_of Notes.Gathers _), trivial⟩

theorem ensures_setId (n id : NodeId) :
    Upholds (Inflating ctx origin) base (modifyGraph (FlowGraph.setId n id)) := by
  refine fun s hbase hs => .modifyGraph ?_
  have hsteady : Steady s.graph (s.graph.setId n id) := steady_setId n id
  exact ⟨hsteady.toExtends, hs.steady (hs.tidy.setId n id) hsteady
    (refl_of Notes.Gathers _), trivial⟩

theorem ensures_getGraph :
    Ensures (Inflating ctx origin) base getGraph fun g res =>
      res = g ∧ Develops origin.graph g :=
  .act (fun g ns => (g, g, ns)) fun _ _ hs =>
    ⟨.refl _, hs, rfl, hs.graph⟩

theorem ensures_getSolution :
    Ensures (Inflating ctx origin) base getSolution fun g sol =>
      ∃ ns : Notes, ns.solution = sol ∧ ns.Fits g :=
  .act (fun g (ns : Notes) => (ns.solution, g, ns)) fun s _ hs =>
    ⟨.refl _, hs, s.notes, rfl, hs.sound.fits⟩

/-! ## Layouts -/

theorem ensures_fail (error : AnalysisError) : Upholds (Inflating ctx origin) base (fail error) :=
  fun _ _ hs => .fail (fun policy => ⟨.refl _, hs.report policy, trivial⟩) error

theorem ensures_nameView (n : NodeId) (id : Option ResId) :
    Upholds (Inflating ctx origin) base (nameView n id) := by
  unfold nameView
  split
  · exact .done _
  · refine ensures_getGraph.andThen fun g => ?_
    split
    · exact ensures_setId n _
    · exact ensures_fail _

def HasObject? (g : FlowGraph) (n : Option NodeId) : Prop :=
  ∀ id, n = some id → g.HasObject id

theorem HasObject?.mono {old new : FlowGraph} {n : Option NodeId} (hg : Extends old new)
    (h : HasObject? old n) : HasObject? new n :=
  fun id hid => (h id hid).mono hg

theorem HasObject?.some (h : g.HasObject n) : HasObject? g (some n) := by
  rintro _ ⟨⟩
  exact h

/-- The root of what is inflated is a view. -/
def HasPart? (g : FlowGraph) (n : Option NodeId) : Prop :=
  ∀ id, n = some id → HasPart g id

theorem ensures_inflateView (e : Element) (owner : String) {p : Option NodeId}
    (hparent : HasObject? base p) :
    Ensures (Inflating ctx origin) base (inflateView ctx e owner p) HasPart := by
  refine ensures_sprout rfl rfl (fun _ _ hnode => tidies_wireInflatedView owner hnode.hasValue)
    (fun n => keeps_wireInflatedView ctx n owner) fun g n hg hnew hnode => ?_
  refine (ensures_nameView n e.id).andThen fun _ => ?_
  refine Ensures.andThen (.forM_option fun found hfound => ?_) fun _ => .pure fun _ hg' =>
    hnode.mono hg'
  have hparent := hparent found hfound
  have hlt := Nat.lt_of_lt_of_le (lt_size_of_isObject hparent) hnew
  exact (ensures_addLink hlt.ne' hnode (hparent.mono hg)).andThen fun _ => .done _

section Loops

variable {make : Element → String → Option NodeId → Solving NodeId}
  (hmake : ∀ e owner p g, Extends base g → HasObject? g p →
    Ensures (Inflating ctx origin) g (make e owner p) HasPart)
include hmake

theorem ensures_take (e : Element) {p : Option NodeId} (hparent : HasObject? base p) :
    Ensures (Inflating ctx origin) base (take make e p) fun g n =>
      e.owner.isSome → HasPart g n := by
  unfold take
  split
  next howner => exact .pure fun _ _ h => by simp [howner] at h
  next owner _ =>
    exact (hmake e owner p base (.refl _) hparent).weaken fun _ _ _ hnode _ => hnode

theorem ensures_plant (bound : Nat) {pending : Pending} (hpending : pending.All (HasObject? base)) :
    Upholds (Inflating ctx origin) base (plant make bound pending) := by
  induction bound generalizing base pending with
  | zero => exact .done _
  | succ bound ih =>
    rcases pending with _ | ⟨⟨e, p⟩, rest⟩
    · exact .done _
    · obtain ⟨hparent, hrest⟩ := Pending.all_cons.mp hpending
      refine (ensures_take hmake e hparent).bind fun n g hg hnode => ?_
      refine ih (fun e owner p new hnew => hmake e owner p new
        (hg.trans hnew)) (Pending.All.next (fun entry hentry => (hrest entry hentry).mono hg)
          fun howner => ?_)
      exact .some (hnode howner).1

end Loops

theorem ensures_inflateLayout (v : ResId) {win : Option NodeId}
    (hwindow : HasObject? base win) :
    Ensures (Inflating ctx origin) base (inflateLayout ctx v win) HasPart? := by
  cases htree : ctx.resources.layout? v with
  | none =>
    unfold inflateLayout
    rw [htree]
    exact (ensures_fail _).andThen fun _ => .pure fun _ _ => nofun
  | some tree =>
    rw [inflateLayout_eq_plant htree]
    have hmake : ∀ e owner p g, Extends base g → HasObject? g p →
        Ensures (Inflating ctx origin) g (inflateView ctx e owner p) HasPart :=
      fun e owner _ _ _ => ensures_inflateView e owner
    refine (ensures_take hmake tree hwindow).bind fun n g hg hnode => ?_
    refine (ensures_plant (fun e owner _ _ _ => ensures_inflateView e owner) _
      (Pending.all_nil.next fun howner => .some (hnode howner).1)).andThen fun _ => ?_
    refine .pure fun _ hg' id hid => ?_
    obtain ⟨owner, howner, rfl⟩ := Option.map_eq_some_iff.mp hid
    exact (hnode (by simp [howner])).mono hg'

theorem Inflated.recordResult (h : Inflated ctx origin st)
    {root : NodeId} (hop : st.graph.isOp op) (hroot : HasPart st.graph root)
    (hadmits : ctx.hierarchy.admits st.graph root op .result)
    (hkind : ∀ found, origin.graph.op? op = some found → found.kind = .inflate) :
    Inflated ctx origin { st with notes := { st.notes with
      solution := { st.notes.solution with
        results := st.notes.solution.results.add op root
        viewProducers := st.notes.solution.viewProducers.add root op } } } := by
  have hfits := h.sound.fits
  refine { h with
    tidy := ⟨⟨h.sound.wellFormed, ?_⟩, ?_⟩, complete := ?_, notes := ?_, given := ?_ }
  · refine { hfits with
      results := Between.add hfits.results hop hroot.1
      producers := fun op' o => ?_ }
    rw [Relation.holds_add, Relation.holds_add, hfits.producers op' o,
      and_comm (a := op' = op)]
  · exact h.tidy.filtered.give (Relation.within_add _ _ _)
      (Relation.forall_add (.inr ⟨hadmits, hroot.2⟩) fun _ _ => .inl)
  · exact ⟨h.complete.sources, h.complete.values⟩
  · have hgrows : st.notes.Grows { st.notes with
        solution := { st.notes.solution with
          results := st.notes.solution.results.add op root
          viewProducers := st.notes.solution.viewProducers.add root op } } :=
      { refl_of Notes.Grows st.notes with results := Relation.within_add _ _ _ }
    exact trans_of Notes.Grows h.notes hgrows
  · intro op' found hop' v hholds
    rcases Relation.holds_add.mp hholds with ⟨rfl, rfl⟩ | hold
    · rw [h.graph.op?_eq] at hop'
      exact hkind found hop'
    · exact h.given op' found hop' v hold

theorem ensures_inflateResult (v : ResId) (hop : base.isOp op)
    (hkind : ∀ found, origin.graph.op? op = some found → found.kind = .inflate) :
    Upholds (Inflating ctx origin) base (inflateResult ctx op v) := by
  refine (ensures_inflateLayout v (by rintro _ ⟨⟩)).bind fun root g hg hroot => ?_
  split
  case h_2 => exact .done _
  rename_i root
  -- the layout is admitted to the result in the graph that has just been read
  refine fun s hbase hs => .getGraph ?_
  have hroot : HasPart s.graph root := (hroot root rfl).mono hbase
  split
  case isFalse => exact .pure ⟨.refl _, hs, trivial⟩
  rename_i hadmits
  have hrecorded := hs.recordResult (isOp_mono (hg.trans hbase) hop) hroot hadmits hkind
  refine .modifyNotes_bind ((runs_push ctx op [root] _).bind fun _ t hpushed => .pure ?_)
  have htidy : Tidy ctx t := hpushed.tidy hrecorded.tidy fun v hvalue =>
    Relation.holds_add.mpr (.inl ⟨rfl, List.mem_singleton.mp hvalue⟩)
  have hsteady : Steady s.graph t.graph := hpushed.graph_eq ▸ refl_of Steady _
  exact ⟨hsteady.toExtends, hrecorded.steady htidy hsteady hpushed.collects.toGathers, trivial⟩

/-- A window gets a root that is no window. -/
theorem tidy_addWindowRoot (win : NodeId) {root : NodeId} (hroot : HasPart g root) :
    ns.StaysTidy ctx g { ns with
      solution := { ns.solution with
        activityRoots := ns.solution.activityRoots.add win root } } :=
  fun hfits hfiltered =>
    ⟨{ hfits with activityRoots := Relation.forall_add hroot.1 hfits.activityRoots },
      { hfiltered with roots := Relation.forall_add hroot.2 hfiltered.roots }⟩

theorem ensures_addWindowRoot (win : NodeId) {root : NodeId} (hroot : HasPart base root) :
    Upholds (Inflating ctx origin) base (addWindowRoot win root) := by
  refine ensures_getGraph.andThen fun g => ?_
  split
  · exact ensures_note (fun _ _ hg => tidy_addWindowRoot win (hroot.mono hg)) fun ns =>
      { refl_of Notes.Gathers ns with activityRoots := Relation.within_add _ _ _ }
  · exact ensures_note (fun _ _ _ hfits hfiltered => ⟨{ hfits with }, { hfiltered with }⟩)
      fun ns => { refl_of Notes.Gathers ns with }
  · exact fun _ _ hs => .violation (fun policy => ⟨.refl _, hs.report policy, trivial⟩) _

def inflateInto (ctx : Context) (layout : NodeId) (v : ResId) (win : NodeId) :
    Solving Unit := do
  let some root ← inflateLayout ctx v (some win) | return
  addWindowRoot win root
  modifySolution fun sol =>
    { sol with windowLayouts := sol.windowLayouts.add win layout }

theorem inflateContent_eq (ctx : Context) (op layout : NodeId) (v : ResId) :
    inflateContent ctx op layout v =
      (do ((← getSolution).windows.image op).forM (inflateInto ctx layout v)) :=
  rfl

theorem ensures_inflateInto (layout : NodeId) (v : ResId) {win : NodeId}
    (hwindow : base.HasObject win) :
    Upholds (Inflating ctx origin) base (inflateInto ctx layout v win) := by
  refine (ensures_inflateLayout v (.some hwindow)).bind fun root g' hg' hroot => ?_
  split
  case h_2 => exact .done _
  rename_i root
  refine (ensures_addWindowRoot win (hroot root rfl)).andThen fun _ => ?_
  exact ensures_note (fun _ _ _ hfits hfiltered => ⟨{ hfits with }, { hfiltered with }⟩)
    fun ns => { refl_of Notes.Gathers ns with }

theorem ensures_inflateContent (op layout : NodeId) (v : ResId) :
    Upholds (Inflating ctx origin) base (inflateContent ctx op layout v) := by
  rw [inflateContent_eq]
  refine ensures_getSolution.bind ?_
  rintro sol g _ ⟨ns, rfl, hfits⟩
  exact .forM fun win hwindow =>
    ensures_inflateInto layout v (hfits.windows op win (Relation.mem_image.mp hwindow)).2

/-- Inflates one of the layouts that reach operations. -/
def inflateAt (ctx : Context) (entry : NodeId × NodeId) : Solving Unit := do
  let g ← getGraph
  match (g.op? entry.1).map Op.kind, (g.kind entry.2).idValue? with
  | some .inflate, some (_, v) => inflateResult ctx entry.1 v
  | some .inflateContent, some (_, v) => inflateContent ctx entry.1 entry.2 v
  | _, _ => pure ()

theorem inflateLayouts_eq (ctx : Context) :
    inflateLayouts ctx = (do (← getSolution).layoutIds.pairs.forM (inflateAt ctx)) :=
  rfl

theorem ensures_inflateAt (entry : NodeId × NodeId) :
    Upholds (Inflating ctx origin) base (inflateAt ctx entry) := by
  refine ensures_getGraph.bind ?_
  rintro g _ _ ⟨rfl, hg⟩
  split
  next v hkind _ =>
    obtain ⟨found, hop, hfound⟩ := Option.map_eq_some_iff.mp hkind
    refine ensures_inflateResult v (isOp_iff.mpr ⟨found, hop⟩) fun found' hop' => ?_
    rw [← hg.op?_eq, hop] at hop'
    cases hop'
    exact hfound
  next => exact ensures_inflateContent entry.1 entry.2 _
  next => exact .done _

theorem ensures_inflateLayouts :
    Upholds (Inflating ctx origin) base (inflateLayouts ctx) :=
  ensures_getSolution.andThen fun _ => .forM fun entry _ => ensures_inflateAt entry

/-! ## Menus -/

theorem ensures_nameItem (n : NodeId) (menu : ResId) (id : Option ResId) :
    Upholds (Inflating ctx origin) base (nameItem n menu id) := by
  unfold nameItem
  split
  · exact .done _
  · refine ensures_getGraph.andThen fun g => ?_
    split
    · exact ensures_setId n _
    · exact fun _ _ hs => .gap (fun policy => ⟨.refl _, hs.report policy, trivial⟩) _

theorem ensures_inflateItem (menu : ResId) (e : Element) (owner : String) {p : NodeId}
    (hparent : base.HasObject p) :
    Ensures (Inflating ctx origin) base (inflateItem ctx menu e owner p) HasPart := by
  refine ensures_sprout rfl rfl (fun _ _ hnode => builds_finishInflation owner hnode.hasValue)
    (fun n => keeps_finishInflation ctx n owner) fun g n hg hnew hnode => ?_
  refine (ensures_nameItem n menu e.id).andThen fun _ => ?_
  have hlt := Nat.lt_of_lt_of_le (lt_size_of_isObject hparent) hnew
  exact (ensures_addLink hlt.ne' hnode (hparent.mono hg)).andThen fun _ => .pure fun _ hg' =>
    hnode.mono hg'

theorem ensures_inflateMenu (v : ResId) {self : NodeId} (hself : base.HasObject self) :
    Upholds (Inflating ctx origin) base (inflateMenu ctx v self) := by
  cases htree : ctx.resources.menu? v with
  | none =>
    unfold inflateMenu
    rw [htree]
    exact ensures_fail _
  | some tree =>
    rw [inflateMenu_eq_plant htree]
    refine ensures_plant (fun e owner p g hg hparent => ?_) _
      (Pending.all_nil.next fun _ => .some hself)
    refine ensures_inflateItem v e owner ?_
    cases p with
    | none => exact hself.mono hg
    | some p => exact hparent p rfl

theorem mem_menusOf {menu : NodeId} : menu ∈ menusOf sol op ↔ WorksOn sol op menu := by
  rw [menusOf, Std.TreeSet.mem_toList, Std.TreeSet.mem_ofList, List.contains_iff_mem,
    List.mem_append, Relation.mem_image, Relation.mem_image]
  rfl

theorem hasObject_of_mem_menusOf (hfits : ns.Fits g) {menu : NodeId}
    (h : menu ∈ menusOf ns.solution op) : g.HasObject menu := by
  rcases mem_menusOf.mp h with h | h
  · exact (hfits.optionsMenus op menu h).2
  · exact (hfits.contextMenus op menu h).2

def inflateEach (ctx : Context) (menus : List NodeId) (id : NodeId) : Solving Unit := do
  let some (_, v) := ((← getGraph).kind id).idValue? | return
  menus.forM (inflateMenu ctx v)

/-- Inflates the menu resources that reach one operation. -/
def inflateRow (ctx : Context) (row : NodeId × List NodeId) : Solving Unit := do
  let menus := menusOf (← getSolution) row.1
  row.2.forM fun id => do
    let some (_, v) := ((← getGraph).kind id).idValue? | return
    menus.forM (inflateMenu ctx v)

theorem inflateMenus_eq (ctx : Context) :
    inflateMenus ctx = (do (← getSolution).menuIds.rows.forM (inflateRow ctx)) :=
  rfl

theorem ensures_inflateEach {menus : List NodeId} (hmenus : ∀ menu ∈ menus, base.HasObject menu)
    (id : NodeId) :
    Upholds (Inflating ctx origin) base (inflateEach ctx menus id) := by
  refine ensures_getGraph.andThen fun g => ?_
  split
  · exact .forM fun menu hmenu => ensures_inflateMenu _ (hmenus menu hmenu)
  · exact .done _

theorem ensures_inflateRow (row : NodeId × List NodeId) :
    Upholds (Inflating ctx origin) base (inflateRow ctx row) := by
  refine ensures_getSolution.bind ?_
  rintro sol g _ ⟨ns, rfl, hfits⟩
  exact .forM fun id _ => ensures_inflateEach (fun menu => hasObject_of_mem_menusOf hfits) id

theorem ensures_inflateMenus :
    Upholds (Inflating ctx origin) base (inflateMenus ctx) :=
  ensures_getSolution.andThen fun _ => .forM fun row _ => ensures_inflateRow row

end Ensures

end Solving

end WidgetFlow
