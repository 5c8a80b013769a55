import WidgetFlow.Proofs.Solution.Arrivals

/-!
# Flow into operations

`FlowsInto` says that a node flows into an operation by one of its inlets. Tracing the paths of a
graph finds all such flow from the nodes that views, menus and listeners come from
(`holds_trace`), except the flow of an operation into itself. `Retraced` says what it does to a
state. After that every path from an operation is known and every view has arrived where it flows to
(`complete_tracePaths`); this is what `Complete` says of a state.

`Pushed` says what pushing results along the known paths does, and when it reports a change.
-/

namespace WidgetFlow.Solving

open Analysis FlowGraph Inlet

variable {g base : FlowGraph} {i : Inlet} {src dst key v : NodeId}
  {s : Progress Notes}

def FlowsInto (g : FlowGraph) (i : Inlet) (src dst : NodeId) : Prop :=
  ∃ op n, g.op? dst = some op ∧ i.takes op.kind ∧ i.node? op = some n ∧
    n ∈ g.forwardReachable src

instance (g : FlowGraph) (i : Inlet) (src dst : NodeId) :
    Decidable (FlowsInto g i src dst) :=
  decidable_of_iff (∃ op ∈ g.op? dst, i.takes op.kind ∧
    ∃ n ∈ i.node? op, n ∈ g.forwardReachable src) (by simp [FlowsInto])

theorem FlowsInto.mem_reachedOps (h : FlowsInto g i src dst)
    (hwell : g.WellFormed) (hne : dst ≠ src) :
    dst ∈ reachedOps g src (g.forwardReachable src) := by
  obtain ⟨op, n, hop, _, hslot, hnode⟩ := h
  refine Solving.mem_reachedOps.mpr ⟨?_, hne, isOp_iff.mpr ⟨op, hop⟩⟩
  exact mem_forwardReachable_of_slot hwell hop (slot_of_node? hslot) hnode

theorem FlowsInto.pours (h : FlowsInto g i src dst) :
    Pours g i src dst := by
  obtain ⟨op, n, hop, _, hslot, hnode⟩ := h
  exact ⟨op, n, hop, hslot, mem_forwardReachable.mp hnode⟩

/-! ## Tracing -/

theorem holds_arrive {kind : NodeKind} {reach : NodeSet} {paths : Paths} {op : NodeId}
    {found : Op} :
    (i.sources (paths.arrive kind src reach op found)).holds key v ↔
      (key = op ∧ v = src ∧ i.follows kind ∧ i.takes found.kind ∧
        (i.node? found).any reach.contains) ∨ (i.sources paths).holds key v := by
  cases i
  all_goals
    simp only [sources, choose, Paths.arrive, follows, takes, node?]
    split <;> simp_all

def Leads (g : FlowGraph) (i : Inlet) (src dst : NodeId) : Prop :=
  ((g.kind src).isProducer || (g.kind src).isObject) ∧
    i.follows (g.kind src) ∧ dst ≠ src ∧ FlowsInto g i src dst

theorem holds_traceFrom (hwell : g.WellFormed) {paths : Paths} :
    (i.sources (paths.traceFrom g src)).holds key v ↔
      (v = src ∧ Leads g i src key) ∨ (i.sources paths).holds key v := by
  unfold Paths.traceFrom
  dsimp only
  split
  next hsource =>
    refine (Relation.holds_foldl i.sources
      (fun op => key = op ∧ v = src ∧ i.follows (g.kind src) ∧
        ∃ found, g.op? op = some found ∧ i.takes found.kind ∧
          (i.node? found).any (g.forwardReachable src).contains)
      (fun paths op => ?_) _ paths).trans (or_congr_left ?_)
    · cases hop : g.op? op with
      | none => simp
      | some found => simpa using holds_arrive
    · constructor
      · rintro ⟨_, hreached, rfl, rfl, hfollows, found, hop, htakes, hany⟩
        obtain ⟨n, hnode, hreach⟩ := any_contains_iff.mp hany
        refine ⟨rfl, hsource, hfollows, (mem_reachedOps.mp hreached).2.1, ?_⟩
        exact ⟨found, n, hop, htakes, hnode, hreach⟩
      · rintro ⟨rfl, _, hfollows, hne, hflows⟩
        refine ⟨key, hflows.mem_reachedOps hwell hne, rfl, rfl, hfollows, ?_⟩
        obtain ⟨found, n, hop, htakes, hnode, hreach⟩ := hflows
        exact ⟨found, hop, htakes, any_contains_iff.mpr ⟨n, hnode, hreach⟩⟩
  -- other nodes are not the source of any path
  next hsource =>
    rw [or_iff_right]
    exact fun h => hsource h.2.1

theorem Leads.lt_size (h : Leads g i src dst) : src < g.nodes.size :=
  lt_size_of_kind (fun kind => kind.isProducer || kind.isObject) rfl h.1

/-- An operation works on a menu without inflating anything into it. -/
def ShowsMenu (g : FlowGraph) (sol : Solution) (op menu : NodeId) : Prop :=
  (sol.optionsMenus.holds op menu ∨ sol.contextMenus.holds op menu) ∧
    opIs g (· = .inflateMenu) op = false

theorem holds_trace (hwell : g.WellFormed) {paths : Paths} {sol : Solution} :
    (i.sources (paths.trace g sol)).holds key v ↔
      (i = .receiver ∧ ShowsMenu g sol key v) ∨ Leads g i v key ∨
        (i.sources paths).holds key v := by
  have htrace :
      (i.sources (g.nodeIds.foldl (Paths.traceFrom g) paths)).holds key v ↔
        Leads g i v key ∨ (i.sources paths).holds key v := by
    refine (Relation.holds_foldl i.sources
      (fun src => v = src ∧ Leads g i src key)
      (fun paths src => holds_traceFrom hwell) g.nodeIds paths).trans (or_congr_left ?_)
    constructor
    · rintro ⟨_, _, rfl, hleads⟩
      exact hleads
    · exact fun hleads => ⟨v, List.mem_range.mpr hleads.lt_size, rfl, hleads⟩
  rw [← htrace]
  unfold Paths.trace Paths.addMenus ShowsMenu
  cases i with
  | parameter => simp [sources, choose]
  | listener => simp [sources, choose]
  | receiver =>
    refine (Relation.holds_foldl_add _ _ id key v).trans (or_congr_left ?_)
    rw [or_and_right]
    simp

/-! ## Filling slots -/

section Filling

variable {ns : Notes} {parameters receivers listeners : NodeRelation} {op o : NodeId}

/-- Notes still fit when operations get objects. -/
theorem Notes.Fits.fill (hfits : ns.Fits g) (hparameters : Between g parameters)
    (hreceivers : Between g receivers) (hlisteners : Between g listeners) :
    Notes.Fits { ns with
      solution := { ns.solution with parameters, receivers, listeners } } g :=
  { hfits with values := fun i => by cases i <;> assumption }

/-- Notes grow when operations get objects. -/
theorem collects_fill (hparameters : ns.solution.parameters.Within parameters)
    (hreceivers : ns.solution.receivers.Within receivers)
    (hlisteners : ns.solution.listeners.Within listeners) :
    ns.Collects { ns with
      solution := { ns.solution with parameters, receivers, listeners } } :=
  { refl_of Notes.Collects ns with values := fun i => by cases i <;> assumption }

/-- Operations get objects, and nothing else changes but what has been reported. -/
structure Fills (added : Inlet → NodeId → NodeId → Prop) (s t : Progress Notes) : Prop where
  graph_eq : t.graph = s.graph
  notes_eq : t.notes = { s.notes with
    solution := { s.notes.solution with
      parameters := t.notes.solution.parameters
      receivers := t.notes.solution.receivers
      listeners := t.notes.solution.listeners }
    flagged := t.notes.flagged }
  holds_iff : ∀ (i : Inlet) op o, (i.values t.notes.solution).holds op o ↔
    added i op o ∨ (i.values s.notes.solution).holds op o

namespace Fills

variable {added more : Inlet → NodeId → NodeId → Prop} {s middle t : Progress Notes}

theorem none (h : ∀ i op o, ¬ added i op o) (s : Progress Notes) :
    Fills added s s :=
  ⟨rfl, rfl, fun i op o => (or_iff_right (h i op o)).symm⟩

theorem congr (h : Fills added s t)
    (hadded : ∀ i op o, added i op o ↔ more i op o) :
    Fills more s t :=
  { h with holds_iff := fun i op o =>
      (h.holds_iff i op o).trans (or_congr_left (hadded i op o)) }

theorem trans (h : Fills added s middle) (h' : Fills more middle t) :
    Fills (fun i op o => added i op o ∨ more i op o) s t where
  graph_eq := h'.graph_eq.trans h.graph_eq
  notes_eq := h'.notes_eq.trans (by rw [h.notes_eq])
  holds_iff i op o := by rw [h'.holds_iff, h.holds_iff, ← or_assoc, or_comm (a := more ..)]

theorem collects (h : Fills added s t) : s.notes.Collects t.notes := by
  have hvalues : ∀ i : Inlet,
      (i.values s.notes.solution).Within (i.values t.notes.solution) :=
    fun i op o hholds => (h.holds_iff i op o).mpr (.inr hholds)
  rw [h.notes_eq]
  exact { collects_fill (hvalues .parameter) (hvalues .receiver) (hvalues .listener) with }

theorem sound (h : Fills added s t) (hs : s.Sound)
    (hadded : ∀ i op o, added i op o →
      s.graph.isOp op ∧ s.graph.HasObject o) : t.Sound := by
  have hvalues : ∀ i : Inlet, Between s.graph (i.values t.notes.solution) :=
    fun i op o hholds => ((h.holds_iff i op o).mp hholds).elim
      (hadded i op o) (hs.fits.values i op o)
  refine ⟨h.graph_eq ▸ hs.wellFormed, ?_⟩
  rw [h.graph_eq, h.notes_eq]
  exact { hs.fits.fill (hvalues .parameter) (hvalues .receiver) (hvalues .listener) with }

/-- A state stays tidy if the operations admit what they get and it comes to them. -/
theorem tidy {ctx : Context} (h : Fills added s t) (hs : Tidy ctx s)
    (hadded : ∀ i op o, added i op o →
      (s.graph.isOp op ∧ s.graph.HasObject o) ∧
        i.admits ctx.hierarchy s.graph o op ∧
          Carried s.graph s.notes.solution i op o ∧
            (i ≠ .listener → (s.graph.kind o).isWindow = false)) :
    Tidy ctx t := by
  refine ⟨h.sound hs.sound fun i op o h => (hadded i op o h).1, ?_⟩
  rw [h.graph_eq, h.notes_eq]
  refine { hs.filtered.fill fun i op o hholds => ?_ with }
  rcases (h.holds_iff i op o).mp hholds with hnew | hold
  · obtain ⟨_, hadmits, hcarried⟩ := hadded i op o hnew
    exact .inr ⟨.inl hadmits, hcarried⟩
  · exact .inl hold

end Fills

/-- An object arrives at an operation that admits it and has a place for it. -/
def Seeds (ctx : Context) (g : FlowGraph) (i : Inlet) (op o : NodeId) (i' : Inlet)
    (op' o' : NodeId) : Prop :=
  i' = i ∧ op' = op ∧ o' = o ∧ i.admits ctx.hierarchy g o op ∧
    i.suits (g.kind o)

theorem runs_misfit (slot : String) {added : Inlet → NodeId → NodeId → Prop}
    (h : ∀ i op o, ¬ added i op o) (s : Progress Notes) :
    Runs (misfit slot op o) s fun _ t => Fills added s t := by
  have hflagged : Fills added s { s with notes := { s.notes with
      flagged := s.notes.flagged.add op o } } :=
    ⟨rfl, rfl, fun i op o => (or_iff_right (h i op o)).symm⟩
  have hflag : Runs (flag op o) s fun _ t => Fills added s t :=
    does_flag hflagged
  refine hflag.bind fun flagged middle hmiddle => ?_
  split
  · exact .getGraph (.violation (fun _ => { hmiddle with }) _)
  · exact .pure hmiddle

theorem runs_seed (ctx : Context) (i : Inlet) (op o : NodeId) (s : Progress Notes) :
    Runs (i.choose seedParameter seedReceiver seedListener ctx op o) s fun _ t =>
      Fills (Seeds ctx s.graph i op o) s t := by
  cases i
  case listener =>
    refine .getGraph ?_
    split
    next hadmits =>
      refine .modifyNotes ⟨rfl, rfl, fun i op' o' => ?_⟩
      cases i <;> simp [values, choose, Seeds, suits, admits, hadmits]
    next hadmits => exact .pure (.none (fun _ _ _ h => hadmits h.2.2.2.1) s)
  all_goals
    refine .getGraph ?_
    split
    next hadmits =>
      split
      next hsuits =>
        refine .modifyNotes ⟨rfl, rfl, fun i op' o' => ?_⟩
        cases i <;> simp_all [values, choose, Seeds, suits, admits]
      next hsuits => exact runs_misfit _ (fun _ _ _ h => hsuits h.2.2.2.2) s
    next hadmits => exact .pure (.none (fun _ _ _ h => hadmits h.2.2.2.1) s)

/-- A loop whose rounds fill slots fills all of them. -/
theorem runs_fills {α : Type} {elements : List α} {step : α → Solving Unit}
    {added : α → Inlet → NodeId → NodeId → Prop}
    (hstep : ∀ e st, st.graph = s.graph →
      Runs (step e) st fun _ t => Fills (added e) st t) :
    Runs (elements.forM step) s fun _ t => Fills
      (fun i op o => ∃ e ∈ elements, added e i op o) s t := by
  induction elements generalizing s with
  | nil => exact .pure (.none (by simp) s)
  | cons first rest ih =>
    refine (hstep first s rfl).bind fun _ middle hmiddle => ?_
    have hrest := ih fun e st hstate =>
      hstep e st (hstate.trans hmiddle.graph_eq)
    exact hrest.weaken fun _ t ht => (hmiddle.trans ht).congr fun _ _ _ => by simp

end Filling

/-- Every path from an operation that gives views is known, and every view has arrived where it
flows to. -/
structure Complete (ctx : Context) (st : Progress Notes) : Prop where
  sources : ∀ src producer, st.graph.op? src = some producer →
    producer.kind.producesViews → ∀ i dst, dst ≠ src →
      FlowsInto st.graph i src dst →
        (i.sources st.notes.paths).holds dst src
  values : ∀ o, (st.graph.kind o).isShown → ∀ i dst,
    FlowsInto st.graph i o dst →
      i.admits ctx.hierarchy st.graph o dst →
        (i.values st.notes.solution).holds dst o

theorem hasObject_of_isShown (h : (g.kind src).isShown) : g.HasObject src := by
  unfold HasObject
  cases hkind : g.kind src <;>
    simp_all [NodeKind.isShown, NodeKind.isObject, NodeKind.isViewAlloc, NodeKind.isInflated]

theorem leads_of_isShown (hshown : (g.kind src).isShown)
    (hflows : FlowsInto g i src dst) : Leads g i src dst := by
  have hobject := hasObject_of_isShown hshown
  have hproducer : (g.kind src).isProducer := by
    cases hkind : g.kind src <;> simp_all [NodeKind.isProducer, HasObject, NodeKind.isObject]
  refine ⟨by simp [hproducer], ?_, ?_, hflows⟩
  · cases i <;> simp [follows, hproducer]
  · rintro rfl
    obtain ⟨op, _, hop, _⟩ := hflows
    simp [hobject.hasValue.op?_eq_none] at hop

/-- Operations that give views are the sources of paths to all others that they flow into. -/
theorem leads_of_producesViews {producer : Op} (hop : g.op? src = some producer)
    (hproduces : producer.kind.producesViews) (hne : dst ≠ src)
    (hflows : FlowsInto g i src dst) : Leads g i src dst := by
  have hkind : g.kind src = .op producer := by
    unfold op? at hop
    cases hkind : g.kind src <;> simp_all [NodeKind.op?]
  have hproducer : (g.kind src).isProducer := by rw [hkind]; exact hproduces
  refine ⟨by simp [hproducer], ?_, hne, hflows⟩
  cases i <;> simp [follows, hproducer]

/-- What has a place at a parameter or at a receiver is no window. -/
theorem isWindow_of_suits {kind : NodeKind} (hinlet : i ≠ .listener)
    (hsuits : i.suits kind) : kind.isWindow = false := by
  cases i <;> cases kind <;>
    simp_all [suits, NodeKind.isShown, NodeKind.isViewAlloc, NodeKind.isInflated,
      NodeKind.isMenu, NodeKind.isWindow]

/-- What tracing the paths does: all paths of the graph are known, and the objects at their ends are
put into the operations. -/
structure Retraced (ctx : Context) (s t : Progress Notes) : Prop where
  graph_eq : t.graph = s.graph
  notes_eq : t.notes = { s.notes with
    solution := { s.notes.solution with
      parameters := t.notes.solution.parameters
      receivers := t.notes.solution.receivers
      listeners := t.notes.solution.listeners }
    paths := s.notes.paths.trace s.graph s.notes.solution
    flagged := t.notes.flagged }
  holds_iff : ∀ (i : Inlet) op o, (i.values t.notes.solution).holds op o ↔
    ((i.sources t.notes.paths).holds op o ∧ s.graph.HasObject o ∧
      i.admits ctx.hierarchy s.graph o op ∧ i.suits (s.graph.kind o)) ∨
    (i.values s.notes.solution).holds op o

theorem runs_tracePaths (ctx : Context) (s : Progress Notes) :
    Runs (tracePaths ctx) s fun _ t => Retraced ctx s t := by
  refine .getGraph (.modifyNotes_bind (.getNotes ?_))
  dsimp only
  generalize hpaths : s.notes.paths.trace s.graph s.notes.solution = paths
  have hseeds : ∀ (i : Inlet) (pair : NodeId × NodeId) st, st.graph = s.graph →
      Runs (i.choose seedParameter seedReceiver seedListener ctx pair.1 pair.2) st
        fun _ t => Fills (Seeds ctx s.graph i pair.1 pair.2) st t :=
    fun i pair st hstate => hstate ▸ runs_seed ctx i pair.1 pair.2 st
  refine .bind (runs_fills (hseeds .parameter)) fun _ first hfirst => ?_
  have hgraph : first.graph = s.graph := hfirst.graph_eq
  refine .bind (runs_fills fun pair st hstate =>
    hseeds .receiver pair st (hstate.trans hgraph)) fun _ second hsecond => ?_
  have hgraph : second.graph = s.graph := hsecond.graph_eq.trans hgraph
  refine (runs_fills fun pair st hstate =>
    hseeds .listener pair st (hstate.trans hgraph)).weaken fun _ t ht => ?_
  have hall := (hfirst.trans hsecond).trans ht
  refine ⟨hall.graph_eq, hpaths ▸ hall.notes_eq, fun i op o => ?_⟩
  have hnotes : t.notes.paths = paths := by rw [hall.notes_eq]
  rw [hall.holds_iff, hnotes]
  refine or_congr_left ?_
  simp only [Prod.exists, Seeds]
  cases i <;> simp [sources, choose, objectPairs, HasObject, and_assoc]

namespace Retraced

variable {ctx : Context} {s t : Progress Notes}

theorem sources_iff (h : Retraced ctx s t) (hwell : s.graph.WellFormed) {op : NodeId} :
    (i.sources t.notes.paths).holds op src ↔
      (i = .receiver ∧ ShowsMenu s.graph s.notes.solution op src) ∨
        Leads s.graph i src op ∨ (i.sources s.notes.paths).holds op src := by
  rw [h.notes_eq]
  exact holds_trace hwell

theorem fills (h : Retraced ctx s t) :
    Fills (fun i op o => (i.sources t.notes.paths).holds op o ∧
        s.graph.HasObject o ∧ i.admits ctx.hierarchy s.graph o op ∧
          i.suits (s.graph.kind o))
      { s with notes := { s.notes with
        paths := s.notes.paths.trace s.graph s.notes.solution } } t :=
  ⟨h.graph_eq, h.notes_eq, h.holds_iff⟩

theorem paths_eq (h : Retraced ctx s t) :
    t.notes.paths = s.notes.paths.trace s.graph s.notes.solution := by
  rw [h.notes_eq]

theorem gathers (h : Retraced ctx s t) (hwell : s.graph.WellFormed) :
    Evolves Eq Notes.Gathers s t := by
  refine ⟨h.graph_eq.symm, ?_⟩
  have hsources : ∀ i : Inlet,
      (i.sources s.notes.paths).Within (i.sources t.notes.paths) :=
    fun i op src hholds => (h.sources_iff hwell).mpr (.inr (.inr hholds))
  exact { h.fills.collects with sources := hsources }

theorem isOp (h : Retraced ctx s t) (hs : s.Sound) (i : Inlet)
    (op src : NodeId) (hsource : (i.sources t.notes.paths).holds op src) :
    s.graph.isOp op := by
  rcases (h.sources_iff hs.wellFormed).mp hsource with ⟨_, hmenu, _⟩ | hleads | hold
  · rcases hmenu with hmenu | hmenu
    · exact (hs.fits.optionsMenus op src hmenu).1
    · exact (hs.fits.contextMenus op src hmenu).1
  · obtain ⟨_, _, _, found, _, hop, _⟩ := hleads
    exact isOp_iff.mpr ⟨found, hop⟩
  · exact hs.fits.sources i op src hold

theorem complete (h : Retraced ctx s t) (hwell : s.graph.WellFormed) :
    Complete ctx t where
  sources src producer hop hproduces i dst hne hflows := by
    rw [h.graph_eq] at hop hflows
    exact (h.sources_iff hwell).mpr
      (.inr (.inl (leads_of_producesViews hop hproduces hne hflows)))
  values o hshown i dst hflows hadmits := by
    rw [h.graph_eq] at hshown hflows hadmits
    have hpath := (h.sources_iff hwell).mpr (.inr (.inl (leads_of_isShown hshown hflows)))
    have hsuits : i.suits (s.graph.kind o) := by
      cases i <;> simp [suits, hshown]
    exact (h.holds_iff i dst o).mpr
      (.inl ⟨hpath, hasObject_of_isShown hshown, hadmits, hsuits⟩)

theorem pours (h : Retraced ctx s t) (hs : Tidy ctx s) (i : Inlet)
    (op src : NodeId) (hsource : (i.sources t.notes.paths).holds op src) :
    Pours s.graph i src op ∨
      i = .receiver ∧ WorksOn s.notes.solution op src := by
  rcases (h.sources_iff hs.sound.wellFormed).mp hsource with ⟨hinlet, hmenu⟩ | hleads | hold
  · exact .inr ⟨hinlet, hmenu.1⟩
  · exact .inl hleads.2.2.2.pours
  · exact hs.filtered.traced i op src hold

theorem tidy (h : Retraced ctx s t) (hs : Tidy ctx s) : Tidy ctx t := by
  have hsound := hs.sound
  refine h.fills.tidy ⟨⟨hsound.wellFormed,
    { hsound.fits with sources := h.paths_eq ▸ h.isOp hsound }⟩,
    { hs.filtered with traced := h.paths_eq ▸ h.pours hs }⟩ ?_
  rintro i op o ⟨hsource, hobject, hadmits, hsuits⟩
  have hcarried : Carried s.graph s.notes.solution i op o :=
    (h.pours hs i op o hsource).imp_right .inr
  exact ⟨⟨h.isOp hsound i op o hsource, hobject⟩, hadmits, hcarried,
    fun hinlet => isWindow_of_suits hinlet hsuits⟩

end Retraced

/-! ## Pushing results -/

section Pushing

variable {relation paths : NodeRelation} {targets values results : List NodeId}
variable {admits : NodeId → NodeId → Bool} {key v : NodeId}

theorem mem_targetsOf : dst ∈ targetsOf paths src ↔ paths.holds dst src := by
  simp only [targetsOf, List.mem_map, List.mem_filter, Prod.exists, List.contains_iff_mem]
  constructor
  · rintro ⟨_, sources, ⟨hrow, hsource⟩, rfl⟩
    exact (Relation.mem_rows hrow).mp hsource
  · intro h
    obtain ⟨sources, hrow⟩ := Relation.exists_mem_rows h
    exact ⟨dst, sources, hrow, rfl⟩

theorem holds_extend :
    (extend relation targets values admits).holds key v ↔
      (key ∈ targets ∧ v ∈ values ∧ admits v key) ∨ relation.holds key v := by
  refine (Relation.holds_foldl id (fun op => key = op ∧ v ∈ values ∧ admits v op)
    (fun relation op => ?_) targets relation).trans (or_congr_left ?_)
  · simp only [id, Relation.holds_add_all, List.mem_filter]
  · constructor
    · rintro ⟨_, hop, rfl, hvalue⟩
      exact ⟨hop, hvalue⟩
    · exact fun h => ⟨key, h.1, rfl, h.2⟩

/-- What pushing the results of a source does. -/
structure Pushed (ctx : Context) (src : NodeId) (results : List NodeId) (s : Progress Notes)
    (changed : Bool) (t : Progress Notes) : Prop extends
    Fills (fun i key v => (i.sources s.notes.paths).holds key src ∧
      v ∈ results ∧ i.admits ctx.hierarchy s.graph v key) s t where
  changed_iff : changed ↔ ∃ (i : Inlet) (key v : NodeId),
    (i.sources s.notes.paths).holds key src ∧ v ∈ results ∧
      i.admits ctx.hierarchy s.graph v key ∧
        ¬ (i.values s.notes.solution).holds key v

theorem runs_push (ctx : Context) (src : NodeId) (results : List NodeId)
    (s : Progress Notes) :
    Runs (push ctx src results) s (Pushed ctx src results s) := by
  refine .getGraph (.getNotes (.modifyNotes_bind (.pure ⟨⟨rfl, rfl, ?_⟩, ?_⟩)))
  · intro i key v
    cases i
    all_goals
      refine holds_extend.trans ?_
      rw [mem_targetsOf]
      rfl
  · have hlacks : ∀ i : Inlet,
        lacks (i.values s.notes.solution)
            (targetsOf (i.sources s.notes.paths) src) results
            (i.admits ctx.hierarchy s.graph) ↔
          ∃ key v, (i.sources s.notes.paths).holds key src ∧ v ∈ results ∧
            i.admits ctx.hierarchy s.graph v key ∧
              ¬ (i.values s.notes.solution).holds key v := by
      intro i
      simp [lacks, mem_targetsOf]
    rw [Bool.or_eq_true, Bool.or_eq_true]
    constructor
    · rintro ((h | h) | h)
      · exact ⟨.parameter, (hlacks .parameter).mp h⟩
      · exact ⟨.receiver, (hlacks .receiver).mp h⟩
      · exact ⟨.listener, (hlacks .listener).mp h⟩
    · rintro ⟨i, h⟩
      have h := (hlacks i).mpr h
      cases i with
      | parameter => exact .inl (.inl h)
      | receiver => exact .inl (.inr h)
      | listener => exact .inr h

theorem Pushed.tidy {ctx : Context} {t : Progress Notes} {changed : Bool}
    (h : Pushed ctx src results s changed t) (hs : Tidy ctx s)
    (hresults : ∀ v ∈ results, s.notes.solution.results.holds src v) :
    Tidy ctx t := by
  refine h.toFills.tidy hs ?_
  rintro i op o ⟨hsource, hvalue, hadmits⟩
  have hresult := hresults o hvalue
  obtain ⟨hop, hobject⟩ := hs.sound.fits.results src o hresult
  refine ⟨⟨hs.sound.fits.sources i op src hsource, hobject⟩, hadmits, .inr ?_,
    fun _ => hs.filtered.results src o hresult⟩
  rcases hs.filtered.traced i op src hsource with hpours | ⟨_, hmenu⟩
  · exact .inl ⟨src, hresult, hpours⟩
  -- a menu is no operation and gives nothing
  · have hnone := (hasObject_of_isMenu (hs.filtered.reached op src hmenu).1).hasValue
    obtain ⟨found, hfound⟩ := isOp_iff.mp hop
    simp [hnone.op?_eq_none] at hfound

end Pushing

end WidgetFlow.Solving
