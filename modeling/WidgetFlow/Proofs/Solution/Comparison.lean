import WidgetFlow.Proofs.Solution.Tracing

/-!
# Comparing two runs

Two runs of moves from the same state are compared by `Below`: one state has all that the other one
has. If no operation has anything left to do in a state, then every move from a state below it leads
to a state below it (`Below.step`): what a move adds has already been added there, because all that
the move goes by is there as well. So a whole run stays below (`Moves.below`).

This is so for `Plain` graphs. Where views get identifiers, the first one wins, and a look-up of a
menu item finds less once an item has the identifier.
-/

namespace WidgetFlow.Solving

open Analysis FlowGraph

variable {ctx : Context} {s : Progress Notes} {op view : NodeId}

/-- No operation gives identifiers to views, and none looks for menu items. -/
def Plain (g : FlowGraph) : Prop :=
  ∀ op found, g.op? op = some found →
    found.kind ≠ .setId ∧ found.kind ≠ .findInView .menuItem

instance (g : FlowGraph) : Decidable (Plain g) :=
  decidable_of_iff (∀ op ∈ g.ops, ∀ found ∈ g.op? op,
      found.kind ≠ .setId ∧ found.kind ≠ .findInView .menuItem)
    ⟨fun h op found hop => h op (mem_ops.mpr (isOp_iff.mpr ⟨found, hop⟩)) found hop,
      fun h op _ found hop => h op found hop⟩

/-- A graph whose operations stay the same stays plain. -/
theorem plain_congr {old new : FlowGraph} (hg : Develops old new) : Plain new ↔ Plain old := by
  simp only [Plain, hg.op?_eq]

/-! ## What runs keep -/

/-- Menus and identifiers are those of the start, and whatever an activity contains is one of its
roots unless it was there at the start. -/
structure Kept (s st : Progress Notes) : Prop where
  optionsMenus_eq : st.notes.solution.optionsMenus = s.notes.solution.optionsMenus
  contextMenus_eq : st.notes.solution.contextMenus = s.notes.solution.contextMenus
  names : ∀ n id, st.graph.idOf? n = some id → s.graph.idOf? n = some id
  roots : ∀ win owner view, s.graph.kind win = .activity owner →
    st.graph.Contains win view →
      s.graph.Contains win view ∨ st.notes.solution.activityRoots.holds win view

section Kept

variable {old new : Progress Notes}

/-- Moves that put nothing into anything and give no identifiers. -/
theorem Kept.same (h : Kept s old) (hlinks : new.graph.links = old.graph.links)
    (hnames : ∀ n, new.graph.idOf? n = old.graph.idOf? n)
    (hroots : new.notes.solution.activityRoots = old.notes.solution.activityRoots)
    (hoptions : new.notes.solution.optionsMenus = old.notes.solution.optionsMenus)
    (hcontexts : new.notes.solution.contextMenus = old.notes.solution.contextMenus) :
    Kept s new where
  optionsMenus_eq := hoptions.trans h.optionsMenus_eq
  contextMenus_eq := hcontexts.trans h.contextMenus_eq
  names n id hname := h.names n id ((hnames n).symm.trans hname)
  roots win owner view hkind hcontains := by
    rw [Contains, hlinks] at hcontains
    rw [hroots]
    exact h.roots win owner view hkind hcontains

theorem Change.kept (h : Change ctx old new) (hplain : Plain s.graph) (hold : Tidy ctx old)
    (hadvances : Advances s old) (hkept : Kept s old) : Kept s new := by
  have hcalm := h.calm
  have hsame : new.graph = old.graph →
      new.notes.solution.activityRoots = old.notes.solution.activityRoots → Kept s new :=
    fun hgraph hroots => hkept.same (by rw [hgraph]) (fun _ => by rw [hgraph]) hroots
      hcalm.optionsMenus_eq hcalm.contextMenus_eq
  have hlinked : ∀ {c p added},
      old.graph.addLink c p = .ok (added, new.graph) →
        ∀ n id, new.graph.idOf? n = some id → s.graph.idOf? n = some id := by
    intro c p added hlink n id hname
    rcases addLink_ok hlink with ⟨_, hgraph, _⟩ | ⟨_, hgraph, _⟩ <;>
      exact hkept.names n id (by rwa [hgraph] at hname)
  have hoptions := hcalm.optionsMenus_eq.trans hkept.optionsMenus_eq
  have hcontexts := hcalm.contextMenus_eq.trans hkept.contextMenus_eq
  cases h with
  | note hgraph hnotes => exact hsame hgraph (by rw [hnotes])
  | find hop hlooked => exact hsame hlooked.graph_eq (by rw [hlooked.notes_eq])
  | push hpushed => exact hsame hpushed.graph_eq (by rw [hpushed.notes_eq])
  | name hop hkind _ _ _ =>
    rw [hadvances.1.op?_eq] at hop
    exact absurd hkind (hplain _ _ hop).1
  | root hop hkind hwindow hview hrooted =>
    obtain ⟨added, hlink⟩ := hrooted.linked
    refine ⟨hoptions, hcontexts, hlinked hlink, fun win' owner view' howner hcontains => ?_⟩
    rcases (contains_addLink_iff hlink).mp hcontains with ⟨rfl, rfl⟩ | hcontains
    · have howner := hadvances.reveals.activities win' owner howner
      exact .inr ((hrooted.roots_iff win' view').mpr (.inl ⟨rfl, rfl, owner, howner⟩))
    · refine (hkept.roots win' owner view' howner hcontains).imp_right fun hroot => ?_
      exact (hrooted.roots_iff win' view').mpr (.inr hroot)
  | child hop hkind hparent hchild hne hlink ht =>
    subst ht
    refine ⟨hoptions, hcontexts, hlinked hlink, fun win owner view howner hcontains => ?_⟩
    rcases (contains_addLink_iff hlink).mp hcontains with ⟨rfl, rfl⟩ | hcontains
    -- nothing is added to a window in this way
    · have hwindow := hold.filtered.values .receiver nofun _ _ hparent
      rw [hadvances.reveals.activities win owner howner] at hwindow
      exact absurd hwindow nofun
    · exact hkept.roots win owner view howner hcontains

theorem Step.kept {old new : Stage} (h : Step ctx old new) (hplain : Plain s.graph)
    (hold : Tidy ctx old.state) (hadvances : Advances s old.state)
    (hkept : Kept s old.state) : Kept s new.state := by
  obtain ⟨old, stale⟩ := old
  obtain ⟨new, stale'⟩ := new
  cases h.move with
  | change hchange => exact hchange.kept hplain hold hadvances hkept
  | bind hop hkind hprebound hview hlistener htied =>
    have hnotes := htied.notes_eq
    exact hkept.same htied.ties.links_eq htied.ties.names_eq (by rw [hnotes]; rfl)
      (by rw [hnotes]; rfl) (by rw [hnotes]; rfl)
  | trace htraced =>
    have hgraph := htraced.graph_eq
    have hnotes := htraced.notes_eq
    exact hkept.same (by rw [hgraph]) (fun _ => by rw [hgraph]) (by rw [hnotes]) (by rw [hnotes])
      (by rw [hnotes])

end Kept

/-- What holds of every state that moves lead to. -/
structure Reached (ctx : Context) (s : Progress Notes) (stage : Stage) : Prop where
  tidy : Tidy ctx stage.state
  advances : Advances s stage.state
  bonds : Bonds ctx s.graph stage.state
  fresh : Fresh ctx s.graph stage
  kept : Kept s stage.state

theorem Moves.reached {last : Stage} (h : Moves ctx ⟨s, false⟩ last) (hs : Tidy ctx s)
    (hbound : s.notes.bound = []) (hplain : Plain s.graph) : Reached ctx s last where
  tidy := h.tidy hs
  advances := h.advances
  bonds := h.bonds hs hbound
  fresh := h.fresh hs
  kept := by
    have hkept : Kept s s := ⟨rfl, rfl, fun _ _ h => h, fun _ _ _ _ h => .inl h⟩
    exact Moves.keeps hs (fun _ _ hold hadvances hstep hkept =>
      hstep.kept hplain hold hadvances hkept) h hkept

/-! ## Comparing states -/

/-- One state has all that the other has. -/
structure Below (low high : Progress Notes) : Prop where
  values : ∀ i : Inlet,
    (i.values low.notes.solution).Within (i.values high.notes.solution)
  results : low.notes.solution.results.Within high.notes.solution.results
  activityRoots : low.notes.solution.activityRoots.Within high.notes.solution.activityRoots
  sources : ∀ i : Inlet, (i.sources low.notes.paths).Within (i.sources high.notes.paths)
  links : ∀ p c, low.graph.Contains p c → high.graph.Contains p c
  bound : ∀ entry ∈ low.notes.bound, entry ∈ high.notes.bound

theorem Below.of_eq {next high : Progress Notes} {g : FlowGraph} {ns : Notes}
    (hgraph : next.graph = g) (hnotes : next.notes = ns)
    (h : Below { graph := g, notes := ns } high) : Below next high := by
  subst hgraph hnotes
  exact { h with }

theorem Advances.below {old new : Progress Notes} (h : Advances old new) : Below old new where
  values := h.2.values
  results := h.2.results
  activityRoots := h.2.activityRoots
  sources := h.2.sources
  links _ _ := h.1.toExtends.contains
  bound := h.2.bound

namespace Reached

variable {stage : Stage} (h : Reached ctx s stage)
include h

/-- Nodes that are not the variables of handlers are those of the start. -/
theorem kind_eq {α : Type} {f : NodeKind → α} (hf : ∀ kind, f kind.core = f kind)
    (hvar : ∀ var ty, f (.var var ty) = f (.var default none)) (id : NodeId) :
    f (stage.state.graph.kind id) = f (s.graph.kind id) := by
  by_cases hid : id < s.graph.nodes.size
  · exact h.advances.1.keeps f hf hid
  have hid := Nat.not_lt.mp hid
  rw [kind_of_size_le hid]
  by_cases hlt : id < stage.state.graph.nodes.size
  · obtain ⟨_, _, _, _, var, _, _, hfind⟩ := h.bonds.nodes id hid hlt
    have hkey := (find?_some hfind).2
    cases hkind : stage.state.graph.kind id <;> simp_all [NodeKind.key?]
  · rw [kind_of_size_le (Nat.not_lt.mp hlt)]

theorem object_lt {o : NodeId} (hobject : stage.state.graph.HasObject o) :
    o < s.graph.nodes.size :=
  lt_size_of_isObject (h.advances.1.hasObject_iff.mp hobject)

theorem kind_activity {win : NodeId} {owner : String}
    (hkind : stage.state.graph.kind win = .activity owner) :
    s.graph.kind win = .activity owner := by
  have hobject : stage.state.graph.HasObject win := by rw [HasObject, hkind]; rfl
  have hcore := h.advances.1.core_eq win (h.object_lt hobject)
  exact kind_activity_of_core (hcore.symm.trans (congrArg NodeKind.core hkind))

/-- Only objects of the start are fed into variables. -/
theorem source_lt {src lis : NodeId} {var : Var}
    (hbound : (op, view, lis) ∈ stage.state.notes.bound)
    (hfeeds : ctx.Feeds s.graph op view lis src var) :
    src < s.graph.nodes.size := by
  obtain ⟨_, hview, hlistener⟩ := h.tidy.sound.fits.bound op view lis hbound
  obtain ⟨_, _, _, ⟨rfl, _⟩ | ⟨rfl, _⟩⟩ := hfeeds
  · exact h.object_lt hlistener
  · exact h.object_lt hview

theorem admits_eq (hs : s.graph.WellFormed) {i : Inlet} {o : NodeId}
    (hobject : o < s.graph.nodes.size) :
    i.admits ctx.hierarchy stage.state.graph o op =
      i.admits ctx.hierarchy s.graph o op :=
  Inlet.admits_eq h.advances.1.toDevelops hs hobject i op

end Reached

namespace Below

variable {low high : Stage} (h : Below low.state high.state) (hlow : Reached ctx s low)
variable (hhigh : Reached ctx s high)
include h hlow hhigh

theorem hasEdge {src dst : NodeId} (htarget : dst < s.graph.nodes.size)
    (hedge : low.state.graph.hasEdge src dst) : high.state.graph.hasEdge src dst := by
  rcases hlow.bonds.edges src dst hedge with hedge | hfed
  · exact hhigh.advances.1.toExtends.hasEdge hedge
  · obtain ⟨op, view, lis, var, hbound, hfeeds, hfind⟩ := hfed
    obtain ⟨dst', hfind', hedge'⟩ :=
      hhigh.bonds.fed op view lis (h.bound _ hbound) src var hfeeds
    -- the variable was there at the start, so it is the same node in both graphs
    have hfind := hlow.advances.1.toExtends.find?_eq_of_lt hfind htarget
    cases (hhigh.advances.1.toExtends.find?_eq hfind).symm.trans hfind'
    exact hedge'

theorem channels (hs : s.graph.WellFormed) :
    Channels s.graph.nodes.size low.state.graph high.state.graph where
  op?_eq id := (hhigh.advances.1.op?_eq id).trans (hlow.advances.1.op?_eq id).symm
  isProducer_eq id :=
    (hhigh.kind_eq NodeKind.isProducer_core (fun _ _ => rfl) id).trans
      (hlow.kind_eq NodeKind.isProducer_core (fun _ _ => rfl) id).symm
  isObject_eq id := Bool.eq_iff_iff.mpr
    (hhigh.advances.1.hasObject_iff.trans hlow.advances.1.hasObject_iff.symm)
  slots id op hop n hnode := by
    rw [hlow.advances.1.op?_eq] at hop
    have hslots := hs.slots id op hop
    exact hnode.elim (fun hnode => (hslots.receiver n hnode).1)
      fun hnode => (hslots.parameter n hnode).1
  sources src dst hedge := by
    rcases hlow.bonds.edges src dst hedge with hedge | hfed
    · obtain ⟨edge, hmem, rfl, _⟩ := hasEdge_iff.mp hedge
      exact (hs.edge_ends edge hmem).1
    · obtain ⟨op, view, lis, var, hbound, hfeeds, _⟩ := hfed
      exact hlow.source_lt hbound hfeeds
  edges src dst htarget hedge := h.hasEdge hlow hhigh htarget hedge

theorem bindings {binding : NodeId × Handler} (hbinding : binding ∈ low.state.graph.bindings) :
    binding ∈ high.state.graph.bindings := by
  rcases hlow.bonds.bindings binding hbinding with hold | hbestowed
  · exact hhigh.advances.1.bindings binding hold
  · obtain ⟨op, view, lis, hbound, hbestows⟩ := hbestowed
    exact hhigh.bonds.bestowed op view lis (h.bound _ hbound) binding hbestows

theorem grew (hs : s.graph.WellFormed) (hgrew : Grew s.graph low.state.graph) :
    Grew s.graph high.state.graph := by
  rcases hgrew with ⟨src, dst, hedge, hnew⟩ | ⟨binding, hbinding, hnew⟩
  · refine .inl ?_
    by_cases htarget : dst < s.graph.nodes.size
    · exact ⟨src, dst, h.hasEdge hlow hhigh htarget hedge, hnew⟩
    -- the edge leads to a variable that is not there at the start
    · obtain ⟨op, view, lis, var, hbound, hfeeds, hfind⟩ :=
        (hlow.bonds.edges src dst hedge).resolve_left hnew
      obtain ⟨dst', hfind', hedge'⟩ :=
        hhigh.bonds.fed op view lis (h.bound _ hbound) src var hfeeds
      refine ⟨src, dst', hedge', fun hold => htarget ?_⟩
      obtain ⟨edge, hmem, _, rfl⟩ := hasEdge_iff.mp hold
      have hlt := (hs.edge_ends edge hmem).2
      have hfind' := hhigh.advances.1.toExtends.find?_eq_of_lt hfind' hlt
      cases (hlow.advances.1.toExtends.find?_eq hfind').symm.trans hfind
      exact hlt
  · exact .inr ⟨binding, h.bindings hlow hhigh hbinding, hnew⟩

/-- What look-ups go by in the lower state is there in the higher one. -/
theorem reveals : Reveals low.state high.state where
  receivers := h.values .receiver
  activityRoots := h.activityRoots
  windows_eq := hhigh.advances.2.windows_eq.trans hlow.advances.2.windows_eq.symm
  viewIds_eq := hhigh.advances.2.viewIds_eq.trans hlow.advances.2.viewIds_eq.symm
  links := h.links
  names n id hname := hhigh.advances.1.idOf?_eq n id (hlow.kept.names n id hname)
  ids id v hvalue := by
    rw [hlow.kind_eq NodeKind.idValue?_core fun _ _ => rfl] at hvalue
    rwa [hhigh.kind_eq NodeKind.idValue?_core fun _ _ => rfl]
  activities win owner hkind :=
    hhigh.advances.reveals.activities win owner (hlow.kind_activity hkind)

end Below

/-! ## Moves below a settled state -/

section Moves

variable {low next high : Stage} {found : Op} {changed : Bool}

/-- What holds of a state in which no operation has anything left to do. -/
structure Finished (ctx : Context) (s : Progress Notes) (high : Stage) : Prop
    extends Reached ctx s high where
  settled : Settled ctx high.state
  traced_in_time : high.stale = false

variable (h : Below low.state high.state) (hlow : Reached ctx s low)
variable (hhigh : Finished ctx s high)
include h hlow hhigh

/-- A look-up gives nothing that it has not given in the higher state. -/
theorem Below.find (hs : s.graph.WellFormed)
    (hplain : Plain s.graph) (hop : low.state.graph.op? op = some found)
    (hlooked : LookedUp ctx op found.kind low.state changed next.state) :
    Below next.state high.state := by
  have hop : s.graph.op? op = some found := (hlow.advances.1.op?_eq op).symm.trans hop
  have hop' : high.state.graph.op? op = some found := (hhigh.advances.1.op?_eq op).trans hop
  obtain ⟨hsetId, hmenuItem⟩ := hplain op found hop
  have hgiven : ∀ o, Offers ctx op found.kind low.state o →
      high.state.notes.solution.results.holds op o := by
    rintro o ⟨hfound, hadmits⟩
    have hobject := hlow.object_lt
      (hasObject_of_mem_foundBy hlow.tidy.sound.wellFormed hlow.tidy.sound.fits hfound)
    have hfinds := ((mem_foundBy_iff hmenuItem).mp hfound).mono (h.reveals hlow hhigh.toReached)
    have hoffers : Offers ctx op found.kind high.state o := by
      refine ⟨(mem_foundBy_iff hmenuItem).mpr hfinds, ?_⟩
      rw [Hierarchy.admits_eq hlow.advances.1.toDevelops hs hobject] at hadmits
      rwa [Hierarchy.admits_eq hhigh.advances.1.toDevelops hs hobject]
    exact ((hhigh.settled op found hop').1.given o hoffers).1
  refine .of_eq hlooked.graph_eq hlooked.notes_eq { h with results := fun key o hholds => ?_ }
  rcases (hlooked.results_iff key o).mp hholds with ⟨rfl, hoffers⟩ | hold
  · exact hgiven o hoffers
  · exact h.results key o hold

theorem Below.root {win : NodeId} (hop : low.state.graph.op? op = some found)
    (hkind : found.kind = .setContent) (hwindow : low.state.notes.solution.windows.holds op win)
    (hview : low.state.notes.solution.parameters.holds op view)
    (hrooted : Rooted win view low.state next.state) : Below next.state high.state := by
  have hop' : high.state.graph.op? op = some found :=
    (hhigh.advances.1.op?_eq op).trans ((hlow.advances.1.op?_eq op).symm.trans hop)
  have hinside : high.state.graph.Contains win view := by
    have hresolved := (hhigh.settled op found hop').1
    rw [hkind] at hresolved
    refine hresolved win view ?_ (h.values .parameter op view hview)
    rwa [(h.reveals hlow hhigh.toReached).windows_eq]
  obtain ⟨added, hlink⟩ := hrooted.linked
  refine .of_eq rfl hrooted.notes_eq { h with
    activityRoots := fun key root hholds => ?_
    links := fun p c hcontains => ?_ }
  · rcases (hrooted.roots_iff key root).mp hholds with ⟨rfl, rfl, owner, howner⟩ | hold
    -- the view was not there at the start, so it has become a root
    · refine (hhigh.kept.roots _ owner _ (hlow.kind_activity howner) hinside).resolve_left ?_
      exact fun hold => hrooted.fresh (hlow.advances.1.toExtends.contains hold)
    · exact h.activityRoots key root hold
  · rcases (contains_addLink_iff hlink).mp hcontains with ⟨rfl, rfl⟩ | hold
    · exact hinside
    · exact h.links p c hold

/-- Views are inside others in the higher state. -/
theorem Below.child {p c : NodeId} {added : Bool} {g : FlowGraph}
    (hop : low.state.graph.op? op = some found) (hkind : found.kind = .addChild)
    (hparent : low.state.notes.solution.receivers.holds op p)
    (hchild : low.state.notes.solution.parameters.holds op c) (hne : p ≠ c)
    (hlink : low.state.graph.addLink c p = .ok (added, g)) :
    Below { low.state with graph := g } high.state := by
  have hop' : high.state.graph.op? op = some found :=
    (hhigh.advances.1.op?_eq op).trans ((hlow.advances.1.op?_eq op).symm.trans hop)
  refine { h with links := fun p' c' hcontains => ?_ }
  rcases (contains_addLink_iff hlink).mp hcontains with ⟨rfl, rfl⟩ | hold
  · have hresolved := (hhigh.settled op found hop').1
    rw [hkind] at hresolved
    exact hresolved _ _ (h.values .receiver op _ hparent) (h.values .parameter op _ hchild) hne
  · exact h.links p' c' hold

theorem Below.push (hs : s.graph.WellFormed)
    (hpushed : Pushed ctx op (low.state.notes.solution.results.image op) low.state changed
      next.state) : Below next.state high.state := by
  refine .of_eq hpushed.graph_eq hpushed.notes_eq
    { h with values := fun i dst o hholds => ?_ }
  rcases (hpushed.holds_iff i dst o).mp hholds with ⟨hsource, hresult, hadmits⟩ | hold
  · have hresult := Relation.mem_image.mp hresult
    obtain ⟨hisOp, hobject⟩ := hlow.tidy.sound.fits.results op o hresult
    obtain ⟨found, hop⟩ := isOp_iff.mp hisOp
    have hop' : high.state.graph.op? op = some found :=
      (hhigh.advances.1.op?_eq op).trans ((hlow.advances.1.op?_eq op).symm.trans hop)
    have hlt := hlow.object_lt hobject
    rw [hlow.admits_eq hs hlt, ← hhigh.admits_eq hs hlt] at hadmits
    exact (hhigh.settled op found hop').2 i dst o (h.sources i dst op hsource)
      (h.results op o hresult) hadmits
  · exact h.values i dst o hold

theorem Below.bind {lis : NodeId} {feeds : NodeId → Var → Prop}
    {handles : NodeId × Handler → Prop} (hopen : OpenAt low.state.graph op)
    (hview : low.state.notes.solution.receivers.holds op view)
    (hlistener : low.state.notes.solution.listeners.holds op lis)
    (htied : Context.Tied feeds handles (noted (op, view, lis) low.state) changed next.state) :
    Below next.state high.state := by
  have hopen : OpenAt high.state.graph op := (openAt_congr hhigh.advances.1.toDevelops op).mpr
    ((openAt_congr hlow.advances.1.toDevelops op).mp hopen)
  have hbound := hhigh.settled.mem_bound hopen (h.values .receiver op view hview)
    (h.values .listener op lis hlistener)
  refine .of_eq rfl htied.notes_eq { h with
    links := fun p c hcontains => ?_
    bound := fun entry hentry => ?_ }
  · rw [Contains, htied.ties.links_eq] at hcontains
    exact h.links p c hcontains
  · rcases List.mem_cons.mp hentry with rfl | hold
    · exact hbound
    · exact h.bound entry hold

theorem Below.trace (hs : s.graph.WellFormed) (hstale : low.stale = true)
    (hretraced : Retraced ctx low.state next.state) : Below next.state high.state := by
  have hwell := hlow.tidy.sound.wellFormed
  have hgrew := h.grew hlow hhigh.toReached hs (hlow.fresh.grew hstale)
  have htraced := hhigh.fresh.traced hhigh.traced_in_time hgrew
  have hsources : ∀ i : Inlet,
      (i.sources next.state.notes.paths).Within (i.sources high.state.notes.paths) := by
    intro i dst src hholds
    rcases (hretraced.sources_iff hwell).mp hholds with ⟨rfl, hshows⟩ | hleads | hold
    · refine htraced.menus dst src ?_
      rw [ShowsMenu, hlow.kept.optionsMenus_eq, hlow.kept.contextMenus_eq, opIs,
        hlow.advances.1.op?_eq] at hshows
      rwa [ShowsMenu, hhigh.kept.optionsMenus_eq, hhigh.kept.contextMenus_eq, opIs,
        hhigh.advances.1.op?_eq]
    · exact htraced.sources i src dst ((h.channels hlow hhigh.toReached hs).leads
        hleads)
    · exact h.sources i dst src hold
  refine .of_eq hretraced.graph_eq hretraced.notes_eq { h with
    values := fun i op o hholds => ?_
    sources := by rwa [hretraced.notes_eq] at hsources }
  rcases (hretraced.holds_iff i op o).mp hholds with hnew | hold
  · obtain ⟨hsource, hobject, hadmits, hsuits⟩ := hnew
    have hlt := hlow.object_lt hobject
    have hobject := hhigh.advances.1.hasObject_iff.mpr (hlow.advances.1.hasObject_iff.mp hobject)
    rw [hlow.admits_eq hs hlt, ← hhigh.admits_eq hs hlt] at hadmits
    rw [hlow.advances.1.keeps _ i.suits_core hlt,
      ← hhigh.advances.1.keeps _ i.suits_core hlt] at hsuits
    exact htraced.values i op o (hsources i op o hsource) hobject hadmits hsuits
  · exact h.values i op o hold

/-- Every move from a state below a settled one leads to a state below it. -/
theorem Below.step (hstep : Step ctx low next) (hs : s.graph.WellFormed)
    (hplain : Plain s.graph) : Below next.state high.state := by
  obtain ⟨low, stale⟩ := low
  obtain ⟨next, stale'⟩ := next
  cases hstep.move with
  | change hchange =>
    cases hchange with
    | note hgraph hnotes => exact .of_eq hgraph hnotes { h with }
    | find hop hlooked => exact h.find hlow hhigh hs hplain hop hlooked
    | root hop hkind hwindow hview hrooted =>
      exact h.root hlow hhigh hop hkind hwindow hview hrooted
    | child hop hkind hparent hchild hne hlink ht =>
      subst ht
      exact h.child hlow hhigh hop hkind hparent hchild hne hlink
    | name hop hkind _ _ _ =>
      rw [hlow.advances.1.op?_eq] at hop
      exact absurd hkind (hplain _ _ hop).1
    | push hpushed => exact h.push hlow hhigh hs hpushed
  | bind hop hkind hprebound hview hlistener htied =>
    exact h.bind hlow hhigh ⟨⟨_, hop, hkind⟩, hprebound⟩ hview hlistener htied
  | trace htraced => exact h.trace hlow hhigh hs rfl htraced

end Moves

/-- Whatever moves lead to is below every settled state that moves from the same state lead to. -/
theorem Moves.below {low high : Stage} (hs : Tidy ctx s) (hbound : s.notes.bound = [])
    (hplain : Plain s.graph) (hhigh : Finished ctx s high)
    (h : Moves ctx ⟨s, false⟩ low) : Below low.state high.state := by
  induction h with
  | refl => exact hhigh.advances.below
  | tail hmoves hstep ih =>
    exact ih.step (Moves.reached hmoves hs hbound hplain) hhigh hstep hs.sound.wellFormed
      hplain

end WidgetFlow.Solving
