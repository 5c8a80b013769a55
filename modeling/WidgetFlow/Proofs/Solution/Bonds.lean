import WidgetFlow.Proofs.Solution.Passes

/-!
# Views and listeners that have been bound

`Bonds` says what is in a graph because views and listeners have been bound at registrations: each
bound pair has all the handlers and edges that it should have, and whatever handlers, edges and
nodes have come in since the origin are there for some bound pair. All this is said in terms of the
graph at the origin, because neither the operations nor the objects of a graph change while
operations are resolved.
-/

namespace WidgetFlow.Solving

open Analysis FlowGraph

variable {ctx : Context} {origin : FlowGraph} {s old new t : Progress Notes}
  {op view lis : NodeId}

theorem handles_congr {old new : FlowGraph} (hg : Develops old new)
    (hview : view < old.nodes.size) (hlistener : lis < old.nodes.size) :
    ctx.Handles new op view lis = ctx.Handles old op view lis := by
  funext interface handler
  rw [Context.Handles, Context.Handles, Context.registered?, Context.registered?, hg.op?_eq,
    hg.keeps NodeKind.isContextMenu NodeKind.isContextMenu_core hview,
    hg.keeps NodeKind.owner? NodeKind.owner?_core hlistener]

theorem feeds_congr {old new : FlowGraph} (hg : Develops old new)
    (hview : view < old.nodes.size) (hlistener : lis < old.nodes.size) :
    ctx.Feeds new op view lis = ctx.Feeds old op view lis ∧
      ctx.Bestows new op view lis = ctx.Bestows old op view lis := by
  unfold Context.Feeds Context.Bestows
  rw [handles_congr hg hview hlistener]
  exact ⟨rfl, rfl⟩

/-- Operations of a graph that register listeners and have not been given their handlers. -/
def OpenAt (g : FlowGraph) (op : NodeId) : Prop :=
  (∃ found, g.op? op = some found ∧ found.kind.isSetListener) ∧ ¬ g.isPrebound op

theorem openAt_congr {old new : FlowGraph} (hg : Develops old new) (op : NodeId) :
    OpenAt new op ↔ OpenAt old op := by
  rw [OpenAt, OpenAt, hg.op?_eq, isPrebound, hg.prebound_eq, isPrebound]

/-- If nothing is left to do, the views and listeners of open registrations have been bound. -/
theorem Settled.mem_bound {st : Progress Notes} (h : Settled ctx st)
    (hopen : OpenAt st.graph op) (hview : st.notes.solution.receivers.holds op view)
    (hlistener : st.notes.solution.listeners.holds op lis) :
    (op, view, lis) ∈ st.notes.bound := by
  obtain ⟨⟨found, hop, hkind⟩, hprebound⟩ := hopen
  have hlisteners : ListenersBound op st := by
    have hresolved := (h op found hop).1
    revert hresolved hkind
    cases found.kind <;> simp [ResolvedAt, OpKind.isSetListener]
  exact hlisteners.resolve_left hprebound view lis hview hlistener

/-- The handlers, edges and nodes that a graph has got since its origin come from the pairs of views
and listeners that have been bound. -/
structure Bonds (ctx : Context) (origin : FlowGraph) (st : Progress Notes) : Prop where
  opened : ∀ op view lis, (op, view, lis) ∈ st.notes.bound → OpenAt origin op ∧
    st.notes.solution.receivers.holds op view ∧ st.notes.solution.listeners.holds op lis
  bestowed : ∀ op view lis, (op, view, lis) ∈ st.notes.bound →
    ∀ binding, ctx.Bestows origin op view lis binding → binding ∈ st.graph.bindings
  fed : ∀ op view lis, (op, view, lis) ∈ st.notes.bound →
    ∀ src var, ctx.Feeds origin op view lis src var →
      ∃ dst, st.graph.find? (.var var) = some dst ∧ st.graph.hasEdge src dst
  bindings : ∀ binding ∈ st.graph.bindings, binding ∈ origin.bindings ∨
    ∃ op view lis, (op, view, lis) ∈ st.notes.bound ∧
      ctx.Bestows origin op view lis binding
  edges : ∀ src dst, st.graph.hasEdge src dst → origin.hasEdge src dst ∨
    ∃ op view lis var, (op, view, lis) ∈ st.notes.bound ∧
      ctx.Feeds origin op view lis src var ∧ st.graph.find? (.var var) = some dst
  nodes : ∀ id, origin.nodes.size ≤ id → id < st.graph.nodes.size →
    ∃ op view lis src var, (op, view, lis) ∈ st.notes.bound ∧
      ctx.Feeds origin op view lis src var ∧ st.graph.find? (.var var) = some id

namespace Bonds

theorem empty (hbound : s.notes.bound = []) : Bonds ctx s.graph s where
  opened _ _ _ h := by simp [hbound] at h
  bestowed _ _ _ h := by simp [hbound] at h
  fed _ _ _ h := by simp [hbound] at h
  bindings _ h := .inl h
  edges _ _ h := .inl h
  nodes _ hid hlt := absurd hlt (Nat.not_lt.mpr hid)

theorem steady (h : Bonds ctx origin old) (hadvances : Advances old new)
    (hsteady : Steady old.graph new.graph)
    (hbound : new.notes.bound = old.notes.bound) : Bonds ctx origin new := by
  have hg : Extends old.graph new.graph := hsteady.toExtends
  have hedges : ∀ src dst, new.graph.hasEdge src dst →
      old.graph.hasEdge src dst := by
    intro src dst hedge
    rwa [hasEdge, hsteady.edges_eq] at hedge
  refine ⟨?_, ?_, ?_, ?_, ?_, ?_⟩ <;> rw [hbound]
  · intro op view lis hentry
    obtain ⟨hopen, hview, hlistener⟩ := h.opened op view lis hentry
    exact ⟨hopen, hadvances.2.values .receiver op view hview,
      hadvances.2.values .listener op lis hlistener⟩
  · rw [hsteady.bindings_eq]
    exact h.bestowed
  · intro op view lis hentry src var hfeeds
    obtain ⟨dst, hfind, hedge⟩ := h.fed op view lis hentry src var hfeeds
    exact ⟨dst, hg.find?_eq hfind, hg.hasEdge hedge⟩
  · rw [hsteady.bindings_eq]
    exact h.bindings
  · intro src dst hedge
    refine (h.edges src dst (hedges src dst hedge)).imp_right ?_
    rintro ⟨op, view, lis, var, hentry, hfeeds, hfind⟩
    exact ⟨op, view, lis, var, hentry, hfeeds, hg.find?_eq hfind⟩
  · intro id hid hlt
    rw [hsteady.size_eq] at hlt
    obtain ⟨op, view, lis, src, var, hentry, hfeeds, hfind⟩ := h.nodes id hid hlt
    exact ⟨op, view, lis, src, var, hentry, hfeeds, hg.find?_eq hfind⟩

theorem bind {changed : Bool} (h : Bonds ctx origin old)
    (hopen : OpenAt origin op) (hview : old.notes.solution.receivers.holds op view)
    (hlistener : old.notes.solution.listeners.holds op lis)
    (htied : Context.Tied (ctx.Feeds origin op view lis)
      (ctx.Bestows origin op view lis) (noted (op, view, lis) old) changed new) :
    Bonds ctx origin new := by
  have hg : Extends old.graph new.graph := htied.ties.toExtends
  have hties : Ties _ _ old.graph new.graph := htied.ties
  have hentries : ∀ {entry}, entry ∈ new.notes.bound ↔
      entry = (op, view, lis) ∨ entry ∈ old.notes.bound := by
    intro entry
    rw [htied.notes_eq]
    exact List.mem_cons
  refine ⟨?_, ?_, ?_, ?_, ?_, ?_⟩
  · intro op' view' lis' hentry
    rw [htied.notes_eq]
    rcases hentries.mp hentry with heq | hold
    · cases heq
      exact ⟨hopen, hview, hlistener⟩
    · exact h.opened op' view' lis' hold
  · intro op' view' lis' hentry binding hbestows
    rcases hentries.mp hentry with heq | hold
    · cases heq
      exact (hties.bindings_iff binding).mpr (.inl hbestows)
    · exact hg.bindings binding (h.bestowed op' view' lis' hold binding hbestows)
  · intro op' view' lis' hentry src var hfeeds
    rcases hentries.mp hentry with heq | hold
    · cases heq
      exact hties.fed src var hfeeds
    · obtain ⟨dst, hfind, hedge⟩ := h.fed op' view' lis' hold src var hfeeds
      exact ⟨dst, hg.find?_eq hfind, hg.hasEdge hedge⟩
  · intro binding hbinding
    rcases (hties.bindings_iff binding).mp hbinding with hnew | hold
    · exact .inr ⟨op, view, lis, hentries.mpr (.inl rfl), hnew⟩
    · refine (h.bindings binding hold).imp_right ?_
      rintro ⟨op', view', lis', hentry, hbestows⟩
      exact ⟨op', view', lis', hentries.mpr (.inr hentry), hbestows⟩
  · intro src dst hedge
    rcases hties.edges_from src dst hedge with hold | ⟨var, hfeeds, hfind⟩
    · refine (h.edges src dst hold).imp_right ?_
      rintro ⟨op', view', lis', var, hentry, hfeeds, hfind⟩
      exact ⟨op', view', lis', var, hentries.mpr (.inr hentry), hfeeds, hg.find?_eq hfind⟩
    · exact .inr ⟨op, view, lis, var, hentries.mpr (.inl rfl), hfeeds, hfind⟩
  · intro id hid hlt
    by_cases hold : id < old.graph.nodes.size
    · obtain ⟨op', view', lis', src, var, hentry, hfeeds, hfind⟩ := h.nodes id hid hold
      exact ⟨op', view', lis', src, var, hentries.mpr (.inr hentry), hfeeds,
        hg.find?_eq hfind⟩
    · obtain ⟨src, var, hfeeds, hfind⟩ := hties.fresh_var id (Nat.not_lt.mp hold) hlt
      exact ⟨op, view, lis, src, var, hentries.mpr (.inl rfl), hfeeds, hfind⟩

end Bonds

theorem Step.bonds {old new : Stage} (h : Step ctx old new) (hold : Tidy ctx old.state)
    (horigin : Enriches origin old.state.graph) (hbonds : Bonds ctx origin old.state) :
    Bonds ctx origin new.state := by
  have hadvances := h.advances
  obtain ⟨old, stale⟩ := old
  obtain ⟨new, stale'⟩ := new
  cases h.move with
  | change hchange =>
    have hcalm := hchange.calm
    exact hbonds.steady hadvances hcalm.steady hcalm.bound_eq
  | @bind _ op view lis found changed hop hkind hprebound hview hlistener htied =>
    have hobject := (hold.sound.fits.values .receiver op view hview).2
    have hobject' := (hold.sound.fits.values .listener op lis hlistener).2
    have hsize := lt_size_of_isObject (horigin.hasObject_iff.mp hobject)
    have hsize' := lt_size_of_isObject (horigin.hasObject_iff.mp hobject')
    have hopen : OpenAt origin op :=
      (openAt_congr horigin.toDevelops op).mp ⟨⟨found, hop, hkind⟩, hprebound⟩
    obtain ⟨hfeeds, hbestows⟩ := feeds_congr horigin.toDevelops hsize hsize'
    rw [hfeeds, hbestows] at htied
    exact hbonds.bind hopen hview hlistener htied
  | trace htraced =>
    exact hbonds.steady hadvances (htraced.graph_eq ▸ refl_of Steady _)
      (by rw [htraced.notes_eq])

theorem Moves.bonds {stale : Bool} {last : Stage} (h : Moves ctx ⟨s, stale⟩ last)
    (hs : Tidy ctx s) (hbound : s.notes.bound = []) :
    Bonds ctx s.graph last.state :=
  Moves.keeps hs (fun _ _ htidy hadvances hstep hbonds =>
    hstep.bonds htidy hadvances.1 hbonds) h (.empty hbound)

end WidgetFlow.Solving
