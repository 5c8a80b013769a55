import WidgetFlow.Proofs.Solution.Additions

/-!
# Resolving operations

Resolving an operation tells truly whether it changes anything (`runs_visit`). `SettledAt` says of
a state that an operation has nothing left to do: a look-up has given what it finds, views are
inside what they have been added to, views have identifiers, listeners are bound, and results have
been pushed. From such a state the operation rests (`rests_visit`).
-/

namespace WidgetFlow.Solving

open Analysis FlowGraph

variable {ctx : Context} {op : NodeId} {kind : OpKind} {old new s : Progress Notes}

/-! ## Registrations -/

section Registrations

variable {view lis : NodeId} {s t : Progress Notes} {found : Op}

def Bound (op view lis : NodeId) (st : Progress Notes) : Prop :=
  (op, view, lis) ∈ st.notes.bound

theorem lasting_bound (op : NodeId) : Lasting (Bound op) :=
  fun _ _ _ _ hstill h => hstill.grows.bound _ h

theorem noted_still (entry : NodeId × NodeId × NodeId) (s : Progress Notes) :
    Still s (noted entry s) :=
  ⟨rfl, rfl, { refl_of Notes.Grows s.notes with bound := fun _ => List.mem_cons_of_mem _ },
    .refl _⟩

theorem noted_tidy (hs : Tidy ctx s) (hop : s.graph.isOp op)
    (hview : s.graph.HasObject view) (hlistener : s.graph.HasObject lis) :
    Tidy ctx (noted (op, view, lis) s) := by
  have hfits : s.notes.Fits s.graph := hs.sound.fits
  refine ⟨⟨hs.sound.wellFormed, { hfits with bound := ?_ }⟩, { hs.filtered with }⟩
  intro op' view' lis' hmem
  rcases List.mem_cons.mp hmem with heq | hmem
  · cases heq
    exact ⟨hop, hview, hlistener⟩
  · exact hfits.bound op' view' lis' hmem

/-- A view and a listener are bound unless they have been. -/
theorem gives_bindOnce (ctx : Context) (op view lis : NodeId) (s : Progress Notes) :
    (bindOnce ctx op view lis).Gives s fun changed t =>
      (changed = false ∧ t = s ∧ Bound op view lis s) ∨
        ¬ Bound op view lis s ∧
          Context.Tied (ctx.Feeds s.graph op view lis)
            (ctx.Bestows s.graph op view lis) (noted (op, view, lis) s)
              changed t := by
  unfold bindOnce
  rw [gives_bind, gives_getNotes]
  split
  next hbound => exact gives_pure.mpr (.inl ⟨rfl, rfl, List.contains_iff_mem.mp hbound⟩)
  next hbound =>
    rw [gives_bind, gives_modifyNotes]
    exact (Context.gives_bindListener ctx op view lis _).weaken fun _ _ htied =>
      .inr ⟨fun h => hbound (List.contains_iff_mem.mpr h), htied⟩

/-- Binding is sound whatever is bound already. -/
theorem builds_bindOnce (hs : Tidy ctx s) (hop : s.graph.isOp op)
    (hview : s.graph.HasObject view) (hlistener : s.graph.HasObject lis) :
    Runs (bindOnce ctx op view lis) s fun _ t => t.Sound := by
  refine .getNotes ?_
  split
  · exact .pure hs.sound
  · have hbuilds : Extending s.graph s.graph (ctx.bindListener op view lis : Solving Bool) :=
      Context.builds_bindListener ctx hview.hasValue hlistener.hasValue
    exact .modifyNotes_bind ((hbuilds (noted (op, view, lis) s) (.refl _)
      ⟨(noted_tidy hs hop hview hlistener).sound, .refl _⟩).weaken fun _ _ ht =>
        ht.2.1.1)

/-- If binding is new, the paths are stale. -/
theorem runs_bindOnce (hs : Tidy ctx s) (hop : s.graph.op? op = some found)
    (hkind : found.kind.isSetListener) (hprebound : ¬ s.graph.isPrebound op)
    (hview : s.notes.solution.receivers.holds op view)
    (hlistener : s.notes.solution.listeners.holds op lis) :
    Runs (bindOnce ctx op view lis) s
      (Reported ctx id (Bound op view lis) s) := by
  have hfits : s.notes.Fits s.graph := hs.sound.fits
  have hobject := (hfits.values .receiver op view hview).2
  have hobject' := (hfits.values .listener op lis hlistener).2
  refine ((builds_bindOnce hs (isOp_iff.mpr ⟨found, hop⟩) hobject hobject').and
    (gives_bindOnce ctx op view lis s)).weaken ?_
  rintro changed t ⟨hsound, ⟨rfl, rfl, hbound⟩ | ⟨hbound, htied⟩⟩
  · exact .idle hbound
  have hnoted := noted_still (op, view, lis) s
  have hadvances : Advances s t :=
    ⟨htied.ties.toEnriches, htied.notes_eq ▸ hnoted.grows⟩
  have htidy : Tidy ctx t := by
    refine ⟨hsound, ?_⟩
    rw [htied.notes_eq]
    exact { hs.filtered.develops hfits hs.sound.wellFormed hadvances.1.toDevelops
      htied.ties.links_eq with }
  have hdone : Bound op view lis t := by
    rw [Bound, htied.notes_eq]
    exact List.mem_cons_self
  refine ⟨fun before => .single ⟨.bind hop hkind hprebound hview hlistener htied, hadvances,
    htidy⟩, fun hchanged => ⟨?_, hdone⟩, fun _ => ⟨.bound op view lis, hbound, hdone⟩⟩
  exact ⟨htied.quiet hs.sound.wellFormed hchanged, htied.notes_eq ▸ hnoted.paths_eq,
    hadvances.2, htied.notes_eq ▸ hnoted.same⟩

theorem rests_bindOnce (ctx : Context) (h : Bound op view lis s) :
    Rests (bindOnce ctx op view lis) s := by
  refine .getNotes ?_
  rw [if_pos (List.contains_iff_mem.mpr h)]
  exact .pure s

/-- All views and listeners of a registration have been bound, unless others are bound there. -/
def ListenersBound (op : NodeId) (st : Progress Notes) : Prop :=
  st.graph.isPrebound op ∨ PairsDone Solution.receivers Solution.listeners (Bound op) op st

theorem ListenersBound.still (hstill : Still old new)
    (h : ListenersBound op old) : ListenersBound op new := by
  refine h.imp (fun h => hstill.graph_eq ▸ h) fun h => ?_
  exact h.still (column_values .receiver) (column_values .listener) (lasting_bound op) hstill

theorem runs_resolveSetListener (hs : Tidy ctx s) (hop : s.graph.op? op = some found)
    (hkind : found.kind.isSetListener) :
    Runs (resolveSetListener ctx op) s (Reported ctx traced (ListenersBound op) s) := by
  refine .getGraph ?_
  split
  next hprebound => exact .pure (.idle (.inl hprebound))
  next hprebound =>
    have hpairs := runs_eachPair (column_values .receiver) (column_values .listener)
      (lasting_bound op) hs fun view lis st hadvances hstate hview hlistener =>
        runs_bindOnce hstate (op?_advances hadvances hop) hkind
          (by rwa [isPrebound, hadvances.1.prebound_eq]) hview hlistener
    refine does_getSolution (hpairs.bind fun changed middle hmiddle => ?_)
    cases changed with
    | false =>
      exact .pure ⟨fun _ => hmiddle.moves false, fun _ => (hmiddle.still rfl).imp_right .inr,
        nofun⟩
    | true =>
      -- handlers may have got new edges, but all paths are traced again
      refine (runs_tracePaths ctx middle).bind fun _ t htraced => .pure ?_
      have htidy := hmiddle.tidy hs
      obtain ⟨hgraph, hgathers⟩ := htraced.gathers htidy.sound.wellFormed
      have hstep : Step ctx ⟨middle, true⟩ ⟨t, false⟩ :=
        ⟨.trace htraced, ⟨hgraph ▸ refl_of Enriches _, hgathers.toGrows⟩, htraced.tidy htidy⟩
      exact ⟨fun _ => (hmiddle.moves false).tail hstep, nofun,
        fun _ => (hmiddle.gains rfl).after hstep.advances⟩

theorem rests_resolveSetListener (h : ListenersBound op s) :
    Rests (resolveSetListener ctx op) s := by
  refine .getGraph ?_
  split
  · exact .pure s
  next hprebound =>
    have hpairs := rests_eachPair (lasting_bound op) (fun _ _ _ => rests_bindOnce ctx)
      (h.resolve_left hprebound)
    exact .getSolution (.bind hpairs fun t _ => .pure t)

end Registrations

/-! ## Operations -/

def ResolvedAt (ctx : Context) (op : NodeId) (kind : OpKind) (st : Progress Notes) : Prop :=
  match kind with
  | .setContent => ContentSet op st
  | .addChild => ChildrenAdded op st
  | .setId => Named op st
  | .setListener _ _ => ListenersBound op st
  | _ => Given ctx op kind st

theorem ResolvedAt.given {st : Progress Notes} (h : ResolvedAt ctx op kind st) :
    Given ctx op kind st := by
  cases kind with
  | setContent | addChild | setId | setListener =>
    exact fun _ hoffers => absurd hoffers.1 List.not_mem_nil
  | _ => exact h

theorem ResolvedAt.still (hstill : Still old new)
    (h : ResolvedAt ctx op kind old) : ResolvedAt ctx op kind new := by
  cases kind with
  | setContent => exact h.still column_windows (column_values .parameter) lasting_inside hstill
  | addChild =>
    exact h.still (column_values .receiver) (column_values .parameter) lasting_insideOther hstill
  | setId => exact Named.still hstill h
  | setListener => exact ListenersBound.still hstill h
  | _ => exact Given.still hstill h

theorem runs_resolve {found : Op} (hs : Tidy ctx s)
    (hop : s.graph.op? op = some found) :
    Runs (resolve ctx op found.kind) s
      (Reported ctx traced (ResolvedAt ctx op found.kind) s) := by
  have hfind : Runs (resolveFind ctx op found.kind) s
      (Reported ctx traced (Given ctx op found.kind) s) := by
    refine (runs_resolveFind ctx op found.kind s).weaken fun changed t hlooked => ?_
    refine .of_change (.find hop hlooked) hs (fun hchanged => ?_) fun hchanged => ?_
    · exact ⟨hlooked.still (hlooked.given_before hs.sound hchanged), hlooked.given⟩
    · obtain ⟨o, hoffers, hnew⟩ := hlooked.changed_iff.mp hchanged
      exact ⟨.given op o, hnew, (hlooked.results_iff op o).mpr (.inl ⟨rfl, hoffers⟩)⟩
  cases hkind : found.kind with
  | findInView =>
    rw [hkind] at hfind
    exact hfind
  | findInWindow =>
    rw [hkind] at hfind
    exact hfind
  | findByPlace =>
    rw [hkind] at hfind
    exact hfind
  | setContent => exact runs_resolveSetContent hs hop hkind
  | addChild => exact runs_resolveAddChild hs hop hkind
  | setId => exact runs_resolveSetId hop hkind hs
  | setListener => exact runs_resolveSetListener hs hop (by rw [hkind]; rfl)
  | _ => exact .pure (.idle fun _ hoffers => absurd hoffers.1 List.not_mem_nil)

theorem rests_resolve (h : ResolvedAt ctx op kind s) : Rests (resolve ctx op kind) s := by
  cases kind with
  | findInView => exact rests_resolveFind h
  | findInWindow => exact rests_resolveFind h
  | findByPlace => exact rests_resolveFind h
  | setContent => exact rests_resolveSetContent h
  | addChild => exact rests_resolveAddChild h
  | setId => exact rests_resolveSetId h
  | setListener => exact rests_resolveSetListener h
  | _ => exact .pure s

/-- What an operation gives has arrived at all operations that paths lead to from it. -/
def PushedAt (ctx : Context) (op : NodeId) (st : Progress Notes) : Prop :=
  ∀ (i : Inlet) (dst o : NodeId), (i.sources st.notes.paths).holds dst op →
    st.notes.solution.results.holds op o →
      i.admits ctx.hierarchy st.graph o dst →
        (i.values st.notes.solution).holds dst o

theorem PushedAt.still (hstill : Still old new)
    (h : PushedAt ctx op old) : PushedAt ctx op new := by
  intro i dst o hsource hresult hadmits
  rw [hstill.paths_eq] at hsource
  rw [hstill.graph_eq] at hadmits
  have hresult := (hstill.same.results op o).mpr hresult
  exact (hstill.same.values i dst o).mp (h i dst o hsource hresult hadmits)

section Pushing

variable {s t : Progress Notes} {changed : Bool}

theorem Pushed.still {results : List NodeId} (h : Pushed ctx op results s changed t)
    (hchanged : changed = false) : Still s t := by
  have hsame : ∀ i : Inlet,
      (i.values s.notes.solution).Same (i.values t.notes.solution) := by
    intro i dst o
    rw [h.holds_iff]
    refine ⟨.inr, fun hor => hor.elim ?_ id⟩
    rintro ⟨hsource, hobject, hadmits⟩
    by_contra hnew
    rw [h.changed_iff.mpr ⟨i, dst, o, hsource, hobject, hadmits, hnew⟩] at hchanged
    exact absurd hchanged nofun
  refine ⟨h.graph_eq, by rw [h.notes_eq], h.collects.toGrows, ?_⟩
  rw [h.notes_eq]
  exact { Solution.Same.refl s.notes.solution with
    parameters := hsame .parameter, receivers := hsame .receiver, listeners := hsame .listener }

theorem Pushed.settled
    (h : Pushed ctx op (s.notes.solution.results.image op) s changed t) :
    PushedAt ctx op t := by
  intro i dst o hsource hresult hadmits
  rw [h.collects.results_eq] at hresult
  rw [h.graph_eq] at hadmits
  rw [h.notes_eq] at hsource
  exact (h.holds_iff i dst o).mpr
    (.inl ⟨hsource, Relation.mem_image.mpr hresult, hadmits⟩)

theorem Pushed.reported (hs : Tidy ctx s)
    (h : Pushed ctx op (s.notes.solution.results.image op) s changed t) :
    Reported ctx traced (PushedAt ctx op) s changed t := by
  refine .of_change (.push h) hs (fun hchanged => ⟨h.still hchanged, h.settled⟩) ?_
  intro hchanged
  obtain ⟨i, dst, o, hsource, hobject, hadmits, hnew⟩ := h.changed_iff.mp hchanged
  refine ⟨.arrived i dst o, hnew, ?_⟩
  exact (h.holds_iff i dst o).mpr (.inl ⟨hsource, hobject, hadmits⟩)

theorem rests_push (h : PushedAt ctx op s) :
    Rests (push ctx op (s.notes.solution.results.image op)) s := by
  have houtcome : (push ctx op (s.notes.solution.results.image op)).outcome s =
    (.ok _, _) := rfl
  have hpushed := (runs_push ctx op _ s).gives _ _ houtcome
  have hchanged := Bool.eq_false_iff.mpr fun hchanged => by
    obtain ⟨i, dst, o, hsource, hobject, hadmits, hnew⟩ :=
      hpushed.changed_iff.mp hchanged
    exact hnew (h i dst o hsource (Relation.mem_image.mp hobject) hadmits)
  exact ⟨_, hchanged ▸ houtcome, hpushed.still hchanged⟩

end Pushing

/-- An operation has nothing left to do. -/
def SettledAt (ctx : Context) (op : NodeId) (st : Progress Notes) : Prop :=
  ∀ found, st.graph.op? op = some found →
    ResolvedAt ctx op found.kind st ∧ PushedAt ctx op st

theorem SettledAt.still (hstill : Still old new)
    (h : SettledAt ctx op old) : SettledAt ctx op new := by
  intro found hop
  rw [hstill.graph_eq] at hop
  exact ⟨(h found hop).1.still hstill, (h found hop).2.still hstill⟩

/-- Resolving an operation and pushing what it gives tells truly whether anything changes. -/
theorem runs_visit (hs : Tidy ctx s) (op : NodeId) :
    Runs (visit ctx op) s (Reported ctx traced (SettledAt ctx op) s) := by
  refine .getGraph ?_
  split
  next found hop =>
    refine (runs_resolve hs hop).bind fun resolved middle hmiddle => does_getSolution ?_
    have hsettled : ∀ changed t, Reported ctx traced (PushedAt ctx op) middle changed t →
        Reported ctx traced (SettledAt ctx op) s (resolved || changed) t := by
      intro changed t ht
      have hboth := hmiddle.or ht fun hstill h => h.still hstill
      refine hboth.weaken fun hstill h found' hop' => ?_
      rw [hstill.graph_eq, hop] at hop'
      cases hop'
      exact h
    split
    next hnone =>
      -- an operation that gives nothing has nothing to push
      have hpushed : PushedAt ctx op middle := by
        intro _ _ o _ hresult _
        rw [← Relation.mem_image, hnone] at hresult
        exact absurd hresult List.not_mem_nil
      exact .pure (resolved.or_false ▸ hsettled false middle (.idle hpushed))
    next =>
      refine (runs_push ctx op _ middle).bind fun changed t hpushed => ?_
      exact .pure (hsettled changed t (hpushed.reported (hmiddle.tidy hs)))
  next hop => exact .pure (.idle fun found hfound => (hop found hfound).elim)

/-- Where an operation has nothing left to do, it does nothing. -/
theorem rests_visit (h : SettledAt ctx op s) : Rests (visit ctx op) s := by
  refine .getGraph ?_
  split
  next found hop =>
    obtain ⟨hresolved, hpushed⟩ := h found hop
    refine .bind (rests_resolve hresolved) fun middle hmiddle => .getSolution ?_
    split
    · exact .pure middle
    · exact .bind (rests_push (hpushed.still hmiddle)) fun t _ => .pure t
  next => exact .pure s

end WidgetFlow.Solving
