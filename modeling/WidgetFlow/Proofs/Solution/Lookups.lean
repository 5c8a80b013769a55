import WidgetFlow.Proofs.Solution.Changes

/-!
# Look-ups

`Finds` says which nodes a look-up finds in a graph with a solution, in terms of containment and
identifiers, and `mem_foundBy_iff` that resolving a look-up finds exactly these. As containment and
receivers only grow and identifiers stay, what has been found is found from then on (`Finds.mono`).

Resolving a look-up gives what it finds and its result admits (`runs_resolveFind`), and rests once
all has been given (`rests_resolveFind`).
-/

namespace WidgetFlow.Solving

open Analysis FlowGraph

variable {ctx : Context} {g : FlowGraph} {sol : Solution} {op n receiver : NodeId}

/-- A node carries an identifier that an operation has got. -/
def Carries (g : FlowGraph) (sol : Solution) (op n : NodeId) : Prop :=
  ∃ id, sol.viewIds.holds op id ∧ g.idOf? n = some id

/-- An operation has got the identifier that stands for the whole content of a window. -/
def AsksContent (ctx : Context) (g : FlowGraph) (sol : Solution) (op : NodeId) : Prop :=
  ∃ content id kind, ctx.resources.sysId? "content" = some content ∧
    sol.viewIds.holds op id ∧ (g.kind id).idValue? = some (kind, content)

def RootsActivity (g : FlowGraph) (sol : Solution) (win n : NodeId) : Prop :=
  (∃ owner, g.kind win = .activity owner) ∧ sol.activityRoots.holds win n

/-- What look-ups find. A look-up of a menu item finds more if nothing carries its identifier. -/
def Finds (ctx : Context) (g : FlowGraph) (sol : Solution) (op n : NodeId) :
    OpKind → Prop
  | .findInView _ => ∃ receiver, sol.receivers.holds op receiver ∧
      n ∈ g.descendants receiver ∧ Carries g sol op n
  | .findInWindow => ∃ win, sol.windows.holds op win ∧
      (AsksContent ctx g sol op ∧ RootsActivity g sol win n ∨
        ∃ c, g.Contains win c ∧ n ∈ g.descendants c ∧
          Carries g sol op n)
  | .findByPlace .children => ∃ receiver, sol.receivers.holds op receiver ∧
      g.Contains receiver n
  | .findByPlace .descendantsAndSelf => ∃ receiver, sol.receivers.holds op receiver ∧
      n ∈ g.descendants receiver
  | .findByPlace .descendants => ∃ receiver, sol.receivers.holds op receiver ∧
      n ∈ g.descendants receiver ∧ n ≠ receiver
  | _ => False

/-! ## Searches -/

/-- The nodes with certain identifiers below some roots. -/
theorem mem_withIds {ids roots : List NodeId} :
    n ∈ withIds g ids roots ↔
      (∃ root ∈ roots, n ∈ g.descendants root) ∧ ∃ id ∈ ids, g.idOf? n = some id := by
  simp only [withIds, List.mem_filter, List.mem_flatMap, Std.TreeSet.mem_toList]
  refine and_congr_right fun _ => ?_
  cases g.idOf? n <;> simp

/-- The nodes with an identifier of an operation below some roots. -/
theorem mem_withIds_image {roots : List NodeId} :
    n ∈ withIds g (sol.viewIds.image op) roots ↔
      (∃ root ∈ roots, n ∈ g.descendants root) ∧ Carries g sol op n := by
  rw [mem_withIds]
  simp only [Relation.mem_image, Carries]

theorem mem_below :
    n ∈ below g receiver ↔ n ∈ g.descendants receiver ∧ n ≠ receiver := by
  simp [below, Std.TreeSet.mem_toList]

/-- A look-up of an identifier finds what carries it. -/
theorem foundBelow_ordinary (ids : List NodeId) :
    foundBelow g ids .ordinary receiver = withIds g ids [receiver] := by
  unfold foundBelow
  cases withIds g ids [receiver] <;> rfl

/-- A look-up below a node finds nothing else than what is there. -/
theorem mem_descendants_of_mem_foundBelow {ids : List NodeId} {lookup : IdLookup}
    (h : n ∈ foundBelow g ids lookup receiver) : n ∈ g.descendants receiver := by
  unfold foundBelow at h
  split at h
  · exact (mem_below.mp h).1
  · obtain ⟨⟨_, hroot, hnode⟩, _⟩ := mem_withIds.mp h
    rwa [List.mem_singleton.mp hroot] at hnode

theorem asksContent_iff :
    asksContent ctx g (sol.viewIds.image op) ↔ AsksContent ctx g sol op := by
  unfold asksContent AsksContent
  cases ctx.resources.sysId? "content" with
  | none => simp
  | some content =>
    simp only [List.any_eq_true, Relation.mem_image, Option.any_eq_true, Option.some.injEq,
      decide_eq_true_eq, Prod.exists, exists_eq_right]
    constructor
    · rintro ⟨id, hid, kind, hvalue⟩
      exact ⟨content, id, kind, rfl, hid, hvalue⟩
    · rintro ⟨_, id, kind, rfl, hid, hvalue⟩
      exact ⟨id, hid, kind, hvalue⟩

theorem mem_foundInWindow {win : NodeId} :
    n ∈ foundInWindow ctx g sol (sol.viewIds.image op) win ↔
      AsksContent ctx g sol op ∧ RootsActivity g sol win n ∨
        ∃ c, g.Contains win c ∧ n ∈ g.descendants c ∧
          Carries g sol op n := by
  unfold foundInWindow RootsActivity
  rw [List.mem_append, mem_withIds_image]
  refine or_congr ?_ ?_
  · rw [← asksContent_iff]
    cases hkind : g.kind win with
    | activity owner =>
      by_cases hasks : asksContent ctx g (sol.viewIds.image op) <;> simp [hasks]
    | _ => simp
  · simp only [mem_children]
    constructor
    · rintro ⟨⟨c, hchild, hnode⟩, hcarries⟩
      exact ⟨c, hchild, hnode, hcarries⟩
    · rintro ⟨c, hchild, hnode, hcarries⟩
      exact ⟨⟨c, hchild, hnode⟩, hcarries⟩

/-- Resolving a look-up finds what it should, except that a look-up of a menu item has a second
chance. -/
theorem mem_foundBy_iff {kind : OpKind} (hkind : kind ≠ .findInView .menuItem) :
    n ∈ foundBy ctx g sol op kind ↔ Finds ctx g sol op n kind := by
  cases kind with
  | findInView lookup =>
    cases lookup with
    | menuItem => exact absurd rfl hkind
    | ordinary =>
      simp only [foundBy, Finds, foundBelow_ordinary, List.mem_flatMap, Relation.mem_image,
        mem_withIds_image, List.mem_singleton, exists_eq_left]
  | findInWindow =>
    simp only [foundBy, Finds, List.mem_flatMap, Relation.mem_image, mem_foundInWindow]
  | findByPlace lookup =>
    cases lookup <;>
      simp only [foundBy, Finds, foundByPlace, List.mem_flatMap, Relation.mem_image, mem_children,
        mem_below, Std.TreeSet.mem_toList]
  | _ => simp [foundBy, Finds]

/-! ## Objects -/

/-- What is true of receivers, of the contents of windows and of all that something holds is true of
whatever a look-up finds. -/
theorem of_mem_foundBy {good : NodeId → Prop}
    (hreceivers : ∀ receiver, sol.receivers.holds op receiver → good receiver)
    (hroots : ∀ win root, sol.activityRoots.holds win root → good root)
    (hchildren : ∀ p c, g.Contains p c → good c) {kind : OpKind}
    (h : n ∈ foundBy ctx g sol op kind) : good n := by
  have hbelow : ∀ {top}, good top → n ∈ g.descendants top → good n := by
    intro top htop hnode
    rw [mem_descendants] at hnode
    cases hnode with
    | refl => exact htop
    | tail _ hlink => exact hchildren _ n hlink
  cases kind with
  | findInView lookup =>
    obtain ⟨receiver, hreceiver, hnode⟩ := List.mem_flatMap.mp h
    exact hbelow (hreceivers receiver (Relation.mem_image.mp hreceiver))
      (mem_descendants_of_mem_foundBelow hnode)
  | findInWindow =>
    obtain ⟨win, _, hnode⟩ := List.mem_flatMap.mp h
    rcases mem_foundInWindow.mp hnode with ⟨_, _, hroot⟩ | ⟨c, hchild, hnode, _⟩
    · exact hroots win n hroot
    · exact hbelow (hchildren win c hchild) hnode
  | findByPlace lookup =>
    obtain ⟨receiver, hreceiver, hnode⟩ := List.mem_flatMap.mp h
    have hreceiver := hreceivers receiver (Relation.mem_image.mp hreceiver)
    cases lookup with
    | children => exact hchildren receiver n (mem_children.mp hnode)
    | descendantsAndSelf => exact hbelow hreceiver (Std.TreeSet.mem_toList.mp hnode)
    | descendants => exact hbelow hreceiver (mem_below.mp hnode).1
  | _ => exact absurd h List.not_mem_nil

theorem hasObject_of_mem_foundBy {ns : Notes} (hwell : g.WellFormed)
    (hfits : ns.Fits g) {kind : OpKind}
    (h : n ∈ foundBy ctx g ns.solution op kind) : g.HasObject n :=
  of_mem_foundBy (fun receiver hreceiver => (hfits.values .receiver op receiver hreceiver).2)
    hfits.activityRoots (fun _ _ hlink => (hwell.link_ends _ hlink).1) h

/-! ## Growth -/

section Growth

variable {old new : Progress Notes}

/-- Whatever look-ups go by in one state is there in the other. -/
structure Reveals (old new : Progress Notes) : Prop where
  receivers : old.notes.solution.receivers.Within new.notes.solution.receivers
  activityRoots : old.notes.solution.activityRoots.Within new.notes.solution.activityRoots
  windows_eq : new.notes.solution.windows = old.notes.solution.windows
  viewIds_eq : new.notes.solution.viewIds = old.notes.solution.viewIds
  links : ∀ p c, old.graph.Contains p c → new.graph.Contains p c
  names : ∀ n id, old.graph.idOf? n = some id → new.graph.idOf? n = some id
  ids : ∀ id v, (old.graph.kind id).idValue? = some v →
    (new.graph.kind id).idValue? = some v
  activities : ∀ win owner, old.graph.kind win = .activity owner →
    new.graph.kind win = .activity owner

theorem kind_activity_of_core {kind : NodeKind} {owner : String}
    (h : kind.core = .activity owner) : kind = .activity owner := by
  cases kind <;> simp_all [NodeKind.core]

theorem Advances.reveals (hg : Advances old new) : Reveals old new where
  receivers := hg.2.values .receiver
  activityRoots := hg.2.activityRoots
  windows_eq := hg.2.windows_eq
  viewIds_eq := hg.2.viewIds_eq
  links _ _ := hg.1.toExtends.contains
  names := hg.1.idOf?_eq
  ids id v hvalue := by
    have hsize : id < old.graph.nodes.size :=
      lt_size_of_kind (fun kind => kind.idValue?.isSome) rfl (by rw [hvalue]; rfl)
    exact (hg.1.keeps NodeKind.idValue? NodeKind.idValue?_core hsize).trans hvalue
  activities win owner hkind := by
    have hsize : win < old.graph.nodes.size := lt_size_of_isObject (by rw [hkind]; rfl)
    have hcore := hg.1.core_eq win hsize
    rw [hkind] at hcore
    exact kind_activity_of_core hcore

theorem Reveals.mem_descendants (h : Reveals old new) (hnode : n ∈ old.graph.descendants receiver) :
    n ∈ new.graph.descendants receiver := by
  rw [FlowGraph.mem_descendants] at hnode ⊢
  exact Relation.ReflTransGen.mono h.links _ _ hnode

/-- A node goes on carrying its identifier. -/
theorem Reveals.carries (h : Reveals old new) (hnode : Carries old.graph old.notes.solution op n) :
    Carries new.graph new.notes.solution op n := by
  obtain ⟨id, hid, hname⟩ := hnode
  exact ⟨id, h.viewIds_eq ▸ hid, h.names n id hname⟩

/-- What a look-up finds, it finds in every state that has all that it goes by. -/
theorem Finds.mono (h : Reveals old new) {kind : OpKind}
    (hfinds : Finds ctx old.graph old.notes.solution op n kind) :
    Finds ctx new.graph new.notes.solution op n kind := by
  have hreceivers := h.receivers op
  have hbelow : ∀ {root}, n ∈ old.graph.descendants root →
      n ∈ new.graph.descendants root := h.mem_descendants
  have hcarries : Carries old.graph old.notes.solution op n →
      Carries new.graph new.notes.solution op n := h.carries
  match kind, hfinds with
  | .findInView _, ⟨receiver, hreceiver, hnode, hcarried⟩ =>
    exact ⟨receiver, hreceivers receiver hreceiver, hbelow hnode, hcarries hcarried⟩
  | .findInWindow, ⟨win, hwindow, hfound⟩ =>
    refine ⟨win, h.windows_eq ▸ hwindow, ?_⟩
    rcases hfound with ⟨hasks, ⟨owner, hkind⟩, hroot⟩ | ⟨c, hchild, hnode, hcarried⟩
    · obtain ⟨content, id, kind, hcontent, hid, hvalue⟩ := hasks
      exact .inl ⟨⟨content, id, kind, hcontent, h.viewIds_eq ▸ hid, h.ids id _ hvalue⟩,
        ⟨owner, h.activities win owner hkind⟩, h.activityRoots win n hroot⟩
    · exact .inr ⟨c, h.links win c hchild, hbelow hnode, hcarries hcarried⟩
  | .findByPlace .children, ⟨receiver, hreceiver, hchild⟩ =>
    exact ⟨receiver, hreceivers receiver hreceiver, h.links receiver n hchild⟩
  | .findByPlace .descendantsAndSelf, ⟨receiver, hreceiver, hnode⟩ =>
    exact ⟨receiver, hreceivers receiver hreceiver, hbelow hnode⟩
  | .findByPlace .descendants, ⟨receiver, hreceiver, hnode, hne⟩ =>
    exact ⟨receiver, hreceivers receiver hreceiver, hbelow hnode, hne⟩

/-- A look-up finds the same in states that are as they were. -/
theorem mem_foundBy_still (h : Still old new) {kind : OpKind} :
    n ∈ foundBy ctx new.graph new.notes.solution op kind ↔
      n ∈ foundBy ctx old.graph old.notes.solution op kind := by
  have hreceivers : ∀ receiver, receiver ∈ new.notes.solution.receivers.image op ↔
      receiver ∈ old.notes.solution.receivers.image op := fun receiver => by
    rw [Relation.mem_image, Relation.mem_image]
    exact (h.same.receivers op receiver).symm
  -- the receivers and the roots are the same, though they may be kept in another order
  unfold foundBy
  rw [h.graph_eq, h.grows.viewIds_eq, h.grows.windows_eq]
  split
  · simp only [List.mem_flatMap, hreceivers]
  · simp only [List.mem_flatMap, foundInWindow, List.mem_append]
    refine exists_congr fun win => and_congr_right fun _ => or_congr_left ?_
    split
    · split
      · rw [Relation.mem_image, Relation.mem_image]
        exact (h.same.activityRoots win n).symm
      · exact Iff.rfl
    · exact Iff.rfl
  · simp only [List.mem_flatMap, hreceivers]
  · exact Iff.rfl

end Growth

/-! ## Resolving -/

variable {kind : OpKind}

/-- An operation finds an object that its result admits. -/
def Offers (ctx : Context) (op : NodeId) (kind : OpKind) (st : Progress Notes)
    (o : NodeId) : Prop :=
  o ∈ foundBy ctx st.graph st.notes.solution op kind ∧
    ctx.hierarchy.admits st.graph o op .result

/-- What a look-up finds has been given, and the look-up is noted as its producer. -/
def Given (ctx : Context) (op : NodeId) (kind : OpKind) (st : Progress Notes) : Prop :=
  ∀ o, Offers ctx op kind st o →
    st.notes.solution.results.holds op o ∧
      st.notes.solution.viewProducers.holds o op

theorem Given.still {old new : Progress Notes} (hstill : Still old new)
    (h : Given ctx op kind old) : Given ctx op kind new := by
  intro o hoffers
  rw [Offers, mem_foundBy_still hstill, hstill.graph_eq] at hoffers
  obtain ⟨hresult, hproducer⟩ := h o hoffers
  exact ⟨(hstill.same.results op o).mp hresult,
    (hstill.same.viewProducers o op).mp hproducer⟩

/-- What resolving a look-up does. -/
structure LookedUp (ctx : Context) (op : NodeId) (kind : OpKind) (s : Progress Notes)
    (changed : Bool) (t : Progress Notes) : Prop where
  graph_eq : t.graph = s.graph
  notes_eq : t.notes = { s.notes with
    solution := { s.notes.solution with
      results := t.notes.solution.results
      viewProducers := t.notes.solution.viewProducers } }
  results_iff : ∀ key o, t.notes.solution.results.holds key o ↔
    (key = op ∧ Offers ctx op kind s o) ∨ s.notes.solution.results.holds key o
  producers_iff : ∀ o key, t.notes.solution.viewProducers.holds o key ↔
    (key = op ∧ Offers ctx op kind s o) ∨
      s.notes.solution.viewProducers.holds o key
  changed_iff : changed ↔ ∃ o, Offers ctx op kind s o ∧
    ¬ s.notes.solution.results.holds op o

theorem runs_resolveFind (ctx : Context) (op : NodeId) (kind : OpKind) (s : Progress Notes) :
    Runs (resolveFind ctx op kind) s (LookedUp ctx op kind s) := by
  refine .getGraph (does_getSolution (.modifyNotes_bind (.pure ⟨rfl, rfl, ?_, ?_, ?_⟩)))
  · intro key o
    refine Relation.holds_add_all.trans ?_
    rw [List.mem_filter]
    rfl
  · intro o key
    refine (Relation.holds_foldl_add _ _ (fun n => (n, op)) o key).trans ?_
    refine or_congr_left ?_
    simp only [List.mem_filter, Prod.mk.injEq]
    constructor
    · rintro ⟨_, hoffers, rfl, rfl⟩
      exact ⟨rfl, hoffers⟩
    · rintro ⟨rfl, hoffers⟩
      exact ⟨o, hoffers, rfl, rfl⟩
  · simp [Offers, and_assoc]

namespace LookedUp

variable {s t : Progress Notes} {changed : Bool}

theorem advances (h : LookedUp ctx op kind s changed t) : Advances s t := by
  have hresults : s.notes.solution.results.Within t.notes.solution.results :=
    fun key o hholds => (h.results_iff key o).mpr (.inr hholds)
  refine ⟨h.graph_eq ▸ refl_of Enriches _, ?_⟩
  rw [h.notes_eq]
  exact { refl_of Notes.Grows s.notes with results := hresults }

theorem sound (h : LookedUp ctx op kind s changed t) (hs : s.Sound)
    (hop : s.graph.isOp op) : t.Sound := by
  have hresults : Between s.graph t.notes.solution.results := by
    intro key o hholds
    rcases (h.results_iff key o).mp hholds with ⟨rfl, hoffers, _⟩ | hold
    · exact ⟨hop, hasObject_of_mem_foundBy hs.wellFormed hs.fits hoffers⟩
    · exact hs.fits.results key o hold
  have hproducers : ∀ key o, t.notes.solution.results.holds key o ↔
      t.notes.solution.viewProducers.holds o key := by
    intro key o
    rw [h.results_iff, h.producers_iff, hs.fits.producers key o]
  have hfits : t.notes.Fits s.graph := by
    rw [h.notes_eq]
    exact { hs.fits with results := hresults, producers := hproducers }
  exact ⟨h.graph_eq ▸ hs.wellFormed, h.graph_eq ▸ hfits⟩

/-- The look-up itself changes nothing of what it finds. -/
theorem offers_iff (h : LookedUp ctx op kind s changed t) {o : NodeId} :
    Offers ctx op kind t o ↔ Offers ctx op kind s o := by
  have hfound : foundBy ctx t.graph t.notes.solution op kind =
      foundBy ctx s.graph s.notes.solution op kind := by
    rw [h.graph_eq, h.notes_eq]
    cases kind <;> rfl
  unfold Offers
  rw [hfound, h.graph_eq]

theorem given (h : LookedUp ctx op kind s changed t) : Given ctx op kind t := by
  intro o hoffers
  have hoffers := h.offers_iff.mp hoffers
  exact ⟨(h.results_iff op o).mpr (.inl ⟨rfl, hoffers⟩),
    (h.producers_iff o op).mpr (.inl ⟨rfl, hoffers⟩)⟩

theorem still (h : LookedUp ctx op kind s changed t) (hgiven : Given ctx op kind s) :
    Still s t := by
  have hresults : s.notes.solution.results.Same t.notes.solution.results := by
    intro key o
    rw [h.results_iff]
    refine ⟨.inr, fun hor => hor.elim ?_ id⟩
    rintro ⟨rfl, hoffers⟩
    exact (hgiven o hoffers).1
  have hproducers : s.notes.solution.viewProducers.Same t.notes.solution.viewProducers := by
    intro o key
    rw [h.producers_iff]
    refine ⟨.inr, fun hor => hor.elim ?_ id⟩
    rintro ⟨rfl, hoffers⟩
    exact (hgiven o hoffers).2
  refine ⟨h.graph_eq, by rw [h.notes_eq], h.advances.2, ?_⟩
  rw [h.notes_eq]
  exact { Solution.Same.refl s.notes.solution with
    results := hresults, viewProducers := hproducers }

theorem given_before (h : LookedUp ctx op kind s changed t) (hs : s.Sound)
    (hchanged : changed = false) : Given ctx op kind s := by
  intro o hoffers
  have hresult : s.notes.solution.results.holds op o := by
    by_contra hnew
    rw [h.changed_iff.mpr ⟨o, hoffers, hnew⟩] at hchanged
    exact absurd hchanged nofun
  exact ⟨hresult, (hs.fits.producers op o).mp hresult⟩

end LookedUp

theorem rests_resolveFind {s : Progress Notes} (hgiven : Given ctx op kind s) :
    Rests (resolveFind ctx op kind) s := by
  have houtcome : (resolveFind ctx op kind).outcome s = (.ok _, _) := rfl
  have h := (runs_resolveFind ctx op kind s).gives _ _ houtcome
  have hchanged := Bool.eq_false_iff.mpr fun hchanged => by
    obtain ⟨o, hoffers, hnew⟩ := h.changed_iff.mp hchanged
    exact hnew (hgiven o hoffers).1
  exact ⟨_, hchanged ▸ houtcome, h.still hgiven⟩

end WidgetFlow.Solving
