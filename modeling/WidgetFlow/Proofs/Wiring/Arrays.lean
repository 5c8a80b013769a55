import WidgetFlow.Proofs.Outcome
import WidgetFlow.Proofs.Wiring.Stages

/-!
# Elements of arrays

When the program has been read, the accesses to arrays that have been noted are exactly those that
its statements make (`Recorded`, `Noticed`). What is written to an array then flows to all that is
read from it (`gives_wireArray`). The edges that are made for this are the only new ones that start
at old nodes, as making the node of a value gives edges to nothing but new nodes
(`sprouts_valueNode?`).

The arrays are gone through one after the other, and the edges for one of them may let another one
flow further. So an edge is there for all accesses that the graph showed before (`Context.Hands`),
and each new edge is there for accesses that the graph shows in the end.
-/

namespace WidgetFlow

open Analysis FlowGraph

variable {n : NodeId} {g : FlowGraph}

namespace FlowGraph

variable {g old middle new base : FlowGraph} {n src dst s : NodeId}

/-- What a node flows to it flows to in a larger graph. -/
theorem Extends.mem_forwardReachable (h : Extends old new) (hold : old.WellFormed)
    (hmem : dst ∈ old.forwardReachable s) : dst ∈ new.forwardReachable s := by
  rw [FlowGraph.mem_forwardReachable] at hmem ⊢
  refine Relation.ReflTransGen.mono (fun src dst hstep => ?_) _ _ hmem
  rw [FlowsTo, h.isOp_eq (hold.lt_size_of_hasEdge hstep.2).1]
  exact ⟨hstep.1, h.hasEdge hstep.2⟩

/-! ## Edges of new nodes -/

theorem sprouts_share (kind : NodeKind) : Sprouts g (share kind g).2 :=
  ⟨extends_share kind, fun _ hedge => .inl (share_edges kind ▸ hedge), share_bindings kind⟩

theorem Sprouts.sow (h : Sprouts old middle) (hsows : Sows n middle new)
    (hnode : old.nodes.size ≤ n) : Sprouts old new := by
  refine ⟨h.toExtends.trans hsows.toExtends, fun edge hedge => ?_,
    hsows.bindings_eq.trans h.bindings_eq⟩
  rcases hsows.edges_from edge hedge with hmiddle | rfl | hsource
  · exact h.fresh edge hmiddle
  · exact .inr hnode
  · exact .inr (Nat.le_trans h.size_le hsource)

end FlowGraph

namespace Wiring

variable {ctx : Context} {permit : Permit} {s : Progress Notes} {site : StmtId} {owner : String}

instance : IsPreorder Notes fun _ _ => True where
  refl _ := trivial
  trans _ _ _ _ _ := trivial

theorem keeps_wireDialogLifecycle {dialog : NodeId} :
    Keeps (Evolves (Sows dialog) fun _ _ => True) (wireDialogLifecycle ctx dialog owner) := by
  refine .forM fun subsig _ => ?_
  split
  · refine keeps_sown_varNode?.bind fun this => keeps_sown_connect?.bind fun _ => ?_
    exact .modifyNotes fun _ => trivial
  · exact .pure _

theorem sown_wireOwnContextMenu {alloc : NodeId} :
    (wireOwnContextMenu ctx alloc owner).Gives s fun _ t =>
      Sows alloc s.graph t.graph := by
  unfold wireOwnContextMenu
  extract_lets subsig
  split
  · exact gives_throw.mpr trivial
  · exact gives_pure.mpr (refl_of (Sows alloc) _)
  · suffices hkeeps : Keeps (Evolves (Sows alloc) fun _ _ => True) (_ : Wiring Unit) from
      (hkeeps s).gives.weaken fun _ _ ht => ht.1
    refine keeps_sown_varNode?.bind fun this => keeps_sown_varNode?.bind fun formal => ?_
    split
    · refine Keeps.bind (.modifyGraph fun _ => sows_addEdge _ _ (.inl rfl)) fun _ => ?_
      exact .modifyGraph fun _ => sows_contextMenuNode ..
    · exact .pure _

theorem sprouts_obtain {kind : NodeKind} :
    (onGraph (obtain kind) : Wiring NodeId).Gives s fun _ t =>
      Sprouts s.graph t.graph :=
  gives_onGraph.mpr (sprouts_share kind)

theorem sprouts_dialogAt :
    (dialogAt ctx owner site).Gives s fun _ t => Sprouts s.graph t.graph := by
  have hshare : Sprouts s.graph (share (.dialog owner site true) s.graph).2 :=
    sprouts_share _
  unfold dialogAt dialogNode
  rw [gives_bind, gives_onGraph]
  rcases s.graph.share_cases (.dialog owner site true) with ⟨_, _, _, _, h⟩ | h <;>
    rw [h] at hshare ⊢ <;> dsimp only
  · exact gives_pure.mpr hshare
  · rw [if_pos rfl, gives_bind]
    refine (keeps_wireDialogLifecycle _).gives.weaken fun _ t hsows => ?_
    exact gives_pure.mpr (hshare.sow hsows.1 (Nat.le_refl _))

theorem sprouts_newNode :
    (newNode ctx site owner).Gives s fun _ t => Sprouts s.graph t.graph := by
  unfold newNode
  split
  · exact sprouts_dialogAt
  split
  · exact sprouts_obtain
  rw [gives_bind, gives_getGraph]
  split
  next => exact gives_pure.mpr (refl_of Sprouts _)
  next hfind =>
    extract_lets role
    have hshare : Sprouts s.graph (share (.alloc (.ref owner) site role) s.graph).2 :=
      sprouts_share _
    have hnew : (share (.alloc (.ref owner) site role) s.graph).1.1 = s.graph.nodes.size := by
      rcases s.graph.share_cases (.alloc (.ref owner) site role) with
        ⟨_, _, hkey, hfound, _⟩ | h
      · cases hkey
        exact absurd (hfind.symm.trans hfound) nofun
      · rw [h]
    unfold allocNode obtain
    rw [gives_bind, gives_onGraph]
    dsimp only
    rw [hnew]
    split
    · rw [gives_bind]
      refine sown_wireOwnContextMenu.weaken fun _ t hsows => ?_
      exact gives_pure.mpr (hshare.sow hsows (Nat.le_refl _))
    · exact gives_pure.mpr hshare

/-- The node of a value gives edges to nothing but new nodes. -/
theorem sprouts_valueNode? {v : Value} :
    (valueNode? ctx site v).Gives s fun _ t => Sprouts s.graph t.graph := by
  fun_induction valueNode? ctx site v with
  | case1 | case2 | case3 | case5 | case7 => exact gives_map.mpr sprouts_obtain
  | case4 v =>
    unfold resourceNode?
    split
    · exact gives_map.mpr sprouts_obtain
    · exact gives_pure.mpr (refl_of Sprouts _)
  | case6 owner => exact gives_map.mpr sprouts_newNode
  | case8 _ operand ih => exact ih
  | case9 => exact gives_pure.mpr (refl_of Sprouts _)

theorem sprouts_definedNode? :
    (definedNode? ctx site).Gives s fun _ t => Sprouts s.graph t.graph := by
  unfold definedNode? Context.varNode?
  split
  · exact gives_map.mpr sprouts_obtain
  · exact gives_pure.mpr (refl_of Sprouts _)

/-! ## Accesses that are noted -/

variable {base name : String} {index v dst : Value} {old new : FlowGraph × Notes}

/-- Every access to an array that is noted is one that a statement of the application makes, through
the local that it is noted for. -/
structure Recorded (ctx : Context) (st : FlowGraph × Notes) : Prop where
  writes : ∀ var site, st.2.arrayWrites.holds var site →
    ∃ base index v, ctx.WritesArray site base index v ∧
      st.1.find? (.var (.named site.method base)) = some var
  reads : ∀ var site, st.2.arrayReads.holds var site →
    ∃ dst base index, ctx.ReadsArray site dst base index ∧
      st.1.find? (.var (.named site.method base)) = some var

theorem Recorded.empty (ctx : Context) : Recorded ctx ({}, {}) where
  writes _ _ h := absurd h (by simp)
  reads _ _ h := absurd h (by simp)

/-- A graph that grows still finds the locals. -/
theorem Recorded.grow (h : Recorded ctx old) (hg : Extends old.1 new.1)
    (hwrites : new.2.arrayWrites = old.2.arrayWrites)
    (hreads : new.2.arrayReads = old.2.arrayReads) : Recorded ctx new where
  writes var site hnoted := by
    obtain ⟨base, index, v, hwrite, hfind⟩ := h.writes var site (hwrites ▸ hnoted)
    exact ⟨base, index, v, hwrite, hg.find?_eq hfind⟩
  reads var site hnoted := by
    obtain ⟨dst, base, index, hread, hfind⟩ := h.reads var site (hreads ▸ hnoted)
    exact ⟨dst, base, index, hread, hg.find?_eq hfind⟩

theorem find?_of_varNode {var : Var} {ty : Option Ty} {g' : FlowGraph}
    (h : varNode var ty g = (n, g')) : g'.find? (.var var) = some n := by
  have hfind : (varNode var ty g).2.find? (.var var) = some (varNode var ty g).1 :=
    find?_share _ rfl
  rwa [h] at hfind

theorem Step.keeps_recorded (h : Step ctx permit old new) (hg : Extends old.1 new.1)
    (hold : Recorded ctx old) : Recorded ctx new := by
  cases h with
  | @write site base index v hwrite g g' var hvar ns =>
    have hkept : Recorded ctx (g', ns) := hold.grow hg rfl rfl
    exact ⟨Relation.forall_add ⟨base, index, v, hwrite, find?_of_varNode hvar⟩ hkept.writes,
      hkept.reads⟩
  | @read site base dst index hread g g' var hvar ns =>
    have hkept : Recorded ctx (g', ns) := hold.grow hg rfl rfl
    exact ⟨hkept.writes,
      Relation.forall_add ⟨dst, base, index, hread, find?_of_varNode hvar⟩ hkept.reads⟩
  | note h | shown _ h => exact hold.grow hg h.arrayWrites h.arrayReads
  | _ => exact hold.grow hg rfl rfl

theorem Steps.keeps_recorded {old new : Progress Notes} (h : Steps ctx permit old new)
    (hframed : old.Framed) (hold : Recorded ctx (old.graph, old.notes)) :
    Recorded ctx (new.graph, new.notes) :=
  h.keeps (Recorded ctx) (fun hold hstep => hstep.keeps_recorded (hstep.framed hold).1) hframed hold

theorem Step.holds_arrays (h : Step ctx permit old new) (var : NodeId) (site : StmtId) :
    (old.2.arrayWrites.holds var site → new.2.arrayWrites.holds var site) ∧
      (old.2.arrayReads.holds var site → new.2.arrayReads.holds var site) := by
  cases h with
  | write => exact ⟨fun hold => Relation.holds_add.mpr (.inr hold), id⟩
  | read => exact ⟨id, fun hold => Relation.holds_add.mpr (.inr hold)⟩
  | note h | shown _ h => exact ⟨fun hold => h.arrayWrites ▸ hold, fun hold => h.arrayReads ▸ hold⟩
  | _ => exact ⟨id, id⟩

/-- An access to an array is noted for the node of a local. -/
def NotedIn (noted : Notes → Relation NodeId StmtId) (site : StmtId) (base : String)
    (st : FlowGraph × Notes) : Prop :=
  ∃ var, st.1.find? (.var (.named site.method base)) = some var ∧ (noted st.2).holds var site

theorem lasts_notedIn {noted : Notes → Relation NodeId StmtId}
    (h : ∀ {old new}, Step ctx .all old new → ∀ var site,
      (noted old.2).holds var site → (noted new.2).holds var site) :
    Lasts ctx fun st => NotedIn noted site base (st.graph, st.notes) :=
  fun _ _ hframed hsteps => hsteps.keeps (NotedIn noted site base)
    (fun hold hstep ⟨var, hfind, hnoted⟩ => ⟨var, (hstep.framed hold).1.find?_eq hfind,
      h hstep var site hnoted⟩) hframed

theorem lasts_notedWrite : Lasts ctx fun st =>
    NotedIn Notes.arrayWrites site base (st.graph, st.notes) :=
  lasts_notedIn fun hstep var site => (hstep.holds_arrays var site).1

theorem lasts_notedRead : Lasts ctx fun st =>
    NotedIn Notes.arrayReads site base (st.graph, st.notes) :=
  lasts_notedIn fun hstep var site => (hstep.holds_arrays var site).2

/-- Every access to an array that a statement of the application makes is noted. -/
structure Noticed (ctx : Context) (st : FlowGraph × Notes) : Prop where
  writes : ∀ {site base index v}, ctx.WritesArray site base index v →
    NotedIn Notes.arrayWrites site base st
  reads : ∀ {site dst base index}, ctx.ReadsArray site dst base index →
    NotedIn Notes.arrayReads site base st

theorem lasts_noticed (ctx : Context) :
    Lasts ctx fun st => Noticed ctx (st.graph, st.notes) := fun _ _ hframed hsteps hold =>
  ⟨fun hwrite => lasts_notedWrite _ _ hframed hsteps (hold.writes hwrite),
    fun hread => lasts_notedRead _ _ hframed hsteps (hold.reads hread)⟩

theorem brings_wireStmt_write (h : ctx.WritesArray site base index v) :
    Brings (fun st => NotedIn Notes.arrayWrites site base (st.graph, st.notes))
      (wireStmt ctx site (.assign (.element base index) v)) := by
  have hwires : Wires ctx (wireStmt ctx site (.assign (.element base index) v)) := fun _ =>
    builds_wireStmt h.method_mem h.stmt_eq (.inr trivial)
  refine .of_gives hwires fun s => ?_
  unfold wireStmt
  simp only [h.no_call]
  unfold wireAssign
  simp only [h.carriesFlow, Bool.not_true, Bool.false_eq_true, if_false]
  unfold Context.varNode
  rw [gives_bind, gives_onGraph, gives_modifyNotes]
  exact ⟨_, find?_share _ rfl, Relation.holds_add.mpr (.inl ⟨rfl, rfl⟩)⟩

theorem brings_wireStmt_read (h : ctx.ReadsArray site dst base index) :
    Brings (fun st => NotedIn Notes.arrayReads site base (st.graph, st.notes))
      (wireStmt ctx site (.assign dst (.element base index))) := by
  have hwires : Wires ctx (wireStmt ctx site (.assign dst (.element base index))) := fun _ =>
    builds_wireStmt h.method_mem h.stmt_eq (.inr trivial)
  refine .of_gives hwires fun s => ?_
  unfold wireStmt
  simp only [Stmt.call?]
  unfold wireAssign
  simp only [h.carriesFlow, Bool.not_true, Bool.false_eq_true, if_false]
  split
  next => exact absurd rfl (h.no_write _ _)
  next heq =>
    cases heq
    unfold Context.varNode
    rw [gives_bind, gives_onGraph, gives_modifyNotes]
    exact ⟨_, find?_share _ rfl, Relation.holds_add.mpr (.inl ⟨rfl, rfl⟩)⟩
  next hread => exact absurd rfl (hread base index)

end Wiring

namespace Context

open Wiring

variable {ctx : Context} {wired : Progress Notes}

theorem Passes.keeps_recorded (h : ctx.Passes wired) :
    Recorded ctx (ctx.recorded.graph, ctx.recorded.notes) := by
  have hwires : Wires ctx (readProgram ctx) := fun _ => builds_readProgram (.inr trivial)
  exact (hwires.gives_steps (framed_start _) _ _ h.read).2.keeps_recorded (framed_start _) (.empty ctx)

theorem Passes.noticed (h : ctx.Passes wired) :
    Noticed ctx (ctx.recorded.graph, ctx.recorded.notes) where
  writes {site base _ _} hwrite :=
    h.of_stmt (fun st => NotedIn Notes.arrayWrites site base (st.graph, st.notes))
      hwrite.method_mem hwrite.stmt_eq lasts_notedWrite (brings_wireStmt_write hwrite)
  reads {site _ base _} hread :=
    h.of_stmt (fun st => NotedIn Notes.arrayReads site base (st.graph, st.notes))
      hread.method_mem hread.stmt_eq lasts_notedRead (brings_wireStmt_read hread)

end Context

/-! ## Writes and reads that meet -/

namespace Context

variable {ctx : Context} {old new : FlowGraph} {array : NodeId} {src dst : NodeKey}

/-- One statement writes a value to an array and another one reads an element of it into a local:
the array flows to the locals through which they access it. -/
inductive Hands (ctx : Context) (g : FlowGraph) (array : NodeId) : NodeKey → NodeKey → Prop
  | intro {write read : StmtId} {base base' name : String} {index index' v : Value}
      {key : NodeKey} {first second : NodeId} (hwrite : ctx.WritesArray write base index v)
      (hread : ctx.ReadsArray read (.var name) base' index')
      (hfirst : g.find? (.var (.named write.method base)) = some first)
      (hsecond : g.find? (.var (.named read.method base')) = some second)
      (hflows : first ∈ g.forwardReachable array)
      (hflows' : second ∈ g.forwardReachable array)
      (hkey : ctx.valueKey? write v = some key) :
      Hands ctx g array key (.var (.named read.method name))

theorem Hands.mono (hold : old.WellFormed) (hg : Extends old new)
    (h : ctx.Hands old array src dst) : ctx.Hands new array src dst := by
  cases h with
  | intro hwrite hread hfirst hsecond hflows hflows' hkey =>
    exact .intro hwrite hread (hg.find?_eq hfirst) (hg.find?_eq hsecond)
      (hg.mem_forwardReachable hold hflows) (hg.mem_forwardReachable hold hflows') hkey

end Context

namespace Wiring

variable {ctx : Context} {s : Progress Notes} {array : NodeId} {src dst : NodeKey}

theorem mem_accesses {noted : Relation NodeId StmtId} {vars : List NodeId} {site : StmtId} :
    site ∈ accesses noted vars ↔ ∃ var ∈ vars, noted.holds var site := by
  simp [accesses]

theorem mem_arrayVars {var : NodeId} :
    var ∈ (g.forwardReachable array).toList.filter (fun id => (g.kind id).isVar) ↔
      var ∈ g.forwardReachable array ∧ (g.kind var).isVar := by
  rw [List.mem_filter]
  simp

theorem isVar_of_find? {var : Var}
    (h : g.find? (.var var) = some n) : (g.kind n).isVar := by
  have hkey := (find?_some h).2
  cases hkind : g.kind n <;> rw [hkind] at hkey <;> simp_all [NodeKind.key?, NodeKind.isVar]

/-- What is written to an array flows to what is read from it. -/
theorem gives_wireArray (hs : s.Framed) (hnoticed : Noticed ctx (s.graph, s.notes))
    (hflat : isFlatArray (s.graph.kind array))
    (hhands : ctx.Hands s.graph array src dst) :
    (wireArray ctx array).Gives s fun _ t => t.graph.Connects src dst := by
  obtain ⟨hwrite, hread, hfirst, hsecond, hflows, hflows', hkey⟩ := hhands
  rename_i write read base base' name index index' v first second
  obtain ⟨_, hfound, hwritten⟩ := hnoticed.writes hwrite
  cases hfound.symm.trans hfirst
  obtain ⟨_, hfound, hnoted⟩ := hnoticed.reads hread
  cases hfound.symm.trans hsecond
  have hdefined : (ctx.scene.stmt? read).bind Stmt.definedVar? = some name := by
    rw [hread.stmt_eq]
    rfl
  unfold wireArray
  rw [gives_bind, gives_getGraph, hflat, if_neg (by simp), gives_bind, gives_getNotes]
  extract_lets vars reads
  have hwrite_mem : write ∈ accesses s.notes.arrayWrites vars :=
    mem_accesses.mpr ⟨first, mem_arrayVars.mpr ⟨hflows, isVar_of_find? hfirst⟩, hwritten⟩
  have hread_mem : read ∈ reads :=
    mem_accesses.mpr ⟨second, mem_arrayVars.mpr ⟨hflows', isVar_of_find? hsecond⟩, hnoted⟩
  have hbuilds : Ensures (Stepping ctx .all s) s.graph _ _ :=
    builds_connectAccesses (accesses s.notes.arrayWrites vars) reads
  refine (gives_framed hbuilds hs).weaken fun _ _ ht => ?_
  exact ht.2.2 write hwrite_mem _ v _ hwrite.stmt_eq hkey read hread_mem name hdefined

/-! ## Edges that are explained -/

variable {base g : FlowGraph} {hands : NodeKey → NodeKey → Prop}

/-- From the nodes of a smaller graph there are only its edges and those between nodes whose keys
are related. -/
def Explained (base : FlowGraph) (hands : NodeKey → NodeKey → Prop) (g : FlowGraph) : Prop :=
  Extends base g ∧ ∀ src dst, src < base.nodes.size → g.hasEdge src dst →
    base.hasEdge src dst ∨ ∃ key key', hands key key' ∧ g.find? key = some src ∧
      g.find? key' = some dst

namespace Explained

theorem refl (base : FlowGraph) (hands : NodeKey → NodeKey → Prop) : Explained base hands base :=
  ⟨.refl base, fun _ _ _ hedge => .inl hedge⟩

theorem weaken {hands' : NodeKey → NodeKey → Prop} (h : Explained base hands g)
    (hweaken : ∀ key key', hands key key' → hands' key key') : Explained base hands' g := by
  refine ⟨h.1, fun src dst hsource hedge => (h.2 src dst hsource hedge).imp_right ?_⟩
  rintro ⟨key, key', hhands, hfind⟩
  exact ⟨key, key', hweaken key key' hhands, hfind⟩

/-- Related keys find the same nodes in a larger graph, and edges of new nodes need no reason. -/
theorem sprout {old new : FlowGraph} (h : Explained base hands old) (hsprouts : Sprouts old new) :
    Explained base hands new := by
  refine ⟨h.1.trans hsprouts.toExtends, fun src dst hsource hedge => ?_⟩
  have hedge := (hsprouts.hasEdge_iff (Nat.lt_of_lt_of_le hsource h.1.size_le)).mp hedge
  refine (h.2 src dst hsource hedge).imp_right ?_
  rintro ⟨key, key', hhands, hfirst, hsecond⟩
  exact ⟨key, key', hhands, hsprouts.find?_eq hfirst, hsprouts.find?_eq hsecond⟩

theorem addEdge (h : Explained base hands g) {src dst : NodeId} {key key' : NodeKey}
    (site : Option StmtId) (hhands : hands key key') (hsource : g.find? key = some src)
    (htarget : g.find? key' = some dst) :
    Explained base hands (g.addEdge src dst site).2 := by
  have hg : Extends g (g.addEdge src dst site).2 := extends_addEdge ..
  refine ⟨h.1.trans hg, fun src' dst' hsource' hedge => ?_⟩
  obtain ⟨edge, hmem, rfl, rfl⟩ := hasEdge_iff.mp hedge
  rcases mem_edges_addEdge.mp hmem with hold | ⟨_, rfl⟩
  · refine (h.2 _ _ hsource' (hasEdge_iff.mpr ⟨edge, hold, rfl, rfl⟩)).imp_right ?_
    rintro ⟨first, second, hhands, hfirst, hsecond⟩
    exact ⟨first, second, hhands, hg.find?_eq hfirst, hg.find?_eq hsecond⟩
  · exact .inr ⟨key, key', hhands, hg.find?_eq hsource, hg.find?_eq htarget⟩

end Explained

/-- A value that has been written gets an edge to what is read. -/
theorem explained_connectRead {read : StmtId} {written : NodeId} (hs : s.Framed)
    (h : Explained base hands s.graph) (hwritten : s.graph.find? src = some written)
    (hhands : ∀ name, (ctx.scene.stmt? read).bind Stmt.definedVar? = some name →
      hands src (.var (.named read.method name))) :
    (do connect? written (← definedNode? ctx read) none : Wiring Unit).Gives s fun _ t =>
      Explained base hands t.graph := by
  have hdefined : Ensures (Stepping ctx .all s) s.graph (definedNode? ctx read) _ :=
    locates_definedNode?
  refine gives_bind.mpr ((sprouts_definedNode?.and (gives_framed hdefined hs)).weaken ?_)
  rintro defined middle ⟨hsprouts, _, _, hlocated⟩
  have hmiddle := h.sprout hsprouts
  rcases hlocated.eq_or_exists with ⟨_, rfl⟩ | ⟨_, n, hkey, rfl, hfind⟩
  · exact gives_modifyGraph.mpr hmiddle
  · obtain ⟨name, hname, rfl⟩ := Option.map_eq_some_iff.mp hkey
    exact gives_modifyGraph.mpr
      (hmiddle.addEdge none (hhands name hname) (hsprouts.find?_eq hwritten) hfind)

/-- An array gives old nodes no edges but those of writes and reads that meet. -/
theorem explained_wireArray (hs : s.Framed)
    (hrecorded : Recorded ctx (s.graph, s.notes)) (h : Explained base hands s.graph)
    (hhands : isFlatArray (s.graph.kind array) →
      ∀ key key', ctx.Hands s.graph array key key' → hands key key') :
    (wireArray ctx array).Gives s fun _ t => Explained base hands t.graph := by
  unfold wireArray
  rw [gives_bind, gives_getGraph]
  split
  next => exact gives_pure.mpr h
  next hflat =>
    rw [Bool.not_eq_true', Bool.not_eq_false] at hflat
    rw [gives_bind, gives_getNotes]
    extract_lets vars reads
    suffices hwrites : Gives _ s fun _ t =>
        t.Framed ∧ Explained base hands t.graph from hwrites.weaken fun _ _ => And.right
    refine gives_forM ⟨hs, h⟩ fun st hstate write hwrite => ?_
    obtain ⟨first, hfirst, hnoted⟩ := mem_accesses.mp hwrite
    obtain ⟨base, index, v, hwrites, hfind⟩ := hrecorded.writes first write hnoted
    simp only [hwrites.stmt_eq]
    have hvalue : Ensures (Stepping ctx .all st) st.graph _ _ :=
      locates_valueNode? (Context.Places.of_assign hwrites.stmt_eq).2
    refine gives_bind.mpr ((sprouts_valueNode?.and (gives_framed hvalue hstate.1)).weaken ?_)
    rintro written middle ⟨hsprouts, hframed, _, hlocated⟩
    have hmiddle := hstate.2.sprout hsprouts
    rcases hlocated.eq_or_exists with ⟨hkey, rfl⟩ | ⟨key, n, hkey, rfl, hnode⟩
    · exact gives_pure.mpr ⟨hframed, hmiddle⟩
    · suffices hreads : Gives _ middle fun _ t => (t.Framed ∧
          Explained _ hands t.graph) ∧ Extends middle.graph t.graph from
        hreads.weaken fun _ _ => And.left
      refine gives_forM ⟨⟨hframed, hmiddle⟩, .refl _⟩ fun st hstate read hread => ?_
      obtain ⟨second, hsecond, hnoted'⟩ := mem_accesses.mp hread
      obtain ⟨dst, base', index', hreads, hfind'⟩ := hrecorded.reads second read hnoted'
      have hnode := hstate.2.find?_eq hnode
      have hbuilds : Ensures (Stepping ctx .all st) st.graph
          (do connect? n (← definedNode? ctx read) none) _ := builds_connectRead hnode
      refine ((gives_framed hbuilds hstate.1.1).and (explained_connectRead hstate.1.1 hstate.1.2
        hnode fun name hname => ?_)).weaken fun _ _ ht =>
          ⟨⟨ht.1.1, ht.2⟩, hstate.2.trans ht.1.2.1⟩
      have htarget : dst = .var name := by
        rw [hreads.stmt_eq] at hname
        cases dst <;> simp_all [Stmt.definedVar?]
      subst htarget
      exact hhands hflat _ _ (.intro hwrites hreads hfind hfind' (mem_arrayVars.mp hfirst).1
        (mem_arrayVars.mp hsecond).1 hkey)

theorem isFlatArray_core (kind : NodeKind) : isFlatArray kind.core = isFlatArray kind := by
  cases kind <;> rfl

theorem lt_size_of_mem_allocs (h : array ∈ g.allocs) : array < g.nodes.size := by
  obtain ⟨_, _, _, hkind⟩ := mem_allocs.mp h
  exact lt_size_of_isObject (by rw [hkind]; rfl)

theorem mem_allocs_of_isFlatArray (h : isFlatArray (g.kind array)) : array ∈ g.allocs := by
  rw [mem_allocs]
  cases hkind : g.kind array <;> rw [hkind] at h <;> first | cases h | exact ⟨_, _, _, rfl⟩

theorem wires_wireArray : Wires ctx (wireArray ctx array) := fun _ => builds_wireArray

/-- What is written to arrays flows to what is read from them. -/
theorem gives_wireArrays (hs : s.Framed) (hnoticed : Noticed ctx (s.graph, s.notes))
    (hflat : isFlatArray (s.graph.kind array))
    (hhands : ctx.Hands s.graph array src dst) :
    (wireArrays ctx).Gives s fun _ t => t.graph.Connects src dst := by
  have hmem := mem_allocs_of_isFlatArray hflat
  have hsize : array < s.graph.nodes.size := lt_size_of_mem_allocs hmem
  unfold wireArrays
  rw [gives_bind, gives_getGraph]
  refine (gives_forM_of_mem (fun st => Extends s.graph st.graph ∧ st.Framed ∧
    Noticed ctx (st.graph, st.notes)) hmem ⟨.refl _, hs, hnoticed⟩
    (fun st hstate other _ => ?_) fun st hstate => ?_).weaken fun _ _ => And.right
  · refine (wires_wireArray.gives_steps hstate.2.1).weaken fun _ t ht => ?_
    have hg := (ht.2.grows hstate.2.1).1
    exact ⟨⟨hstate.1.trans hg, ht.1,
      lasts_noticed ctx _ _ hstate.2.1 ht.2 hstate.2.2⟩, Connects.mono hg⟩
  · refine gives_wireArray hstate.2.1 hstate.2.2 ?_ (hhands.mono hs.wellFormed hstate.1)
    rw [hstate.1.keeps isFlatArray isFlatArray_core hsize]
    exact hflat

/-- Arrays give old nodes no edges but those of writes and reads that meet. -/
theorem explained_wireArrays (hs : s.Framed)
    (hrecorded : Recorded ctx (s.graph, s.notes)) :
    (wireArrays ctx).Gives s fun _ t =>
      Explained s.graph (fun key key' => ∃ array, isFlatArray (s.graph.kind array) ∧
        ctx.Hands t.graph array key key') t.graph := by
  unfold wireArrays
  rw [gives_bind, gives_getGraph]
  suffices hloop : (s.graph.allocs.forM (wireArray ctx)).Gives s fun _ t =>
      (t.Framed ∧ Recorded ctx (t.graph, t.notes)) ∧
        Explained s.graph (fun key key' => ∃ array, isFlatArray (s.graph.kind array) ∧
          ctx.Hands t.graph array key key') t.graph from
    hloop.weaken fun _ _ => And.right
  refine gives_forM ⟨⟨hs, hrecorded⟩, .refl _ _⟩ fun st hstate array harray => ?_
  obtain ⟨⟨hframed, hrecorded⟩, hexplained⟩ := hstate
  have hkept := hexplained.1.keeps isFlatArray isFlatArray_core (lt_size_of_mem_allocs harray)
  have hround := explained_wireArray hframed hrecorded hexplained fun hflat key key' hhands =>
    ⟨array, hkept ▸ hflat, hhands⟩
  refine ((wires_wireArray.gives_steps hframed).and hround).weaken ?_
  rintro _ t ⟨⟨ht, hsteps⟩, hexplained⟩
  refine ⟨⟨ht, hsteps.keeps_recorded hframed hrecorded⟩, hexplained.weaken ?_⟩
  rintro key key' ⟨array, hflat, hhands⟩
  exact ⟨array, hflat, hhands.mono hframed.wellFormed (hsteps.grows hframed).1⟩

end Wiring

/-! ## A sample program -/

namespace Sample

/-- A view is put into an array and taken out again. -/
def shelfScene : Scene where
  classes := [{ name := "app.Shelf" }]
  methods := #[{
    sig := {
      owner := "app.Shelf"
      result := .void
      name := "run"
      params := [] }
    locals := .ofList [("s", .array view), ("u", view), ("v", view), ("w", view)]
    body := [
      .assign (.var "s") (.newArray view (.int 2)),
      .assign (.var "v") (.var "u"),
      .assign (.element "s" (.int 0)) (.var "v"),
      .assign (.var "w") (.element "s" (.int 1))] }]

def shelf : Context where
  scene := shelfScene
  hierarchy := {
    classes := Hierarchy.enter {} (shelfScene.classes.map (.ofDecl shelfScene))
    application := ["app.Shelf"] }
  resources := { sys := {}, sysLayouts := {} }

/-- What the graphs of the shelf show before and after its arrays are wired. Node 1 is the array, 0
the local for it, and 2 and 4 are the locals for the view. -/
def Shelved (recorded walked : FlowGraph) : Prop :=
  (Wiring.isFlatArray (recorded.kind 1) ∧ recorded.find? (.var (.named 0 "s")) = some 0 ∧
    0 ∈ recorded.forwardReachable 1) ∧
  2 < recorded.nodes.size ∧ walked.hasEdge 2 4 ∧ recorded.hasEdge 2 4 = false

instance (recorded walked : FlowGraph) : Decidable (Shelved recorded walked) :=
  inferInstanceAs (Decidable (_ ∧ _))

theorem shelf_shelved : Shelved shelf.recorded.graph shelf.walked.graph := by decide +kernel

theorem shelf_writes : shelf.WritesArray { method := 0, index := 2 } "s" (.int 0) (.var "v") where
  method_mem := by decide +kernel
  stmt_eq := rfl
  no_call := rfl
  carriesFlow := by decide +kernel

theorem shelf_reads : shelf.ReadsArray { method := 0, index := 3 } (.var "w") "s" (.int 1) where
  method_mem := by decide +kernel
  stmt_eq := rfl
  no_write := nofun
  carriesFlow := by decide +kernel

end Sample

namespace Context

variable {ctx : Context}

/-- What is written to an array whose elements are no arrays flows to all that is read from it. All
new edges of old nodes come from such accesses. -/
theorem arrays_aliased (h : ctx.wire.1 = .ok ()) :
    (∀ array src dst, Wiring.isFlatArray (ctx.recorded.graph.kind array) →
      ctx.Hands ctx.recorded.graph array src dst → ctx.walked.graph.Connects src dst) ∧
    ∀ src dst, src < ctx.recorded.graph.nodes.size →
      ctx.walked.graph.hasEdge src dst → ctx.recorded.graph.hasEdge src dst = false →
        ∃ array key key', Wiring.isFlatArray (ctx.recorded.graph.kind array) ∧
          ctx.Hands ctx.walked.graph array key key' ∧
            ctx.walked.graph.find? key = some src ∧
              ctx.walked.graph.find? key' = some dst := by
  have hpasses := passes h
  have hframed := hpasses.framed_recorded
  refine ⟨fun array src dst hflat hhands => ?_, fun src dst hsource hedge hnew => ?_⟩
  · exact Wiring.gives_wireArrays hframed hpasses.noticed hflat hhands _ _ hpasses.arrays
  · have hexplained :=
      Wiring.explained_wireArrays hframed hpasses.keeps_recorded _ _ hpasses.arrays
    rcases hexplained.2 src dst hsource hedge with hold | hfresh
    · exact absurd hold (by simp [hnew])
    · obtain ⟨key, key', ⟨array, hflat, hhands⟩, hfirst, hsecond⟩ := hfresh
      exact ⟨array, key, key', hflat, hhands, hfirst, hsecond⟩

/-- In the sample, the view that is put into the array flows to what is taken out, and the edge for
this comes from the array. -/
theorem arrays_aliased_shelf :
    Sample.shelf.wire.1 = .ok () ∧
      Sample.shelf.walked.graph.Connects (.var (.named 0 "v")) (.var (.named 0 "w")) ∧
      ∃ array key key', Wiring.isFlatArray (Sample.shelf.recorded.graph.kind array) ∧
        Sample.shelf.Hands Sample.shelf.walked.graph array key key' ∧
          Sample.shelf.walked.graph.find? key = some 2 ∧
            Sample.shelf.walked.graph.find? key' = some 4 := by
  have hwire : Sample.shelf.wire.1 = .ok () := by decide +kernel
  obtain ⟨⟨hflat, hfind, hflows⟩, hsize, hedge, hnew⟩ := Sample.shelf_shelved
  have haliased := arrays_aliased hwire
  refine ⟨hwire, haliased.1 1 _ _ hflat ?_, haliased.2 2 4 hsize hedge hnew⟩
  exact .intro Sample.shelf_writes Sample.shelf_reads hfind hfind hflows hflows rfl

end Context

end WidgetFlow
