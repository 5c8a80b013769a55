import Mathlib.Data.Finset.Prod
import WidgetFlow.Proofs.Graph.Reach
import WidgetFlow.Proofs.Graph.Stored

/-!
# What a graph records of the requests to it

A `Session` starts with the empty graph and keeps the requests together with the graphs that they
met. `Session.Faithful` says what a flow graph knows of a session: one request keeps it, and so it
holds of every session. The same requests make a stored graph, which represents the flow graph
(`Session.Reached.represents`). `Session.Recorded` is what can be read off the stored graph for this
reason: its tables have one node for each key that was asked for, which stands for what was asked
for first, the operations are listed as they came, there is one edge for each pair and they are
counted, and containment is recorded alike at both ends.
-/

namespace WidgetFlow

/-- The requests to a graph, in order, and the graph after them. -/
structure Session where
  turns : List Turn := []
  graph : FlowGraph := {}

namespace Session

open FlowGraph

variable {session : Session} {request : Request}

def next (session : Session) (request : Request) : Session where
  turns := session.turns ++ [{ before := session.graph, request }]
  graph := (request.run session.graph).2

/-- The sessions from the empty graph in which requests only name nodes that are there. -/
inductive Reached : Session → Prop where
  | start : Reached {}
  | next {session : Session} {request : Request} (h : Reached session)
    (hfits : request.Fits session.graph) : Reached (session.next request)

def first? (session : Session) (key : NodeKey) : Option NodeKind :=
  (session.turns.filterMap Turn.kind?).find? fun kind => kind.key? = some key

/-- What the graph of a session records of its requests. -/
structure Faithful (session : Session) : Prop where
  keyed : session.graph.Keyed
  /-- A key that was asked for has what was first asked for under it, other keys have nothing. -/
  first : ∀ key, session.graph.core? key = session.first? key
  given : ∀ turn ∈ session.turns, ∀ key, turn.key? = some key →
    turn.node? = session.graph.find? key
  ops_eq : session.graph.ops = session.turns.filterMap Turn.op?
  edges_eq : session.graph.edgeEnds = (session.turns.flatMap Turn.pairs).foldl note []
  edges_lt : ∀ pair ∈ session.graph.edgeEnds,
    pair.1 < session.graph.nodes.size ∧ pair.2 < session.graph.nodes.size
  links_eq : session.graph.links.toList =
    (session.turns.flatMap fun turn => turn.request.links).foldl note []

/-- The empty graph records nothing. -/
theorem faithful_start : Faithful {} where
  keyed id hid := by simp at hid
  first key := by simp [core?, find?, first?]
  given turn hturn := by simp at hturn
  ops_eq := rfl
  edges_eq := rfl
  edges_lt pair hpair := by simp [edgeEnds] at hpair
  links_eq := rfl

theorem Faithful.next (h : session.Faithful) (hfits : request.Fits session.graph) :
    (session.next request).Faithful where
  keyed := Request.keyed_run h.keyed
  first key := by
    simp only [Session.next, first?, List.filterMap_append, List.find?_append]
    rw [Request.core?_run, h.first key, first?]
    congr 1
    cases hkind : request.kind? session.graph <;>
      simp [Turn.kind?, hkind, Option.filter]
  given turn hturn key hkey := by
    rcases List.mem_append.mp hturn with hold | hnew
    · obtain ⟨id, hid⟩ := Turn.exists_node? hkey
      have hgiven := h.given turn hold key hkey
      rw [hid] at hgiven ⊢
      exact (Request.find?_run hgiven.symm).symm
    · rw [List.mem_singleton.mp hnew] at hkey ⊢
      exact Request.node?_eq hkey
  ops_eq := by
    simp only [Session.next, List.filterMap_append, Request.ops_run, h.ops_eq]
    cases hop : Turn.op? ⟨session.graph, request⟩ <;> simp [hop]
  edges_eq := by
    simp [Session.next, List.flatMap_append, (Request.run_notes _).1, h.edges_eq, List.foldl_append,
      Turn.pairs]
  edges_lt pair hpair := by
    simp only [Session.next, (Request.run_notes _).1] at hpair
    rcases mem_foldl_note.mp hpair with hold | hnew
    · obtain ⟨hsource, htarget⟩ := h.edges_lt pair hold
      exact ⟨Nat.lt_of_lt_of_le hsource Request.size_le_run,
        Nat.lt_of_lt_of_le htarget Request.size_le_run⟩
    · exact Request.pairs_lt hfits hnew
  links_eq := by
    simp [Session.next, List.flatMap_append, (Request.run_notes _).2, h.links_eq, List.foldl_append]

/-- The graph of every session records its requests. -/
theorem Reached.faithful (h : session.Reached) : session.Faithful := by
  induction h with
  | start => exact faithful_start
  | next _ hfits ih => exact ih.next hfits

/-! ## The stored graph of a session -/

/-- The stored graph after some requests. -/
def stored (turns : List Turn) : StoredGraph :=
  turns.foldl (fun store turn => (turn.request.store store).2) {}

def store (session : Session) : StoredGraph := stored session.turns

theorem stored_append (turns : List Turn) (turn : Turn) :
    stored (turns ++ [turn]) = (turn.request.store (stored turns)).2 := by
  rw [stored, List.foldl_append]
  rfl

/-- The stored graph of a session represents its flow graph. -/
theorem Reached.represents (h : session.Reached) : session.store.Represents session.graph := by
  induction h with
  | start => exact StoredGraph.represents_empty
  | next h hfits ih =>
    unfold store Session.next
    rw [stored_append]
    exact (Request.represents_store ih hfits).2

/-- The stored graph has given the same nodes. -/
theorem Reached.answer_eq (h : session.Reached) {before after : List Turn} {turn : Turn}
    (hturns : session.turns = before ++ turn :: after) :
    (turn.request.store (stored before)).1 = turn.node? := by
  induction h generalizing after with
  | start => simp at hturns
  | @next session request h hfits ih =>
    rcases List.eq_nil_or_concat after with rfl | ⟨rest, last, rfl⟩
    · obtain ⟨hbefore, hturn⟩ := List.append_inj' hturns rfl
      cases hturn
      rw [← hbefore]
      exact (Request.represents_store h.represents hfits).1
    · rw [List.concat_eq_append, ← List.cons_append, ← List.append_assoc] at hturns
      exact ih (List.append_inj' hturns rfl).1

/-- What can be read off the stored graph of a session. -/
structure Recorded (session : Session) : Prop where
  /-- A key that was ever asked for has one node, which is the one that was given and the one that
  the tables have. -/
  one_node : ∀ before turn after, session.turns = before ++ turn :: after →
    ∀ key, turn.key? = some key → ∃ id, (turn.request.store (stored before)).1 = some id ∧
      session.store.find? key = some id ∧ ∀ other,
        other < session.store.nodes.size ∧ (session.store.kind other).key? = some key ↔ other = id
  /-- A shared node stands for what was first asked for under its key. -/
  first_kind : ∀ id < session.store.nodes.size, ∀ key, (session.store.kind id).key? = some key →
    session.first? key = some (session.store.kind id).core
  mem_ops : ∀ id, id ∈ session.store.ops ↔ session.store.isOp id
  /-- The operations are listed in the order in which they were added, … -/
  ops_eq : session.store.ops = session.turns.filterMap Turn.op?
  /-- … which is the order of the nodes, so that none is listed twice. -/
  ops_ascend : session.store.ops.Pairwise (· < ·)
  edges_nodup : (session.store.edges.toList.map fun edge => (edge.source, edge.target)).Nodup
  hasEdge : ∀ src dst, session.store.hasEdge src dst ↔
    ∃ turn ∈ session.turns, (src, dst) ∈ turn.pairs
  edge_count : session.store.edgeCount =
    ((Finset.range session.store.nodes.size ×ˢ Finset.range session.store.nodes.size).filter
      fun pair => session.store.hasEdge pair.1 pair.2).card
  children_iff_parents : ∀ c p,
    c ∈ session.store.children p ↔ p ∈ session.store.parents c
  /-- A node is in all those that it was put into, but never in itself. -/
  mem_children : ∀ c p, c ∈ session.store.children p ↔
    c ≠ p ∧ ∃ turn ∈ session.turns, turn.request = .link c p
  /-- An edge that is there is not added again. -/
  edge_again : ∀ src dst site, session.store.hasEdge src dst →
    session.store.addEdge src dst site = (false, session.store)
  /-- A link that is there is not recorded again at either end. -/
  link_again : ∀ c p, c ∈ session.store.children p →
    session.store.addLink c p = .ok (false, session.store)
  /-- Nothing is put into itself. -/
  link_self : ∀ n, session.store.addLink n n =
    .error (.selfContainment (session.store.describe n))

namespace Faithful

variable (h : session.Faithful)
include h

theorem one_node {turn : Turn} (hturn : turn ∈ session.turns) {key : NodeKey}
    (hkey : turn.key? = some key) : ∃ id, turn.node? = some id ∧
      ∀ other, other < session.graph.nodes.size ∧ (session.graph.kind other).key? = some key ↔
        other = id := by
  obtain ⟨id, hid⟩ := Turn.exists_node? hkey
  have hfind := (h.given turn hturn key hkey).symm.trans hid
  refine ⟨id, hid, fun other => ⟨fun ⟨hsize, hother⟩ => ?_, ?_⟩⟩
  · exact Option.some.inj ((h.keyed other hsize key hother).symm.trans hfind)
  · rintro rfl
    exact find?_some hfind

theorem first_kind {id : NodeId} (hid : id < session.graph.nodes.size) {key : NodeKey}
    (hkey : (session.graph.kind id).key? = some key) :
    session.first? key = some (session.graph.kind id).core := by
  rw [← h.first key, core?, h.keyed id hid key hkey, Option.map_some]

theorem hasEdge_iff (src dst : NodeId) :
    session.graph.hasEdge src dst ↔
      ∃ turn ∈ session.turns, (src, dst) ∈ turn.pairs := by
  rw [← mem_edgeEnds, h.edges_eq, mem_foldl_note]
  simp

theorem edges_nodup : session.graph.edgeEnds.Nodup := by
  rw [h.edges_eq]
  exact nodup_foldl_note List.nodup_nil

theorem edge_count : session.graph.edges.size =
    ((Finset.range session.graph.nodes.size ×ˢ Finset.range session.graph.nodes.size).filter
      fun pair => session.graph.hasEdge pair.1 pair.2).card := by
  have hends : ((Finset.range session.graph.nodes.size ×ˢ
      Finset.range session.graph.nodes.size).filter
      fun pair => session.graph.hasEdge pair.1 pair.2) = session.graph.edgeEnds.toFinset := by
    ext pair
    simp only [Finset.mem_filter, Finset.mem_product, Finset.mem_range, ← mem_edgeEnds,
      List.mem_toFinset, and_iff_right_iff_imp]
    exact h.edges_lt pair
  rw [hends, List.toFinset_card_of_nodup h.edges_nodup]
  simp [edgeEnds]

theorem mem_links {link : Link} :
    link ∈ session.graph.links ↔ link.child ≠ link.parent ∧
      ∃ turn ∈ session.turns, turn.request = .link link.child link.parent := by
  rw [← Array.mem_toList_iff, h.links_eq, mem_foldl_note]
  simp only [List.not_mem_nil, false_or, List.mem_flatMap, Request.mem_links]
  exact ⟨fun ⟨turn, hturn, hne, hrequest⟩ => ⟨hne, turn, hturn, hrequest⟩,
    fun ⟨hne, turn, hturn, hrequest⟩ => ⟨turn, hturn, hne, hrequest⟩⟩

end Faithful

/-- The stored graph of every session can be read as a record of its requests. -/
theorem Reached.recorded (h : session.Reached) : session.Recorded where
  one_node before turn after hturns key hkey := by
    have hturn : turn ∈ session.turns := by simp [hturns]
    obtain ⟨id, hid, honly⟩ := h.faithful.one_node hturn hkey
    refine ⟨id, (h.answer_eq hturns).trans hid, ?_, fun other => ?_⟩
    · rw [h.represents.find?_eq, ← h.faithful.given turn hturn key hkey, hid]
    · rw [h.represents.size_eq, h.represents.kind_eq]
      exact honly other
  first_kind id hid key hkey := by
    rw [h.represents.size_eq] at hid
    rw [h.represents.kind_eq] at hkey ⊢
    exact h.faithful.first_kind hid hkey
  mem_ops id := by
    rw [h.represents.ops_eq, StoredGraph.isOp, h.represents.kind_eq]
    exact FlowGraph.mem_ops
  ops_eq := h.represents.ops_eq.trans h.faithful.ops_eq
  ops_ascend := by
    rw [h.represents.ops_eq]
    exact List.pairwise_lt_range.filter _
  edges_nodup := by
    rw [h.represents.edges_eq]
    exact h.faithful.edges_nodup
  hasEdge src dst := by
    rw [h.represents.hasEdge_eq]
    exact h.faithful.hasEdge_iff src dst
  edge_count := by
    simp only [h.represents.count_eq, h.represents.edges_eq, h.represents.size_eq,
      h.represents.hasEdge_eq]
    exact h.faithful.edge_count
  children_iff_parents c p :=
    (h.represents.mem_children c p).trans (h.represents.mem_parents c p).symm
  mem_children c p :=
    (h.represents.mem_children c p).trans h.faithful.mem_links
  edge_again _ _ _ hedge := if_pos hedge
  link_again c p hchild := by
    have hlink := (h.represents.mem_children c p).mp hchild
    have hparent := (h.represents.mem_parents c p).mpr hlink
    rw [StoredGraph.addLink, if_neg (h.faithful.mem_links.mp hlink).1,
      StoredGraph.tie_eq_self hparent hchild, Std.TreeSet.mem_iff_contains.mp hparent]
    rfl
  link_self _ := if_pos rfl

end Session

/-- A dialog that is asked for twice, under two classes, with its content. -/
def Sample.dialogSession : Session :=
  let site : StmtId := { method := 0, index := 1 }
  let setContent : Op := { kind := .setContent, receiver := some 0, parameter := some 2 }
  Session.next {} (.var (.named 0 "box") none)
    |>.next (.dialog "app.Box" site)
    |>.next (.dialog "app.Other" site)
    |>.next (.view "android.widget.Button")
    |>.next (.op setContent)
    |>.next (.edge 1 0 (some site))
    |>.next (.edge 1 0 none)
    |>.next (.link 2 1)
    |>.next (.link 2 2)
    |>.next (.setCancelable 1 false)

/-- The sample is a session, and its stored graph has what it records. -/
theorem Session.Reached.recorded_dialog :
    Sample.dialogSession.Reached ∧ Sample.dialogSession.Recorded ∧
      Sample.dialogSession.store.kind 1 = .dialog "app.Box" { method := 0, index := 1 } false ∧
      Sample.dialogSession.store.ops = [3] ∧ Sample.dialogSession.store.edgeCount = 3 ∧
      (Sample.dialogSession.store.children 1).toList = [2] ∧
      (Sample.dialogSession.store.parents 2).toList = [1] := by
  have hreached : Sample.dialogSession.Reached := by
    repeat refine .next ?_ (by decide +kernel)
    exact .start
  exact ⟨hreached, hreached.recorded, by decide +kernel, by decide +kernel, by decide +kernel,
    by decide +kernel, by decide +kernel⟩

end WidgetFlow
