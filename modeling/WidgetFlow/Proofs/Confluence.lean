import WidgetFlow.Proofs.Handlers
import WidgetFlow.Proofs.Solution.Schedules

/-!
# The order of the visits does not matter

The operations of a plain graph may be visited in any order: the passes come to the same solution,
containment, flow and handlers (`Solving.passes_confluent`). The only nodes that are made meanwhile
are the variables of handlers. They may be made in another order, so two graphs are compared by the
places of their nodes: a node that was there before has its number, and a new one its variable.
-/

namespace WidgetFlow

namespace FlowGraph

variable {origin g : FlowGraph} {id : NodeId}

/-- The place of a node in a graph that has come from another one: its number if it was there, and
otherwise its variable. -/
def place (origin g : FlowGraph) (id : NodeId) : NodeId ⊕ Var :=
  match g.kind id with
  | .var var _ => if id < origin.nodes.size then .inl id else .inr var
  | _ => .inl id

def Joins (origin g : FlowGraph) (src dst : NodeId ⊕ Var) : Prop :=
  ∃ first second, g.hasEdge first second ∧
    place origin g first = src ∧ place origin g second = dst

/-- Every node of one graph has exactly one node of the other one at its place. -/
def Covers (origin g other : FlowGraph) : Prop :=
  ∀ id < g.nodes.size,
    ∃! twin, twin < other.nodes.size ∧ place origin other twin = place origin g id

theorem place_of_lt (h : id < origin.nodes.size) : place origin g id = .inl id := by
  unfold place
  split
  · rw [if_pos h]
  · rfl

theorem place_of_find? {var : Var} (hid : origin.nodes.size ≤ id)
    (hfind : g.find? (.var var) = some id) : place origin g id = .inr var := by
  have hkey := (find?_some hfind).2
  unfold place
  cases hkind : g.kind id <;> simp_all [NodeKind.key?]

theorem place_eq_of_find? {other : FlowGraph} {twin : NodeId} {var : Var}
    (hgraph : Extends origin g) (hother : Extends origin other)
    (hid : g.find? (.var var) = some id) (htwin : other.find? (.var var) = some twin) :
    place origin other twin = place origin g id := by
  cases hfind : origin.find? (.var var) with
  | some n =>
    cases (hgraph.find?_eq hfind).symm.trans hid
    cases (hother.find?_eq hfind).symm.trans htwin
    have hlt := (find?_some hfind).1
    rw [place_of_lt hlt, place_of_lt hlt]
  | none =>
    -- neither of the nodes was there, or it would have been found
    have hfresh : ∀ {new : FlowGraph} {n}, Extends origin new →
        new.find? (.var var) = some n → origin.nodes.size ≤ n := fun hnew hnode =>
      Nat.not_lt.mp fun hlt => by
        rw [hnew.find?_eq_of_lt hnode hlt] at hfind
        cases hfind
    rw [place_of_find? (hfresh hother htwin) htwin, place_of_find? (hfresh hgraph hid) hid]

end FlowGraph

namespace Solving

open Analysis FlowGraph

variable {ctx : Context} {s : Progress Notes}

/-! ## Agreement -/

/-- Two states that have come from the same graph have the same solution, containment, handlers and
flow. -/
structure Agrees (origin : FlowGraph) (first second : Progress Notes) : Prop where
  parameters : first.notes.solution.parameters.Same second.notes.solution.parameters
  receivers : first.notes.solution.receivers.Same second.notes.solution.receivers
  results : first.notes.solution.results.Same second.notes.solution.results
  listeners : first.notes.solution.listeners.Same second.notes.solution.listeners
  links : ∀ p c,
    first.graph.Contains p c ↔ second.graph.Contains p c
  handlers : ∀ op handler,
    handler ∈ first.graph.handlersOf op ↔ handler ∈ second.graph.handlersOf op
  covers : Covers origin first.graph second.graph
  covered : Covers origin second.graph first.graph
  edges : ∀ src dst,
    Joins origin first.graph src dst ↔ Joins origin second.graph src dst

section Below

variable {low high : Stage}

theorem Reached.find?_of_le {stage : Stage} {id : NodeId} (h : Reached ctx s stage)
    (hid : s.graph.nodes.size ≤ id) (hlt : id < stage.state.graph.nodes.size) :
    ∃ var, stage.state.graph.find? (.var var) = some id := by
  obtain ⟨_, _, _, _, var, _, _, hfind⟩ := h.bonds.nodes id hid hlt
  exact ⟨var, hfind⟩

theorem Reached.place_inj {stage : Stage} {id twin : NodeId} (h : Reached ctx s stage)
    (hid : id < stage.state.graph.nodes.size) (htwin : twin < stage.state.graph.nodes.size)
    (heq : place s.graph stage.state.graph twin = place s.graph stage.state.graph id) :
    twin = id := by
  by_cases hold : id < s.graph.nodes.size <;> by_cases hold' : twin < s.graph.nodes.size
  · rw [place_of_lt hold, place_of_lt hold'] at heq
    exact Sum.inl.inj heq
  · obtain ⟨var, hfind⟩ := h.find?_of_le (Nat.not_lt.mp hold') htwin
    rw [place_of_lt hold, place_of_find? (Nat.not_lt.mp hold') hfind] at heq
    cases heq
  · obtain ⟨var, hfind⟩ := h.find?_of_le (Nat.not_lt.mp hold) hid
    rw [place_of_lt hold', place_of_find? (Nat.not_lt.mp hold) hfind] at heq
    cases heq
  · obtain ⟨var, hfind⟩ := h.find?_of_le (Nat.not_lt.mp hold) hid
    obtain ⟨var', hfind'⟩ := h.find?_of_le (Nat.not_lt.mp hold') htwin
    rw [place_of_find? (Nat.not_lt.mp hold) hfind,
      place_of_find? (Nat.not_lt.mp hold') hfind'] at heq
    cases heq
    exact Option.some.inj (hfind'.symm.trans hfind)

variable (h : Below low.state high.state) (hlow : Reached ctx s low)
variable (hhigh : Reached ctx s high)
include h hlow hhigh

theorem Below.covers : Covers s.graph low.state.graph high.state.graph := by
  intro id hid
  obtain ⟨twin, hlt, hplace⟩ : ∃ twin, twin < high.state.graph.nodes.size ∧
      place s.graph high.state.graph twin = place s.graph low.state.graph id := by
    by_cases hold : id < s.graph.nodes.size
    · refine ⟨id, Nat.lt_of_lt_of_le hold hhigh.advances.1.size_le, ?_⟩
      rw [place_of_lt hold, place_of_lt hold]
    · obtain ⟨op, view, lis, src, var, hbound, hfeeds, hfind⟩ :=
        hlow.bonds.nodes id (Nat.not_lt.mp hold) hid
      obtain ⟨twin, hfind', _⟩ :=
        hhigh.bonds.fed op view lis (h.bound _ hbound) src var hfeeds
      exact ⟨twin, (find?_some hfind').1, place_eq_of_find? hlow.advances.1.toExtends
        hhigh.advances.1.toExtends hfind hfind'⟩
  refine ⟨twin, ⟨hlt, hplace⟩, fun other hother => ?_⟩
  exact hhigh.place_inj hlt hother.1 (hother.2.trans hplace.symm)

theorem Below.joins (hs : s.graph.WellFormed) {src dst : NodeId ⊕ Var}
    (hjoins : Joins s.graph low.state.graph src dst) :
    Joins s.graph high.state.graph src dst := by
  obtain ⟨first, second, hedge, rfl, rfl⟩ := hjoins
  have hfirst := (h.channels hlow hhigh hs).sources first second hedge
  rw [place_of_lt hfirst]
  rcases hlow.bonds.edges first second hedge with hold | hfed
  · obtain ⟨edge, hmem, rfl, rfl⟩ := hasEdge_iff.mp hold
    have hsecond := (hs.edge_ends edge hmem).2
    exact ⟨_, _, hhigh.advances.1.toExtends.hasEdge hold, place_of_lt hfirst,
      (place_of_lt hsecond).trans (place_of_lt hsecond).symm⟩
  · obtain ⟨op, view, lis, var, hbound, hfeeds, hfind⟩ := hfed
    obtain ⟨second', hfind', hedge'⟩ :=
      hhigh.bonds.fed op view lis (h.bound _ hbound) first var hfeeds
    exact ⟨first, second', hedge', place_of_lt hfirst, place_eq_of_find?
      hlow.advances.1.toExtends hhigh.advances.1.toExtends hfind hfind'⟩

theorem Below.agrees (h' : Below high.state low.state) (hs : s.graph.WellFormed) :
    Agrees s.graph low.state high.state where
  parameters op o := ⟨h.values .parameter op o, h'.values .parameter op o⟩
  receivers op o := ⟨h.values .receiver op o, h'.values .receiver op o⟩
  results op o := ⟨h.results op o, h'.results op o⟩
  listeners op o := ⟨h.values .listener op o, h'.values .listener op o⟩
  links p c := ⟨h.links p c, h'.links p c⟩
  handlers op handler := by
    rw [mem_handlersOf, mem_handlersOf]
    exact ⟨h.bindings hlow hhigh, h'.bindings hhigh hlow⟩
  covers := h.covers hlow hhigh
  covered := h'.covers hhigh hlow
  edges _ _ := ⟨h.joins hlow hhigh hs, h'.joins hhigh hlow hs⟩

end Below

/-! ## Confluence -/

/-- Passes that visit all operations end in a finished state. -/
theorem Passes.finished {orders : Nat → List NodeId} {t : Progress Notes}
    (h : Passes ctx orders s t) (hs : Tidy ctx s) (hbound : s.notes.bound = [])
    (hplain : Plain s.graph) (horders : ∀ count, (orders count).Perm s.graph.ops) :
    Finished ctx s ⟨t, false⟩ where
  toReached := (h.moves hs).reached hs hbound hplain
  settled := h.settled hs fun count _ hop =>
    (horders count).mem_iff.mpr (mem_ops.mpr hop)
  traced_in_time := rfl

/-- From the state after all resources have been inflated, where violations are recorded and the
graph is plain, the operations may be visited in any order in each pass. The passes come to an end,
and any two orders lead to the same solution, containment, handlers and flow. The solver itself
visits the operations in the order of creation. -/
theorem passes_confluent {wired : Progress Wiring.Notes} (hwarn : ctx.options.severity = .warn)
    (hwire : ctx.wire = (.ok (), wired))
    (hs : (prepare ctx).outcome
      { graph := wired.graph, policy := wired.policy, notes := {} } = (.ok (), s))
    (hplain : Plain s.graph) {orders orders' : Nat → List NodeId}
    (horders : ∀ count, (orders count).Perm s.graph.ops)
    (horders' : ∀ count, (orders' count).Perm s.graph.ops) :
    (∃ t, Passes ctx orders s t) ∧
    (∀ t t', Passes ctx orders s t → Passes ctx orders' s t' →
      Agrees s.graph t t') ∧
    ∀ t, (settle ctx (passBound s.graph)).outcome s = (.ok (), t) ↔
      Passes ctx (fun _ => s.graph.ops) s t := by
  have hprepare := runs_prepare ctx (Context.wellFormed_wire hwire) wired.policy
  have hprepared := hprepare.gives _ _ hs
  have htidy := hprepared.tidy
  have hbound := hprepared.unbound
  have hwired : wired.policy.severity = .warn :=
    ctx.fair_wire.warn hwarn hwire
  have hwarn : s.policy.severity = .warn := hprepare.fair.warn hwired hs
  refine ⟨exists_passes htidy hwarn orders, fun t t' hpasses hpasses' => ?_,
    fun t => outcome_settle_iff htidy hwarn⟩
  have ht := hpasses.finished htidy hbound hplain horders
  have ht' := hpasses'.finished htidy hbound hplain horders'
  have hbelow := Moves.below htidy hbound hplain ht' (hpasses.moves htidy)
  have hbelow' := Moves.below htidy hbound hplain ht (hpasses'.moves htidy)
  exact hbelow.agrees ht.toReached ht'.toReached hbelow' htidy.sound.wellFormed

end Solving

/-! ## The sample form, backwards -/

namespace Sample

/-- What the analysis of the form finds: its three operations are plain, the registration has the
button as its view, and the second method as the handler of clicks. -/
def Clicks (out : Outcome) : Prop :=
  (out.graph.ops = [4, 6, 7] ∧ Solving.Plain out.graph) ∧
    out.solution.receivers.holds 7 8 ∧ .method 1 ∈ out.graph.handlersOf 7

instance (out : Outcome) : Decidable (Clicks out) := inferInstanceAs (Decidable (_ ∧ _))

theorem form_clicks : ∃ out, form.analyze = .ok out ∧ Clicks out :=
  Context.exists_outcome (by decide +kernel)

end Sample

namespace Solving

open Analysis FlowGraph

/-- If the operations of the sample form are visited backwards, the second method handles the clicks
on the button all the same. -/
theorem passes_confluent_form :
    ∃ wired s t, Sample.form.wire = (.ok (), wired) ∧
      (prepare Sample.form).outcome
        { graph := wired.graph, policy := wired.policy, notes := {} } = (.ok (), s) ∧
      s.graph.ops = [4, 6, 7] ∧ Plain s.graph ∧
      Passes Sample.form (fun _ => [7, 6, 4]) s t ∧
      t.notes.solution.receivers.holds 7 8 ∧ .method 1 ∈ t.graph.handlersOf 7 := by
  obtain ⟨out, h, ⟨hops, hplain⟩, hview, hhandler⟩ := Sample.form_clicks
  obtain ⟨wired, solved, hwire, hsolve, rfl⟩ := Context.analyze_ok h
  obtain ⟨s, hprepare, hsettle⟩ := Context.solve_ok hsolve
  have hprepared := (runs_prepare _ (Context.wellFormed_wire hwire) wired.policy).gives _ _ hprepare
  have hg := (settled_of_settle hprepared.toProper hsettle).2.1.1.toDevelops
  have hops : s.graph.ops = [4, 6, 7] := (ops_eq_of_develops hg).symm.trans hops
  have hplain : Plain s.graph := (plain_congr hg).mp hplain
  have hbackwards : [7, 6, 4].Perm s.graph.ops := hops ▸ by decide
  obtain ⟨⟨t, ht⟩, hagrees, hsettles⟩ := passes_confluent rfl hwire hprepare hplain
    (fun _ => hbackwards) fun _ => .refl _
  have hagrees := hagrees t solved ht ((hsettles solved).mp hsettle)
  exact ⟨wired, s, t, hwire, hprepare, hops, hplain, ht,
    (hagrees.receivers 7 8).mpr hview, (hagrees.handlers 7 _).mpr hhandler⟩

end Solving

end WidgetFlow
