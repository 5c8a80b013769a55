import WidgetFlow.Proofs.Solution.Inflation

/-!
# What inflating one element makes

Inflating an element makes one node of the kind that the element asks for. The node gets the
identifier of the element if that is known, and is put into the node around it. The wiring makes
more nodes, but no other view or menu item, and leaves containment and names as they are.
`Sprouted` says this of the graphs before and after, and `runs_inflateView` and `runs_inflateItem`
show it of the two kinds of elements.
-/

namespace WidgetFlow

variable {kind : NodeKind}

theorem NodeKind.eq_of_isInflated {other : NodeKind} (h : kind.isInflated)
    (hcore : other.core = kind.core) : other = kind := by
  cases kind <;> cases other <;> simp_all [NodeKind.isInflated, NodeKind.core]

theorem NodeKind.isObject_of_isInflated (h : kind.isInflated) :
    kind.isObject ∧ kind.isWindow = false := by
  cases kind <;> simp_all [NodeKind.isInflated, NodeKind.isObject, NodeKind.isWindow]

theorem NodeKind.isShown_of_isInflated (h : kind.isInflated) : kind.isShown := by
  simp [NodeKind.isShown, h]

namespace FlowGraph

def widget? (g : FlowGraph) (id : Option ResId) : Option NodeId :=
  id.bind fun v => g.find? (.id .widget v)

theorem Develops.widget?_eq {old new : FlowGraph} (h : Develops old new) (id : Option ResId) :
    new.widget? id = old.widget? id :=
  congrArg id.bind (funext fun v => h.find?_id .widget v)

/-- Names a node by an identifier that may be missing. -/
def setId? (n : NodeId) : Option NodeId → FlowGraph → FlowGraph
  | none, g => g
  | some id, g => setId n id g

/-- Naming a node leaves the names of all others. -/
theorem idOf?_setId_ne {g : FlowGraph} {n other : NodeId} (idNode : NodeId)
    (h : other ≠ n) : (setId n idNode g).idOf? other = g.idOf? other := by
  rw [idOf?, setId, node_modify, if_neg fun heq => h heq.1.symm]
  rfl

/-- One graph comes from the other by one new node of a kind, with the identifier that it gets and
the node that it is put into. No other view or menu item is new. -/
structure Sprouted (kind : NodeKind) (id : Option ResId) (p : Option NodeId)
    (old new : FlowGraph) : Prop extends Develops old new where
  size_lt : old.nodes.size < new.nodes.size
  kind_eq : new.kind old.nodes.size = kind
  fresh_shown : ∀ other, old.nodes.size < other → (new.kind other).isShown = false
  contains_iff : ∀ outer inner, new.Contains outer inner ↔
    p = some outer ∧ inner = old.nodes.size ∨ old.Contains outer inner
  name_eq : new.idOf? old.nodes.size = old.widget? id
  names_eq : ∀ other, other ≠ old.nodes.size → new.idOf? other = old.idOf? other

namespace Sprouted

variable {kind : NodeKind} {id : Option ResId} {old middle new : FlowGraph}

theorem of_sows (hkind : kind.isInflated)
    (h : Sows old.nodes.size (add kind old).2 new) : Sprouted kind none none old new := by
  obtain ⟨hobject, hwindow⟩ := NodeKind.isObject_of_isInflated hkind
  have hlt : old.nodes.size < (add kind old).2.nodes.size := by simp
  exact {
    toDevelops := trans_of Develops (develops_add_object hobject hwindow) h.toDevelops
    size_lt := Nat.lt_of_lt_of_le hlt h.size_le
    kind_eq := by
      refine NodeKind.eq_of_isInflated hkind ((h.core_eq _ hlt).trans ?_)
      rw [kind_add, if_pos rfl]
    fresh_shown := fun other hother =>
      h.fresh_shown other (Nat.le_trans (Nat.le_of_eq (add_size kind)) hother)
    contains_iff := fun outer inner => by
      rw [Contains, h.links_eq]
      simp [Contains, add]
    name_eq := by
      rw [h.names_eq, idOf?_add, idOf?, node_of_size_le (Nat.le_refl _)]
      rfl
    names_eq := fun other _ => (h.names_eq other).trans (idOf?_add kind other) }

theorem name (hkind : kind.isInflated) (h : Sprouted kind none none old middle)
    (id : Option ResId) :
    Sprouted kind id none old (setId? old.nodes.size (middle.widget? id) middle) := by
  rw [h.widget?_eq]
  cases hname : old.widget? id with
  | none => exact { h with name_eq := h.name_eq.trans hname.symm }
  | some idNode =>
    have hsteady : Steady middle (setId old.nodes.size idNode middle) := steady_setId _ _
    exact {
      toDevelops := trans_of Develops h.toDevelops hsteady.toDevelops
      size_lt := Nat.lt_of_lt_of_le h.size_lt hsteady.size_le
      kind_eq := by
        refine NodeKind.eq_of_isInflated hkind ((hsteady.core_eq _ h.size_lt).trans ?_)
        rw [h.kind_eq]
      fresh_shown := fun other hother => by
        by_cases hsize : other < middle.nodes.size
        · exact (hsteady.keeps _ NodeKind.isShown_core hsize).trans (h.fresh_shown other hother)
        · rw [kind_of_size_le (hsteady.size_eq ▸ Nat.not_lt.mp hsize)]
          rfl
      contains_iff := h.contains_iff
      name_eq := (idOf?_setId h.size_lt).trans hname.symm
      names_eq := fun other hother => (idOf?_setId_ne idNode hother).trans (h.names_eq other hother) }

theorem link {p : NodeId} {added : Bool} (h : Sprouted kind id none old middle)
    (hlink : middle.addLink old.nodes.size p = .ok (added, new)) :
    Sprouted kind id (some p) old new := by
  have hkinds : new.kind = middle.kind ∧ new.idOf? = middle.idOf? := by
    rcases addLink_ok hlink with ⟨_, rfl, _⟩ | ⟨_, rfl, _⟩ <;> exact ⟨rfl, rfl⟩
  have hsteady := steady_addLink hlink
  exact {
    toDevelops := trans_of Develops h.toDevelops hsteady.toDevelops
    size_lt := Nat.lt_of_lt_of_le h.size_lt hsteady.size_le
    kind_eq := hkinds.1 ▸ h.kind_eq
    fresh_shown := hkinds.1 ▸ h.fresh_shown
    contains_iff := fun outer inner => by
      rw [contains_addLink_iff hlink, h.contains_iff]
      simp [eq_comm]
    name_eq := hkinds.2 ▸ h.name_eq
    names_eq := hkinds.2 ▸ h.names_eq }

end Sprouted

end FlowGraph

namespace Solving

open Analysis FlowGraph

variable {ctx : Context} {s : Progress Notes}

/-! ## The parts of inflating an element -/

/-- Naming a view gives it its identifier if that is known. -/
theorem runs_nameView (n : NodeId) (id : Option ResId) :
    Runs (nameView n id) s fun _ t =>
      t.graph = setId? n (s.graph.widget? id) s.graph ∧
        t.notes = s.notes := by
  cases id with
  | none => exact .pure ⟨rfl, rfl⟩
  | some v =>
    refine .getGraph ?_
    simp only [widget?, Option.bind_some]
    cases s.graph.find? (.id .widget v) with
    | none => exact .fail (fun _ => ⟨rfl, rfl⟩) _
    | some idNode => exact .modifyGraph ⟨rfl, rfl⟩

/-- Naming a menu item gives it its identifier if that is known. -/
theorem runs_nameItem (n : NodeId) (menu : ResId) (id : Option ResId) :
    Runs (nameItem n menu id) s fun _ t =>
      t.graph = setId? n (s.graph.widget? id) s.graph ∧
        t.notes = s.notes := by
  cases id with
  | none => exact .pure ⟨rfl, rfl⟩
  | some v =>
    refine .getGraph ?_
    simp only [widget?, Option.bind_some]
    cases s.graph.find? (.id .widget v) with
    | none => exact .gap (fun _ => ⟨rfl, rfl⟩) _
    | some idNode => exact .modifyGraph ⟨rfl, rfl⟩

def Makes (kind : NodeKind) (id : Option ResId) (p : Option NodeId) (s : Progress Notes)
    (n : NodeId) (t : Progress Notes) : Prop :=
  n = s.graph.nodes.size ∧ Sprouted kind id p s.graph t.graph ∧
    s.notes.Collects t.notes

/-- A new node that is wired, put into slots and named, with what is done next. -/
theorem runs_sprout {α : Type} {id : Option ResId}
    {wire : NodeId → Solving Unit} {name : NodeId → Solving Unit} {next : NodeId → Solving α}
    {post : α → Progress Notes → Prop} (hkind : kind.isInflated)
    (hsows : ∀ n, Keeps (Evolves (Sows n) Notes.Collects) (wire n))
    (hname : ∀ n st, Runs (name n) st fun _ t =>
      t.graph = setId? n (st.graph.widget? id) st.graph ∧ t.notes = st.notes)
    (hnext : ∀ n named, Makes kind id none s n named → Runs (next n) named post) :
    Runs
      (do
        let n ← onGraph (FlowGraph.add kind)
        wire n
        fillReachedSlots ctx n
        name n
        next n) s post := by
  have hadd : Runs (onGraph (FlowGraph.add kind)) s fun n added =>
      n = s.graph.nodes.size ∧
        added = { s with graph := (FlowGraph.add kind s.graph).2 } :=
    .of_graph ⟨rfl, rfl⟩
  refine hadd.bind ?_
  rintro _ _ ⟨rfl, rfl⟩
  refine (hsows _ _).bind fun _ wired hwired => ?_
  refine (runs_fillReachedSlots ctx _ wired).bind fun _ filled hfilled => ?_
  refine (hname _ filled).bind fun _ named hnamed => hnext _ named ⟨rfl, ?_, ?_⟩
  · rw [hnamed.1, hfilled.graph_eq]
    exact (Sprouted.of_sows hkind hwired.1).name hkind id
  · rw [hnamed.2]
    exact trans_of Notes.Collects hwired.2 hfilled.collects

theorem Makes.link {id : Option ResId} {n p : NodeId} {named : Progress Notes}
    (h : Makes kind id none s n named) (hparent : p < s.graph.nodes.size) :
    Runs (addLink n p) named fun _ t =>
      Makes kind id (some p) s n t := by
  obtain ⟨rfl, hsprouted, hnotes⟩ := h
  exact .of_addLink (fun h => absurd h (Nat.ne_of_gt hparent)) fun _ _ hlink =>
    ⟨rfl, hsprouted.link hlink, hnotes⟩

/-! ## Elements -/

def InGraph? (g : FlowGraph) (n : Option NodeId) : Prop :=
  ∀ id, n = some id → id < g.nodes.size

theorem InGraph?.mono {old new : FlowGraph} {n : Option NodeId} (hg : Extends old new)
    (h : InGraph? old n) : InGraph? new n :=
  fun id hid => Nat.lt_of_lt_of_le (h id hid) hg.size_le

theorem runs_inflateView (ctx : Context) (e : Element) (owner : String)
    {p : Option NodeId} (hparent : InGraph? s.graph p) :
    Runs (inflateView ctx e owner p) s
      (Makes (.view owner) e.id p s) := by
  refine runs_sprout rfl (fun n => keeps_wireInflatedView ctx n owner)
    (fun n _ => runs_nameView n e.id) fun n named hnamed => ?_
  cases p with
  | none => exact .pure hnamed
  | some p =>
    have hlink : Runs (do let _ ← addLink n p) named fun _ t =>
        Makes (.view owner) e.id (some p) s n t :=
      (hnamed.link (hparent p rfl)).bind fun _ _ ht => .pure ht
    exact hlink.bind fun _ _ ht => .pure ht

theorem runs_inflateItem (ctx : Context) (menu : ResId) (e : Element) (owner : String)
    {p : NodeId} (hparent : p < s.graph.nodes.size) :
    Runs (inflateItem ctx menu e owner p) s
      (Makes (.menuItem owner e.attrs) e.id (some p) s) := by
  refine runs_sprout rfl (fun n => keeps_finishInflation ctx n owner)
    (fun n _ => runs_nameItem n menu e.id) fun n named hnamed => ?_
  exact (hnamed.link hparent).bind fun _ _ ht => .pure ht

end Solving

end WidgetFlow
