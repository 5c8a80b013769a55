import WidgetFlow.Proofs.Graph.Development

/-!
# Tying objects to handlers

`FlowGraph.Ties` says what a graph gets when objects are let flow into handlers: some variables, an
edge from an object to each variable that it is fed into, some handlers of registrations, and
nothing else. Ties are put together with `FlowGraph.Ties.trans`.
-/

namespace WidgetFlow

namespace FlowGraph

variable {g old middle new : FlowGraph}

def Grew (old new : FlowGraph) : Prop :=
  (∃ src dst, new.hasEdge src dst ∧ ¬ old.hasEdge src dst) ∨
    ∃ binding ∈ new.bindings, binding ∉ old.bindings

theorem Grew.before (hg : Extends old middle) (h : Grew middle new) : Grew old new :=
  h.imp (fun ⟨src, dst, hedge, hnew⟩ =>
      ⟨src, dst, hedge, fun hold => hnew (hg.hasEdge hold)⟩)
    fun ⟨binding, hbinding, hnew⟩ =>
      ⟨binding, hbinding, fun hold => hnew (hg.bindings binding hold)⟩

theorem Grew.after (h : Grew old middle) (hg : Extends middle new) : Grew old new :=
  h.imp (fun ⟨src, dst, hedge, hnew⟩ => ⟨src, dst, hg.hasEdge hedge, hnew⟩)
    fun ⟨binding, hbinding, hnew⟩ => ⟨binding, hg.bindings binding hbinding, hnew⟩

/-! ## Ties -/

/-- One graph comes from the other by feeding objects into variables and giving handlers to
registrations. -/
structure Ties (feeds : NodeId → Var → Prop) (handles : NodeId × Handler → Prop)
    (old new : FlowGraph) : Prop extends Enriches old new where
  bindings_iff : ∀ binding, binding ∈ new.bindings ↔ handles binding ∨ binding ∈ old.bindings
  fed : ∀ src var, feeds src var →
    ∃ dst, new.find? (.var var) = some dst ∧ new.hasEdge src dst
  edges_from : ∀ src dst, new.hasEdge src dst →
    old.hasEdge src dst ∨ ∃ var, feeds src var ∧ new.find? (.var var) = some dst
  fresh_var : ∀ id, old.nodes.size ≤ id → id < new.nodes.size →
    ∃ src var, feeds src var ∧ new.find? (.var var) = some id
  links_eq : new.links = old.links
  names_eq : ∀ id, new.idOf? id = old.idOf? id

namespace Ties

variable {feeds feeds' : NodeId → Var → Prop} {handles handles' : NodeId × Handler → Prop}

theorem none (hfeeds : ∀ src var, ¬ feeds src var) (hhandles : ∀ binding, ¬ handles binding)
    (g : FlowGraph) : Ties feeds handles g g where
  toEnriches := refl_of Enriches g
  bindings_iff binding := (or_iff_right (hhandles binding)).symm
  fed src var h := absurd h (hfeeds src var)
  edges_from _ _ h := .inl h
  fresh_var _ hid hlt := absurd hlt (Nat.not_lt.mpr hid)
  links_eq := rfl
  names_eq _ := rfl

theorem congr (h : Ties feeds handles old new)
    (hfeeds : ∀ src var, feeds src var ↔ feeds' src var)
    (hhandles : ∀ binding, handles binding ↔ handles' binding) : Ties feeds' handles' old new := by
  have hfeeds : feeds = feeds' := funext₂ fun src var => propext (hfeeds src var)
  have hhandles : handles = handles' := funext fun binding => propext (hhandles binding)
  exact hfeeds ▸ hhandles ▸ h

theorem trans (h : Ties feeds handles old middle) (h' : Ties feeds' handles' middle new) :
    Ties (fun src var => feeds src var ∨ feeds' src var)
      (fun binding => handles binding ∨ handles' binding) old new where
  toEnriches := trans_of Enriches h.toEnriches h'.toEnriches
  bindings_iff binding := by rw [h'.bindings_iff, h.bindings_iff, or_left_comm, or_assoc]
  fed src var hfeeds := by
    rcases hfeeds with hfeeds | hfeeds
    · obtain ⟨dst, hfind, hedge⟩ := h.fed src var hfeeds
      exact ⟨dst, h'.toExtends.find?_eq hfind, h'.toExtends.hasEdge hedge⟩
    · exact h'.fed src var hfeeds
  edges_from src dst hedge := by
    rcases h'.edges_from src dst hedge with hedge | ⟨var, hfeeds, hfind⟩
    · rcases h.edges_from src dst hedge with hedge | ⟨var, hfeeds, hfind⟩
      · exact .inl hedge
      · exact .inr ⟨var, .inl hfeeds, h'.toExtends.find?_eq hfind⟩
    · exact .inr ⟨var, .inr hfeeds, hfind⟩
  fresh_var id hid hlt := by
    by_cases hmiddle : id < middle.nodes.size
    · obtain ⟨src, var, hfeeds, hfind⟩ := h.fresh_var id hid hmiddle
      exact ⟨src, var, .inl hfeeds, h'.toExtends.find?_eq hfind⟩
    · obtain ⟨src, var, hfeeds, hfind⟩ := h'.fresh_var id (Nat.not_lt.mp hmiddle) hlt
      exact ⟨src, var, .inr hfeeds, hfind⟩
  links_eq := h'.links_eq.trans h.links_eq
  names_eq id := (h'.names_eq id).trans (h.names_eq id)

end Ties

theorem ties_bindHandler (op : NodeId) (handler : Handler) :
    Ties (fun _ _ => False) (· = (op, handler)) g (bindHandler op handler g).2 := by
  have hg : Enriches g (bindHandler op handler g).2 := enriches_bindHandler op handler
  unfold bindHandler at hg ⊢
  split at hg
  next hmem =>
    rw [if_pos hmem]
    refine { Ties.none nofun (fun _ h => h) g with bindings_iff := fun binding => ?_ }
    refine ⟨.inr, fun h => h.elim (fun heq => ?_) id⟩
    exact heq ▸ Array.contains_iff_mem.mp hmem
  next hmem =>
    rw [if_neg hmem]
    exact {
      toEnriches := hg
      bindings_iff := fun binding => by simp [Array.mem_push, or_comm]
      fed := nofun
      edges_from := fun _ _ h => .inl h
      fresh_var := fun _ hid hlt => absurd hlt (Nat.not_lt.mpr hid)
      links_eq := rfl
      names_eq := fun _ => rfl }

theorem links_varNode (var : Var) (ty : Option Ty) :
    (varNode var ty g).2.links = g.links ∧
      (varNode var ty g).2.bindings = g.bindings ∧
        (varNode var ty g).2.edges = g.edges := by
  rw [varNode, obtain]
  rcases g.share_cases (.var var ty) with ⟨_, _, _, _, h⟩ | h <;> rw [h]
  · exact ⟨rfl, rfl, rfl⟩
  · exact ⟨rfl, rfl, rfl⟩

theorem eq_varNode_of_size_le (var : Var) (ty : Option Ty) {id : NodeId}
    (hid : g.nodes.size ≤ id) (hlt : id < (varNode var ty g).2.nodes.size) :
    id = (varNode var ty g).1 := by
  rw [varNode, obtain] at hlt ⊢
  rcases g.share_cases (.var var ty) with ⟨_, _, _, _, h⟩ | h <;> rw [h] at hlt ⊢
  · exact absurd hlt (Nat.not_lt.mpr hid)
  · have hlt : id < (add (.var var ty) g).2.nodes.size := hlt
    rw [add_size] at hlt
    exact Nat.le_antisymm (Nat.le_of_lt_succ hlt) hid

theorem ties_feed (o : NodeId) (var : Var) (ty : Option Ty) (site : Option StmtId) :
    Ties (fun src var' => src = o ∧ var' = var) (fun _ => False) g
      (addEdge o (varNode var ty g).1 site (varNode var ty g).2).2 := by
  have hfind : (varNode var ty g).2.find? (.var var) = some (varNode var ty g).1 :=
    find?_share (.var var ty) rfl
  have hfresh : ∀ id, g.nodes.size ≤ id → id < (varNode var ty g).2.nodes.size →
      id = (varNode var ty g).1 := fun id => eq_varNode_of_size_le var ty
  obtain ⟨hlinks, hbindings, hedges⟩ := g.links_varNode var ty
  have hnames : ∀ id, (varNode var ty g).2.idOf? id = g.idOf? id := idOf?_share (.var var ty)
  have hg : Enriches g (varNode var ty g).2 := enriches_varNode var ty
  revert hfind hfresh hlinks hbindings hedges hnames hg
  generalize varNode var ty g = found
  obtain ⟨dst, middle⟩ := found
  intro hfind hfresh hlinks hbindings hedges hnames hg
  have hg' : Enriches middle (addEdge o dst site middle).2 :=
    .of_develops (develops_addEdge ..) (by rw [addEdge_eq]) (idOf?_addEdge o dst site)
  have hfind' := hg'.toExtends.find?_eq hfind
  exact {
    toEnriches := trans_of Enriches hg hg'
    bindings_iff := fun binding => by
      rw [addEdge_eq]
      simpa using iff_of_eq (congrArg (binding ∈ ·) hbindings)
    fed := by
      rintro _ _ ⟨rfl, rfl⟩
      exact ⟨dst, hfind', hasEdge_addEdge ..⟩
    edges_from := by
      intro src dst' hedge
      obtain ⟨edge, hmem, rfl, rfl⟩ := hasEdge_iff.mp hedge
      rcases mem_edges_addEdge.mp hmem with hold | ⟨_, rfl⟩
      · exact .inl (hasEdge_iff.mpr ⟨edge, hedges ▸ hold, rfl, rfl⟩)
      · exact .inr ⟨var, ⟨rfl, rfl⟩, hfind'⟩
    fresh_var := by
      intro id hid hlt
      rw [addEdge_eq] at hlt
      obtain rfl : id = dst := hfresh id hid hlt
      exact ⟨o, var, ⟨rfl, rfl⟩, hfind'⟩
    links_eq := by rw [addEdge_eq]; exact hlinks
    names_eq := fun id => by rw [addEdge_eq]; exact hnames id }

end FlowGraph

end WidgetFlow
