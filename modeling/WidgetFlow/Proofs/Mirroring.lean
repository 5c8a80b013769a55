import WidgetFlow.Proofs.Solution.Planting

/-!
# Inflation mirrors the resource tree

Inflating a resource copies its tree into the graph. Every element that is shown, that is, that has a
class together with all elements around it, gets a new node; the nodes contain each other as the
elements do; and nothing else that a resource could be inflated to is new. `Copied` says this, and
`inflation_mirrors_tree` shows it of layouts and of menus, from every state in which violations are
recorded.

The root of a layout is put into the window, if there is one. The root of a menu is not made: the
menu stands for it.
-/

namespace WidgetFlow.Solving

open Analysis FlowGraph

variable {ctx : Context} {s : Progress Notes} {v : ResId} {tree : Element}
variable {shape : String → Element → NodeKind} {made : List Nat → Prop} {win : Option NodeId}
variable {nodes : List Nat → NodeId} {old new : FlowGraph}

/-! ## Copies -/

/-- One graph comes from the other by a copy of the shown elements of a tree: each has a node, and
those at certain positions have got a new one. -/
structure Copied (shape : String → Element → NodeKind) (tree : Element) (made : List Nat → Prop)
    (win : Option NodeId) (nodes : List Nat → NodeId) (old new : FlowGraph) : Prop
    extends Develops old new where
  fresh : ∀ path shown, tree.shownAt? path = some shown → made path →
    old.nodes.size ≤ nodes path ∧ nodes path < new.nodes.size
  injective : ∀ path shown path' shown', tree.shownAt? path = some shown →
    tree.shownAt? path' = some shown' → nodes path = nodes path' → path = path'
  /-- Nothing else is inflated. -/
  only : ∀ id, old.nodes.size ≤ id → (new.kind id).isInflated →
    ∃ path shown, tree.shownAt? path = some shown ∧ made path ∧ nodes path = id
  /-- A node stands for what its element asks for. -/
  kind_eq : ∀ path shown, tree.shownAt? path = some shown → made path →
    new.kind (nodes path) = shape shown.1 shown.2
  /-- A node is named by the identifier of its element, if that is known. -/
  name_eq : ∀ path shown, tree.shownAt? path = some shown → made path →
    new.idOf? (nodes path) = old.widget? shown.2.id
  inside : ∀ path shown path' shown', tree.shownAt? path = some shown →
    tree.shownAt? path' = some shown' → made path' →
    (new.Contains (nodes path) (nodes path') ↔ ∃ index, path' = path ++ [index])
  /-- The root is in the window, and no node is in more than one other. -/
  parents : ∀ path shown, tree.shownAt? path = some shown → made path → ∀ outer,
    new.Contains outer (nodes path) ↔
      (if path = [] then win else some (nodes path.dropLast)) = some outer
  /-- Old nodes stay where they were, and keep their names. -/
  kept : ∀ id < old.nodes.size, new.idOf? id = old.idOf? id ∧
    ∀ outer, new.Contains outer id ↔ old.Contains outer id

def LinksWithin (g : FlowGraph) : Prop :=
  ∀ outer inner, g.Contains outer inner → outer < g.nodes.size ∧ inner < g.nodes.size

/-- What is made of a tree has places among some pending elements, and these have no others. If the
root is not made, then an old node stands for it. -/
structure Laid (pending : Pending) (planted : List Nat → NodeId) (place : List Nat → List Nat)
    (tree : Element) (made : List Nat → Prop) (win : Option NodeId) (nodes : List Nat → NodeId)
    (old : FlowGraph) : Prop where
  injective : Function.Injective place
  at_eq : ∀ path, made path → pending.at? (place path) = tree.shownAt? path
  exists_place : ∀ position shown, pending.at? position = some shown →
    ∃ path, made path ∧ position = place path
  nodes_eq : ∀ path, made path → nodes path = planted (place path)
  around_eq : ∀ path shown, tree.shownAt? path = some shown → made path →
    pending.around? planted (place path) = if path = [] then win else some (nodes path.dropLast)
  below_made : ∀ path, path ≠ [] → made path
  root_lt : ¬ made [] → nodes [] < old.nodes.size
  window_lt : InGraph? old win

section Laid

variable {pending : Pending} {planted : List Nat → NodeId} {place : List Nat → List Nat}
variable {path path' : List Nat} {shown shown' : String × Element}

theorem Laid.found (hlaid : Laid pending planted place tree made win nodes old)
    (hshown : tree.shownAt? path = some shown) (hpath : made path) :
    pending.at? (place path) = some shown :=
  (hlaid.at_eq path hpath).trans hshown

theorem Laid.root_of_not_made (hlaid : Laid pending planted place tree made win nodes old)
    (hpath : ¬ made path) : path = [] ∧ nodes path < old.nodes.size := by
  have hnil : path = [] := by
    by_contra hne
    exact hpath (hlaid.below_made path hne)
  subst hnil
  exact ⟨rfl, hlaid.root_lt hpath⟩

variable (h : pending.Planted shape old new planted)
variable (hlaid : Laid pending planted place tree made win nodes old)
include h hlaid

theorem Laid.fresh (hshown : tree.shownAt? path = some shown) (hpath : made path) :
    old.nodes.size ≤ nodes path ∧ nodes path < new.nodes.size := by
  rw [hlaid.nodes_eq path hpath]
  exact h.fresh _ _ (hlaid.found hshown hpath)

theorem Laid.nodes_injective (hshown : tree.shownAt? path = some shown)
    (hshown' : tree.shownAt? path' = some shown') (heq : nodes path = nodes path') :
    path = path' := by
  by_cases hpath : made path <;> by_cases hpath' : made path'
  · rw [hlaid.nodes_eq path hpath, hlaid.nodes_eq path' hpath'] at heq
    exact hlaid.injective
      (h.injective _ _ _ _ (hlaid.found hshown hpath) (hlaid.found hshown' hpath') heq)
  · have hold := (hlaid.root_of_not_made hpath').2
    exact absurd (heq ▸ hold) (Nat.not_lt.mpr (hlaid.fresh h hshown hpath).1)
  · have hold := (hlaid.root_of_not_made hpath).2
    exact absurd (heq ▸ hold) (Nat.not_lt.mpr (hlaid.fresh h hshown' hpath').1)
  · rw [(hlaid.root_of_not_made hpath).1, (hlaid.root_of_not_made hpath').1]

theorem Laid.contains_iff (hlinks : LinksWithin old) (hshown : tree.shownAt? path = some shown)
    (hpath : made path) (outer : NodeId) :
    new.Contains outer (nodes path) ↔
      (if path = [] then win else some (nodes path.dropLast)) = some outer := by
  rw [h.contains_iff, ← hlaid.around_eq path shown hshown hpath]
  constructor
  · rintro (hold | ⟨position, shown', hshown', houter, heq⟩)
    · exact absurd (hlinks _ _ hold).2 (Nat.not_lt.mpr (hlaid.fresh h hshown hpath).1)
    · rw [hlaid.nodes_eq path hpath] at heq
      rw [← h.injective _ _ _ _ hshown' (hlaid.found hshown hpath) heq]
      exact houter
  · intro houter
    exact .inr ⟨_, _, hlaid.found hshown hpath, houter, (hlaid.nodes_eq path hpath).symm⟩

theorem Laid.inside_iff (hlinks : LinksWithin old) (hshown : tree.shownAt? path = some shown)
    (hshown' : tree.shownAt? path' = some shown') (hpath' : made path') :
    new.Contains (nodes path) (nodes path') ↔ ∃ index, path' = path ++ [index] := by
  rw [hlaid.contains_iff h hlinks hshown' hpath']
  constructor
  · intro hinside
    rcases List.eq_nil_or_concat' path' with rfl | ⟨around, index, rfl⟩
    · -- the window is old, and what is made inside it is new
      rw [if_pos rfl] at hinside
      by_cases hpath : made path
      · exact absurd (hlaid.window_lt _ hinside) (Nat.not_lt.mpr (hlaid.fresh h hshown hpath).1)
      · exact absurd ((hlaid.root_of_not_made hpath).1 ▸ hpath') hpath
    · obtain ⟨shown'', hshown''⟩ := Option.isSome_iff_exists.mp
        (Element.isSome_shownAt?_of_append (Option.isSome_of_mem hshown'))
      rw [if_neg (by simp), List.dropLast_concat, Option.some.injEq] at hinside
      rw [hlaid.nodes_injective h hshown'' hshown hinside]
      exact ⟨index, rfl⟩
  · rintro ⟨index, rfl⟩
    simp

/-- What has been planted is a copy of a tree, if the tree is laid over what was pending. -/
theorem Copied.of_planted (hlinks : LinksWithin old) :
    Copied shape tree made win nodes old new where
  toDevelops := h.toDevelops
  fresh _ _ := hlaid.fresh h
  injective _ _ _ _ := hlaid.nodes_injective h
  only id hid hkind := by
    obtain ⟨_, shown, hshown, rfl⟩ := h.only id hid (NodeKind.isShown_of_isInflated hkind)
    obtain ⟨path, hpath, rfl⟩ := hlaid.exists_place _ _ hshown
    exact ⟨path, shown, (hlaid.at_eq path hpath).symm.trans hshown, hpath,
      hlaid.nodes_eq path hpath⟩
  kind_eq path shown hshown hpath := by
    rw [hlaid.nodes_eq path hpath]
    exact h.kind_eq _ _ (hlaid.found hshown hpath)
  name_eq path shown hshown hpath := by
    rw [hlaid.nodes_eq path hpath]
    exact h.name_eq _ _ (hlaid.found hshown hpath)
  inside _ _ _ _ := hlaid.inside_iff h hlinks
  parents _ _ := hlaid.contains_iff h hlinks
  kept id hid := by
    refine ⟨h.names_eq id hid, fun outer => ?_⟩
    rw [h.contains_iff]
    refine or_iff_left ?_
    rintro ⟨position, shown, hshown, _, rfl⟩
    exact absurd hid (Nat.not_lt.mpr (h.fresh position shown hshown).1)

end Laid

theorem Copied.apart {shape' : String → Element → NodeKind} {tree' : Element}
    {made' : List Nat → Prop} {win' : Option NodeId} {nodes' : List Nat → NodeId}
    {later latest : FlowGraph} (h : Copied shape tree made win nodes old new)
    (h' : Copied shape' tree' made' win' nodes' later latest)
    (hlater : new.nodes.size ≤ later.nodes.size) {path path' : List Nat}
    {shown shown' : String × Element} (hshown : tree.shownAt? path = some shown) (hpath : made path)
    (hshown' : tree'.shownAt? path' = some shown') (hpath' : made' path') :
    nodes path ≠ nodes' path' :=
  Nat.ne_of_lt (Nat.lt_of_lt_of_le (h.fresh path shown hshown hpath).2
    (Nat.le_trans hlater (h'.fresh path' shown' hshown' hpath').1))

/-! ## Layouts and menus -/

/-- Inflating a layout gives the node of its root and ends in a state with a copy of it, whose root
is in the window. -/
def CopiesLayout (ctx : Context) (v : ResId) (tree : Element) (win : Option NodeId)
    (s t : Progress Notes) (nodes : List Nat → NodeId) : Prop :=
  (inflateLayout ctx v win).outcome s = (.ok (tree.owner.map fun _ => nodes []), t) ∧
    Copied viewShape tree (fun _ => True) win nodes s.graph t.graph

/-- Inflating a menu ends in a state with a copy of it, where the menu stands for the root. -/
def CopiesMenu (ctx : Context) (v : ResId) (tree : Element) (self : NodeId)
    (s t : Progress Notes) (nodes : List Nat → NodeId) : Prop :=
  (inflateMenu ctx v self).outcome s = (.ok (), t) ∧ nodes [] = self ∧
    Copied itemShape tree (· ≠ []) none nodes s.graph t.graph

theorem copiesLayout (hwarn : s.policy.severity = .warn) (hlinks : LinksWithin s.graph)
    (htree : ctx.resources.layout? v = some tree) (hwindow : InGraph? s.graph win) :
    ∃ t nodes, CopiesLayout ctx v tree win s t nodes := by
  obtain ⟨root, t, houtcome, ⟨nodes, hplanted, rfl⟩, _⟩ :=
    (runs_inflateLayout htree hwindow).outcome hwarn
  refine ⟨t, fun path => nodes (0 :: path), houtcome, ?_⟩
  refine .of_planted hplanted {
    injective := List.cons_injective
    at_eq := fun path _ => by simp [Pending.at?]
    exists_place := fun position shown hshown => ?_
    nodes_eq := fun _ _ => rfl
    around_eq := fun path shown _ _ => by cases path <;> simp [Pending.around?]
    below_made := fun _ _ => trivial
    root_lt := fun hroot => absurd trivial hroot
    window_lt := hwindow } hlinks
  rcases position with _ | ⟨_ | index, path⟩
  · simp [Pending.at?] at hshown
  · exact ⟨path, trivial, rfl⟩
  · simp [Pending.at?] at hshown

theorem copiesMenu {self : NodeId} (hwarn : s.policy.severity = .warn)
    (hlinks : LinksWithin s.graph) (htree : ctx.resources.menu? v = some tree)
    (hself : self < s.graph.nodes.size) :
    ∃ t nodes, CopiesMenu ctx v tree self s t nodes := by
  obtain ⟨_, t, houtcome, ⟨nodes, hplanted⟩, _⟩ :=
    (runs_inflateMenu htree hself).outcome hwarn
  refine ⟨t, fun path => if path = [] then self else nodes path, houtcome, rfl, ?_⟩
  refine .of_planted hplanted {
    injective := Function.injective_id
    at_eq := fun path hpath => Pending.at?_next_nil hpath
    exists_place := fun position shown hshown => ?_
    nodes_eq := fun path hpath => if_neg hpath
    around_eq := fun path shown hshown hpath => ?_
    below_made := fun _ => id
    root_lt := fun _ => hself
    window_lt := by rintro _ ⟨⟩ } hlinks
  · refine ⟨position, ?_, rfl⟩
    rintro rfl
    simp [Pending.at?] at hshown
  · rw [id, Pending.around?_next_nil hshown hpath, if_neg hpath]

theorem inflation_mirrors_tree (hwarn : s.policy.severity = .warn)
    (hlinks : LinksWithin s.graph) :
    (∀ v tree win, ctx.resources.layout? v = some tree → InGraph? s.graph win →
      ∃ t nodes, CopiesLayout ctx v tree win s t nodes ∧
        ∀ win' later t' nodes', t.graph.nodes.size ≤ later.graph.nodes.size →
          CopiesLayout ctx v tree win' later t' nodes' →
            ∀ path path' shown shown', tree.shownAt? path = some shown →
              tree.shownAt? path' = some shown' → nodes path ≠ nodes' path') ∧
    (∀ v tree self, ctx.resources.menu? v = some tree → self < s.graph.nodes.size →
      ∃ t nodes, CopiesMenu ctx v tree self s t nodes ∧
        ∀ self' later t' nodes', t.graph.nodes.size ≤ later.graph.nodes.size →
          CopiesMenu ctx v tree self' later t' nodes' →
            ∀ path path' shown shown', path ≠ [] → path' ≠ [] → tree.shownAt? path = some shown →
              tree.shownAt? path' = some shown' → nodes path ≠ nodes' path') := by
  constructor
  · intro v tree win htree hwindow
    obtain ⟨t, nodes, hcopies⟩ := copiesLayout hwarn hlinks htree hwindow
    refine ⟨t, nodes, hcopies, ?_⟩
    intro win' later t' nodes' hlater hcopies' path path' shown shown' hshown hshown'
    exact hcopies.2.apart hcopies'.2 hlater hshown trivial hshown' trivial
  · intro v tree self htree hself
    obtain ⟨t, nodes, hcopies⟩ := copiesMenu hwarn hlinks htree hself
    refine ⟨t, nodes, hcopies, ?_⟩
    intro self' later t' nodes' hlater hcopies' path path' shown shown' hpath hpath' hshown
      hshown'
    exact hcopies.2.2.apart hcopies'.2.2 hlater hshown hpath hshown' hpath'

/-! ## A sample shelf -/

namespace Sample

/-- A shelf with a label that has a known identifier, a part without a class that hides what it
contains, and a box with an identifier that is not known. -/
def shelf : Element where
  owner := some "Shelf"
  children := [
    { owner := some "Label", id := some 5 },
    { children := [{ owner := some "Hidden" }] },
    { owner := some "Box", id := some 6 }]

def shelfMenu : Element where
  owner := some "Menu"
  children := [{ owner := some "Item", attrs := [("title", "Tidy")] }]

def shelfContext : Context where
  scene := {}
  hierarchy := {}
  resources := {
    layouts := ({} : Trees).insert 1 shelf
    menus := ({} : Trees).insert 2 shelfMenu }

/-- An activity, its options menu and an identifier. -/
def shelfStart : Progress Notes where
  graph := { nodes := #[⟨.activity "Main", none⟩, ⟨.optionsMenu "Main", none⟩,
    ⟨.id .widget 5, none⟩] }
  policy := { severity := .warn }
  notes := {}

end Sample

/-- In the activity, the shelf contains the label and the box, of which only the label has a name,
and what the part without a class contains is left out. In the menu there is the item. -/
theorem inflation_mirrors_tree_shelf :
    (∃ t nodes, CopiesLayout Sample.shelfContext 1 Sample.shelf (some 0) Sample.shelfStart t
        nodes ∧
      t.graph.Contains 0 (nodes []) ∧ t.graph.Contains (nodes []) (nodes [0]) ∧
      t.graph.Contains (nodes []) (nodes [2]) ∧ t.graph.idOf? (nodes [0]) = some 2 ∧
      t.graph.idOf? (nodes [2]) = none ∧ t.graph.kind (nodes [2]) = .view "Box" ∧
      Sample.shelf.shownAt? [1, 0] = none) ∧
    ∃ t nodes, CopiesMenu Sample.shelfContext 2 Sample.shelfMenu 1 Sample.shelfStart t nodes ∧
      t.graph.Contains 1 (nodes [0]) ∧
      t.graph.kind (nodes [0]) = .menuItem "Item" [("title", "Tidy")] := by
  have hlinks : LinksWithin Sample.shelfStart.graph := by
    intro outer inner h
    simp [Contains, Sample.shelfStart] at h
  have hlayout : Sample.shelfContext.resources.layout? 1 = some Sample.shelf := by
    simp [ResourceTable.layout?, Sample.shelfContext]
  have hmenu : Sample.shelfContext.resources.menu? 2 = some Sample.shelfMenu := by
    simp [ResourceTable.menu?, Sample.shelfContext]
  have hwindow : InGraph? Sample.shelfStart.graph (some 0) := by
    rintro _ ⟨⟩
    decide
  obtain ⟨hlayouts, hmenus⟩ := inflation_mirrors_tree rfl hlinks
  constructor
  · obtain ⟨t, nodes, hcopies, _⟩ := hlayouts 1 _ (some 0) hlayout hwindow
    have hcopied := hcopies.2
    refine ⟨t, nodes, hcopies, ?_, ?_, ?_, ?_, ?_, ?_, rfl⟩
    · exact (hcopied.parents [] _ rfl trivial 0).mpr rfl
    · exact (hcopied.inside [] _ [0] _ rfl rfl trivial).mpr ⟨0, rfl⟩
    · exact (hcopied.inside [] _ [2] _ rfl rfl trivial).mpr ⟨2, rfl⟩
    · exact (hcopied.name_eq [0] _ rfl trivial).trans (by decide +kernel)
    · exact (hcopied.name_eq [2] _ rfl trivial).trans (by decide +kernel)
    · exact hcopied.kind_eq [2] _ rfl trivial
  · obtain ⟨t, nodes, hcopies, _⟩ := hmenus 2 _ 1 hmenu (by decide)
    have hcopied := hcopies.2.2
    refine ⟨t, nodes, hcopies, ?_, hcopied.kind_eq [0] _ rfl (by simp)⟩
    exact hcopies.2.1 ▸ (hcopied.inside [] _ [0] _ rfl rfl (by simp)).mpr ⟨0, rfl⟩

end WidgetFlow.Solving
