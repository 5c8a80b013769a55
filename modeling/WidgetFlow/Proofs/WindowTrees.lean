import Mathlib.Data.List.Perm.Subperm
import WidgetFlow.Proofs.Graph.Reach
import WidgetFlow.Proofs.Outcome
import WidgetFlow.WindowTree.Builder

/-!
# What window trees show

A view tree tells nothing about the nodes that it shows. `NodeTree` is the same unfolding with the
nodes themselves, and a view tree is one of these trees with every node replaced by its view
(`viewTree?_eq`).

A tree shows exactly the nodes that can be reached from its root by going into what a node contains
and into its context menus, where a menu item is not gone into (`mem_nodes_iff`). So an options menu
shows all of its items but those inside other items (`options_menu_shows`), such as the items of a
group (`options_menu_drops_grouped_item`).
-/

namespace WidgetFlow

/-- A node with the trees of what it contains and of its context menus. -/
structure NodeTree where
  node : NodeId
  inside : List NodeTree
  menus : List NodeTree

variable {tree : NodeTree}

namespace NodeTree

mutual

def nodes : NodeTree → List NodeId
  | ⟨n, inside, menus⟩ => n :: (nodesAll inside ++ nodesAll menus)

def nodesAll : List NodeTree → List NodeId
  | [] => []
  | tree :: rest => tree.nodes ++ nodesAll rest

end

theorem mem_nodesAll {trees : List NodeTree} {n : NodeId} :
    n ∈ nodesAll trees ↔ ∃ tree ∈ trees, n ∈ tree.nodes := by
  induction trees with
  | nil => simp [nodesAll]
  | cons first rest ih => simp [nodesAll, ih]

theorem mem_nodes {n : NodeId} :
    n ∈ tree.nodes ↔ n = tree.node ∨ ∃ below ∈ tree.inside ++ tree.menus,
      n ∈ below.nodes := by
  obtain ⟨root, inside, menus⟩ := tree
  rw [nodes, List.mem_cons, List.mem_append, mem_nodesAll, mem_nodesAll]
  simp only [List.mem_append, or_and_right, exists_or]

end NodeTree

namespace Outcome

open FlowGraph

variable {out : Outcome} {activity : Option String} {n inner : NodeId} {bound : Nat}
  {path : List NodeId}

/-! ## Trees of nodes -/

/-- A node is shown below another one, which contains it or has it as a context menu. Nothing is
shown below menu items. -/
def Shows (out : Outcome) (outer inner : NodeId) : Prop :=
  out.isItem outer = false ∧
    (out.graph.Contains outer inner ∨ inner ∈ out.contextMenus outer)

def shownBelow (out : Outcome) (n : NodeId) (below : List NodeId) : List NodeId :=
  if out.isItem n then [] else below

/-- The tree of a node below the nodes of `path`, which are left out. -/
def nodeTree? (out : Outcome) : Nat → List NodeId → NodeId → Option NodeTree
  | 0, _, _ => none
  | bound + 1, path, n =>
    if !(out.graph.kind n).isObject || path.contains n then none
    else
      let unfold := nodeTree? out bound (n :: path)
      some
        { node := n
          inside := (out.shownBelow n (out.graph.children n)).filterMap unfold
          menus := (out.shownBelow n (out.contextMenus n)).filterMap unfold }

def nodeTree (out : Outcome) (n : NodeId) : Option NodeTree :=
  out.nodeTree? (out.graph.nodes.size + 1) [] n

/-! ## Trees of views -/

mutual

def render (out : Outcome) (activity : Option String) : NodeTree → ViewTree
  | ⟨n, inside, menus⟩ =>
    let (id, idName) := out.shownId n
    { owner := (out.graph.kind n).owner?.getD "?", id, idName
      views := renderAll out activity inside ++
        (renderAll out activity menus).map
          (out.withItemHandlers (out.contextHandlers activity))
      events := if out.isItem n || id ≠ -1 then out.handledEvents n else [] }

def renderAll (out : Outcome) (activity : Option String) : List NodeTree → List ViewTree
  | [] => []
  | tree :: rest => render out activity tree :: renderAll out activity rest

end

theorem renderAll_eq (trees : List NodeTree) :
    out.renderAll activity trees = trees.map (out.render activity) := by
  induction trees with
  | nil => rfl
  | cons first rest ih => rw [renderAll, ih, List.map_cons]

theorem viewTree?_eq (bound : Nat) (path : List NodeId) (n : NodeId) :
    out.viewTree? activity bound path n =
      (out.nodeTree? bound path n).map (out.render activity) := by
  induction bound generalizing path n with
  | zero => rfl
  | succ bound ih =>
    have hunfold : out.viewTree? activity bound (n :: path) = fun inner =>
        (out.nodeTree? bound (n :: path) inner).map (out.render activity) :=
      funext fun inner => ih (n :: path) inner
    unfold viewTree? nodeTree?
    dsimp only
    split
    · rfl
    · rw [hunfold, Option.map_some, render, renderAll_eq, renderAll_eq]
      unfold shownBelow contextHandlers
      cases hitem : out.isItem n <;> cases activity <;> simp [List.map_filterMap]

/-! ## What a tree shows -/

theorem mem_shownBelow {below : List NodeId} :
    inner ∈ out.shownBelow n below ↔ out.isItem n = false ∧ inner ∈ below := by
  unfold shownBelow
  cases out.isItem n <;> simp

theorem shows_iff {outer : NodeId} :
    out.Shows outer inner ↔
      inner ∈ out.shownBelow outer (out.graph.children outer) ∨
        inner ∈ out.shownBelow outer (out.contextMenus outer) := by
  rw [mem_shownBelow, mem_shownBelow, mem_children, Shows, and_or_left]

/-- A tree has its node as the root, and below it the trees of what is shown there. -/
theorem nodeTree?_succ (h : out.nodeTree? (bound + 1) path n = some tree) :
    tree.node = n ∧ ∀ below, below ∈ tree.inside ++ tree.menus ↔
      ∃ inner, out.Shows n inner ∧
        out.nodeTree? bound (n :: path) inner = some below := by
  unfold nodeTree? at h
  split at h
  next => cases h
  next =>
    cases h
    refine ⟨rfl, fun below => ?_⟩
    simp only [List.mem_append, List.mem_filterMap, shows_iff, or_and_right, exists_or]

theorem shows_of_mem_nodes (h : out.nodeTree? bound path n = some tree)
    (hinner : inner ∈ tree.nodes) : Relation.ReflTransGen out.Shows n inner := by
  induction bound generalizing path n tree with
  | zero => cases h
  | succ bound ih =>
    obtain ⟨hroot, hbelow⟩ := nodeTree?_succ h
    rcases NodeTree.mem_nodes.mp hinner with rfl | ⟨below, hmem, hinner⟩
    · exact hroot ▸ .refl
    · obtain ⟨next, hshows, hnext⟩ := (hbelow below).mp hmem
      exact .head hshows (ih hnext hinner)

/-- A way from a node that keeps out of a path ends at the node, or it leaves the node for the last
time and keeps out of it from then on. -/
theorem exists_last_departure
    (h : Relation.ReflTransGen (fun outer inner => out.Shows outer inner ∧ inner ∉ path)
      n inner) :
    inner = n ∨ ∃ next, out.Shows n next ∧ next ∉ n :: path ∧
      Relation.ReflTransGen (fun outer inner => out.Shows outer inner ∧ inner ∉ n :: path)
        next inner := by
  induction h with
  | refl => exact .inl rfl
  | @tail outer inner _ hstep ih =>
    by_cases hinner : inner = n
    · exact .inl hinner
    have hout : inner ∉ n :: path := List.not_mem_cons_of_ne_of_not_mem hinner hstep.2
    rcases ih with rfl | ⟨next, hshows, hnext, hway⟩
    · exact .inr ⟨inner, hstep.1, hout, .refl⟩
    · exact .inr ⟨next, hshows, hnext, hway.tail ⟨hstep.1, hout⟩⟩

section WellFormed

variable (hwell : out.graph.WellFormed)
include hwell

theorem hasObject_of_shows {outer : NodeId} (h : out.Shows outer inner) :
    out.graph.HasObject inner := by
  rcases h.2 with hlink | hmenu
  · exact (hwell.link_ends _ hlink).1
  · exact Solving.hasObject_of_isMenu
      (NodeKind.isMenu_of_isContextMenu (Solving.mem_contextMenus (List.mem_of_mem_filter hmenu)))

/-- Whatever can be reached without coming back to the path is in the tree. -/
theorem mem_nodes_of_shows (hnode : out.graph.HasObject n) (hnodup : path.Nodup)
    (hpath : ∀ id ∈ path, id < out.graph.nodes.size) (hout : n ∉ path)
    (hbound : out.graph.nodes.size < path.length + bound)
    (h : Relation.ReflTransGen (fun outer inner => out.Shows outer inner ∧ inner ∉ path)
      n inner) :
    ∃ tree, out.nodeTree? bound path n = some tree ∧ inner ∈ tree.nodes := by
  induction bound generalizing path n with
  | zero =>
    have hlength : path.length ≤ (List.range out.graph.nodes.size).length :=
      (List.subperm_of_subset hnodup fun id hid => List.mem_range.mpr (hpath id hid)).length_le
    rw [List.length_range] at hlength
    exact absurd hbound (Nat.not_lt.mpr hlength)
  | succ bound ih =>
    obtain ⟨tree, htree⟩ : ∃ tree, out.nodeTree? (bound + 1) path n = some tree := by
      unfold nodeTree?
      rw [if_neg (by simpa [hout, HasObject] using hnode)]
      exact ⟨_, rfl⟩
    obtain ⟨hroot, hbelow⟩ := nodeTree?_succ htree
    refine ⟨tree, htree, NodeTree.mem_nodes.mpr ?_⟩
    rcases exists_last_departure h with rfl | ⟨next, hshows, hnext, hway⟩
    · exact .inl hroot.symm
    · have hsize := lt_size_of_isObject hnode
      obtain ⟨below, hunfold, hinner⟩ := ih (hasObject_of_shows hwell hshows)
        (List.nodup_cons.mpr ⟨hout, hnodup⟩) (List.forall_mem_cons.mpr ⟨hsize, hpath⟩) hnext
        (by simp only [List.length_cons]; omega) hway
      exact .inr ⟨below, (hbelow below).mpr ⟨next, hshows, hunfold⟩, hinner⟩

theorem mem_nodes_iff (hnode : out.graph.HasObject n) :
    ∃ tree, out.nodeTree n = some tree ∧
      ∀ inner, inner ∈ tree.nodes ↔ Relation.ReflTransGen out.Shows n inner := by
  have hcomplete : ∀ inner, Relation.ReflTransGen out.Shows n inner →
      ∃ tree, out.nodeTree n = some tree ∧ inner ∈ tree.nodes := by
    intro inner h
    refine mem_nodes_of_shows hwell hnode List.nodup_nil nofun List.not_mem_nil (by simp) ?_
    exact Relation.ReflTransGen.mono (fun _ _ hstep => ⟨hstep, List.not_mem_nil⟩) _ _ h
  obtain ⟨tree, htree, _⟩ := hcomplete n .refl
  refine ⟨tree, htree, fun inner => ⟨shows_of_mem_nodes htree, fun h => ?_⟩⟩
  obtain ⟨other, hother, hinner⟩ := hcomplete inner h
  cases htree.symm.trans hother
  exact hinner

end WellFormed

end Outcome

/-! ## A sample menu -/

namespace Sample

/-- A program with one activity that fills its options menu from a resource. -/
def notebook : Scene where
  classes := [{ name := "app.Main", superclass := some "android.app.Activity" }]
  methods := #[{
    sig := {
      owner := "app.Main", result := .boolean, name := "onCreateOptionsMenu"
      params := [.ref "android.view.Menu"] }
    locals := .ofList [("this", Ty.ref "app.Main"), ("menu", .ref "android.view.Menu"),
      ("inflater", .ref "android.view.MenuInflater")]
    body := [
      .identity "this" .this,
      .identity "menu" (.parameter 0),
      .call (call "inflater" "android.view.MenuInflater" "inflate" .void
        [.int, .ref "android.view.Menu"] [.int 5, .var "menu"])] }]

/-- The menu has an item and a group, and the group has another item. -/
def grouped : Context where
  scene := notebook
  hierarchy := {
    classes := Hierarchy.enter
      (Hierarchy.enter {} [
        { name := "android.app.Activity" },
        { name := "android.view.Menu", isInterface := true },
        { name := "android.view.MenuInflater" }])
      (notebook.classes.map (.ofDecl notebook))
    application := ["app.Main"] }
  resources :=
    ((ResourceTable.addId { sys := {}, sysLayouts := {} } .id "open" 42).addId .id "close" 43).addMenu
      "main" 5 {
        owner := some "android.view.Menu"
        children := [
          { owner := some "android.view.MenuItem", id := some 42 },
          { owner := some "android.view.ViewGroup"
            children := [{ owner := some "android.view.MenuItem", id := some 43 }] }] }

/-- What the analysis finds. Node 3 is the activity and 4 its menu, 8 is the item and 9 the group in
the menu, and 10 is the item in the group. -/
def Filled (out : Outcome) : Prop :=
  (("app.Main", 3) ∈ out.graph.activities ∧ out.optionsMenu? "app.Main" = some 4) ∧
    (out.isItem 4 = false ∧ out.isItem 8 ∧ out.isItem 10) ∧
    (8 ∈ out.graph.children 4 ∧ 10 ∈ out.graph.descendants 4) ∧
    (out.nodeTree 4).map NodeTree.nodes = some [4, 8, 9]

instance (out : Outcome) : Decidable (Filled out) :=
  inferInstanceAs (Decidable (_ ∧ _))

theorem grouped_analyzed : ∃ out, grouped.analyze = .ok out ∧ Filled out :=
  Context.exists_outcome (by decide +kernel)

end Sample

namespace Outcome

open Platform

variable {out : Outcome} {owner : String} {menu : NodeId}

/-! ## Options menus -/

/-- The window of an activity shows a node in the tree of its options menu. -/
def ShownInMenu (out : Outcome) (owner : String) (menu n : NodeId) : Prop :=
  ∃ tree, out.nodeTree menu = some tree ∧ n ∈ tree.nodes ∧
    out.withItemHandlers
        (out.methodsFor owner [Method.onMenuItemSelected, Method.onOptionsItemSelected])
        (out.render (some owner) tree) ∈ (out.activityTree owner).views ∧
    out.activityTree owner ∈ out.appTree.activities

theorem hasObject_of_optionsMenu? (h : out.optionsMenu? owner = some menu) :
    out.graph.HasObject menu := by
  have hkey := (FlowGraph.find?_some h).2
  unfold FlowGraph.HasObject
  cases hkind : out.graph.kind menu <;> simp_all [NodeKind.key?, NodeKind.isObject]

theorem mem_views_activityTree (hmenu : out.optionsMenu? owner = some menu)
    (htree : out.nodeTree menu = some tree) :
    out.withItemHandlers
        (out.methodsFor owner [Method.onMenuItemSelected, Method.onOptionsItemSelected])
        (out.render (some owner) tree) ∈ (out.activityTree owner).views := by
  have hview : out.viewTree (some owner) menu = some (out.render (some owner) tree) := by
    rw [viewTree, viewTree?_eq]
    exact congrArg (Option.map _) htree
  refine List.mem_append_right _ (List.mem_map_of_mem ?_)
  rw [hmenu, Option.bind_some, hview]
  exact List.mem_cons_self

/-- The window of an activity shows exactly those nodes in the tree of its options menu that can be
reached from the menu without going into a menu item. In particular it shows all items of the menu
that are not inside other items. -/
theorem options_menu_shows {ctx : Context} {out : Outcome} (h : ctx.analyze = .ok out)
    {owner : String} {activity menu : NodeId}
    (hactivity : (owner, activity) ∈ out.graph.activities)
    (hmenu : out.optionsMenu? owner = some menu) (n : NodeId) :
    out.ShownInMenu owner menu n ↔ Relation.ReflTransGen out.Shows menu n := by
  obtain ⟨st, hstate⟩ := analyzed h
  have hwell : out.graph.WellFormed := hstate.graph_eq ▸ hstate.sound.wellFormed
  obtain ⟨tree, htree, hshown⟩ := mem_nodes_iff hwell (hasObject_of_optionsMenu? hmenu)
  rw [← hshown]
  constructor
  · rintro ⟨other, hother, hnode, _⟩
    cases htree.symm.trans hother
    exact hnode
  · intro hnode
    refine ⟨tree, htree, hnode, mem_views_activityTree hmenu htree, ?_⟩
    exact List.mem_map.mpr ⟨(owner, activity), hactivity, rfl⟩

theorem options_menu_shows_item :
    ∃ out, Sample.grouped.analyze = .ok out ∧
      ("app.Main", 3) ∈ out.graph.activities ∧ out.optionsMenu? "app.Main" = some 4 ∧
        out.isItem 8 ∧ out.ShownInMenu "app.Main" 4 8 := by
  obtain ⟨out, h, ⟨hactivity, hmenu⟩, ⟨hmenuKind, hitem, _⟩, ⟨hchild, _⟩, _⟩ :=
    Sample.grouped_analyzed
  refine ⟨out, h, hactivity, hmenu, hitem, ?_⟩
  refine (options_menu_shows h hactivity hmenu 8).mpr (.single ⟨hmenuKind, .inl ?_⟩)
  exact FlowGraph.mem_children.mp hchild

theorem options_menu_drops_grouped_item :
    ¬ ∀ (ctx : Context) (out : Outcome), ctx.analyze = .ok out →
      ∀ owner activity menu item, (owner, activity) ∈ out.graph.activities →
        out.optionsMenu? owner = some menu → out.isItem item →
          item ∈ out.graph.descendants menu → out.ShownInMenu owner menu item := by
  intro hall
  obtain ⟨out, h, ⟨hactivity, hmenu⟩, ⟨_, _, hitem⟩, ⟨_, hbelow⟩, hnodes⟩ :=
    Sample.grouped_analyzed
  obtain ⟨tree, htree, hshown, _⟩ :=
    hall Sample.grouped out h "app.Main" 3 4 10 hactivity hmenu hitem hbelow
  rw [htree, Option.map_some, Option.some.injEq] at hnodes
  rw [hnodes] at hshown
  exact absurd hshown (by decide)

end Outcome

end WidgetFlow
