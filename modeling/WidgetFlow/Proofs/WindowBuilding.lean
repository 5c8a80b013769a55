import WidgetFlow.Proofs.WindowTrees

/-!
# What building windows does

One builder builds the windows of an application one after the other, and what it notes on the way
could get from one window into the next. It does not: whatever a builder is inside of when it
starts on a node, it is inside of the same nodes when it is done (`restores_buildTree`). The depth
to which it may go is never reached, because it is inside one node more at each level
(`run_buildView_of_vacant_lt`). So the trees satisfy the equation of an unfolding without any bound
(`run_buildTree`), every window is what a builder of its own would build, and the windows are those
of `Outcome.appTree` (`builtApp_eq`).
-/

namespace WidgetFlow

/-! ## Builders -/

namespace TreeBuilding

variable {α β γ : Type} {builder : TreeBuilder}

def Restores (part : TreeBuilding α) : Prop :=
  ∀ builder, (part.run builder).2 = builder

theorem run_filterMapM {part : α → TreeBuilding (Option β)} (hpart : ∀ item, Restores (part item))
    (items : List α) :
    (items.filterMapM part).run builder =
      (items.filterMap fun item => ((part item).run builder).1, builder) := by
  induction items with
  | nil => rfl
  | cons item rest ih =>
    have hrun : (part item).run builder = (((part item).run builder).1, builder) :=
      Prod.ext rfl (hpart item builder)
    rw [List.filterMapM_cons, StateT.run_bind, hrun, List.filterMap_cons]
    cases ((part item).run builder).1 with
    | none => exact ih
    | some found =>
      show (List.filterMapM part rest >>= fun others => pure (found :: others)).run builder = _
      rw [StateT.run_bind, ih]
      rfl

theorem run_mapM {part : α → TreeBuilding β} {v : α → β} (kind : TreeBuilder → Prop)
    (hpart : ∀ item builder, kind builder →
      ∃ after, (part item).run builder = (v item, after) ∧ kind after)
    (items : List α) (hbuilder : kind builder) :
    ∃ after, (items.mapM part).run builder = (items.map v, after) ∧ kind after := by
  induction items generalizing builder with
  | nil => exact ⟨builder, rfl, hbuilder⟩
  | cons item rest ih =>
    obtain ⟨next, hitem, hnext⟩ := hpart item builder hbuilder
    obtain ⟨last, hrest, hlast⟩ := ih hnext
    refine ⟨last, ?_, hlast⟩
    rw [List.mapM_cons, StateT.run_bind, hitem]
    show (List.mapM part rest >>= fun values => pure (v item :: values)).run next = _
    rw [StateT.run_bind, hrest]
    rfl

end TreeBuilding

namespace TreeBuilder

variable {builder : TreeBuilder} {n : NodeId}

theorem mem_enter {id : NodeId} :
    id ∈ (builder.enter n).visiting ↔ id = n ∨ id ∈ builder.visiting := by
  rw [enter, Std.ExtTreeSet.mem_insert, Nat.compare_eq_eq, eq_comm]

/-- Going into a node and coming back changes nothing. -/
theorem leave_enter (h : n ∉ builder.visiting) : (builder.enter n).leave n = builder := by
  have hvisiting : (builder.visiting.insert n).erase n = builder.visiting := by
    refine Std.ExtTreeSet.ext_mem fun id => ?_
    by_cases hid : n = id
    · simp [← hid, h]
    · simp [hid]
  rw [leave, enter, hvisiting]

end TreeBuilder

namespace Outcome

open FlowGraph TreeBuilding

variable {out : Outcome} {builder : TreeBuilder} {n : NodeId} {bound : Nat}

/-- The views below a node in its tree, where the trees of nodes are given. -/
def viewsBelow (out : Outcome) (activity : Option String) (below : NodeId → Option ViewTree)
    (n : NodeId) : List ViewTree :=
  if out.isItem n then [] else
    (out.graph.children n).filterMap below ++
      ((out.contextMenus n).filterMap below).map
        (out.withItemHandlers (out.contextHandlers activity))

/-- A builder does not go into what is no object or what it is inside of. -/
def Enters (out : Outcome) (builder : TreeBuilder) (n : NodeId) : Prop :=
  out.graph.HasObject n ∧ n ∉ builder.visiting

/-! ## Single trees -/

theorem enters_iff :
    out.Enters builder n ↔
      (!(out.graph.kind n).isObject || builder.visiting.contains n) = false := by
  rw [Enters, HasObject, Bool.or_eq_false_iff, Bool.not_eq_false', ← Std.ExtTreeSet.contains_iff_mem,
    Bool.not_eq_true]

theorem run_buildView_of_not_enters (h : ¬ out.Enters builder n) :
    (out.buildView bound n).run builder = (none, builder) := by
  cases bound with
  | zero => rfl
  | succ bound =>
    rw [enters_iff, Bool.not_eq_false] at h
    rw [buildView, StateT.run_bind]
    show StateT.run (ite ((_ || builder.visiting.contains n) = true) _ _) builder = _
    rw [if_pos h]
    rfl

theorem run_buildBelow {build : NodeId → TreeBuilding (Option ViewTree)}
    (hbuild : ∀ inner, Restores (build inner)) :
    (out.buildBelow build n).run builder =
      (out.viewsBelow builder.activity (fun inner => ((build inner).run builder).1) n,
        builder) := by
  unfold buildBelow viewsBelow
  cases out.isItem n with
  | true => rfl
  | false =>
    rw [if_neg Bool.false_ne_true, if_neg Bool.false_ne_true, StateT.run_bind,
      run_filterMapM hbuild]
    show StateT.run ((out.contextMenus n).filterMapM build >>= _) builder = _
    rw [StateT.run_bind, run_filterMapM hbuild]
    rfl

/-- What a builder does with a node that it goes into, if it comes back from the nodes below. -/
theorem run_buildView_succ (h : out.Enters builder n)
    (hbelow : ∀ inner, Restores (out.buildView bound inner)) :
    (out.buildView (bound + 1) n).run builder =
      (some (out.viewOf n (out.viewsBelow builder.activity
        (fun inner => ((out.buildView bound inner).run (builder.enter n)).1) n)),
        builder) := by
  rw [buildView, StateT.run_bind]
  show StateT.run (ite ((_ || builder.visiting.contains n) = true) _ _) builder = _
  rw [if_neg (Bool.eq_false_iff.mp (enters_iff.mp h)), StateT.run_bind]
  show StateT.run (out.buildBelow (out.buildView bound) n >>= _) (builder.enter n) = _
  rw [StateT.run_bind, run_buildBelow hbelow]
  show (_, (builder.enter n).leave n) = _
  rw [TreeBuilder.leave_enter h.2]
  rfl

/-- A builder comes back from every node, to any depth. -/
theorem restores_buildView (bound : Nat) (n : NodeId) :
    Restores (out.buildView bound n) := by
  induction bound generalizing n with
  | zero => exact fun _ => rfl
  | succ bound ih =>
    intro builder
    by_cases h : out.Enters builder n
    · rw [run_buildView_succ h ih]
    · rw [run_buildView_of_not_enters h]

theorem restores_buildTree (n : NodeId) : Restores (out.buildTree n) :=
  restores_buildView _ n

/-! ## Depth -/

/-- The number of nodes that a builder is not inside of. -/
def vacant (out : Outcome) (builder : TreeBuilder) : Nat :=
  (out.graph.nodeIds.filter fun id => id ∉ builder.visiting).length

/-- Going into a node leaves one node less to go into. -/
theorem vacant_enter_lt (h : out.Enters builder n) :
    out.vacant (builder.enter n) < out.vacant builder := by
  have hfilter : (out.graph.nodeIds.filter fun id => id ∉ (builder.enter n).visiting) =
      (out.graph.nodeIds.filter fun id => id ∉ builder.visiting).filter (· ≠ n) := by
    simp only [List.filter_filter, TreeBuilder.mem_enter, not_or, Bool.decide_and]
  rw [vacant, hfilter, vacant, List.length_filter_lt_length_iff_exists]
  have hnode : n ∈ out.graph.nodeIds := List.mem_range.mpr (lt_size_of_isObject h.1)
  exact ⟨n, List.mem_filter.mpr ⟨hnode, by simpa using h.2⟩, by simp⟩

/-- Depth beyond the number of nodes to go into makes no difference. -/
theorem run_buildView_of_vacant_lt {deeper : Nat} (hbound : out.vacant builder < bound)
    (hdeeper : out.vacant builder < deeper) :
    (out.buildView bound n).run builder = (out.buildView deeper n).run builder := by
  induction bound generalizing deeper builder n with
  | zero => exact absurd hbound (Nat.not_lt_zero _)
  | succ bound ih =>
    obtain ⟨deeper, rfl⟩ : ∃ less, deeper = less + 1 := Nat.exists_eq_add_one.mpr (by omega)
    by_cases h : out.Enters builder n
    · have hless := vacant_enter_lt h
      have hbelow : ∀ inner, (out.buildView bound inner).run (builder.enter n) =
          (out.buildView deeper inner).run (builder.enter n) :=
        fun inner => ih (by omega) (by omega)
      rw [run_buildView_succ h (restores_buildView bound),
        run_buildView_succ h (restores_buildView deeper)]
      simp only [hbelow]
    · rw [run_buildView_of_not_enters h, run_buildView_of_not_enters h]

theorem vacant_le (out : Outcome) (builder : TreeBuilder) :
    out.vacant builder ≤ out.graph.nodes.size := by
  refine (List.length_filter_le _ _).trans ?_
  rw [nodeIds, List.length_range]

/-- The tree of a node that can be gone into has the trees below it, without any bound. -/
theorem run_buildTree (h : out.Enters builder n) :
    (out.buildTree n).run builder =
      (some (out.viewOf n (out.viewsBelow builder.activity
        (fun inner => ((out.buildTree inner).run (builder.enter n)).1) n)), builder) := by
  have hless := vacant_enter_lt h
  have hsize := out.vacant_le builder
  have hbelow : ∀ inner, (out.buildView out.graph.nodes.size inner).run (builder.enter n) =
      (out.buildTree inner).run (builder.enter n) :=
    fun inner => run_buildView_of_vacant_lt (by omega) (by omega)
  rw [buildTree, run_buildView_succ h (restores_buildView _)]
  simp only [hbelow]

theorem isSome_buildTree : ((out.buildTree n).run builder).1.isSome ↔
    out.Enters builder n := by
  by_cases h : out.Enters builder n
  · rw [run_buildTree h]
    exact iff_of_true rfl h
  · rw [buildTree, run_buildView_of_not_enters h]
    exact iff_of_false Bool.false_ne_true h

/-! ## Windows -/

/-- The tree of a node in one step, with the nodes that are left out. -/
theorem viewTree?_succ {activity : Option String} {path : List NodeId} :
    out.viewTree? activity (bound + 1) path n =
      if !(out.graph.kind n).isObject || path.contains n then none
      else some (out.viewOf n
        (out.viewsBelow activity (out.viewTree? activity bound (n :: path)) n)) := by
  cases activity <;> rfl

/-- What is built is the unfolding below the nodes that the builder is inside of. -/
theorem run_buildView_eq {path : List NodeId} (hpath : ∀ id, id ∈ path ↔ id ∈ builder.visiting) :
    (out.buildView bound n).run builder =
      (out.viewTree? builder.activity bound path n, builder) := by
  induction bound generalizing path n builder with
  | zero => rfl
  | succ bound ih =>
    have hcontains : path.contains n = builder.visiting.contains n := by
      rw [Bool.eq_iff_iff, List.contains_iff_mem, Std.ExtTreeSet.contains_iff_mem, hpath]
    rw [viewTree?_succ, hcontains]
    by_cases h : out.Enters builder n
    · have hbelow : ∀ inner, (out.buildView bound inner).run (builder.enter n) =
          (out.viewTree? builder.activity bound (n :: path) inner, builder.enter n) := by
        refine fun inner => ih fun id => ?_
        rw [List.mem_cons, TreeBuilder.mem_enter, hpath]
      rw [run_buildView_succ h (restores_buildView bound), if_neg]
      · simp only [hbelow]
      · exact Bool.eq_false_iff.mp (enters_iff.mp h)
    · rw [run_buildView_of_not_enters h, if_pos]
      exact Bool.of_not_eq_false (enters_iff.not.mp h)

theorem run_buildTree_eq (h : builder.visiting = {}) :
    ((out.buildTree n).run builder).1 = out.viewTree builder.activity n := by
  have hpath : ∀ id, id ∈ ([] : List NodeId) ↔ id ∈ builder.visiting := by simp [h]
  rw [buildTree, run_buildView_eq hpath]
  rfl

theorem run_filterMapM_buildTree (nodes : List NodeId) (h : builder.visiting = {}) :
    (nodes.filterMapM out.buildTree).run builder =
      (nodes.filterMap (out.viewTree builder.activity), builder) := by
  rw [run_filterMapM restores_buildTree]
  simp only [run_buildTree_eq h]

theorem run_buildActivity (owner : String) (h : builder.visiting = {}) :
    (out.buildActivity owner).run builder =
      (out.activityTree owner, { builder with activity := some owner }) := by
  let inside : TreeBuilder := { builder with activity := some owner }
  have hinside : inside.visiting = {} := h
  have hmenus : (out.optionsMenu? owner).toList.filterMap (out.viewTree (some owner)) =
      ((out.optionsMenu? owner).bind (out.viewTree (some owner))).toList := by
    cases out.optionsMenu? owner with
    | none => rfl
    | some menu => cases htree : out.viewTree (some owner) menu <;> simp [htree]
  rw [buildActivity, StateT.run_bind]
  show StateT.run ((out.activityRoots owner).filterMapM out.buildTree >>= _) inside = _
  rw [StateT.run_bind, run_filterMapM_buildTree _ hinside]
  show StateT.run ((out.optionsMenu? owner).toList.filterMapM out.buildTree >>= _) inside = _
  rw [StateT.run_bind, run_filterMapM_buildTree _ hinside, hmenus]
  rfl

theorem run_buildDialog (dialog : NodeId) :
    (out.buildDialog dialog).run {} = (out.dialogTree dialog, {}) := by
  rw [buildDialog, StateT.run_bind, run_filterMapM_buildTree _ rfl]
  unfold dialogTree
  cases out.graph.kind dialog <;> rfl

/-- One builder builds the windows of an application as they are. -/
theorem builtApp_eq (out : Outcome) : out.builtApp = out.appTree := by
  have hactivity : ∀ (entry : String × NodeId) builder, builder.visiting = {} →
      ∃ after, (out.buildActivity entry.1).run builder = (out.activityTree entry.1, after) ∧
        after.visiting = {} :=
    fun entry builder hbuilder => ⟨_, run_buildActivity entry.1 hbuilder, hbuilder⟩
  have hdialog : ∀ dialog builder, builder = {} →
      ∃ after, (out.buildDialog dialog).run builder = (out.dialogTree dialog, after) ∧
        after = {} := by
    rintro dialog _ rfl
    exact ⟨{}, run_buildDialog dialog, rfl⟩
  -- An activity is left over from the last window of one, and reset before the dialogs.
  have hempty : ({} : TreeBuilder).visiting = {} := rfl
  obtain ⟨⟨_, last⟩, hactivities, rfl⟩ :=
    run_mapM (·.visiting = {}) hactivity out.graph.activities hempty
  obtain ⟨_, hdialogs, rfl⟩ := run_mapM (· = {}) hdialog out.graph.dialogs rfl
  rw [builtApp, TreeBuilding.alone, buildApp]
  show (StateT.run (List.mapM (fun entry : String × NodeId => out.buildActivity entry.1) _ >>= _) {}).1 = _
  rw [StateT.run_bind, hactivities]
  show (StateT.run (List.mapM out.buildDialog out.graph.dialogs >>= fun dialogs =>
    pure (AppTree.mk _ _ dialogs)) {}).1 = _
  rw [StateT.run_bind, hdialogs]
  rfl

/-! ## Trees as unfoldings -/

/-- The windows of an application show the unfoldings of containment below their roots. -/
structure Unfolded (out : Outcome) : Prop where
  /-- A builder is inside of the same nodes after a tree as before it. -/
  restores : ∀ builder n, ((out.buildTree n).run builder).2 = builder
  /-- Trees end by themselves, also where containment goes round in a circle. -/
  unbounded : ∀ builder n bound, out.graph.nodes.size < bound →
    (out.buildView bound n).run builder = (out.buildTree n).run builder
  activities_alone : out.builtApp.activities =
    out.graph.activities.map fun entry => (out.buildActivity entry.1).alone
  dialogs_alone : out.builtApp.dialogs =
    out.graph.dialogs.map fun dialog => (out.buildDialog dialog).alone
  /-- A builder is inside of nothing when it starts on a root of a window. -/
  activity_views : ∀ owner, (out.buildActivity owner).alone.views =
    (out.activityRoots owner).filterMap
        (fun root => ((out.buildTree root).run { activity := some owner }).1) ++
      ((out.optionsMenu? owner).bind
        (fun menu => ((out.buildTree menu).run { activity := some owner }).1)).toList.map
          (out.withItemHandlers (out.optionsHandlers owner))
  dialog_views : ∀ dialog, (out.buildDialog dialog).alone.views =
    (out.solution.dialogRoots.image dialog).filterMap fun root => (out.buildTree root).alone
  present : ∀ builder n, ((out.buildTree n).run builder).1.isSome ↔
    out.graph.HasObject n ∧ n ∉ builder.visiting
  /-- Below a node that is no menu item are the trees of what it contains and of its context menus,
  for a builder that is inside of the node as well. -/
  views_eq : ∀ builder n tree, ((out.buildTree n).run builder).1 = some tree →
    out.isItem n = false →
      let below := fun inner => ((out.buildTree inner).run (builder.enter n)).1
      tree.views = (out.graph.children n).filterMap below ++
        ((out.contextMenus n).filterMap below).map
          (out.withItemHandlers (out.contextHandlers builder.activity))
  mem_enter : ∀ (builder : TreeBuilder) n inner,
    inner ∈ (builder.enter n).visiting ↔ inner = n ∨ inner ∈ builder.visiting
  /-- What a node contains comes by number, and so do its context menus. -/
  mem_children : ∀ n inner, inner ∈ out.graph.children n ↔ out.graph.Contains n inner
  children_ascend : ∀ n, (out.graph.children n).Pairwise (· < ·)
  contextMenus_ascend : ∀ n, (out.contextMenus n).Pairwise (· < ·)

/-- The windows of an analysed application do not influence each other, and show the unfoldings of
containment. -/
theorem windows_unfolded {ctx : Context} (h : ctx.analyze = .ok out) : out.Unfolded where
  restores builder n := restores_buildTree n builder
  unbounded builder n bound hbound := by
    have hsize := out.vacant_le builder
    exact run_buildView_of_vacant_lt (by omega) (by omega)
  activities_alone := by
    rw [builtApp_eq]
    refine List.map_congr_left fun entry _ => ?_
    exact (congrArg Prod.fst (run_buildActivity entry.1 rfl)).symm
  dialogs_alone := by
    rw [builtApp_eq]
    exact List.map_congr_left fun dialog _ => (congrArg Prod.fst (run_buildDialog dialog)).symm
  activity_views owner := by
    have hroot : ∀ root, ((out.buildTree root).run { activity := some owner }).1 =
        out.viewTree (some owner) root :=
      fun root => run_buildTree_eq rfl
    rw [TreeBuilding.alone, run_buildActivity owner rfl]
    simp only [hroot]
    rfl
  dialog_views dialog := by
    have hroot : ∀ root, (out.buildTree root).alone = out.viewTree none root :=
      fun root => run_buildTree_eq rfl
    rw [TreeBuilding.alone, run_buildDialog]
    simp only [hroot]
    rfl
  present builder n := isSome_buildTree
  views_eq builder n tree htree hitem := by
    have henters : out.Enters builder n := isSome_buildTree.mp (by rw [htree]; rfl)
    rw [run_buildTree henters, viewsBelow, if_neg (Bool.eq_false_iff.mp hitem)] at htree
    exact congrArg ViewTree.views (Option.some.inj htree).symm
  mem_enter builder n inner := TreeBuilder.mem_enter
  mem_children n inner := FlowGraph.mem_children
  children_ascend := by
    obtain ⟨st, hstate⟩ := analyzed h
    rw [hstate.graph_eq]
    exact FlowGraph.ascending_children hstate.sound.wellFormed.links_nodup
  contextMenus_ascend n := (FlowGraph.ascending_contextMenus _).filter _

/-- The sample menu is an object and no item, so its tree has what it contains below it. -/
theorem windows_unfolded_menu :
    ∃ out, Sample.grouped.analyze = .ok out ∧ out.isItem 4 = false ∧
      8 ∈ out.graph.children 4 ∧ out.Unfolded := by
  obtain ⟨out, h, _, ⟨hmenu, _, _⟩, ⟨hchild, _⟩, _⟩ := Sample.grouped_analyzed
  exact ⟨out, h, hmenu, hchild, windows_unfolded h⟩

end Outcome

end WidgetFlow
