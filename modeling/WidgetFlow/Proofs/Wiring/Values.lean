import WidgetFlow.Proofs.Graph.Reach
import WidgetFlow.Proofs.Relation
import WidgetFlow.Proofs.Wiring.Steps

/-!
# Building the nodes of values

Every node that stands for a value of the program is found by a key, and only the value and its
statement decide which (`Context.valueKey?`). Making the node of a value gives the one that is found
by its key from then on (`locates_valueNode?`), so whether a value has a node does not depend on the
state. The node of a value that can be assigned to is a place for values.
-/

namespace WidgetFlow

open FlowGraph Analysis

variable {site : StmtId}

/-- Statements are equal if they compare so. -/
instance : Std.LawfulEqOrd StmtId where
  eq_of_compare {first second} h := by
    obtain ⟨hmethod, hindex⟩ := compareLex_eq_eq.mp h
    have hmethod : first.method = second.method := Std.LawfulEqOrd.eq_of_compare hmethod
    have hindex : first.index = second.index := Std.LawfulEqOrd.eq_of_compare hindex
    cases first
    cases second
    simp_all

namespace FlowGraph

variable {g old new : FlowGraph} {key src dst : NodeKey}

/-- There is an edge between the nodes that two keys find. -/
def Connects (g : FlowGraph) (src dst : NodeKey) : Prop :=
  ∃ first second, g.find? src = some first ∧ g.find? dst = some second ∧
    g.hasEdge first second

theorem Connects.mono (hg : Extends old new) (h : old.Connects src dst) :
    new.Connects src dst := by
  obtain ⟨first, second, hfirst, hsecond, hedge⟩ := h
  exact ⟨first, second, hg.find?_eq hfirst, hg.find?_eq hsecond, hg.hasEdge hedge⟩

/-- A node that may be missing is the one that a key finds, and missing without a key. -/
inductive Located (g : FlowGraph) : Option NodeKey → Option NodeId → Prop
  | none : Located g none none
  | some {key : NodeKey} {n : NodeId} (h : g.find? key = some n) :
      Located g (some key) (some n)

theorem Located.eq_or_exists {key : Option NodeKey} {n : Option NodeId}
    (h : g.Located key n) : key = Option.none ∧ n = Option.none ∨
      ∃ found id, key = Option.some found ∧ n = Option.some id ∧
        g.find? found = Option.some id := by
  cases h with
  | none => exact .inl ⟨rfl, rfl⟩
  | some hfind => exact .inr ⟨_, _, rfl, rfl, hfind⟩

end FlowGraph

theorem Context.valueKey?_ne_made {ctx : Context} {v : Value} (number : Nat) :
    ctx.valueKey? site v ≠ some (.var (.made number)) := by
  fun_induction valueKey? ctx site v with
  | case6 owner =>
    unfold newKey
    split
    · simp
    · split <;> simp
  | case8 _ operand ih => exact ih
  | _ => simp

namespace Wiring

/-- A node that is found by a key, as one that may be missing. -/
theorem locates_some {base : FlowGraph} {law : Law Notes} {part : Wiring NodeId} {key : NodeKey}
    (h : Ensures law base part fun g n => g.find? key = some n) :
    Ensures law base (some <$> part) fun g n => g.Located (some key) n :=
  .map (h.weaken fun _ _ _ hfind => .some hfind)

/-- An edge between nodes that are found by keys. -/
theorem builds_connects {base : FlowGraph} {law : Law Notes} [Stable law] {src dst : NodeId}
    {first second : NodeKey} (site : Option StmtId) (hfirst : base.find? first = some src)
    (hsecond : base.find? second = some dst) (htarget : base.HasGoal dst) :
    Ensures law base (connect src dst site) fun g _ => g.Connects first second :=
  (builds_connect site (.of_find? hfirst) htarget).weaken fun _ _ hg hedge =>
    ⟨src, dst, hg.find?_eq hfirst, hg.find?_eq hsecond, hedge⟩

variable {base g : FlowGraph} {ctx : Context} {permit : Permit} {law : Law Notes}
  {owner : String}

theorem isView_of_allocRole (h : ctx.hierarchy.allocRole owner = .view) :
    ctx.hierarchy.isView owner := by
  unfold Hierarchy.allocRole at h
  split at h
  next hview => exact hview
  next => split at h <;> cases h

/-- What can be assigned to is a variable or a field. -/
theorem hasGoal_of_target {dst : Value} {key : NodeKey} {id : NodeId}
    (h : Stmt.isTarget dst) (hkey : ctx.valueKey? site dst = some key)
    (hfind : g.find? key = some id) : g.HasGoal id := by
  cases dst with
  | var name =>
    cases hkey
    exact (HasHolder.of_find? hfind).hasGoal
  | staticField member =>
    cases hkey
    exact .of_find?_field hfind
  | field _ member =>
    cases hkey
    exact .of_find?_field hfind
  | element base index => cases hkey
  | _ => exact absurd h Bool.false_ne_true

variable [Walks ctx permit law]

/-! ## Noted calls -/

section Notes

include ctx permit

theorem builds_getFacts :
    Ensures law base getFacts fun g facts =>
      ∀ (callback : MethodId) var, facts.itemSelectedVars[callback]? = some var →
        g.HasHolder var :=
  Ensures.getNotes.bind fun _ _ _ hnotes => .pure fun _ hg callback var hvar =>
    (hnotes.itemSelectedVars callback var hvar).mono hg

theorem builds_objectsOf {var : NodeId} :
    Ensures law base (objectsOf var) fun g found => ∀ o ∈ found, g.HasObject o := by
  unfold objectsOf
  refine Ensures.getGraph.bind ?_
  rintro g _ _ ⟨rfl, _⟩
  exact .pure fun _ hg o hobject => HasObject.mono hg (List.mem_filter.mp hobject).2

end Notes

def ValueKeys {β : Type} [Ord β] (g : FlowGraph) (relation : Relation NodeId β) : Prop :=
  ∀ key v, relation.holds key v → g.HasValue key

theorem ValueKeys.mono {β : Type} [Ord β] {relation : Relation NodeId β} {old new : FlowGraph}
    (hg : Extends old new) (h : ValueKeys old relation) : ValueKeys new relation :=
  fun key v hholds => (h key v hholds).mono hg

theorem ValueKeys.addAll {relation : Relation NodeId StmtId} {n : NodeId}
    (h : ValueKeys g relation) (hnode : g.HasValue n) (sites : List StmtId) :
    ValueKeys g (relation.addAll n sites) := by
  intro key v hholds
  rcases Relation.holds_add_all.mp hholds with ⟨rfl, _⟩ | hholds
  · exact hnode
  · exact h key v hholds

theorem ValueKeys.foldl_addAll {relation : Relation NodeId StmtId}
    {nodes : List NodeId} (h : ValueKeys g relation) (sites : List StmtId)
    (hnodes : ∀ n ∈ nodes, g.HasValue n) :
    ValueKeys g
      (nodes.foldl (fun relation n => relation.addAll n sites) relation) := by
  induction nodes generalizing relation with
  | nil => exact h
  | cons first rest ih =>
    exact ih (h.addAll (hnodes first List.mem_cons_self) sites) fun n hnode =>
      hnodes n (List.mem_cons_of_mem _ hnode)

include permit

theorem builds_callsOn {role : CallRole} {accept : NodeKind → Bool} :
    Ensures law base (callsOn ctx role accept) ValueKeys := by
  unfold callsOn
  refine Ensures.getNotes.andThen fun ns => ?_
  refine .foldlM (fun _ _ key v hholds => by simp at hholds) ?_
  rintro found g _ hfound ⟨receiver, sites⟩ _
  refine Ensures.getGraph.andThen fun _ => ?_
  refine builds_objectsOf.bind fun objects g hg hobjects => ?_
  split
  · refine .andThen (.forM_option fun site _ => .gap _) fun _ => .pure fun g hg' => ?_
    exact hfound.mono (hg.trans hg')
  · refine .pure fun g hg' => ?_
    refine (hfound.mono (hg.trans hg')).foldl_addAll sites fun o hobject => ?_
    exact ((hobjects o (List.mem_filter.mp hobject).1).mono hg').hasValue

/-! ## Dialogs and context menus -/

theorem builds_wireDialogLifecycle {dialog : NodeId}
    (hdialog : base.HasValue dialog) : Upholds law base (wireDialogLifecycle ctx dialog owner) := by
  unfold wireDialogLifecycle
  refine .forM fun subsig _ => ?_
  split
  next m _ =>
    refine builds_thisNode?.bind fun this g hg hthis => ?_
    exact .andThen (builds_connect? none (hdialog.mono hg) hthis) fun _ => builds_modifyFacts
  next => exact .done _

/-- The dialog of a statement is found by the statement. -/
theorem locates_dialogAt (horigin : ctx.Originates permit.builds (.dialog owner site true)) :
    Ensures law base (dialogAt ctx owner site) fun g dialog =>
      g.find? (.dialog site) = some dialog := by
  unfold dialogAt
  refine (locates_share horigin rfl rfl rfl).bind ?_
  rintro ⟨dialog, created⟩ g _ hfind
  dsimp only
  split
  · refine (builds_wireDialogLifecycle (.of_find? hfind)).andThen fun _ => ?_
    exact .pure fun _ hg => hg.find?_eq hfind
  · exact .pure fun _ hg => hg.find?_eq hfind

theorem builds_wireOwnContextMenu {alloc : NodeId} (hview : ctx.hierarchy.isView owner)
    (halloc : base.HasValue alloc) : Upholds law base (wireOwnContextMenu ctx alloc owner) := by
  unfold wireOwnContextMenu
  extract_lets subsig
  split
  next hnone => exact .throw (Walks.can ⟨owner, rfl, hview, hnone⟩)
  · exact .done _
  next m _ =>
    refine builds_thisNode?.bind fun this g hg hthis => ?_
    refine builds_paramNode?.bind fun formal g' hg' hformal => ?_
    split
    next this formal =>
      have hthis := (hthis this rfl).mono hg'
      refine .andThen (builds_connect none (halloc.mono (hg.trans hg')) hthis.hasGoal)
        fun _ => ?_
      exact ensures_modifyGraph fun _ hg =>
        .contextMenu m this ((hformal formal rfl).mono hg) _
    next => exact .done _

/-! ## Values -/

theorem locates_newNode (h : ctx.Creates site (.ref owner)) :
    Ensures law base (newNode ctx site owner) fun g n =>
      g.find? (ctx.newKey site owner) = some n := by
  have horigin : ∀ {kind : NodeKind}, kind.created? = some (.ref owner) →
      kind.key? = some (ctx.newKey site owner) → ctx.Originates permit.builds kind :=
    fun hty hkey => .created h hty hkey
  unfold newNode
  unfold Context.newKey at horigin ⊢
  split
  next hdialog =>
    rw [if_pos hdialog] at horigin
    exact locates_dialogAt (horigin rfl rfl)
  rename_i hdialog
  rw [if_neg hdialog] at horigin
  split
  next hspec =>
    rw [if_pos hspec] at horigin
    exact locates_obtain (horigin rfl rfl) rfl rfl rfl
  rename_i hspec
  rw [if_neg hspec] at horigin
  refine Ensures.getGraph.bind ?_
  rintro g _ _ ⟨rfl, _⟩
  split
  next existing hfind => exact .pure fun _ hg => hg.find?_eq hfind
  next =>
    extract_lets role
    refine (locates_obtain (horigin rfl rfl) rfl rfl rfl).bind fun alloc g hg hfind => ?_
    split
    next hrole =>
      refine (builds_wireOwnContextMenu (isView_of_allocRole hrole) (.of_find? hfind)).andThen ?_
      exact fun _ => .pure fun _ hg => hg.find?_eq hfind
    next => exact .pure fun _ hg => hg.find?_eq hfind

theorem locates_resourceNode? {v : ResId} :
    Ensures law base (resourceNode? ctx v) fun g n =>
      g.Located ((ctx.resources.idKind? v).map fun kind => .id kind v) n := by
  unfold resourceNode?
  cases ctx.resources.idKind? v with
  | none => exact .pure fun _ _ => .none
  | some kind => exact locates_some (locates_idNode kind v)

theorem locates_valueNode? {v : Value} (h : ctx.Places site v) :
    Ensures law base (valueNode? ctx site v) fun g n =>
      g.Located (ctx.valueKey? site v) n := by
  fun_induction valueNode? ctx site v with
  | case1 member => exact locates_some (locates_obtain (.plain rfl) rfl rfl rfl)
  | case2 _ member => exact locates_some (locates_obtain (.plain rfl) rfl rfl rfl)
  | case3 name => exact locates_some locates_varNode
  | case4 v => exact locates_resourceNode?
  | case5 text => exact locates_some (locates_obtain (.plain rfl) rfl rfl rfl)
  | case6 owner => exact locates_some (locates_newNode (h _ rfl))
  | case7 item _ => exact locates_some (locates_obtain (.created (h _ rfl) rfl rfl) rfl rfl rfl)
  | case8 _ operand ih => exact ih h
  | case9 v =>
    have hkey : ctx.valueKey? site v = none := by
      cases v <;> simp_all [Context.valueKey?]
    exact .pure fun _ _ => hkey ▸ .none

theorem builds_openNode? {v : Value} (h : ctx.Places site v) :
    Ensures law base (valueNode? ctx site v) HasOpen? := by
  refine (locates_valueNode? h).weaken fun _ _ _ hlocated => ?_
  rcases hlocated.eq_or_exists with ⟨_, rfl⟩ | ⟨_, id, hkey, rfl, hfind⟩
  · exact nofun
  · exact .some (.of_find? hfind fun number heq => ctx.valueKey?_ne_made number (heq ▸ hkey))

theorem builds_valueNode? {v : Value} (h : ctx.Places site v) :
    Ensures law base (valueNode? ctx site v) HasValue? :=
  (builds_openNode? h).weaken fun _ _ _ hopen id hid => (hopen id hid).hasValue

theorem builds_argNode? {v : Option Value}
    (h : ∀ found, v = some found → ctx.Places site found) :
    Ensures law base (argNode? ctx site v) HasValue? := by
  cases v with
  | none => exact .pure fun _ _ => nofun
  | some v => exact builds_valueNode? (h v rfl)

theorem locates_definedNode? :
    Ensures law base (definedNode? ctx site) fun g n =>
      g.Located (((ctx.scene.stmt? site).bind Stmt.definedVar?).map fun name =>
        .var (.named site.method name)) n := by
  unfold definedNode?
  cases (ctx.scene.stmt? site).bind Stmt.definedVar? with
  | none => exact .pure fun _ _ => .none
  | some name => exact locates_some locates_varNode

theorem builds_definedNode? : Ensures law base (definedNode? ctx site) HasHolder? :=
  builds_varNode?

end Wiring

end WidgetFlow
