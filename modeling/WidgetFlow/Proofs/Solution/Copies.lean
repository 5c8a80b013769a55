import WidgetFlow.Proofs.Roots

/-!
# Copies of layouts

A layout that reaches an inflation is copied into the graph, and the inflation gives the root of the
copy (`gives_inflateAt`). What is done later leaves the copy as it is (`HasCopy.mono`), so it is
there in the outcome (`Ran.givesCopy`).
-/

namespace WidgetFlow

open Analysis

namespace FlowGraph

variable {tree : Element} {nodes : List Nat → NodeId} {old new : FlowGraph}

/-- Some views of a graph are a copy of the shown elements of a layout: they have the classes of the
elements and the identifiers that are known, and contain each other as the elements do. -/
structure HasCopy (g : FlowGraph) (tree : Element) (nodes : List Nat → NodeId) : Prop where
  injective : ∀ path shown path' shown', tree.shownAt? path = some shown →
    tree.shownAt? path' = some shown' → nodes path = nodes path' → path = path'
  kind_eq : ∀ path shown, tree.shownAt? path = some shown →
    g.kind (nodes path) = .view shown.1
  named : ∀ path shown, tree.shownAt? path = some shown →
    ∀ id, g.widget? shown.2.id = some id → g.idOf? (nodes path) = some id
  inside : ∀ path index shown, tree.shownAt? (path ++ [index]) = some shown →
    g.Contains (nodes path) (nodes (path ++ [index]))

theorem HasCopy.of_planted {win : Option NodeId}
    (h : Solving.Pending.Planted Solving.viewShape [(tree, win)] old new nodes) :
    new.HasCopy tree fun path => nodes (0 :: path) := by
  have hat : ∀ path, Solving.Pending.at? [(tree, win)] (0 :: path) = tree.shownAt? path :=
    fun path => by simp [Solving.Pending.at?]
  refine ⟨fun path shown path' shown' hshown hshown' heq => ?_, fun path shown hshown => ?_,
    fun path shown hshown id hid => ?_, fun path index shown hshown => ?_⟩
  · have hpaths := h.injective _ _ _ _ ((hat path).trans hshown) ((hat path').trans hshown') heq
    exact (List.cons.inj hpaths).2
  · exact h.kind_eq _ _ ((hat path).trans hshown)
  · rw [h.name_eq _ _ ((hat path).trans hshown), ← h.widget?_eq, hid]
  · refine (h.contains_iff _ _).mpr (.inr ⟨_, _, (hat _).trans hshown, ?_, rfl⟩)
    cases path with
    | nil => rfl
    | cons first rest =>
      change some (nodes (0 :: (first :: rest ++ [index]).dropLast)) = _
      rw [List.dropLast_concat]

/-- A copy stays one when the graph goes on. -/
theorem HasCopy.mono (hg : Retains old new) (h : old.HasCopy tree nodes) :
    new.HasCopy tree nodes := by
  refine ⟨h.injective, fun path shown hshown => ?_, fun path shown hshown id hid => ?_,
    fun path index shown hshown => hg.toExtends.contains (h.inside path index shown hshown)⟩
  · have hkind := h.kind_eq path shown hshown
    have hsize : nodes path < old.nodes.size := lt_size_of_isObject (by rw [hkind]; rfl)
    have hcore := hg.core_eq (nodes path) hsize
    rw [hkind] at hcore
    exact NodeKind.eq_of_isInflated rfl hcore
  · rw [hg.widget?_eq] at hid
    exact hg.idOf?_eq _ _ (h.named path shown hshown id hid)

end FlowGraph

namespace Solving

open FlowGraph

variable {ctx : Context} {g : FlowGraph} {op layout : NodeId} {found : Op} {v : ResId}
variable {tree : Element} {owner : String} {s old new : Progress Notes}

/-- An operation has given the root of a copy of a layout. -/
def GivesCopy (tree : Element) (op : NodeId) (st : Progress Notes) : Prop :=
  ∃ nodes, st.graph.HasCopy tree nodes ∧ st.notes.solution.results.holds op (nodes [])

theorem GivesCopy.mono (hg : Retains old.graph new.graph)
    (hresults : old.notes.solution.results.Within new.notes.solution.results)
    (h : GivesCopy tree op old) : GivesCopy tree op new := by
  obtain ⟨nodes, hcopy, hroot⟩ := h
  exact ⟨nodes, hcopy.mono hg, hresults op _ hroot⟩

/-- The layout of an inflation, whose root the result of the inflation admits. -/
structure Inflates (ctx : Context) (g : FlowGraph) (op layout : NodeId) (tree : Element) :
    Prop where
  tree_eq : ∃ v, g.kind layout = .id .layout v ∧
    ctx.resources.layout? v = some tree
  admits : ∃ found owner, g.op? op = some found ∧ found.kind = .inflate ∧
    tree.owner = some owner ∧ ∀ res, found.result = some res →
      ctx.hierarchy.admitsAs (g.varTy? res) (.view owner)

theorem inflates_iff {old new : FlowGraph} (hg : Develops old new) (hold : old.WellFormed) :
    Inflates ctx new op layout tree ↔ Inflates ctx old op layout tree := by
  have hkind : ∀ v, new.kind layout = .id .layout v ↔ old.kind layout = .id .layout v := by
    intro v
    rw [← NodeKind.idValue?_eq_some, ← NodeKind.idValue?_eq_some, hg.idValue?_eq]
  have htype : ∀ found, old.op? op = some found → ∀ res, found.result = some res →
      new.varTy? res = old.varTy? res := by
    intro found hop res hresult
    have hsize := ((hold.slots op found hop).result res hresult).1
    rw [varTy?, hg.keeps NodeKind.varTy? NodeKind.varTy?_core hsize, ← varTy?]
  constructor
  · rintro ⟨⟨v, hvalue, htree⟩, found, owner, hop, hinflate, howner, hadmits⟩
    rw [hg.op?_eq] at hop
    refine ⟨⟨v, (hkind v).mp hvalue, htree⟩, found, owner, hop, hinflate, howner, ?_⟩
    exact fun res hresult => htype found hop res hresult ▸ hadmits res hresult
  · rintro ⟨⟨v, hvalue, htree⟩, found, owner, hop, hinflate, howner, hadmits⟩
    refine ⟨⟨v, (hkind v).mpr hvalue, htree⟩, found, owner, (hg.op?_eq op).trans hop,
      hinflate, howner, ?_⟩
    exact fun res hresult => htype found hop res hresult ▸ hadmits res hresult

theorem Inflates.admits_root (h : Inflates ctx g op layout tree) {nodes : List Nat → NodeId}
    (hcopy : g.HasCopy tree nodes) : ctx.hierarchy.admits g (nodes []) op .result := by
  obtain ⟨_, found, owner, hop, _, howner, hadmits⟩ := h
  have hkind := hcopy.kind_eq [] (owner, tree) (by simp [Element.shownAt?, howner])
  unfold Hierarchy.admits
  rw [hop]
  dsimp only
  split
  · rfl
  next res hresult =>
    rw [hkind]
    exact hadmits res hresult

/-- When its turn comes, an inflation gives the root of a new copy of its layout. -/
theorem gives_inflateAt (hwell : s.graph.WellFormed)
    (h : Inflates ctx s.graph op layout tree) :
    (inflateAt ctx (op, layout)).Gives s fun _ t => GivesCopy tree op t := by
  obtain ⟨⟨v, hvalue, htree⟩, found, owner, hop, hkind, howner, hadmits⟩ := id h
  unfold inflateAt inflateResult
  rw [gives_bind, gives_getGraph]
  simp only [hop, hvalue, hkind, Option.map_some, NodeKind.idValue?, gives_bind]
  refine (runs_inflateLayout htree (by rintro _ ⟨⟩)).gives.weaken ?_
  rintro _ middle ⟨⟨nodes, hplanted, rfl⟩, _⟩
  have hcopy := HasCopy.of_planted hplanted
  have hadmits := ((inflates_iff hplanted.toDevelops hwell).mpr h).admits_root hcopy
  simp only [howner, Option.map_some, gives_bind, gives_getGraph, if_pos hadmits, modifySolution,
    gives_modifyNotes]
  refine (runs_push ctx op [nodes [0]] _).gives.weaken fun _ t hpushed => gives_pure.mpr ?_
  refine ⟨fun path => nodes (0 :: path), ?_, ?_⟩
  · rw [hpushed.graph_eq]
    exact hcopy
  · rw [hpushed.collects.results_eq]
    exact Relation.holds_add.mpr (.inl ⟨rfl, rfl⟩)

/-! ## Preparation -/

/-- A state during inflation whose roots match. -/
def Sprouting (ctx : Context) (st : Progress Notes) : Prop :=
  Inflated ctx st st ∧ RootsMatch st.graph st.notes.solution

/-- Parts of the inflation keep what was given and all that it is made of. -/
theorem Sprouting.next {part : Solving Unit} (h : Sprouting ctx s)
    (hensures : Upholds (Inflating ctx s) s.graph part)
    (hmatching : part.Gives s fun _ => Matching s) :
    part.Gives s fun _ t => Sprouting ctx t ∧ Retains s.graph t.graph ∧
      s.notes.solution.results.Within t.notes.solution.results := by
  refine ((hensures.gives (.refl _) h.1).and hmatching).weaken ?_
  rintro _ t ⟨⟨_, hinflated, _⟩, hretains, hroots⟩
  exact ⟨⟨hinflated.restart, hroots⟩, hretains, hinflated.notes.results⟩

theorem gives_inflateLayouts (hs : Sprouting ctx s)
    (hlayout : s.notes.solution.layoutIds.holds op layout)
    (h : Inflates ctx s.graph op layout tree) :
    (inflateLayouts ctx).Gives s fun _ t =>
      Sprouting ctx t ∧ GivesCopy tree op t := by
  rw [inflateLayouts_eq, gives_bind, gives_getSolution]
  refine (gives_forM_of_mem (fun st => Sprouting ctx st ∧ Develops s.graph st.graph)
    (Relation.mem_pairs.mpr hlayout) ⟨hs, refl_of Develops _⟩ ?_ ?_).weaken
    fun _ _ ht => ⟨ht.1.1, ht.2⟩
  · rintro st ⟨hstate, hg⟩ entry _
    refine (hstate.next (ensures_inflateAt entry) (matching_inflateAt hstate.2 hstate.1.tidy entry)).weaken
      ?_
    rintro _ t ⟨ht, hretains, hresults⟩
    exact ⟨⟨ht, trans_of Develops hg hretains.toDevelops⟩, .mono hretains hresults⟩
  · rintro st ⟨hstate, hg⟩
    exact gives_inflateAt hstate.1.tidy.sound.wellFormed
      ((inflates_iff hg hs.1.tidy.sound.wellFormed).mpr h)

theorem gives_inflateMenus (hs : Sprouting ctx s) (h : GivesCopy tree op s) :
    (inflateMenus ctx).Gives s fun _ t => GivesCopy tree op t := by
  rw [inflateMenus_eq, gives_bind, gives_getSolution]
  have hround : ∀ st, Sprouting ctx st ∧ GivesCopy tree op st →
      ∀ row ∈ s.notes.solution.menuIds.rows, (inflateRow ctx row).Gives st fun _ t =>
        Sprouting ctx t ∧ GivesCopy tree op t := by
    rintro st ⟨hstate, hcopy⟩ row _
    refine (hstate.next (ensures_inflateRow row) (matching_inflateRow hstate.2 hstate.1.tidy row)).weaken ?_
    rintro _ t ⟨ht, hretains, hresults⟩
    exact ⟨ht, hcopy.mono hretains hresults⟩
  exact (gives_forM ⟨hs, h⟩ hround).weaken fun _ _ => And.right

/-- Before the passes, every inflation has given copies of the layouts that flow to it. -/
theorem gives_prepare (hgraph : g.WellFormed ∧ g.links = #[]) (policy : Policy)
    (hlayout : IdArrives g .layout OpKind.takesLayoutId op layout)
    (h : Inflates ctx g op layout tree) :
    (prepare ctx).Gives { graph := g, policy, notes := {} } fun _ t => GivesCopy tree op t := by
  rw [prepare_eq, gives_bind]
  refine (runs_arrive ctx hgraph policy).gives.weaken ?_
  rintro _ traced ⟨arrived, harrived, htraced⟩
  obtain ⟨_, hgathers⟩ := htraced.gathers harrived.tidy.sound.wellFormed
  have heq : traced.graph = g := htraced.graph_eq.trans harrived.graph_eq
  have hroots : windowRoots traced.notes.solution = ({}, {}) := by
    rw [htraced.notes_eq]
    exact congrArg (fun effects => (effects.2.1, effects.2.2.1)) harrived.effects_eq
  have htraced : Sprouting ctx traced :=
    ⟨htraced.inflated harrived.tidy harrived.effects_eq, .empty (heq ▸ hgraph.2) hroots⟩
  have hheld : traced.notes.solution.layoutIds.holds op layout := by
    rw [hgathers.layoutIds_eq]
    exact (harrived.ids.layouts op layout).mpr hlayout
  rw [gives_bind]
  refine (gives_inflateLayouts htraced hheld (heq ▸ h)).weaken ?_
  rintro _ middle ⟨hmiddle, hcopy⟩
  exact gives_inflateMenus hmiddle hcopy

/-! ## Outcomes -/

variable {out : Outcome} {t : Progress Notes}

theorem Ran.givesCopy (hran : Ran ctx out s t)
    (hlayout : out.solution.layoutIds.holds op layout)
    (h : Inflates ctx out.graph op layout tree) :
    ∃ nodes, out.graph.HasCopy tree nodes ∧ out.solution.results.holds op (nodes []) := by
  have hwire : ctx.wire = (.ok (), ctx.wire.2) := Prod.ext hran.wired rfl
  have hgraph := Context.wellFormed_wire hwire
  have hadvances := hran.moves.advances
  rw [hran.graph_eq] at h ⊢
  rw [hran.solution_eq] at hlayout ⊢
  rw [hadvances.2.layoutIds_eq, hran.prepared.ids.layouts] at hlayout
  rw [inflates_iff hadvances.1.toDevelops hran.prepared.sound.wellFormed,
    inflates_iff hran.prepared.develops hgraph.1] at h
  have hs := gives_prepare hgraph ctx.wire.2.policy hlayout h _ _ hran.prepare_eq
  exact hs.mono hadvances.1.toRetains hadvances.2.results

end Solving

end WidgetFlow
