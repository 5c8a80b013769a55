import WidgetFlow.Proofs.Graph.WellFormed
import WidgetFlow.Proofs.Severity

/-!
# Parts that build a graph

An analysis passes nodes around by their numbers. `Ensures law base part good` says that from any
state with the invariant of a law whose graph extends `base` the part ends in such a state, that its
graph has only grown, and that what it gives is good in the final graph. As the facts about nodes
stay when a graph grows, what is known of `base` is known from then on. A part that ensures something
is also fair, and stops by itself only as the law allows.

The least invariant is that the state is sound and its graph comes from another one by additions
(`Builds`). A sound state has a well-formed graph and notes that fit it; `Grounded` says what that
means for a type of notes. Many other invariants are kept as well when the variables of a program are
looked up and values are put into them (`Stable`).
-/

namespace WidgetFlow

open FlowGraph

/-- Notes that speak about the nodes of a graph. -/
class Grounded (Notes : Type) where
  /-- The notes speak only about nodes that the graph has. -/
  Fits : FlowGraph → Notes → Prop
  mono : ∀ {old new : FlowGraph} {ns : Notes}, Extends old new → new.links = old.links →
    Fits old ns → Fits new ns

/-- The graph is well-formed and the notes fit it. -/
structure Progress.Sound {Notes : Type} [Grounded Notes] (st : Progress Notes) : Prop where
  wellFormed : st.graph.WellFormed
  fits : Grounded.Fits st.graph st.notes

/-- The state is sound, and only operations give values to frames. -/
structure Progress.Framed {Notes : Type} [Grounded Notes] (st : Progress Notes) : Prop
    extends Progress.Sound st where
  framed : st.graph.Framed

/-- An invariant of the states that an analysis goes through, and the errors that it may stop with
by itself. -/
structure Law (Notes : Type) where
  inv : Progress Notes → Prop
  can : AnalysisError → Prop

/-- States are sound, with graphs that come from another one, and nothing stops by itself. -/
abbrev Law.grafting (Notes : Type) [Grounded Notes] (origin : FlowGraph) : Law Notes :=
  ⟨fun st => st.Sound ∧ Grafts origin st.graph, fun _ => False⟩

namespace Analysis

variable {Notes α β : Type} {base : FlowGraph}

/-- From a state with the invariant whose graph extends `base`, the part ends in a state with the
invariant. The graph only grows, and what the part gives is good in the final graph. -/
def Ensures (law : Law Notes) (base : FlowGraph) (part : Analysis Notes α)
    (good : FlowGraph → α → Prop) : Prop :=
  ∀ s : Progress Notes, Extends base s.graph → law.inv s →
    part.Does law.can s fun res t =>
      Extends s.graph t.graph ∧ law.inv t ∧ good t.graph res

/-- The part keeps the invariant and lets the graph grow. -/
abbrev Upholds (law : Law Notes) (base : FlowGraph) (part : Analysis Notes α) : Prop :=
  Ensures law base part fun _ _ => True

namespace Ensures

variable {law : Law Notes} {part : Analysis Notes α} {good good' : FlowGraph → α → Prop}

theorem gives (h : Ensures law base part good) {s : Progress Notes}
    (hbase : Extends base s.graph) (hs : law.inv s) :
    part.Gives s fun res t =>
      Extends s.graph t.graph ∧ law.inv t ∧ good t.graph res :=
  (h s hbase hs).gives

/-! ## Rules -/

theorem weaken (h : Ensures law base part good)
    (hgood : ∀ g res, Extends base g → good g res → good' g res) :
    Ensures law base part good' := by
  intro s hbase hs
  refine (h s hbase hs).weaken ?_
  rintro res t ⟨hg, ht, hresult⟩
  exact ⟨hg, ht, hgood t.graph res (hbase.trans hg) hresult⟩

theorem upholds (h : Ensures law base part good) : Upholds law base part :=
  h.weaken fun _ _ _ _ => trivial

theorem mono {g : FlowGraph} (hg : Extends base g) (h : Ensures law base part good) :
    Ensures law g part good :=
  fun s hbase hs => h s (hg.trans hbase) hs

theorem pure {res : α} (h : ∀ g, Extends base g → good g res) :
    Ensures law base (Pure.pure res : Analysis Notes α) good :=
  fun s hbase hs => .pure ⟨.refl _, hs, h s.graph hbase⟩

theorem done (res : α) : Upholds law base (Pure.pure res : Analysis Notes α) :=
  pure fun _ _ => trivial

/-- The second part goes on from the graph that the first one leaves. -/
theorem bind {next : α → Analysis Notes β} {good' : FlowGraph → β → Prop}
    (hpart : Ensures law base part good)
    (hnext : ∀ res g, Extends base g → good g res →
      Ensures law g (next res) good') :
    Ensures law base (part >>= next) good' := by
  intro s hbase hs
  refine (hpart s hbase hs).bind ?_
  rintro res middle ⟨hg, hmiddle, hresult⟩
  refine (hnext res middle.graph (hbase.trans hg) hresult middle (.refl _) hmiddle).weaken ?_
  rintro _ t ⟨hg', ht, hgood⟩
  exact ⟨hg.trans hg', ht, hgood⟩

/-- If nothing of what the first part gives is needed, the second one may start from the same
graph. -/
theorem andThen {next : α → Analysis Notes β} {good' : FlowGraph → β → Prop}
    (hpart : Ensures law base part good) (hnext : ∀ res, Ensures law base (next res) good') :
    Ensures law base (part >>= next) good' :=
  hpart.bind fun res _ hg _ => (hnext res).mono hg

theorem map {f : α → β} {good' : FlowGraph → β → Prop}
    (h : Ensures law base part fun g res => good' g (f res)) :
    Ensures law base (f <$> part) good' := by
  rw [map_eq_pure_bind]
  intro s hbase hs
  exact (h s hbase hs).bind fun _ _ ht => .pure ht

theorem throw {error : AnalysisError} (h : law.can error) :
    Ensures law base (throw error : Analysis Notes α) good := by
  refine fun s _ _ => ⟨gives_throw.mpr trivial, fair_of_eq (fun _ => rfl) ?_⟩
  rintro _ ⟨⟩
  exact h

/-- An action on the graph and the notes. -/
theorem act (change : FlowGraph → Notes → α × FlowGraph × Notes)
    (h : ∀ s : Progress Notes, Extends base s.graph → law.inv s →
      Extends s.graph (change s.graph s.notes).2.1 ∧
        law.inv { s with
          graph := (change s.graph s.notes).2.1
          notes := (change s.graph s.notes).2.2 } ∧
        good (change s.graph s.notes).2.1 (change s.graph s.notes).1) :
    Ensures law base (act change) good :=
  fun s hbase hs => .act change (h s hbase hs)

/-- An action on the graph. -/
theorem of_graph {change : FlowGraph → α × FlowGraph}
    (h : ∀ s : Progress Notes, Extends base s.graph → law.inv s →
      Extends s.graph (change s.graph).2 ∧
        law.inv { s with graph := (change s.graph).2 } ∧
        good (change s.graph).2 (change s.graph).1) :
    Ensures law base (onGraph change) good :=
  act (fun g ns => ((change g).1, (change g).2, ns)) h

/-! ## Loops -/

section Loops

variable {elements : List α}

theorem forM {step : α → Analysis Notes Unit}
    (h : ∀ e ∈ elements, Upholds law base (step e)) :
    Upholds law base (elements.forM step) := by
  induction elements with
  | nil => exact done _
  | cons first rest ih =>
    exact (h first List.mem_cons_self).andThen fun _ =>
      ih fun e helement => h e (List.mem_cons_of_mem _ helement)

/-- What the rounds of a loop make hold stays, if it does so when a graph grows. -/
theorem forM_each {step : α → Analysis Notes Unit} (made : FlowGraph → α → Prop)
    (hmono : ∀ {old new : FlowGraph} {e : α}, Extends old new → made old e →
      made new e)
    (h : ∀ e ∈ elements, Ensures law base (step e) fun g _ => made g e) :
    Ensures law base (elements.forM step) fun g _ =>
      ∀ e ∈ elements, made g e := by
  induction elements generalizing base with
  | nil => exact pure (by simp)
  | cons first rest ih =>
    refine (h first List.mem_cons_self).bind fun _ g hg hfirst => ?_
    refine (ih fun e helement => (h e (List.mem_cons_of_mem _ helement)).mono
      hg).weaken fun g' _ hg' hrest => ?_
    exact List.forall_mem_cons.mpr ⟨hmono hg' hfirst, hrest⟩

theorem forM_option {e : Option α} {step : α → Analysis Notes Unit}
    (h : ∀ found, e = some found → Upholds law base (step found)) :
    Upholds law base (e.forM step) := by
  cases e with
  | none => exact done _
  | some found => exact h found rfl

theorem foldlM {step : β → α → Analysis Notes β} {good : FlowGraph → β → Prop} {initial : β}
    (hinitial : ∀ g, Extends base g → good g initial)
    (hstep : ∀ res g, Extends base g → good g res → ∀ e ∈ elements,
      Ensures law g (step res e) good) :
    Ensures law base (elements.foldlM step initial) good := by
  intro s hbase hs
  refine .foldlM ⟨.refl _, hs, hinitial s.graph hbase⟩ ?_
  rintro res st ⟨hg, hstate, hresult⟩ e helement
  have hstep := hstep res st.graph (hbase.trans hg) hresult e helement
  refine (hstep st (.refl _) hstate).weaken ?_
  rintro _ t ⟨hg', ht, hgood⟩
  exact ⟨hg.trans hg', ht, hgood⟩

variable (good : FlowGraph → β → Prop)
  (hmono : ∀ {old new : FlowGraph} {found : β}, Extends old new → good old found → good new found)

include hmono

/-- A loop that collects what its rounds give, if this is good, gives good elements. -/
theorem collect {γ : Type} {step : α → Analysis Notes γ} (items : γ → List β)
    {loop : List α → Analysis Notes (List β)} (hnil : loop [] = Pure.pure [])
    (hcons : ∀ first rest, loop (first :: rest) = do
      let found ← step first
      let more ← loop rest
      Pure.pure (items found ++ more))
    (h : ∀ e ∈ elements,
      Ensures law base (step e) fun g found => ∀ one ∈ items found, good g one) :
    Ensures law base (loop elements) fun g found => ∀ one ∈ found, good g one := by
  induction elements generalizing base with
  | nil =>
    rw [hnil]
    exact pure (by simp)
  | cons first rest ih =>
    rw [hcons]
    refine (h first List.mem_cons_self).bind fun found g hg hfound => ?_
    have hrest := ih fun e helement =>
      (h e (List.mem_cons_of_mem _ helement)).mono hg
    refine hrest.bind fun more g' hg' hmore => pure fun g'' hg'' one hone => ?_
    rcases List.mem_append.mp hone with hone | hone
    · exact hmono (hg'.trans hg'') (hfound one hone)
    · exact hmono hg'' (hmore one hone)

theorem flatMapM {step : α → Analysis Notes (List β)}
    (h : ∀ e ∈ elements,
      Ensures law base (step e) fun g found => ∀ one ∈ found, good g one) :
    Ensures law base (elements.flatMapM step) fun g found => ∀ one ∈ found, good g one :=
  collect good hmono id List.flatMapM_nil (fun _ _ => List.flatMapM_cons) h

theorem filterMapM {step : α → Analysis Notes (Option β)}
    (h : ∀ e ∈ elements,
      Ensures law base (step e) fun g found => ∀ one, found = some one → good g one) :
    Ensures law base (elements.filterMapM step) fun g found =>
      ∀ one ∈ found, good g one := by
  refine collect good hmono Option.toList List.filterMapM_nil (fun first rest => ?_) (by simpa using h)
  rw [List.filterMapM_cons]
  refine bind_congr fun found => ?_
  cases found <;> simp

theorem mapM {step : α → Analysis Notes β}
    (h : ∀ e ∈ elements, Ensures law base (step e) good) :
    Ensures law base (elements.mapM step) fun g found => ∀ one ∈ found, good g one :=
  collect good hmono (fun found => [found]) List.mapM_nil (fun _ _ => List.mapM_cons)
    (by simpa using h)

end Loops

end Ensures

/-! ## Sound states -/

variable [Grounded Notes]

/-- States with the invariant are sound. They keep it when something is reported, when the node of a
local is looked up, and when a value is put into a place. -/
class Stable (law : Law Notes) : Prop where
  sound : ∀ {st : Progress Notes}, law.inv st → st.Sound
  report : ∀ {st : Progress Notes} (policy : Policy), law.inv st →
    law.inv { st with policy }
  varNode : ∀ {st : Progress Notes} (ctx : Context) (m : MethodId) (name : String),
    law.inv st → law.inv { st with
      graph := (FlowGraph.varNode (.named m name) (ctx.scene.varTy? m name) st.graph).2 }
  addEdge : ∀ {st : Progress Notes} {src dst : NodeId} (site : Option StmtId),
    law.inv st → st.graph.HasValue src → st.graph.HasGoal dst →
      law.inv { st with graph := (st.graph.addEdge src dst site).2 }

section Stable

variable {law : Law Notes} [Stable law] {src : NodeId} {ctx : Context} {m : MethodId}

namespace Ensures

theorem getGraph :
    Ensures law base (getGraph : Analysis Notes FlowGraph) fun g res =>
      res = g ∧ g.WellFormed :=
  .act (fun g ns => (g, g, ns)) fun _ _ hs =>
    ⟨.refl _, hs, rfl, (Stable.sound hs).wellFormed⟩

theorem getNotes : Ensures law base (getNotes : Analysis Notes Notes) Grounded.Fits :=
  .act (fun g ns => (ns, g, ns)) fun _ _ hs =>
    ⟨.refl _, hs, (Stable.sound hs).fits⟩

theorem gap (message : String) : Upholds law base (gap message : Analysis Notes Unit) :=
  fun _ _ hs => .gap (fun policy => ⟨.refl _, Stable.report policy hs, trivial⟩) message

theorem violation (message : String) : Upholds law base (violation message : Analysis Notes Unit) :=
  fun _ _ hs =>
    .violation (fun policy => ⟨.refl _, Stable.report policy hs, trivial⟩) message

end Ensures

theorem builds_addEdge {dst : NodeId} (site : Option StmtId)
    (hsource : base.HasValue src) (htarget : base.HasGoal dst) :
    Ensures law base (addEdge src dst site : Analysis Notes Bool) fun g _ =>
      g.hasEdge src dst :=
  .of_graph fun _ hbase hs => ⟨extends_addEdge ..,
    Stable.addEdge site hs (hsource.mono hbase) (htarget.mono hbase), hasEdge_addEdge ..⟩

theorem builds_connect {dst : NodeId} (site : Option StmtId)
    (hsource : base.HasValue src) (htarget : base.HasGoal dst) :
    Ensures law base (connect src dst site : Analysis Notes Unit) fun g _ =>
      g.hasEdge src dst := by
  unfold connect modifyGraph
  exact .of_graph fun _ hbase hs => ⟨extends_addEdge ..,
    Stable.addEdge site hs (hsource.mono hbase) (htarget.mono hbase), hasEdge_addEdge ..⟩

theorem builds_connect? {dst : Option NodeId} (site : Option StmtId)
    (hsource : base.HasValue src) (htarget : base.HasHolder? dst) :
    Upholds law base (connect? src dst site : Analysis Notes Unit) := by
  cases dst with
  | none => exact .act (fun g ns => ((), g, ns)) fun _ _ hs =>
    ⟨.refl _, hs, trivial⟩
  | some dst =>
    exact (builds_connect site hsource (htarget dst rfl).hasGoal).upholds

/-- The node of a local is found by it. -/
theorem locates_varNode {name : String} :
    Ensures law base (ctx.varNode m name : Analysis Notes NodeId) fun g var =>
      g.find? (.var (.named m name)) = some var :=
  .of_graph fun _ _ hs =>
    ⟨extends_share _, Stable.varNode ctx m name hs, find?_share _ rfl⟩

theorem builds_varNode {name : String} :
    Ensures law base (ctx.varNode m name : Analysis Notes NodeId) HasHolder :=
  locates_varNode.weaken fun _ _ _ hfind => .of_find? hfind

theorem builds_varNode? {name : Option String} :
    Ensures law base (ctx.varNode? m name : Analysis Notes (Option NodeId)) HasHolder? := by
  cases name with
  | none => exact .pure fun _ _ => nofun
  | some name =>
    exact .map (builds_varNode.weaken fun _ _ _ hvar => .some hvar)

theorem builds_thisNode? :
    Ensures law base (ctx.thisNode? m : Analysis Notes (Option NodeId)) HasHolder? :=
  builds_varNode?

theorem builds_paramNode? {index : Nat} :
    Ensures law base (ctx.paramNode? m index : Analysis Notes (Option NodeId)) HasHolder? :=
  builds_varNode?

theorem builds_viewParamNode? {handler : MethodId} {position : Nat} :
    Ensures law base (ctx.viewParamNode? handler position : Analysis Notes (Option NodeId)) HasHolder? := by
  unfold Context.viewParamNode?
  cases ctx.viewParam handler position with
  | absent => exact .pure fun _ _ => nofun
  | mistyped => exact (Ensures.gap _).andThen fun _ => .pure fun _ _ => nofun
  | found name =>
    exact .map (builds_varNode.weaken fun _ _ _ hvar => .some hvar)

end Stable

variable {origin : FlowGraph} {good : FlowGraph → α → Prop}

/-- The part keeps states sound and makes additions to the graph, and gives something good. -/
abbrev Builds (origin base : FlowGraph) (part : Analysis Notes α)
    (good : FlowGraph → α → Prop) : Prop :=
  Ensures (.grafting Notes origin) base part good

/-- The part keeps states sound and makes additions to the graph. -/
abbrev Extending (origin base : FlowGraph) (part : Analysis Notes α) : Prop :=
  Builds origin base part fun _ _ => True

theorem sound_graft {st : Progress Notes} {g : FlowGraph}
    (h : st.Sound ∧ Grafts origin st.graph) (hgrafts : Grafts st.graph g) :
    Progress.Sound { st with graph := g } ∧ Grafts origin g :=
  ⟨⟨hgrafts.wellFormed h.1.wellFormed, Grounded.mono hgrafts.toExtends hgrafts.links_eq h.1.fits⟩,
    h.2.trans hgrafts⟩

instance : Stable (.grafting Notes origin) where
  sound h := h.1
  report _ h := ⟨⟨h.1.wellFormed, h.1.fits⟩, h.2⟩
  varNode _ _ _ h := sound_graft h (grafts_share rfl rfl)
  addEdge site h hsource htarget := sound_graft h (grafts_addEdge site hsource htarget)

theorem builds_bindHandler (op : NodeId) (handler : Handler) :
    Extending origin base (onGraph (FlowGraph.bindHandler op handler) : Analysis Notes Bool) :=
  .of_graph fun _ _ hs => ⟨(grafts_bindHandler op handler).toExtends,
    sound_graft hs (grafts_bindHandler op handler), trivial⟩

end Analysis

end WidgetFlow
