import WidgetFlow.Proofs.Solution.Pauses
import WidgetFlow.Proofs.WindowTrees

/-!
# Looking menu items up

A look-up of a menu item finds the items below its receivers that carry its identifier, and below a
receiver with no such item all items there (`FindsItem`). The second rule is a negative one, and
nothing that has been given is ever taken back. So the look-ups have given exactly what they find at
the end as long as no item comes too late: a receiver that had none when the look-up was resolved
has none at the end (`menu_items_exact`). Otherwise items that were given in their stead remain
(`fallback_outlives_match`).
-/

namespace WidgetFlow

open Analysis FlowGraph

namespace Solving

variable {ctx : Context} {g : FlowGraph} {sol : Solution} {op n receiver : NodeId}
variable {old new s : Progress Notes}

/-- Nothing below a node carries an identifier that an operation has got. -/
def Bare (g : FlowGraph) (sol : Solution) (op receiver : NodeId) : Prop :=
  ∀ item ∈ g.descendants receiver, ¬ Carries g sol op item

/-- A look-up of a menu item finds what carries its identifier below a receiver, and all that is
below a receiver where nothing does. -/
def FindsItem (g : FlowGraph) (sol : Solution) (op n : NodeId) : Prop :=
  ∃ receiver, sol.receivers.holds op receiver ∧ n ∈ g.descendants receiver ∧
    (Carries g sol op n ∨ n ≠ receiver ∧ Bare g sol op receiver)

/-! ## Single look-ups -/

theorem withIds_eq_nil_iff :
    withIds g (sol.viewIds.image op) [receiver] = [] ↔
      Bare g sol op receiver := by
  simp only [List.eq_nil_iff_forall_not_mem, mem_withIds_image, List.mem_singleton, exists_eq_left,
    Bare, not_and]

theorem mem_foundBelow_menuItem :
    n ∈ foundBelow g (sol.viewIds.image op) .menuItem receiver ↔
      n ∈ g.descendants receiver ∧
        (Carries g sol op n ∨ n ≠ receiver ∧ Bare g sol op receiver) := by
  by_cases hbare : Bare g sol op receiver
  · have hcarries : n ∈ g.descendants receiver → ¬ Carries g sol op n :=
      hbare n
    have hfound : foundBelow g (sol.viewIds.image op) .menuItem receiver =
        below g receiver := by
      unfold foundBelow
      rw [withIds_eq_nil_iff.mpr hbare]
    rw [hfound, mem_below]
    tauto
  · have hfound : foundBelow g (sol.viewIds.image op) .menuItem receiver =
        withIds g (sol.viewIds.image op) [receiver] := by
      rw [← withIds_eq_nil_iff] at hbare
      unfold foundBelow
      split
      · contradiction
      · rfl
    rw [hfound, mem_withIds_image]
    simp [hbare]

/-- Resolving a look-up of a menu item finds what it should at that time. -/
theorem mem_foundBy_menuItem :
    n ∈ foundBy ctx g sol op (.findInView .menuItem) ↔
      FindsItem g sol op n := by
  simp only [foundBy, FindsItem, List.mem_flatMap, Relation.mem_image, mem_foundBelow_menuItem]

/-- The results after a step are those before it and what an operation offers before it. -/
def GivesOffered (ctx : Context) (op : NodeId) (kind : OpKind) (s t : Progress Notes) :
    Prop :=
  ∀ key o, t.notes.solution.results.holds key o →
    s.notes.solution.results.holds key o ∨ key = op ∧ Offers ctx op kind s o

def SameResults (s t : Progress Notes) : Prop :=
  t.notes.solution.results = s.notes.solution.results

/-- A loop over pairs gives nothing if its rounds give nothing. -/
theorem results_forPairs {firsts seconds : List NodeId} {step : NodeId → NodeId → Solving Bool}
    (hstep : ∀ first second st, (step first second).Gives st fun _ => SameResults st) :
    (forPairs firsts seconds step).Gives s fun _ => SameResults s := by
  have hrefl : SameResults s s := rfl
  exact gives_foldlM hrefl fun _ st hstate pair _ => gives_bind.mpr
    ((hstep pair.1 pair.2 st).weaken fun _ _ ht => gives_pure.mpr (ht.trans hstate))

theorem results_resolveSetContent : (resolveSetContent op).Gives s fun _ => SameResults s := by
  rw [resolveSetContent, gives_bind, gives_getSolution]
  refine results_forPairs fun win view st => ?_
  have hset : Does (fun _ => True) (setRoot win view) st _ :=
    does_setRoot (fun _ _ => trivial) st
  refine hset.gives.weaken fun changed t ht => ?_
  cases changed with
  | false => exact ht.1 ▸ rfl
  | true =>
    have hrooted : Rooted win view st t := ht
    rw [SameResults, hrooted.notes_eq]

theorem results_resolveAddChild : (resolveAddChild op).Gives s fun _ => SameResults s := by
  rw [resolveAddChild, gives_bind, gives_getSolution]
  refine results_forPairs fun p c st => (runs_addChild p c st).gives.weaken ?_
  rintro _ _ (⟨_, rfl, _⟩ | ⟨_, _, _, rfl⟩)
  · rfl
  · rfl

theorem results_resolveSetId : (resolveSetId op).Gives s fun _ => SameResults s := by
  rw [resolveSetId, gives_bind, gives_getSolution]
  split
  · exact gives_pure.mpr rfl
  refine gives_bind.mpr ((runs_reportOthers op _ _ s).gives.weaken fun _ middle hmiddle => ?_)
  have hmiddle : SameResults s middle := by rw [SameResults, hmiddle.2]
  refine gives_foldlM hmiddle fun _ st hstate view _ => ?_
  rw [gives_bind, giveId, gives_bind, gives_getGraph]
  split
  · exact gives_pure.mpr (gives_pure.mpr hstate)
  · exact gives_bind.mpr (gives_modifyGraph.mpr (gives_pure.mpr (gives_pure.mpr hstate)))

theorem results_resolveSetListener :
    (resolveSetListener ctx op).Gives s fun _ => SameResults s := by
  rw [resolveSetListener, gives_bind, gives_getGraph]
  split
  · exact gives_pure.mpr rfl
  rw [gives_bind, gives_getSolution]
  refine gives_bind.mpr ((results_forPairs fun view lis st => ?_).weaken
    fun changed middle hmiddle => ?_)
  · refine (gives_bindOnce ctx op view lis st).weaken ?_
    rintro _ _ (⟨_, rfl, _⟩ | ⟨_, htied⟩)
    · rfl
    · rw [SameResults, htied.notes_eq]
      rfl
  · split
    · refine gives_bind.mpr ((runs_tracePaths ctx middle).gives.weaken fun _ t htraced => ?_)
      rw [gives_pure, SameResults, htraced.notes_eq]
      exact hmiddle
    · exact gives_pure.mpr hmiddle

/-- Resolving an operation gives it what it offers, and gives nothing to other operations. -/
theorem results_resolve (op : NodeId) (kind : OpKind) :
    (resolve ctx op kind).Gives s fun _ => GivesOffered ctx op kind s := by
  have hfind : (resolveFind ctx op kind).Gives s fun _ => GivesOffered ctx op kind s :=
    (runs_resolveFind ctx op kind s).gives.weaken fun _ _ hlooked key o hresult =>
      ((hlooked.results_iff key o).mp hresult).symm
  have hsame : (resolve ctx op kind).Gives s (fun _ => SameResults s) →
      (resolve ctx op kind).Gives s fun _ => GivesOffered ctx op kind s :=
    fun h => h.weaken fun _ _ ht _ _ hresult => .inl (ht ▸ hresult)
  cases kind with
  | findInView => exact hfind
  | findInWindow => exact hfind
  | findByPlace => exact hfind
  | setContent => exact hsame results_resolveSetContent
  | addChild => exact hsame results_resolveAddChild
  | setId => exact hsame results_resolveSetId
  | setListener => exact hsame results_resolveSetListener
  | _ => exact hsame (gives_pure.mpr rfl)

/-- A visit gives an operation what it offers at the beginning, and nothing to other operations. -/
theorem results_visit (op : NodeId) :
    (visit ctx op).Gives s fun _ t => ∀ key o,
      t.notes.solution.results.holds key o →
        s.notes.solution.results.holds key o ∨ key = op ∧
          ∃ found, s.graph.op? op = some found ∧ Offers ctx op found.kind s o := by
  unfold visit
  rw [gives_bind, gives_getGraph]
  split
  next found hop =>
    refine gives_bind.mpr ((results_resolve op found.kind).weaken ?_)
    intro resolved middle hmiddle
    have hgiven : ∀ key o, middle.notes.solution.results.holds key o →
        s.notes.solution.results.holds key o ∨ key = op ∧
          ∃ found, s.graph.op? op = some found ∧ Offers ctx op found.kind s o :=
      fun key o hresult => (hmiddle key o hresult).imp_right
        fun hoffers => ⟨hoffers.1, found, hop, hoffers.2⟩
    rw [gives_bind, gives_getSolution]
    split
    · exact gives_pure.mpr hgiven
    · refine gives_bind.mpr ((runs_push ctx op _ middle).gives.weaken fun changed t hpushed => ?_)
      refine gives_pure.mpr fun key o hresult => hgiven key o ?_
      rwa [hpushed.collects.results_eq] at hresult
  next => exact gives_pure.mpr fun _ _ => .inl

/-! ## What stays -/

/-- An object is admitted by a look-up, is below a receiver of it, and either carries its identifier
or is below one of some nodes without an item that does. -/
def Backed (ctx : Context) (bare : NodeId → Prop) (g : FlowGraph) (sol : Solution)
    (op o : NodeId) : Prop :=
  (∃ receiver, sol.receivers.holds op receiver ∧ o ∈ g.descendants receiver ∧
    (Carries g sol op o ∨ o ≠ receiver ∧ bare receiver)) ∧
      ctx.hierarchy.admits g o op .result

section Backed

variable {bare : NodeId → Prop} {o : NodeId}

theorem Backed.mono (h : Backed ctx bare old.graph old.notes.solution op o)
    (hg : Advances old new) (hold : old.Sound) (hobject : old.graph.HasObject o) :
    Backed ctx bare new.graph new.notes.solution op o := by
  obtain ⟨⟨receiver, hreceiver, hbelow, hcarries⟩, hadmits⟩ := h
  have hreveals := hg.reveals
  rw [Backed,
    Hierarchy.admits_eq hg.1.toDevelops hold.wellFormed (lt_size_of_isObject hobject)]
  exact ⟨⟨receiver, hreveals.receivers op receiver hreceiver,
    hreveals.mem_descendants hbelow, hcarries.imp_left hreveals.carries⟩, hadmits⟩

/-- What a look-up offers is backed if the receivers without an item are among the nodes. -/
theorem Offers.backed (h : Offers ctx op (.findInView .menuItem) s o)
    (hbare : ∀ receiver, s.notes.solution.receivers.holds op receiver →
      Bare s.graph s.notes.solution op receiver → bare receiver) :
    Backed ctx bare s.graph s.notes.solution op o := by
  obtain ⟨receiver, hreceiver, hbelow, hcarries⟩ := mem_foundBy_menuItem.mp h.1
  exact ⟨⟨receiver, hreceiver, hbelow,
    hcarries.imp_right fun hnone => ⟨hnone.1, hbare receiver hreceiver hnone.2⟩⟩, h.2⟩

/-- The passes over the operations come to an operation in a state. -/
def Visits (ctx : Context) (op : NodeId) (st : Progress Notes) : Prop :=
  ∃ left changed,
    Paused ctx ctx.wire.2.graph ctx.wire.2.policy ⟨.pass (op :: left) changed, st⟩

/-- During the passes, all that a look-up of a menu item has given is backed. -/
def ItemsBacked (ctx : Context) (bare : NodeId → Prop) (op : NodeId) : Pause → Prop
  | ⟨.pass _ _, st⟩ => ∀ found, st.graph.op? op = some found →
      found.kind = .findInView .menuItem → ∀ o, st.notes.solution.results.holds op o →
        Backed ctx bare st.graph st.notes.solution op o
  | _ => True

theorem Resumes.itemsBacked {first last : Pause} (h : Resumes ctx first last)
    (hsober : Sober ctx g first)
    (hpaused : Paused ctx ctx.wire.2.graph ctx.wire.2.policy first)
    (hbare : ∀ st receiver, Visits ctx op st →
      st.notes.solution.receivers.holds op receiver →
        Bare st.graph st.notes.solution op receiver → bare receiver)
    (hbacked : ItemsBacked ctx bare op first) : ItemsBacked ctx bare op last := by
  cases h with
  | settle =>
    -- before the first pass, look-ups have given nothing
    intro found hop hkind o hresult
    obtain ⟨_, hinflated⟩ := hsober
    exact absurd (hkind.symm.trans (hinflated.given op found hop o hresult)) nofun
  | @visit s t visited left changed more houtcome =>
    intro found hop hkind o hresult
    have hsound : s.Sound := hsober.tidy.sound
    have hg : Advances s t := ((runs_visit hsober.tidy visited).gives _ _ houtcome).advances
    rw [hg.1.op?_eq] at hop
    rcases results_visit visited _ _ houtcome op o hresult with
      hold | ⟨rfl, found', hop', hoffers⟩
    · exact (hbacked found hop hkind o hold).mono hg hsound
        (hsound.fits.results op o hold).2
    · cases hop.symm.trans hop'
      rw [hkind] at hoffers
      have hobject := hasObject_of_mem_foundBy hsound.wellFormed hsound.fits hoffers.1
      refine (hoffers.backed fun receiver => ?_).mono hg hsound hobject
      exact hbare s receiver ⟨left, changed, hpaused⟩
  | again => exact hbacked
  | _ => trivial

end Backed

end Solving

/-! ## A sample menu -/

namespace Sample

def menuType : Ty := .ref "android.view.Menu"

def itemType : Ty := .ref "android.view.MenuItem"

def findItem (id : ResId) : Value :=
  .call (call "menu" "android.view.Menu" "findItem" itemType [.int] [.int id])

/-- A program that fills its options menu from a resource and looks up an item that it adds only
afterwards, and one that it never adds. -/
def hasty : Scene where
  classes := notebook.classes
  methods := #[{
    sig := {
      owner := "app.Main", result := .boolean, name := "onCreateOptionsMenu", params := [menuType] }
    locals := .ofList [("this", Ty.ref "app.Main"), ("menu", menuType),
      ("inflater", .ref "android.view.MenuInflater"), ("quit", itemType), ("none", itemType),
      ("added", itemType)]
    body := [
      .identity "this" .this,
      .identity "menu" (.parameter 0),
      .call (call "inflater" "android.view.MenuInflater" "inflate" .void [.int, menuType]
        [.int 5, .var "menu"]),
      .assign (.var "quit") (findItem 77),
      .assign (.var "added") (.call (call "menu" "android.view.Menu" "add" itemType
        [.int, .int, .int, .ref "java.lang.CharSequence"]
        [.int 0, .int 77, .int 0, .str "Quit"])),
      .assign (.var "none") (findItem 99)] }]

/-- The resource has one item, which carries another identifier. -/
def hastyMenu : Context where
  scene := hasty
  hierarchy := {
    classes := Hierarchy.enter
      (Hierarchy.enter {} [
        { name := "android.app.Activity" },
        { name := "android.view.Menu", isInterface := true },
        { name := "android.view.MenuItem", isInterface := true },
        { name := "android.view.MenuInflater" }])
      (hasty.classes.map (.ofDecl hasty))
    application := ["app.Main"] }
  resources := (ResourceTable.addId { sys := {}, sysLayouts := {} } .id "open" 42).addMenu
    "main" 5 {
      owner := some "android.view.Menu"
      children := [{ owner := some "android.view.MenuItem", id := some 42 }] }

/-- What the analysis finds. Nodes 9 and 15 are the look-ups, 10 is the item that is added and 16
the one of the resource. The first look-up has given both though only one carries its identifier; no
node carries that of the second, which is node 13. -/
def Lingers (out : Outcome) : Prop :=
  ((out.graph.op? 9).map Op.kind = some (.findInView .menuItem) ∧
    out.solution.results.holds 9 16 ∧
    16 ∉ Solving.foundBy hastyMenu out.graph out.solution 9 (.findInView .menuItem)) ∧
  ((out.graph.op? 15).map Op.kind = some (.findInView .menuItem) ∧
    out.solution.results.holds 15 10 ∧ out.solution.viewIds.image 15 = [13] ∧
    ∀ n ∈ out.graph.nodes.toList, n.idNode ≠ some 13)

instance (out : Outcome) : Decidable (Lingers out) :=
  inferInstanceAs (Decidable (_ ∧ _))

theorem hasty_analyzed : ∃ out, hastyMenu.analyze = .ok out ∧ Lingers out :=
  Context.exists_outcome (by decide +kernel)

end Sample

namespace Outcome

open Solving

variable {ctx : Context} {out : Outcome} {op : NodeId} {found : Op}

/-- All that a look-up of a menu item has given is backed at the end. -/
theorem backed_of_results (h : ctx.analyze = .ok out) (hop : out.graph.op? op = some found)
    (hkind : found.kind = .findInView .menuItem) {bare : NodeId → Prop}
    (hbare : ∀ st receiver, Visits ctx op st →
      st.notes.solution.receivers.holds op receiver →
        Bare st.graph st.notes.solution op receiver → bare receiver)
    {o : NodeId} (hresult : out.solution.results.holds op o) :
    Backed ctx bare out.graph out.solution op o := by
  obtain ⟨wired, solved, hwire, hsolve, rfl⟩ := ctx.analyze_ok h
  obtain ⟨changed, hend⟩ := paused_solve _ _ _ _ hsolve
  have hgraph : wired.graph = ctx.wire.2.graph := by rw [hwire]
  have hpolicy : wired.policy = ctx.wire.2.policy := by rw [hwire]
  rw [hgraph, hpolicy] at hend
  obtain ⟨_, _, hbacked⟩ := hend.keeps
    (fun pause => Paused ctx ctx.wire.2.graph ctx.wire.2.policy pause ∧
      ItemsBacked ctx bare op pause)
    (hgraph ▸ Context.wellFormed_wire hwire) ⟨.refl, trivial⟩
    fun first last hsober hresumes hfirst =>
      ⟨hfirst.1.tail hresumes, hresumes.itemsBacked hsober hfirst.1 hbare hfirst.2⟩
  exact hbacked found hop hkind o hresult

/-- A look-up of a menu item has given all that it finds at the end and its result admits. It has
given nothing else if every receiver that had no item with its identifier when the look-up was
resolved has none at the end. -/
theorem menu_items_exact (h : ctx.analyze = .ok out) (hop : out.graph.op? op = some found)
    (hkind : found.kind = .findInView .menuItem) (o : NodeId) :
    (FindsItem out.graph out.solution op o ∧
        ctx.hierarchy.admits out.graph o op .result →
      out.solution.results.holds op o) ∧
    ((∀ st receiver, Visits ctx op st → st.notes.solution.receivers.holds op receiver →
        Bare st.graph st.notes.solution op receiver →
          Bare out.graph out.solution op receiver) →
      out.solution.results.holds op o →
        FindsItem out.graph out.solution op o ∧
          ctx.hierarchy.admits out.graph o op .result) := by
  refine ⟨?_, fun hlate => backed_of_results h hop hkind hlate⟩
  rintro ⟨hfinds, hadmits⟩
  obtain ⟨st, hstate⟩ := analyzed h
  rw [hstate.graph_eq] at hop hadmits hfinds
  rw [hstate.solution_eq] at hfinds ⊢
  have hgiven := (hstate.settled op found hop).1.given
  rw [hkind] at hgiven
  exact (hgiven o ⟨mem_foundBy_menuItem.mpr hfinds, hadmits⟩).1

/-- In the sample menu, the look-up of the item that is never added has given exactly what it finds,
among it the item that is added for another look-up. -/
theorem menu_items_exact_hasty :
    ∃ out, Sample.hastyMenu.analyze = .ok out ∧
      (out.graph.op? 15).map Op.kind = some (.findInView .menuItem) ∧
        out.solution.results.holds 15 10 ∧ ∀ o,
          out.solution.results.holds 15 o ↔
            FindsItem out.graph out.solution 15 o ∧
              Sample.hastyMenu.hierarchy.admits out.graph o 15 .result := by
  obtain ⟨out, h, _, hkind, hresult, hids, hnames⟩ := Sample.hasty_analyzed
  refine ⟨out, h, hkind, hresult, fun o => ?_⟩
  obtain ⟨found, hop, hkind⟩ := Option.map_eq_some_iff.mp hkind
  obtain ⟨hall, honly⟩ := menu_items_exact h hop hkind o
  refine ⟨honly fun st receiver _ _ _ => ?_, hall⟩
  -- no node at all carries the identifier
  rintro item _ ⟨id, hid, hname⟩
  rw [← Relation.mem_image, hids, List.mem_singleton] at hid
  subst hid
  unfold idOf? node at hname
  rcases Nat.lt_or_ge item out.graph.nodes.size with hlt | hge
  · rw [Array.getD_eq_getD_getElem?, Array.getElem?_eq_getElem hlt] at hname
    exact hnames _ (Array.mem_toList_iff.mpr (Array.getElem_mem hlt)) hname
  · rw [Array.getD_eq_getD_getElem?, Array.getElem?_eq_none hge] at hname
    exact absurd hname nofun

/-- Items that a look-up was given because none carried its identifier stay when one does: in the
sample menu, the item of the resource is given for the one that is added after the look-up. -/
theorem fallback_outlives_match :
    ¬ ∀ (ctx : Context) (out : Outcome), ctx.analyze = .ok out →
      ∀ op found, out.graph.op? op = some found → found.kind = .findInView .menuItem →
        ∀ o, out.solution.results.holds op o ↔
          FindsItem out.graph out.solution op o ∧
            ctx.hierarchy.admits out.graph o op .result := by
  intro hall
  obtain ⟨out, h, ⟨hkind, hresult, hmissed⟩, _⟩ := Sample.hasty_analyzed
  obtain ⟨found, hop, hkind⟩ := Option.map_eq_some_iff.mp hkind
  have hfinds := (hall Sample.hastyMenu out h 9 found hop hkind 16).mp hresult
  exact hmissed (mem_foundBy_menuItem.mpr hfinds.1)

end Outcome

end WidgetFlow
