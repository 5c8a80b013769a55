import Mathlib.Logic.Relation
import WidgetFlow.Proofs.Building
import WidgetFlow.Proofs.Wiring.Creation

/-!
# The steps of the wiring

The wiring makes nodes, edges and operations, notes calls and binds handlers; `Step` has one
constructor for each way in which it changes the graph and its notes, with what is known where it
does so. Every step keeps the state framed (`Step.framed`), so what every step keeps is kept by the
whole wiring.

The lemmas about the parts of the wiring say what these parts ensure, under any law that is kept by
the steps and lets the wiring stop by itself where it meets a view that cannot fill a context menu
(`Walks`). The law `Stepping` tells the steps themselves.
-/

namespace WidgetFlow

open Analysis Platform.ClassName

variable {op : Op}

namespace FlowGraph

/-- Adds a registration that the platform makes, with its only handler. -/
def install (op : Op) (handler : Handler) (g : FlowGraph) : FlowGraph :=
  let (id, g) := g.addOp op
  ((g.markPrebound id).bindHandler id handler).2

/-- The operation that inflates a layout into a part of an alert dialog. -/
def contentOp (receiver layout : NodeId) (site : StmtId) : Op :=
  { kind := .inflateContent, receiver := receiver, parameter := layout, site
    artificial := true, idiom := some .alertDialog }

/-- The operation that looks up the frame for custom views in a dialog. -/
def frameOp (dialog id frame : NodeId) (site : StmtId) : Op :=
  { kind := .findInWindow, parameter := id, receiver := dialog, result := frame, site
    artificial := true, idiom := some .alertDialog }

/-- Adds a variable for a dialog, which flows to it. -/
def windowVar (dialog : NodeId) (site : StmtId) (g : FlowGraph) : NodeId × FlowGraph :=
  let made := g.makeVar (.ref alertDialog)
  (made.1, (made.2.addEdge dialog made.1 (some site)).2)

/-- Adds a variable for a dialog, with the operation that inflates a layout into it. -/
def placeAlert (dialog : NodeId) (layout : ResId) (site : StmtId) (g : FlowGraph) : FlowGraph :=
  let layout := g.idNode .layout layout
  let win := layout.2.windowVar dialog site
  (win.2.addOp (contentOp win.1 layout.1 site)).2

/-- Adds a look-up of the frame for custom views and the content of the frame. -/
def fillFrame (dialog id layout : NodeId) (site : StmtId) (g : FlowGraph) : FlowGraph :=
  let made := g.makeVar (.ref frameLayout)
  ((made.2.addOp (frameOp dialog id made.1 site)).2.addOp (contentOp made.1 layout site)).2

variable {g : FlowGraph} {dialog : NodeId} (site : StmtId)

theorem hasMade_windowVar (h : g.Numbered) :
    (g.windowVar dialog site).2.HasMade alertDialog
      (g.windowVar dialog site).1 :=
  (hasMade_makeVar h _).mono (extends_addEdge ..)

theorem grafts_windowVar (h : g.Numbered) (hdialog : g.HasValue dialog) :
    Grafts g (g.windowVar dialog site).2 := by
  have hmade := hasMade_makeVar h alertDialog
  refine (grafts_makeVar _).trans
    (grafts_addEdge_of_place _ (hdialog.mono (grafts_makeVar _).toExtends) hmade.hasVar.hasPlace ?_)
  obtain ⟨_, number, hkind⟩ := hmade
  rw [hkind]
  rfl

theorem grafts_placeAlert (hold : g.WellFormed) (h : g.Framed)
    (hdialog : g.HasValue dialog) (layout : ResId) :
    Grafts g (g.placeAlert dialog layout site) := by
  let shared := g.idNode .layout layout
  have hshare : Grafts g shared.2 := grafts_share rfl rfl
  have hlayout : shared.2.HasValue shared.1 := hasValue_share rfl
  have hnumbered : shared.2.Numbered := (hshare.framed hold h).numbered
  refine hshare.trans ((grafts_windowVar site hnumbered (hdialog.mono hshare.toExtends)).trans ?_)
  exact grafts_addOp ⟨.some (hasMade_windowVar site hnumbered).hasVar.hasValue,
    .some (hlayout.mono ((grafts_makeVar _).toExtends.trans (extends_addEdge ..))), nofun⟩

theorem grafts_fillFrame {id layout : NodeId} (h : g.Numbered)
    (hdialog : g.HasValue dialog) (hid : g.HasValue id) (hlayout : g.HasValue layout) :
    Grafts g (g.fillFrame dialog id layout site) := by
  have hframe := (hasMade_makeVar h frameLayout).hasVar
  have hmake : Grafts g (g.makeVar (.ref frameLayout)).2 :=
    grafts_makeVar _
  have hg := hmake.toExtends
  have hlook : Grafts _ (addOp (frameOp dialog id _ site) _).2 :=
    grafts_addOp ⟨.some (hdialog.mono hg), .some (hid.mono hg), .some hframe⟩
  refine hmake.trans (hlook.trans (grafts_addOp ⟨.some ?_, .some ?_, nofun⟩))
  · exact hframe.hasValue.mono hlook.toExtends
  · exact hlayout.mono (hg.trans hlook.toExtends)

theorem ops_fillFrame {id layout : NodeId} (h : g.Numbered) : ∃ frame lookup op,
    (g.fillFrame dialog id layout site).HasMade frameLayout frame ∧
      (g.fillFrame dialog id layout site).op? lookup = some (frameOp dialog id frame site) ∧
      (g.fillFrame dialog id layout site).op? op = some (contentOp frame layout site) := by
  let made := g.makeVar (.ref frameLayout)
  let looked := (made.2.addOp (frameOp dialog id made.1 site)).2
  have hmade : made.2.HasMade frameLayout made.1 := hasMade_makeVar h _
  have hlook : AddsOp (frameOp dialog id made.1 site) made.2 looked := addsOp_addOp _
  have hfill : AddsOp (contentOp made.1 layout site) looked _ := addsOp_addOp _
  exact ⟨made.1, _, _, hmade.mono (hlook.toExtends.trans hfill.toExtends),
    hfill.toExtends.op?_some hlook.op?_new, hfill.op?_new⟩

end FlowGraph

/-- Whether an operation inflates a layout into a part of an alert dialog. -/
def Op.isContent (op : Op) : Bool :=
  op.artificial && op.kind = .inflateContent && op.idiom = some .alertDialog

/-- What a part of the wiring may do: bind handlers of the program at certain registrations, show
dialogs, build them, and let values flow to objects. -/
structure Permit where
  binds : NodeId → Prop
  shows : Prop
  builds : Prop
  loose : Prop

def Permit.all : Permit := ⟨fun _ => True, True, True, True⟩

def Permit.none : Permit := ⟨fun _ => False, False, False, True⟩

namespace Wiring

open FlowGraph

/-! ## Notes -/

/-- The notes of the wiring name variables of the graph, which has no links yet. -/
structure Notes.Fits (g : FlowGraph) (ns : Notes) : Prop where
  links : g.links = #[]
  itemSelectedVars : ∀ (callback : MethodId) var,
    ns.facts.itemSelectedVars[callback]? = some var → g.HasHolder var
  registrations : ∀ registration ∈ ns.registrations,
    g.HasHolder registration.view ∧ g.HasHolder registration.listener

theorem Notes.Fits.mono {old new : FlowGraph} {ns : Notes} (hg : Extends old new)
    (hlinks : new.links = old.links) (h : ns.Fits old) : ns.Fits new where
  links := hlinks.trans h.links
  itemSelectedVars callback var hvar := (h.itemSelectedVars callback var hvar).mono hg
  registrations registration hmem := ⟨(h.registrations registration hmem).1.mono hg,
    (h.registrations registration hmem).2.mono hg⟩

instance : Grounded Notes := ⟨Notes.Fits, Notes.Fits.mono⟩

/-- What stays as it is when something else is noted than a registration, an access to an array or
what becomes of a dialog that is shown. Of the calls, more may be noted. -/
structure Notes.Leaves (old new : Notes) : Prop where
  registrations : new.registrations = old.registrations
  calls : old.calls <+: new.calls
  arrayReads : new.arrayReads = old.arrayReads
  arrayWrites : new.arrayWrites = old.arrayWrites
  alerts : new.alerts = old.alerts

theorem Notes.Leaves.fits {g : FlowGraph} {old new : Notes} (h : old.Leaves new)
    (hvars : new.facts.itemSelectedVars = old.facts.itemSelectedVars) (hold : old.Fits g) :
    new.Fits g :=
  ⟨hold.links, by rw [hvars]; exact hold.itemSelectedVars,
    by rw [h.registrations]; exact hold.registrations⟩

/-! ## Steps -/

/-- The steps of the wiring. Some of them are made only where they are permitted. -/
inductive Step (ctx : Context) (permit : Permit) : FlowGraph × Notes → FlowGraph × Notes → Prop
  | share {kind : NodeKind} (hop : kind.isOp = false) (hmade : kind.madeNumber? = none)
      (horigin : ctx.Originates permit.builds kind) (g : FlowGraph) (ns : Notes) :
      Step ctx permit (g, ns) ((g.share kind).2, ns)
  | item (owner : String) (attrs : List (String × String)) (g : FlowGraph) (ns : Notes) :
      Step ctx permit (g, ns) ((g.menuItemNode owner attrs).2, ns)
  | synthetic (handler : SyntheticHandler) (g : FlowGraph) (ns : Notes) :
      Step ctx permit (g, ns) ((g.addSynthetic handler).2, ns)
  | makeVar {owner : String} (howner : owner ≠ alertDialog) (g : FlowGraph)
      (ns : Notes) : Step ctx permit (g, ns) ((g.makeVar (.ref owner)).2, ns)
  | window {dialog : NodeId} (site : StmtId) {g : FlowGraph} (hdialog : g.HasValue dialog)
      (ns : Notes) : Step ctx permit (g, ns) ((g.windowVar dialog site).2, ns)
  | edge {src dst : NodeId} (site : Option StmtId) {g : FlowGraph}
      (hsource : g.HasValue src)
      (htarget : g.HasGoal dst ∨ permit.loose ∧ g.HasOpen dst) (ns : Notes) :
      Step ctx permit (g, ns) ((g.addEdge src dst site).2, ns)
  | name (n id : NodeId) (g : FlowGraph) (ns : Notes) :
      Step ctx permit (g, ns) (g.setId n id, ns)
  | cancelable (dialog : NodeId) (v : Bool) (g : FlowGraph) (ns : Notes) :
      Step ctx permit (g, ns) (g.setCancelable dialog v, ns)
  | contextMenu (filler : MethodId) (view : NodeId) {menuParam : NodeId} {g : FlowGraph}
      (hparam : g.HasHolder menuParam) (ns : Notes) :
      Step ctx permit (g, ns) ((g.contextMenuNode filler menuParam view).2, ns)
  | note {g : FlowGraph} {ns ns' : Notes} (h : ns.Leaves ns')
      (hfits : ns'.Fits g) (hshows : ns'.facts.dialogShows = ns.facts.dialogShows) :
      Step ctx permit (g, ns) (g, ns')
  | write {site : StmtId} {base : String} {index v : Value}
      (hwrite : ctx.WritesArray site base index v) {g g' : FlowGraph} {var : NodeId}
      (hvar : g.varNode (.named site.method base)
        (ctx.scene.varTy? site.method base) = (var, g')) (ns : Notes) :
      Step ctx permit (g, ns)
        (g', { ns with arrayWrites := ns.arrayWrites.add var site })
  | read {site : StmtId} {base : String} {dst index : Value}
      (hread : ctx.ReadsArray site dst base index) {g g' : FlowGraph} {var : NodeId}
      (hvar : g.varNode (.named site.method base)
        (ctx.scene.varTy? site.method base) = (var, g')) (ns : Notes) :
      Step ctx permit (g, ns)
        (g', { ns with arrayReads := ns.arrayReads.add var site })
  /-- Calls are recorded that show dialogs. -/
  | shown (hpermit : permit.shows) {g : FlowGraph} {ns ns' : Notes}
      (h : ns.Leaves ns') (hfits : ns'.Fits g) :
      Step ctx permit (g, ns) (g, ns')
  /-- An alert dialog gets its content, if it has got none. -/
  | alert (hpermit : permit.shows) {dialog : NodeId} {layout : ResId} (site : StmtId)
      (hlayout : ctx.resources.sysLayout? "alert_dialog" = some layout) {g : FlowGraph}
      (hdialog : g.HasValue dialog) {ns : Notes}
      (hnew : ns.alerts.contains dialog = false) :
      Step ctx permit (g, ns) (g.placeAlert dialog layout site,
        { ns with alerts := ns.alerts.insert dialog })
  | bare (hpermit : permit.shows) (dialog : NodeId)
      (hlayout : ctx.resources.sysLayout? "alert_dialog" = none) (g : FlowGraph)
      (ns : Notes) :
      Step ctx permit (g, ns)
        (g, { ns with alerts := ns.alerts.insert dialog })
  /-- A layout is inflated into the frame of a dialog for custom views. -/
  | fill {dialog id layout : NodeId} (site : StmtId) {g : FlowGraph}
      (hdialog : g.HasValue dialog) (hid : g.HasValue id) (hlayout : g.HasValue layout)
      (ns : Notes) :
      Step ctx permit (g, ns) (g.fillFrame dialog id layout site, ns)
  | operation {op : Op} (hkind : op.kind.isSetListener = false) (hcontent : op.isContent = false)
      {g : FlowGraph} (hslots : g.HasSlots op) (ns : Notes) :
      Step ctx permit (g, ns) ((g.addOp op).2, ns)
  | register {op : Op} (hkind : op.kind.isSetListener) {site : StmtId}
      {registration : Platform.Registration} (hsite : op.site = some site)
      (hcall : (ctx.call? site).bind ctx.hierarchy.registration? = some registration)
      {g : FlowGraph} (hslots : g.HasSlots op) (ns : Notes) :
      Step ctx permit (g, ns) ((g.addOp op).2, ns)
  /-- A registration for the creation of context menus gets its handlers later. -/
  | defer {registration : ContextRegistration} {g : FlowGraph}
      (hview : g.HasHolder registration.view)
      (hlistener : g.HasHolder registration.listener) (ns : Notes) :
      Step ctx permit (g, ns) (g.markPrebound registration.op,
        { ns with registrations := ns.registrations ++ [registration] })
  | install {op : Op} (hkind : op.kind.isSetListener) (index : Nat) {g : FlowGraph}
      (hslots : g.HasSlots op) (ns : Notes) :
      Step ctx permit (g, ns) (g.install op (.synthetic index), ns)
  | bind {op : NodeId} (h : permit.binds op) (handler : MethodId) (g : FlowGraph)
      (ns : Notes) :
      Step ctx permit (g, ns) ((g.bindHandler op (.method handler)).2, ns)

section Step

variable {ctx : Context} {permit : Permit} {old new : FlowGraph × Notes}

/-- A step puts something on the graph, unless it lets a value flow to an object. -/
theorem Step.grafts (h : Step ctx permit old new) (hold : old.1.WellFormed)
    (hframed : old.1.Framed) :
    Grafts old.1 new.1 ∨ permit.loose ∧ ∃ src dst site, old.1.HasValue src ∧
      old.1.HasOpen dst ∧ new.1 = (old.1.addEdge src dst site).2 := by
  cases h with
  | edge site hsource htarget =>
    refine htarget.imp (grafts_addEdge site hsource) ?_
    exact fun ⟨hloose, hopen⟩ => ⟨hloose, _, _, site, hsource, hopen, rfl⟩
  | share hop hmade => exact .inl (grafts_share hop hmade)
  | item => exact .inl (grafts_add rfl rfl)
  | synthetic handler => exact .inl (grafts_addSynthetic handler)
  | makeVar => exact .inl (grafts_makeVar _)
  | window site hdialog => exact .inl (grafts_windowVar site hframed.numbered hdialog)
  | name n id => exact .inl (grafts_setId n id)
  | cancelable dialog v => exact .inl (grafts_setCancelable dialog v)
  | contextMenu filler view hparam => exact .inl (grafts_contextMenuNode filler view hparam)
  | note | shown | bare => exact .inl (.refl _)
  | write _ hvar | read _ hvar =>
    obtain rfl := congrArg Prod.snd hvar
    exact .inl (grafts_share rfl rfl)
  | alert _ site _ hdialog =>
    dsimp only
    exact .inl (grafts_placeAlert site hold hframed hdialog _)
  | fill site hdialog hid hlayout =>
    dsimp only
    exact .inl (grafts_fillFrame site hframed.numbered hdialog hid hlayout)
  | operation _ _ hslots | register _ _ _ hslots => exact .inl (grafts_addOp hslots)
  | defer => exact .inl (grafts_markPrebound _)
  | install _ _ hslots =>
    exact .inl ((grafts_addOp hslots).trans
      ((grafts_markPrebound _).trans (grafts_bindHandler _ _)))
  | bind => exact .inl (grafts_bindHandler _ _)

theorem Step.fits (h : Step ctx permit old new) (hg : Extends old.1 new.1)
    (hlinks : new.1.links = old.1.links) (hold : old.2.Fits old.1) : new.2.Fits new.1 := by
  have hfits : old.2.Fits new.1 := hold.mono hg hlinks
  cases h with
  | note _ hnew | shown _ _ hnew => exact hnew
  | write | read | alert | bare => exact ⟨hfits.links, hfits.itemSelectedVars, hfits.registrations⟩
  | defer hview hlistener =>
    refine ⟨hfits.links, hfits.itemSelectedVars, fun other hother => ?_⟩
    rcases List.mem_append.mp hother with hother | hother
    · exact hfits.registrations other hother
    · rw [List.mem_singleton.mp hother]
      exact ⟨hview.mono hg, hlistener.mono hg⟩
  | _ => exact hfits

variable {g g' : FlowGraph} {policy : Policy} {ns ns' : Notes}

/-- A step lets the graph grow and keeps the state framed. -/
theorem Step.framed (h : Step ctx permit (g, ns) (g', ns'))
    (hold : Progress.Framed ⟨g, policy, ns⟩) :
    Extends g g' ∧ Progress.Framed ⟨g', policy, ns'⟩ := by
  obtain ⟨⟨hwellFormed, hfits⟩, hframed⟩ := hold
  rcases h.grafts hwellFormed hframed with hgrafts | ⟨_, src, dst, site, hsource, hopen, heq⟩
  · exact ⟨hgrafts.toExtends, ⟨hgrafts.wellFormed hwellFormed,
      h.fits hgrafts.toExtends hgrafts.links_eq hfits⟩, hgrafts.framed hwellFormed hframed⟩
  · obtain rfl : g' = _ := heq
    have hg := g.extends_addEdge src dst site
    exact ⟨hg, ⟨hwellFormed.addEdge site hsource hopen.hasValue,
      h.fits hg (links_addEdge ..) hfits⟩,
      hframed.addEdge site hwellFormed hopen.1.1 (NodeKind.isFrame_eq_false hopen.2)⟩

/-- Values flow only to where they may unless all is permitted. -/
theorem Step.aimed {origin : FlowGraph} (h : Step ctx permit (g, ns) (g', ns'))
    (htight : ¬ permit.loose) (hold : Progress.Framed ⟨g, policy, ns⟩)
    (haimed : Aimed origin g) : Aimed origin g' := by
  rcases h.grafts hold.wellFormed hold.framed with hgrafts | ⟨hloose, _⟩
  · exact hgrafts.aimed hold.wellFormed haimed
  · exact absurd hloose htight

end Step

/-- The wiring goes from one state to another, whatever it reports. -/
def Steps (ctx : Context) (permit : Permit) (old new : Progress Notes) : Prop :=
  Relation.ReflTransGen (Step ctx permit) (old.graph, old.notes) (new.graph, new.notes)

/-- What every step keeps is kept by all of them. The states on the way are framed. -/
theorem Steps.keeps {ctx : Context} {permit : Permit} {old new : Progress Notes}
    (h : Steps ctx permit old new) (inv : FlowGraph × Notes → Prop)
    (hstep : ∀ {g g' ns ns'}, Progress.Framed ⟨g, old.policy, ns⟩ →
      Step ctx permit (g, ns) (g', ns') → inv (g, ns) → inv (g', ns'))
    (hframed : old.Framed) (hold : inv (old.graph, old.notes)) : inv (new.graph, new.notes) := by
  have hrun : ∀ st, Relation.ReflTransGen (Step ctx permit) (old.graph, old.notes) st →
      Progress.Framed ⟨st.1, old.policy, st.2⟩ ∧ inv st := by
    intro st hsteps
    induction hsteps with
    | refl => exact ⟨hframed, hold⟩
    | tail _ hlast ih => exact ⟨(hlast.framed ih.1).2, hstep ih.1 hlast ih.2⟩
  exact (hrun _ h).2

/-- The error tells that no method fills the context menus of a class of views. -/
def Unfillable (ctx : Context) (error : AnalysisError) : Prop :=
  ∃ owner, error = .dispatch Platform.Method.viewOnCreateContextMenu owner ∧
    ctx.hierarchy.isView owner ∧
    ctx.hierarchy.dispatch? Platform.Method.viewOnCreateContextMenu owner = none

/-- States under the law are framed, and the steps of the wiring keep it. -/
class Walks (ctx : outParam Context) (permit : outParam Permit) (law : Law Notes) : Prop where
  framed : ∀ {st : Progress Notes}, law.inv st → st.Framed
  report : ∀ {st : Progress Notes} (policy : Policy), law.inv st →
    law.inv { st with policy }
  step : ∀ {g g' : FlowGraph} {policy : Policy} {ns ns' : Notes},
    law.inv ⟨g, policy, ns⟩ → Step ctx permit (g, ns) (g', ns') →
      law.inv ⟨g', policy, ns'⟩
  can : ∀ {error : AnalysisError}, Unfillable ctx error → law.can error

/-- States are framed and are come to from a first one in steps of the wiring. -/
def Stepping (ctx : Context) (permit : Permit) (first : Progress Notes) : Law Notes where
  inv st := st.Framed ∧ Steps ctx permit first st
  can := Unfillable ctx

instance (ctx : Context) (permit : Permit) (first : Progress Notes) :
    Walks ctx permit (Stepping ctx permit first) where
  framed h := h.1
  report _ h := ⟨⟨⟨h.1.wellFormed, h.1.fits⟩, h.1.framed⟩, h.2⟩
  step h hstep := ⟨(hstep.framed h.1).2, h.2.tail hstep⟩
  can h := h

variable {ctx : Context} {permit : Permit} {law : Law Notes} {base : FlowGraph}

instance [Walks ctx permit law] : Stable law where
  sound h := (Walks.framed h).toSound
  report := Walks.report
  varNode _ _ _ h := Walks.step h (.share rfl rfl (.plain rfl) _ _)
  addEdge site h hsource htarget := Walks.step h (.edge site hsource (.inl htarget) _)

/-! ## Actions -/

section Actions

variable [Walks ctx permit law] {α : Type} {good : FlowGraph → α → Prop}

include ctx permit

/-- A step of the wiring as an action on the graph and the notes. -/
theorem ensures_step {change : FlowGraph → Notes → α × FlowGraph × Notes}
    (h : ∀ s : Progress Notes, Extends base s.graph → s.Framed →
      Step ctx permit (s.graph, s.notes) (change s.graph s.notes).2 ∧
        good (change s.graph s.notes).2.1 (change s.graph s.notes).1) :
    Ensures law base (act change) good := by
  refine .act change fun s hbase hs => ?_
  have hframed : s.Framed := Walks.framed hs
  obtain ⟨hstep, hgood⟩ := h s hbase hframed
  exact ⟨(hstep.framed hframed).1, Walks.step hs hstep, hgood⟩

/-- A step of the wiring as an action on the graph. -/
theorem ensures_graphStep {change : FlowGraph → α × FlowGraph}
    (h : ∀ s : Progress Notes, Extends base s.graph → s.Framed →
      Step ctx permit (s.graph, s.notes) ((change s.graph).2, s.notes) ∧
        good (change s.graph).2 (change s.graph).1) :
    Ensures law base (onGraph change) good := by
  change Ensures law base (act fun g ns => ((change g).1, (change g).2, ns)) good
  exact ensures_step h

theorem ensures_modifyGraph {change : FlowGraph → FlowGraph}
    (h : ∀ s : Progress Notes, Extends base s.graph →
      Step ctx permit (s.graph, s.notes) (change s.graph, s.notes)) :
    Upholds law base (modifyGraph change) :=
  ensures_graphStep fun s hbase _ => ⟨h s hbase, trivial⟩

theorem locates_share {kind : NodeKind} {key : NodeKey}
    (horigin : ctx.Originates permit.builds kind) (hkey : kind.key? = some key)
    (hop : kind.isOp = false) (hmade : kind.madeNumber? = none) :
    Ensures law base (onGraph (share kind)) fun g res => g.find? key = some res.1 :=
  ensures_graphStep fun _ _ _ => ⟨.share hop hmade horigin _ _, find?_share kind hkey⟩

theorem locates_obtain {kind : NodeKind} {key : NodeKey}
    (horigin : ctx.Originates permit.builds kind) (hkey : kind.key? = some key)
    (hop : kind.isOp = false) (hmade : kind.madeNumber? = none) :
    Ensures law base (onGraph (obtain kind)) fun g n => g.find? key = some n :=
  ensures_graphStep fun _ _ _ => ⟨.share hop hmade horigin _ _, find?_share kind hkey⟩

theorem locates_idNode (kind : IdKind) (v : ResId) :
    Ensures law base (idNode kind v) fun g n =>
      g.find? (.id kind v) = some n :=
  locates_obtain (.plain rfl) rfl rfl rfl

theorem builds_idNode (kind : IdKind) (v : ResId) :
    Ensures law base (idNode kind v) HasValue :=
  (locates_idNode kind v).weaken fun _ _ _ hfind => .of_find? hfind

theorem builds_makeVar (owner : String) (howner : owner ≠ alertDialog) :
    Ensures law base (makeVar owner) (HasMade · owner) :=
  ensures_graphStep fun _ _ hs =>
    ⟨.makeVar howner _ _, hasMade_makeVar hs.framed.numbered owner⟩

/-- A new variable that values may be put into. -/
theorem builds_makeHolder {owner : String} (howner : owner ∉ NodeKind.reservedClasses) :
    Ensures law base (makeVar owner) HasHolder := by
  refine (builds_makeVar owner fun halert => howner ?_).weaken fun _ _ _ hmade =>
    ⟨hmade.hasVar, ?_⟩
  · exact halert ▸ List.mem_cons_of_mem _ List.mem_cons_self
  · obtain ⟨_, number, hkind⟩ := hmade
    rw [hkind]
    exact decide_eq_false howner

theorem builds_addOp (hslots : base.HasSlots op)
    (hkind : op.kind.isSetListener = false) (hcontent : op.isContent = false) :
    Ensures law base (addOp op) fun g id => g.op? id = some op :=
  ensures_graphStep fun _ hbase _ =>
    ⟨.operation hkind hcontent (hslots.mono hbase) _, (addsOp_addOp op).op?_new⟩

theorem builds_menuItemNode {owner : String} {attrs : List (String × String)} :
    Ensures law base (onGraph (menuItemNode owner attrs)) HasValue := by
  refine ensures_graphStep fun s _ _ => ⟨.item owner attrs _ _, ?_, ?_⟩
  · simp [menuItemNode]
  · simp [menuItemNode, isOp, kind_add, NodeKind.isOp, NodeKind.op?]

theorem builds_contextMenuNode (filler : MethodId) (view : NodeId) {menuParam : NodeId}
    (hparam : base.HasHolder menuParam) :
    Ensures law base (onGraph (contextMenuNode filler menuParam view)) fun g res =>
      g.HasObject res.1 :=
  ensures_graphStep fun _ hbase _ => ⟨.contextMenu filler view (hparam.mono hbase) _,
    hasObject_contextMenuNode filler menuParam view⟩

theorem builds_addSynthetic (handler : SyntheticHandler) :
    Ensures law base (onGraph (addSynthetic handler)) fun g res =>
      g.HasValue res.1 := by
  refine ensures_graphStep fun _ _ _ => ⟨.synthetic handler _ _, ?_, ?_⟩
  · simp [addSynthetic]
  · simp [addSynthetic, isOp, kind_add, NodeKind.isOp, NodeKind.op?]

/-- A variable for a dialog, with what is done next. -/
theorem builds_windowVar {dialog : NodeId} (site : StmtId) {next : NodeId → Wiring α}
    (hdialog : base.HasValue dialog)
    (hnext : ∀ win g, Extends base g → g.HasVar win →
      g.hasEdge dialog win → Ensures law g (next win) good) :
    Ensures law base (do
      let win ← makeVar alertDialog
      connect dialog win (some site)
      next win) good := by
  change Ensures law base (onGraph (windowVar dialog site) >>= next) good
  have hwindow : Ensures law base (onGraph (windowVar dialog site)) fun g win =>
      g.HasVar win ∧ g.hasEdge dialog win :=
    ensures_graphStep fun _ hbase hs => ⟨.window site (hdialog.mono hbase) _,
      (hasMade_windowVar site hs.framed.numbered).hasVar, hasEdge_addEdge ..⟩
  exact hwindow.bind fun win g hg hwindow => hnext win g hg hwindow.1 hwindow.2

/-- A registration that the platform makes, with what is done next. -/
theorem builds_install {index : Nat} {next : Wiring α} (hslots : base.HasSlots op)
    (hkind : op.kind.isSetListener) (hnext : Ensures law base next good) :
    Ensures law base (do
      let id ← addOp op
      modifyGraph (markPrebound id)
      let _ ← onGraph (bindHandler id (.synthetic index))
      next) good := by
  let installed : Wiring Unit := onGraph fun g => ((), g.install op (.synthetic index))
  change Ensures law base (installed >>= fun _ => next) good
  have hinstalled : Upholds law base installed := ensures_graphStep fun _ hbase _ =>
    ⟨.install hkind index (hslots.mono hbase) _, trivial⟩
  exact hinstalled.andThen fun _ => hnext

/-- A registration whose handlers are bound later, with what is done next. -/
theorem builds_defer {registration : ContextRegistration} {next : Unit → Wiring α}
    (hview : base.HasHolder registration.view) (hlistener : base.HasHolder registration.listener)
    (hnext : Ensures law base (next ()) good) :
    Ensures law base (do
      modifyGraph (markPrebound registration.op)
      let done ← modifyNotes fun ns =>
        { ns with registrations := ns.registrations ++ [registration] }
      next done) good := by
  let deferred : Wiring Unit := act fun g ns => ((), g.markPrebound registration.op,
    { ns with registrations := ns.registrations ++ [registration] })
  change Ensures law base (deferred >>= fun _ => next ()) good
  have hdeferred : Upholds law base deferred := ensures_step fun _ hbase _ =>
    ⟨.defer (hview.mono hbase) (hlistener.mono hbase) _, trivial⟩
  exact hdeferred.andThen fun _ => hnext

/-! ## Notes -/

theorem builds_note {change : Notes → Notes} (h : ∀ ns : Notes, ns.Leaves (change ns))
    (hvars : ∀ ns, (change ns).facts.itemSelectedVars = ns.facts.itemSelectedVars)
    (hshows : ∀ ns, (change ns).facts.dialogShows = ns.facts.dialogShows) :
    Upholds law base (modifyNotes change) := by
  change Upholds law base (act fun g ns => ((), g, change ns))
  exact ensures_step fun _ _ hs =>
    ⟨.note (h _) ((h _).fits (hvars _) hs.fits) (hshows _), trivial⟩

/-- A change of the facts that leaves the named variables and the dialogs that are shown alone. -/
theorem builds_modifyFacts {change : Facts → Facts}
    (hvars : ∀ facts, (change facts).itemSelectedVars = facts.itemSelectedVars := by
      exact fun _ => rfl)
    (hshows : ∀ facts, (change facts).dialogShows = facts.dialogShows := by exact fun _ => rfl) :
    Upholds law base (modifyFacts change) :=
  builds_note (fun _ => ⟨rfl, List.prefix_rfl, rfl, rfl, rfl⟩) (fun ns => hvars ns.facts)
    fun ns => hshows ns.facts

/-- Notes facts, also calls that show dialogs. -/
theorem builds_modifyShows (hpermit : permit.shows) {change : Facts → Facts}
    (hvars : ∀ facts, (change facts).itemSelectedVars = facts.itemSelectedVars) :
    Upholds law base (modifyFacts change) := by
  have hleaves : ∀ ns : Notes, ns.Leaves { ns with facts := change ns.facts } :=
    fun _ => ⟨rfl, List.prefix_rfl, rfl, rfl, rfl⟩
  change Upholds law base
    (act fun g ns => ((), g, { ns with facts := change ns.facts }))
  exact ensures_step fun _ _ hs =>
    ⟨.shown hpermit (hleaves _) ((hleaves _).fits (hvars _) hs.fits), trivial⟩

theorem builds_noteCall (role : CallRole) (receiver : NodeId) (site : StmtId) :
    Upholds law base (noteCall role receiver site) :=
  builds_note (fun _ => ⟨rfl, List.prefix_append _ _, rfl, rfl, rfl⟩) (fun _ => rfl) fun _ => rfl

theorem builds_noteListCall (role : ListRole) (site : StmtId) :
    Upholds law base (noteListCall role site) :=
  builds_note (fun _ => ⟨rfl, List.prefix_rfl, rfl, rfl, rfl⟩) (fun _ => rfl) fun _ => rfl

end Actions

end Wiring

end WidgetFlow
