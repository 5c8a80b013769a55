import WidgetFlow.Proofs.Wiring.Stages

/-!
# Custom views in the graph of a program

The view of a dialog is set for every dialog that flows to the receiver of a call which sets it, once
the builders have made their dialogs, and for every dialog that is made by a builder which flows
there (`Context.CallsOn`). The graph of the program has the operations then
(`Context.setsView_wire`).
-/

namespace WidgetFlow

open Analysis FlowGraph Platform

namespace Wiring

variable {ctx : Context} {dialog : NodeId} {id : ResId} {here : CallSite}

/-- A setter is found if it is called on a local that the dialog flows to, or if a builder passes
it on. -/
theorem gives_wireDialogCalls {built : Built} {s : Progress Notes} (hs : s.Framed)
    (hbuilt : built.Fits s.graph) (hdialog : isDialogNode (s.graph.kind dialog))
    (hset : (∃ name, Noted .dialogSetter here name s ∧
        s.graph.MayBe here.method name dialog) ∨
      built.setters.holds dialog here.site ∧ isAlert ctx (s.graph.kind dialog)) :
    (wireDialogCalls ctx built).Gives s fun _ t =>
      Viewed ctx dialog t.graph here.site := by
  have hcalls : Wires ctx (callsOn ctx .dialogSetter isDialogNode) := fun _ =>
    builds_callsOn.upholds
  have hfound : (callsOn ctx .dialogSetter isDialogNode).Gives s fun setters t =>
      setters.holds dialog here.site ∨
        built.setters.holds dialog here.site ∧ isAlert ctx (s.graph.kind dialog) := by
    rcases hset with ⟨name, hnoted, hflows⟩ | hset
    · refine (gives_callsOn hnoted hflows (hasObject_of_isDialogNode hdialog) hdialog).weaken ?_
      exact fun _ _ ht => .inl ht.2
    · exact fun _ _ _ => .inr hset
  refine gives_bind.mpr (((hcalls.gives_steps hs).and hfound).weaken ?_)
  rintro setters middle ⟨⟨hmiddle, hsteps⟩, hset⟩
  have hrest : Ensures (Stepping ctx .all middle) s.graph _ _ :=
    builds_wireNotedSetters trivial setters hbuilt
  refine (hrest.gives (hsteps.grows hs).1 ⟨hmiddle, .refl⟩).weaken fun _ t ht => ?_
  exact ht.2.2 dialog here.site hdialog hset

/-! ## Wiring a program -/

/-- The wiring of a program after the noted calls on dialogs. -/
def finishProgram (ctx : Context) : Wiring Unit := do
  wireActivityDialogs ctx .activityShow
  wireActivityDialogs ctx .activityDismiss
  wireViews ctx
  wireContextMenus ctx

theorem wireProgram_of_dialogs (hdialogs : ctx.options.dialogs) :
    wireProgram ctx = (do
      walkProgram ctx
      let built ← buildDialogs ctx
      wireDialogCalls ctx built
      finishProgram ctx) := by
  rw [wireProgram_eq]
  unfold wireParts finishProgram wireDialogs
  simp only [hdialogs, if_true, bind_assoc]

theorem wires_finishProgram : Wires ctx (finishProgram ctx) := fun _ =>
  (builds_wireActivityDialogs fun _ => trivial).andThen fun _ =>
    (builds_wireActivityDialogs fun _ => trivial).andThen fun _ =>
      builds_wireViews.andThen fun _ => builds_wireContextMenus fun _ => trivial

theorem brings_walkProgram {role : CallRole} {name : String} (h : Plays ctx here name role)
    (hname : here.call.name ∈ setupNames) : Brings (Noted role here name) (walkProgram ctx) := by
  have harrays : Wires ctx (wireArrays ctx) := fun _ => builds_wireArrays
  obtain ⟨hmethod, hstmt, hcall⟩ := h.walked
  rw [walkProgram_eq]
  refine (brings_readProgram hmethod hstmt (lasts_noted ctx) ?_).bind (lasts_noted ctx) fun _ =>
    harrays
  unfold wireStmt
  rw [hcall]
  exact brings_wireCall h hname

end Wiring

namespace Context

open Wiring

/-- The state of the wiring when the builders have made their dialogs. -/
def furnished (ctx : Context) : Progress Notes := ((buildDialogs ctx).outcome ctx.walked).2

/-- A call is made on a dialog: either the dialog flows to its receiver, or a builder does that
flows to the receiver of a call that creates the dialog. -/
inductive CallsOn (ctx : Context) (here : CallSite) (dialog : NodeId) : Prop
  | direct (base : String) (hcall : here.OnDialog ctx base)
      (hdialog : isDialogNode (ctx.furnished.graph.kind dialog))
      (hflows : ctx.furnished.graph.MayBe here.method base dialog)
  | built (create : CallSite) (base base' : String) (builder : NodeId)
      (hcall : here.OnBuilder ctx base) (hcreate : create.OnBuilder ctx base')
      (hname : create.call.name ∈ ["create", "show"])
      (hbuilder : isAlloc (ctx.walked.graph.kind builder))
      (hflows : ctx.walked.graph.MayBe here.method base builder)
      (hflows' : ctx.walked.graph.MayBe create.method base' builder)
      (hdialog : ctx.furnished.graph.find? (.dialog create.site) = some dialog)

variable {ctx : Context} {wired : Progress Notes} {here : CallSite} {dialog : NodeId} {id : ResId}

theorem CallsOn.walked (h : ctx.CallsOn here dialog) : here.Walked ctx := by
  cases h with
  | direct _ hcall => exact hcall.toWalked
  | built _ _ _ _ hcall => exact hcall.toWalked

theorem CallsOn.isDialogNode (h : ctx.CallsOn here dialog) :
    isDialogNode (ctx.furnished.graph.kind dialog) := by
  cases h with
  | direct _ _ hdialog => exact hdialog
  | built _ _ _ _ _ _ _ _ _ _ hfind =>
    have hkey := (find?_some hfind).2
    cases hkind : ctx.furnished.graph.kind dialog <;> rw [hkind] at hkey <;> cases hkey
    rfl

/-- The wiring of a program with dialogs comes by these states. -/
structure Staged (ctx : Context) (built : Built) (called wired : Progress Notes) : Prop where
  walk : (walkProgram ctx).outcome { policy := { severity := ctx.options.severity }, notes := {} } =
    (.ok (), ctx.walked)
  build : (buildDialogs ctx).outcome ctx.walked = (.ok built, ctx.furnished)
  call : (wireDialogCalls ctx built).outcome ctx.furnished = (.ok (), called)
  finish : (finishProgram ctx).outcome called = (.ok (), wired)

theorem exists_staged (hdialogs : ctx.options.dialogs) (h : ctx.wire = (.ok (), wired)) :
    ∃ built called, Staged ctx built called wired := by
  unfold Context.wire at h
  rw [wireProgram_of_dialogs hdialogs] at h
  obtain ⟨_, walked, hwalk, h⟩ := outcome_bind_ok h
  obtain ⟨built, furnished, hbuild, h⟩ := outcome_bind_ok h
  obtain ⟨_, called, hcalls, h⟩ := outcome_bind_ok h
  have hwalked : ctx.walked = walked := congrArg Prod.snd hwalk
  have hfurnished : ctx.furnished = furnished := by rw [Context.furnished, hwalked, hbuild]
  refine ⟨built, called, ⟨?_, ?_, ?_, h⟩⟩
  · rw [hwalked, hwalk]
  · rw [hwalked, hfurnished, hbuild]
  · rw [hfurnished, hcalls]

section Staged

variable {built : Built} {called : Progress Notes}

theorem Staged.framed_walked (h : Staged ctx built called wired) : ctx.walked.Framed := by
  have hwires : Wires ctx (walkProgram ctx) := fun _ => builds_walkProgram (.inr trivial)
  exact (hwires.gives_steps (framed_start _) _ _ h.walk).1

theorem Staged.framed_furnished (h : Staged ctx built called wired) :
    (ctx.furnished.Framed ∧ Steps ctx .all ctx.walked ctx.furnished) ∧
      built.Fits ctx.furnished.graph := by
  have hbuild : Ensures (Stepping ctx .all ctx.walked) ctx.walked.graph _ _ :=
    builds_buildDialogs trivial
  exact (hbuild.gives (.refl _) ⟨h.framed_walked, .refl⟩ _ _ h.build).2

theorem Staged.grown_called (h : Staged ctx built called wired) :
    Extends ctx.furnished.graph called.graph ∧ called.Framed := by
  obtain ⟨⟨hfurnished, _⟩, hfits⟩ := h.framed_furnished
  have hcalls : Upholds (Stepping ctx .all ctx.furnished) ctx.furnished.graph _ :=
    builds_wireDialogCalls trivial hfits
  have hcalled := gives_framed hcalls hfurnished _ _ h.call
  exact ⟨hcalled.2.1, hcalled.1⟩

theorem Staged.grown_wired (h : Staged ctx built called wired) : Extends called.graph wired.graph :=
  ((wires_finishProgram.gives_steps h.grown_called.2 _ _ h.finish).2.grows h.grown_called.2).1

theorem Staged.noted (h : Staged ctx built called wired) (hname : here.call.name = "setView")
    (hcalls : ctx.CallsOn here dialog) :
    (∃ base, Noted .dialogSetter here base ctx.furnished ∧
      ctx.furnished.graph.MayBe here.method base dialog) ∨ built.setters.holds dialog here.site := by
  have hsetup : here.call.name ∈ setupNames := by simp [hname, setupNames]
  have hsetter : isSetter "setView" := by decide
  cases hcalls with
  | direct base hcall _ hflows =>
    have hrole : dialogRole? here.call.name = some .dialogSetter := by
      rw [dialogRole?, hname, if_pos hsetter]
    have hnoted := brings_walkProgram (.dialog hcall hrole) hsetup _ (framed_start _) _ _ h.walk
    have hsteps := h.framed_furnished.1.2
    exact .inl ⟨base, lasts_noted ctx _ _ hnoted.1 hsteps hnoted.2, hflows⟩
  | built create base base' builder hcall hcreate hcreates hbuilder hflows hflows' hdialog =>
    have hrole : builderRole? here.call.name = some .builderSetter := by
      rw [builderRole?, hname, if_pos hsetter]
    have hrole' : builderRole? create.call.name = some .builderCreate := by
      rcases List.mem_pair.mp hcreates with hcreates | hcreates <;> rw [hcreates] <;> decide
    have hnoted := brings_walkProgram (.builder hcall hrole) hsetup _ (framed_start _) _ _ h.walk
    have hnoted' := brings_walkProgram (.builder hcreate hrole')
      (List.mem_cons_of_mem _ hcreates) _ (framed_start _) _ _ h.walk
    obtain ⟨found, hfound, hset⟩ :=
      gives_buildDialogs hnoted.1 hnoted.2 hnoted'.2 hbuilder hflows hflows' _ _ h.build
    cases hfound.symm.trans hdialog
    exact .inr hset

theorem Staged.setsView (h : Staged ctx built called wired)
    (hid : ctx.resources.sysId? "custom" = some id) (hname : here.call.name = "setView")
    (hcalls : ctx.CallsOn here dialog) (halert : isAlert ctx (ctx.furnished.graph.kind dialog)) :
    SetsView ctx here.call here.method dialog id called.graph := by
  obtain ⟨hmethod, hstmt, hexpr⟩ := hcalls.walked
  have hcall : ctx.call? here.site = some here.call := by rw [call?, hstmt, Option.bind_some, hexpr]
  obtain ⟨⟨hfurnished, _⟩, hfits⟩ := h.framed_furnished
  have hset := (h.noted hname hcalls).imp_right fun hset => And.intro hset halert
  exact gives_wireDialogCalls hfurnished hfits hcalls.isDialogNode hset _ _ h.call here.call id hcall
    hname hid

end Staged

/-- The graph of a program is that of its dialogs with something added. -/
theorem extends_furnished (hdialogs : ctx.options.dialogs) (h : ctx.wire = (.ok (), wired)) :
    Extends ctx.furnished.graph wired.graph := by
  obtain ⟨built, called, hstaged⟩ := exists_staged hdialogs h
  exact hstaged.grown_called.1.trans hstaged.grown_wired

theorem CallsOn.isWindow (hcalls : ctx.CallsOn here dialog) (hdialogs : ctx.options.dialogs)
    (h : ctx.wire = (.ok (), wired)) : (wired.graph.kind dialog).isWindow := by
  have hdialog := hcalls.isDialogNode
  have hsize := (hasObject_of_isDialogNode hdialog).hasValue.1
  rw [(extends_furnished hdialogs h).keeps NodeKind.isWindow NodeKind.isWindow_core hsize]
  unfold Wiring.isDialogNode at hdialog
  split at hdialog
  next heq => rw [heq]; rfl
  next => exact absurd hdialog Bool.false_ne_true

theorem setsView_wire (hdialogs : ctx.options.dialogs)
    (hid : ctx.resources.sysId? "custom" = some id) (hname : here.call.name = "setView")
    (hcalls : ctx.CallsOn here dialog) (halert : isAlert ctx (wired.graph.kind dialog))
    (h : ctx.wire = (.ok (), wired)) : SetsView ctx here.call here.method dialog id wired.graph := by
  obtain ⟨built, called, hstaged⟩ := exists_staged hdialogs h
  have hsize := (hasObject_of_isDialogNode hcalls.isDialogNode).hasValue.1
  have hkept := (extends_furnished hdialogs h).keeps (isAlert ctx) isAlert_core hsize
  exact (hstaged.setsView hid hname hcalls (hkept.symm.trans halert)).mono hstaged.grown_wired

end Context

end WidgetFlow
