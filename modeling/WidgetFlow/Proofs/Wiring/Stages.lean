import WidgetFlow.Proofs.Wiring.Noting

/-!
# The stages of the wiring

The wiring of a program reads the program (`readProgram`), lets what is written to its arrays flow
to what is read from them, which ends the walk over it (`walkProgram`), and then wires what the walk
has noted (`wireNoted`). The states between these stages are `Context.recorded` and
`Context.walked`; a wiring that comes to an end passes through both (`Context.Passes`).
-/

namespace WidgetFlow

open Analysis FlowGraph

namespace Wiring

variable {ctx : Context}

def wireNoted (ctx : Context) : Wiring Unit := do
  if ctx.options.dialogs then
    wireDialogs ctx
  wireViews ctx
  wireContextMenus ctx

theorem wireProgram_eq_walk : wireProgram ctx = walkProgram ctx >>= fun _ => wireNoted ctx := by
  rw [wireProgram_eq]
  unfold wireParts wireNoted
  split <;> simp only [bind_assoc]

theorem wires_wireNoted : Wires ctx (wireNoted ctx) := by
  intro s
  unfold wireNoted
  split
  · exact (builds_wireDialogs trivial trivial).andThen fun _ =>
      builds_wireViews.andThen fun _ => builds_wireContextMenus fun _ => trivial
  · exact builds_wireViews.andThen fun _ => builds_wireContextMenus fun _ => trivial

/-- What wiring a walked statement makes hold stays until the program has been read. -/
theorem brings_readProgram {site : StmtId} {stmt : Stmt} {made : Progress Notes → Prop}
    (hmethod : site.method ∈ walkedMethods ctx) (hstmt : ctx.scene.stmt? site = some stmt)
    (hlasts : Lasts ctx made) (hmade : Brings made (wireStmt ctx site stmt)) :
    Brings made (readProgram ctx) := by
  have hids : Wires ctx (wireIds ctx.resources) := fun _ => builds_wireIds
  have hactivities : Wires ctx (wireActivities ctx) := fun _ => builds_wireActivities
  exact .after hids fun _ => .after hactivities fun _ =>
    brings_wireStmts hmethod hstmt hlasts hmade

end Wiring

namespace Context

open Wiring

/-- The state in which the wiring starts. -/
def initial (ctx : Context) : Progress Notes :=
  { policy := { severity := ctx.options.severity }, notes := {} }

/-- The state of the wiring when the program has been read. -/
def recorded (ctx : Context) : Progress Notes := ((readProgram ctx).outcome ctx.initial).2

def walked (ctx : Context) : Progress Notes :=
  ((walkProgram ctx).outcome { policy := { severity := ctx.options.severity }, notes := {} }).2

/-- The wiring comes by these states. -/
structure Passes (ctx : Context) (wired : Progress Notes) : Prop where
  read : (readProgram ctx).outcome ctx.initial = (.ok (), ctx.recorded)
  arrays : (wireArrays ctx).outcome ctx.recorded = (.ok (), ctx.walked)
  finish : (wireNoted ctx).outcome ctx.walked = (.ok (), wired)

variable {ctx : Context}

theorem passes (h : ctx.wire.1 = .ok ()) : ctx.Passes ctx.wire.2 := by
  have hwire : (wireProgram ctx).outcome ctx.initial = (.ok (), ctx.wire.2) := by
    rw [← h]
    rfl
  rw [wireProgram_eq_walk] at hwire
  obtain ⟨_, walked, hwalk, hfinish⟩ := outcome_bind_ok hwire
  have hwalked : ctx.walked = walked := congrArg Prod.snd hwalk
  rw [walkProgram_eq] at hwalk
  obtain ⟨_, recorded, hread, harrays⟩ := outcome_bind_ok hwalk
  have hrecorded : ctx.recorded = recorded := congrArg Prod.snd hread
  exact ⟨hrecorded ▸ hread, hrecorded ▸ hwalked ▸ harrays, hwalked ▸ hfinish⟩

theorem Passes.of_stmt {wired : Progress Notes} (h : ctx.Passes wired) {site : StmtId} {stmt : Stmt}
    (made : Progress Notes → Prop) (hmethod : site.method ∈ walkedMethods ctx)
    (hstmt : ctx.scene.stmt? site = some stmt) (hlasts : Lasts ctx made)
    (hmade : Brings made (wireStmt ctx site stmt)) : made ctx.recorded :=
  (brings_readProgram hmethod hstmt hlasts hmade _ (framed_start _) _ _ h.read).2

variable {wired : Progress Notes}

theorem Passes.framed_recorded (h : ctx.Passes wired) : ctx.recorded.Framed := by
  have hwires : Wires ctx (readProgram ctx) := fun _ => builds_readProgram (.inr trivial)
  exact (hwires.gives_steps (framed_start _) _ _ h.read).1

theorem Passes.steps_walked (h : ctx.Passes wired) :
    ctx.walked.Framed ∧ Steps ctx .all ctx.recorded ctx.walked := by
  have hwires : Wires ctx (wireArrays ctx) := fun _ => builds_wireArrays
  exact hwires.gives_steps h.framed_recorded _ _ h.arrays

theorem Passes.extends_walked (h : ctx.Passes wired) :
    Extends ctx.recorded.graph ctx.walked.graph :=
  (h.steps_walked.2.grows h.framed_recorded).1

theorem Passes.extends_wired (h : ctx.Passes wired) : Extends ctx.walked.graph wired.graph :=
  ((wires_wireNoted.gives_steps h.steps_walked.1 _ _ h.finish).2.grows h.steps_walked.1).1

end Context

end WidgetFlow
