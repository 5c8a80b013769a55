import WidgetFlow.Outcome
import WidgetFlow.Proofs.Scene
import WidgetFlow.Proofs.Wiring.Flow
import WidgetFlow.Proofs.Wiring.ListViews
import WidgetFlow.Proofs.Wiring.TabHosts

/-!
# The graph of a program is well-formed

The lemmas about the parts of the wiring are put together here: if the wiring comes to an end, the
graph of the program is well-formed and has no containment links yet (`Context.wellFormed_wire`). If
the program assigns only to what can be assigned to, as those that have been read do
(`Scene.assignable_ofProgram`), then all edges lead to variables, fields and operations
(`Context.aimed_wire`).
-/

namespace WidgetFlow

open FlowGraph Analysis

namespace Wiring

variable {base : FlowGraph} {ctx : Context} {permit : Permit} {law : Law Notes}
  [Walks ctx permit law] {here : CallSite} {site : StmtId}

include permit

include ctx in
theorem builds_wireIds {resources : ResourceTable} : Upholds law base (wireIds resources) := by
  have hnodes : ∀ (kind : IdKind) (values : List ResId),
      Upholds law base (values.forM fun v => do
        let _ ← (Analysis.idNode kind v : Wiring NodeId)) :=
    fun kind values => .forM fun v _ => (builds_idNode kind v).andThen fun _ => .done _
  unfold wireIds
  refine (hnodes _ _).andThen fun _ => ?_
  refine (hnodes _ _).andThen fun _ => ?_
  refine (hnodes _ _).andThen fun _ => ?_
  exact hnodes _ _

theorem builds_noteCalls (hhere : here.Stands ctx) : Upholds law base (noteCalls ctx here) := by
  unfold noteCalls
  refine .andThen (builds_firstThatTakes fun attempt hattempt => ?_) fun noted => ?_
  · simp only [List.mem_cons, List.not_mem_nil, or_false] at hattempt
    rcases hattempt with rfl | rfl | rfl | rfl
    · exact builds_noteListViewCall
    · exact builds_noteDialogCall
    · exact builds_noteBuilderCall
    · exact builds_noteMenuCall
  · split
    · exact builds_noteTabCall hhere
    · exact .done _

theorem builds_wireCall (hhere : here.Stands ctx) : Upholds law base (wireCall ctx here) := by
  unfold wireCall
  refine (builds_takeOperation hhere).andThen fun taken => ?_
  split
  · exact (builds_noteCalls hhere).andThen fun _ => .forM fun _ _ =>
      (builds_bindCall hhere).upholds
  · exact .done _

theorem builds_wireStmt {stmt : Stmt} (hmethod : site.method ∈ walkedMethods ctx)
    (hstmt : ctx.scene.stmt? site = some stmt) (h : stmt.Assignable ∨ permit.loose) :
    Upholds law base (wireStmt ctx site stmt) := by
  unfold wireStmt
  split
  next call hcall =>
    refine builds_wireCall ?_
    rw [CallSite.Stands, Context.call?, hstmt]
    exact hcall
  next hcall => exact (builds_wireAssign hmethod hstmt hcall h).upholds
  next => exact .done _

/-- The statements of the methods that the wiring walks over. -/
theorem builds_wireStmt_of_mem {m : MethodId} {entry : StmtId × Stmt}
    (hmethod : m ∈ walkedMethods ctx) (hstmt : entry ∈ ctx.scene.stmts m)
    (h : ctx.scene.Assignable ∨ permit.loose) : Upholds law base (wireStmt ctx entry.1 entry.2) :=
  builds_wireStmt (Context.method_of_mem_stmts hstmt ▸ hmethod) (Context.stmt?_of_mem_stmts hstmt)
    (h.imp_left fun hscene => hscene.of_mem_stmts hstmt)

theorem builds_wireStmts (h : ctx.scene.Assignable ∨ permit.loose) :
    Upholds law base (wireStmts ctx) :=
  .forM fun _ hmethod => .forM fun _ hstmt => builds_wireStmt_of_mem hmethod hstmt h

def readProgram (ctx : Context) : Wiring Unit := do
  wireIds ctx.resources
  wireActivities ctx
  wireStmts ctx

def walkProgram (ctx : Context) : Wiring Unit := do
  wireIds ctx.resources
  wireActivities ctx
  wireStmts ctx
  wireArrays ctx

/-- The noted calls on lists and tab hosts. -/
def wireViews (ctx : Context) : Wiring Unit := do
  if ctx.options.lists then
    wireLists ctx
  if ctx.options.tabHosts then
    wireTabHosts ctx

/-- The wiring of a program up to the handlers of context menus. -/
def wireParts (ctx : Context) : Wiring Unit := do
  walkProgram ctx
  if ctx.options.dialogs then
    wireDialogs ctx
  wireViews ctx

omit permit [Walks ctx permit law] in
theorem walkProgram_eq : walkProgram ctx = readProgram ctx >>= fun _ => wireArrays ctx := by
  unfold walkProgram readProgram
  simp only [bind_assoc]

omit permit [Walks ctx permit law] in
theorem wireProgram_eq : wireProgram ctx = wireParts ctx >>= fun _ => wireContextMenus ctx := by
  unfold wireProgram wireParts walkProgram wireViews
  simp only [bind_assoc]
  split <;> split <;> split <;> simp only [bind_assoc, pure_bind]

theorem builds_readProgram (h : ctx.scene.Assignable ∨ permit.loose) :
    Upholds law base (readProgram ctx) :=
  builds_wireIds.andThen fun _ => builds_wireActivities.andThen fun _ => builds_wireStmts h

theorem builds_walkProgram (h : ctx.scene.Assignable ∨ permit.loose) :
    Upholds law base (walkProgram ctx) := by
  rw [walkProgram_eq]
  exact (builds_readProgram h).andThen fun _ => builds_wireArrays

theorem builds_wireViews : Upholds law base (wireViews ctx) := by
  unfold wireViews
  extract_lets tabs
  have htabs : Upholds law base (tabs ()) := by
    unfold tabs
    split
    · exact builds_wireTabHosts
    · exact .done _
  split
  · exact builds_wireLists.andThen fun _ => htabs
  · exact htabs

theorem builds_wireParts (hshows : permit.shows) (hbuilds : permit.builds)
    (h : ctx.scene.Assignable ∨ permit.loose) : Upholds law base (wireParts ctx) := by
  unfold wireParts
  refine (builds_walkProgram h).andThen fun _ => ?_
  split
  · exact (builds_wireDialogs hshows hbuilds).andThen fun _ => builds_wireViews
  · exact builds_wireViews

theorem builds_wireProgram (hshows : permit.shows) (hbuilds : permit.builds)
    (hbinds : ∀ op, permit.binds op) (h : ctx.scene.Assignable ∨ permit.loose) :
    Upholds law base (wireProgram ctx) := by
  rw [wireProgram_eq]
  exact (builds_wireParts hshows hbuilds h).andThen fun _ => builds_wireContextMenus hbinds

end Wiring

section Wire

variable {ctx : Context} {wired : Progress Wiring.Notes}

/-- The wiring begins in a sound state without frames. -/
theorem Context.framed_start (policy : Policy) :
    Progress.Framed ({ policy, notes := {} } : Progress Wiring.Notes) := by
  refine ⟨⟨wellFormed_empty, rfl, fun callback var hvar => ?_, fun registration hmem => ?_⟩,
    framed_empty⟩
  · simp at hvar
  · simp at hmem

/-- The wiring goes from its start in steps, if it may do what it does. -/
theorem Context.does_wire (permit : Permit) (hshows : permit.shows) (hbuilds : permit.builds)
    (hbinds : ∀ op, permit.binds op) (h : ctx.scene.Assignable ∨ permit.loose) (policy : Policy) :
    (Wiring.wireProgram ctx).Does (Wiring.Unfillable ctx) { policy, notes := {} }
      fun _ t => t.Framed ∧ Wiring.Steps ctx permit { policy, notes := {} } t := by
  let law := Wiring.Stepping ctx permit { policy, notes := {} }
  have hwire : Upholds law {} (Wiring.wireProgram ctx) :=
    Wiring.builds_wireProgram hshows hbuilds hbinds h
  exact (hwire _ (.refl _) ⟨framed_start policy, .refl⟩).weaken fun _ _ ht => ht.2.1

theorem Context.fair_wire (ctx : Context) {policy : Policy} :
    Fair (Wiring.Unfillable ctx) (Wiring.wireProgram ctx) { policy, notes := {} } :=
  (does_wire .all trivial trivial (fun _ => trivial) (.inr trivial) policy).fair

/-- The end of the wiring is come to in steps, and its state is framed. -/
theorem Context.steps_progress (h : ctx.wire = (.ok (), wired)) :
    wired.Framed ∧ Wiring.Steps ctx .all
      { policy := { severity := ctx.options.severity }, notes := {} } wired :=
  (does_wire .all trivial trivial (fun _ => trivial) (.inr trivial) _).gives () wired h

theorem Context.framed_progress (h : ctx.wire = (.ok (), wired)) : wired.Framed :=
  (steps_progress h).1

theorem Context.wellFormed_wire (h : ctx.wire = (.ok (), wired)) :
    wired.graph.WellFormed ∧ wired.graph.links = #[] :=
  ⟨(framed_progress h).wellFormed, (framed_progress h).fits.links⟩

/-- Only operations give values to the frames that the wiring of a program makes. -/
theorem Context.framed_wire (h : ctx.wire = (.ok (), wired)) : wired.graph.Framed :=
  (framed_progress h).framed

/-- If the program assigns only to what can be assigned to, values flow only to where they may. -/
theorem Context.aimed_wire (hscene : ctx.scene.Assignable) (h : ctx.wire = (.ok (), wired)) :
    Aimed {} wired.graph := by
  have hwired := (does_wire { Permit.all with loose := False } trivial trivial (fun _ => trivial)
    (.inl hscene) _).gives () wired h
  exact hwired.2.keeps (fun st => Aimed {} st.1) (fun hold hstep => hstep.aimed id hold)
    (framed_start _) fun edge hedge => by simp at hedge

end Wire

end WidgetFlow
