import WidgetFlow.Proofs.Outcome
import WidgetFlow.Proofs.Wiring.Graph

/-!
# Strict and lax analyses

An analysis looks at the severity in its options only to set up its policy (`wireProgram_under`,
`solve_under`). Both of its parts are fair, so under either severity they do the same until the
first violation. Hence a strict analysis ends well exactly if the lax one does so without any
violation, and otherwise it ends with the first of these (`strict_iff_lax`).
-/

namespace WidgetFlow

open Analysis

/-- The context with violations treated in a certain way. -/
def Context.under (ctx : Context) (severity : Severity) : Context :=
  { ctx with options := { ctx.options with severity } }

variable (ctx : Context) (severity : Severity)

/-! ## The wiring does not look at the severity -/

namespace Wiring

theorem valueNode?_under : valueNode? (ctx.under severity) = valueNode? ctx := by
  delta valueNode?
  rfl

theorem argNode?_under : argNode? (ctx.under severity) = argNode? ctx := by
  funext site v
  cases v with
  | none => rfl
  | some v => rw [argNode?, argNode?, valueNode?_under]

theorem bindArgs_under : bindArgs (ctx.under severity) = bindArgs ctx := by
  funext here callee position args
  induction args generalizing position with
  | nil => rfl
  | cons actual rest ih =>
    simp only [bindArgs, valueNode?_under, ih]
    rfl

theorem layoutInConstructor?_under :
    layoutInConstructor? (ctx.under severity) = layoutInConstructor? ctx := by
  delta layoutInConstructor?
  rfl

theorem takeOperation_under : takeOperation (ctx.under severity) = takeOperation ctx := by
  funext here
  dsimp only [takeOperation, operationForms, List.map]
  unfold takeInflate takeInflateContent takeFindInView lookupIdNode? takeFindInWindow takeSetId
    takeInflateMenu
  rw [valueNode?_under, argNode?_under]
  rfl

theorem wireStmts_under : wireStmts (ctx.under severity) = wireStmts ctx := by
  unfold wireStmts wireStmt wireCall bindCall bindResult wireAssign
  rw [takeOperation_under, bindArgs_under, valueNode?_under]
  rfl

theorem wireProgram_under : wireProgram (ctx.under severity) = wireProgram ctx := by
  unfold wireProgram wireArrays wireArray wireLists wireListCalls adapterLayouts addAdapterLayout
    adapterLayout? wireTabHosts tabParts layoutContent
  rw [wireStmts_under, valueNode?_under, layoutInConstructor?_under]
  rfl

end Wiring

/-! ## Nor does the solving -/

namespace Solving

theorem inflateViews_under : inflateViews (ctx.under severity) = inflateViews ctx := by
  delta inflateViews
  rfl

theorem inflateItems_under : inflateItems (ctx.under severity) = inflateItems ctx := by
  delta inflateItems
  rfl

theorem settle_under : settle (ctx.under severity) = settle ctx := by
  delta settle
  rfl

theorem solve_under : solve (ctx.under severity) = solve ctx := by
  unfold solve prepare inflateLayouts inflateResult inflateContent inflateLayout inflateMenus
    inflateMenu
  rw [inflateViews_under, inflateItems_under, settle_under]
  rfl

end Solving

/-! ## Two analyses -/

namespace Context

theorem analyze_eq :
    ctx.analyze =
      match ctx.wire with
      | (.error error, _) => .error error
      | (.ok _, wired) =>
        match ctx.solve wired.graph wired.policy with
        | (.error error, _) => .error error
        | (.ok _, solved) => .ok (.of ctx wired solved) := by
  unfold analyze
  rcases ctx.wire with ⟨_ | _, wired⟩
  · rfl
  · dsimp only [Bind.bind, Except.bind]
    rcases ctx.solve wired.graph wired.policy with ⟨_ | _, solved⟩ <;> rfl

theorem analyze_under :
    (ctx.under severity).analyze =
      match (Wiring.wireProgram ctx).outcome ⟨{}, ⟨severity, #[]⟩, {}⟩ with
      | (.error error, _) => .error error
      | (.ok _, wired) =>
        match (Solving.solve ctx).outcome ⟨wired.graph, wired.policy, {}⟩ with
        | (.error error, _) => .error error
        | (.ok _, solved) => .ok (.of (ctx.under severity) wired solved) := by
  rw [analyze_eq]
  unfold wire solve
  rw [Wiring.wireProgram_under, Solving.solve_under]
  rfl

/-- A strict analysis has the outcome of the lax one if no violation is found, and otherwise ends
with the first. -/
theorem analyze_fatal :
    ∃ found : Array Finding,
      (∀ lax, (ctx.under .warn).analyze = .ok lax → lax.findings = found.toList) ∧
      match firstViolation? found with
      | none => (ctx.under .fatal).analyze =
          (ctx.under .warn).analyze.map fun lax => { lax with ctx := ctx.under .fatal }
      | some first => ∃ error, (ctx.under .fatal).analyze = .error error ∧
          error.StandsFor first.message := by
  have hwiring : Fair (Wiring.Unfillable ctx) (Wiring.wireProgram ctx) ⟨{}, ⟨.warn, #[]⟩, {}⟩ :=
    ctx.fair_wire
  have hsolving : ∀ res wired, (Wiring.wireProgram ctx).outcome ⟨{}, ⟨.warn, #[]⟩, {}⟩ =
      (.ok res, wired) → ∀ policy, Fair (fun _ => False) (Solving.solve ctx)
        ⟨wired.graph, policy, {}⟩ := by
    intro res wired hwire policy
    have hwire : (ctx.under .warn).wire = (.ok (), wired) := by
      rw [wire, Wiring.wireProgram_under]
      exact hwire
    exact (Solving.runs_solve ctx (wellFormed_wire hwire) policy).fair
  rw [analyze_under, analyze_under]
  -- of the two parts only their fairness matters
  revert hwiring hsolving
  generalize Wiring.wireProgram ctx = wiring
  generalize Solving.solve ctx = solving
  intro hwiring hsolving
  obtain ⟨added, hpolicy, hcompares, _⟩ := hwiring rfl
  rcases hlax : wiring.outcome ⟨{}, ⟨.warn, #[]⟩, {}⟩ with ⟨res, ⟨g, policy, ns⟩⟩
  rcases hstrict : wiring.outcome ⟨{}, ⟨.fatal, #[]⟩, {}⟩ with ⟨res', wired⟩
  rw [hlax] at hpolicy
  rw [hlax, hstrict] at hcompares
  subst hpolicy
  unfold Compares at hcompares
  split at hcompares
  next hnone =>
    cases hcompares
    cases res with
    | error error =>
      refine ⟨added, fun _ h => (by cases h), ?_⟩
      rw [hnone]
      rfl
    | ok res =>
      -- the wiring has come to the same graph, so the solving starts from the same state
      obtain ⟨more, hpolicy, hcompares, _⟩ := hsolving _ _ hlax ⟨.warn, #[] ++ added⟩ rfl
      dsimp only
      rcases hlax : solving.outcome ⟨g, ⟨.warn, #[] ++ added⟩, {}⟩ with
        ⟨res, ⟨g', policy, ns'⟩⟩
      rcases hstrict : solving.outcome ⟨g, ⟨.fatal, #[] ++ added⟩, {}⟩ with ⟨res', solved⟩
      rw [hlax] at hpolicy
      rw [hlax, hstrict] at hcompares
      subst hpolicy
      refine ⟨added ++ more, ?_, ?_⟩
      · cases res with
        | error error => exact fun _ h => by cases h
        | ok res =>
          intro lax h
          rw [← Except.ok.inj h]
          simp [Outcome.of]
      · unfold Compares at hcompares
        rw [firstViolation?_append, hnone, Option.none_or]
        cases hmore : firstViolation? more with
        | none =>
          rw [hmore] at hcompares
          cases hcompares
          cases res <;> rfl
        | some first =>
          rw [hmore] at hcompares
          obtain ⟨error, ⟨⟩, htells⟩ := hcompares
          exact ⟨error, rfl, htells⟩
  next first hfirst =>
    -- the strict wiring has ended, whatever the lax solving finds
    obtain ⟨error, ⟨⟩, htells⟩ := hcompares
    cases res with
    | error _ =>
      refine ⟨added, fun _ h => (by cases h), ?_⟩
      rw [hfirst]
      exact ⟨error, rfl, htells⟩
    | ok res =>
      obtain ⟨more, hpolicy, _⟩ := hsolving _ _ hlax ⟨.warn, #[] ++ added⟩ rfl
      refine ⟨added ++ more, fun lax h => ?_, ?_⟩
      · dsimp only at h
        rcases hlax : solving.outcome ⟨g, ⟨.warn, #[] ++ added⟩, {}⟩ with
          ⟨_ | _, ⟨g', policy, ns'⟩⟩ <;> rw [hlax] at h hpolicy
        · cases h
        · subst hpolicy
          rw [← Except.ok.inj h]
          simp [Outcome.of]
      · rw [firstViolation?_append, hfirst]
        exact ⟨error, rfl, htells⟩

/-- A strict analysis ends well exactly if the lax one does so without any violation. Then both have
the same graph, facts, solution and findings. If the lax analysis ends well with violations, the
strict one ends with the error that stands for the first of them. -/
theorem strict_iff_lax :
    ((∃ strict, (ctx.under .fatal).analyze = .ok strict) ↔
      ∃ lax, (ctx.under .warn).analyze = .ok lax ∧
        ∀ finding ∈ lax.findings, finding.kind ≠ .violation) ∧
    (∀ strict lax, (ctx.under .fatal).analyze = .ok strict → (ctx.under .warn).analyze = .ok lax →
      strict.graph = lax.graph ∧ strict.facts = lax.facts ∧ strict.solution = lax.solution ∧
        strict.findings = lax.findings) ∧
    ∀ lax, (ctx.under .warn).analyze = .ok lax →
      (∃ finding ∈ lax.findings, finding.kind = .violation) →
        ∃ first error, lax.findings.find? (fun finding => finding.kind = .violation) = some first ∧
          (ctx.under .fatal).analyze = .error error ∧ error.StandsFor first.message := by
  obtain ⟨found, hfindings, hfound⟩ := ctx.analyze_fatal
  have hfirst : found.toList.find? (fun finding => finding.kind = .violation) =
      firstViolation? found := Array.find?_toList
  cases hviolation : firstViolation? found with
  | none =>
      rw [hviolation] at hfound hfirst
      have hnone : ∀ lax, (ctx.under .warn).analyze = .ok lax →
          ∀ finding ∈ lax.findings, finding.kind ≠ .violation := by
        intro lax hlax finding hfinding
        rw [hfindings lax hlax] at hfinding
        simpa using List.find?_eq_none.mp hfirst finding hfinding
      rw [hfound]
      refine ⟨⟨?_, ?_⟩, ?_, ?_⟩
      · rintro ⟨strict, hstrict⟩
        cases hlax : (ctx.under .warn).analyze with
        | error error =>
            rw [hlax] at hstrict
            cases hstrict
        | ok lax => exact ⟨lax, rfl, hnone lax hlax⟩
      · rintro ⟨lax, hlax, _⟩
        exact ⟨_, by rw [hlax]; rfl⟩
      · intro strict lax hstrict hlax
        rw [hlax] at hstrict
        rw [← Except.ok.inj hstrict]
        exact ⟨rfl, rfl, rfl, rfl⟩
      · rintro lax hlax ⟨finding, hfinding, hkind⟩
        exact absurd hkind (hnone lax hlax finding hfinding)
  | some first =>
      rw [hviolation] at hfound hfirst
      obtain ⟨error, herror, htells⟩ := hfound
      rw [herror]
      refine ⟨⟨?_, ?_⟩, ?_, ?_⟩
      · rintro ⟨_, hstrict⟩
        cases hstrict
      · rintro ⟨lax, hlax, hnone⟩
        rw [← hfindings lax hlax] at hfirst
        have hkind := List.find?_some hfirst
        exact absurd (of_decide_eq_true hkind) (hnone first (List.mem_of_find?_eq_some hfirst))
      · intro _ _ hstrict
        cases hstrict
      · intro lax hlax _
        rw [hfindings lax hlax]
        exact ⟨first, error, hfirst, rfl, htells⟩

end Context

namespace Sample

/-- A program with one activity that does nothing but set its content. -/
def bare : Scene where
  classes := [{ name := "app.Main", superclass := some "android.app.Activity" }]
  methods := #[method "onCreate" [.ref "android.os.Bundle"] "v" [
    .call (call "this" "app.Main" "setContentView" .void [.int] [.int 7])]]

/-- The content is a layout that is declared but missing. -/
def blank : Context where
  scene := bare
  hierarchy := {
    classes := Hierarchy.enter (Hierarchy.enter {} [{ name := "android.app.Activity" }])
      (bare.classes.map (.ofDecl bare))
    application := ["app.Main"] }
  resources := .addId { sys := {}, sysLayouts := {} } .layout "main" 7

end Sample

/-- Where a layout is missing, the strict analysis ends with that error. -/
theorem Context.strict_iff_lax_blank :
    ∃ lax, (Sample.blank.under .warn).analyze = .ok lax ∧
      ∃ first error, lax.findings.find? (fun finding => finding.kind = .violation) = some first ∧
        (Sample.blank.under .fatal).analyze = .error error ∧ error.StandsFor first.message := by
  have hseen : (match (Sample.blank.under .warn).analyze with
      | .ok lax => lax.findings.any fun finding => finding.kind = .violation
      | .error _ => false) = true := by decide +kernel
  cases hlax : (Sample.blank.under .warn).analyze with
  | error error => simp [hlax] at hseen
  | ok lax =>
      refine ⟨lax, rfl, (Context.strict_iff_lax Sample.blank).2.2 lax hlax ?_⟩
      simpa [hlax] using hseen

end WidgetFlow
