import Mathlib.Order.Defs.Unbundled
import WidgetFlow.Proofs.Progress

/-!
# Parts under the two severities

Every part of an analysis is put together from a few actions: it looks at the graph and the notes
and changes them, it stops with an error, or it reports something. Only a report looks at the
severity. So a part does the same under both severities until the first violation, where it stops if
violations are fatal (`Fair`). A part that cannot stop by itself ends well where violations are
recorded (`Fair.ends`), and every other part stops only with its own errors there
(`Fair.can_of_error`).

`Does` puts this together with what a part gives. `Keeps rel part` says that the states before and
after a part are related. If the relation is a preorder, parts that keep it can be put together
freely. Most such relations say one thing about the graph and another about the notes, and are
written with `Evolves`.
-/

namespace WidgetFlow

def firstViolation? (findings : Array Finding) : Option Finding :=
  findings.find? fun finding => finding.kind = .violation

theorem firstViolation?_append (first second : Array Finding) :
    firstViolation? (first ++ second) = (firstViolation? first).or (firstViolation? second) :=
  Array.find?_append

/-- The error stands for a finding with the message: a failed check has the message itself, and any
other error is recorded by its text. -/
def AnalysisError.StandsFor (error : AnalysisError) (message : String) : Prop :=
  error = .sanity message ∨ error.message = message

namespace Analysis

variable {Notes α β : Type}

def act (change : FlowGraph → Notes → α × FlowGraph × Notes) : Analysis Notes α :=
  modifyGet fun ⟨g, policy, ns⟩ =>
    let (res, g, ns) := change g ns
    (res, ⟨g, policy, ns⟩)

/-! ## Two severities -/

/-- The outcome where violations are fatal, compared with one where they are recorded and that has
added some findings: they are the same if there is no violation among them, and otherwise the first
violation is the end. -/
def Compares (added : Array Finding) (strict lax : Except AnalysisError α × Progress Notes) :
    Prop :=
  match firstViolation? added with
  | none => strict = (lax.1, { lax.2 with policy := { lax.2.policy with severity := .fatal } })
  | some first => ∃ error, strict.1 = .error error ∧ error.StandsFor first.message

/-- Where violations are recorded, a part does the same as where they are fatal until the first
violation, and it stops only with errors that it may stop with by itself. -/
def Fair (can : AnalysisError → Prop) (part : Analysis Notes α) (s : Progress Notes) : Prop :=
  s.policy.severity = .warn → ∃ added,
    (part.outcome s).2.policy = ⟨.warn, s.policy.findings ++ added⟩ ∧
      Compares added
        (part.outcome { s with policy := { s.policy with severity := .fatal } })
        (part.outcome s) ∧
      ∀ error, (part.outcome s).1 = .error error → can error

section Fair

variable {can : AnalysisError → Prop} {part : Analysis Notes α} {s t : Progress Notes}
  {error : AnalysisError}

/-- Where violations are recorded, they are recorded from then on. -/
theorem Fair.warn (h : Fair can part s) {res : Except AnalysisError α}
    (hwarn : s.policy.severity = .warn) (houtcome : part.outcome s = (res, t)) :
    t.policy.severity = .warn := by
  obtain ⟨added, hpolicy, _⟩ := h hwarn
  rw [houtcome] at hpolicy
  rw [hpolicy]

theorem Fair.can_of_error (h : Fair can part s) (hwarn : s.policy.severity = .warn)
    (herror : part.outcome s = (.error error, t)) : can error := by
  obtain ⟨_, _, _, hcan⟩ := h hwarn
  exact hcan error (by rw [herror])

theorem Fair.mono {can' : AnalysisError → Prop} (h : Fair can part s)
    (hcan : ∀ error, can error → can' error) : Fair can' part s := by
  intro hwarn
  obtain ⟨added, hpolicy, hcompares, herror⟩ := h hwarn
  exact ⟨added, hpolicy, hcompares, fun error hresult => hcan error (herror error hresult)⟩

/-- Once violations have been the end, nothing that follows matters. -/
theorem Compares.stop {added : Array Finding} {first : Finding}
    (hfirst : firstViolation? added = some first) (herror : error.StandsFor first.message)
    (more : Array Finding) (t : Progress Notes)
    (lax : Except AnalysisError α × Progress Notes) : Compares (added ++ more) (.error error, t) lax := by
  simp only [Compares, firstViolation?_append, hfirst, Option.some_or]
  exact ⟨error, rfl, herror⟩

theorem Fair.bind {next : α → Analysis Notes β} (hpart : Fair can part s)
    (hnext : ∀ res middle, part.outcome s = (.ok res, middle) →
      Fair can (next res) middle) : Fair can (part >>= next) s := by
  intro hwarn
  obtain ⟨added, hpolicy, hcompares, hcan⟩ := hpart hwarn
  simp only [outcome_bind]
  rcases hlax : part.outcome s with ⟨res, ⟨g', policy, ns'⟩⟩
  rw [hlax] at hpolicy hcompares hcan
  subst hpolicy
  unfold Compares at hcompares
  split at hcompares
  next hnone =>
    -- the first part has come to the same state under both severities
    rw [hcompares]
    cases res with
    | error error => exact ⟨added, rfl, by simp [Compares, hnone], by simpa using hcan⟩
    | ok res =>
      obtain ⟨more, hpolicy, hmore, hcan⟩ := hnext res _ hlax rfl
      refine ⟨added ++ more, by rw [hpolicy, Array.append_assoc], ?_, hcan⟩
      simpa [Compares, firstViolation?_append, hnone] using hmore
  next first hfirst =>
    -- the second part is not reached where violations are fatal
    obtain ⟨error, herror, htells⟩ := hcompares
    rcases hstrict : part.outcome { s with policy := { s.policy with severity := .fatal } }
      with ⟨_, t⟩
    rw [hstrict] at herror
    cases herror
    cases res with
    | error _ =>
      exact ⟨added, rfl, by simpa using Compares.stop hfirst htells #[] t _, by simpa using hcan⟩
    | ok res =>
      obtain ⟨more, hpolicy, _, hcan⟩ := hnext res _ hlax rfl
      exact ⟨added ++ more, by rw [hpolicy, Array.append_assoc],
        .stop hfirst htells more t _, hcan⟩

/-- A part that leaves the policy alone and does not look at it is fair. -/
theorem fair_of_eq {res : Except AnalysisError α} {g : FlowGraph} {ns : Notes}
    (h : ∀ policy, part.outcome { s with policy } = (res, ⟨g, policy, ns⟩))
    (hcan : ∀ error, res = .error error → can error) : Fair can part s := by
  obtain ⟨g', ⟨severity, findings⟩, ns'⟩ := s
  rintro ⟨⟩
  refine ⟨#[], ?_, ?_, ?_⟩
  · rw [h]
    simp
  · rw [h, h]
    rfl
  · rw [h]
    exact hcan

/-- A report stops the part with an error that stands for what it records otherwise. -/
theorem fair_report (report : Policy → Except AnalysisError Policy)
    {message : String} (herror : error.StandsFor message)
    (hfatal : ∀ findings, report ⟨.fatal, findings⟩ = .error error)
    (hwarn : ∀ findings,
      report ⟨.warn, findings⟩ = .ok (Policy.record ⟨.warn, findings⟩ .violation message)) :
    Fair can (do Analysis.report (report (← get).policy) : Analysis Notes Unit) s := by
  obtain ⟨g, ⟨severity, findings⟩, ns⟩ := s
  rintro ⟨⟩
  have hlax : (do Analysis.report (report (← get).policy) : Analysis Notes Unit).outcome
      ⟨g, ⟨.warn, findings⟩, ns⟩ =
      (.ok (), ⟨g, Policy.record ⟨.warn, findings⟩ .violation message, ns⟩) := by
    change (Analysis.report (report ⟨.warn, findings⟩) : Analysis Notes Unit).outcome _ = _
    rw [hwarn]
    rfl
  have hstrict : (do Analysis.report (report (← get).policy) : Analysis Notes Unit).outcome
      ⟨g, ⟨.fatal, findings⟩, ns⟩ = (.error error, ⟨g, ⟨.fatal, findings⟩, ns⟩) := by
    change (Analysis.report (report ⟨.fatal, findings⟩) : Analysis Notes Unit).outcome _ = _
    rw [hfatal]
    rfl
  refine ⟨#[⟨.violation, message⟩], ?_, ?_, ?_⟩
  · rw [hlax]
    simp [Policy.record]
  · rw [hstrict]
    exact ⟨error, rfl, herror⟩
  · rw [hlax]
    exact nofun

theorem fair_gap (message : String) : Fair can (gap message : Analysis Notes Unit) s := by
  obtain ⟨g, ⟨severity, findings⟩, ns⟩ := s
  rintro ⟨⟩
  refine ⟨#[⟨.gap, message⟩], ?_, rfl, nofun⟩
  change (⟨.warn, findings.push ⟨.gap, message⟩⟩ : Policy) = _
  simp

theorem outcome_addLink (c p : NodeId) (s : Progress Notes) :
    (addLink c p).outcome s =
      match s.graph.addLink c p with
      | .ok (added, g) => (.ok added, { s with graph := g })
      | .error error => (.error error, s) := by
  rw [addLink, outcome_bind]
  change (match s.graph.addLink c p with
    | .ok (added, g) => onGraph fun _ => (added, g)
    | .error error => MonadExcept.throw error : Analysis Notes Bool).outcome s = _
  cases s.graph.addLink c p <;> rfl

/-- Only a node that is put into itself makes a link fail. -/
theorem fair_addLink {c p : NodeId}
    (hcan : c = p → ∀ n, can (.selfContainment n)) :
    Fair can (addLink c p) s := by
  cases hlink : s.graph.addLink c p with
  | ok res =>
    refine fair_of_eq (fun policy => by rw [outcome_addLink, hlink]) ?_
    exact nofun
  | error error =>
    refine fair_of_eq (fun policy => by rw [outcome_addLink, hlink]) ?_
    rintro _ ⟨⟩
    unfold FlowGraph.addLink at hlink
    split at hlink
    next heq =>
      cases hlink
      exact hcan heq _
    next => split at hlink <;> cases hlink

end Fair

/-! ## Where violations are recorded -/

/-- A part ends well, and violations are recorded from then on. -/
def Ends (part : Analysis Notes α) (s : Progress Notes) : Prop :=
  ∃ res t, part.outcome s = (.ok res, t) ∧ t.policy.severity = .warn

section Ends

variable {s : Progress Notes}

/-- A part that cannot stop by itself ends well where violations are recorded. -/
theorem Fair.ends {part : Analysis Notes α} (h : Fair (fun _ => False) part s)
    (hwarn : s.policy.severity = .warn) : Ends part s := by
  cases houtcome : part.outcome s with
  | mk res t =>
    cases res with
    | ok res => exact ⟨res, t, houtcome, h.warn hwarn houtcome⟩
    | error error => exact (h.can_of_error hwarn houtcome).elim

end Ends

/-! ## What parts do -/

/-- A part is fair and gives what it should. -/
structure Does (can : AnalysisError → Prop) (part : Analysis Notes α) (s : Progress Notes)
    (post : α → Progress Notes → Prop) : Prop where
  gives : part.Gives s post
  fair : Fair can part s

/-- A part gives what it should, and where violations are recorded it comes to an end. -/
abbrev Runs (part : Analysis Notes α) (s : Progress Notes)
    (post : α → Progress Notes → Prop) : Prop :=
  Does (fun _ => False) part s post

namespace Does

variable {can : AnalysisError → Prop} {part : Analysis Notes α} {s : Progress Notes}
variable {post post' : α → Progress Notes → Prop}

theorem of_runs (h : Runs part s post) : Does can part s post :=
  ⟨h.gives, h.fair.mono fun _ => False.elim⟩

theorem pure {res : α} (h : post res s) : Does can (pure res) s post :=
  ⟨gives_pure.mpr h, fair_of_eq (fun _ => rfl) nofun⟩

theorem bind {next : α → Analysis Notes β} {post' : β → Progress Notes → Prop}
    (hpart : Does can part s post)
    (hnext : ∀ res middle, post res middle → Does can (next res) middle post') :
    Does can (part >>= next) s post' where
  gives := gives_bind.mpr (hpart.gives.weaken fun res middle hpost =>
    (hnext res middle hpost).gives)
  fair := hpart.fair.bind fun res middle houtcome =>
    (hnext res middle (hpart.gives res middle houtcome)).fair

/-- An action on the graph and the notes. -/
theorem act (change : FlowGraph → Notes → α × FlowGraph × Notes)
    (h : post (change s.graph s.notes).1 { s with
      graph := (change s.graph s.notes).2.1
      notes := (change s.graph s.notes).2.2 }) : Does can (act change) s post := by
  refine ⟨?_, fair_of_eq (fun _ => rfl) nofun⟩
  rintro _ _ ⟨⟩
  exact h

theorem of_graph {change : FlowGraph → α × FlowGraph}
    (h : post (change s.graph).1 { s with graph := (change s.graph).2 }) :
    Does can (onGraph change) s post :=
  act (fun g ns => ((change g).1, (change g).2, ns)) h

theorem getGraph {next : FlowGraph → Analysis Notes α} (h : Does can (next s.graph) s post) :
    Does can (Analysis.getGraph >>= next) s post :=
  ⟨h.gives, h.fair⟩

theorem getNotes {next : Notes → Analysis Notes α} (h : Does can (next s.notes) s post) :
    Does can (Analysis.getNotes >>= next) s post :=
  ⟨h.gives, h.fair⟩

theorem modifyGraph {change : FlowGraph → FlowGraph} {post : Unit → Progress Notes → Prop}
    (h : post () { s with graph := change s.graph }) :
    Does can (Analysis.modifyGraph change) s post :=
  of_graph h

theorem modifyNotes {change : Notes → Notes} {post : Unit → Progress Notes → Prop}
    (h : post () { s with notes := change s.notes }) :
    Does can (Analysis.modifyNotes change) s post :=
  act (fun g ns => ((), g, change ns)) h

theorem modifyNotes_bind {change : Notes → Notes} {next : Unit → Analysis Notes α}
    (h : Does can (next ()) { s with notes := change s.notes } post) :
    Does can (Analysis.modifyNotes change >>= next) s post :=
  ⟨h.gives, h.fair⟩

section Reports

variable {post : Unit → Progress Notes → Prop} (h : ∀ policy, post () { s with policy })
include h

theorem gap (message : String) : Does can (Analysis.gap message) s post :=
  ⟨gives_gap.mpr (h _), fair_gap message⟩

theorem fail (error : AnalysisError) : Does can (Analysis.fail error) s post :=
  ⟨gives_fail h,
    fair_report (fun policy => policy.fail error) (.inr rfl) (fun _ => rfl) fun _ => rfl⟩

theorem violation (message : String) : Does can (Analysis.violation message) s post :=
  ⟨gives_violation h,
    fair_report (fun policy => policy.violation message) (.inl rfl) (fun _ => rfl) fun _ => rfl⟩

end Reports

/-- What every round of a loop keeps holds at its end. -/
theorem foldlM {elements : List α} {step : β → α → Analysis Notes β} {initial : β}
    {inv : β → Progress Notes → Prop} (hs : inv initial s)
    (hstep : ∀ res st, inv res st → ∀ e ∈ elements,
      Does can (step res e) st inv) :
    Does can (elements.foldlM step initial) s inv := by
  induction elements generalizing initial s with
  | nil => exact pure hs
  | cons first rest ih =>
    rw [List.foldlM_cons]
    refine (hstep initial s hs first List.mem_cons_self).bind ?_
    exact fun res middle hmiddle => ih hmiddle fun res st hinv e helement =>
      hstep res st hinv e (List.mem_cons_of_mem _ helement)

/-- What every round of a selection keeps holds of what it has chosen. -/
theorem filterM {elements : List α} {select : α → Analysis Notes Bool}
    {inv : List α → Progress Notes → Prop} (hs : inv [] s)
    (hselect : ∀ chosen st, inv chosen st → ∀ e ∈ elements,
      Does can (select e) st fun picked t =>
        inv (bif picked then e :: chosen else chosen) t) :
    Does can (elements.filterM select) s fun found t => inv found.reverse t := by
  have haux : ∀ chosen st, inv chosen st →
      Does can (elements.filterAuxM select chosen) st inv := by
    induction elements with
    | nil => exact fun chosen st hchosen => pure hchosen
    | cons first rest ih =>
      intro chosen st hchosen
      refine (hselect chosen st hchosen first List.mem_cons_self).bind ?_
      exact fun picked middle => ih (fun chosen st hinv e helement =>
        hselect chosen st hinv e (List.mem_cons_of_mem _ helement)) _ middle
  exact (haux [] s hs).bind fun found _ hfound => pure (found.reverse_reverse.symm ▸ hfound)

theorem weaken (h : Does can part s post)
    (hpost : ∀ res t, post res t → post' res t) : Does can part s post' :=
  ⟨h.gives.weaken hpost, h.fair⟩

theorem and (h : Does can part s post) (h' : part.Gives s post') :
    Does can part s fun res t => post res t ∧ post' res t :=
  ⟨h.gives.and h', h.fair⟩

/-- Where violations are recorded there is a result, and it is right. -/
theorem outcome (h : Runs part s post) (hwarn : s.policy.severity = .warn) :
    ∃ res t, part.outcome s = (.ok res, t) ∧ post res t := by
  obtain ⟨res, t, houtcome, _⟩ := h.fair.ends hwarn
  exact ⟨res, t, houtcome, h.gives res t houtcome⟩

theorem of_addLink {c p : NodeId} {post : Bool → Progress Notes → Prop}
    (hcan : c = p → ∀ n, can (.selfContainment n))
    (h : ∀ added g, s.graph.addLink c p = .ok (added, g) →
      post added { s with graph := g }) : Does can (addLink c p) s post :=
  ⟨gives_addLink h, fair_addLink hcan⟩

end Does

/-! ## Relations between states -/

def Keeps (rel : Progress Notes → Progress Notes → Prop) (part : Analysis Notes α) : Prop :=
  ∀ s, Runs part s fun _ t => rel s t

namespace Keeps

variable {rel : Progress Notes → Progress Notes → Prop} [IsPreorder (Progress Notes) rel]

theorem pure (res : α) : Keeps rel (pure res : Analysis Notes α) :=
  fun s => .pure (refl_of rel s)

theorem bind {part : Analysis Notes α} {next : α → Analysis Notes β} (hpart : Keeps rel part)
    (hnext : ∀ res, Keeps rel (next res)) : Keeps rel (part >>= next) :=
  fun s => (hpart s).bind fun res middle hmiddle =>
    (hnext res middle).weaken fun _ _ ht => trans_of rel hmiddle ht

theorem map {part : Analysis Notes α} (f : α → β) (hpart : Keeps rel part) :
    Keeps rel (f <$> part) := by
  rw [map_eq_pure_bind]
  exact hpart.bind fun _ => pure _

theorem getGraph : Keeps rel (getGraph : Analysis Notes FlowGraph) :=
  fun s => .act (fun g ns => (g, g, ns)) (refl_of rel s)

theorem foldlM {elements : List α} {step : β → α → Analysis Notes β} {initial : β}
    (hstep : ∀ res, ∀ e ∈ elements, Keeps rel (step res e)) :
    Keeps rel (elements.foldlM step initial) :=
  fun s => .foldlM (refl_of rel s) fun res st hstate e helement =>
    (hstep res e helement st).weaken fun _ _ ht => trans_of rel hstate ht

theorem forM {elements : List α} {step : α → Analysis Notes Unit}
    (hstep : ∀ e ∈ elements, Keeps rel (step e)) : Keeps rel (elements.forM step) := by
  rw [forM_eq_foldlM]
  exact foldlM fun _ => hstep

end Keeps

/-! ## Relations between graphs and between notes -/

def Evolves (graphRel : FlowGraph → FlowGraph → Prop) (notesRel : Notes → Notes → Prop)
    (old new : Progress Notes) : Prop :=
  graphRel old.graph new.graph ∧ notesRel old.notes new.notes

variable {graphRel : FlowGraph → FlowGraph → Prop} {notesRel : Notes → Notes → Prop}

instance [IsPreorder FlowGraph graphRel] [IsPreorder Notes notesRel] :
    IsPreorder (Progress Notes) (Evolves graphRel notesRel) where
  refl st := ⟨refl_of graphRel st.graph, refl_of notesRel st.notes⟩
  trans _ _ _ h h' := ⟨trans_of graphRel h.1 h'.1, trans_of notesRel h.2 h'.2⟩

namespace Keeps

section Graph

variable [IsPreorder Notes notesRel]

theorem onGraph {change : FlowGraph → α × FlowGraph}
    (h : ∀ g, graphRel g (change g).2) :
    Keeps (Evolves graphRel notesRel) (onGraph change) :=
  fun s => .of_graph ⟨h s.graph, refl_of notesRel s.notes⟩

theorem modifyGraph {change : FlowGraph → FlowGraph} (h : ∀ g, graphRel g (change g)) :
    Keeps (Evolves graphRel notesRel) (modifyGraph change) :=
  onGraph h

end Graph

theorem modifyNotes [IsPreorder FlowGraph graphRel] {change : Notes → Notes}
    (h : ∀ ns, notesRel ns (change ns)) :
    Keeps (Evolves graphRel notesRel) (modifyNotes change) :=
  fun s => .modifyNotes ⟨refl_of graphRel s.graph, h s.notes⟩

section Findings

variable [IsPreorder FlowGraph graphRel] [IsPreorder Notes notesRel]

theorem violation (message : String) : Keeps (Evolves graphRel notesRel) (violation message) :=
  fun s => .violation (fun _ => refl_of (Evolves graphRel notesRel) s) message

end Findings

theorem varNode? [IsPreorder FlowGraph graphRel] [IsPreorder Notes notesRel] (ctx : Context)
    (m : MethodId) (name : Option String)
    (h : ∀ g var ty, graphRel g (FlowGraph.varNode var ty g).2) :
    Keeps (Evolves graphRel notesRel) (ctx.varNode? m name) := by
  cases name with
  | none => exact pure _
  | some name => exact .map _ (onGraph fun g => h g _ _)

end Keeps

end Analysis

end WidgetFlow
