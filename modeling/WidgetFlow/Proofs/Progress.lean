import WidgetFlow.Listening

/-!
# Reasoning about parts of an analysis

`part.Gives s post` says that `post` holds of the result and the final state if the part comes
to an end without an error. The rules below take a part to pieces: `gives_bind` goes from one
statement to the next, and there is one rule for each action of an analysis. A loop needs an
invariant.
-/

namespace WidgetFlow.Analysis

variable {Notes α β : Type}

/-! ## Outcomes -/

/-- The second of two parts starts where the first one ends, unless that is an error. -/
theorem outcome_bind (part : Analysis Notes α) (next : α → Analysis Notes β)
    (s : Progress Notes) :
    (part >>= next).outcome s =
      match part.outcome s with
      | (.ok res, middle) => (next res).outcome middle
      | (.error error, middle) => (.error error, middle) := by
  change (match part.outcome s with
    | (res, middle) => (ExceptT.bindCont next res).run middle) = _
  rcases part.outcome s with ⟨_ | _, middle⟩ <;> rfl

theorem outcome_bind_ok {part : Analysis Notes α} {next : α → Analysis Notes β}
    {s t : Progress Notes} {res : β}
    (h : (part >>= next).outcome s = (.ok res, t)) :
    ∃ first middle, part.outcome s = (.ok first, middle) ∧
      (next first).outcome middle = (.ok res, t) := by
  rw [outcome_bind] at h
  split at h
  next first middle heq => exact ⟨first, middle, heq, h⟩
  next => simp at h

/-! ## What a part gives -/

/-- The result and the final state satisfy a condition if the part ends well. -/
def Gives (part : Analysis Notes α) (s : Progress Notes)
    (post : α → Progress Notes → Prop) : Prop :=
  ∀ res t, part.outcome s = (.ok res, t) → post res t

section Rules

variable {part : Analysis Notes α} {s : Progress Notes} {post post' : α → Progress Notes → Prop}

theorem Gives.weaken (h : part.Gives s post)
    (hpost : ∀ res t, post res t → post' res t) : part.Gives s post' :=
  fun res t houtcome => hpost res t (h res t houtcome)

theorem Gives.and (h : part.Gives s post) (h' : part.Gives s post') :
    part.Gives s fun res t => post res t ∧ post' res t :=
  fun res t houtcome => ⟨h res t houtcome, h' res t houtcome⟩

@[simp] theorem gives_pure {res : α} :
    (pure res : Analysis Notes α).Gives s post ↔ post res s := by
  constructor
  · exact fun h => h res s rfl
  · rintro h _ _ ⟨⟩
    exact h

@[simp] theorem gives_bind {next : α → Analysis Notes β} {post : β → Progress Notes → Prop} :
    (part >>= next).Gives s post ↔
      part.Gives s fun res middle => (next res).Gives middle post := by
  constructor
  · intro h first middle hfirst res t hrest
    refine h res t ?_
    rw [outcome_bind, hfirst]
    exact hrest
  · intro h res t houtcome
    obtain ⟨first, middle, hfirst, hrest⟩ := outcome_bind_ok houtcome
    exact h first middle hfirst res t hrest

@[simp] theorem gives_map {f : α → β} {post : β → Progress Notes → Prop} :
    (f <$> part).Gives s post ↔ part.Gives s fun res => post (f res) := by
  rw [map_eq_pure_bind, gives_bind]
  simp only [gives_pure]

@[simp] theorem gives_throw {error : AnalysisError} :
    (throw error : Analysis Notes α).Gives s post ↔ True := by
  refine ⟨fun _ => trivial, fun _ => ?_⟩
  rintro _ _ ⟨⟩

@[simp] theorem gives_getGraph {post : FlowGraph → Progress Notes → Prop} :
    getGraph.Gives s post ↔ post s.graph s :=
  gives_pure

@[simp] theorem gives_onGraph {change : FlowGraph → α × FlowGraph} :
    (onGraph change).Gives s post ↔
      post (change s.graph).1 { s with graph := (change s.graph).2 } := by
  constructor
  · exact fun h => h _ _ rfl
  · rintro h _ _ ⟨⟩
    exact h

@[simp] theorem gives_modifyGraph {change : FlowGraph → FlowGraph}
    {post : Unit → Progress Notes → Prop} :
    (modifyGraph change).Gives s post ↔ post () { s with graph := change s.graph } :=
  gives_onGraph

@[simp] theorem gives_getNotes {post : Notes → Progress Notes → Prop} :
    getNotes.Gives s post ↔ post s.notes s :=
  gives_pure

@[simp] theorem gives_modifyNotes {change : Notes → Notes} {post : Unit → Progress Notes → Prop} :
    (modifyNotes change).Gives s post ↔ post () { s with notes := change s.notes } := by
  constructor
  · exact fun h => h _ _ rfl
  · rintro h _ _ ⟨⟩
    exact h

@[simp] theorem gives_gap {message : String} {post : Unit → Progress Notes → Prop} :
    (gap message).Gives s post ↔ post () { s with policy := s.policy.gap message } := by
  constructor
  · exact fun h => h _ _ rfl
  · rintro h _ _ ⟨⟩
    exact h

theorem gives_report {report : Except AnalysisError Policy} {post : Unit → Progress Notes → Prop}
    (h : ∀ policy, post () { s with policy }) : (Analysis.report report).Gives s post := by
  unfold Analysis.report
  cases report with
  | error error => simp
  | ok policy =>
    rintro _ _ ⟨⟩
    exact h policy

theorem gives_fail {error : AnalysisError} {post : Unit → Progress Notes → Prop}
    (h : ∀ policy, post () { s with policy }) : (fail error).Gives s post :=
  fun _ _ houtcome => gives_report h _ _ houtcome

theorem gives_violation {message : String} {post : Unit → Progress Notes → Prop}
    (h : ∀ policy, post () { s with policy }) : (violation message).Gives s post :=
  fun _ _ houtcome => gives_report h _ _ houtcome

theorem gives_addLink {c p : NodeId} {post : Bool → Progress Notes → Prop}
    (h : ∀ added g, s.graph.addLink c p = .ok (added, g) →
      post added { s with graph := g }) :
    (addLink c p).Gives s post := by
  unfold addLink
  simp only [gives_bind, gives_getGraph]
  cases hlink : s.graph.addLink c p with
  | error error => simp
  | ok res =>
    simp only [gives_onGraph]
    exact h res.1 res.2 hlink

end Rules

/-! ## Loops -/

section Loops

variable {elements : List α} {s : Progress Notes}

/-- What every round of a loop keeps holds at its end. -/
theorem gives_foldlM {step : β → α → Analysis Notes β} {initial : β}
    {inv : β → Progress Notes → Prop} (hs : inv initial s)
    (hstep : ∀ res st, inv res st → ∀ e ∈ elements,
      (step res e).Gives st inv) :
    (elements.foldlM step initial).Gives s inv := by
  induction elements generalizing initial s with
  | nil => simpa using hs
  | cons first rest ih =>
    rw [List.foldlM_cons, gives_bind]
    refine (hstep initial s hs first List.mem_cons_self).weaken ?_
    exact fun res middle hmiddle => ih hmiddle fun res st hinv e helement =>
      hstep res st hinv e (List.mem_cons_of_mem _ helement)

/-- What every round of a loop keeps holds at its end. -/
theorem gives_forM {step : α → Analysis Notes Unit} {inv : Progress Notes → Prop}
    (hs : inv s)
    (hstep : ∀ st, inv st → ∀ e ∈ elements,
      (step e).Gives st fun _ t => inv t) :
    (elements.forM step).Gives s fun _ t => inv t := by
  induction elements generalizing s with
  | nil => exact gives_pure.mpr hs
  | cons first rest ih =>
    refine gives_bind.mpr ((hstep s hs first List.mem_cons_self).weaken ?_)
    exact fun _ middle hmiddle => ih hmiddle fun st hinv e helement =>
      hstep st hinv e (List.mem_cons_of_mem _ helement)

/-- What one round of a loop makes hold, and the others keep, holds at its end. -/
theorem gives_foldlM_of_mem {step : β → α → Analysis Notes β} {initial : β}
    (inv : β → Progress Notes → Prop) {made : β → Progress Notes → Prop} {e : α}
    (helement : e ∈ elements) (hs : inv initial s)
    (hkeeps : ∀ res st, inv res st → ∀ other ∈ elements,
      (step res other).Gives st fun res' t =>
        inv res' t ∧ (made res st → made res' t))
    (hmade : ∀ res st, inv res st → (step res e).Gives st made) :
    (elements.foldlM step initial).Gives s fun res t =>
      inv res t ∧ made res t := by
  induction elements generalizing initial s with
  | nil => exact absurd helement List.not_mem_nil
  | cons first rest ih =>
    have hrest := fun res st hinv other (hother : other ∈ rest) =>
      hkeeps res st hinv other (List.mem_cons_of_mem _ hother)
    have hfirst := hkeeps initial s hs first List.mem_cons_self
    rw [List.foldlM_cons, gives_bind]
    rcases List.mem_cons.mp helement with rfl | helement
    · refine (hfirst.and (hmade initial s hs)).weaken fun res middle hmiddle => ?_
      refine gives_foldlM ⟨hmiddle.1.1, hmiddle.2⟩ fun res st hstate other hother => ?_
      exact (hrest res st hstate.1 other hother).weaken fun _ _ ht =>
        ⟨ht.1, ht.2 hstate.2⟩
    · exact hfirst.weaken fun res middle hmiddle => ih helement hmiddle.1 hrest

/-- A loop without a result is one that passes nothing on. -/
theorem forM_eq_foldlM (elements : List α) (step : α → Analysis Notes Unit) :
    elements.forM step = elements.foldlM (fun _ e => step e) () := by
  induction elements with
  | nil => rfl
  | cons first rest ih =>
    change (step first >>= fun _ => rest.forM step) = _
    rw [ih]
    rfl

/-- What one round of a loop makes hold, and the others keep, holds at its end. -/
theorem gives_forM_of_mem {step : α → Analysis Notes Unit} (inv : Progress Notes → Prop)
    {made : Progress Notes → Prop} {e : α} (helement : e ∈ elements)
    (hs : inv s)
    (hkeeps : ∀ st, inv st → ∀ other ∈ elements,
      (step other).Gives st fun _ t => inv t ∧ (made st → made t))
    (hmade : ∀ st, inv st → (step e).Gives st fun _ t => made t) :
    (elements.forM step).Gives s fun _ t => inv t ∧ made t := by
  rw [forM_eq_foldlM]
  exact gives_foldlM_of_mem (fun _ => inv) helement hs (fun _ => hkeeps) fun _ => hmade

/-- If every round of a loop makes something hold in certain cases and else leaves it as it was, it
holds at the end if it was so in some round or at the start. -/
theorem gives_forM_iff {step : α → Analysis Notes Unit} {holds : Progress Notes → Prop}
    {added : α → Prop}
    (hstep : ∀ e ∈ elements, ∀ st, (step e).Gives st fun _ t =>
      (holds t ↔ added e ∨ holds st)) :
    (elements.forM step).Gives s fun _ t =>
      (holds t ↔ (∃ e ∈ elements, added e) ∨ holds s) := by
  induction elements generalizing s with
  | nil => exact gives_pure.mpr (by simp)
  | cons first rest ih =>
    refine gives_bind.mpr ((hstep first List.mem_cons_self s).weaken ?_)
    intro _ middle hmiddle
    refine (ih fun e helement => hstep e (List.mem_cons_of_mem _ helement)).weaken ?_
    intro _ t ht
    rw [ht, hmiddle, or_left_comm]
    simp [or_assoc]

theorem forM_modifyNotes (change : α → Notes → Notes) (elements : List α) :
    (elements.forM fun e => modifyNotes (change e)) =
      modifyNotes fun ns =>
        elements.foldl (fun ns e => change e ns) ns := by
  induction elements with
  | nil => rfl
  | cons first rest ih =>
    change (modifyNotes (change first) >>= fun _ => rest.forM _) = _
    rw [ih]
    rfl

end Loops

end WidgetFlow.Analysis
