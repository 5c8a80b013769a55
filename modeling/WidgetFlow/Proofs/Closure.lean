import Mathlib.Data.Finset.Card
import Mathlib.Data.Finset.Filter
import Mathlib.Logic.Relation
import WidgetFlow.Closure

/-!
# What a closure holds

A search in rounds meets exactly the elements that can be reached. Read `mem_closure_iff` first: if
the elements that have steps lie in a finite set, and the bound exceeds its size, then an element is
in the closure if and only if a chain of steps leads to it from a start.

Soundness holds for any bound. Completeness counts the elements with steps that no round has
expanded yet: a round that leaves something fresh expands one of them.
-/

namespace WidgetFlow

def StepsTo {α : Type} (next : α → List α) (src dst : α) : Prop := dst ∈ next src

namespace Search

variable {α : Type} [Ord α] [Std.TransOrd α] [Std.LawfulEqOrd α]
variable {next : α → List α} {search : Search α} {e : α}

omit [Std.TransOrd α] [Std.LawfulEqOrd α] in
@[simp] theorem meet_all_nil : search.meetAll [] = search := rfl

omit [Std.TransOrd α] [Std.LawfulEqOrd α] in
@[simp] theorem meet_all_cons {elements : List α} :
    search.meetAll (e :: elements) = (search.meet e).meetAll elements := rfl

theorem mem_met_meet {other : α} :
    other ∈ (search.meet e).met ↔ other ∈ search.met ∨ other = e := by
  unfold meet
  split
  case isTrue h =>
    have hmem : e ∈ search.met := Std.TreeSet.contains_iff_mem.mp h
    constructor
    · exact Or.inl
    · rintro (h | rfl)
      · exact h
      · exact hmem
  case isFalse h =>
    rw [Std.TreeSet.mem_insert, Std.LawfulEqOrd.compare_eq_iff_eq, or_comm, eq_comm]

theorem mem_met_meet_all {elements : List α} {other : α} :
    other ∈ (search.meetAll elements).met ↔ other ∈ search.met ∨ other ∈ elements := by
  induction elements generalizing search with
  | nil => simp
  | cons first rest ih => rw [meet_all_cons, ih, mem_met_meet, List.mem_cons, or_assoc]

omit [Std.TransOrd α] [Std.LawfulEqOrd α] in
theorem mem_fresh_meet {other : α} :
    other ∈ (search.meet e).fresh ↔
      other ∈ search.fresh ∨ (other = e ∧ other ∉ search.met) := by
  unfold meet
  split
  case isTrue h =>
    have hmem : e ∈ search.met := Std.TreeSet.contains_iff_mem.mp h
    constructor
    · exact Or.inl
    · rintro (h | ⟨rfl, hnew⟩)
      · exact h
      · exact absurd hmem hnew
  case isFalse h =>
    have hnew : e ∉ search.met := fun hmem => h (Std.TreeSet.contains_iff_mem.mpr hmem)
    rw [List.mem_cons, or_comm]
    constructor
    · rintro (h | rfl)
      · exact Or.inl h
      · exact Or.inr ⟨rfl, hnew⟩
    · rintro (h | ⟨rfl, _⟩)
      · exact Or.inl h
      · exact Or.inr rfl

theorem mem_fresh_meet_all {elements : List α} {other : α} :
    other ∈ (search.meetAll elements).fresh ↔
      other ∈ search.fresh ∨ (other ∈ elements ∧ other ∉ search.met) := by
  induction elements generalizing search with
  | nil => simp
  | cons first rest ih =>
    rw [meet_all_cons, ih, mem_fresh_meet, mem_met_meet, List.mem_cons]
    by_cases hfirst : other = first <;> by_cases hmet : other ∈ search.met <;> simp [hfirst, hmet]

/-- A round meets what one step from a fresh element leads to. -/
theorem mem_met_round {other : α} :
    other ∈ (search.round next).met ↔
      other ∈ search.met ∨ ∃ src ∈ search.fresh, StepsTo next src other := by
  simp [round, mem_met_meet_all, StepsTo]

theorem mem_fresh_round {other : α} :
    other ∈ (search.round next).fresh ↔
      other ∉ search.met ∧ ∃ src ∈ search.fresh, StepsTo next src other := by
  simp [round, mem_fresh_meet_all, StepsTo, and_comm]

/-- The steps from all elements that are met and not fresh lead to elements that are met. -/
def Expanded (next : α → List α) (search : Search α) : Prop :=
  (∀ e ∈ search.fresh, e ∈ search.met) ∧
    ∀ src ∈ search.met, src ∉ search.fresh →
      ∀ dst, StepsTo next src dst → dst ∈ search.met

theorem Expanded.round (h : search.Expanded next) : (search.round next).Expanded next := by
  obtain ⟨hfresh, hstep⟩ := h
  constructor
  · intro e helement
    exact mem_met_round.mpr (Or.inr (mem_fresh_round.mp helement).2)
  · intro src hsource hold dst htarget
    rw [mem_met_round] at hsource ⊢
    by_cases hmet : src ∈ search.met
    · by_cases hsourceFresh : src ∈ search.fresh
      · exact Or.inr ⟨src, hsourceFresh, htarget⟩
      · exact Or.inl (hstep src hmet hsourceFresh dst htarget)
    · exact absurd (mem_fresh_round.mpr ⟨hmet, hsource.resolve_left hmet⟩) hold

omit [Std.TransOrd α] [Std.LawfulEqOrd α] in
theorem run_of_fresh_nil (rounds : Nat) (h : search.fresh = []) :
    run next rounds search = search := by
  cases rounds with
  | zero => rfl
  | succ rounds => simp [run, h]

/-- The elements of a set that have not been expanded. -/
noncomputable def pending (search : Search α) (domain : Finset α) : Finset α :=
  open Classical in domain.filter fun e =>
    e ∉ search.met ∨ e ∈ search.fresh

theorem pending_round_lt {domain : Finset α} (h : search.Expanded next)
    (helement : e ∈ search.fresh) (hdomain : e ∈ domain) :
    ((search.round next).pending domain).card < (search.pending domain).card := by
  apply Finset.card_lt_card
  rw [Finset.ssubset_iff_of_subset]
  · refine ⟨e, ?_, ?_⟩
    · simp [pending, hdomain, helement]
    · have hmet := h.1 e helement
      simp [pending, mem_met_round, mem_fresh_round, hmet]
  · intro other hother
    simp only [pending, Finset.mem_filter, mem_met_round, mem_fresh_round, not_or] at hother ⊢
    exact ⟨hother.1, Or.inl (hother.2.elim And.left And.left)⟩

/-- With more rounds than elements left to expand, a search ends with nothing to expand. -/
theorem run_closed {domain : Finset α} (hsteps : ∀ src, next src ≠ [] → src ∈ domain)
    (rounds : Nat) (h : search.Expanded next) (hrounds : (search.pending domain).card < rounds) :
    ∀ src ∈ (run next rounds search).met, ∀ dst, StepsTo next src dst →
      dst ∈ (run next rounds search).met := by
  induction rounds generalizing search with
  | zero => exact absurd hrounds (Nat.not_lt_zero _)
  | succ rounds ih =>
    by_cases hdone : search.fresh = []
    · rw [run_of_fresh_nil _ hdone]
      intro src hsource dst htarget
      exact h.2 src hsource (by simp [hdone]) dst htarget
    · rw [run, if_neg (by simpa using hdone)]
      by_cases hexpand : ∃ e ∈ search.fresh, e ∈ domain
      · obtain ⟨e, helement, hdomain⟩ := hexpand
        have hless := pending_round_lt h helement hdomain
        exact ih h.round (by omega)
      · -- no fresh element has a step, so this round is the last
        have hlast : (search.round next).fresh = [] := by
          rw [List.eq_nil_iff_forall_not_mem]
          intro dst htarget
          obtain ⟨_, src, hsource, hstep⟩ := mem_fresh_round.mp htarget
          exact hexpand ⟨src, hsource, hsteps src (List.ne_nil_of_mem hstep)⟩
        rw [run_of_fresh_nil _ hlast]
        intro src hsource dst htarget
        exact h.round.2 src hsource (by simp [hlast]) dst htarget

theorem mem_met_run (rounds : Nat) {dst : α} (h : dst ∈ (run next rounds search).met)
    (hfresh : ∀ e ∈ search.fresh, e ∈ search.met) :
    ∃ src ∈ search.met, Relation.ReflTransGen (StepsTo next) src dst := by
  induction rounds generalizing search with
  | zero => exact ⟨dst, h, .refl⟩
  | succ rounds ih =>
    rw [run] at h
    split at h
    · exact ⟨dst, h, .refl⟩
    · obtain ⟨middle, hmiddle, hpath⟩ := ih h fun e helement =>
        mem_met_round.mpr (Or.inr (mem_fresh_round.mp helement).2)
      rcases mem_met_round.mp hmiddle with hmiddle | ⟨src, hsource, hstep⟩
      · exact ⟨middle, hmiddle, hpath⟩
      · exact ⟨src, hfresh src hsource, .head hstep hpath⟩

theorem subset_met_run (rounds : Nat) (h : e ∈ search.met) :
    e ∈ (run next rounds search).met := by
  induction rounds generalizing search with
  | zero => exact h
  | succ rounds ih =>
    rw [run]
    split
    · exact h
    · exact ih (mem_met_round.mpr (Or.inl h))

end Search

section Closure

variable {α : Type} [Ord α] [Std.TransOrd α] [Std.LawfulEqOrd α]
variable {next : α → List α} {bound : Nat} {starts : List α} {dst : α}

theorem reachable_of_mem_closure (h : dst ∈ closure next bound starts) :
    ∃ s ∈ starts, Relation.ReflTransGen (StepsTo next) s dst := by
  obtain ⟨s, hs, hpath⟩ := Search.mem_met_run bound h fun e helement => by
    simpa [Search.mem_met_meet_all, Search.mem_fresh_meet_all] using helement
  exact ⟨s, by simpa [Search.mem_met_meet_all] using hs, hpath⟩

/-- If the bound exceeds the number of elements with steps, a closure holds exactly what can be
reached from the starts. -/
theorem mem_closure_iff {domain : Finset α}
    (hsteps : ∀ src, next src ≠ [] → src ∈ domain) (hbound : domain.card < bound) :
    dst ∈ closure next bound starts ↔
      ∃ s ∈ starts, Relation.ReflTransGen (StepsTo next) s dst := by
  refine ⟨reachable_of_mem_closure, ?_⟩
  rintro ⟨s, hs, hpath⟩
  have hinitial : (Search.meetAll {} starts : Search α).Expanded next := by
    constructor
    · intro e helement
      simpa [Search.mem_met_meet_all, Search.mem_fresh_meet_all] using helement
    · intro src hsource hold
      simp_all [Search.mem_met_meet_all, Search.mem_fresh_meet_all]
  have hpending : ((Search.meetAll {} starts).pending domain).card < bound := by
    classical
    exact (Finset.card_filter_le _ _).trans_lt hbound
  induction hpath with
  | refl => exact Search.subset_met_run bound (by simpa [Search.mem_met_meet_all] using hs)
  | tail _ hstep ih => exact Search.run_closed hsteps bound hinitial hpending _ ih _ hstep

/-- From one start, a closure holds exactly what can be reached, if the bound exceeds the length of a
list of all elements with steps. -/
theorem mem_closure_singleton {s : α} {sources : List α}
    (hsteps : ∀ src dst, StepsTo next src dst → src ∈ sources)
    (hbound : sources.length < bound) :
    dst ∈ closure next bound [s] ↔ Relation.ReflTransGen (StepsTo next) s dst := by
  classical
  have hsources : ∀ src, next src ≠ [] → src ∈ sources.toFinset := by
    intro src hsource
    obtain ⟨dst, htarget⟩ := List.exists_mem_of_ne_nil _ hsource
    exact List.mem_toFinset.mpr (hsteps src dst htarget)
  rw [mem_closure_iff hsources (sources.toFinset_card_le.trans_lt hbound)]
  simp

end Closure

end WidgetFlow
